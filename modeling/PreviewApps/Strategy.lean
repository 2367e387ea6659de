import PreviewApps.Time.Timestamp

/-!
When a redeployment recreates the pods of a service: the orchestrator does so when an annotation of
the pod template changes.
-/

namespace PreviewApps

inductive RedeployPolicy
  | onImageUpdate
  | never
  | always
  deriving DecidableEq

def RedeployPolicy.label : RedeployPolicy → String
  | onImageUpdate => "on-image-update"
  | never => "never"
  | always => "always"

def RedeployPolicy.ofLabel? (s : String) : Option RedeployPolicy :=
  [onImageUpdate, never, always].find? (·.label == s)

structure Strategy where
  policy : RedeployPolicy
  imageHash : Option String
  hashed : policy = .onImageUpdate → imageHash.getD "" ≠ ""
  deriving DecidableEq

namespace Strategy

def of? (policy : RedeployPolicy) (imageHash : Option String) : Option Strategy :=
  if h : policy = .onImageUpdate → imageHash.getD "" ≠ "" then some ⟨policy, imageHash, h⟩ else none

def never : Strategy := ⟨.never, none, by decide⟩

def always : Strategy := ⟨.always, none, by decide⟩

def onImageUpdate (hash : String) (h : hash ≠ "") : Strategy :=
  ⟨.onImageUpdate, some hash, fun _ => h⟩

def podAnnotations (s : Strategy) (now : Timestamp) : List (String × String) :=
  match s.policy with
  | .onImageUpdate => [("imageHash", s.imageHash.getD "")]
  | .never => []
  | .always => [("date", now.render)]

end Strategy

end PreviewApps
