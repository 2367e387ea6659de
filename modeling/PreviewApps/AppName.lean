import PreviewApps.Text.Lowercase

/-!
Names of preview applications. A name keeps its spelling; the namespace it is deployed to, and every
object name, comes from its lower-case form, so names that differ in case share a namespace.
-/

namespace PreviewApps

namespace AppName

def isNameChar (c : Char) : Bool :=
  ('a' ≤ c && c ≤ 'z') || ('A' ≤ c && c ≤ 'Z') || ('0' ≤ c && c ≤ '9') || c == '_' || c == '.'
    || c == '-'

def dropFinalNewline (cs : List Char) : List Char :=
  if cs.getLast? = some '\n' then cs.dropLast else cs

/-- One line feed at the end is tolerated. -/
def isValid (raw : String) : Bool :=
  let cs := dropFinalNewline raw.toList
  !cs.isEmpty && cs.all isNameChar

end AppName

structure AppName where
  value : String
  valid : AppName.isValid value = true
  deriving DecidableEq

namespace AppName

def ofString? (raw : String) : Option AppName :=
  if h : isValid raw = true then some ⟨raw, h⟩ else none

def master : AppName := ⟨"master", by decide +kernel⟩

def namespaceId (a : AppName) : String := Text.lower a.value

variable (a : AppName) (service : String)

def deploymentName : String := a.namespaceId ++ "-" ++ service ++ "-deployment"

def secretName : String := a.namespaceId ++ "-" ++ service ++ "-secret"

def ingressRouteName : String := a.namespaceId ++ "-" ++ service ++ "-ingress-route"

def claimNameStem : String := a.namespaceId ++ "-" ++ service ++ "-pvc-"

def pullSecretName : String := a.namespaceId ++ "-image-pull-secret"

end AppName

end PreviewApps
