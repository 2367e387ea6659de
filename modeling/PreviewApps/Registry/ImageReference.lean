import PreviewApps.Text.Split

/-!
Image references `registry/repository:tag@digest`. Without a registry the image is on the default
one, where a repository without namespace belongs to `library`; the tag defaults to `latest`.
-/

namespace PreviewApps

structure ImageReference where
  registry : String
  repository : String
  tag : String
  digest : Option String
  deriving DecidableEq

namespace ImageReference

def defaultRegistry : String := "docker.io"

def apiHost (r : ImageReference) : String :=
  if r.registry = defaultRegistry then "registry-1.docker.io" else r.registry

/-- The first segment is a host if it has a dot or a colon, or is `localhost`. -/
def isHost (cs : List Char) : Bool :=
  cs.contains '.' || cs.contains ':' || cs == "localhost".toList

def cutRegistry (cs : List Char) : List Char × List Char :=
  match Text.cutFirst '/' cs with
  | some (host, rest) => if isHost host then (host, rest) else (defaultRegistry.toList, cs)
  | none => (defaultRegistry.toList, cs)

/-- Only a colon behind the last slash starts a tag. -/
def cutTag (cs : List Char) : List Char × List Char :=
  match Text.cutLast ':' cs with
  | some (name, tag) => if tag.contains '/' then (cs, "latest".toList) else (name, tag)
  | none => (cs, "latest".toList)

def inLibrary (registry repository : List Char) : List Char :=
  if registry = defaultRegistry.toList ∧ '/' ∉ repository then "library/".toList ++ repository
  else repository

def ofNonempty (cs : List Char) : ImageReference :=
  let (name, digest) := (Text.cutFirst '@' cs).getD (cs, [])
  let (registry, rest) := cutRegistry name
  let (repository, tag) := cutTag rest
  { registry := String.ofList registry
    repository := String.ofList (inLibrary registry repository)
    tag := String.ofList tag
    digest := if digest.isEmpty then none else some (String.ofList digest) }

def parse? (image : String) : Option ImageReference :=
  if image.isEmpty then none else some (ofNonempty image.toList)

def render (r : ImageReference) : String :=
  let name := r.registry ++ "/" ++ r.repository ++ ":" ++ r.tag
  match r.digest with
  | some d => name ++ "@" ++ d
  | none => name

end ImageReference

end PreviewApps
