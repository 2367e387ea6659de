import PreviewApps.Json.Printer

/-!
Environment variables of a service, in order, and the annotation from which replicas copy them.
-/

namespace PreviewApps

structure EnvVar where
  key : String
  value : String
  templated : Bool
  replicate : Bool
  deriving DecidableEq

abbrev Environment := List EnvVar

namespace Environment

def get? (env : Environment) (key : String) : Option EnvVar := env.find? (·.key == key)

def replicated (env : Environment) : Environment := env.filter (·.replicate)

def replicaEntry (v : EnvVar) : Json :=
  .obj [("value", .str v.value), ("templated", .bool v.templated), ("replicate", .bool v.replicate)]

/-- Of replicated variables with one key the last counts, at the place of the first. -/
def replicaMembers (env : Environment) : List (String × Json) :=
  Assoc.ofList (env.replicated.map fun v => (v.key, replicaEntry v))

def replicaAnnotation? (env : Environment) : Option String :=
  if env.replicated.isEmpty then none else some (Json.render .compact (.obj env.replicaMembers))

end Environment

def EnvVar.replicatedOf (key value : String) : EnvVar := ⟨key, value, false, true⟩

end PreviewApps
