import PreviewApps.AppName
import PreviewApps.Assoc

/-!
Locks of applications, one per namespace. A lock exists as long as someone holds it, so holders of
the same namespace hold the same lock.
-/

namespace PreviewApps

/-- The namespace whose lock each holder has. -/
abbrev Locks := List (String × String)

namespace Locks

def holdersOf (namespaceId : String) (ls : Locks) : List String :=
  (ls.filter (·.2 == namespaceId)).map (·.1)

def acquire (app : AppName) (holder : String) (ls : Locks) : Locks :=
  Assoc.insert holder app.namespaceId ls

def release (holder : String) (ls : Locks) : Locks := Assoc.erase holder ls

/-- The number of locks that someone holds. -/
def live (ls : Locks) : Nat := (ls.map (·.2)).eraseDups.length

end Locks

end PreviewApps
