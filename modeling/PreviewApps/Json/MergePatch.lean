import PreviewApps.Json.Basic

/-!
Merge patches: the members of an object patch are applied one by one, `null` removes a member, and
any other patch replaces the target.
-/

namespace PreviewApps.Json

mutual

def mergePatch (target : Json) : Json → Json
  | obj ms => obj (mergeMembers target.members ms)
  | null => null
  | bool b => bool b
  | int n => int n
  | decimal d => decimal d
  | str s => str s
  | arr vs => arr vs

def mergeMembers (target : List (String × Json)) : List (String × Json) → List (String × Json)
  | [] => target
  | (k, v) :: ms =>
    let merged :=
      if v.isNull then Assoc.erase k target
      else Assoc.insert k (mergePatch ((target.lookup k).getD null) v) target
    mergeMembers merged ms

end

end PreviewApps.Json
