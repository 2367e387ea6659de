import PreviewApps.Assoc
import PreviewApps.Text.Lowercase
import PreviewApps.Text.Split
import PreviewApps.Text.Word

/-!
Bearer challenges of a registry: after the scheme, parameters of the form `name="value"` are picked
out wherever they stand.
-/

namespace PreviewApps.Challenge

def isBearer (challenge : String) : Bool :=
  "bearer ".toList.isPrefixOf (Text.lower challenge).toList

/-- Here `name` holds the word characters just before the text, last one first. -/
def paramsFrom (name : List Char) (cs : List Char) : List (String × String) :=
  match cs with
  | [] => []
  | '=' :: '"' :: r =>
    if name.isEmpty then paramsFrom [] r
    else match _h : Text.cutFirst '"' r with
      | some (value, rest) =>
        (String.ofList name.reverse, String.ofList value) :: paramsFrom [] rest
      | none => paramsFrom [] r
  | c :: r => paramsFrom (if Text.isWord c then c :: name else []) r
termination_by cs.length
decreasing_by
  · simp only [List.length_cons]; omega
  · have := Text.length_lt_of_cutFirst_eq_some _h
    simp only [List.length_cons]; omega
  · simp only [List.length_cons]; omega
  · simp only [List.length_cons]; omega

/-- Of parameters with one name the last counts. -/
def params (challenge : String) : List (String × String) :=
  Assoc.ofList (paramsFrom [] challenge.toList)

end PreviewApps.Challenge
