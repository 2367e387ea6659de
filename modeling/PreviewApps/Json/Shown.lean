import PreviewApps.Json.Printer

/-!
Values as they read inside a message or a header: a string on its own stands as it is, and within a
list or an object it is quoted.
-/

namespace PreviewApps.Json

/-- Unlike in JSON texts, what is no number and the infinities are in small letters. -/
def shownDecimal : Decimal → String
  | .nan => "nan"
  | .infinite neg => if neg then "-inf" else "inf"
  | d => String.ofList (decimalText d)

mutual

def shownPart : Json → String
  | null => "None"
  | bool true => "True"
  | bool false => "False"
  | int n => toString n
  | decimal d => shownDecimal d
  | str s => Text.quoted s
  | arr vs => "[" ++ String.intercalate ", " (shownItems vs) ++ "]"
  | obj ms => "\x7b" ++ String.intercalate ", " (shownMembers ms) ++ "\x7d"

def shownItems : List Json → List String
  | [] => []
  | v :: vs => shownPart v :: shownItems vs

def shownMembers : List (String × Json) → List String
  | [] => []
  | (k, v) :: ms => (Text.quoted k ++ ": " ++ shownPart v) :: shownMembers ms

end

def shown : Json → String
  | str s => s
  | j => shownPart j

end PreviewApps.Json
