import PreviewApps.Rule.Basic

/-!
Rules as text. Arguments stand between backticks, and parentheses only where the reader would group
otherwise: around a disjunction inside a conjunction and around every right operand that is itself
of the operator's kind.
-/

namespace PreviewApps.Rule

def argChars (a : String) : List Char := backtick :: a.toList ++ [backtick]

def argsChars : List String → List Char
  | [] => []
  | [a] => argChars a
  | a :: as => argChars a ++ ',' :: ' ' :: argsChars as

def isMatcher : Rule → Bool
  | matcher .. => true
  | _ => false

def isAnd : Rule → Bool
  | and .. => true
  | _ => false

def isOr : Rule → Bool
  | or .. => true
  | _ => false

def grouped (wrap : Bool) (cs : List Char) : List Char := if wrap then '(' :: cs ++ [')'] else cs

def chars : Rule → List Char
  | matcher n as => n.toList ++ '(' :: argsChars as ++ [')']
  | not e => '!' :: grouped (!e.isMatcher) (chars e)
  | and l r =>
    grouped l.isOr (chars l) ++ [' ', '&', '&', ' '] ++ grouped (r.isAnd || r.isOr) (chars r)
  | or l r => chars l ++ [' ', '|', '|', ' '] ++ grouped r.isOr (chars r)

def render (e : Rule) : String := String.ofList e.chars

end PreviewApps.Rule
