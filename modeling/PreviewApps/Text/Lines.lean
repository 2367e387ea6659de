/-! Lines of a text: every line boundary ends one, and `\r\n` is a single boundary. -/

namespace PreviewApps.Text

def isLineEnd (c : Char) : Bool := [10, 11, 12, 13, 28, 29, 30, 133, 8232, 8233].contains c.toNat

/-- Here `line` is the begun line, last character first. -/
def linesFrom (line : List Char) : List Char → List (List Char)
  | [] => if line.isEmpty then [] else [line.reverse]
  | '\r' :: '\n' :: r => line.reverse :: linesFrom [] r
  | c :: r => if isLineEnd c then line.reverse :: linesFrom [] r else linesFrom (c :: line) r

def lines (s : String) : List String := (linesFrom [] s.toList).map String.ofList

end PreviewApps.Text
