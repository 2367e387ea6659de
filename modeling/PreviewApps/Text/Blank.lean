import PreviewApps.Text.Ranges

/-!
White space and blanks. White space is what has the property White_Space; blanks are white space and
the four information separators.
-/

namespace PreviewApps.Text

def spaceRanges : Ranges :=
  [(9, 13), (32, 32), (133, 133), (160, 160), (5760, 5760), (8192, 8202), (8232, 8233),
    (8239, 8239), (8287, 8287), (12288, 12288)]

def isSpace (c : Char) : Bool := spaceRanges.contains c.toNat

def isSeparator (c : Char) : Bool := 28 ≤ c.toNat && c.toNat ≤ 31

def isBlank (c : Char) : Bool := isSpace c || isSeparator c

/-- Takes away characters of a class at both ends. -/
def trim (p : Char → Bool) (cs : List Char) : List Char :=
  ((cs.dropWhile p).reverse.dropWhile p).reverse

end PreviewApps.Text
