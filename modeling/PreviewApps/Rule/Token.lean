import PreviewApps.Rule.Basic
import PreviewApps.Text.Blank
import PreviewApps.Text.Split

/-!
Tokens of a rule text. The text is cut into longest lexemes from left to right and blanks are
dropped; where no lexeme starts, the position is reported.
-/

namespace PreviewApps.Rule

inductive TokenKind
  | and
  | or
  | not
  | lparen
  | rparen
  | comma
  | string
  | name
  deriving DecidableEq

structure Token where
  kind : TokenKind
  lexeme : List Char
  deriving DecidableEq

/-- A lexeme with its kind, which is `none` for blanks, and the text behind it. -/
structure Cut where
  kind : Option TokenKind
  lexeme : List Char
  rest : List Char

def isLetter (c : Char) : Bool := ('a' ≤ c && c ≤ 'z') || ('A' ≤ c && c ≤ 'Z')

def isNameChar (c : Char) : Bool := isLetter c || ('0' ≤ c && c ≤ '9')

/-- The text up to the next unescaped quote; a line feed cannot be escaped. -/
def doubleQuoted : List Char → Option (List Char × List Char)
  | [] => none
  | '"' :: r => some ([], r)
  | '\\' :: c :: r =>
    if c = '\n' then none else (doubleQuoted r).map fun (a, b) => ('\\' :: c :: a, b)
  | c :: r => if c = '\\' then none else (doubleQuoted r).map fun (a, b) => (c :: a, b)

def cutDoubled (c : Char) (kind : TokenKind) : List Char → Option Cut
  | [] => none
  | d :: r => if d = c then some ⟨kind, [c, c], r⟩ else none

def cutString (quote : Char) (body : Option (List Char × List Char)) : Option Cut :=
  body.map fun (a, b) => ⟨some .string, quote :: a ++ [quote], b⟩

def cutLexeme? : List Char → Option Cut
  | [] => none
  | c :: r =>
    if Text.isBlank c then some ⟨none, c :: r.takeWhile Text.isBlank, r.dropWhile Text.isBlank⟩
    else if c = '&' then cutDoubled '&' .and r
    else if c = '|' then cutDoubled '|' .or r
    else if c = '!' then some ⟨some .not, [c], r⟩
    else if c = '(' then some ⟨some .lparen, [c], r⟩
    else if c = ')' then some ⟨some .rparen, [c], r⟩
    else if c = ',' then some ⟨some .comma, [c], r⟩
    else if c = backtick then cutString backtick (Text.cutFirst backtick r)
    else if c = '"' then cutString '"' (doubleQuoted r)
    else if isLetter c then some ⟨some .name, c :: r.takeWhile isNameChar, r.dropWhile isNameChar⟩
    else none

theorem doubleQuoted_eq_some {cs a b : List Char} (h : doubleQuoted cs = some (a, b)) :
    cs = a ++ '"' :: b := by
  fun_induction doubleQuoted cs generalizing a with
  | case1 => simp at h
  | case2 r => simp_all
  | case3 r => simp at h
  | case4 c r hc ih =>
    obtain ⟨⟨a', b'⟩, h', he⟩ := Option.map_eq_some_iff.1 h
    cases he
    simp [ih h']
  | case5 r => simp at h
  | case6 c r _ _ hc ih =>
    obtain ⟨⟨a', b'⟩, h', he⟩ := Option.map_eq_some_iff.1 h
    cases he
    simp [ih h']

theorem lexeme_append_rest {cs : List Char} {t : Cut} (h : cutLexeme? cs = some t) :
    t.lexeme ++ t.rest = cs ∧ t.lexeme ≠ [] := by
  cases cs with
  | nil => simp [cutLexeme?] at h
  | cons c r =>
    simp only [cutLexeme?] at h
    split at h
    · cases h; simp
    split at h
    · subst_vars; cases r <;> simp_all [cutDoubled]; obtain ⟨rfl, rfl⟩ := h; simp
    split at h
    · subst_vars; cases r <;> simp_all [cutDoubled]; obtain ⟨rfl, rfl⟩ := h; simp
    split at h
    · cases h; simp
    split at h
    · cases h; simp
    split at h
    · cases h; simp
    split at h
    · cases h; simp
    split at h
    · obtain ⟨⟨a, b⟩, h', rfl⟩ := Option.map_eq_some_iff.1 h
      have := (Text.cutFirst_eq_some h').1
      simp_all
    split at h
    · obtain ⟨⟨a, b⟩, h', rfl⟩ := Option.map_eq_some_iff.1 h
      have := doubleQuoted_eq_some h'
      simp_all
    split at h
    · cases h; simp
    · simp at h

theorem length_rest_lt {cs : List Char} {t : Cut} (h : cutLexeme? cs = some t) :
    t.rest.length < cs.length := by
  obtain ⟨h, hne⟩ := lexeme_append_rest h
  have := List.length_pos_iff.2 hne
  have := congrArg List.length h
  simp at this
  omega

/-- The tokens, or how many characters are left where no lexeme starts. -/
def tokens (cs : List Char) : Except Nat (List Token) :=
  match _h : cutLexeme? cs with
  | none => if cs.isEmpty then .ok [] else .error cs.length
  | some t => do
    let ts ← tokens t.rest
    match t.kind with
    | none => pure ts
    | some k => pure (⟨k, t.lexeme⟩ :: ts)
termination_by cs.length
decreasing_by exact length_rest_lt _h

end PreviewApps.Rule
