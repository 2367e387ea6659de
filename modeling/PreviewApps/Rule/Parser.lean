import PreviewApps.Rule.Token
import PreviewApps.Text.Quoted

/-!
Parsing rules by recursive descent over tokens: `!` binds closest, then `&&`, then `||`, and both
operators group to the left. Every parser returns the tokens it has not used.
-/

namespace PreviewApps.Rule

inductive ParseError
  | unexpectedCharacter (c : Char) (position : Nat)
  | empty
  | unexpectedToken (lexeme : String)
  | expected (kind : TokenKind) (found : Option String)
  | unknownMatcher (name : String)
  | tooDeep

def TokenKind.label : TokenKind → String
  | .and => "and"
  | .or => "or"
  | .not => "not"
  | .lparen => "lparen"
  | .rparen => "rparen"
  | .comma => "comma"
  | .string => "string"
  | .name => "name"

def ParseError.message (text : String) : ParseError → String
  | .unexpectedCharacter c n =>
    "Unexpected character " ++ Text.quoted c.toString ++ " at position " ++ toString n ++ inRule
  | .empty => "Rule must not be empty"
  | .unexpectedToken t => "Unexpected token " ++ Text.quoted t ++ inRule
  | .expected k found =>
    "Expected " ++ k.label ++ " but found " ++ Text.quoted (found.getD "end of rule") ++ inRule
  | .unknownMatcher n => "Unknown matcher " ++ Text.quoted n ++ inRule
  | .tooDeep => "Rule is nested too deeply" ++ inRule
where inRule := " in rule " ++ Text.quoted text

abbrev Parsing := Except ParseError

def missing (kind : TokenKind) (ts : List Token) : ParseError :=
  .expected kind (ts.head?.map fun t => String.ofList t.lexeme)

def expect (kind : TokenKind) : List Token → Parsing (List Char × List Token)
  | [] => .error (missing kind [])
  | t :: r => if t.kind = kind then .ok (t.lexeme, r) else .error (missing kind (t :: r))

/-- Drops the backslash of every escape. -/
def unescape : List Char → List Char
  | '\\' :: c :: r => c :: unescape r
  | c :: r => c :: unescape r
  | [] => []

/-- What a string lexeme denotes: the text between backticks as it stands, and between double
quotes with escapes undone. -/
def stringValue (lexeme : List Char) : String :=
  let body := lexeme.tail.dropLast
  String.ofList (if lexeme.head? = some backtick then body else unescape body)

def parseString (ts : List Token) : Parsing (String × List Token) := do
  let (lexeme, r) ← expect .string ts
  pure (stringValue lexeme, r)

def parseArgs : List Token → Parsing (List String × List Token)
  | ⟨.comma, _⟩ :: ⟨.string, lexeme⟩ :: r => do
    let (as, r) ← parseArgs r
    pure (stringValue lexeme :: as, r)
  | ⟨.comma, _⟩ :: ts => .error (missing .string ts)
  | ts => .ok ([], ts)

def parseMatcher (ts : List Token) : Parsing (Rule × List Token) := do
  let (name, r) ← expect .name ts
  let name := String.ofList name
  if knownMatchers.contains name then
    let (_, r) ← expect .lparen r
    let (a, r) ← parseString r
    let (as, r) ← parseArgs r
    let (_, r) ← expect .rparen r
    pure (matcher name (a :: as), r)
  else .error (.unknownMatcher name)

mutual

def parseOr : Nat → List Token → Parsing (Rule × List Token)
  | 0, _ => .error .tooDeep
  | n + 1, ts => do
    let (e, r) ← parseAnd n ts
    parseOrRest n e r

def parseOrRest : Nat → Rule → List Token → Parsing (Rule × List Token)
  | 0, _, _ => .error .tooDeep
  | n + 1, e, ts => match ts with
    | ⟨.or, _⟩ :: r => do
      let (f, r) ← parseAnd n r
      parseOrRest n (.or e f) r
    | ts => .ok (e, ts)

def parseAnd : Nat → List Token → Parsing (Rule × List Token)
  | 0, _ => .error .tooDeep
  | n + 1, ts => do
    let (e, r) ← parseUnary n ts
    parseAndRest n e r

def parseAndRest : Nat → Rule → List Token → Parsing (Rule × List Token)
  | 0, _, _ => .error .tooDeep
  | n + 1, e, ts => match ts with
    | ⟨.and, _⟩ :: r => do
      let (f, r) ← parseUnary n r
      parseAndRest n (.and e f) r
    | ts => .ok (e, ts)

def parseUnary : Nat → List Token → Parsing (Rule × List Token)
  | 0, _ => .error .tooDeep
  | n + 1, ts => match ts with
    | ⟨.not, _⟩ :: r => do
      let (e, r) ← parseUnary n r
      pure (.not e, r)
    | ⟨.lparen, _⟩ :: r => do
      let (e, r) ← parseOr n r
      let (_, r) ← expect .rparen r
      pure (e, r)
    | ts => parseMatcher ts

end

def ofTokens (ts : List Token) : Parsing Rule :=
  if ts.isEmpty then .error .empty
  else do
    let (e, r) ← parseOr (4 * ts.length + 4) ts
    match r with
    | [] => pure e
    | t :: _ => .error (.unexpectedToken (String.ofList t.lexeme))

def parse (text : String) : Parsing Rule :=
  let cs := text.toList
  match tokens cs with
  | .error left =>
    let position := cs.length - left
    .error (.unexpectedCharacter (cs.getD position ' ') position)
  | .ok ts => ofTokens ts

end PreviewApps.Rule
