import Mathlib.Logic.ExistsUnique
import PreviewApps.Proofs.Rule.RoundTrip

/-!
How a rule text is split into lexemes. Every text has exactly one split, from left to right into
longest lexemes until none starts. If nothing is left there, the lexemes that are no blanks are its
tokens, and with other blanks between them they are read again; else that place is reported.
-/

namespace PreviewApps.Rule

structure Piece where
  kind : Option TokenKind
  lexeme : List Char

def Piece.token? (p : Piece) : Option Token := p.kind.map fun k => ⟨k, p.lexeme⟩

def joined (ps : List Piece) : List Char := ps.flatMap (·.lexeme)

/-- Each piece is as long as a lexeme can be where it stands, and `rest` follows the last one. -/
inductive Longest : List Piece → List Char → Prop
  | nil {rest} : Longest [] rest
  | cons {p ps rest} (hp : Munch p.kind p.lexeme (joined ps ++ rest)) (hps : Longest ps rest) :
      Longest (p :: ps) rest

structure Splits (cs : List Char) (ps : List Piece) (rest : List Char) : Prop where
  text : cs = joined ps ++ rest
  longest : Longest ps rest
  stuck : ∀ k l, Lexeme k l → ¬l <+: rest

section Splitting

variable {cs rest : List Char} {ps : List Piece}

theorem joined_cons (p : Piece) (ps : List Piece) : joined (p :: ps) = p.lexeme ++ joined ps :=
  List.flatMap_cons

theorem splits_iff_of_stuck (h : cutLexeme? cs = none) :
    Splits cs ps rest ↔ ps = [] ∧ rest = cs := by
  have hstuck := cutLexeme?_eq_none_iff.1 h
  constructor
  · rintro ⟨htext, hlongest, -⟩
    cases hlongest with
    | nil => exact ⟨rfl, htext.symm⟩
    | @cons p ps _ hp _ =>
      rw [joined_cons, List.append_assoc] at htext
      exact absurd ⟨_, htext.symm⟩ (hstuck p.kind p.lexeme hp.1)
  · rintro ⟨rfl, rfl⟩
    exact ⟨rfl, .nil, hstuck⟩

theorem splits_iff_of_cut {t : Cut} (h : cutLexeme? cs = some t) :
    Splits cs ps rest ↔ ∃ us, ps = ⟨t.kind, t.lexeme⟩ :: us ∧ Splits t.rest us rest := by
  obtain ⟨k, l, r⟩ := t
  obtain ⟨hcs, hmunch⟩ := cutLexeme?_eq_some_iff.1 h
  constructor
  · rintro ⟨htext, hlongest, hstuck⟩
    cases hlongest with
    | nil => exact absurd ⟨r, hcs.symm.trans htext⟩ (hstuck k l hmunch.1)
    | @cons p us _ hp hus =>
      -- what is cut is the longest lexeme, and so is the first piece
      have hcut : cutLexeme? cs = some ⟨p.kind, p.lexeme, joined us ++ rest⟩ := by
        rw [htext, joined_cons, List.append_assoc]
        exact cutLexeme?_eq_some_iff.2 ⟨rfl, hp⟩
      rw [h] at hcut
      cases hcut
      exact ⟨us, rfl, rfl, hus, hstuck⟩
  · rintro ⟨us, rfl, rfl, hus, hstuck⟩
    refine ⟨?_, .cons hmunch hus, hstuck⟩
    rw [joined_cons, List.append_assoc, hcs]

theorem existsUnique_splits (cs : List Char) :
    ∃! split : List Piece × List Char, Splits cs split.1 split.2 := by
  cases h : cutLexeme? cs with
  | none =>
    refine ⟨([], cs), (splits_iff_of_stuck h).2 ⟨rfl, rfl⟩, ?_⟩
    rintro ⟨ps, rest⟩ hsplit
    obtain ⟨rfl, rfl⟩ := (splits_iff_of_stuck h).1 hsplit
    rfl
  | some t =>
    have hlt : t.rest.length < cs.length := length_rest_lt h
    obtain ⟨⟨us, rest⟩, hus, hunique⟩ := existsUnique_splits t.rest
    refine ⟨(⟨t.kind, t.lexeme⟩ :: us, rest), (splits_iff_of_cut h).2 ⟨us, rfl, hus⟩, ?_⟩
    rintro ⟨ps, rest'⟩ hsplit
    obtain ⟨vs, rfl, hvs⟩ := (splits_iff_of_cut h).1 hsplit
    cases hunique (vs, rest') hvs
    rfl
termination_by cs.length

theorem tokens_of_splits (h : Splits cs ps rest) :
    tokens cs = if rest = [] then .ok (ps.filterMap Piece.token?) else .error rest.length := by
  obtain ⟨rfl, hlongest, hstuck⟩ := h
  have hnone := cutLexeme?_eq_none_iff.2 hstuck
  induction hlongest with
  | nil => simpa [joined] using tokens_of_cutLexeme?_eq_none hnone
  | @cons p ps rest hp _ ih =>
    have hcut := cutLexeme?_eq_some_iff.2 ⟨rfl, hp⟩
    rw [joined_cons, List.append_assoc, tokens_of_cutLexeme? hcut, ih hstuck hnone]
    obtain ⟨k, l⟩ := p
    by_cases hrest : rest = []
    · rw [if_pos hrest, if_pos hrest, List.filterMap_cons]
      cases k with
      | none => rfl
      | some k => rfl
    · rw [if_neg hrest, if_neg hrest]
      rfl

theorem tokens_eq_ok_iff_splits {ts : List Token} :
    tokens cs = .ok ts ↔ ∃ ps, Splits cs ps [] ∧ ts = ps.filterMap Piece.token? := by
  obtain ⟨⟨ps, rest⟩, hsplit, hunique⟩ := existsUnique_splits cs
  have htokens := tokens_of_splits hsplit
  constructor
  · intro h
    rw [h] at htokens
    split at htokens
    · next hrest =>
      cases htokens
      exact ⟨ps, hrest ▸ hsplit, rfl⟩
    · cases htokens
  · rintro ⟨us, hus, rfl⟩
    rw [tokens_of_splits hus, if_pos rfl]

theorem tokens_eq_error_iff_splits {n : Nat} :
    tokens cs = .error n ↔
      ∃ ps c rest, Splits cs ps (c :: rest) ∧ n = (c :: rest).length := by
  obtain ⟨⟨ps, rest⟩, hsplit, hunique⟩ := existsUnique_splits cs
  have htokens := tokens_of_splits hsplit
  constructor
  · intro h
    rw [h] at htokens
    split at htokens
    · cases htokens
    · next hrest =>
      cases htokens
      obtain ⟨c, r, rfl⟩ := List.exists_cons_of_ne_nil hrest
      exact ⟨ps, c, r, hsplit, rfl⟩
  · rintro ⟨us, c, r, hus, rfl⟩
    rw [tokens_of_splits hus, if_neg (List.cons_ne_nil c r)]

end Splitting

section Spacing

inductive Spaced : List Token → List Char → Prop
  | nil : Spaced [] []
  | single {t} : Spaced [t] t.lexeme
  | cons {t u ts gap cs} (hgap : Lexeme none gap) (h : Spaced (u :: ts) cs) :
      Spaced (t :: u :: ts) (t.lexeme ++ (gap ++ cs))

theorem cutLexeme?_of_lexeme {k : Option TokenKind} {l : List Char} (h : Lexeme k l) :
    cutLexeme? l = some ⟨k, l, []⟩ := by
  obtain ⟨x, r, hnil, hcut⟩ := cutLexeme?_append h []
  obtain ⟨rfl, rfl⟩ := List.append_eq_nil_iff.1 hnil.symm
  simpa using hcut

theorem isNameChar_eq_false_of_isBlank {c : Char} (h : Text.isBlank c = true) :
    isNameChar c = false := by
  have hdigit : ('0' ≤ c && c ≤ '9') = false := by
    rw [← Bool.not_eq_true, Bool.and_eq_true, decide_eq_true_eq, decide_eq_true_eq, Char.le_def,
      Char.le_def, UInt32.le_iff_toNat_le, UInt32.le_iff_toNat_le]
    change ¬(48 ≤ c.toNat ∧ c.toNat ≤ 57)
    simp only [Text.isBlank, Text.isSpace, Text.isSeparator, Text.spaceRanges, Ranges.contains,
      List.any_cons, List.any_nil, Bool.or_false, Bool.or_eq_true, Bool.and_eq_true,
      decide_eq_true_eq] at h
    omega
  rw [isNameChar, not_isLetter_of_isBlank h, hdigit]
  rfl

theorem cutLexeme?_append_blank {k : TokenKind} {l : List Char} (h : Lexeme (some k) l) {c : Char}
    (hc : Text.isBlank c = true) (r : List Char) :
    cutLexeme? (l ++ c :: r) = some ⟨some k, l, c :: r⟩ := by
  by_cases hk : k = .name
  · subst hk
    cases h with
    | name hd h =>
      have hend : ¬isNameChar c = true := by
        rw [isNameChar_eq_false_of_isBlank hc]
        exact Bool.false_ne_true
      rw [List.cons_append, cutLexeme?_of_isLetter hd, List.takeWhile_append_of_pos h,
        List.dropWhile_append_of_pos h, List.takeWhile_cons_of_neg hend,
        List.dropWhile_cons_of_neg hend, List.append_nil]
  · exact cutLexeme?_append_of_ne h hk (c :: r)

theorem tokens_blank_append {gap : List Char} (h : ∀ c ∈ gap, Text.isBlank c = true)
    (cs : List Char) : tokens (gap ++ cs) = tokens cs := by
  rw [← tokens_dropWhile_isBlank, List.dropWhile_append_of_pos h, tokens_dropWhile_isBlank]

theorem tokens_of_spaced {ts : List Token} {cs : List Char} (h : Spaced ts cs)
    (hts : Lexemes ts) : tokens cs = .ok ts := by
  induction h with
  | nil => exact tokens_eq_ok_iff.2 .nil
  | single =>
    have hcut := cutLexeme?_of_lexeme (hts _ (List.mem_singleton_self _))
    rw [tokens_of_cutLexeme? hcut, tokens_eq_ok_iff.2 .nil]
    rfl
  | @cons t u ts gap cs hgap _ ih =>
    cases hgap with
    | blank hne hblank =>
      obtain ⟨c, gap, rfl⟩ := List.exists_cons_of_ne_nil hne
      have ht := hts t (List.mem_cons_self ..)
      have hcut := cutLexeme?_append_blank ht (hblank c (List.mem_cons_self ..)) (gap ++ cs)
      have hrest : tokens (c :: (gap ++ cs)) = .ok (u :: ts) := by
        rw [← List.cons_append, tokens_blank_append hblank]
        exact ih hts.tail
      rw [List.cons_append, tokens_of_cutLexeme? hcut, hrest]
      rfl

end Spacing

section Reporting

/-- The failure, if it is one, is none of the splitting. -/
def Parsing.BlamesToken (x : Parsing α) : Prop := ∀ c p, x ≠ .error (.unexpectedCharacter c p)

theorem Parsing.BlamesToken.ok (a : α) : Parsing.BlamesToken (.ok a) := by
  rintro _ _ ⟨⟩

theorem Parsing.BlamesToken.bind {x : Parsing α} {k : α → Parsing β}
    (h : Parsing.BlamesToken x) (hk : ∀ a, Parsing.BlamesToken (k a)) :
    Parsing.BlamesToken (x >>= k) := by
  cases x with
  | ok a => exact hk a
  | error e =>
    rintro c p he
    cases he
    exact h c p rfl

theorem blamesToken_expect (k : TokenKind) (ts : List Token) :
    Parsing.BlamesToken (expect k ts) := by
  unfold expect missing
  split
  · rintro _ _ ⟨⟩
  · split
    · exact .ok _
    · rintro _ _ ⟨⟩

theorem blamesToken_parseString (ts : List Token) : Parsing.BlamesToken (parseString ts) :=
  (blamesToken_expect .string ts).bind fun _ => .ok _

theorem blamesToken_parseArgs (ts : List Token) : Parsing.BlamesToken (parseArgs ts) := by
  fun_induction parseArgs ts with
  | case1 c l r ih => exact ih.bind fun _ => .ok _
  | case2 => rintro _ _ ⟨⟩
  | case3 => exact .ok _

theorem blamesToken_parseMatcher (ts : List Token) : Parsing.BlamesToken (parseMatcher ts) := by
  refine (blamesToken_expect .name ts).bind fun v => ?_
  simp only
  split
  · refine (blamesToken_expect .lparen v.2).bind fun v => ?_
    refine (blamesToken_parseString v.2).bind fun v => ?_
    refine (blamesToken_parseArgs v.2).bind fun v => ?_
    exact (blamesToken_expect .rparen v.2).bind fun _ => .ok _
  · rintro _ _ ⟨⟩

structure BlameTokens (n : Nat) : Prop where
  parseOr ts : Parsing.BlamesToken (parseOr n ts)
  parseOrRest e ts : Parsing.BlamesToken (parseOrRest n e ts)
  parseAnd ts : Parsing.BlamesToken (parseAnd n ts)
  parseAndRest e ts : Parsing.BlamesToken (parseAndRest n e ts)
  parseUnary ts : Parsing.BlamesToken (parseUnary n ts)

theorem BlameTokens.parseUnary_succ {n : Nat} (h : BlameTokens n) (ts : List Token) :
    Parsing.BlamesToken (Rule.parseUnary (n + 1) ts) := by
  unfold Rule.parseUnary
  split
  · exact (h.parseUnary _).bind fun _ => .ok _
  · exact (h.parseOr _).bind fun v => (blamesToken_expect .rparen v.2).bind fun _ => .ok _
  · exact blamesToken_parseMatcher ts

theorem blameTokens (n : Nat) : BlameTokens n := by
  induction n with
  | zero =>
    constructor
    all_goals
      intros
      rintro _ _ ⟨⟩
  | succ n ih =>
    refine ⟨?_, ?_, ?_, ?_, ih.parseUnary_succ⟩
    · exact fun ts => (ih.parseAnd ts).bind fun v => ih.parseOrRest v.1 v.2
    · intro e ts
      unfold Rule.parseOrRest
      split
      · exact (ih.parseAnd _).bind fun v => ih.parseOrRest (.or e v.1) v.2
      · exact .ok _
    · exact fun ts => (ih.parseUnary ts).bind fun v => ih.parseAndRest v.1 v.2
    · intro e ts
      unfold Rule.parseAndRest
      split
      · exact (ih.parseUnary _).bind fun v => ih.parseAndRest (.and e v.1) v.2
      · exact .ok _

theorem blamesToken_ofTokens (ts : List Token) : Parsing.BlamesToken (ofTokens ts) := by
  unfold ofTokens
  split
  · rintro _ _ ⟨⟩
  · refine ((blameTokens _).parseOr ts).bind fun v => ?_
    simp only
    split
    · exact .ok _
    · rintro _ _ ⟨⟩

theorem parse_of_splits {text : String} {ps : List Piece} {c : Char} {rest : List Char}
    (h : Splits text.toList ps (c :: rest)) :
    parse text = .error (.unexpectedCharacter c (joined ps).length) := by
  have htokens := tokens_of_splits h
  rw [if_neg (List.cons_ne_nil c rest)] at htokens
  have hposition : text.toList.length - (c :: rest).length = (joined ps).length := by
    rw [h.text, List.length_append, Nat.add_sub_cancel]
  have hchar : text.toList.getD (joined ps).length ' ' = c := by
    rw [h.text, List.getD_eq_getElem?_getD, List.getElem?_append_right (Nat.le_refl _),
      Nat.sub_self]
    rfl
  simp only [parse, htokens, hposition, hchar]

theorem parse_eq_unexpectedCharacter_iff {text : String} {c : Char} {p : Nat} :
    parse text = .error (.unexpectedCharacter c p) ↔
      ∃ ps rest, Splits text.toList ps (c :: rest) ∧ p = (joined ps).length := by
  constructor
  · intro h
    cases htokens : tokens text.toList with
    | ok ts =>
      rw [parse_of_tokens htokens] at h
      exact absurd h (blamesToken_ofTokens ts c p)
    | error n =>
      obtain ⟨ps, d, rest, hsplit, -⟩ := tokens_eq_error_iff_splits.1 htokens
      rw [parse_of_splits hsplit] at h
      cases h
      exact ⟨ps, rest, hsplit, rfl⟩
  · rintro ⟨ps, rest, hsplit, rfl⟩
    exact parse_of_splits hsplit

end Reporting

/-- Every cut takes something, and a text has one split. It succeeds if that is all of the text, and
gives the tokens that any spacing of them gives again; else the length of what is split before the
first character that starts no lexeme is reported, and parsing reports a character for no other
reason. -/
theorem text_splits_losslessly (text : String) :
    (∀ t, cutLexeme? text.toList = some t →
      t.lexeme ++ t.rest = text.toList ∧ t.lexeme ≠ []) ∧
    (∃! split : List Piece × List Char, Splits text.toList split.1 split.2) ∧
    (∀ ts, tokens text.toList = .ok ts ↔
      ∃ ps, Splits text.toList ps [] ∧ ts = ps.filterMap Piece.token?) ∧
    (∀ ts cs, tokens text.toList = .ok ts → Spaced ts cs → tokens cs = .ok ts) ∧
    (∀ n, tokens text.toList = .error n ↔
      ∃ ps c rest, Splits text.toList ps (c :: rest) ∧ n = (c :: rest).length) ∧
    (∀ c p, parse text = .error (.unexpectedCharacter c p) ↔
      ∃ ps rest, Splits text.toList ps (c :: rest) ∧ p = (joined ps).length) := by
  refine ⟨fun t => lexeme_append_rest, existsUnique_splits _, fun ts => tokens_eq_ok_iff_splits,
    fun ts cs hts hcs => ?_, fun n => tokens_eq_error_iff_splits,
    fun c p => parse_eq_unexpectedCharacter_iff⟩
  exact tokens_of_spaced hcs (lexeme_of_mem_of_lexes (tokens_eq_ok_iff.1 hts))

example : parse "Host(`a`) &# b" = .error (.unexpectedCharacter '&' 10) := by cbv

end PreviewApps.Rule
