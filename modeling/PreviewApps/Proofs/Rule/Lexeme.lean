import PreviewApps.Rule.Parser

/-!
Lexemes of rule texts as a relation. Cutting finds the longest lexeme at the front of a text, and a
text has tokens exactly when it is a run of longest lexemes.
-/

namespace PreviewApps.Rule

inductive Escaped : List Char → List Char → Prop
  | nil : Escaped [] []
  | plain {c b v} (hquote : c ≠ '"') (hslash : c ≠ '\\') : Escaped b v → Escaped (c :: b) (c :: v)
  | escape {c b v} (hline : c ≠ '\n') : Escaped b v → Escaped ('\\' :: c :: b) (c :: v)

/-- Blanks have no kind. -/
inductive Lexeme : Option TokenKind → List Char → Prop
  | blank {cs} (hne : cs ≠ []) (h : ∀ c ∈ cs, Text.isBlank c = true) : Lexeme none cs
  | and : Lexeme (some .and) ['&', '&']
  | or : Lexeme (some .or) ['|', '|']
  | not : Lexeme (some .not) ['!']
  | lparen : Lexeme (some .lparen) ['(']
  | rparen : Lexeme (some .rparen) [')']
  | comma : Lexeme (some .comma) [',']
  | verbatim {b} (h : backtick ∉ b) : Lexeme (some .string) (backtick :: b ++ [backtick])
  | escaped {b v} (h : Escaped b v) : Lexeme (some .string) ('"' :: b ++ ['"'])
  | name {c cs} (hc : isLetter c = true) (h : ∀ d ∈ cs, isNameChar d = true) :
      Lexeme (some .name) (c :: cs)

def Munch (kind : Option TokenKind) (lexeme rest : List Char) : Prop :=
  Lexeme kind lexeme ∧ ∀ k l, Lexeme k l → l <+: lexeme ++ rest → l.length ≤ lexeme.length

inductive Lexes : List Char → List Token → Prop
  | nil : Lexes [] []
  | blank {l r ts} : Munch none l r → Lexes r ts → Lexes (l ++ r) ts
  | token {k l r ts} : Munch (some k) l r → Lexes r ts → Lexes (l ++ r) (⟨k, l⟩ :: ts)

theorem doubleQuoted_append {b v : List Char} (h : Escaped b v) (r : List Char) :
    doubleQuoted (b ++ '"' :: r) = some (b, r) := by
  induction h with
  | nil => rfl
  | plain _ hslash _ ih => simp [doubleQuoted, hslash, ih]
  | escape hline _ ih => simp [doubleQuoted, hline, ih]

theorem escaped_of_doubleQuoted {cs b r : List Char} (h : doubleQuoted cs = some (b, r)) :
    ∃ v, Escaped b v := by
  fun_induction doubleQuoted cs generalizing b with
  | case1 => simp at h
  | case2 r =>
    cases h
    exact ⟨[], .nil⟩
  | case3 r => simp at h
  | case4 c r hline ih =>
    obtain ⟨⟨b', r'⟩, h', he⟩ := Option.map_eq_some_iff.1 h
    cases he
    obtain ⟨v, hv⟩ := ih h'
    exact ⟨c :: v, .escape hline hv⟩
  | case5 r => simp at h
  | case6 c r hquote _ hslash ih =>
    obtain ⟨⟨b', r'⟩, h', he⟩ := Option.map_eq_some_iff.1 h
    cases he
    obtain ⟨v, hv⟩ := ih h'
    exact ⟨c :: v, .plain hquote hslash hv⟩

theorem unescape_of_escaped {b v : List Char} (h : Escaped b v) : unescape b = v := by
  induction h with
  | nil => rfl
  | plain _ hslash _ ih => simp [unescape, hslash, ih]
  | escape _ _ ih => simp [unescape, ih]

theorem isLetter_iff {c : Char} :
    isLetter c = true ↔ 97 ≤ c.toNat ∧ c.toNat ≤ 122 ∨ 65 ≤ c.toNat ∧ c.toNat ≤ 90 := by
  simp only [isLetter, Bool.or_eq_true, Bool.and_eq_true, decide_eq_true_eq, Char.le_def,
    UInt32.le_iff_toNat_le]
  exact Iff.rfl

theorem not_isLetter_of_isBlank {c : Char} (h : Text.isBlank c = true) : isLetter c = false := by
  rw [← Bool.not_eq_true, isLetter_iff]
  simp only [Text.isBlank, Text.isSpace, Text.isSeparator, Text.spaceRanges, Ranges.contains,
    List.any_cons, List.any_nil, Bool.or_false, Bool.or_eq_true, Bool.and_eq_true,
    decide_eq_true_eq] at h
  omega

theorem cutLexeme?_of_isBlank {c : Char} (h : Text.isBlank c = true) (r : List Char) :
    cutLexeme? (c :: r) =
      some ⟨none, c :: r.takeWhile Text.isBlank, r.dropWhile Text.isBlank⟩ := by
  simp only [cutLexeme?, h, if_true]

theorem cutLexeme?_backtick (r : List Char) :
    cutLexeme? (backtick :: r) = cutString backtick (Text.cutFirst backtick r) := rfl

theorem cutLexeme?_quote (r : List Char) :
    cutLexeme? ('"' :: r) = cutString '"' (doubleQuoted r) := rfl

theorem cutLexeme?_of_isLetter {c : Char} (h : isLetter c = true) (r : List Char) :
    cutLexeme? (c :: r) =
      some ⟨some .name, c :: r.takeWhile isNameChar, r.dropWhile isNameChar⟩ := by
  have hblank : Text.isBlank c = false := by
    cases hb : Text.isBlank c with
    | false => rfl
    | true => rw [not_isLetter_of_isBlank hb] at h; cases h
  have hne : ∀ d : Char, isLetter d = false → c ≠ d := by
    intro d hd he
    rw [he, hd] at h
    cases h
  simp only [cutLexeme?, hblank, h, hne '&' rfl, hne '|' rfl, hne '!' rfl, hne '(' rfl, hne ')' rfl,
    hne ',' rfl, hne backtick rfl, hne '"' rfl, if_true, if_false, Bool.false_eq_true]

theorem cutLexeme?_append_of_ne {k : TokenKind} {l : List Char} (h : Lexeme (some k) l)
    (hk : k ≠ .name) (r : List Char) : cutLexeme? (l ++ r) = some ⟨some k, l, r⟩ := by
  -- only blanks and names can go on behind a lexeme
  cases h with
  | name => exact absurd rfl hk
  | verbatim h =>
    rw [List.append_assoc, List.cons_append, List.singleton_append, cutLexeme?_backtick,
      Text.cutFirst_append r h]
    rfl
  | escaped h =>
    rw [List.append_assoc, List.cons_append, List.singleton_append, cutLexeme?_quote,
      doubleQuoted_append h]
    rfl
  | _ => rfl

theorem cutLexeme?_append {k : Option TokenKind} {l : List Char} (h : Lexeme k l) (r : List Char) :
    ∃ x r', r = x ++ r' ∧ cutLexeme? (l ++ r) = some ⟨k, l ++ x, r'⟩ := by
  cases h with
  | @blank cs hne h =>
    obtain ⟨c, cs, rfl⟩ := List.exists_cons_of_ne_nil hne
    have h' : ∀ d ∈ cs, Text.isBlank d = true := fun d hd => h d (List.mem_cons_of_mem c hd)
    refine ⟨r.takeWhile Text.isBlank, r.dropWhile Text.isBlank,
      List.takeWhile_append_dropWhile.symm, ?_⟩
    rw [List.cons_append, cutLexeme?_of_isBlank (h c (List.mem_cons_self ..)),
      List.takeWhile_append_of_pos h', List.dropWhile_append_of_pos h']
    rfl
  | @name c cs hc h =>
    refine ⟨r.takeWhile isNameChar, r.dropWhile isNameChar,
      List.takeWhile_append_dropWhile.symm, ?_⟩
    rw [List.cons_append, cutLexeme?_of_isLetter hc, List.takeWhile_append_of_pos h,
      List.dropWhile_append_of_pos h]
    rfl
  | verbatim h =>
    have hcut := cutLexeme?_append_of_ne (.verbatim h) (by decide) r
    exact ⟨[], r, rfl, by rwa [List.append_nil]⟩
  | escaped h =>
    have hcut := cutLexeme?_append_of_ne (.escaped h) (by decide) r
    exact ⟨[], r, rfl, by rwa [List.append_nil]⟩
  | _ => exact ⟨[], r, rfl, rfl⟩

theorem all_of_mem_takeWhile {p : Char → Bool} {l : List Char} :
    ∀ c ∈ l.takeWhile p, p c = true := List.all_eq_true.1 List.all_takeWhile

theorem lexeme_of_cutDoubled {c : Char} {kind : TokenKind} {r : List Char} {t : Cut}
    (hl : Lexeme (some kind) [c, c]) (h : cutDoubled c kind r = some t) :
    Lexeme t.kind t.lexeme := by
  cases r with
  | nil => cases h
  | cons d r =>
    simp only [cutDoubled] at h
    split at h
    · cases h
      exact hl
    · cases h

theorem lexeme_of_cutLexeme? {cs : List Char} {t : Cut} (h : cutLexeme? cs = some t) :
    Lexeme t.kind t.lexeme := by
  cases cs with
  | nil => cases h
  | cons c r =>
    simp only [cutLexeme?] at h
    -- one case for each test of the first character, in the order of the tests
    split at h
    case isTrue hc =>
      cases h
      refine .blank (List.cons_ne_nil _ _) ?_
      intro d hd
      rcases List.mem_cons.1 hd with rfl | hd
      · exact hc
      · exact all_of_mem_takeWhile d hd
    split at h
    · exact lexeme_of_cutDoubled .and h
    split at h
    · exact lexeme_of_cutDoubled .or h
    split at h
    case isTrue hc =>
      cases h
      exact hc ▸ .not
    split at h
    case isTrue hc =>
      cases h
      exact hc ▸ .lparen
    split at h
    case isTrue hc =>
      cases h
      exact hc ▸ .rparen
    split at h
    case isTrue hc =>
      cases h
      exact hc ▸ .comma
    split at h
    · obtain ⟨⟨b, r'⟩, h', rfl⟩ := Option.map_eq_some_iff.1 h
      exact .verbatim (Text.cutFirst_eq_some h').2
    split at h
    · obtain ⟨⟨b, r'⟩, h', rfl⟩ := Option.map_eq_some_iff.1 h
      obtain ⟨v, hv⟩ := escaped_of_doubleQuoted h'
      exact .escaped hv
    split at h
    case isTrue hc =>
      cases h
      exact .name hc all_of_mem_takeWhile
    · cases h

theorem cutLexeme?_eq_some_iff {cs l r : List Char} {k : Option TokenKind} :
    cutLexeme? cs = some ⟨k, l, r⟩ ↔ cs = l ++ r ∧ Munch k l r := by
  constructor
  · intro h
    have happ : l ++ r = cs := (lexeme_append_rest h).1
    refine ⟨happ.symm, lexeme_of_cutLexeme? h, ?_⟩
    rintro k' l' hl ⟨r', hr⟩
    obtain ⟨x, y, rfl, hcut⟩ := cutLexeme?_append hl r'
    rw [hr, happ, h] at hcut
    cases hcut
    simp
  · rintro ⟨rfl, hl, hmax⟩
    obtain ⟨x, r', rfl, hcut⟩ := cutLexeme?_append hl r
    -- what is cut is a lexeme at the front itself, so it cannot be longer
    have hlen := hmax k (l ++ x) (lexeme_of_cutLexeme? hcut) ⟨r', by simp⟩
    have hx : x = [] := by
      rw [← List.length_eq_zero_iff]
      simp only [List.length_append] at hlen
      omega
    subst hx
    simpa using hcut

theorem cutLexeme?_eq_none_iff {cs : List Char} :
    cutLexeme? cs = none ↔ ∀ k l, Lexeme k l → ¬ l <+: cs := by
  constructor
  · rintro h k l hl ⟨r, rfl⟩
    obtain ⟨x, r', -, hcut⟩ := cutLexeme?_append hl r
    rw [h] at hcut
    cases hcut
  · intro h
    cases hcut : cutLexeme? cs with
    | none => rfl
    | some t =>
      exact absurd ⟨t.rest, (lexeme_append_rest hcut).1⟩ (h t.kind _ (lexeme_of_cutLexeme? hcut))

theorem tokens_of_cutLexeme? {cs : List Char} {t : Cut} (h : cutLexeme? cs = some t) :
    tokens cs = (tokens t.rest).map fun ts =>
      match t.kind with
      | none => ts
      | some k => ⟨k, t.lexeme⟩ :: ts := by
  rw [tokens]
  split
  · next hn => rw [h] at hn; cases hn
  · next t' ht =>
    rw [h] at ht
    cases ht
    cases tokens t.rest with
    | error e => rfl
    | ok ts => cases hk : t.kind <;> rfl

theorem tokens_of_cutLexeme?_eq_none {cs : List Char} (h : cutLexeme? cs = none) :
    tokens cs = if cs.isEmpty then .ok [] else .error cs.length := by
  rw [tokens]
  split
  · rfl
  · next t ht => rw [h] at ht; cases ht

theorem lexes_of_tokens {cs : List Char} {ts : List Token} (h : tokens cs = .ok ts) :
    Lexes cs ts := by
  cases hcut : cutLexeme? cs with
  | none =>
    rw [tokens_of_cutLexeme?_eq_none hcut] at h
    split at h
    · next he =>
      cases h
      rw [List.isEmpty_iff.1 he]
      exact .nil
    · cases h
  | some t =>
    obtain ⟨k, l, r⟩ := t
    have hlt : r.length < cs.length := length_rest_lt hcut
    rw [tokens_of_cutLexeme? hcut] at h
    obtain ⟨rfl, hm⟩ := cutLexeme?_eq_some_iff.1 hcut
    cases hr : tokens r with
    | error e => rw [hr] at h; cases h
    | ok us =>
      rw [hr] at h
      cases k with
      | none => cases h; exact .blank hm (lexes_of_tokens hr)
      | some k => cases h; exact .token hm (lexes_of_tokens hr)
termination_by cs.length

theorem tokens_eq_ok_iff {cs : List Char} {ts : List Token} :
    tokens cs = .ok ts ↔ Lexes cs ts := by
  refine ⟨lexes_of_tokens, fun h => ?_⟩
  induction h with
  | nil => exact tokens_of_cutLexeme?_eq_none rfl
  | blank hm _ ih => rw [tokens_of_cutLexeme? (cutLexeme?_eq_some_iff.2 ⟨rfl, hm⟩), ih]; rfl
  | token hm _ ih => rw [tokens_of_cutLexeme? (cutLexeme?_eq_some_iff.2 ⟨rfl, hm⟩), ih]; rfl

theorem lexeme_of_mem_of_lexes {cs : List Char} {ts : List Token} (h : Lexes cs ts) :
    ∀ t ∈ ts, Lexeme (some t.kind) t.lexeme := by
  induction h with
  | nil => exact fun t ht => absurd ht (List.not_mem_nil)
  | blank _ _ ih => exact ih
  | token hm _ ih =>
    intro t ht
    rcases List.mem_cons.1 ht with rfl | ht
    · exact hm.1
    · exact ih t ht

end PreviewApps.Rule
