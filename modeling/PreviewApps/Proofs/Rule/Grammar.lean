import PreviewApps.Proofs.Rule.Lexeme

/-!
The grammar of rules over tokens. The parser reads exactly what the grammar derives: soundness
follows the parser's fuel, completeness follows derivations, and the fuel of a parse always
suffices.
-/

namespace PreviewApps.Rule

inductive Denotes : List Char → String → Prop
  | verbatim {b} (h : backtick ∉ b) : Denotes (backtick :: b ++ [backtick]) (String.ofList b)
  | escaped {b v} (h : Escaped b v) : Denotes ('"' :: b ++ ['"']) (String.ofList v)

inductive MoreArgs : List Token → List String → Prop
  | nil : MoreArgs [] []
  | cons {c l a ts as} (ha : Denotes l a) (has : MoreArgs ts as) :
      MoreArgs (⟨.comma, c⟩ :: ⟨.string, l⟩ :: ts) (a :: as)

inductive Level
  | disjunction
  | conjunction
  | unary

/-- Both operators group to the left. -/
inductive Derives : Level → List Token → Rule → Prop
  | matcher {n o l a ts as c} (hn : String.ofList n ∈ knownMatchers) (ha : Denotes l a)
      (has : MoreArgs ts as) :
      Derives .unary (⟨.name, n⟩ :: ⟨.lparen, o⟩ :: ⟨.string, l⟩ :: ts ++ [⟨.rparen, c⟩])
        (matcher (String.ofList n) (a :: as))
  | not {x ts e} (h : Derives .unary ts e) : Derives .unary (⟨.not, x⟩ :: ts) (not e)
  | group {o ts e c} (h : Derives .disjunction ts e) :
      Derives .unary (⟨.lparen, o⟩ :: ts ++ [⟨.rparen, c⟩]) e
  | unary {ts e} (h : Derives .unary ts e) : Derives .conjunction ts e
  | and {ts e x us f} (he : Derives .conjunction ts e) (hf : Derives .unary us f) :
      Derives .conjunction (ts ++ ⟨.and, x⟩ :: us) (and e f)
  | conjunction {ts e} (h : Derives .conjunction ts e) : Derives .disjunction ts e
  | or {ts e x us f} (he : Derives .disjunction ts e) (hf : Derives .conjunction us f) :
      Derives .disjunction (ts ++ ⟨.or, x⟩ :: us) (or e f)

/-- The text is a run of longest lexemes whose tokens derive the rule. -/
def Spells (text : String) (e : Rule) : Prop :=
  ∃ ts, Lexes text.toList ts ∧ Derives .disjunction ts e

def Lexemes (ts : List Token) : Prop := ∀ t ∈ ts, Lexeme (some t.kind) t.lexeme

theorem stringValue_of_denotes {l : List Char} {a : String} (h : Denotes l a) :
    stringValue l = a := by
  cases h with
  | verbatim => simp [stringValue]
  | escaped h =>
    have hne : '"' ≠ backtick := by decide
    simp [stringValue, hne, unescape_of_escaped h]

theorem denotes_stringValue {l : List Char} (h : Lexeme (some .string) l) :
    Denotes l (stringValue l) := by
  cases h with
  | verbatim h =>
    rw [stringValue_of_denotes (.verbatim h)]
    exact .verbatim h
  | escaped h =>
    rw [stringValue_of_denotes (.escaped h)]
    exact .escaped h

section Soundness

/-- A success has used tokens of the class, and running out of fuel needs a reason. -/
def Outcome (p : List Token → α → Prop) (short : Prop) (ts : List Token) :
    Parsing (α × List Token) → Prop
  | .ok (a, r) => ∃ us, ts = us ++ r ∧ p us a
  | .error c => c = .tooDeep → short

theorem Outcome.mono {p q : List Token → α → Prop} {short short' : Prop} {ts : List Token}
    {x : Parsing (α × List Token)} (h : Outcome p short ts x) (hp : ∀ us a, p us a → q us a)
    (hs : short → short') : Outcome q short' ts x := by
  cases x with
  | error c => exact fun hc => hs (h hc)
  | ok v =>
    obtain ⟨us, hts, hus⟩ := h
    exact ⟨us, hts, hp us v.1 hus⟩

theorem Outcome.bind {p : List Token → α → Prop} {q : List Token → β → Prop} {short : Prop}
    {ts : List Token} {x : Parsing (α × List Token)}
    {k : α × List Token → Parsing (β × List Token)} (h : Outcome p short ts x)
    (hk : ∀ us a r, ts = us ++ r → p us a →
      Outcome (fun vs b => q (us ++ vs) b) short r (k (a, r))) :
    Outcome q short ts (x >>= k) := by
  cases x with
  | error c => exact h
  | ok v =>
    obtain ⟨a, r⟩ := v
    obtain ⟨us, hts, hus⟩ := h
    have hb := hk us a r hts hus
    change Outcome q short ts (k (a, r))
    cases hv : k (a, r) with
    | error c => rw [hv] at hb; exact hb
    | ok w =>
      rw [hv] at hb
      obtain ⟨vs, rfl, hq⟩ := hb
      exact ⟨us ++ vs, by rw [hts, List.append_assoc], hq⟩

theorem Outcome.cons {p : List Token → α → Prop} {short : Prop} {t : Token} {r : List Token}
    {x : Parsing (α × List Token)} (h : Outcome (fun us a => p (t :: us) a) short r x) :
    Outcome p short (t :: r) x := by
  cases x with
  | error c => exact h
  | ok v =>
    obtain ⟨us, rfl, hp⟩ := h
    exact ⟨t :: us, rfl, hp⟩

theorem outcome_expect (k : TokenKind) (ts : List Token) :
    Outcome (fun us l => us = [⟨k, l⟩]) False ts (expect k ts) := by
  cases ts with
  | nil => exact fun hc => nomatch hc
  | cons t r =>
    simp only [expect]
    split
    · next ht =>
      subst ht
      exact ⟨[t], rfl, rfl⟩
    · exact fun hc => nomatch hc

theorem outcome_parseString {ts : List Token} (hts : Lexemes ts) :
    Outcome (fun us a => ∃ l, us = [⟨.string, l⟩] ∧ Denotes l a) False ts (parseString ts) := by
  refine (outcome_expect .string ts).bind ?_
  rintro us l r rfl rfl
  exact ⟨[], rfl, l, rfl, denotes_stringValue (hts ⟨.string, l⟩ (List.mem_cons_self ..))⟩

theorem outcome_parseArgs {ts : List Token} (hts : Lexemes ts) :
    Outcome MoreArgs False ts (parseArgs ts) := by
  fun_induction parseArgs ts with
  | case1 c l r ih =>
    have hr : Lexemes r := fun t ht => hts t (List.mem_cons_of_mem _ (List.mem_cons_of_mem _ ht))
    have hl : Denotes l (stringValue l) := denotes_stringValue (hts ⟨.string, l⟩ (by simp))
    have h := ih hr
    cases hx : parseArgs r with
    | error e => rw [hx] at h; exact h
    | ok v =>
      rw [hx] at h
      obtain ⟨us, rfl, hus⟩ := h
      exact ⟨⟨.comma, c⟩ :: ⟨.string, l⟩ :: us, rfl, .cons hl hus⟩
  | case2 => exact fun hc => nomatch hc
  | case3 ts => exact ⟨[], rfl, .nil⟩

theorem Lexemes.right {us r : List Token} (h : Lexemes (us ++ r)) : Lexemes r :=
  fun t ht => h t (List.mem_append_right us ht)

theorem Lexemes.tail {t : Token} {r : List Token} (h : Lexemes (t :: r)) : Lexemes r :=
  fun u hu => h u (List.mem_cons_of_mem t hu)

theorem outcome_parseMatcher {ts : List Token} (hts : Lexemes ts) :
    Outcome (Derives .unary) False ts (parseMatcher ts) := by
  refine (outcome_expect .name ts).bind ?_
  rintro us n r rfl rfl
  simp only
  split
  · next hn =>
    have hr := hts.right
    refine (outcome_expect .lparen r).bind ?_
    rintro us o r rfl rfl
    refine (outcome_parseString hr.right).bind ?_
    rintro us a r rfl ⟨l, rfl, ha⟩
    refine (outcome_parseArgs hr.right.right).bind ?_
    rintro us as r rfl has
    refine (outcome_expect .rparen r).bind ?_
    rintro vs c r rfl rfl
    exact ⟨[], rfl, by simpa using Derives.matcher (List.contains_iff_mem.1 hn) ha has⟩
  · exact fun hc => nomatch hc

/-- What one unit of fuel more than `n` still has to give: each parser falls short only of the fuel
that its tokens ask for. -/
structure Sound (n : Nat) : Prop where
  parseOr {ts} (hts : Lexemes ts) :
    Outcome (Derives .disjunction) (n < 3 * ts.length + 3) ts (parseOr n ts)
  parseOrRest {us e ts} (hts : Lexemes ts) (he : Derives .disjunction us e) :
    Outcome (fun vs f => Derives .disjunction (us ++ vs) f) (n < 3 * ts.length + 1) ts
      (parseOrRest n e ts)
  parseAnd {ts} (hts : Lexemes ts) :
    Outcome (Derives .conjunction) (n < 3 * ts.length + 2) ts (parseAnd n ts)
  parseAndRest {us e ts} (hts : Lexemes ts) (he : Derives .conjunction us e) :
    Outcome (fun vs f => Derives .conjunction (us ++ vs) f) (n < 3 * ts.length + 1) ts
      (parseAndRest n e ts)
  parseUnary {ts} (hts : Lexemes ts) :
    Outcome (Derives .unary) (n < 3 * ts.length + 1) ts (parseUnary n ts)

variable {n : Nat} {ts : List Token}

theorem Sound.parseOr_succ (h : Sound n) (hts : Lexemes ts) :
    Outcome (Derives .disjunction) (n + 1 < 3 * ts.length + 3) ts (Rule.parseOr (n + 1) ts) := by
  refine Outcome.bind ((h.parseAnd hts).mono (fun _ _ he => he) (by omega)) ?_
  rintro us e r rfl he
  refine (h.parseOrRest hts.right (.conjunction he)).mono (fun _ _ hf => hf) ?_
  intro hn
  rw [List.length_append]
  omega

theorem Sound.parseOrRest_succ (h : Sound n) {us : List Token} {e : Rule} (hts : Lexemes ts)
    (he : Derives .disjunction us e) :
    Outcome (fun vs f => Derives .disjunction (us ++ vs) f) (n + 1 < 3 * ts.length + 1) ts
      (Rule.parseOrRest (n + 1) e ts) := by
  unfold Rule.parseOrRest
  split
  · next x r =>
    refine Outcome.cons (Outcome.bind
      ((h.parseAnd hts.tail).mono (fun _ _ hf => hf) (by rw [List.length_cons]; omega)) ?_)
    rintro vs f r rfl hf
    refine (h.parseOrRest hts.tail.right (.or (x := x) he hf)).mono ?_ ?_
    · intro ws g hg
      simpa using hg
    · intro hn
      rw [List.length_cons, List.length_append]
      omega
  · exact ⟨[], rfl, by simpa using he⟩

theorem Sound.parseAnd_succ (h : Sound n) (hts : Lexemes ts) :
    Outcome (Derives .conjunction) (n + 1 < 3 * ts.length + 2) ts (Rule.parseAnd (n + 1) ts) := by
  refine Outcome.bind ((h.parseUnary hts).mono (fun _ _ he => he) (by omega)) ?_
  rintro us e r rfl he
  refine (h.parseAndRest hts.right (.unary he)).mono (fun _ _ hf => hf) ?_
  intro hn
  rw [List.length_append]
  omega

theorem Sound.parseAndRest_succ (h : Sound n) {us : List Token} {e : Rule} (hts : Lexemes ts)
    (he : Derives .conjunction us e) :
    Outcome (fun vs f => Derives .conjunction (us ++ vs) f) (n + 1 < 3 * ts.length + 1) ts
      (Rule.parseAndRest (n + 1) e ts) := by
  unfold Rule.parseAndRest
  split
  · next x r =>
    refine Outcome.cons (Outcome.bind
      ((h.parseUnary hts.tail).mono (fun _ _ hf => hf) (by rw [List.length_cons]; omega)) ?_)
    rintro vs f r rfl hf
    refine (h.parseAndRest hts.tail.right (.and (x := x) he hf)).mono ?_ ?_
    · intro ws g hg
      simpa using hg
    · intro hn
      rw [List.length_cons, List.length_append]
      omega
  · exact ⟨[], rfl, by simpa using he⟩

theorem Sound.parseUnary_succ (h : Sound n) (hts : Lexemes ts) :
    Outcome (Derives .unary) (n + 1 < 3 * ts.length + 1) ts (Rule.parseUnary (n + 1) ts) := by
  unfold Rule.parseUnary
  split
  · next x r =>
    refine Outcome.cons (Outcome.bind
      ((h.parseUnary hts.tail).mono (fun _ _ hf => hf) (by rw [List.length_cons]; omega)) ?_)
    rintro us e r rfl he
    exact ⟨[], rfl, by simpa using Derives.not he⟩
  · next o r =>
    refine Outcome.cons (Outcome.bind
      ((h.parseOr hts.tail).mono (fun _ _ hf => hf) (by rw [List.length_cons]; omega)) ?_)
    rintro us e r rfl he
    refine Outcome.bind ((outcome_expect .rparen r).mono (fun _ _ hc => hc) False.elim) ?_
    rintro vs c r rfl rfl
    exact ⟨[], rfl, by simpa using Derives.group he⟩
  · exact (outcome_parseMatcher hts).mono (fun _ _ he => he) False.elim

theorem sound (n : Nat) : Sound n := by
  induction n with
  | zero =>
    -- without fuel every parser falls short, and each asks for some
    constructor
    all_goals
      intros
      exact fun _ => Nat.succ_pos _
  | succ n ih =>
    exact ⟨ih.parseOr_succ, ih.parseOrRest_succ, ih.parseAnd_succ, ih.parseAndRest_succ,
      ih.parseUnary_succ⟩

end Soundness

section Completeness

theorem expect_cons (k : TokenKind) (l : List Char) (r : List Token) :
    expect k (⟨k, l⟩ :: r) = .ok (l, r) := if_pos rfl

theorem parseArgs_append {us : List Token} {as : List String} (h : MoreArgs us as)
    {r : List Token} (hr : r.head?.map (·.kind) ≠ some .comma) :
    parseArgs (us ++ r) = .ok (as, r) := by
  induction h with
  | nil =>
    cases r with
    | nil => rfl
    | cons t r =>
      obtain ⟨k, l⟩ := t
      cases k <;> first | rfl | exact absurd rfl hr
  | cons ha _ ih =>
    rw [List.cons_append, List.cons_append, parseArgs, ih, stringValue_of_denotes ha]
    rfl

theorem parseMatcher_append {n o l c : List Char} {ts : List Token} {a : String}
    {as : List String} (hn : String.ofList n ∈ knownMatchers) (ha : Denotes l a)
    (has : MoreArgs ts as) (r : List Token) :
    parseMatcher (⟨.name, n⟩ :: ⟨.lparen, o⟩ :: ⟨.string, l⟩ :: (ts ++ ⟨.rparen, c⟩ :: r)) =
      .ok (matcher (String.ofList n) (a :: as), r) := by
  have hargs : parseArgs (ts ++ ⟨.rparen, c⟩ :: r) = .ok (as, ⟨.rparen, c⟩ :: r) :=
    parseArgs_append has (by simp)
  simp only [parseMatcher, parseString, expect_cons, bind, Except.bind, pure, Except.pure,
    List.contains_iff_mem.2 hn, if_true, hargs, stringValue_of_denotes ha]

variable {n : Nat} {e : Rule} {r : List Token}

theorem parseOrRest_of_head (hn : 0 < n) (hr : r.head?.map (·.kind) ≠ some .or) :
    parseOrRest n e r = .ok (e, r) := by
  obtain ⟨n, rfl⟩ := Nat.exists_eq_succ_of_ne_zero (Nat.pos_iff_ne_zero.1 hn)
  cases r with
  | nil => rfl
  | cons t r =>
    obtain ⟨k, l⟩ := t
    cases k <;> first | rfl | exact absurd rfl hr

theorem parseAndRest_of_head (hn : 0 < n) (hr : r.head?.map (·.kind) ≠ some .and) :
    parseAndRest n e r = .ok (e, r) := by
  obtain ⟨n, rfl⟩ := Nat.exists_eq_succ_of_ne_zero (Nat.pos_iff_ne_zero.1 hn)
  cases r with
  | nil => rfl
  | cons t r =>
    obtain ⟨k, l⟩ := t
    cases k <;> first | rfl | exact absurd rfl hr

/-- How a parser with enough fuel goes on behind tokens of its level: a unary rule ends by itself,
and the operators of the other levels may follow. -/
def Reads : Level → List Token → Rule → Prop
  | .unary, us, e => ∀ n r, 3 * (us ++ r).length + 1 ≤ n → parseUnary n (us ++ r) = .ok (e, r)
  | .conjunction, us, e => ∀ n r, 3 * (us ++ r).length + 2 ≤ n →
    ∃ m, 3 * r.length + 1 ≤ m ∧ parseAnd n (us ++ r) = parseAndRest m e r
  | .disjunction, us, e => ∀ n r, r.head?.map (·.kind) ≠ some .and →
    3 * (us ++ r).length + 3 ≤ n →
    ∃ m, 3 * r.length + 1 ≤ m ∧ parseOr n (us ++ r) = parseOrRest m e r

theorem reads_of_derives {level : Level} {us : List Token} (h : Derives level us e) :
    Reads level us e := by
  induction h with
  | @matcher n o l a ts as c hn ha has =>
    intro m r hm
    obtain ⟨m, rfl⟩ := Nat.exists_eq_succ_of_ne_zero (show m ≠ 0 by omega)
    simpa [parseUnary] using parseMatcher_append (o := o) (c := c) hn ha has r
  | not _ ih =>
    intro m r hm
    simp only [List.cons_append, List.length_cons] at hm
    obtain ⟨m, rfl⟩ := Nat.exists_eq_succ_of_ne_zero (show m ≠ 0 by omega)
    rw [List.cons_append, parseUnary, ih m r (by omega)]
    rfl
  | @group o ts e c _ ih =>
    intro m r hm
    simp only [List.append_assoc, List.cons_append, List.nil_append, List.length_cons] at hm ⊢
    obtain ⟨m, rfl⟩ := Nat.exists_eq_succ_of_ne_zero (show m ≠ 0 by omega)
    -- the closing parenthesis ends the disjunction
    obtain ⟨k, hk, hor⟩ := ih m (⟨.rparen, c⟩ :: r) (by simp) (by omega)
    rw [parseUnary, hor, parseOrRest_of_head (by omega) (by simp)]
    simp only [bind, Except.bind, expect_cons, pure, Except.pure]
  | unary _ ih =>
    intro m r hm
    obtain ⟨m, rfl⟩ := Nat.exists_eq_succ_of_ne_zero (show m ≠ 0 by omega)
    refine ⟨m, ?_, ?_⟩
    · simp only [List.length_append] at hm
      omega
    · rw [parseAnd, ih m r (by omega)]
      rfl
  | @and ts e x us f _ _ ihe ihf =>
    intro m r hm
    rw [List.append_assoc, List.cons_append] at hm ⊢
    obtain ⟨k, hk, hand⟩ := ihe m (⟨.and, x⟩ :: (us ++ r)) hm
    obtain ⟨k, rfl⟩ := Nat.exists_eq_succ_of_ne_zero (show k ≠ 0 by omega)
    simp only [List.length_cons] at hk
    refine ⟨k, ?_, ?_⟩
    · simp only [List.length_append] at hk
      omega
    · rw [hand, parseAndRest, ihf k r (by omega)]
      rfl
  | conjunction _ ih =>
    intro m r hr hm
    obtain ⟨m, rfl⟩ := Nat.exists_eq_succ_of_ne_zero (show m ≠ 0 by omega)
    obtain ⟨k, hk, hand⟩ := ih m r (by omega)
    refine ⟨m, ?_, ?_⟩
    · simp only [List.length_append] at hm
      omega
    · rw [parseOr, hand, parseAndRest_of_head (by omega) hr]
      rfl
  | @or ts e x us f _ _ ihe ihf =>
    intro m r hr hm
    rw [List.append_assoc, List.cons_append] at hm ⊢
    obtain ⟨k, hk, hor⟩ := ihe m (⟨.or, x⟩ :: (us ++ r)) (by simp) hm
    obtain ⟨k, rfl⟩ := Nat.exists_eq_succ_of_ne_zero (show k ≠ 0 by omega)
    simp only [List.length_cons] at hk
    obtain ⟨j, hj, hand⟩ := ihf k r (by omega)
    refine ⟨k, ?_, ?_⟩
    · simp only [List.length_append] at hk
      omega
    · rw [hor, parseOrRest, hand, parseAndRest_of_head (by omega) hr]
      rfl

end Completeness

theorem derives_ne_nil {level : Level} {ts : List Token} {e : Rule} (h : Derives level ts e) :
    ts ≠ [] := by
  induction h with
  | matcher | not | group | and | or => simp
  | unary _ ih | conjunction _ ih => exact ih

theorem outcome_ofTokens {ts : List Token} (hts : Lexemes ts) :
    Outcome (Derives .disjunction) False ts (parseOr (4 * ts.length + 4) ts) :=
  ((sound _).parseOr hts).mono (fun _ _ he => he) (by omega)

theorem ofTokens_eq_ok_iff {ts : List Token} (hts : Lexemes ts) {e : Rule} :
    ofTokens ts = .ok e ↔ Derives .disjunction ts e := by
  constructor
  · intro h
    have hout := outcome_ofTokens hts
    unfold ofTokens at h
    split at h
    · cases h
    cases hor : parseOr (4 * ts.length + 4) ts with
    | error c => rw [hor] at h; cases h
    | ok v =>
      obtain ⟨f, r⟩ := v
      rw [hor] at h hout
      obtain ⟨us, hus, hf⟩ := hout
      cases r with
      | nil =>
        cases h
        rwa [hus, List.append_nil]
      | cons t r => cases h
  · intro h
    obtain ⟨m, hm, hor⟩ := reads_of_derives h (4 * ts.length + 4) [] (by simp)
      (by rw [List.append_nil]; omega)
    rw [List.append_nil, parseOrRest_of_head (by omega) (by simp)] at hor
    unfold ofTokens
    rw [if_neg (by simpa using derives_ne_nil h), hor]
    rfl

theorem ofTokens_ne_tooDeep {ts : List Token} (hts : Lexemes ts) :
    ofTokens ts ≠ .error .tooDeep := by
  intro h
  have hout := outcome_ofTokens hts
  unfold ofTokens at h
  split at h
  · cases h
  cases hor : parseOr (4 * ts.length + 4) ts with
  | error c =>
    rw [hor] at h hout
    cases h
    exact hout rfl
  | ok v =>
    obtain ⟨f, r⟩ := v
    rw [hor] at h
    cases r <;> cases h

theorem parse_of_tokens {text : String} {ts : List Token} (h : tokens text.toList = .ok ts) :
    parse text = ofTokens ts := by
  simp only [parse, h]

theorem parse_of_tokens_error {text : String} {n : Nat} (h : tokens text.toList = .error n) :
    ∃ c p, parse text = .error (.unexpectedCharacter c p) :=
  ⟨_, _, by simp only [parse, h]; rfl⟩

theorem parse_eq_ok_iff {text : String} {e : Rule} : parse text = .ok e ↔ Spells text e := by
  constructor
  · intro hp
    cases h : tokens text.toList with
    | error n =>
      obtain ⟨c, p, he⟩ := parse_of_tokens_error h
      rw [he] at hp
      cases hp
    | ok ts =>
      have hts := tokens_eq_ok_iff.1 h
      rw [parse_of_tokens h, ofTokens_eq_ok_iff (lexeme_of_mem_of_lexes hts)] at hp
      exact ⟨ts, hts, hp⟩
  · rintro ⟨ts, hts, hd⟩
    rw [parse_of_tokens (tokens_eq_ok_iff.2 hts)]
    exact (ofTokens_eq_ok_iff (lexeme_of_mem_of_lexes hts)).2 hd

theorem parse_ne_tooDeep (text : String) : parse text ≠ .error .tooDeep := by
  cases h : tokens text.toList with
  | error n =>
    obtain ⟨c, p, he⟩ := parse_of_tokens_error h
    rw [he]
    exact fun hp => nomatch hp
  | ok ts =>
    rw [parse_of_tokens h]
    exact ofTokens_ne_tooDeep (lexeme_of_mem_of_lexes (tokens_eq_ok_iff.1 h))

/-- Texts that spell no rule have an error, and it is never for want of depth. -/
theorem parse_reads_exactly_grammar (text : String) :
    (∀ e, parse text = .ok e ↔ Spells text e) ∧
      ((¬ ∃ e, Spells text e) ↔ ∃ c, c ≠ .tooDeep ∧ parse text = .error c) := by
  refine ⟨fun e => parse_eq_ok_iff, ?_, ?_⟩
  · intro hno
    cases h : parse text with
    | ok e => exact absurd ⟨e, parse_eq_ok_iff.1 h⟩ hno
    | error c =>
      refine ⟨c, ?_, rfl⟩
      rintro rfl
      exact parse_ne_tooDeep text h
  · rintro ⟨c, -, h⟩ ⟨e, he⟩
    rw [parse_eq_ok_iff.2 he] at h
    cases h

end PreviewApps.Rule
