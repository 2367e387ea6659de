import PreviewApps.Proofs.Rule.Grammar
import PreviewApps.Rule.Printer

/-!
Reading rules back from their text. A text is followed piece by piece: while the arguments are free
of backticks, every piece is cut into its own tokens, and the first argument with a backtick is cut
short, so that the values of the strings give it away.
-/

namespace PreviewApps.Rule

def matchers : Rule → List (String × List String)
  | matcher n as => [(n, as)]
  | not e => matchers e
  | and l r => matchers l ++ matchers r
  | or l r => matchers l ++ matchers r

def arguments (e : Rule) : List String := e.matchers.flatMap (·.2)

def argToken (a : String) : Token := ⟨.string, argChars a⟩

def argTokens : List String → List Token
  | [] => []
  | a :: as => argToken a :: as.flatMap fun b => [⟨.comma, [',']⟩, argToken b]

def groupedTokens (wrap : Bool) (ts : List Token) : List Token :=
  if wrap then ⟨.lparen, ['(']⟩ :: ts ++ [⟨.rparen, [')']⟩] else ts

def textTokens : Rule → List Token
  | matcher n as => ⟨.name, n.toList⟩ :: ⟨.lparen, ['(']⟩ :: argTokens as ++ [⟨.rparen, [')']⟩]
  | not e => ⟨.not, ['!']⟩ :: groupedTokens (!e.isMatcher) (textTokens e)
  | and l r =>
    groupedTokens l.isOr (textTokens l) ++ ⟨.and, ['&', '&']⟩ ::
      groupedTokens (r.isAnd || r.isOr) (textTokens r)
  | or l r =>
    textTokens l ++ ⟨.or, ['|', '|']⟩ :: groupedTokens r.isOr (textTokens r)

def values (ts : List Token) : List String :=
  ts.filterMap fun t => if t.kind = .string then some (stringValue t.lexeme) else none

def Plain (as : List String) : Prop := ∀ a ∈ as, backtick ∉ a.toList

@[simp] theorem arguments_matcher (n : String) (as : List String) :
    (matcher n as).arguments = as := List.append_nil as

@[simp] theorem arguments_not (e : Rule) : (not e).arguments = e.arguments := rfl

@[simp] theorem arguments_and (l r : Rule) : (and l r).arguments = l.arguments ++ r.arguments :=
  List.flatMap_append

@[simp] theorem arguments_or (l r : Rule) : (or l r).arguments = l.arguments ++ r.arguments :=
  List.flatMap_append

theorem values_append (ts us : List Token) : values (ts ++ us) = values ts ++ values us :=
  List.filterMap_append

theorem plain_append {as bs : List String} : Plain (as ++ bs) ↔ Plain as ∧ Plain bs :=
  List.forall_mem_append

section Derivations

theorem values_of_moreArgs {ts : List Token} {as : List String} (h : MoreArgs ts as) :
    values ts = as := by
  induction h with
  | nil => rfl
  | cons ha _ ih => simpa [values, stringValue_of_denotes ha] using ih

theorem values_of_derives {level : Level} {ts : List Token} {e : Rule} (h : Derives level ts e) :
    values ts = e.arguments := by
  induction h with
  | @matcher n o l a ts as c hn ha has =>
    have hts := values_of_moreArgs has
    simp only [values] at hts
    simp [values, stringValue_of_denotes ha, hts]
  | not _ ih => simpa [values] using ih
  | group _ ih => simpa [values] using ih
  | unary _ ih | conjunction _ ih => exact ih
  | and _ _ ihe ihf =>
    rw [values_append, ihe, arguments_and]
    exact congrArg _ ihf
  | or _ _ ihe ihf =>
    rw [values_append, ihe, arguments_or]
    exact congrArg _ ihf

theorem known_of_derives {level : Level} {ts : List Token} {e : Rule} (h : Derives level ts e) :
    ∀ m ∈ e.matchers, m.1 ∈ knownMatchers ∧ m.2 ≠ [] := by
  induction h with
  | matcher hn _ _ => simpa [matchers] using hn
  | not _ ih | group _ ih | unary _ ih | conjunction _ ih => exact ih
  | and _ _ ihe ihf | or _ _ ihe ihf => exact List.forall_mem_append.2 ⟨ihe, ihf⟩

theorem moreArgs_argTokens {as : List String} (h : Plain as) :
    MoreArgs (as.flatMap fun b => [⟨.comma, [',']⟩, argToken b]) as := by
  induction as with
  | nil => exact .nil
  | cons a as ih =>
    have ha := Denotes.verbatim (h a (List.mem_cons_self ..))
    rw [String.ofList_toList] at ha
    exact .cons ha (ih fun b hb => h b (List.mem_cons_of_mem a hb))

def level : Rule → Level
  | matcher .. | not _ => .unary
  | and .. => .conjunction
  | or .. => .disjunction

theorem Derives.disjunction {level : Level} {ts : List Token} {e : Rule} (h : Derives level ts e) :
    Derives .disjunction ts e := by
  cases level with
  | disjunction => exact h
  | conjunction => exact .conjunction h
  | unary => exact .conjunction (.unary h)

theorem derives_grouped {ts : List Token} {e : Rule} (h : Derives .disjunction ts e) :
    Derives .unary (groupedTokens true ts) e := .group h

theorem derives_textTokens {e : Rule} (hk : ∀ m ∈ e.matchers, m.1 ∈ knownMatchers ∧ m.2 ≠ [])
    (hp : Plain e.arguments) : Derives e.level e.textTokens e := by
  induction e with
  | matcher n as =>
    obtain ⟨hn, has⟩ := hk (n, as) (List.mem_singleton_self _)
    obtain ⟨a, as, rfl⟩ := List.exists_cons_of_ne_nil has
    rw [arguments_matcher] at hp
    have ha := Denotes.verbatim (hp a (List.mem_cons_self ..))
    rw [String.ofList_toList] at ha
    have hmore := moreArgs_argTokens fun b hb => hp b (List.mem_cons_of_mem a hb)
    have h := Derives.matcher (n := n.toList) (o := ['(']) (c := [')']) (by simpa using hn) ha hmore
    rwa [String.ofList_toList] at h
  | not e ih =>
    have h := ih hk hp
    cases e with
    | matcher => exact .not h
    | not | and | or => exact .not (derives_grouped h.disjunction)
  | and l r ihl ihr =>
    obtain ⟨hkl, hkr⟩ := List.forall_mem_append.1 hk
    obtain ⟨hpl, hpr⟩ := plain_append.1 (arguments_and l r ▸ hp)
    have hl : Derives .conjunction (groupedTokens l.isOr l.textTokens) l := by
      have h := ihl hkl hpl
      cases l with
      | matcher | not => exact .unary h
      | and => exact h
      | or => exact .unary (derives_grouped h)
    have hr : Derives .unary (groupedTokens (r.isAnd || r.isOr) r.textTokens) r := by
      have h := ihr hkr hpr
      cases r with
      | matcher | not => exact h
      | and | or => exact derives_grouped h.disjunction
    exact .and hl hr
  | or l r ihl ihr =>
    obtain ⟨hkl, hkr⟩ := List.forall_mem_append.1 hk
    obtain ⟨hpl, hpr⟩ := plain_append.1 (arguments_or l r ▸ hp)
    have hr : Derives .conjunction (groupedTokens r.isOr r.textTokens) r := by
      have h := ihr hkr hpr
      cases r with
      | matcher | not => exact .unary h
      | and => exact h
      | or => exact .unary (derives_grouped h)
    exact .or (ihl hkl hpl).disjunction hr

end Derivations

section Cutting

def CutsInto (cs : List Char) (ts : List Token) : Prop :=
  ∀ r, tokens (cs ++ r) = (tokens r).map (ts ++ ·)

theorem CutsInto.append {cs ds : List Char} {ts us : List Token} (hc : CutsInto cs ts)
    (hd : CutsInto ds us) : CutsInto (cs ++ ds) (ts ++ us) := by
  intro r
  rw [List.append_assoc, hc, hd]
  cases tokens r with
  | error n => rfl
  | ok vs => exact congrArg Except.ok (List.append_assoc ts us vs).symm

theorem cutsInto_nil : CutsInto [] [] := by
  intro r
  rw [List.nil_append]
  cases tokens r <;> rfl

theorem cutsInto_of_cut {k : TokenKind} {l : List Char}
    (h : ∀ r, cutLexeme? (l ++ r) = some ⟨k, l, r⟩) : CutsInto l [⟨k, l⟩] := by
  intro r
  rw [tokens_of_cutLexeme? (h r)]
  rfl

theorem tokens_dropWhile_isBlank (cs : List Char) :
    tokens (cs.dropWhile Text.isBlank) = tokens cs := by
  cases cs with
  | nil => rfl
  | cons c cs =>
    cases hc : Text.isBlank c with
    | false => rw [List.dropWhile_cons_of_neg (by rw [hc]; exact Bool.false_ne_true)]
    | true =>
      rw [List.dropWhile_cons_of_pos hc, tokens_of_cutLexeme? (cutLexeme?_of_isBlank hc cs)]
      cases tokens (cs.dropWhile Text.isBlank) <;> rfl

theorem cutsInto_space : CutsInto [' '] [] := by
  intro r
  have h := tokens_of_cutLexeme? (cutLexeme?_of_isBlank (c := ' ') rfl r)
  rwa [tokens_dropWhile_isBlank] at h

theorem isName_of_known {n : String} (h : n ∈ knownMatchers) :
    ∃ c cs, n.toList = c :: cs ∧ isLetter c = true ∧ ∀ d ∈ cs, isNameChar d = true := by
  have hall : ∀ n ∈ knownMatchers,
      n.toList.head?.any isLetter = true ∧ n.toList.tail.all isNameChar = true := by decide
  obtain ⟨hc, hcs⟩ := hall n h
  cases hn : n.toList with
  | nil => rw [hn] at hc; cases hc
  | cons c cs =>
    rw [hn] at hc hcs
    exact ⟨c, cs, rfl, hc, List.all_eq_true.1 hcs⟩

theorem cutsInto_lparen : CutsInto ['('] [⟨.lparen, ['(']⟩] := cutsInto_of_cut fun _ => rfl

theorem cutsInto_rparen : CutsInto [')'] [⟨.rparen, [')']⟩] := cutsInto_of_cut fun _ => rfl

theorem cutsInto_not : CutsInto ['!'] [⟨.not, ['!']⟩] := cutsInto_of_cut fun _ => rfl

theorem cutsInto_comma : CutsInto [',', ' '] [⟨.comma, [',']⟩] :=
  (cutsInto_of_cut (l := [',']) fun _ => rfl).append cutsInto_space

theorem cutsInto_and : CutsInto [' ', '&', '&', ' '] [⟨.and, ['&', '&']⟩] :=
  cutsInto_space.append ((cutsInto_of_cut (l := ['&', '&']) fun _ => rfl).append cutsInto_space)

theorem cutsInto_or : CutsInto [' ', '|', '|', ' '] [⟨.or, ['|', '|']⟩] :=
  cutsInto_space.append ((cutsInto_of_cut (l := ['|', '|']) fun _ => rfl).append cutsInto_space)

theorem cutsInto_name {n : String} (h : n ∈ knownMatchers) :
    CutsInto (n.toList ++ ['(']) [⟨.name, n.toList⟩, ⟨.lparen, ['(']⟩] := by
  -- a name ends at its parenthesis
  obtain ⟨c, cs, hn, hc, hcs⟩ := isName_of_known h
  intro r
  have hcut : cutLexeme? (n.toList ++ '(' :: r) = some ⟨some .name, n.toList, '(' :: r⟩ := by
    have hparen : isNameChar '(' = false := rfl
    rw [hn, List.cons_append, cutLexeme?_of_isLetter hc, List.takeWhile_append_of_pos hcs,
      List.dropWhile_append_of_pos hcs]
    simp [hparen]
  rw [List.append_assoc, List.singleton_append, tokens_of_cutLexeme? hcut]
  change Except.map _ (tokens (['('] ++ r)) = _
  rw [cutsInto_lparen r]
  cases tokens r <;> rfl

/-- Pieces of text with the tokens and arguments they are meant to have: without backticks in the
arguments they have these tokens, and where their values are the arguments, there is none. -/
structure Faithful (cs : List Char) (ts : List Token) (as : List String) : Prop where
  cutsInto : Plain as → CutsInto cs ts
  values : Plain as → values ts = as
  plain {r us} (hr : tokens (cs ++ r) = .ok us) (hv : as <+: Rule.values us) : Plain as

theorem Faithful.append {cs ds : List Char} {ts us : List Token} {as bs : List String}
    (hc : Faithful cs ts as) (hd : Faithful ds us bs) :
    Faithful (cs ++ ds) (ts ++ us) (as ++ bs) where
  cutsInto h := (hc.cutsInto (plain_append.1 h).1).append (hd.cutsInto (plain_append.1 h).2)
  values h := by rw [values_append, hc.values (plain_append.1 h).1, hd.values (plain_append.1 h).2]
  plain {r vs} hr hv := by
    rw [List.append_assoc] at hr
    have has : Plain as := hc.plain hr ((List.prefix_append as bs).trans hv)
    -- the first piece is plain, so the second one starts with a cut of its own
    rw [hc.cutsInto has] at hr
    cases hs : tokens (ds ++ r) with
    | error n => rw [hs] at hr; cases hr
    | ok ws =>
      rw [hs] at hr
      cases hr
      rw [values_append, hc.values has, List.prefix_append_right_inj] at hv
      exact plain_append.2 ⟨has, hd.plain hs hv⟩

theorem Faithful.of_cutsInto {cs : List Char} {ts : List Token} (h : CutsInto cs ts)
    (hv : Rule.values ts = []) : Faithful cs ts [] where
  cutsInto _ := h
  values _ := hv
  plain _ _ := fun _ ha => absurd ha List.not_mem_nil

theorem faithful_arg (a : String) : Faithful (argChars a) [argToken a] [a] where
  cutsInto h := by
    refine cutsInto_of_cut fun r => ?_
    have ha := h a (List.mem_singleton_self a)
    rw [argChars, List.append_assoc, List.cons_append, cutLexeme?_backtick, List.singleton_append,
      Text.cutFirst_append r ha]
    rfl
  values h := by
    have ha := Denotes.verbatim (h a (List.mem_singleton_self a))
    have hv := stringValue_of_denotes ha
    rw [String.ofList_toList] at hv
    exact congrArg (· :: []) hv
  plain {r us} hr hv := by
    rw [argChars, List.append_assoc, List.cons_append] at hr
    cases hf : Text.cutFirst backtick (a.toList ++ ([backtick] ++ r)) with
    | none =>
      rw [Text.cutFirst_eq_none] at hf
      exact absurd (by simp) hf
    | some p =>
      obtain ⟨b, q⟩ := p
      -- the token ends at the first backtick, so its value has none
      have hb : backtick ∉ b := (Text.cutFirst_eq_some hf).2
      have hcut := cutLexeme?_backtick (a.toList ++ ([backtick] ++ r))
      rw [hf] at hcut
      rw [tokens_of_cutLexeme? hcut] at hr
      cases hq : tokens q with
      | error n =>
        simp only [hq] at hr
        cases hr
      | ok ws =>
        simp only [hq] at hr
        cases hr
        have hval : a = stringValue (backtick :: b ++ [backtick]) := (List.cons_prefix_cons.1 hv).1
        rw [stringValue_of_denotes (.verbatim hb)] at hval
        intro a' ha'
        rwa [List.mem_singleton.1 ha', hval, String.toList_ofList]

theorem faithful_more (as : List String) :
    Faithful (as.flatMap fun b => ',' :: ' ' :: argChars b)
      (as.flatMap fun b => [⟨.comma, [',']⟩, argToken b]) as := by
  induction as with
  | nil => exact .of_cutsInto cutsInto_nil rfl
  | cons a as ih =>
    have ha := (Faithful.of_cutsInto cutsInto_comma rfl).append (faithful_arg a)
    exact ha.append ih

theorem argsChars_cons (a : String) (as : List String) :
    argsChars (a :: as) = argChars a ++ as.flatMap fun b => ',' :: ' ' :: argChars b := by
  induction as generalizing a with
  | nil => exact (List.append_nil _).symm
  | cons b as ih =>
    rw [argsChars, ih, List.flatMap_cons]
    · rfl
    · exact fun h => nomatch h

theorem Faithful.grouped {cs : List Char} {ts : List Token} {as : List String} (wrap : Bool)
    (h : Faithful cs ts as) : Faithful (Rule.grouped wrap cs) (groupedTokens wrap ts) as := by
  cases wrap with
  | false => exact h
  | true =>
    have hopen := (Faithful.of_cutsInto cutsInto_lparen rfl).append h
    simpa [Rule.grouped, groupedTokens] using hopen.append (.of_cutsInto cutsInto_rparen rfl)

theorem faithful_chars {e : Rule} (hk : ∀ m ∈ e.matchers, m.1 ∈ knownMatchers ∧ m.2 ≠ []) :
    Faithful e.chars e.textTokens e.arguments := by
  induction e with
  | matcher n as =>
    obtain ⟨hn, has⟩ := hk (n, as) (List.mem_singleton_self _)
    obtain ⟨a, as, rfl⟩ := List.exists_cons_of_ne_nil has
    have hargs := (faithful_arg a).append (faithful_more as)
    have hopen := (Faithful.of_cutsInto (cutsInto_name hn) rfl).append hargs
    have h := hopen.append (.of_cutsInto cutsInto_rparen rfl)
    rw [← argsChars_cons] at h
    simpa [chars, textTokens, argTokens] using h
  | not e ih => exact (Faithful.of_cutsInto cutsInto_not rfl).append ((ih hk).grouped _)
  | and l r ihl ihr =>
    obtain ⟨hkl, hkr⟩ := List.forall_mem_append.1 hk
    have hl := ((ihl hkl).grouped l.isOr).append (.of_cutsInto cutsInto_and rfl)
    have h := hl.append ((ihr hkr).grouped (r.isAnd || r.isOr))
    simpa [chars, textTokens] using h
  | or l r ihl ihr =>
    obtain ⟨hkl, hkr⟩ := List.forall_mem_append.1 hk
    have hl := (ihl hkl).append (.of_cutsInto cutsInto_or rfl)
    have h := hl.append ((ihr hkr).grouped r.isOr)
    simpa [chars, textTokens] using h

end Cutting

theorem parse_render {e : Rule} (hk : ∀ m ∈ e.matchers, m.1 ∈ knownMatchers ∧ m.2 ≠ [])
    (hp : Plain e.arguments) : parse e.render = .ok e := by
  have htokens : tokens e.chars = .ok e.textTokens := by
    have h := (faithful_chars hk).cutsInto hp []
    have hnil : tokens [] = .ok [] := tokens_of_cutLexeme?_eq_none rfl
    rw [List.append_nil, hnil] at h
    simpa [Except.map] using h
  refine parse_eq_ok_iff.2 ⟨e.textTokens, ?_, (derives_textTokens hk hp).disjunction⟩
  rw [render, String.toList_ofList]
  exact tokens_eq_ok_iff.1 htokens

def Legible (e : Rule) : Prop :=
  ∀ m ∈ e.matchers, m.1 ∈ knownMatchers ∧ m.2 ≠ [] ∧ ∀ a ∈ m.2, backtick ∉ a.toList

theorem Legible.parse_render {e : Rule} (h : e.Legible) : parse e.render = .ok e := by
  refine Rule.parse_render (fun m hm => ⟨(h m hm).1, (h m hm).2.1⟩) ?_
  intro a ha
  obtain ⟨m, hm, ha⟩ := List.mem_flatMap.1 ha
  exact (h m hm).2.2 a ha

theorem legible_merge {a b : Rule} : (a.merge b).Legible ↔ a.Legible ∧ b.Legible :=
  List.forall_mem_append

theorem plain_of_parse_render {e : Rule} (h : parse e.render = .ok e) :
    (∀ m ∈ e.matchers, m.1 ∈ knownMatchers ∧ m.2 ≠ []) ∧ Plain e.arguments := by
  obtain ⟨ts, hlex, hd⟩ := parse_eq_ok_iff.1 h
  have hk := known_of_derives hd
  have htokens : tokens (e.chars ++ []) = .ok ts := by
    rw [render, String.toList_ofList] at hlex
    rw [List.append_nil]
    exact tokens_eq_ok_iff.2 hlex
  exact ⟨hk, (faithful_chars hk).plain htokens (values_of_derives hd ▸ List.prefix_rfl)⟩

/-- A rule is read back from its text exactly if its matchers are known, have arguments, and none of
these holds a backtick. -/
theorem parse_render_eq_ok_iff (e : Rule) :
    parse e.render = .ok e ↔
      ∀ m ∈ e.matchers, m.1 ∈ knownMatchers ∧ m.2 ≠ [] ∧ ∀ a ∈ m.2, backtick ∉ a.toList := by
  constructor
  · intro h m hm
    obtain ⟨hk, hp⟩ := plain_of_parse_render h
    obtain ⟨hn, has⟩ := hk m hm
    exact ⟨hn, has, fun a ha => hp a (List.mem_flatMap.2 ⟨m, hm, ha⟩)⟩
  · intro h
    refine parse_render (fun m hm => ⟨(h m hm).1, (h m hm).2.1⟩) ?_
    intro a ha
    obtain ⟨m, hm, ha⟩ := List.mem_flatMap.1 ha
    exact (h m hm).2.2 a ha

end PreviewApps.Rule
