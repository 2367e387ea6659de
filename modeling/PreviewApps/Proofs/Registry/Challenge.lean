import Mathlib.Data.List.Basic
import PreviewApps.Proofs.Assoc
import PreviewApps.Proofs.Text.Lowercase
import PreviewApps.Registry.Challenge

/-!
What a bearer challenge says: its scheme in any case, and its parameters, which are the matches of
`name="value"` from left to right, as long a name as possible each time.
-/

namespace PreviewApps.Challenge

section Scheme

def NamesBearer (challenge : String) : Prop :=
  ∃ scheme rest, challenge = scheme ++ " " ++ rest ∧
    scheme.toList.map Char.toLower = "bearer".toList

theorem toLower_eq_space_iff {c : Char} : c.toLower = ' ' ↔ c = ' ' := by
  refine ⟨fun h => ?_, fun h => by rw [h]; rfl⟩
  unfold Char.toLower at h
  split at h
  · next hupper =>
    have hval : (c.val + ('a'.val - 'A'.val)).toNat = 32 := congrArg (·.val.toNat) h
    have hA : 65 ≤ c.val.toNat := UInt32.le_iff_toNat_le.1 hupper.1
    have hZ : c.val.toNat ≤ 90 := UInt32.le_iff_toNat_le.1 hupper.2
    have hsum : (c.val + ('a'.val - 'A'.val)).toNat = (c.val.toNat + 32) % 2 ^ 32 :=
      UInt32.toNat_add _ _
    omega
  · exact h

theorem isBearer_iff {challenge : String} : isBearer challenge = true ↔ NamesBearer challenge := by
  have hall : "bearer ".toList.all (fun w => decide (Text.IsPlain w)) = true := by decide
  have hplain : ∀ w ∈ "bearer ".toList, Text.IsPlain w :=
    fun w hw => of_decide_eq_true (List.all_eq_true.1 hall w hw)
  have hlower : (Text.lower challenge).toList = Text.lowerFrom [] challenge.toList :=
    String.toList_ofList
  rw [isBearer, List.isPrefixOf_iff_prefix, hlower, Text.isPrefix_lowerFrom_iff hplain]
  constructor
  · rintro ⟨front, rest, hcs, hfront⟩
    have hsplit : front.map Char.toLower = "bearer".toList ++ [' '] := hfront
    obtain ⟨scheme, space, rfl, hscheme, hspace⟩ := List.map_eq_append_iff.1 hsplit
    obtain ⟨c, rfl, hc⟩ := List.map_eq_singleton_iff.1 hspace
    refine ⟨String.ofList scheme, String.ofList rest, String.toList_injective ?_, ?_⟩
    · simp [hcs, toLower_eq_space_iff.1 hc]
    · rwa [String.toList_ofList]
  · rintro ⟨scheme, rest, rfl, hscheme⟩
    refine ⟨scheme.toList ++ [' '], rest.toList, by simp, ?_⟩
    rw [List.map_append, hscheme]
    rfl

end Scheme

section Parameters

structure Starts (cs name value rest : List Char) : Prop where
  text : cs = name ++ '=' :: '"' :: (value ++ '"' :: rest)
  named : name ≠ []
  word : ∀ c ∈ name, Text.isWord c = true
  unquoted : '"' ∉ value

/-- The parameters of a text: where one starts it is taken, and else a character is passed over. -/
inductive Scans : List Char → List (String × String) → Prop
  | nil : Scans [] []
  | param {cs name value rest found} : Starts cs name value rest → Scans rest found →
      Scans cs ((String.ofList name, String.ofList value) :: found)
  | skip {c cs found} : (∀ name value rest, ¬Starts (c :: cs) name value rest) → Scans cs found →
      Scans (c :: cs) found

variable {cs name value rest : List Char}

theorem not_word_equals : Text.isWord '=' = false := by decide +kernel

theorem not_word_quote : Text.isWord '"' = false := by decide +kernel

theorem Starts.name_eq {run : List Char} {c : Char} (h : Starts (run ++ c :: cs) name value rest)
    (hrun : ∀ d ∈ run, Text.isWord d = true) (hc : Text.isWord c = false) :
    name = run ∧ c = '=' ∧ cs = '"' :: (value ++ '"' :: rest) := by
  have hleft : (run ++ c :: cs).takeWhile Text.isWord = run := by
    rw [List.takeWhile_append_of_pos hrun, List.takeWhile_cons_of_neg (by simp [hc]),
      List.append_nil]
  rw [h.text, List.takeWhile_append_of_pos h.word,
    List.takeWhile_cons_of_neg (by simp [not_word_equals]), List.append_nil] at hleft
  subst hleft
  obtain ⟨rfl, hcs⟩ := List.cons.inj (List.append_cancel_left h.text)
  exact ⟨rfl, rfl, hcs⟩

theorem not_starts_of_not_word {c : Char} (hc : Text.isWord c = false) :
    ¬Starts (c :: cs) name value rest := by
  intro h
  have hfront : Starts ([] ++ c :: cs) name value rest := h
  exact h.named (hfront.name_eq (by simp) hc).1

theorem Starts.two_le_count (h : Starts cs name value rest) : 2 ≤ cs.count '"' := by
  rw [h.text, List.count_append, List.count_cons, List.count_cons, List.count_append,
    List.count_cons_self]
  simp only [beq_self_eq_true, if_true]
  omega

theorem Starts.unique {name' value' rest' : List Char} (h : Starts cs name value rest)
    (h' : Starts cs name' value' rest') : name = name' ∧ value = value' ∧ rest = rest' := by
  obtain rfl := h.text
  obtain ⟨rfl, -, htext⟩ := h'.name_eq h.word not_word_equals
  have hcut := Text.cutFirst_append rest h.unquoted
  rw [(List.cons.inj htext).2, Text.cutFirst_append rest' h'.unquoted] at hcut
  cases hcut
  exact ⟨rfl, rfl, rfl⟩

theorem Scans.append {run : List Char} {found : List (String × String)} (h : Scans cs found)
    (hrun : ∀ c ∈ run, Text.isWord c = true)
    (hnone : ∀ word, (∀ c ∈ word, Text.isWord c = true) →
      ∀ name value rest, ¬Starts (word ++ cs) name value rest) : Scans (run ++ cs) found := by
  induction run with
  | nil => exact h
  | cons c run ih => exact .skip (hnone _ hrun) (ih fun d hd => hrun d (List.mem_cons_of_mem c hd))

theorem Scans.pass {c : Char} {found : List (String × String)} (h : Scans cs found)
    (hc : Text.isWord c = false) : Scans (c :: cs) found :=
  .skip (fun _ _ _ => not_starts_of_not_word hc) h

theorem count_quote_of_word (h : ∀ c ∈ cs, Text.isWord c = true) : cs.count '"' = 0 := by
  refine List.count_eq_zero.2 fun hmem => ?_
  have hword := h '"' hmem
  rw [not_word_quote] at hword
  cases hword

theorem not_starts_of_count {word : List Char} (hword : ∀ c ∈ word, Text.isWord c = true)
    (hcs : cs.count '"' ≤ 1) : ¬Starts (word ++ cs) name value rest := by
  -- a value would have to end, so with one quote there is none
  intro h
  have htwo := h.two_le_count
  rw [List.count_append, count_quote_of_word hword] at htwo
  omega

theorem paramsFrom_of_cut {run r : List Char} (hne : run ≠ [])
    (hcut : Text.cutFirst '"' r = some (value, rest)) : paramsFrom run ('=' :: '"' :: r) =
      (String.ofList run.reverse, String.ofList value) :: paramsFrom [] rest := by
  rw [paramsFrom, if_neg (by simpa using hne)]
  split <;> simp_all

theorem paramsFrom_unclosed {run r : List Char} (hcut : Text.cutFirst '"' r = none) :
    paramsFrom run ('=' :: '"' :: r) = paramsFrom [] r := by
  rw [paramsFrom]
  split
  · rfl
  · split <;> simp_all

theorem scans_paramsFrom (run cs : List Char) (hrun : ∀ c ∈ run.reverse, Text.isWord c = true) :
    Scans (run.reverse ++ cs) (paramsFrom run cs) := by
  have hnil : ∀ c ∈ ([] : List Char).reverse, Text.isWord c = true := by simp
  induction run, cs using paramsFrom.induct with
  | case1 run =>
    rw [paramsFrom]
    exact Scans.nil.append hrun fun word hword _ _ _ => not_starts_of_count hword (by simp)
  | case2 run r hempty ih =>
    obtain rfl := List.isEmpty_iff.1 hempty
    rw [paramsFrom, if_pos hempty]
    exact ((ih hnil).pass not_word_quote).pass not_word_equals
  | case3 run r hne value rest hcut ih =>
    have hne : run ≠ [] := by simpa using hne
    obtain ⟨hr, hvalue⟩ := Text.cutFirst_eq_some hcut
    rw [paramsFrom_of_cut hne hcut]
    exact .param ⟨by rw [hr]; rfl, by simpa using hne, hrun, hvalue⟩ (ih hnil)
  | case4 run r hne hcut ih =>
    have hone : ('=' :: '"' :: r).count '"' ≤ 1 := by
      rw [List.count_cons, List.count_cons_self,
        List.count_eq_zero.2 (Text.cutFirst_eq_none.1 hcut)]
      decide
    rw [paramsFrom_unclosed hcut]
    exact (((ih hnil).pass not_word_quote).pass not_word_equals).append hrun
      fun word hword _ _ _ => not_starts_of_count hword hone
  | case5 run c r hnot ih =>
    rw [paramsFrom.eq_3 run c r hnot]
    by_cases hc : Text.isWord c = true
    · rw [dif_pos hc] at ih
      have hlonger : ∀ d ∈ (c :: run).reverse, Text.isWord d = true := by
        intro d hd
        rw [List.reverse_cons] at hd
        rcases List.mem_append.1 hd with hd | hd
        · exact hrun d hd
        · rwa [List.mem_singleton.1 hd]
      simpa [hc] using ih hlonger
    · rw [dif_neg hc] at ih
      rw [if_neg hc]
      have hc : Text.isWord c = false := Bool.eq_false_iff.2 hc
      -- a name ends at this character, and no value follows it
      refine ((ih hnil).pass hc).append hrun fun word hword name value rest h => ?_
      obtain ⟨-, hequal, hvalue⟩ := h.name_eq hword hc
      exact hnot _ hequal hvalue

theorem Scans.unique {found found' : List (String × String)} (h : Scans cs found)
    (h' : Scans cs found') : found = found' := by
  induction h generalizing found' with
  | nil =>
    cases h' with
    | nil => rfl
    | param hstarts _ =>
      have htwo := hstarts.two_le_count
      exact absurd htwo (by decide)
  | param hstarts _ ih =>
    cases h' with
    | nil => exact absurd hstarts.two_le_count (by decide)
    | param hstarts' hrest =>
      obtain ⟨rfl, rfl, rfl⟩ := hstarts.unique hstarts'
      rw [ih hrest]
    | skip hnone => exact absurd hstarts (hnone _ _ _)
  | skip hnone _ ih =>
    cases h' with
    | param hstarts => exact absurd hstarts (hnone _ _ _)
    | skip _ hrest => exact ih hrest

theorem scans_iff {found : List (String × String)} : Scans cs found ↔ paramsFrom [] cs = found :=
  ⟨fun h => (scans_paramsFrom [] cs (by simp)).unique h,
    fun h => h ▸ scans_paramsFrom [] cs (by simp)⟩

end Parameters

/-- A bearer challenge that refers to a realm, with the other parameters. Of parameters with one
name the last counts. -/
structure Asks (challenge realm : String) (rest : List (String × String)) : Prop where
  bearer : NamesBearer challenge
  realm_ne : realm ≠ ""
  params : ∃ found, Scans challenge.toList found ∧
    (found.filter (·.1 == "realm")).getLast? = some ("realm", realm) ∧
    rest = (Assoc.ofList found).filter (·.1 != "realm")

theorem not_namesBearer_empty : ¬NamesBearer "" := by
  rintro ⟨scheme, rest, hempty, -⟩
  have hchars := congrArg String.toList hempty
  simp at hchars

theorem asks_iff {challenge realm : String} {rest : List (String × String)} :
    Asks challenge realm rest ↔ isBearer challenge = true ∧ realm ≠ "" ∧
      (params challenge).lookup "realm" = some realm ∧
      rest = Assoc.erase "realm" (params challenge) := by
  have hlookup (found : List (String × String)) :
      (found.filter (·.1 == "realm")).getLast? = some ("realm", realm) ↔
        (Assoc.ofList found).lookup "realm" = some realm := by
    rw [Assoc.lookup_ofList, Option.map_eq_some_iff]
    constructor
    · exact fun h => ⟨_, h, rfl⟩
    · rintro ⟨e, he, rfl⟩
      have hkey := (List.mem_filter.1 (List.mem_of_getLast? he)).2
      rw [he, ← eq_of_beq hkey]
  have herase (found : List (String × String)) := Assoc.erase_eq_filter
    (Assoc.nodup_keys_ofList found) "realm"
  constructor
  · rintro ⟨hbearer, hne, found, hscans, hrealm, rfl⟩
    rw [params, scans_iff.1 hscans, herase]
    exact ⟨isBearer_iff.2 hbearer, hne, (hlookup found).1 hrealm, rfl⟩
  · rintro ⟨hbearer, hne, hrealm, rfl⟩
    refine ⟨isBearer_iff.1 hbearer, hne, _, scans_iff.2 rfl, (hlookup _).2 hrealm, ?_⟩
    exact herase _

end PreviewApps.Challenge
