import PreviewApps.Proofs.Json.Schema

/-!
Shapes of JSON values, and which of them the decoders take. A field counts under the first of its
names that is present, whatever stands under the others.
-/

namespace PreviewApps

namespace Json

def named? (names : List String) (j : Json) : Option Json := names.findSome? (j.member? ·)

def named (names : List String) (j : Json) : Json := (j.named? names).getD null

def Holds (j : Json) (names : List String) (p : Json → Prop) : Prop := ∃ v ∈ j.named? names, p v

def Admits (j : Json) (names : List String) (p : Json → Prop) : Prop := ∀ v ∈ j.named? names, p v

def IsText (j : Json) : Prop := ∃ s, j = str s

/-- What counts as a whole number: `true` and `false` do, decimals without a fraction in the range
of 64 bits, and texts of the strict form. -/
inductive IsWhole : Json → Prop
  | int (n : Int) : IsWhole (int n)
  | bool (b : Bool) : IsWhole (bool b)
  | decimal {d : Decimal} {n : Int} (h : d.toInt? = some n)
      (hsize : n.natAbs < 9223372036854775808) : IsWhole (decimal d)
  | text {s : String} {n : Int} (h : Text.parseWhole? s.toList = some n) : IsWhole (str s)

def IsObject (j : Json) : Prop := ∃ ms, j = obj ms

def OrNull (p : Json → Prop) (j : Json) : Prop := j = null ∨ p j

def IsListOf (p : Json → Prop) (j : Json) : Prop := ∃ vs, j = arr vs ∧ ∀ v ∈ vs, p v

def IsMapOf (p : Json → Prop) (j : Json) : Prop := ∃ ms, j = obj ms ∧ ∀ e ∈ ms, p e.2

theorem named_singleton (n : String) (j : Json) : j.named [n] = j.get n := by
  rw [named, named?, List.findSome?_cons, get]
  cases j.member? n <;> rfl

end Json

namespace Schema

open Json

variable {α β : Type} {d : Decoder α} {p : Json → Prop} {ms : List (String × Json)}

def Checked.Passes (x : Checked α) : Prop := ∃ a, x = .ok a

namespace Checked

variable {x : Checked α}

theorem passes_ok (a : α) : (ok a).Passes := ⟨a, rfl⟩

theorem not_passes_fail (m : Mismatch) : ¬(fail m : Checked α).Passes := fun ⟨_, h⟩ => nomatch h

theorem passes_map_iff {f : α → β} : (f <$> x).Passes ↔ x.Passes := by
  simp only [Passes, map_eq_ok_iff]
  exact ⟨fun ⟨_, a, ha, _⟩ => ⟨a, ha⟩, fun ⟨a, ha⟩ => ⟨f a, a, ha, rfl⟩⟩

theorem passes_seq_iff {f : Checked (α → β)} : (f <*> x).Passes ↔ f.Passes ∧ x.Passes := by
  simp only [Passes, seq_eq_ok_iff]
  exact ⟨fun ⟨_, g, hg, a, ha, _⟩ => ⟨⟨g, hg⟩, a, ha⟩,
    fun ⟨⟨g, hg⟩, a, ha⟩ => ⟨g a, g, hg, a, ha, rfl⟩⟩

theorem passes_under_iff (s : Step) : (x.under s).Passes ↔ x.Passes := by
  simp only [Passes, under_eq_ok_iff]

end Checked

open Checked

def Takes (d : Decoder α) (p : Json → Prop) : Prop := ∀ j, (d j).Passes ↔ p j

theorem takes_string : Takes string IsText := by
  intro j
  simp only [Passes, string_eq_ok_iff, IsText]

theorem takes_integer : Takes integer IsWhole := by
  intro j
  constructor
  · rintro ⟨n, h⟩
    cases j with
    | int n => exact .int n
    | bool b => exact .bool b
    | decimal d =>
      cases d with
      | finite neg digits e =>
        simp only [integer, integerOfDecimal] at h
        split at h
        · next m hm =>
          split at h
          · next hsize => exact .decimal hm hsize
          · cases h
        · cases h
      | _ => cases h
    | str s =>
      simp only [integer] at h
      split at h
      · next m hm => exact .text hm
      · cases h
    | _ => cases h
  · intro h
    cases h with
    | int n => exact passes_ok n
    | bool b => exact passes_ok _
    | @decimal d n hn hsize =>
      cases d with
      | finite neg digits e => exact ⟨n, by simp only [integer, integerOfDecimal, hn, if_pos hsize]⟩
      | _ => cases hn
    | @text s n hn => exact ⟨n, by simp only [integer, hn]⟩

theorem Takes.optional (h : Takes d p) : Takes (optional d) (OrNull p) := by
  intro j
  by_cases hj : j = .null
  · subst hj
    exact iff_of_true (passes_ok none) (.inl rfl)
  · rw [optional_of_ne_null hj, passes_map_iff, h j]
    exact (or_iff_right hj).symm

theorem Takes.listFrom (h : Takes d p) (i : Nat) (vs : List Json) :
    (listFrom d i vs).Passes ↔ ∀ v ∈ vs, p v := by
  induction vs generalizing i with
  | nil => exact iff_of_true (passes_ok []) (List.forall_mem_nil _)
  | cons v vs ih =>
    rw [Schema.listFrom, passes_seq_iff, passes_map_iff, passes_under_iff, h v, ih,
      List.forall_mem_cons]

theorem Takes.list (h : Takes d p) : Takes (list d) (IsListOf p) := by
  intro j
  cases j with
  | arr vs =>
    rw [Schema.list, h.listFrom]
    simp [IsListOf]
  | _ => exact iff_of_false (not_passes_fail _) nofun

theorem Takes.mapFrom (h : Takes d p) (ms : List (String × Json)) :
    (mapFrom d ms).Passes ↔ ∀ e ∈ ms, p e.2 := by
  induction ms with
  | nil => exact iff_of_true (passes_ok []) (List.forall_mem_nil _)
  | cons e ms ih =>
    rw [Schema.mapFrom, passes_seq_iff, passes_map_iff, passes_map_iff, passes_under_iff, h e.2, ih,
      List.forall_mem_cons]

theorem Takes.map (h : Takes d p) : Takes (map d) (IsMapOf p) := by
  intro j
  cases j with
  | obj ms =>
    rw [Schema.map, h.mapFrom]
    simp [IsMapOf]
  | _ => exact iff_of_false (not_passes_fail _) nofun

theorem Takes.object {f : List (String × Json) → Checked α} (hp : ∀ j, p j → j.IsObject)
    (h : ∀ ms, (f ms).Passes ↔ p (.obj ms)) : Takes (object f) p := by
  intro j
  cases j with
  | obj ms => exact h ms
  | _ => exact iff_of_false (not_passes_fail _) fun hj => nomatch hp _ hj

theorem find_eq (names : List String) (ms : List (String × Json)) :
    (find names ms).map (·.2) = (Json.obj ms).named? names := by
  rw [find, named?, List.map_findSome?]
  congr 1
  funext n
  exact (Option.map_map ..).trans Option.map_id'

theorem passes_required_iff (h : Takes d p) (names : List String) :
    (required names d ms).Passes ↔ (Json.obj ms).Holds names p := by
  rw [Holds, ← find_eq, required]
  cases find names ms with
  | none =>
    refine iff_of_false ?_ ?_
    · rintro ⟨_, h⟩
      cases h
    · rintro ⟨_, h, -⟩
      cases h
  | some e =>
    rw [passes_under_iff, h e.2]
    simp

theorem passes_withDefault_iff (h : Takes d p) (names : List String) (default : α) :
    (withDefault names default d ms).Passes ↔ (Json.obj ms).Admits names p := by
  rw [Admits, ← find_eq, withDefault]
  cases find names ms with
  | none =>
    refine iff_of_true (passes_ok default) ?_
    intro _ h
    cases h
  | some e =>
    rw [passes_under_iff, h e.2]
    simp

theorem optional_named_of_withDefault {names : List String} {v : Option α}
    (h : withDefault names none (optional d) ms = .ok v) :
    optional d ((Json.obj ms).named names) = .ok v := by
  rw [named, ← find_eq]
  rw [withDefault] at h
  cases hfind : find names ms with
  | none =>
    rw [hfind] at h
    exact h
  | some e =>
    rw [hfind] at h
    exact (under_eq_ok_iff _).1 h

theorem str?_of_optional {j : Json} {v : Option String} (h : optional string j = .ok v) :
    j.str? = v := by
  cases j with
  | null =>
    cases h
    rfl
  | str s =>
    cases h
    rfl
  | _ => cases h

theorem texts_of_optional {j : Json} {v : Option (List String)}
    (h : optional (list string) j = .ok v) : j.items.filterMap (·.str?) = v.getD [] := by
  cases j with
  | null =>
    cases h
    rfl
  | arr vs =>
    obtain ⟨xs, hxs, rfl⟩ := map_eq_ok_iff.1 h
    have htexts := (listFrom_eq_ok_iff 0).1 hxs
    clear h hxs
    change vs.filterMap (·.str?) = xs
    induction htexts with
    | nil => rfl
    | @cons _ text _ _ htext _ ih =>
      rw [string_eq_ok_iff.1 htext]
      exact congrArg (text :: ·) ih
  | _ => cases h

end Schema

end PreviewApps
