import Mathlib.Data.List.Forall2
import PreviewApps.Json.Schema

/-!
Laws of decoders. What a member holds is decoded under its first name; without it the default
stands. Lists and maps are read back element by element. Whatever is decoded without a failure
stands in the value.
-/

namespace PreviewApps.Schema

variable {α β : Type} {d : Decoder α} {write : α → Json} {ms : List (String × Json)} {n : String}

theorem find_of_lookup {v : Json} (h : ms.lookup n = some v) (names : List String) :
    find (n :: names) ms = some (n, v) := by
  simp [find, h]

theorem find_of_absent {names : List String} (h : ∀ n ∈ names, ms.lookup n = none) :
    find names ms = none := by
  have hnone : ∀ n ∈ names, (ms.lookup n).map (fun v => (n, v)) = none := by
    intro n hn
    simp [h n hn]
  exact List.findSome?_eq_none_iff.2 hnone

theorem required_of_lookup {v : Json} {a : α} (hv : ms.lookup n = some v) (ha : d v = .ok a)
    (names : List String) : required (n :: names) d ms = .ok a := by
  rw [required, find_of_lookup hv]
  simp [ha, Checked.under]

theorem withDefault_of_lookup {v : Json} {a : α} (hv : ms.lookup n = some v) (ha : d v = .ok a)
    (names : List String) (default : α) : withDefault (n :: names) default d ms = .ok a := by
  rw [withDefault, find_of_lookup hv]
  simp [ha, Checked.under]

theorem withDefault_of_absent {names : List String} (h : ∀ n ∈ names, ms.lookup n = none)
    (default : α) (d : Decoder α) : withDefault names default d ms = .ok default := by
  rw [withDefault, find_of_absent h]

theorem optional_of_ne_null {j : Json} (hj : j ≠ .null) : optional d j = some <$> d j := by
  cases j <;> simp_all [optional]

theorem withDefault_optional_map {names : List String} (write : β → Json) {g : β → α}
    {v : Option β} (hv : ms.lookup n = v.map write) (hnames : ∀ n ∈ names, ms.lookup n = none)
    (hwrite : ∀ b ∈ v, write b ≠ .null ∧ d (write b) = .ok (g b)) :
    withDefault (n :: names) none (optional d) ms = .ok (v.map g) := by
  cases v with
  | none =>
    have habsent : ∀ m ∈ n :: names, ms.lookup m = none := List.forall_mem_cons.2 ⟨hv, hnames⟩
    exact withDefault_of_absent habsent none (optional d)
  | some b =>
    obtain ⟨hnull, hread⟩ := hwrite b rfl
    have hsome : optional d (write b) = .ok (some (g b)) := by
      rw [optional_of_ne_null hnull, hread]
      rfl
    exact withDefault_of_lookup hv hsome names none

theorem listFrom_map {xs : List β} {write : β → Json} {g : β → α}
    (h : ∀ b ∈ xs, d (write b) = .ok (g b)) (i : Nat) :
    listFrom d i (xs.map write) = .ok (xs.map g) := by
  induction xs generalizing i with
  | nil => rfl
  | cons b xs ih =>
    have hb := h b (List.mem_cons_self ..)
    have hxs := ih (fun c hc => h c (List.mem_cons_of_mem b hc)) (i + 1)
    rw [List.map_cons, listFrom, hb, hxs]
    rfl

theorem list_map_map {xs : List β} {write : β → Json} {g : β → α}
    (h : ∀ b ∈ xs, d (write b) = .ok (g b)) : list d (.arr (xs.map write)) = .ok (xs.map g) :=
  listFrom_map h 0

theorem list_map {xs : List α} (h : ∀ a ∈ xs, d (write a) = .ok a) :
    list d (.arr (xs.map write)) = .ok xs := by
  rw [list_map_map h, List.map_id']

theorem map_ofMap (m : List (String × String)) : map string (.ofMap m) = .ok m := by
  have hfrom : mapFrom string (m.map fun e => (e.1, .str e.2)) = .ok m := by
    induction m with
    | nil => rfl
    | cons e m ih =>
      rw [List.map_cons, mapFrom, ih]
      rfl
  exact hfrom

namespace Checked

variable {x : Checked α} {b : β}

theorem map_eq_ok_iff {f : α → β} : f <$> x = .ok b ↔ ∃ a, x = .ok a ∧ f a = b := by
  cases x with
  | ok a =>
    change Checked.ok (f a) = .ok b ↔ _
    simp
  | failed fs =>
    change Checked.failed fs = .ok b ↔ _
    simp

theorem seq_eq_ok_iff {f : Checked (α → β)} :
    f <*> x = .ok b ↔ ∃ g, f = .ok g ∧ ∃ a, x = .ok a ∧ g a = b := by
  cases f with
  | ok g => exact map_eq_ok_iff.trans (by simp)
  | failed fs => cases x <;> exact iff_of_false nofun nofun

theorem under_eq_ok_iff {a : α} (s : Step) : x.under s = .ok a ↔ x = .ok a := by
  cases x <;> simp [under]

end Checked

theorem object_eq_ok_iff {f : List (String × Json) → Checked α} {j : Json} {a : α} :
    object f j = .ok a ↔ ∃ ms, j = .obj ms ∧ f ms = .ok a := by
  cases j <;> simp [object, Checked.fail]

theorem string_eq_ok_iff {j : Json} {s : String} : string j = .ok s ↔ j = .str s := by
  cases j <;> simp [string, Checked.fail]

theorem decode_get_of_required {a : α} (h : required [n] d ms = .ok a) :
    d ((Json.obj ms).get n) = .ok a := by
  have hget : (Json.obj ms).get n = (ms.lookup n).getD .null := rfl
  cases hv : ms.lookup n with
  | none =>
    rw [required, find_of_absent (by simpa using hv)] at h
    cases h
  | some v =>
    rw [required, find_of_lookup hv] at h
    rw [hget, hv]
    exact (Checked.under_eq_ok_iff _).1 h

theorem listFrom_eq_ok_iff {vs : List Json} {xs : List α} (i : Nat) :
    listFrom d i vs = .ok xs ↔ List.Forall₂ (fun v a => d v = .ok a) vs xs := by
  induction vs generalizing i xs with
  | nil => simp [listFrom, eq_comm]
  | cons v vs ih =>
    simp only [listFrom, Checked.seq_eq_ok_iff, Checked.map_eq_ok_iff, Checked.under_eq_ok_iff, ih,
      List.forall₂_cons_left_iff]
    constructor
    · rintro ⟨_, ⟨a, ha, rfl⟩, as, has, rfl⟩
      exact ⟨a, as, ha, has, rfl⟩
    · rintro ⟨a, as, ha, has, rfl⟩
      exact ⟨_, ⟨a, ha, rfl⟩, as, has, rfl⟩

theorem forall₂_items_of_list {j : Json} {v : List α} (h : list d j = .ok v) :
    List.Forall₂ (fun j a => d j = .ok a) j.items v := by
  cases j with
  | arr vs => exact (listFrom_eq_ok_iff 0).1 h
  | _ => cases h

theorem forall₂_items_of_default {v : List α} (h : withDefault [n] [] (list d) ms = .ok v) :
    List.Forall₂ (fun j a => d j = .ok a) ((Json.obj ms).get n).items v := by
  have hget : (Json.obj ms).get n = (ms.lookup n).getD .null := rfl
  cases hn : ms.lookup n with
  | none =>
    rw [withDefault_of_absent (by simpa using hn)] at h
    cases h
    rw [hget, hn]
    exact .nil
  | some j =>
    rw [withDefault, find_of_lookup hn] at h
    rw [hget, hn, Option.getD_some]
    exact forall₂_items_of_list ((Checked.under_eq_ok_iff _).1 h)

theorem forall₂_items_of_optional {v : Option (List α)}
    (h : withDefault [n] none (optional (list d)) ms = .ok v) :
    List.Forall₂ (fun j a => d j = .ok a) ((Json.obj ms).get n).items (v.getD []) := by
  have hget : (Json.obj ms).get n = (ms.lookup n).getD .null := rfl
  cases hn : ms.lookup n with
  | none =>
    rw [withDefault_of_absent (by simpa using hn)] at h
    cases h
    rw [hget, hn]
    exact .nil
  | some j =>
    rw [withDefault, find_of_lookup hn] at h
    rw [hget, hn, Option.getD_some]
    rw [Checked.under_eq_ok_iff] at h
    cases j with
    | null =>
      cases h
      exact .nil
    | _ =>
      obtain ⟨as, has, rfl⟩ := Checked.map_eq_ok_iff.1 h
      exact forall₂_items_of_list has

end PreviewApps.Schema
