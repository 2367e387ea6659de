import PreviewApps.Proofs.Json.MergePatch

/-!
Merge patches at a single place. A patch either leaves what stands there or decides on it without
regard to it, so the same patch again changes nothing, and a patch of nothing is what is left of the
patch without its nulls.
-/

namespace PreviewApps

/-- A change that leaves every value as it is, or else forgets it. -/
def Settles {α : Type} (f : α → α) : Prop := f = id ∨ ∃ v, f = fun _ => v

namespace Settles

variable {α : Type} {f g : α → α}

theorem comp (hf : Settles f) (hg : Settles g) : Settles (f ∘ g) := by
  rcases hf with rfl | ⟨v, rfl⟩
  · exact hg
  · exact .inr ⟨v, rfl⟩

theorem twice (hf : Settles f) (x : α) : f (f x) = f x := by
  rcases hf with rfl | ⟨v, rfl⟩
  · rfl
  · rfl

end Settles

namespace Json

def patchedAt : List Place → Json → Option Json → Option Json
  | [], w, _ => some w.shell
  | .item i :: ps, w, _ => w.shellAt (.item i :: ps)
  | .member k :: ps, obj ms, old =>
    match ms.lookup k with
    | none => old
    | some v => if v.isNull then none else patchedAt ps v old
  | .member _ :: _, _, _ => none

mutual

/-- The value without the members that are `null`; lists stay as they are. -/
def withoutNulls : Json → Json
  | obj ms => obj (spareMembers ms)
  | null => null
  | bool b => bool b
  | int n => int n
  | decimal d => decimal d
  | str s => str s
  | arr vs => arr vs

def spareMembers : List (String × Json) → List (String × Json)
  | [] => []
  | (k, v) :: ms => if v.isNull then spareMembers ms else (k, v.withoutNulls) :: spareMembers ms

end

section Patches

variable {o w : Json} {k : String} {ms : List (String × Json)} (ps : List Place)

theorem patchedAt_member_of_none (h : ms.lookup k = none) (old : Option Json) :
    (obj ms).patchedAt (.member k :: ps) old = old := by
  simp only [patchedAt, h]

theorem patchedAt_member {v : Json} (h : ms.lookup k = some v) (old : Option Json) :
    (obj ms).patchedAt (.member k :: ps) old = if v.isNull then none else v.patchedAt ps old := by
  simp only [patchedAt, h]

theorem settles_patchedAt (w : Json) : Settles (patchedAt ps w) := by
  induction ps generalizing w with
  | nil => exact .inr ⟨_, rfl⟩
  | cons p ps ih =>
    cases p with
    | item i => exact .inr ⟨_, rfl⟩
    | member k =>
      cases w with
      | obj ms =>
        cases hk : ms.lookup k with
        | none => exact .inl (funext (patchedAt_member_of_none ps hk))
        | some v =>
          rw [funext (patchedAt_member ps hk)]
          split
          · exact .inr ⟨none, rfl⟩
          · exact ih v
      | _ => exact .inr ⟨none, rfl⟩

theorem patchedAt_null (w : Json) : w.patchedAt ps (null.shellAt ps) = w.patchedAt ps none := by
  cases ps with
  | nil => rfl
  | cons p ps => cases p <;> rfl

theorem shellAt_mergePatch (ho : Distinct o) (hw : Distinct w) :
    (o.mergePatch w).shellAt ps = w.patchedAt ps (o.shellAt ps) := by
  induction ps generalizing o w with
  | nil => exact congrArg some (shell_mergePatch o w)
  | cons p ps ih =>
    cases w with
    | obj ms =>
      cases p with
      | item i => rfl
      | member k =>
        rw [shellAt_cons, shellAt_cons]
        change ((o.mergePatch (obj ms)).member? k).bind _ = _
        rw [member?_mergePatch ho hw]
        cases hk : ms.lookup k with
        | none => exact (patchedAt_member_of_none ps hk _).symm
        | some v =>
          rw [patchedAt_member ps hk, patched]
          split
          · rfl
          · have hmember : (obj ms).member? k = some v := hk
            rw [Option.bind_some, ih (ho.getD k) (hw.member hmember)]
            change _ = v.patchedAt ps ((o.member? k).bind _)
            cases o.member? k with
            | none => exact patchedAt_null ps v
            | some old => rfl
    | _ => cases p <;> rfl

end Patches

section Nulls

variable {w : Json} {k : String} {ms : List (String × Json)}

theorem keys_spareMembers_sublist (ms : List (String × Json)) :
    ((spareMembers ms).map (·.1)).Sublist (ms.map (·.1)) := by
  induction ms with
  | nil => exact .slnil
  | cons e ms ih =>
    rw [spareMembers]
    split
    · exact ih.cons e.1
    · exact ih.cons_cons e.1

theorem lookup_spareMembers (hms : (ms.map (·.1)).Nodup) (k : String) :
    (spareMembers ms).lookup k =
      (ms.lookup k).bind fun v => if v.isNull then none else some v.withoutNulls := by
  induction ms with
  | nil => rfl
  | cons e ms ih =>
    obtain ⟨hfirst, hrest⟩ := List.nodup_cons.1 hms
    rw [spareMembers, List.lookup_cons]
    by_cases hk : k = e.1
    · subst hk
      rw [beq_self_eq_true, Option.bind_some]
      split
      · rw [ih hrest, Assoc.lookup_eq_none_of_notMem hfirst, Option.bind_none]
      · rw [List.lookup_cons, beq_self_eq_true]
    · rw [beq_false_of_ne hk]
      split
      · exact ih hrest
      · rw [List.lookup_cons, beq_false_of_ne hk]
        exact ih hrest

theorem lookup_spareMembers_of_ne {v : Json} (hms : (ms.map (·.1)).Nodup)
    (hk : ms.lookup k = some v) (hv : v ≠ null) :
    (spareMembers ms).lookup k = some v.withoutNulls := by
  rw [lookup_spareMembers hms, hk, Option.bind_some, if_neg]
  exact fun hnull => hv (isNull_iff.1 hnull)

theorem Distinct.withoutNulls (hw : Distinct w) : Distinct w.withoutNulls := by
  intro ks
  induction ks generalizing w with
  | nil =>
    intro ms hread
    cases w with
    | obj own =>
      cases hread
      exact hw.nodup.sublist (keys_spareMembers_sublist own)
    | _ => cases hread
  | cons k ks ih =>
    intro ms hread
    cases w with
    | obj own =>
      obtain ⟨v, hv, hread⟩ := Option.bind_eq_some_iff.1 hread
      have hnodup : (own.map (·.1)).Nodup := hw.nodup
      change (spareMembers own).lookup k = some v at hv
      rw [lookup_spareMembers hnodup] at hv
      obtain ⟨old, hold, hv⟩ := Option.bind_eq_some_iff.1 hv
      split at hv
      · cases hv
      · cases hv
        exact ih (hw.member hold) ms hread
    | _ => cases hread

theorem get_withoutNulls (hw : Distinct w) (k : String) :
    w.withoutNulls.get k = (w.get k).withoutNulls := by
  cases w with
  | obj ms =>
    have hms : (ms.map (·.1)).Nodup := hw.nodup
    change ((spareMembers ms).lookup k).getD null = ((ms.lookup k).getD null).withoutNulls
    rw [lookup_spareMembers hms]
    cases ms.lookup k with
    | none => rfl
    | some v =>
      rw [Option.bind_some, Option.getD_some]
      split
      · next hnull => rw [isNull_iff.1 hnull]; rfl
      · rfl
  | _ => rfl

theorem str?_withoutNulls (j : Json) : j.withoutNulls.str? = j.str? := by
  cases j <;> rfl

theorem shellAt_withoutNulls (hw : Distinct w) (ps : List Place) :
    w.withoutNulls.shellAt ps = w.patchedAt ps none := by
  induction ps generalizing w with
  | nil => cases w <;> rfl
  | cons p ps ih =>
    cases w with
    | obj ms =>
      cases p with
      | item i => rfl
      | member k =>
        have hnodup : (ms.map (·.1)).Nodup := hw.nodup
        rw [shellAt_cons]
        change ((spareMembers ms).lookup k).bind _ = _
        rw [lookup_spareMembers hnodup]
        cases hk : ms.lookup k with
        | none => exact (patchedAt_member_of_none ps hk _).symm
        | some v =>
          rw [patchedAt_member ps hk, Option.bind_some]
          split
          · rfl
          · exact ih (hw.member hk)
    | _ => cases p <;> rfl

structure Spare (j : Json) : Prop where
  ne_null : j ≠ null
  withoutNulls : j.withoutNulls = j

theorem spare_of_ne_obj {j : Json} (hnull : j ≠ null) (hobj : ∀ ms, j ≠ obj ms) : j.Spare := by
  cases j with
  | obj ms => exact absurd rfl (hobj ms)
  | null => exact absurd rfl hnull
  | _ => exact ⟨hnull, rfl⟩

theorem spare_obj (h : ∀ e ∈ ms, e.2.Spare) : (obj ms).Spare := by
  suffices hsame : spareMembers ms = ms from ⟨Json.noConfusion, congrArg obj hsame⟩
  induction ms with
  | nil => rfl
  | cons e ms ih =>
    obtain ⟨⟨hnull, hvalue⟩, hrest⟩ := List.forall_mem_cons.1 h
    rw [spareMembers, if_neg (fun hv => hnull (isNull_iff.1 hv)), hvalue, ih hrest]

theorem spare_ofMap (m : List (String × String)) : (ofMap m).Spare := by
  apply spare_obj
  intro e he
  obtain ⟨p, -, rfl⟩ := List.mem_map.1 he
  exact ⟨Json.noConfusion, rfl⟩

theorem spare_record {fields : List (String × Option Json)}
    (h : ∀ e ∈ fields, ∀ v ∈ e.2, v.Spare) : (record fields).Spare := by
  apply spare_obj
  intro e he
  obtain ⟨⟨k, v?⟩, hfield, hentry⟩ := List.mem_filterMap.1 he
  obtain ⟨v, hv, rfl⟩ := Option.map_eq_some_iff.1 hentry
  exact h (k, v?) hfield v hv

end Nulls

end Json

end PreviewApps
