import PreviewApps.Json.MergePatch
import PreviewApps.Proofs.Assoc
import PreviewApps.Proofs.Json.Members

/-!
Merge patches, place by place. Values are compared by what stands at each place, so the order of
members does not count. A patch leaves nothing but itself exactly if it names all members that are
there and sets none of its own to `null`.
-/

namespace PreviewApps.Json

inductive Place
  | member (key : String)
  | item (index : Nat)

def child (j : Json) : Place → Option Json
  | .member k => j.member? k
  | .item i => j.items[i]?

def read (j : Json) : List Place → Option Json
  | [] => some j
  | p :: ps => (j.child p).bind (·.read ps)

def shell : Json → Json
  | obj _ => obj []
  | arr _ => arr []
  | j => j

def shellAt (j : Json) (ps : List Place) : Option Json := (j.read ps).map shell

def inner (j : Json) (ks : List String) : Option Json := j.shellAt (ks.map .member)

/-- Equal up to the order of members. -/
def Same (a b : Json) : Prop := ∀ ps, a.shellAt ps = b.shellAt ps

def DifferAt (place : List Place) (a b : Json) : Prop :=
  ∀ ps, ps ≠ place → b.shellAt ps = a.shellAt ps

/-- No object that is reached through members names a member twice. -/
def Distinct (j : Json) : Prop :=
  ∀ (ks : List String) ms, j.read (ks.map .member) = some (obj ms) → (ms.map (·.1)).Nodup

/-- Each object of `new` names every member that `old` has at its place, and none as `null`. -/
def Covers (new old : Json) : Prop :=
  ∀ ks k, new.inner ks = some (obj []) →
    new.inner (ks ++ [k]) ≠ some null ∧
      (new.inner (ks ++ [k]) = none → old.inner (ks ++ [k]) = none)

theorem Same.refl (a : Json) : Same a a := fun _ => rfl

theorem Same.symm {a b : Json} (h : Same a b) : Same b a := fun ps => (h ps).symm

theorem Same.trans {a b c : Json} (h : Same a b) (h' : Same b c) : Same a c :=
  fun ps => (h ps).trans (h' ps)

theorem Covers.congr {new new' old old' : Json} (h : Covers new old) (hnew : Same new new')
    (hold : Same old old') : Covers new' old' := by
  intro ks k hobj
  have hcovers := h ks k ((hnew _).trans hobj)
  unfold inner at hcovers ⊢
  rwa [hnew, hold] at hcovers

section Reading

variable (j : Json) (k : String) (ks : List String) (ps : List Place)

theorem shellAt_cons (p : Place) : j.shellAt (p :: ps) = (j.child p).bind (·.shellAt ps) := by
  unfold shellAt
  rw [read]
  cases j.child p <;> rfl

theorem inner_cons : j.inner (k :: ks) = (j.member? k).bind (·.inner ks) := shellAt_cons j _ _

theorem inner_singleton : j.inner [k] = (j.member? k).map shell := by
  rw [inner_cons]
  cases j.member? k <;> rfl

theorem inner_cons_getD (k' : String) :
    j.inner (k :: (ks ++ [k'])) = ((j.member? k).getD null).inner (ks ++ [k']) := by
  -- below a member that is missing there is as little as below `null`
  rw [inner_cons]
  cases j.member? k with
  | some v => rfl
  | none => cases ks <;> rfl

variable {j}

theorem eq_obj_of_inner_cons {v : Json} (h : j.inner (k :: ks) = some v) : ∃ ms, j = obj ms := by
  cases j with
  | obj ms => exact ⟨ms, rfl⟩
  | _ => cases h

theorem eq_obj_of_inner_nil (h : j.inner [] = some (obj [])) : ∃ ms, j = obj ms := by
  cases j with
  | obj ms => exact ⟨ms, rfl⟩
  | _ => cases h

theorem shell_eq_null_iff : j.shell = null ↔ j = null := by
  cases j <;> simp [shell]

theorem differAt_str (s t : String) : DifferAt [] (str s) (str t) := by
  intro ps hps
  cases ps with
  | nil => exact absurd rfl hps
  | cons p ps => cases p <;> rfl

theorem DifferAt.member {place : List Place} {a b : Json} (h : DifferAt place a b)
    (before after : List (String × Json)) :
    DifferAt (.member k :: place) (obj (before ++ (k, a) :: after))
      (obj (before ++ (k, b) :: after)) := by
  intro ps hps
  cases ps with
  | nil => rfl
  | cons p ps =>
    cases p with
    | item i => rfl
    | member k' =>
      rw [shellAt_cons, shellAt_cons]
      change ((before ++ (k, b) :: after).lookup k').bind _ =
        ((before ++ (k, a) :: after).lookup k').bind _
      rw [List.lookup_append, List.lookup_append, List.lookup_cons, List.lookup_cons]
      cases before.lookup k' with
      | some v => rfl
      | none =>
        by_cases hk : k' = k
        · subst hk
          rw [beq_self_eq_true]
          apply h
          rintro rfl
          exact hps rfl
        · rw [beq_false_of_ne hk]

end Reading

section Distinct

variable {j v : Json} {k : String}

theorem distinct_null : Distinct null := by
  intro ks ms h
  cases ks <;> cases h

theorem Distinct.nodup (h : Distinct j) : (j.members.map (·.1)).Nodup := by
  cases j with
  | obj ms => exact h [] ms rfl
  | _ => exact List.nodup_nil

theorem Distinct.member (h : Distinct j) (hk : j.member? k = some v) : Distinct v := by
  intro ks ms hread
  apply h (k :: ks) ms
  change (j.member? k).bind (·.read (ks.map .member)) = _
  rw [hk, Option.bind_some, hread]

theorem Distinct.getD (h : Distinct j) (k : String) : Distinct ((j.member? k).getD null) := by
  cases hk : j.member? k with
  | none => exact distinct_null
  | some v => exact h.member hk

theorem Distinct.of_mem (h : Distinct j) {e : String × Json} (he : e ∈ j.members) :
    Distinct e.2 := h.member (Assoc.lookup_of_mem h.nodup he)

theorem distinct_obj {ms : List (String × Json)} (hms : (ms.map (·.1)).Nodup)
    (h : ∀ e ∈ ms, Distinct e.2) : Distinct (obj ms) := by
  intro ks own hread
  cases ks with
  | nil =>
    cases hread
    exact hms
  | cons k ks =>
    obtain ⟨v, hv, hread⟩ := Option.bind_eq_some_iff.1 hread
    exact h _ (Assoc.mem_of_lookup hv) ks own hread

theorem distinct_obj_iff {ms : List (String × Json)} :
    Distinct (obj ms) ↔ (ms.map (·.1)).Nodup ∧ ∀ e ∈ ms, Distinct e.2 :=
  ⟨fun h => ⟨h.nodup, fun _ he => h.of_mem he⟩, fun h => distinct_obj h.1 h.2⟩

theorem distinct_of_ne_obj (h : ∀ ms, j ≠ obj ms) : Distinct j := by
  intro ks ms hread
  cases ks with
  | nil =>
    cases hread
    exact absurd rfl (h ms)
  | cons k ks => cases j <;> first | cases hread | exact absurd rfl (h _)

theorem distinct_ofMap {m : List (String × String)} (hm : (m.map (·.1)).Nodup) :
    Distinct (ofMap m) := by
  apply distinct_obj
  · rw [List.map_map]
    exact hm
  · intro e he
    obtain ⟨p, -, rfl⟩ := List.mem_map.1 he
    exact distinct_of_ne_obj (by simp)

theorem distinct_record {fields : List (String × Option Json)} (hfields : (fields.map (·.1)).Nodup)
    (h : ∀ e ∈ fields, ∀ v ∈ e.2, Distinct v) : Distinct (record fields) := by
  apply distinct_obj
  · exact hfields.sublist (keys_record_sublist fields)
  · intro e he
    obtain ⟨⟨k, v?⟩, hfield, hentry⟩ := List.mem_filterMap.1 he
    obtain ⟨v, hv, rfl⟩ := Option.map_eq_some_iff.1 hentry
    exact h (k, v?) hfield v hv

end Distinct

theorem isNull_iff {j : Json} : j.isNull = true ↔ j = null := by
  cases j <;> simp [isNull]

theorem isNull_eq_false_iff {j : Json} : j.isNull = false ↔ j ≠ null := by
  rw [← Bool.not_eq_true, isNull_iff]

def patched (old : Option Json) : Option Json → Option Json
  | none => old
  | some v => if v.isNull then none else some ((old.getD null).mergePatch v)

section Members

variable {ms target : List (String × Json)} {k : String} {v : Json}

theorem nodup_merged (h : (target.map (·.1)).Nodup) (k : String) (v new : Json) :
    ((if v.isNull then Assoc.erase k target else Assoc.insert k new target).map (·.1)).Nodup := by
  split
  · exact h.sublist ((Assoc.erase_sublist k target).map _)
  · exact Assoc.nodup_keys_insert h k new

theorem lookup_merged_of_ne {k' : String} (h : k' ≠ k) (v new : Json) :
    (if v.isNull then Assoc.erase k target else Assoc.insert k new target).lookup k' =
      target.lookup k' := by
  split
  · exact Assoc.lookup_erase_of_ne h target
  · exact Assoc.lookup_insert_of_ne h new target

theorem nodup_mergeMembers (h : (target.map (·.1)).Nodup) :
    ((mergeMembers target ms).map (·.1)).Nodup := by
  induction ms generalizing target with
  | nil => exact h
  | cons e ms ih =>
    rw [mergeMembers]
    exact ih (nodup_merged h e.1 e.2 _)

theorem lookup_mergeMembers (hms : (ms.map (·.1)).Nodup)
    (htarget : ms.lookup k = some null → (target.map (·.1)).Nodup) :
    (mergeMembers target ms).lookup k = patched (target.lookup k) (ms.lookup k) := by
  -- only where the patch says `null` must the target not name the member twice
  induction ms generalizing target with
  | nil => rfl
  | cons e ms ih =>
    obtain ⟨hfirst, hrest⟩ := List.nodup_cons.1 hms
    rw [List.lookup_cons] at htarget ⊢
    rw [mergeMembers]
    by_cases hk : k = e.1
    · subst hk
      have hnone : ms.lookup e.1 = none := Assoc.lookup_eq_none_of_notMem hfirst
      rw [BEq.rfl] at htarget ⊢
      rw [ih hrest (by simp [hnone]), hnone]
      cases hnull : e.2.isNull with
      | true =>
        have hv : some e.2 = some null := congrArg some (isNull_iff.1 hnull)
        simpa [patched, hnull] using Assoc.lookup_erase_self (htarget hv)
      | false => simp [patched, hnull]
    · rw [beq_false_of_ne hk] at htarget ⊢
      rw [ih hrest fun h => nodup_merged (htarget h) e.1 e.2 _, lookup_merged_of_ne hk]

end Members

section Patches

variable {o w : Json}

theorem shell_mergePatch (o w : Json) : (o.mergePatch w).shell = w.shell := by
  cases w <;> rfl

theorem member?_mergePatch (ho : Distinct o) {ms : List (String × Json)} (hw : Distinct (obj ms))
    (k : String) : (o.mergePatch (obj ms)).member? k = patched (o.member? k) (ms.lookup k) :=
  lookup_mergeMembers hw.nodup fun _ => ho.nodup

theorem Distinct.mergePatch (ho : Distinct o) (hw : Distinct w) : Distinct (o.mergePatch w) := by
  intro ks
  induction ks generalizing o w with
  | nil =>
    intro ms hread
    cases w with
    | obj own =>
      cases hread
      exact nodup_mergeMembers ho.nodup
    | _ => cases hread
  | cons k ks ih =>
    intro ms hread
    cases w with
    | obj own =>
      obtain ⟨v, hv, hread⟩ := Option.bind_eq_some_iff.1 hread
      change (o.mergePatch (obj own)).member? k = some v at hv
      rw [member?_mergePatch ho hw] at hv
      cases hk : own.lookup k with
      | none =>
        rw [hk] at hv
        exact ho.member hv ks ms hread
      | some new =>
        rw [hk, patched] at hv
        split at hv
        · cases hv
        · cases hv
          exact ih (ho.getD k) (hw.member hk) ms hread
    | _ => cases hread

theorem inner_cons_mergePatch (ho : Distinct o) (hw : Distinct w) {k : String} {v : Json}
    (hk : w.member? k = some v) (hv : v ≠ null) (ks : List String) :
    (o.mergePatch w).inner (k :: ks) = (((o.member? k).getD null).mergePatch v).inner ks := by
  have hnull := isNull_eq_false_iff.2 hv
  cases w with
  | obj ms =>
    change ms.lookup k = some v at hk
    simp [inner_cons, member?_mergePatch ho hw, hk, patched, hnull]
  | _ => cases hk

theorem exists_member?_of_inner_cons {k : String} {ks : List String} {v : Json}
    (h : w.inner (k :: ks) = some v) (hv : v = obj [] ∨ ks ≠ []) :
    ∃ own, w.member? k = some own ∧ own ≠ null ∧ own.inner ks = some v := by
  rw [inner_cons] at h
  obtain ⟨own, hown, hinner⟩ := Option.bind_eq_some_iff.1 h
  refine ⟨own, hown, ?_, hinner⟩
  rintro rfl
  cases ks with
  | nil =>
    cases hinner
    rcases hv with hv | hv
    · cases hv
    · exact hv rfl
  | cons k' ks => cases hinner

theorem inner_mergePatch_of_absent (ho : Distinct o) (hw : Distinct w) {ks : List String}
    {k : String} (hobj : w.inner ks = some (obj [])) (hnone : w.inner (ks ++ [k]) = none) :
    (o.mergePatch w).inner (ks ++ [k]) = o.inner (ks ++ [k]) := by
  induction ks generalizing o w with
  | nil =>
    obtain ⟨ms, rfl⟩ := eq_obj_of_inner_nil hobj
    have hk : ms.lookup k = none := by simpa [inner_singleton, member?, members] using hnone
    simp [inner_singleton, member?_mergePatch ho hw, hk, patched]
  | cons k' ks ih =>
    obtain ⟨v, hk', hv, hinner⟩ := exists_member?_of_inner_cons hobj (.inl rfl)
    have hrest : v.inner (ks ++ [k]) = none := by
      rwa [List.cons_append, inner_cons, hk'] at hnone
    rw [List.cons_append, inner_cons_mergePatch ho hw hk' hv, inner_cons_getD]
    exact ih (ho.getD k') (hw.member hk') hinner hrest

theorem inner_mergePatch_of_null (ho : Distinct o) (hw : Distinct w) {ks : List String}
    {k : String} (hnull : w.inner (ks ++ [k]) = some null) :
    (o.mergePatch w).inner (ks ++ [k]) = none := by
  induction ks generalizing o w with
  | nil =>
    obtain ⟨ms, rfl⟩ := eq_obj_of_inner_cons k [] hnull
    have hk : ms.lookup k = some null := by
      simpa [inner_singleton, member?, members, shell_eq_null_iff] using hnull
    simp [inner_singleton, member?_mergePatch ho hw, hk, patched, isNull]
  | cons k' ks ih =>
    obtain ⟨v, hk', hv, hinner⟩ := exists_member?_of_inner_cons hnull (.inr (by simp))
    rw [List.cons_append, inner_cons_mergePatch ho hw hk' hv]
    exact ih (ho.getD k') (hw.member hk') hinner

theorem Covers.member (h : Covers w o) {k : String} {v : Json} (hk : w.member? k = some v) :
    Covers v ((o.member? k).getD null) := by
  intro ks k' hobj
  have hown : ∀ ks, w.inner (k :: ks) = v.inner ks := by
    intro ks
    rw [inner_cons, hk, Option.bind_some]
  have hcovers := h (k :: ks) k' ((hown ks).trans hobj)
  rwa [List.cons_append, hown, inner_cons_getD] at hcovers

theorem Covers.same_mergePatch (h : Covers w o) (ho : Distinct o) (hw : Distinct w) :
    Same (o.mergePatch w) w := by
  intro ps
  induction ps generalizing o w with
  | nil => exact congrArg some (shell_mergePatch o w)
  | cons p ps ih =>
    cases w with
    | obj ms =>
      cases p with
      | item i => rfl
      | member k =>
        obtain ⟨hnull, hnone⟩ := h [] k rfl
        rw [List.nil_append, inner_singleton] at hnull hnone
        rw [inner_singleton] at hnone
        rw [shellAt_cons, shellAt_cons]
        change ((o.mergePatch (obj ms)).member? k).bind _ = (ms.lookup k).bind _
        rw [member?_mergePatch ho hw]
        cases hk : ms.lookup k with
        | none =>
          have hold : (o.member? k).map shell = none := hnone (congrArg (Option.map shell) hk)
          rw [Option.map_eq_none_iff.1 hold]
          rfl
        | some v =>
          have hmember : (obj ms).member? k = some v := hk
          have hv : v.isNull = false := by
            apply isNull_eq_false_iff.2
            rintro rfl
            exact hnull (congrArg (Option.map shell) hmember)
          simp only [patched, hv, Bool.false_eq_true, if_false, Option.bind_some]
          exact ih (h.member hmember) (ho.getD k) (hw.member hmember)
    | _ => rfl

theorem same_mergePatch_iff (ho : Distinct o) (hw : Distinct w) :
    Same (o.mergePatch w) w ↔ Covers w o := by
  constructor
  · intro hsame ks k hobj
    have hplace : (o.mergePatch w).inner (ks ++ [k]) = w.inner (ks ++ [k]) := hsame _
    constructor
    · intro hnull
      rw [inner_mergePatch_of_null ho hw hnull, hnull] at hplace
      cases hplace
    · intro hnone
      rw [← inner_mergePatch_of_absent ho hw hobj hnone, hplace, hnone]
  · intro hcovers
    exact hcovers.same_mergePatch ho hw

theorem Covers.of_mergePatch (h : Covers w (o.mergePatch w)) (ho : Distinct o) (hw : Distinct w) :
    Covers w o := by
  intro ks k hobj
  obtain ⟨hnull, hnone⟩ := h ks k hobj
  refine ⟨hnull, fun habsent => ?_⟩
  rw [← inner_mergePatch_of_absent ho hw hobj habsent]
  exact hnone habsent

end Patches

end PreviewApps.Json
