import PreviewApps.Json.Basic

/-! The members of objects made from maps and records. -/

namespace PreviewApps.Json

theorem lookup_ofMap (m : List (String × String)) (k : String) :
    (ofMap m).members.lookup k = (m.lookup k).map .str := by
  change (m.map fun e => (e.1, Json.str e.2)).lookup k = _
  induction m with
  | nil => rfl
  | cons e m ih =>
    rw [List.map_cons, List.lookup_cons, List.lookup_cons]
    split
    · rfl
    · exact ih

theorem lookup_record {fields : List (String × Option Json)} (h : (fields.map (·.1)).Nodup)
    (k : String) : (record fields).members.lookup k = (fields.lookup k).join := by
  change (fields.filterMap fun e => e.2.map fun v => (e.1, v)).lookup k = _
  induction fields with
  | nil => rfl
  | cons e fields ih =>
    obtain ⟨a, v⟩ := e
    obtain ⟨ha, hnodup⟩ := List.nodup_cons.1 h
    cases v with
    | none =>
      rw [List.filterMap_cons_none rfl, ih hnodup, List.lookup_cons]
      split
      · next hk =>
        have hnone : fields.lookup k = none := by
          rw [List.lookup_eq_none_iff]
          intro e he
          rw [bne_iff_ne, eq_of_beq hk]
          intro hae
          have hmem : e.1 ∈ fields.map (·.1) := List.mem_map_of_mem he
          rw [← hae] at hmem
          exact ha hmem
        rw [hnone]
        rfl
      · rfl
    | some v =>
      simp only [List.filterMap_cons, Option.map_some]
      rw [List.lookup_cons, List.lookup_cons]
      split
      · rfl
      · exact ih hnodup

theorem keys_record_sublist (fields : List (String × Option Json)) :
    ((record fields).members.map (·.1)).Sublist (fields.map (·.1)) := by
  change ((fields.filterMap fun e => e.2.map fun v => (e.1, v)).map (·.1)).Sublist _
  induction fields with
  | nil => exact .slnil
  | cons e fields ih =>
    cases hv : e.2 with
    | none =>
      rw [List.filterMap_cons_none (by rw [hv]; rfl)]
      exact ih.cons e.1
    | some v =>
      rw [List.filterMap_cons_some (by rw [hv]; rfl)]
      exact ih.cons_cons e.1

theorem lookup_of_get_eq_obj {j : Json} {k : String} {ms : List (String × Json)}
    (h : j.get k = .obj ms) : ∃ own, j = .obj own ∧ own.lookup k = some (.obj ms) := by
  cases j with
  | obj own =>
    refine ⟨own, rfl, ?_⟩
    change (own.lookup k).getD .null = .obj ms at h
    cases hv : own.lookup k with
    | none =>
      rw [hv] at h
      cases h
    | some v =>
      rw [hv] at h
      exact congrArg some h
  | _ => cases h

end PreviewApps.Json
