import PreviewApps.Assoc

/-! Laws of maps as pair lists: the keys of the operations, and maps made from lists. -/

namespace PreviewApps.Assoc

variable {κ ν : Type} [BEq κ]

theorem erase_sublist (k : κ) (m : List (κ × ν)) : (erase k m).Sublist m := by
  induction m with
  | nil => exact .slnil
  | cons e r ih =>
    rw [erase]
    split
    · exact List.sublist_cons_self e r
    · exact ih.cons_cons e

theorem addToGroup_perm (f : ν → κ) (m : List (κ × List ν)) (x : ν) :
    ((addToGroup f m x).flatMap (·.2)).Perm (m.flatMap (·.2) ++ [x]) := by
  unfold addToGroup
  induction m with
  | nil => exact List.Perm.refl [x]
  | cons g m ih =>
    rw [insert, List.lookup_cons]
    split
    · next hk =>
      rw [hk]
      show (g.2 ++ [x] ++ m.flatMap (·.2)).Perm (g.2 ++ m.flatMap (·.2) ++ [x])
      rw [List.append_assoc, List.append_assoc]
      exact List.perm_append_comm.append_left g.2
    · next hk =>
      rw [Bool.eq_false_iff.2 hk, List.flatMap_cons, List.flatMap_cons, List.append_assoc]
      exact ih.append_left g.2

theorem groupBy_perm (f : ν → κ) (xs : List ν) : ((groupBy f xs).flatMap (·.2)).Perm xs := by
  suffices hfold : ∀ m : List (κ × List ν),
      ((xs.foldl (addToGroup f) m).flatMap (·.2)).Perm (m.flatMap (·.2) ++ xs) from hfold []
  induction xs with
  | nil =>
    intro m
    rw [List.append_nil]
    exact List.Perm.refl _
  | cons x xs ih =>
    intro m
    have hadd := (addToGroup_perm f m x).append_right xs
    rw [List.append_assoc, List.singleton_append] at hadd
    exact (ih _).trans hadd

variable [LawfulBEq κ]

theorem mem_insert {k : κ} {v : ν} {m : List (κ × ν)} {e : κ × ν} (h : e ∈ insert k v m) :
    e = (k, v) ∨ e ∈ m := by
  induction m with
  | nil => exact .inl (List.mem_singleton.1 h)
  | cons a r ih =>
    rw [insert] at h
    split at h
    · next hk =>
      rcases List.mem_cons.1 h with rfl | hr
      · exact .inl (by rw [eq_of_beq hk])
      · exact .inr (List.mem_cons_of_mem a hr)
    · rcases List.mem_cons.1 h with rfl | hr
      · exact .inr (List.mem_cons_self ..)
      · exact (ih hr).imp_right (List.mem_cons_of_mem a)

theorem forall_mem_foldl_insert {p : ν → Prop} {es m : List (κ × ν)} (hm : ∀ e ∈ m, p e.2)
    (h : ∀ e ∈ es, p e.2) : ∀ e ∈ es.foldl (fun m e => insert e.1 e.2 m) m, p e.2 := by
  induction es generalizing m with
  | nil => exact hm
  | cons e es ih =>
    refine ih ?_ fun a ha => h a (List.mem_cons_of_mem e ha)
    intro a ha
    rcases mem_insert ha with rfl | ha
    · exact h e (List.mem_cons_self ..)
    · exact hm a ha

theorem forall_mem_ofList {p : ν → Prop} {es : List (κ × ν)} (h : ∀ e ∈ es, p e.2) :
    ∀ e ∈ ofList es, p e.2 := forall_mem_foldl_insert (fun _ he => absurd he List.not_mem_nil) h

theorem insert_of_notMem {k : κ} {m : List (κ × ν)} (h : k ∉ m.map (·.1)) (v : ν) :
    insert k v m = m ++ [(k, v)] := by
  induction m with
  | nil => rfl
  | cons e r ih =>
    simp only [List.map_cons, List.mem_cons, not_or] at h
    rw [insert, if_neg (by simpa using h.1), ih h.2, List.cons_append]

theorem keys_insert_of_mem {k : κ} {m : List (κ × ν)} (h : k ∈ m.map (·.1)) (v : ν) :
    (insert k v m).map (·.1) = m.map (·.1) := by
  induction m with
  | nil => exact absurd h List.not_mem_nil
  | cons e r ih =>
    rw [insert]
    split
    · rfl
    · next hne =>
      rcases List.mem_cons.1 h with he | hr
      · exact absurd (by simp [he]) hne
      · rw [List.map_cons, List.map_cons, ih hr]

theorem nodup_keys_insert {m : List (κ × ν)} (h : (m.map (·.1)).Nodup) (k : κ) (v : ν) :
    ((insert k v m).map (·.1)).Nodup := by
  by_cases hk : k ∈ m.map (·.1)
  · rwa [keys_insert_of_mem hk]
  · rw [insert_of_notMem hk, List.map_append]
    refine List.nodup_append.2 ⟨h, by simp, ?_⟩
    intro a ha b hb he
    rw [he, List.mem_singleton.1 hb] at ha
    exact hk ha

theorem foldl_insert_of_nodup {es m : List (κ × ν)} (h : ((m ++ es).map (·.1)).Nodup) :
    es.foldl (fun m e => insert e.1 e.2 m) m = m ++ es := by
  induction es generalizing m with
  | nil => exact (List.append_nil m).symm
  | cons e es ih =>
    have hk : e.1 ∉ m.map (·.1) := by
      simp only [List.map_append, List.map_cons, List.nodup_append, List.nodup_cons] at h
      exact fun hm => h.2.2 e.1 hm e.1 (List.mem_cons_self ..) rfl
    rw [List.foldl_cons, insert_of_notMem hk, ih (by simpa using h)]
    simp

theorem ofList_of_nodup {es : List (κ × ν)} (h : (es.map (·.1)).Nodup) : ofList es = es :=
  foldl_insert_of_nodup h

theorem nodup_keys_foldl_insert {es m : List (κ × ν)} (h : (m.map (·.1)).Nodup) :
    ((es.foldl (fun m e => insert e.1 e.2 m) m).map (·.1)).Nodup := by
  induction es generalizing m with
  | nil => exact h
  | cons e es ih => exact ih (nodup_keys_insert h e.1 e.2)

theorem nodup_keys_ofList (es : List (κ × ν)) : ((ofList es).map (·.1)).Nodup :=
  nodup_keys_foldl_insert List.nodup_nil

theorem lookup_foldl_insert (k : κ) (es m : List (κ × ν)) :
    (es.foldl (fun m e => insert e.1 e.2 m) m).lookup k =
      ((es.filter (·.1 == k)).getLast?.map (·.2)).or (m.lookup k) := by
  induction es generalizing m with
  | nil => rfl
  | cons e es ih =>
    rw [List.foldl_cons, ih]
    by_cases hk : e.1 = k
    · rw [List.filter_cons_of_pos (by simpa using hk), List.getLast?_cons, ← hk, lookup_insert_self]
      cases (es.filter (·.1 == e.1)).getLast? <;> rfl
    · rw [List.filter_cons_of_neg (by simpa using hk), lookup_insert_of_ne (Ne.symm hk)]

theorem lookup_foldl_insert_of_ne {k : κ} {es : List (κ × ν)} (h : ∀ e ∈ es, e.1 ≠ k)
    (m : List (κ × ν)) : (es.foldl (fun m e => insert e.1 e.2 m) m).lookup k = m.lookup k := by
  have hnone : es.filter (·.1 == k) = [] := by
    rw [List.filter_eq_nil_iff]
    exact fun e he => by simpa using h e he
  rw [lookup_foldl_insert, hnone]
  rfl

theorem lookup_ofList (k : κ) (es : List (κ × ν)) :
    (ofList es).lookup k = (es.filter (·.1 == k)).getLast?.map (·.2) := by
  rw [ofList, lookup_foldl_insert, List.lookup_nil, Option.or_none]

theorem isSome_lookup_ofList {es : List (κ × ν)} {e : κ × ν} (he : e ∈ es) :
    ((ofList es).lookup e.1).isSome := by
  have hmem : e ∈ es.filter (·.1 == e.1) := List.mem_filter.2 ⟨he, BEq.rfl⟩
  rw [lookup_ofList, Option.isSome_map, List.getLast?_isSome]
  exact List.ne_nil_of_mem hmem

theorem mem_of_lookup {k : κ} {v : ν} {m : List (κ × ν)} (h : m.lookup k = some v) :
    (k, v) ∈ m := by
  obtain ⟨a, b, rfl, -⟩ := List.lookup_eq_some_iff.1 h
  exact List.mem_append_right a (List.mem_cons_self ..)

theorem lookup_of_mem {m : List (κ × ν)} (hm : (m.map (·.1)).Nodup) {e : κ × ν} (he : e ∈ m) :
    m.lookup e.1 = some e.2 := by
  obtain ⟨a, b, rfl⟩ := List.append_of_mem he
  refine List.lookup_eq_some_iff.2 ⟨a, b, rfl, ?_⟩
  intro p hp
  rw [List.map_append, List.nodup_append] at hm
  have hne := hm.2.2 p.1 (List.mem_map_of_mem hp) e.1 (by simp)
  exact bne_iff_ne.2 (Ne.symm hne)

theorem lookup_eq_none_of_notMem {k : κ} {m : List (κ × ν)} (h : k ∉ m.map (·.1)) :
    m.lookup k = none := by
  cases hv : m.lookup k with
  | none => rfl
  | some v => exact absurd (List.mem_map_of_mem (mem_of_lookup hv)) h

theorem lookup_erase_self {k : κ} {m : List (κ × ν)} (hm : (m.map (·.1)).Nodup) :
    (erase k m).lookup k = none := by
  induction m with
  | nil => rfl
  | cons e r ih =>
    obtain ⟨he, hr⟩ := List.nodup_cons.1 hm
    rw [erase]
    split
    · next hk => exact lookup_eq_none_of_notMem (eq_of_beq hk ▸ he)
    · next hk => rw [List.lookup_cons, Bool.eq_false_iff.2 hk, ih hr]

theorem lookup_erase_of_ne {k k' : κ} (h : k' ≠ k) (m : List (κ × ν)) :
    (erase k m).lookup k' = m.lookup k' := by
  induction m with
  | nil => rfl
  | cons e r ih =>
    rw [erase]
    split
    · next hk => rw [List.lookup_cons, ← eq_of_beq hk, beq_false_of_ne h]
    · rw [List.lookup_cons, List.lookup_cons, ih]

theorem erase_eq_filter {m : List (κ × ν)} (hm : (m.map (·.1)).Nodup) (k : κ) :
    erase k m = m.filter (·.1 != k) := by
  induction m with
  | nil => rfl
  | cons e r ih =>
    obtain ⟨he, hr⟩ := List.nodup_cons.1 hm
    rw [erase, List.filter_cons]
    by_cases hk : k = e.1
    · have hkeep : r.filter (·.1 != k) = r := by
        refine List.filter_eq_self.2 fun a ha => bne_iff_ne.2 fun heq => he ?_
        have hmem := List.mem_map_of_mem (f := (·.1)) ha
        rwa [heq, hk] at hmem
      rw [hkeep]
      simp [hk]
    · simp [hk, Ne.symm hk, ih hr]

theorem keys_insert (k : κ) (v : ν) (m : List (κ × ν)) :
    (insert k v m).map (·.1) = if k ∈ m.map (·.1) then m.map (·.1) else m.map (·.1) ++ [k] := by
  split
  · next hk => exact keys_insert_of_mem hk v
  · next hk => rw [insert_of_notMem hk, List.map_append, List.map_singleton]

theorem keys_foldl_insert {ks : List κ} {es m : List (κ × ν)} (h : m.map (·.1) = ks.eraseDups) :
    (es.foldl (fun m e => insert e.1 e.2 m) m).map (·.1) = (ks ++ es.map (·.1)).eraseDups := by
  induction es generalizing ks m with
  | nil => rw [List.foldl_nil, List.map_nil, List.append_nil, h]
  | cons e es ih =>
    have hkeys : (insert e.1 e.2 m).map (·.1) = (ks ++ [e.1]).eraseDups := by
      rw [keys_insert, h, List.eraseDups_append]
      by_cases hk : e.1 ∈ ks <;> simp [List.removeAll, hk, List.eraseDups_cons]
    rw [List.foldl_cons, ih hkeys, List.map_cons, List.append_assoc, List.singleton_append]

theorem filter_key_of_nodup {m : List (κ × ν)} (hm : (m.map (·.1)).Nodup) (k : κ) :
    m.filter (·.1 == k) = ((m.lookup k).map (k, ·)).toList := by
  induction m with
  | nil => rfl
  | cons e r ih =>
    obtain ⟨he, hr⟩ := List.nodup_cons.1 hm
    rw [List.filter_cons, List.lookup_cons, ih hr]
    by_cases hk : e.1 = k
    · rw [lookup_eq_none_of_notMem (hk ▸ he)]
      simp [← hk]
    · simp [hk, beq_false_of_ne (Ne.symm hk)]

theorem filter_eq_singleton {f : ν → κ} {xs : List ν} (hxs : (xs.map f).Nodup) {x : ν}
    (hx : x ∈ xs) : xs.filter (f · == f x) = [x] := by
  induction xs with
  | nil => exact absurd hx List.not_mem_nil
  | cons y ys ih =>
    obtain ⟨hy, hys⟩ := List.nodup_cons.1 hxs
    rcases List.mem_cons.1 hx with rfl | hlater
    · have hrest : ys.filter (f · == f x) = [] := by
        rw [List.filter_eq_nil_iff]
        intro z hz hkey
        exact hy (List.mem_map.2 ⟨z, hz, eq_of_beq hkey⟩)
      rw [List.filter_cons, BEq.rfl, if_pos rfl, hrest]
    · have hne : f y ≠ f x := fun hkey => hy (List.mem_map.2 ⟨x, hlater, hkey.symm⟩)
      rw [List.filter_cons_of_neg (by simpa using hne), ih hys hlater]

theorem lookup_filter_keys (p : κ → Bool) (k : κ) (m : List (κ × ν)) :
    (m.filter fun e => p e.1).lookup k = if p k then m.lookup k else none := by
  induction m with
  | nil => simp
  | cons e r ih =>
    by_cases hk : k = e.1
    · subst hk
      rw [List.filter_cons]
      split
      · rw [List.lookup_cons, List.lookup_cons, BEq.rfl]
      · next hp => rw [ih, if_neg hp]
    · rw [List.filter_cons, List.lookup_cons, beq_false_of_ne hk]
      split
      · rw [List.lookup_cons, beq_false_of_ne hk, ih]
      · exact ih

section Groups

variable (f : ν → κ) (xs : List ν)

theorem lookup_foldl_addToGroup (k : κ) (m : List (κ × List ν)) :
    ((xs.foldl (addToGroup f) m).lookup k).getD [] =
      (m.lookup k).getD [] ++ xs.filter (f · == k) := by
  induction xs generalizing m with
  | nil => rw [List.filter_nil, List.append_nil, List.foldl_nil]
  | cons x xs ih =>
    rw [List.foldl_cons, ih, addToGroup]
    by_cases hk : f x = k
    · rw [hk, lookup_insert_self, Option.getD_some, List.filter_cons_of_pos (by simpa using hk),
        List.append_assoc, List.singleton_append]
    · rw [lookup_insert_of_ne (Ne.symm hk), List.filter_cons_of_neg (by simpa using hk)]

theorem lookup_groupBy (k : κ) :
    ((groupBy f xs).lookup k).getD [] = xs.filter (f · == k) := lookup_foldl_addToGroup f xs k []

theorem nodup_keys_groupBy : ((groupBy f xs).map (·.1)).Nodup := by
  suffices hfold : ∀ m : List (κ × List ν), (m.map (·.1)).Nodup →
      ((xs.foldl (addToGroup f) m).map (·.1)).Nodup from hfold [] List.nodup_nil
  induction xs with
  | nil => exact fun m hm => hm
  | cons x xs ih => exact fun m hm => ih _ (nodup_keys_insert hm _ _)

variable {f xs}

theorem eq_filter_of_mem_groupBy {g : κ × List ν} (hg : g ∈ groupBy f xs) :
    g.2 = xs.filter (f · == g.1) := by
  rw [← lookup_groupBy, lookup_of_mem (nodup_keys_groupBy f xs) hg, Option.getD_some]

theorem ne_nil_of_mem_groupBy {g : κ × List ν} (hg : g ∈ groupBy f xs) : g.2 ≠ [] := by
  suffices hfold : ∀ m : List (κ × List ν), (∀ g ∈ m, g.2 ≠ []) →
      ∀ g ∈ xs.foldl (addToGroup f) m, g.2 ≠ [] from
    hfold [] (fun g hg => absurd hg List.not_mem_nil) g hg
  clear hg
  induction xs with
  | nil => exact fun m hm => hm
  | cons x xs ih =>
    refine fun m hm => ih _ fun g hg => ?_
    rcases mem_insert hg with rfl | hold
    · exact List.append_ne_nil_of_right_ne_nil _ (List.cons_ne_nil x [])
    · exact hm g hold

end Groups

end PreviewApps.Assoc
