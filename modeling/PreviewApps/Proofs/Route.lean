import Mathlib.Data.List.Nodup
import PreviewApps.Proofs.AppName
import PreviewApps.Route

/-! Routes behind a base route, and the objects that their inline middlewares need. -/

namespace PreviewApps

namespace Middleware

theorem exists_objectName_eq_append (front : String) {last : String}
    (spec : Option (List (String × Json))) (hlast : last.toList.map Char.toLower = last.toList)
    (hend : ∃ c, last.toList.getLast? = some c ∧ c ≠ '\n') :
    ∃ front' : String, front'.toList.length = front.toList.length ∧
      (Middleware.mk (front ++ last) spec).objectName = front' ++ last := by
  unfold objectName
  split
  · exact ⟨front, rfl, rfl⟩
  · next h =>
    rw [Bool.or_eq_true, not_or, Bool.not_eq_true', Bool.not_eq_false] at h
    have hvalid : AppName.isValid (front ++ last) = true := h.2
    obtain ⟨c, hc, hnl⟩ := hend
    have hkept : AppName.dropFinalNewline (front ++ last).toList = (front ++ last).toList := by
      unfold AppName.dropFinalNewline
      rw [String.toList_append, List.getLast?_append, hc, Option.some_or]
      exact if_neg fun h => hnl (Option.some.inj h)
    rw [AppName.isValid, hkept, Bool.and_eq_true, List.all_eq_true] at hvalid
    refine ⟨.ofList (front.toList.map Char.toLower), by simp, ?_⟩
    rw [Text.lower, AppName.lowerFrom_of_isNameChar [] hvalid.2, String.toList_append,
      List.map_append, hlast]
    apply String.toList_injective
    simp

end Middleware

namespace IngressRoute

theorem routes_behind {base : IngressRoute} {b : Route} {bs : List Route}
    (h : base.routes = b :: bs) (r : IngressRoute) : (r.behind base).routes =
      r.routes.map fun s => ⟨b.rule.merge s.rule, b.middlewares ++ s.middlewares⟩ := by
  rw [behind, h]

theorem isEmpty_behind (r base : IngressRoute) : (r.behind base).isEmpty = r.isEmpty := by
  unfold behind
  split
  · rfl
  · exact List.isEmpty_map

theorem distinct_sublist (seen : List String) (ms : List Middleware) :
    (distinct seen ms).Sublist ms := by
  induction ms generalizing seen with
  | nil => exact .slnil
  | cons m ms ih =>
    rw [distinct]
    split
    · exact (ih seen).cons m
    · exact (ih _).cons_cons m

theorem mem_middlewares_of_mem_inlineMiddlewares {r : IngressRoute} {m : Middleware}
    (h : m ∈ r.inlineMiddlewares) : m ∈ r.middlewares :=
  (List.mem_filter.1 ((distinct_sublist _ _).subset h)).1

theorem isSome_spec_of_mem_inlineMiddlewares {r : IngressRoute} {m : Middleware}
    (h : m ∈ r.inlineMiddlewares) : m.spec.isSome := by
  have hinline := (List.mem_filter.1 ((distinct_sublist _ _).subset h)).2
  simpa [Middleware.isRef] using hinline

theorem mem_middlewares_behind {r base : IngressRoute} {m : Middleware}
    (h : m ∈ (r.behind base).middlewares) : m ∈ base.middlewares ∨ m ∈ r.middlewares := by
  unfold behind at h
  split at h
  · exact .inr h
  · next b bs hbase =>
    obtain ⟨s, hs, hm⟩ := List.mem_flatMap.1 h
    obtain ⟨own, hown, rfl⟩ := List.mem_map.1 hs
    rcases List.mem_append.1 hm with hm | hm
    · exact .inl (List.mem_flatMap.2 ⟨b, by simp [hbase], hm⟩)
    · exact .inr (List.mem_flatMap.2 ⟨own, hown, hm⟩)

theorem filter_distinct (seen : List String) (ms : List Middleware) (name : String) :
    (distinct seen ms).filter (·.objectName == name) =
      if name ∈ seen then [] else (ms.find? (·.objectName == name)).toList := by
  induction ms generalizing seen with
  | nil => simp [distinct]
  | cons m ms ih =>
    rw [distinct, List.find?_cons]
    by_cases hname : m.objectName = name
    · subst hname
      rw [beq_self_eq_true]
      by_cases hseen : m.objectName ∈ seen
      · rw [if_pos (List.contains_iff_mem.2 hseen), ih, if_pos hseen, if_pos hseen]
      · rw [if_neg (fun h => hseen (List.contains_iff_mem.1 h)), if_neg hseen, List.filter_cons,
          if_pos (beq_self_eq_true _), ih, if_pos (List.mem_cons_self ..)]
        rfl
    · have hne : (m.objectName == name) = false := beq_false_of_ne hname
      rw [hne]
      split
      · exact ih seen
      · rw [List.filter_cons, hne, if_neg Bool.false_ne_true, ih]
        simp [Ne.symm hname]

theorem eraseDups_filter_cons {known : List String} {x : String} (h : x ∉ known)
    (xs : List String) : ((x :: xs).filter (· ∉ known)).eraseDups =
      x :: (xs.filter (· ∉ x :: known)).eraseDups := by
  have hkept : ∀ y ∈ xs, (!(y == x) && decide (y ∉ known)) = decide (y ∉ x :: known) := by
    intro y _
    simp [beq_eq_decide]
  rw [List.filter_cons, if_pos (decide_eq_true h), List.eraseDups_cons, List.filter_filter,
    List.filter_congr hkept]

theorem map_objectName_distinct (seen : List String) (ms : List Middleware) :
    (distinct seen ms).map (·.objectName) =
      ((ms.map (·.objectName)).filter (· ∉ seen)).eraseDups := by
  induction ms generalizing seen with
  | nil => rfl
  | cons m ms ih =>
    rw [distinct, List.map_cons]
    by_cases hseen : m.objectName ∈ seen
    · rw [if_pos (List.contains_iff_mem.2 hseen), ih, List.filter_cons,
        if_neg (by simpa using hseen)]
    · rw [if_neg (fun h => hseen (List.contains_iff_mem.1 h)), eraseDups_filter_cons hseen,
        List.map_cons, ih]

theorem foldl_addNew (xs ys : List String) :
    ys.foldl addNew xs = xs ++ (ys.filter (· ∉ xs)).eraseDups := by
  induction ys generalizing xs with
  | nil => exact (List.append_nil xs).symm
  | cons y ys ih =>
    rw [List.foldl_cons, ih, addNew]
    by_cases hy : y ∈ xs
    · rw [if_pos (List.contains_iff_mem.2 hy), List.filter_cons, if_neg (by simpa using hy)]
    · have hknown : ∀ z ∈ ys, decide (z ∉ xs ++ [y]) = decide (z ∉ y :: xs) := by
        intro z _
        simp [or_comm]
      rw [if_neg (fun h => hy (List.contains_iff_mem.1 h)), eraseDups_filter_cons hy,
        List.filter_congr hknown, List.append_assoc, List.singleton_append]

theorem filter_inlineMiddlewares (r : IngressRoute) (name : String) :
    r.inlineMiddlewares.filter (·.objectName == name) =
      ((r.middlewares.filter (!·.isRef)).find? (·.objectName == name)).toList := by
  rw [inlineMiddlewares, filter_distinct, if_neg List.not_mem_nil]

theorem map_objectName_inlineMiddlewares (r : IngressRoute) :
    r.inlineMiddlewares.map (·.objectName) =
      ((r.middlewares.filter (!·.isRef)).map (·.objectName)).eraseDups := by
  have hall : ∀ n ∈ (r.middlewares.filter (!·.isRef)).map (·.objectName),
      decide (n ∉ ([] : List String)) = true := fun _ _ => rfl
  rw [inlineMiddlewares, map_objectName_distinct, List.filter_eq_self.2 hall]

theorem nodup_map_objectName_inlineMiddlewares (r : IngressRoute) :
    (r.inlineMiddlewares.map (·.objectName)).Nodup := by
  rw [List.nodup_iff_count_le_one]
  intro name
  rw [List.count_eq_length_filter, List.filter_map, List.length_map]
  change (r.inlineMiddlewares.filter (·.objectName == name)).length ≤ 1
  rw [filter_inlineMiddlewares]
  exact Option.length_toList_le

theorem exists_inlineMiddleware {r : IngressRoute} {m : Middleware} (hm : m ∈ r.middlewares)
    (hinline : m.isRef = false) : ∃ m' ∈ r.inlineMiddlewares, m'.objectName = m.objectName := by
  have hmem : m ∈ r.middlewares.filter (!·.isRef) := List.mem_filter.2 ⟨hm, by simp [hinline]⟩
  have hname : m.objectName ∈ r.inlineMiddlewares.map (·.objectName) := by
    rw [map_objectName_inlineMiddlewares, List.mem_eraseDups]
    exact List.mem_map_of_mem hmem
  exact List.mem_map.1 hname

theorem inlineMiddlewares_behind {r base : IngressRoute} (h : ∀ m ∈ base.middlewares, m.isRef) :
    (r.behind base).inlineMiddlewares = r.inlineMiddlewares := by
  unfold inlineMiddlewares behind
  split
  · rfl
  · next b bs hbase =>
    have hb : b.middlewares.filter (!·.isRef) = [] := by
      rw [List.filter_eq_nil_iff]
      intro m hm
      simp [h m (List.mem_flatMap.2 ⟨b, by simp [hbase], hm⟩)]
    simp only [middlewares, List.flatMap_map, List.filter_flatMap, List.filter_append, hb, List.nil_append]

theorem exists_objectName_ofService (app : AppName) {service : String}
    (spec : Option (List (String × Json))) (h : AppName.IsLabel service) :
    ∃ front : String, front.toList.length = app.value.toList.length ∧
      (Middleware.mk (app.value ++ "-" ++ service ++ "-middleware") spec).objectName =
        front ++ ("-" ++ service ++ "-middleware") := by
  have hlast : ("-" ++ service ++ "-middleware").toList.map Char.toLower =
      ("-" ++ service ++ "-middleware").toList := by
    simp [h.map_toLower]
  have hend : ("-" ++ service ++ "-middleware").toList.getLast? = some 'e' := by
    rw [String.toList_append, List.getLast?_append]
    rfl
  have hname : app.value ++ "-" ++ service ++ "-middleware" =
      app.value ++ ("-" ++ service ++ "-middleware") := by
    simp only [String.append_assoc]
  rw [hname]
  exact Middleware.exists_objectName_eq_append app.value spec hlast ⟨'e', hend, by decide⟩

theorem objectName_inj {app : AppName} {s t : String} {spec spec' : Option (List (String × Json))}
    (hs : AppName.IsLabel s) (ht : AppName.IsLabel t)
    (h : (Middleware.mk (app.value ++ "-" ++ s ++ "-middleware") spec).objectName =
      (Middleware.mk (app.value ++ "-" ++ t ++ "-middleware") spec').objectName) : s = t := by
  obtain ⟨front, hfront, hnames⟩ := exists_objectName_ofService app spec hs
  obtain ⟨front', hfront', hnamet⟩ := exists_objectName_ofService app spec' ht
  rw [hnames, hnamet] at h
  have hchars := congrArg String.toList h
  simp only [String.toList_append, List.append_assoc] at hchars
  have hlast := (List.append_inj hchars (hfront.trans hfront'.symm)).2
  exact String.toList_injective (List.append_cancel_right (List.append_cancel_left hlast))

end IngressRoute

end PreviewApps
