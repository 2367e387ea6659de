import Mathlib.Data.List.Induction
import PreviewApps.Proofs.Placement

/-!
Bases behind bases. A route behind two bases, one after the other, is to every request the route
behind the one base that they make together. Only a first base without routes is in the way: it
stays without routes behind the second, which then counts for nothing.
-/

namespace PreviewApps

structure Route.Alike (s t : Route) : Prop where
  holds : ∀ truth, s.rule.holds truth = t.rule.holds truth
  middlewares : s.middlewares = t.middlewares

structure IngressRoute.Alike (r s : IngressRoute) : Prop where
  routes : List.Forall₂ Route.Alike r.routes s.routes
  entryPoints : r.entryPoints = s.entryPoints
  certResolver : r.certResolver = s.certResolver

def Route.onto (outer inner : Route) : Route :=
  ⟨outer.rule.merge inner.rule, outer.middlewares ++ inner.middlewares⟩

theorem Route.Alike.refl (r : Route) : r.Alike r := ⟨fun _ => rfl, rfl⟩

theorem Route.onto_assoc (r s t : Route) : (r.onto (s.onto t)).Alike ((r.onto s).onto t) where
  holds truth := by
    change (_ && (_ && _)) = (_ && _ && _)
    rw [Bool.and_assoc]
  middlewares := (List.append_assoc ..).symm

theorem Route.holds_onto_onto (s t own : Route) (truth : String → List String → Bool) :
    (t.onto (s.onto own)).rule.holds truth ↔
      (t.onto s).rule.holds truth ∧ own.rule.holds truth := by
  rw [(t.onto_assoc s own).holds]
  exact Rule.holds_merge_iff truth

theorem Route.behind_onto (s t own : Route) : (t.onto s).Behind own (t.onto (s.onto own)) where
  holds := Route.holds_onto_onto s t own
  reread hbase hown := by
    obtain ⟨ht, hs⟩ := Rule.legible_merge.1 hbase
    have hlegible := Rule.legible_merge.2 ⟨ht, Rule.legible_merge.2 ⟨hs, hown⟩⟩
    exact ⟨_, hlegible.parse_render, Route.holds_onto_onto s t own⟩
  middlewares := (t.onto_assoc s own).middlewares

namespace IngressRoute

theorem Alike.refl (r : IngressRoute) : r.Alike r :=
  ⟨List.forall₂_same.2 fun s _ => .refl s, rfl, rfl⟩

theorem mem_foldl_addNew {x : String} {xs ys : List String} :
    x ∈ ys.foldl addNew xs ↔ x ∈ xs ∨ x ∈ ys := by
  rw [foldl_addNew, List.mem_append, List.mem_eraseDups, List.mem_filter, decide_eq_true_iff]
  tauto

theorem foldl_addNew_foldl_addNew (xs ys zs : List String) :
    (zs.foldl addNew ys).foldl addNew xs = zs.foldl addNew (ys.foldl addNew xs) := by
  induction zs using List.reverseRecOn with
  | nil => rfl
  | append_singleton zs z ih =>
    simp only [List.foldl_append, List.foldl_cons, List.foldl_nil]
    rw [← ih]
    by_cases hz : z ∈ zs.foldl addNew ys
    · -- what is there already is added neither here nor there
      have hlater : z ∈ (zs.foldl addNew ys).foldl addNew xs := mem_foldl_addNew.2 (.inr hz)
      rw [addNew, addNew, if_pos (List.contains_iff_mem.2 hz),
        if_pos (List.contains_iff_mem.2 hlater)]
    · have hnew : addNew (zs.foldl addNew ys) z = zs.foldl addNew ys ++ [z] :=
        if_neg fun h => hz (List.contains_iff_mem.1 h)
      rw [hnew, List.foldl_append]
      rfl

theorem resolverBehind_assoc (own inner outer : Option String) :
    resolverBehind (resolverBehind own inner) outer =
      resolverBehind own (resolverBehind inner outer) := by
  unfold resolverBehind
  split <;> rfl

section Bases

variable {b c : IngressRoute} {s t : Route} {ss ts : List Route}

theorem behind_eq (hb : b.routes = s :: ss) (r : IngressRoute) :
    r.behind b = ⟨r.routes.map s.onto, r.entryPoints.foldl addNew b.entryPoints,
      resolverBehind r.certResolver b.certResolver⟩ := by
  rw [behind, hb]
  rfl

theorem routes_behind_behind (hb : b.routes = s :: ss) (hc : c.routes = t :: ts)
    (r : IngressRoute) : ((r.behind b).behind c).routes = r.routes.map (t.onto ∘ s.onto) := by
  rw [behind_eq hc, behind_eq hb, List.map_map]

theorem alike_behind_behind (hb : b.routes = s :: ss) (hc : c.routes = t :: ts)
    (r : IngressRoute) : ((r.behind b).behind c).Alike (r.behind (b.behind c)) := by
  have hstack : (b.behind c).routes = t.onto s :: ss.map t.onto := by
    rw [behind_eq hc, hb, List.map_cons]
  refine ⟨?_, ?_, ?_⟩
  · rw [routes_behind_behind hb hc, behind_eq hstack, List.forall₂_map_left_iff,
      List.forall₂_map_right_iff, List.forall₂_same]
    exact fun own _ => t.onto_assoc s own
  · rw [behind_eq hstack, behind_eq hc, behind_eq hc, behind_eq hb]
    exact foldl_addNew_foldl_addNew c.entryPoints b.entryPoints r.entryPoints
  · rw [behind_eq hstack, behind_eq hc, behind_eq hc, behind_eq hb]
    exact resolverBehind_assoc r.certResolver b.certResolver c.certResolver

end Bases

/-- It makes no difference whether a route is placed behind two bases one after the other or behind
the second base with the first behind it, and each of its routes then stands behind the first routes
of both. -/
theorem stacked_bases_alike {b c : IngressRoute} (h : b.routes ≠ [] ∨ c.routes = [])
    (r : IngressRoute) :
    ((r.behind b).behind c).Alike (r.behind (b.behind c)) ∧
    ∀ s ∈ b.routes.head?, ∀ t ∈ c.routes.head?,
      List.Forall₂ (Route.Behind (t.onto s)) r.routes ((r.behind b).behind c).routes := by
  cases hc : c.routes with
  | nil =>
    have hnone : ∀ r : IngressRoute, r.behind c = r := fun r => by rw [behind, hc]
    rw [hnone, hnone]
    exact ⟨.refl _, fun _ _ t ht => by cases ht⟩
  | cons t ts =>
    obtain ⟨s, ss, hb⟩ := List.exists_cons_of_ne_nil (h.resolve_right (by simp [hc]))
    refine ⟨alike_behind_behind hb hc r, ?_⟩
    rw [hb]
    rintro _ ⟨⟩ _ ⟨⟩
    rw [routes_behind_behind hb hc, List.forall₂_map_right_iff, List.forall₂_same]
    exact fun own _ => s.behind_onto t own

/-- A base that repeats an entry point and has a resolver without a name. -/
def innerBase : IngressRoute where
  routes := [⟨.matcher "Host" ["a", "b"], [.ref "gzip"]⟩, ⟨.matcher "Path" ["/"], []⟩]
  entryPoints := ["metrics", "web", "metrics"]
  certResolver := some ""

theorem stacked_bases_alike_choiceRoute :
    (innerBase.routes ≠ [] ∨ sharedBase.routes = []) ∧
      ((choiceRoute.behind innerBase).behind sharedBase).Alike
        (choiceRoute.behind (innerBase.behind sharedBase)) ∧
      ∀ s ∈ innerBase.routes.head?, ∀ t ∈ sharedBase.routes.head?,
        List.Forall₂ (Route.Behind (t.onto s)) choiceRoute.routes
          ((choiceRoute.behind innerBase).behind sharedBase).routes := by
  have hinner : innerBase.routes ≠ [] ∨ sharedBase.routes = [] := .inl (List.cons_ne_nil _ _)
  exact ⟨hinner, stacked_bases_alike hinner choiceRoute⟩

example : (choiceRoute.behind innerBase).entryPoints = ["metrics", "web", "metrics", "websecure"] ∧
    ((choiceRoute.behind innerBase).behind sharedBase).entryPoints =
      ["websecure", "metrics", "web"] := by
  decide +kernel

/-- A first base without routes makes a difference. -/
example : ((choiceRoute.behind empty).behind sharedBase).entryPoints = ["websecure", "web"] ∧
    (choiceRoute.behind (empty.behind sharedBase)).entryPoints = ["web", "websecure", "web"] := by
  decide +kernel

end IngressRoute

end PreviewApps
