import PreviewApps.Proofs.DefaultRoutes
import PreviewApps.Proofs.Rule.RoundTrip

/-!
A route behind a base route. A request matches behind the base exactly if it matches both, also
after the rule went through its text; what the base has comes first.
-/

namespace PreviewApps

structure Route.Behind (b own placed : Route) : Prop where
  holds : ∀ truth, placed.rule.holds truth ↔ b.rule.holds truth ∧ own.rule.holds truth
  reread : b.rule.Legible → own.rule.Legible → ∃ e, Rule.parse placed.rule.render = .ok e ∧
    ∀ truth, e.holds truth ↔ b.rule.holds truth ∧ own.rule.holds truth
  middlewares : placed.middlewares = b.middlewares ++ own.middlewares

theorem Rule.holds_merge_iff {a b : Rule} (truth : String → List String → Bool) :
    (a.merge b).holds truth ↔ a.holds truth ∧ b.holds truth := by
  rw [Rule.holds_merge, Bool.and_eq_true]

theorem Route.behind_merge (b own : Route) :
    Route.Behind b own ⟨b.rule.merge own.rule, b.middlewares ++ own.middlewares⟩ where
  holds := Rule.holds_merge_iff
  reread hb hown :=
    ⟨_, (Rule.legible_merge.2 ⟨hb, hown⟩).parse_render, Rule.holds_merge_iff⟩
  middlewares := rfl

namespace IngressRoute

theorem certResolver_behind {base : IngressRoute} {b : Route} {bs : List Route}
    (h : base.routes = b :: bs) (r : IngressRoute) :
    (r.behind base).certResolver = resolverBehind r.certResolver base.certResolver := by
  rw [behind, h]

theorem entryPoints_behind {base : IngressRoute} {b : Route} {bs : List Route}
    (h : base.routes = b :: bs) (r : IngressRoute) : (r.behind base).entryPoints =
      base.entryPoints ++ (r.entryPoints.filter (· ∉ base.entryPoints)).eraseDups := by
  rw [behind, h]
  exact foldl_addNew base.entryPoints r.entryPoints

theorem resolverBehind_cases (own base : Option String) :
    (∀ n, n ≠ "" → own = some n → resolverBehind own base = some n) ∧
      ((∀ n, n ≠ "" → own ≠ some n) → resolverBehind own base = base) := by
  refine ⟨?_, ?_⟩
  · rintro n hn rfl
    exact if_neg hn
  · intro hnone
    cases own with
    | none => exact if_pos rfl
    | some n => exact if_pos (not_not.1 fun hn => hnone n hn rfl)

/-- Each route of its own is placed behind the first route of the base, in their order. The entry
points of the base come first and the resolver of the base is used only where there is no other;
a base without routes changes nothing. -/
theorem placed_behind (r base : IngressRoute) :
    (base.routes = [] → r.behind base = r) ∧
    ∀ b bs, base.routes = b :: bs →
      List.Forall₂ (Route.Behind b) r.routes (r.behind base).routes ∧
      (r.behind base).entryPoints =
        base.entryPoints ++ (r.entryPoints.filter (· ∉ base.entryPoints)).eraseDups ∧
      (∀ n, n ≠ "" → r.certResolver = some n → (r.behind base).certResolver = some n) ∧
      ((∀ n, n ≠ "" → r.certResolver ≠ some n) →
        (r.behind base).certResolver = base.certResolver) := by
  constructor
  · intro hbase
    rw [behind, hbase]
  · intro b bs hbase
    refine ⟨?_, entryPoints_behind hbase r, ?_⟩
    · rw [routes_behind hbase, List.forall₂_map_right_iff, List.forall₂_same]
      exact fun own _ => b.behind_merge own
    · rw [certResolver_behind hbase]
      exact resolverBehind_cases r.certResolver base.certResolver

/-- Routes whose rules need parentheses behind a base, with an entry point of that base. -/
def choiceRoute : IngressRoute where
  routes :=
    [⟨.or (.matcher "Path" ["/x"]) (.matcher "Path" ["/y"]), [.ref "own"]⟩,
      ⟨.not (.and (.matcher "Path" ["/z"]) (.matcher "Method" ["PUT"])), []⟩]
  entryPoints := ["web", "websecure", "web"]
  certResolver := some ""

theorem choiceRoute_placed_behind_sharedBase :
    (empty.routes = [] ∧ choiceRoute.behind empty = choiceRoute) ∧
    ∃ b, sharedBase.routes = [b] ∧ b.rule.Legible ∧
      (∀ own ∈ choiceRoute.routes, own.rule.Legible) ∧
      List.Forall₂ (Route.Behind b) choiceRoute.routes (choiceRoute.behind sharedBase).routes ∧
      (choiceRoute.behind sharedBase).entryPoints = ["websecure", "web"] ∧
      (∀ n, n ≠ "" → choiceRoute.certResolver ≠ some n) ∧
      (choiceRoute.behind sharedBase).certResolver = sharedBase.certResolver := by
  have hb : ∀ b ∈ sharedBase.routes, b.rule.Legible := by
    unfold Rule.Legible
    decide +kernel
  have hown : ∀ own ∈ choiceRoute.routes, own.rule.Legible := by
    unfold Rule.Legible
    decide +kernel
  have hresolver : ∀ n, n ≠ "" → choiceRoute.certResolver ≠ some n :=
    fun n hn h => hn (Option.some.inj h).symm
  obtain ⟨hroutes, hentryPoints, -, hbase⟩ := (placed_behind choiceRoute sharedBase).2 _ _ rfl
  refine ⟨⟨rfl, (placed_behind choiceRoute empty).1 rfl⟩, _, rfl, hb _ (List.mem_singleton_self _),
    hown, hroutes, hentryPoints.trans ?_, hresolver, hbase hresolver⟩
  decide +kernel

example : (choiceRoute.behind sharedBase).routes.map (·.rule.render) =
    ["(PathPrefix(`/master/db2/`) || Host(`preview.example.com`)) && (Path(`/x`) || Path(`/y`))",
      "(PathPrefix(`/master/db2/`) || Host(`preview.example.com`)) && " ++
        "!(Path(`/z`) && Method(`PUT`))"] := by
  decide +kernel

end IngressRoute

end PreviewApps
