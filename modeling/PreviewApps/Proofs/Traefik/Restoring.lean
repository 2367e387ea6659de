import PreviewApps.Proofs.Traefik.Declared

/-!
Conversion is all or nothing. Whatever a stored resource looks like, either all of it comes back as
a route or one error tells what is in the way: the first of its rules that cannot be read, if it has
the declared shape and a rule at all.
-/

namespace PreviewApps.Traefik

def Readable (rule : Json) : Prop := ∃ e, Rule.parse (matchText rule) = .ok e

structure Convertible (resource : Json) : Prop where
  declared : IngressRouteResource.Declared resource
  some_rule : resource.rules ≠ []
  readable : ∀ rule ∈ resource.rules, Readable rule

/-- The route that a stored rule stands for: what its text says, with a reference for each
middleware. -/
structure Restores (rule : Json) (route : Route) : Prop where
  parses : Rule.parse (matchText rule) = .ok route.rule
  middlewares : route.middlewares = (middlewareNames rule).map .ref

structure Restored (resource : Json) (b : IngressRoute) : Prop where
  routes : List.Forall₂ Restores resource.rules b.routes
  entryPoints : b.entryPoints = entryPointsOf resource
  certResolver : b.certResolver = resolverOf? resource

def ConversionError.Explains (resource : Json) : ConversionError → Prop
  | malformed _ => ¬IngressRouteResource.Declared resource
  | noRoutes name => IngressRouteResource.Declared resource ∧ name = resourceName? resource ∧
      resource.rules = []
  | invalidRule name text cause =>
    IngressRouteResource.Declared resource ∧ name = resourceName? resource ∧
      ∃ before rule after, resource.rules = before ++ rule :: after ∧
        (∀ r ∈ before, Readable r) ∧ matchText rule = text ∧ Rule.parse text = .error cause

def restoreRule (name : Option String) (rule : Json) : Except ConversionError Route :=
  match Rule.parse (matchText rule) with
  | .ok e => .ok ⟨e, (middlewareNames rule).map .ref⟩
  | .error cause => .error (.invalidRule name (matchText rule) cause)

theorem restoreRule_eq_ok_iff (name : Option String) {rule : Json} {route : Route} :
    restoreRule name rule = .ok route ↔ Restores rule route := by
  unfold restoreRule
  constructor
  · intro h
    split at h
    · next e he =>
      cases h
      exact ⟨he, rfl⟩
    · cases h
  · rintro ⟨hparses, hmiddlewares⟩
    rw [hparses, ← hmiddlewares]

theorem exists_restoreRule_iff (name : Option String) {rule : Json} :
    (∃ route, restoreRule name rule = .ok route) ↔ Readable rule := by
  simp only [restoreRule_eq_ok_iff]
  exact ⟨fun ⟨route, h⟩ => ⟨route.rule, h.parses⟩, fun ⟨e, he⟩ => ⟨⟨e, _⟩, he, rfl⟩⟩

theorem restoreRule_eq_error {name : Option String} {rule : Json} {e : ConversionError}
    (h : restoreRule name rule = .error e) :
    ∃ cause, Rule.parse (matchText rule) = .error cause ∧
      e = .invalidRule name (matchText rule) cause := by
  unfold restoreRule at h
  split at h
  · cases h
  · next cause hcause =>
    cases h
    exact ⟨cause, hcause, rfl⟩

theorem restoreRule_of_decode (name : Option String) {rule : Json} {spec : RuleSpec}
    (h : RuleSpec.decode rule = .ok spec) : restoreRule name rule = convertRule name spec := by
  have htext := matchText_of_decode h
  have hnames := middlewareNames_of_decode h
  cases hparse : Rule.parse spec.matchText <;>
    simp only [restoreRule, convertRule, htext, hnames, hparse]

section Decoded

variable {j : Json} {r : IngressRouteResource} (h : IngressRouteResource.decode j = .ok r)

include h

theorem mapM_restoreRule_of_decode (name : Option String) :
    j.rules.mapM (restoreRule name) = (r.spec.routes.getD []).mapM (convertRule name) :=
  mapM_congr_of_forall₂ ((forall₂_rules_of_decode h).imp fun _ _ => restoreRule_of_decode name)

theorem convertJson_of_rules_eq_nil (hrules : j.rules = []) :
    convertJson j = .error (.noRoutes (resourceName? j)) := by
  have hread := forall₂_rules_of_decode h
  rw [hrules, List.forall₂_nil_left_iff] at hread
  rw [convertJson, h, resourceName?_of_decode h]
  simp only [convert, hread]

theorem convertJson_of_rules_ne_nil (hrules : j.rules ≠ []) : convertJson j =
    (j.rules.mapM (restoreRule (resourceName? j))).map
      fun routes => ⟨routes, entryPointsOf j, resolverOf? j⟩ := by
  have hread := forall₂_rules_of_decode h
  have hne : r.spec.routes.getD [] ≠ [] := by
    intro hnil
    rw [hnil, List.forall₂_nil_right_iff] at hread
    exact hrules hread
  rw [convertJson, h, mapM_restoreRule_of_decode h, entryPointsOf_of_decode h,
    resolverOf?_of_decode h, resourceName?_of_decode h]
  dsimp only
  unfold convert
  -- the rules of the resource are as many as those that are stored, so there is one
  split
  · next hnil => exact absurd hnil hne
  · cases (r.spec.routes.getD []).mapM (convertRule r.metadata.name) <;> rfl

theorem declared_of_decode : IngressRouteResource.Declared j :=
  (IngressRouteResource.takes_decode j).1 ⟨r, h⟩

end Decoded

theorem not_declared_of_decode {j : Json} {fs : List Schema.Failure}
    (h : IngressRouteResource.decode j = .failed fs) : ¬IngressRouteResource.Declared j := by
  intro hdeclared
  obtain ⟨r, hr⟩ := (IngressRouteResource.takes_decode j).2 hdeclared
  rw [h] at hr
  cases hr

theorem convertJson_eq_ok_iff {j : Json} {b : IngressRoute} :
    convertJson j = .ok b ↔ Convertible j ∧ Restored j b := by
  cases h : IngressRouteResource.decode j with
  | failed fs =>
    rw [convertJson, h]
    exact iff_of_false nofun fun hb => not_declared_of_decode h hb.1.declared
  | ok r =>
    by_cases hrules : j.rules = []
    · rw [convertJson_of_rules_eq_nil h hrules]
      exact iff_of_false nofun fun hb => hb.1.some_rule hrules
    · rw [convertJson_of_rules_ne_nil h hrules, exceptMap_eq_ok_iff]
      constructor
      · rintro ⟨routes, hroutes, rfl⟩
        have hreadable := exists_mapM_eq_ok_iff.1 ⟨routes, hroutes⟩
        rw [mapM_eq_ok_iff] at hroutes
        simp only [restoreRule_eq_ok_iff] at hroutes
        simp only [exists_restoreRule_iff] at hreadable
        exact ⟨⟨declared_of_decode h, hrules, hreadable⟩, hroutes, rfl, rfl⟩
      · rintro ⟨-, hroutes, hentryPoints, hresolver⟩
        have hrestored := hroutes.imp fun _ _ => (restoreRule_eq_ok_iff (resourceName? j)).2
        refine ⟨b.routes, mapM_eq_ok_iff.2 hrestored, ?_⟩
        rw [← hentryPoints, ← hresolver]

theorem exists_convertJson_iff {j : Json} : (∃ b, convertJson j = .ok b) ↔ Convertible j := by
  constructor
  · rintro ⟨b, hb⟩
    exact (convertJson_eq_ok_iff.1 hb).1
  · rintro ⟨hdeclared, hrules, hreadable⟩
    obtain ⟨r, hr⟩ := (IngressRouteResource.takes_decode j).2 hdeclared
    obtain ⟨routes, hroutes⟩ := exists_mapM_eq_ok_iff.2 fun rule hrule =>
      (exists_restoreRule_iff (resourceName? j)).2 (hreadable rule hrule)
    rw [convertJson_of_rules_ne_nil hr hrules, hroutes]
    exact ⟨_, rfl⟩

theorem explains_of_convertJson {j : Json} {e : ConversionError} (h : convertJson j = .error e) :
    e.Explains j := by
  cases hr : IngressRouteResource.decode j with
  | failed fs =>
    rw [convertJson, hr] at h
    cases h
    exact not_declared_of_decode hr
  | ok r =>
    have hdeclared := declared_of_decode hr
    by_cases hrules : j.rules = []
    · rw [convertJson_of_rules_eq_nil hr hrules] at h
      cases h
      exact ⟨hdeclared, rfl, hrules⟩
    · rw [convertJson_of_rules_ne_nil hr hrules] at h
      cases hroutes : j.rules.mapM (restoreRule (resourceName? j)) with
      | ok routes =>
        rw [hroutes] at h
        cases h
      | error c =>
        rw [hroutes] at h
        cases h
        obtain ⟨before, rule, after, hsplit, hbefore, hrule⟩ := exists_of_mapM_eq_error hroutes
        obtain ⟨cause, hcause, rfl⟩ := restoreRule_eq_error hrule
        simp only [exists_restoreRule_iff] at hbefore
        exact ⟨hdeclared, rfl, before, rule, after, hsplit, hbefore, rfl, hcause⟩

/-- A stored resource is converted exactly if it has the declared shape, a rule at all and texts of
rules throughout, and then into what all of its parts say. Otherwise the error says what is in the
way. -/
theorem convertJson_all_or_nothing (resource : Json) :
    ((∃ b, convertJson resource = .ok b) ↔ Convertible resource) ∧
    (∀ b, convertJson resource = .ok b ↔ Convertible resource ∧ Restored resource b) ∧
    ((∃ e, convertJson resource = .error e ∧ e.Explains resource) ↔ ¬Convertible resource) := by
  refine ⟨exists_convertJson_iff, fun b => convertJson_eq_ok_iff, ?_⟩
  rw [← exists_convertJson_iff]
  constructor
  · rintro ⟨e, he, -⟩ ⟨b, hb⟩
    rw [he] at hb
    cases hb
  · intro hnone
    cases h : convertJson resource with
    | ok b => exact absurd ⟨b, h⟩ hnone
    | error e => exact ⟨e, rfl, explains_of_convertJson h⟩

end PreviewApps.Traefik
