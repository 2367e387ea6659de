import Mathlib.Data.List.Forall2
import PreviewApps.Proofs.Manifest.References
import PreviewApps.Proofs.Traefik.Resource

/-!
Manifests that are read and written again. A resource comes back from its manifest as it is but for
the kinds of services: one that is `null` is left out, and what is left out is read as the usual
kind. So manifests settle at the second writing.
-/

namespace PreviewApps.Traefik

open Schema

def KindsGiven (resource : Json) : Prop :=
  ∀ rule ∈ resource.rules, ∀ s ∈ (rule.get "services").items, s.member? "kind" ≠ some .null

theorem forall_mem_iff_of_forall₂ {α β : Type} {r : α → β → Prop} {p : α → Prop} {q : β → Prop}
    {xs : List α} {ys : List β} (h : List.Forall₂ r xs ys) (hpq : ∀ x y, r x y → (p x ↔ q y)) :
    (∀ x ∈ xs, p x) ↔ ∀ y ∈ ys, q y := by
  induction h with
  | nil => simp
  | cons hxy _ ih => rw [List.forall_mem_cons, List.forall_mem_cons, hpq _ _ hxy, ih]

section Read

variable {j : Json}

theorem RuleService.kind_of_decode {s : RuleService} (h : decode j = .ok s) :
    j.member? "kind" ≠ some .null ↔ s.kind ≠ none := by
  obtain ⟨ms, rfl, hreads⟩ := reads_of_decode h
  have hkind := hreads.kind
  change ms.lookup "kind" ≠ some .null ↔ _
  cases hv : ms.lookup "kind" with
  | none =>
    rw [withDefault_of_absent (by simpa using hv)] at hkind
    rw [← Checked.ok.inj hkind]
    exact iff_of_true (fun h => by cases h) (fun h => by cases h)
  | some v =>
    rw [withDefault, find_of_lookup hv] at hkind
    have hread := (Checked.under_eq_ok_iff _).1 hkind
    rw [ne_eq, Option.some.injEq]
    by_cases hnull : v = .null
    · subst hnull
      rw [← Checked.ok.inj hread]
      exact iff_of_false (not_not.2 rfl) (not_not.2 rfl)
    · rw [optional_of_ne_null hnull] at hread
      obtain ⟨kind, -, hsome⟩ := Checked.map_eq_ok_iff.1 hread
      rw [← hsome]
      exact iff_of_true hnull (fun h => by cases h)

theorem RuleSpec.forall₂_services {r : RuleSpec} (h : decode j = .ok r) :
    List.Forall₂ (fun s t => RuleService.decode s = .ok t) (j.get "services").items r.services := by
  obtain ⟨ms, rfl, hreads⟩ := reads_of_decode h
  exact forall₂_items_of_default hreads.services

theorem kindsGiven_iff {r : IngressRouteResource} (h : IngressRouteResource.decode j = .ok r) :
    KindsGiven j ↔ r.settled = r := by
  have hrules := IngressRouteSpec.forall₂_routes (IngressRouteResource.decode_spec h)
  have hkinds : KindsGiven j ↔
      ∀ rule ∈ r.spec.routes.getD [], ∀ s ∈ rule.services, s.kind ≠ none :=
    forall_mem_iff_of_forall₂ hrules fun rule spec hspec =>
      forall_mem_iff_of_forall₂ (RuleSpec.forall₂_services hspec) fun s t ht =>
        RuleService.kind_of_decode ht
  rw [hkinds, IngressRouteResource.settled_eq_self_iff]
  cases r.spec.routes <;> simp

end Read

/-! What is settled is seen in the manifest, because the kind is written if there is one. -/

theorem RuleService.member?_kind_toJson (s : RuleService) :
    s.toJson.member? "kind" = s.kind.map .str := by
  rw [Json.member?, toJson, Json.lookup_record (by simp)]
  rfl

theorem RuleService.toJson_settled_iff {s : RuleService} :
    s.settled.toJson = s.toJson ↔ s.kind ≠ none := by
  constructor
  · intro h hnone
    -- the settled service is written with a kind, the other one is not
    have hkind := congrArg (·.member? "kind") h
    simp [member?_kind_toJson, settled, hnone] at hkind
  · intro h
    rw [settled_eq_self_iff.2 h]

theorem RuleSpec.kind_ne_none_of_toJson_settled {r : RuleSpec} (h : r.settled.toJson = r.toJson) :
    ∀ s ∈ r.services, s.kind ≠ none := by
  have hservices := congrArg (fun j => (j.get "services").items) h
  simp only [services_toJson, settled, List.map_map] at hservices
  exact fun s hs => RuleService.toJson_settled_iff.1 (List.map_inj_left.1 hservices s hs)

theorem IngressRouteResource.toJson_settled_iff {r : IngressRouteResource} :
    r.settled.toJson = r.toJson ↔ r.settled = r := by
  constructor
  · intro h
    have hrules := congrArg Json.rules h
    rw [rules_toJson, rules_toJson] at hrules
    rw [settled_eq_self_iff]
    intro rs hrs
    simp only [settled, IngressRouteSpec.settled, Option.mem_def.1 hrs, Option.map_some,
      Option.getD_some, List.map_map] at hrules
    exact fun rule hrule => RuleSpec.kind_ne_none_of_toJson_settled
      (List.map_inj_left.1 hrules rule hrule)
  · intro h
    rw [h]

theorem IngressRouteResource.settled_settled (r : IngressRouteResource) :
    r.settled.settled = r.settled := by
  rw [settled_eq_self_iff]
  intro rs hrs rule hrule s hs
  obtain ⟨rules, -, rfl⟩ := Option.map_eq_some_iff.1 hrs
  obtain ⟨rule, -, rfl⟩ := List.mem_map.1 hrule
  obtain ⟨s, -, rfl⟩ := List.mem_map.1 hs
  exact nofun

/-- What is read comes back from its manifest, and the manifest is the same the second time, exactly
where no kind of a service is `null`; from the second time on it always does. A middleware always
comes back. -/
theorem manifests_come_back_iff {j : Json} {r : IngressRouteResource}
    (h : IngressRouteResource.decode j = .ok r) (m : MiddlewareResource) :
    IngressRouteResource.decode r.toJson = .ok r.settled ∧
      (IngressRouteResource.decode r.toJson = .ok r ↔ KindsGiven j) ∧
      (r.settled.toJson = r.toJson ↔ KindsGiven j) ∧
      IngressRouteResource.decode r.settled.toJson = .ok r.settled ∧
      MiddlewareResource.decode m.toJson = .ok m := by
  have hread := IngressRouteResource.decode_toJson_settled r
  have hagain := IngressRouteResource.decode_toJson_settled r.settled
  rw [IngressRouteResource.settled_settled] at hagain
  refine ⟨hread, ?_, ?_, hagain, MiddlewareResource.decode_toJson m⟩
  · rw [hread, Checked.ok.injEq, kindsGiven_iff h]
  · rw [IngressRouteResource.toJson_settled_iff, kindsGiven_iff h]

/-- A route as it may be stored: unknown members, sections that are unset, and a service that may
have more members than a name and a port. -/
def servedRoute (members : List (String × Json)) : Json := .obj
  [("metadata", .obj [("name", .str "api"), ("resourceVersion", .str "42")]),
    ("spec", .obj [("entry_points", .arr [.str "websecure"]),
      ("routes", .arr [.obj [("match", .str "Path(`/`)"), ("priority", .int 1),
        ("services", .arr [.obj (members ++ [("name", .str "api"), ("port", .int 80)])]),
        ("middlewares", .null)]]),
      ("tls", .obj [])])]

def servedResource (kind : Option String) : IngressRouteResource where
  apiVersion := apiVersion
  kind := "IngressRoute"
  metadata := ⟨some "api", none, none, none⟩
  spec := ⟨some ["websecure"], some [⟨"Rule", "Path(`/`)", [⟨kind, "api", some 80⟩], none⟩],
    some ⟨none⟩⟩

def strippingMiddleware : MiddlewareResource where
  apiVersion := apiVersion
  kind := "Middleware"
  metadata := ⟨some "strip", some "master", none, none⟩
  spec := [("stripPrefix", .obj [("prefixes", .arr [.str "/x/"])]), ("chain", .null)]

theorem manifests_come_back_iff_of_servedRoute :
    IngressRouteResource.decode (servedRoute []) = .ok (servedResource (some "Service")) ∧
      KindsGiven (servedRoute []) ∧
      IngressRouteResource.decode (servedResource (some "Service")).toJson =
        .ok (servedResource (some "Service")) ∧
      MiddlewareResource.decode strippingMiddleware.toJson = .ok strippingMiddleware := by
  have hdecode : IngressRouteResource.decode (servedRoute []) =
      .ok (servedResource (some "Service")) := rfl
  have hkinds : KindsGiven (servedRoute []) := by
    intro rule hrule s hs
    cases List.mem_singleton.1 hrule
    cases List.mem_singleton.1 hs
    exact nofun
  obtain ⟨-, hback, -, -, hmiddleware⟩ := manifests_come_back_iff hdecode strippingMiddleware
  exact ⟨hdecode, hkinds, hback.2 hkinds, hmiddleware⟩

/-- A kind of `null` is left out of the manifest and read as the usual kind. -/
theorem servedRoute_changed_of_null :
    IngressRouteResource.decode (servedRoute [("kind", .null)]) = .ok (servedResource none) ∧
      IngressRouteResource.decode (servedResource none).toJson =
        .ok (servedResource (some "Service")) ∧
      servedResource (some "Service") ≠ servedResource none ∧
      (servedResource (some "Service")).toJson ≠ (servedResource none).toJson := by
  have hne : (servedResource none).settled ≠ servedResource none := by decide
  refine ⟨rfl, IngressRouteResource.decode_toJson_settled _, hne, ?_⟩
  exact fun h => hne (IngressRouteResource.toJson_settled_iff.1 h)

end PreviewApps.Traefik
