import PreviewApps.Proofs.Json.Shape
import PreviewApps.Proofs.Traefik.Middlewares

/-!
What an ingress route is declared to look like, as a shape of JSON values, and where its parts are
found. Exactly the values of the shape are read as resources.
-/

namespace PreviewApps.Traefik

open Json Schema Checked

structure ObjectMeta.Declared (j : Json) : Prop where
  object : j.IsObject
  name : j.Admits ["name"] (OrNull IsText)
  namespaceId : j.Admits ["namespace"] (OrNull IsText)
  labels : j.Admits ["labels"] (OrNull (IsMapOf IsText))
  annotations : j.Admits ["annotations"] (OrNull (IsMapOf IsText))

structure RuleService.Declared (j : Json) : Prop where
  object : j.IsObject
  kind : j.Admits ["kind"] (OrNull IsText)
  name : j.Holds ["name"] IsText
  port : j.Admits ["port"] (OrNull IsWhole)

/-- Of a middleware only the name counts. -/
structure RuleSpec.DeclaredMiddleware (j : Json) : Prop where
  object : j.IsObject
  name : j.Holds ["name"] IsText

/-- The kind and the services may be missing, but they may not be `null`. -/
structure RuleSpec.Declared (j : Json) : Prop where
  object : j.IsObject
  kind : j.Admits ["kind"] IsText
  matchText : j.Holds ["match"] IsText
  services : j.Admits ["services"] (IsListOf RuleService.Declared)
  middlewares : j.Admits ["middlewares"] (OrNull (IsListOf RuleSpec.DeclaredMiddleware))

structure Tls.Declared (j : Json) : Prop where
  object : j.IsObject
  certResolver : j.Admits ["certResolver", "cert_resolver"] (OrNull IsText)

structure IngressRouteSpec.Declared (j : Json) : Prop where
  object : j.IsObject
  entryPoints : j.Admits ["entryPoints", "entry_points"] (OrNull (IsListOf IsText))
  routes : j.Admits ["routes"] (OrNull (IsListOf RuleSpec.Declared))
  tls : j.Admits ["tls"] (OrNull Tls.Declared)

structure IngressRouteResource.Declared (j : Json) : Prop where
  object : j.IsObject
  apiVersion : j.Admits ["apiVersion", "api_version"] IsText
  kind : j.Admits ["kind"] IsText
  metadata : j.Holds ["metadata"] ObjectMeta.Declared
  spec : j.Holds ["spec"] IngressRouteSpec.Declared

theorem ObjectMeta.takes_decode : Takes decode Declared := by
  apply Takes.object (fun _ h => h.object)
  intro ms
  simp only [passes_seq_iff, passes_map_iff, passes_withDefault_iff takes_string.optional,
    passes_withDefault_iff takes_string.map.optional]
  exact ⟨fun ⟨⟨⟨hname, hns⟩, hlabels⟩, has⟩ => ⟨⟨ms, rfl⟩, hname, hns, hlabels, has⟩,
    fun h => ⟨⟨⟨h.name, h.namespaceId⟩, h.labels⟩, h.annotations⟩⟩

theorem RuleService.takes_decode : Takes decode Declared := by
  apply Takes.object (fun _ h => h.object)
  intro ms
  simp only [passes_seq_iff, passes_map_iff, passes_withDefault_iff takes_string.optional,
    passes_required_iff takes_string, passes_withDefault_iff takes_integer.optional]
  exact ⟨fun ⟨⟨hkind, hname⟩, hport⟩ => ⟨⟨ms, rfl⟩, hkind, hname, hport⟩,
    fun h => ⟨⟨h.kind, h.name⟩, h.port⟩⟩

namespace RuleSpec

theorem takes_decodeMiddleware : Takes decodeMiddleware DeclaredMiddleware := by
  apply Takes.object (fun _ h => h.object)
  intro ms
  rw [passes_required_iff takes_string]
  exact ⟨fun hname => ⟨⟨ms, rfl⟩, hname⟩, fun h => h.name⟩

theorem takes_decode : Takes decode Declared := by
  apply Takes.object (fun _ h => h.object)
  intro ms
  simp only [passes_seq_iff, passes_map_iff, passes_withDefault_iff takes_string,
    passes_required_iff takes_string, passes_withDefault_iff RuleService.takes_decode.list,
    passes_withDefault_iff takes_decodeMiddleware.list.optional]
  exact ⟨fun ⟨⟨⟨hkind, htext⟩, hservices⟩, hms⟩ => ⟨⟨ms, rfl⟩, hkind, htext, hservices, hms⟩,
    fun h => ⟨⟨⟨h.kind, h.matchText⟩, h.services⟩, h.middlewares⟩⟩

end RuleSpec

theorem Tls.takes_decode : Takes decode Declared := by
  apply Takes.object (fun _ h => h.object)
  intro ms
  rw [passes_map_iff, passes_withDefault_iff takes_string.optional]
  exact ⟨fun hresolver => ⟨⟨ms, rfl⟩, hresolver⟩, fun h => h.certResolver⟩

theorem IngressRouteSpec.takes_decode : Takes decode Declared := by
  apply Takes.object (fun _ h => h.object)
  intro ms
  simp only [passes_seq_iff, passes_map_iff, passes_withDefault_iff takes_string.list.optional,
    passes_withDefault_iff RuleSpec.takes_decode.list.optional,
    passes_withDefault_iff Tls.takes_decode.optional]
  exact ⟨fun ⟨⟨hentryPoints, hroutes⟩, htls⟩ => ⟨⟨ms, rfl⟩, hentryPoints, hroutes, htls⟩,
    fun h => ⟨⟨h.entryPoints, h.routes⟩, h.tls⟩⟩

theorem IngressRouteResource.takes_decode : Takes decode Declared := by
  apply Takes.object (fun _ h => h.object)
  intro ms
  simp only [decodeApiVersion, passes_seq_iff, passes_map_iff, passes_withDefault_iff takes_string,
    passes_required_iff ObjectMeta.takes_decode, passes_required_iff IngressRouteSpec.takes_decode]
  exact ⟨fun ⟨⟨⟨hversion, hkind⟩, hmetadata⟩, hspec⟩ =>
      ⟨⟨ms, rfl⟩, hversion, hkind, hmetadata, hspec⟩,
    fun h => ⟨⟨⟨h.apiVersion, h.kind⟩, h.metadata⟩, h.spec⟩⟩

def matchText (rule : Json) : String := ((rule.get "match").str?).getD ""

def entryPointsOf (resource : Json) : List String :=
  ((resource.get "spec").named ["entryPoints", "entry_points"]).items.filterMap (·.str?)

def tlsSection (resource : Json) : Json := resource.path ["spec", "tls"]

def resolverOf? (resource : Json) : Option String :=
  ((tlsSection resource).named ["certResolver", "cert_resolver"]).str?

def resourceName? (resource : Json) : Option String := (resource.path ["metadata", "name"]).str?

section Read

variable {j : Json}

theorem matchText_of_decode {r : RuleSpec} (h : RuleSpec.decode j = .ok r) :
    matchText j = r.matchText := by
  obtain ⟨ms, rfl, hreads⟩ := RuleSpec.reads_of_decode h
  rw [matchText, string_eq_ok_iff.1 (decode_get_of_required hreads.matchText)]
  rfl

theorem middlewareNames_of_decode {r : RuleSpec} (h : RuleSpec.decode j = .ok r) :
    middlewareNames j = r.middlewares.getD [] := by
  rw [← map_snd_referents_of_decode h "", referents, List.map_map]
  rfl

theorem ObjectMeta.name_of_decode {m : ObjectMeta} (h : decode j = .ok m) :
    (j.get "name").str? = m.name := by
  obtain ⟨ms, rfl, hms⟩ := object_eq_ok_iff.1 h
  obtain ⟨_, hmk₁, _, -, rfl⟩ := seq_eq_ok_iff.1 hms
  obtain ⟨_, hmk₂, _, -, rfl⟩ := seq_eq_ok_iff.1 hmk₁
  obtain ⟨_, hmk₃, _, -, rfl⟩ := seq_eq_ok_iff.1 hmk₂
  obtain ⟨name, hname, rfl⟩ := map_eq_ok_iff.1 hmk₃
  rw [← named_singleton]
  exact str?_of_optional (optional_named_of_withDefault hname)

theorem Tls.resolver_of_optional {t : Option Tls} (h : Schema.optional decode j = .ok t) :
    (j.named ["certResolver", "cert_resolver"]).str? = t.bind (·.certResolver) := by
  by_cases hj : j = .null
  · subst hj
    cases h
    rfl
  · rw [optional_of_ne_null hj] at h
    obtain ⟨t, ht, rfl⟩ := map_eq_ok_iff.1 h
    obtain ⟨ms, rfl, hms⟩ := object_eq_ok_iff.1 ht
    obtain ⟨resolver, hresolver, rfl⟩ := map_eq_ok_iff.1 hms
    exact str?_of_optional (optional_named_of_withDefault hresolver)

variable {r : IngressRouteResource} (h : IngressRouteResource.decode j = .ok r)

include h

theorem forall₂_rules_of_decode :
    List.Forall₂ (fun rule spec => RuleSpec.decode rule = .ok spec) j.rules
      (r.spec.routes.getD []) :=
  IngressRouteSpec.forall₂_routes (IngressRouteResource.decode_spec h)

theorem entryPointsOf_of_decode : entryPointsOf j = r.spec.entryPoints.getD [] := by
  obtain ⟨ms, hspec, hreads⟩ := IngressRouteSpec.reads_of_decode
    (IngressRouteResource.decode_spec h)
  rw [entryPointsOf, hspec]
  exact texts_of_optional (optional_named_of_withDefault hreads.entryPoints)

theorem resolverOf?_of_decode : resolverOf? j = r.spec.tls.bind (·.certResolver) := by
  obtain ⟨ms, hspec, hreads⟩ := IngressRouteSpec.reads_of_decode
    (IngressRouteResource.decode_spec h)
  have htls : Schema.optional Tls.decode ((j.get "spec").get "tls") = .ok r.spec.tls := by
    rw [hspec, ← named_singleton]
    exact optional_named_of_withDefault hreads.tls
  exact Tls.resolver_of_optional htls

theorem resourceName?_of_decode : resourceName? j = r.metadata.name := by
  obtain ⟨ms, rfl, hreads⟩ := IngressRouteResource.reads_of_decode h
  exact ObjectMeta.name_of_decode (decode_get_of_required hreads.metadata)

end Read

end PreviewApps.Traefik
