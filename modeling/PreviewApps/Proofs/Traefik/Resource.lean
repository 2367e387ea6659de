import PreviewApps.Proofs.Json.Members
import PreviewApps.Proofs.Json.Schema
import PreviewApps.Traefik.Resource

/-!
Ingress routes as they are written and read back. What is unset is left out and comes back as unset;
only the kind of a service must be there, because reading fills it in. Whatever object is read, the
rules and their middlewares are its own.
-/

namespace PreviewApps.Traefik

open Schema

section Records

variable {α β : Type} {d : Decoder α} {write : α → Json} {fields : List (String × Option Json)}
  (n : String) (names : List String)

theorem withDefault_record_map (hnodup : (fields.map (·.1)).Nodup) {write : β → Json} {g : β → α}
    {v : Option β} (hv : fields.lookup n = some (v.map write))
    (hnames : ∀ m ∈ names, fields.lookup m = none)
    (hwrite : ∀ b ∈ v, write b ≠ .null ∧ d (write b) = .ok (g b)) :
    withDefault (n :: names) none (optional d) (Json.record fields).members = .ok (v.map g) := by
  apply withDefault_optional_map write _ _ hwrite
  · rw [Json.lookup_record hnodup, hv, Option.join_some]
  · intro m hm
    rw [Json.lookup_record hnodup, hnames m hm, Option.join_none]

theorem withDefault_record (hnodup : (fields.map (·.1)).Nodup) {v : Option α}
    (hv : fields.lookup n = some (v.map write)) (hnames : ∀ m ∈ names, fields.lookup m = none)
    (hwrite : ∀ a ∈ v, write a ≠ .null ∧ d (write a) = .ok a) :
    withDefault (n :: names) none (optional d) (Json.record fields).members = .ok v := by
  rw [withDefault_record_map n names hnodup hv hnames hwrite, Option.map_id']

theorem required_record (hnodup : (fields.map (·.1)).Nodup) {v : Json} {a : α}
    (hv : fields.lookup n = some (some v)) (ha : d v = .ok a) :
    required (n :: names) d (Json.record fields).members = .ok a := by
  apply required_of_lookup _ ha
  rw [Json.lookup_record hnodup, hv, Option.join_some]

theorem withDefault_record_some (hnodup : (fields.map (·.1)).Nodup) {v : Json} {a : α}
    (hv : fields.lookup n = some (some v)) (ha : d v = .ok a) (default : α) :
    withDefault (n :: names) default d (Json.record fields).members = .ok a := by
  apply withDefault_of_lookup _ ha
  rw [Json.lookup_record hnodup, hv, Option.join_some]

end Records

theorem string_str (s : String) : Json.str s ≠ .null ∧ string (.str s) = .ok s := by
  simp [string]

theorem map_string_ofMap (m : List (String × String)) :
    Json.ofMap m ≠ .null ∧ map string (.ofMap m) = .ok m :=
  ⟨by simp [Json.ofMap], map_ofMap m⟩

theorem record_ne_null (fields : List (String × Option Json)) : Json.record fields ≠ .null := by
  simp [Json.record]

namespace ObjectMeta

def fields (m : ObjectMeta) : List (String × Option Json) :=
  [("name", m.name.map .str), ("namespace", m.namespaceId.map .str),
    ("labels", m.labels.map .ofMap), ("annotations", m.annotations.map .ofMap)]

theorem decode_toJson (m : ObjectMeta) : decode m.toJson = .ok m := by
  have hnodup : (m.fields.map (·.1)).Nodup := by simp [fields]
  have hname := withDefault_record "name" [] hnodup (v := m.name) rfl
    (List.forall_mem_nil _) fun s _ => string_str s
  have hns := withDefault_record "namespace" [] hnodup (v := m.namespaceId) rfl
    (List.forall_mem_nil _) fun s _ => string_str s
  have hlabels := withDefault_record "labels" [] hnodup (v := m.labels) rfl
    (List.forall_mem_nil _) fun ls _ => map_string_ofMap ls
  have hannotations := withDefault_record "annotations" [] hnodup (v := m.annotations) rfl
    (List.forall_mem_nil _) fun as _ => map_string_ofMap as
  change mk <$> withDefault ["name"] none (optional string) (Json.record m.fields).members
    <*> withDefault ["namespace"] none (optional string) (Json.record m.fields).members
    <*> withDefault ["labels"] none (optional (map string)) (Json.record m.fields).members
    <*> withDefault ["annotations"] none (optional (map string)) (Json.record m.fields).members = _
  rw [hname, hns, hlabels, hannotations]
  rfl

end ObjectMeta

namespace RuleService

def fields (s : RuleService) : List (String × Option Json) :=
  [("kind", s.kind.map .str), ("name", some (.str s.name)), ("port", s.port.map .int)]

/-- The service as it comes back: a kind that is left out is read as the usual one. -/
def settled (s : RuleService) : RuleService := { s with kind := some (s.kind.getD "Service") }

theorem settled_eq_self_iff {s : RuleService} : s.settled = s ↔ s.kind ≠ none := by
  obtain ⟨kind, name, port⟩ := s
  cases kind <;> simp [settled]

theorem decode_toJson (s : RuleService) : decode s.toJson = .ok s.settled := by
  have hnodup : (s.fields.map (·.1)).Nodup := by simp [fields]
  have hkind : withDefault ["kind"] (some "Service") (optional string)
      (Json.record s.fields).members = .ok (some (s.kind.getD "Service")) := by
    cases hk : s.kind with
    | none =>
      have hfield : s.fields.lookup "kind" = some none := by simp [fields, hk]
      apply withDefault_of_absent
      simp [Json.lookup_record hnodup, hfield]
    | some kind =>
      have hfield : s.fields.lookup "kind" = some (some (.str kind)) := by simp [fields, hk]
      have hread : optional string (.str kind) = .ok (some kind) := rfl
      exact withDefault_record_some "kind" [] hnodup hfield hread (some "Service")
  have hname := required_record "name" [] hnodup (v := .str s.name) rfl
    (string_str s.name).2
  have hport := withDefault_record "port" [] hnodup (v := s.port) (d := integer) rfl
    (List.forall_mem_nil _) fun n _ => ⟨by simp, rfl⟩
  change mk <$> withDefault ["kind"] (some "Service") (optional string)
      (Json.record s.fields).members
    <*> required ["name"] string (Json.record s.fields).members
    <*> withDefault ["port"] none (optional integer) (Json.record s.fields).members = _
  rw [hkind, hname, hport]
  rfl

end RuleService

namespace RuleSpec

def middlewareJson (name : String) : Json := .obj [("name", .str name)]

def fields (r : RuleSpec) : List (String × Option Json) :=
  [("kind", some (.str r.kind)), ("match", some (.str r.matchText)),
    ("services", some (.arr (r.services.map (·.toJson)))),
    ("middlewares", r.middlewares.map fun ms => .arr (ms.map middlewareJson))]

theorem decodeMiddleware_middlewareJson (name : String) :
    decodeMiddleware (middlewareJson name) = .ok name := rfl

def settled (r : RuleSpec) : RuleSpec := { r with services := r.services.map (·.settled) }

theorem settled_eq_self_iff {r : RuleSpec} :
    r.settled = r ↔ ∀ s ∈ r.services, s.kind ≠ none := by
  have hservices : r.settled = r ↔ r.services.map (·.settled) = r.services.map id := by
    rw [List.map_id]
    exact ⟨fun h => congrArg services h, fun h => by rw [settled, h]⟩
  rw [hservices, List.map_inj_left]
  exact forall₂_congr fun s _ => RuleService.settled_eq_self_iff

theorem decode_toJson (r : RuleSpec) : decode r.toJson = .ok r.settled := by
  have hnodup : (r.fields.map (·.1)).Nodup := by simp [fields]
  have hkind := withDefault_record_some "kind" [] hnodup (v := .str r.kind) rfl
    (string_str r.kind).2 "Rule"
  have hmatch := required_record "match" [] hnodup (v := .str r.matchText) rfl
    (string_str r.matchText).2
  have hservices := withDefault_record_some "services" [] hnodup rfl
    (list_map_map fun s _ => RuleService.decode_toJson s) []
  have hmiddlewares := withDefault_record "middlewares" [] hnodup (v := r.middlewares)
    (d := list decodeMiddleware) rfl (List.forall_mem_nil _) fun ms _ =>
      ⟨by simp, list_map fun m _ => decodeMiddleware_middlewareJson m⟩
  change mk <$> withDefault ["kind"] "Rule" string (Json.record r.fields).members
    <*> required ["match"] string (Json.record r.fields).members
    <*> withDefault ["services"] [] (list RuleService.decode) (Json.record r.fields).members
    <*> withDefault ["middlewares"] none (optional (list decodeMiddleware))
      (Json.record r.fields).members = _
  rw [hkind, hmatch, hservices, hmiddlewares]
  rfl

end RuleSpec

theorem Tls.decode_toJson (t : Tls) : decode t.toJson = .ok t := by
  have hnodup : ([("certResolver", t.certResolver.map Json.str)].map (·.1)).Nodup := by simp
  have hresolver := withDefault_record "certResolver" ["cert_resolver"] hnodup
    (v := t.certResolver) rfl (by simp) fun s _ => string_str s
  change mk <$> withDefault ["certResolver", "cert_resolver"] none (optional string)
    (Json.record [("certResolver", t.certResolver.map .str)]).members = _
  rw [hresolver]
  rfl

namespace IngressRouteSpec

def fields (s : IngressRouteSpec) : List (String × Option Json) :=
  [("entryPoints", s.entryPoints.map strings),
    ("routes", s.routes.map fun rs => .arr (rs.map (·.toJson))), ("tls", s.tls.map (·.toJson))]

def settled (s : IngressRouteSpec) : IngressRouteSpec :=
  { s with routes := s.routes.map fun rs => rs.map (·.settled) }

theorem settled_eq_self_iff {s : IngressRouteSpec} : s.settled = s ↔
    ∀ rs ∈ s.routes, ∀ r ∈ rs, ∀ service ∈ r.services, service.kind ≠ none := by
  have hroutes : s.settled = s ↔ s.routes.map (fun rs => rs.map (·.settled)) = s.routes :=
    ⟨fun h => congrArg routes h, fun h => by rw [settled, h]⟩
  rw [hroutes]
  cases s.routes with
  | none => exact iff_of_true rfl nofun
  | some rs =>
    have hmap : rs.map (·.settled) = rs.map id ↔ ∀ r ∈ rs, r.settled = r := List.map_inj_left
    rw [List.map_id] at hmap
    simp only [Option.map_some, Option.some.injEq, hmap, RuleSpec.settled_eq_self_iff,
      Option.mem_def, forall_eq']

theorem decode_toJson (s : IngressRouteSpec) : decode s.toJson = .ok s.settled := by
  have hnodup : (s.fields.map (·.1)).Nodup := by simp [fields]
  have hentryPoints := withDefault_record "entryPoints" ["entry_points"] hnodup
    (v := s.entryPoints) (d := list string) rfl (by simp [fields]) fun es _ =>
      ⟨by simp [strings], list_map fun e _ => (string_str e).2⟩
  have hroutes := withDefault_record_map "routes" [] hnodup (v := s.routes)
    (d := list RuleSpec.decode) rfl (List.forall_mem_nil _) fun rs _ =>
      ⟨by simp, list_map_map fun r _ => RuleSpec.decode_toJson r⟩
  have htls := withDefault_record "tls" [] hnodup (v := s.tls) rfl (List.forall_mem_nil _)
    fun t _ => ⟨record_ne_null _, Tls.decode_toJson t⟩
  change mk <$> withDefault ["entryPoints", "entry_points"] none (optional (list string))
      (Json.record s.fields).members
    <*> withDefault ["routes"] none (optional (list RuleSpec.decode))
      (Json.record s.fields).members
    <*> withDefault ["tls"] none (optional Tls.decode) (Json.record s.fields).members = _
  rw [hentryPoints, hroutes, htls]
  rfl

end IngressRouteSpec

section Read

variable {j : Json}

/-! A record is built field by field, so what it was read from is found from its last field on. -/

structure RuleService.Reads (ms : List (String × Json)) (s : RuleService) : Prop where
  kind : withDefault ["kind"] (some "Service") (optional string) ms = .ok s.kind
  name : required ["name"] string ms = .ok s.name
  port : withDefault ["port"] none (optional integer) ms = .ok s.port

theorem RuleService.reads_of_decode {s : RuleService} (h : decode j = .ok s) :
    ∃ ms, j = .obj ms ∧ Reads ms s := by
  obtain ⟨ms, rfl, hms⟩ := object_eq_ok_iff.1 h
  obtain ⟨_, hmk₁, port, hport, rfl⟩ := Checked.seq_eq_ok_iff.1 hms
  obtain ⟨_, hmk₂, name, hname, rfl⟩ := Checked.seq_eq_ok_iff.1 hmk₁
  obtain ⟨kind, hkind, rfl⟩ := Checked.map_eq_ok_iff.1 hmk₂
  exact ⟨ms, rfl, hkind, hname, hport⟩

structure RuleSpec.Reads (ms : List (String × Json)) (r : RuleSpec) : Prop where
  kind : withDefault ["kind"] "Rule" string ms = .ok r.kind
  matchText : required ["match"] string ms = .ok r.matchText
  services : withDefault ["services"] [] (list RuleService.decode) ms = .ok r.services
  middlewares : withDefault ["middlewares"] none (optional (list decodeMiddleware)) ms =
    .ok r.middlewares

theorem RuleSpec.reads_of_decode {r : RuleSpec} (h : decode j = .ok r) :
    ∃ ms, j = .obj ms ∧ Reads ms r := by
  obtain ⟨ms, rfl, hms⟩ := object_eq_ok_iff.1 h
  obtain ⟨_, hmk₁, names, hnames, rfl⟩ := Checked.seq_eq_ok_iff.1 hms
  obtain ⟨_, hmk₂, services, hservices, rfl⟩ := Checked.seq_eq_ok_iff.1 hmk₁
  obtain ⟨_, hmk₃, text, htext, rfl⟩ := Checked.seq_eq_ok_iff.1 hmk₂
  obtain ⟨kind, hkind, rfl⟩ := Checked.map_eq_ok_iff.1 hmk₃
  exact ⟨ms, rfl, hkind, htext, hservices, hnames⟩

theorem RuleSpec.forall₂_middlewares {r : RuleSpec} (h : decode j = .ok r) :
    List.Forall₂ (fun m name => decodeMiddleware m = .ok name) (j.get "middlewares").items
      (r.middlewares.getD []) := by
  obtain ⟨ms, rfl, hreads⟩ := reads_of_decode h
  exact forall₂_items_of_optional hreads.middlewares

structure IngressRouteSpec.Reads (ms : List (String × Json)) (s : IngressRouteSpec) : Prop where
  entryPoints : withDefault ["entryPoints", "entry_points"] none (optional (list string)) ms =
    .ok s.entryPoints
  routes : withDefault ["routes"] none (optional (list RuleSpec.decode)) ms = .ok s.routes
  tls : withDefault ["tls"] none (optional Tls.decode) ms = .ok s.tls

theorem IngressRouteSpec.reads_of_decode {s : IngressRouteSpec} (h : decode j = .ok s) :
    ∃ ms, j = .obj ms ∧ Reads ms s := by
  obtain ⟨ms, rfl, hms⟩ := object_eq_ok_iff.1 h
  obtain ⟨_, hmk₁, tls, htls, rfl⟩ := Checked.seq_eq_ok_iff.1 hms
  obtain ⟨_, hmk₂, routes, hroutes, rfl⟩ := Checked.seq_eq_ok_iff.1 hmk₁
  obtain ⟨entryPoints, hentryPoints, rfl⟩ := Checked.map_eq_ok_iff.1 hmk₂
  exact ⟨ms, rfl, hentryPoints, hroutes, htls⟩

theorem IngressRouteSpec.forall₂_routes {s : IngressRouteSpec} (h : decode j = .ok s) :
    List.Forall₂ (fun rule r => RuleSpec.decode rule = .ok r) (j.get "routes").items
      (s.routes.getD []) := by
  obtain ⟨ms, rfl, hreads⟩ := reads_of_decode h
  exact forall₂_items_of_optional hreads.routes

structure IngressRouteResource.Reads (ms : List (String × Json)) (r : IngressRouteResource) :
    Prop where
  apiVersion : decodeApiVersion ms = .ok r.apiVersion
  kind : withDefault ["kind"] "IngressRoute" string ms = .ok r.kind
  metadata : required ["metadata"] ObjectMeta.decode ms = .ok r.metadata
  spec : required ["spec"] IngressRouteSpec.decode ms = .ok r.spec

theorem IngressRouteResource.reads_of_decode {r : IngressRouteResource} (h : decode j = .ok r) :
    ∃ ms, j = .obj ms ∧ Reads ms r := by
  obtain ⟨ms, rfl, hms⟩ := object_eq_ok_iff.1 h
  obtain ⟨_, hmk₁, spec, hspec, rfl⟩ := Checked.seq_eq_ok_iff.1 hms
  obtain ⟨_, hmk₂, metadata, hmetadata, rfl⟩ := Checked.seq_eq_ok_iff.1 hmk₁
  obtain ⟨_, hmk₃, kind, hkind, rfl⟩ := Checked.seq_eq_ok_iff.1 hmk₂
  obtain ⟨version, hversion, rfl⟩ := Checked.map_eq_ok_iff.1 hmk₃
  exact ⟨ms, rfl, hversion, hkind, hmetadata, hspec⟩

theorem IngressRouteResource.decode_spec {r : IngressRouteResource} (h : decode j = .ok r) :
    IngressRouteSpec.decode (j.get "spec") = .ok r.spec := by
  obtain ⟨ms, rfl, hreads⟩ := reads_of_decode h
  exact decode_get_of_required hreads.spec

end Read

namespace IngressRouteResource

def settled (r : IngressRouteResource) : IngressRouteResource := { r with spec := r.spec.settled }

theorem settled_eq_self_iff {r : IngressRouteResource} : r.settled = r ↔
    ∀ rs ∈ r.spec.routes, ∀ rule ∈ rs, ∀ s ∈ rule.services, s.kind ≠ none := by
  have hspec : r.settled = r ↔ r.spec.settled = r.spec :=
    ⟨fun h => congrArg spec h, fun h => by rw [settled, h]⟩
  rw [hspec, IngressRouteSpec.settled_eq_self_iff]

theorem decode_toJson_settled (r : IngressRouteResource) : decode r.toJson = .ok r.settled := by
  have hmetadata : required ["metadata"] ObjectMeta.decode r.toJson.members = .ok r.metadata :=
    required_of_lookup rfl (ObjectMeta.decode_toJson r.metadata) []
  have hspec : required ["spec"] IngressRouteSpec.decode r.toJson.members = .ok r.spec.settled :=
    required_of_lookup rfl (IngressRouteSpec.decode_toJson r.spec) []
  change mk <$> Checked.ok r.apiVersion <*> Checked.ok r.kind
    <*> required ["metadata"] ObjectMeta.decode r.toJson.members
    <*> required ["spec"] IngressRouteSpec.decode r.toJson.members = _
  rw [hmetadata, hspec]
  rfl

theorem decode_toJson {r : IngressRouteResource}
    (h : ∀ rs ∈ r.spec.routes, ∀ rule ∈ rs, ∀ s ∈ rule.services, s.kind ≠ none) :
    decode r.toJson = .ok r := by
  rw [decode_toJson_settled, settled_eq_self_iff.2 h]

end IngressRouteResource

theorem MiddlewareResource.decode_toJson (r : MiddlewareResource) : decode r.toJson = .ok r := by
  have hmetadata : required ["metadata"] ObjectMeta.decode r.toJson.members = .ok r.metadata :=
    required_of_lookup rfl (ObjectMeta.decode_toJson r.metadata) []
  change mk <$> Checked.ok r.apiVersion <*> Checked.ok r.kind
    <*> required ["metadata"] ObjectMeta.decode r.toJson.members <*> Checked.ok r.spec = _
  rw [hmetadata]
  rfl

end PreviewApps.Traefik
