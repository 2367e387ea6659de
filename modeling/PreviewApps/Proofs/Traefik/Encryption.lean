import PreviewApps.Proofs.Placement
import PreviewApps.Proofs.Traefik.Restoring

/-!
Encryption behind a base. All that a route keeps of an encrypted base is the name of a resolver, so
a service is encrypted like the base exactly if the base names one.
-/

namespace PreviewApps.Traefik

theorem tlsSection_toJson (r : IngressRouteResource) :
    tlsSection r.toJson = (r.spec.tls.map (·.toJson)).getD .null := by
  change r.spec.toJson.get "tls" = _
  rw [Json.get, Json.member?, IngressRouteSpec.toJson, Json.lookup_record (by simp)]
  cases r.spec.tls <;> rfl

def sectionNaming (name : String) : Json :=
  if name = "" then .null else .obj [("certResolver", .str name)]

theorem sectionNaming_eq_null_iff {name : String} : sectionNaming name = .null ↔ name = "" := by
  by_cases hname : name = "" <;> simp [sectionNaming, hname]

theorem sectionNaming_of_ne {name : String} (h : name ≠ "") :
    sectionNaming name = .obj [("certResolver", .str name)] := if_neg h

theorem toJson_tlsOf (resolver : Option String) :
    ((tlsOf resolver).map (·.toJson)).getD .null = sectionNaming (resolver.getD "") := by
  unfold tlsOf sectionNaming
  split
  · rfl
  · next hname =>
    cases resolver with
    | none => exact absurd rfl hname
    | some name => rfl

theorem getD_resolverBehind (own base : Option String) :
    (IngressRoute.resolverBehind own base).getD "" =
      if own.getD "" = "" then base.getD "" else own.getD "" := by
  unfold IngressRoute.resolverBehind
  split <;> rfl

theorem exists_route_of_convertJson {resource : Json} {base : IngressRoute}
    (h : convertJson resource = .ok base) : ∃ b bs, base.routes = b :: bs := by
  obtain ⟨hconvertible, hrestored⟩ := convertJson_eq_ok_iff.1 h
  apply List.exists_cons_of_ne_nil
  intro hnil
  have hroutes := hrestored.routes
  rw [hnil, List.forall₂_nil_right_iff] at hroutes
  exact hconvertible.some_rule hroutes

theorem exists_tlsSection_behind {resource : Json} {base : IngressRoute}
    (hbase : convertJson resource = .ok base) (app : AppName) {s : DeployableService}
    (hroute : s.route.isEmpty = false) :
    ∃ r, ingressRoute? app (Cluster.placedBehind (some base) s) = some r ∧
      tlsSection r.toJson = sectionNaming (if s.route.certResolver.getD "" = "" then
        (resolverOf? resource).getD "" else s.route.certResolver.getD "") := by
  obtain ⟨b, bs, hroutes⟩ := exists_route_of_convertJson hbase
  have hplaced : (Cluster.placedBehind (some base) s).route.isEmpty = false :=
    (IngressRoute.isEmpty_behind s.route base).trans hroute
  obtain ⟨r, hr, -, hspec⟩ := exists_ingressRoute? app hplaced
  refine ⟨r, hr, ?_⟩
  have hresolver : (Cluster.placedBehind (some base) s).route.certResolver =
      IngressRoute.resolverBehind s.route.certResolver (resolverOf? resource) := by
    rw [← (convertJson_eq_ok_iff.1 hbase).2.certResolver]
    exact IngressRoute.certResolver_behind hroutes s.route
  rw [tlsSection_toJson, hspec, toJson_tlsOf, hresolver, getD_resolverBehind]

/-- Behind a stored base a service is encrypted exactly if it names a resolver or the base does, and
its own one goes first. -/
theorem tls_named_behind {resource : Json} {base : IngressRoute}
    (hbase : convertJson resource = .ok base) (app : AppName) {s : DeployableService}
    (hroute : s.route.isEmpty = false) :
    ∃ r, ingressRoute? app (Cluster.placedBehind (some base) s) = some r ∧
      let own := s.route.certResolver.getD ""
      let inherited := (resolverOf? resource).getD ""
      (tlsSection r.toJson ≠ .null ↔ own ≠ "" ∨ inherited ≠ "") ∧
      (own ≠ "" → tlsSection r.toJson = .obj [("certResolver", .str own)]) ∧
      (own = "" → inherited ≠ "" →
        tlsSection r.toJson = .obj [("certResolver", .str inherited)]) := by
  obtain ⟨r, hr, hsection⟩ := exists_tlsSection_behind hbase app hroute
  refine ⟨r, hr, ?_⟩
  intro own inherited
  have hsection : tlsSection r.toJson = sectionNaming (if own = "" then inherited else own) :=
    hsection
  by_cases hown : own = ""
  · rw [if_pos hown] at hsection
    refine ⟨?_, fun h => absurd hown h, fun _ hinherited => ?_⟩
    · rw [hsection, ne_eq, sectionNaming_eq_null_iff]
      exact (or_iff_right (not_not.2 hown)).symm
    · rw [hsection, sectionNaming_of_ne hinherited]
  · rw [if_neg hown] at hsection
    refine ⟨?_, fun _ => ?_, fun h => absurd h hown⟩
    · rw [hsection, ne_eq, sectionNaming_eq_null_iff]
      exact iff_of_true hown (.inl hown)
    · rw [hsection, sectionNaming_of_ne hown]

def encryptedRoute (tls : Json) : Json := .obj
  [("metadata", .obj [("name", .str "api"), ("namespace", .str "preview")]),
    ("spec", .obj [("entryPoints", .arr [.str "websecure"]),
      ("routes", .arr [.obj [("match", .str "Host(`preview.example.com`)")]]), ("tls", tls)])]

def encryptedBase (resolver : Option String) : IngressRoute :=
  .ofExisting ["websecure"] (.matcher "Host" ["preview.example.com"]) [] resolver

theorem convertJson_encryptedRoute {tls : Json} {t : Option Tls}
    (h : Schema.optional Tls.decode tls = .ok t) :
    convertJson (encryptedRoute tls) = .ok (encryptedBase (t.bind (·.certResolver))) := by
  have hdecode : IngressRouteResource.decode (encryptedRoute tls) = .ok
      { apiVersion := Traefik.apiVersion
        kind := "IngressRoute"
        metadata := ⟨some "api", some "preview", none, none⟩
        spec := ⟨some ["websecure"],
          some [⟨"Rule", "Host(`preview.example.com`)", [], none⟩], t⟩ } := by
    change _ <$> _ <*> _ <*> _ <*> Schema.Checked.under _
      (_ <$> _ <*> _ <*> (Schema.optional Tls.decode tls).under _) = _
    rw [h]
    rfl
  have hlegible : (Rule.matcher "Host" ["preview.example.com"]).Legible := by
    unfold Rule.Legible
    decide +kernel
  have htext : (Rule.matcher "Host" ["preview.example.com"]).render =
      "Host(`preview.example.com`)" := by decide +kernel
  have hparse : Rule.parse "Host(`preview.example.com`)" =
      .ok (.matcher "Host" ["preview.example.com"]) := htext ▸ hlegible.parse_render
  have hrule (name : Option String) :
      convertRule name ⟨"Rule", "Host(`preview.example.com`)", [], none⟩ =
        .ok ⟨.matcher "Host" ["preview.example.com"], []⟩ := by
    rw [convertRule, hparse]
    rfl
  rw [convertJson, hdecode]
  refine convert_of_routes ?_ ?_
  · exact List.cons_ne_nil _ _
  · exact mapM_eq_ok_iff.2 (.cons (hrule _) .nil)

theorem tls_named_behind_encryptedRoute :
    (convertJson (encryptedRoute (.obj [("certResolver", .str "letsencrypt")])) =
        .ok (encryptedBase (some "letsencrypt")) ∧ blogService.route.isEmpty = false) ∧
      blogService.route.certResolver.getD "" = "" ∧
      ∃ r, ingressRoute? .master
          (Cluster.placedBehind (some (encryptedBase (some "letsencrypt"))) blogService) = some r ∧
        tlsSection r.toJson = .obj [("certResolver", .str "letsencrypt")] := by
  have hbase : convertJson (encryptedRoute (.obj [("certResolver", .str "letsencrypt")])) =
      .ok (encryptedBase (some "letsencrypt")) :=
    convertJson_encryptedRoute (t := some ⟨some "letsencrypt"⟩) rfl
  have hroute : blogService.route.isEmpty = false := rfl
  obtain ⟨r, hr, -, -, hinherited⟩ := tls_named_behind hbase .master hroute
  exact ⟨⟨hbase, hroute⟩, rfl, r, hr, hinherited rfl (by decide)⟩

/-- An encrypted base without the name of a resolver leaves a service without encryption. -/
theorem tls_lost_behind_encryptedRoute :
    (convertJson (encryptedRoute (.obj [])) = .ok (encryptedBase none) ∧
        blogService.route.isEmpty = false) ∧
      tlsSection (encryptedRoute (.obj [])) ≠ .null ∧
      ∃ r, ingressRoute? .master
          (Cluster.placedBehind (some (encryptedBase none)) blogService) = some r ∧
        ¬tlsSection r.toJson ≠ .null := by
  -- the section is there, but all that is carried on is that it names no resolver
  have hbase : convertJson (encryptedRoute (.obj [])) = .ok (encryptedBase none) :=
    convertJson_encryptedRoute (t := some ⟨none⟩) rfl
  obtain ⟨r, hr, hsection⟩ := exists_tlsSection_behind hbase .master (s := blogService) rfl
  have hsome : tlsSection (encryptedRoute (.obj [])) = .obj [] := rfl
  refine ⟨⟨hbase, rfl⟩, ?_, r, hr, not_not.2 hsection⟩
  rw [hsome]
  exact Json.noConfusion

end PreviewApps.Traefik
