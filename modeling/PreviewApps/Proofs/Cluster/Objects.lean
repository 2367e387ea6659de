import Mathlib.Data.List.Nodup
import PreviewApps.Proofs.Agreement
import PreviewApps.Proofs.AppName
import PreviewApps.Proofs.Cluster.History
import PreviewApps.Proofs.Cluster.Stages
import PreviewApps.Proofs.Cluster.Writes
import PreviewApps.Proofs.Except
import PreviewApps.Proofs.Route
import PreviewApps.Proofs.Traefik.Middlewares

/-!
The objects of one deployment. A deployment goes through the objects that its unit needs in a fixed
order, and updates an object only in place of creating it, so objects overwrite each other only if
two of the list are one.
-/

namespace PreviewApps.Cluster

open Program

def Call.object? : Call → Option Key
  | .create kind _ body => if kind = .claims then none else some (Server.keyOf kind body)
  | _ => none

/-- The objects that are created in a history or found to exist. -/
def objects (h : History) : List Key := h.filterMap (·.1.object?)

/-- What is updated is the object that could not be created just before, with the same body. -/
def Call.Repeats (h : History) : Call → Prop
  | .patch kind ns name body => name = givenName body ∧
    ∃ past reason, h = past ++ [(.create kind ns body, .error ⟨409, reason⟩)]
  | .replace kind ns name body => name = givenName body ∧
    ∃ past reason, h = past ++ [(.create kind ns body, .error ⟨409, reason⟩)]
  | _ => True

/-- No object is written twice, but for updates in place of the creation. -/
structure Apart (h : History) : Prop where
  nodup : (objects h).Nodup
  repeats : ∀ past c a rest, h = past ++ (c, a) :: rest → c.Repeats past

def following (plan : List Key) : Contract where
  expects _ := True
  before h c := objects h ++ c.object?.toList <+: plan ∧ c.Repeats h
  faulty h _ := objects h <+: plan

theorem objects_concat (h : History) (c : Call) (a : Answer) :
    objects (h ++ [(c, a)]) = objects h ++ c.object?.toList := by
  unfold objects
  rw [List.filterMap_append]
  cases hc : c.object? <;> simp [hc]

theorem objects_concat_of_none {c : Call} (hc : c.object? = none) (h : History) (a : Answer) :
    objects (h ++ [(c, a)]) = objects h := by
  rw [objects_concat, hc]
  exact List.append_nil _

def Creates (plan keys : List Key) {α : Type} (p : Program α) : Prop :=
  ∀ h, objects h ++ keys <+: plan →
    p.Honours (following plan) h fun h' _ => objects h' = objects h ++ keys

section Rules

variable {α β : Type} {plan keys keys' : List Key} {p : Program α}

theorem creates_ofExcept (r : Except Fault α) : Creates plan [] (ofExcept r) := by
  intro h hplan
  apply honours_ofExcept
  · exact fun _ _ => (List.append_nil _).symm
  · exact fun _ _ => (List.prefix_append _ []).trans hplan

theorem Creates.bind {f : α → Program β} (hp : Creates plan keys p)
    (hf : ∀ a, Creates plan keys' (f a)) : Creates plan (keys ++ keys') (p >>= f) := by
  intro h hplan
  rw [← List.append_assoc] at hplan
  apply Honours.bind
  apply (hp h ((List.prefix_append _ keys').trans hplan)).mono
  intro h' a hh'
  rw [← hh'] at hplan
  apply (hf a h' hplan).mono
  intro h'' b hh''
  rw [hh'', hh', List.append_assoc]

theorem creates_graded (plan : List Key) : Graded (Creates plan) :=
  ⟨creates_ofExcept, Creates.bind⟩

theorem Creates.bind_of_none {f : α → Program β} (hp : Creates plan [] p)
    (hf : ∀ a, Creates plan keys (f a)) : Creates plan keys (p >>= f) := hp.bind hf

theorem creates_must {action : Action} {c : Call} (hkeys : c.object?.toList = keys)
    (hc : ∀ h, c.Repeats h) : Creates plan keys (must action c) := by
  subst hkeys
  intro h hplan
  apply honours_must
  · exact ⟨hplan, hc h⟩
  · exact fun j _ => objects_concat h c _
  · intro e
    change objects _ <+: plan
    rwa [objects_concat]

theorem creates_may {absorbed : List Int} {action : Action} {c : Call}
    (hkeys : c.object?.toList = keys) (hc : ∀ h, c.Repeats h) :
    Creates plan keys (may absorbed action c) := by
  subst hkeys
  intro h hplan
  apply honours_may
  · exact ⟨hplan, hc h⟩
  · exact fun j _ => objects_concat h c _
  · exact fun e _ => objects_concat h c _
  · intro e _
    change objects _ <+: plan
    rwa [objects_concat]

theorem creates_upsert {mode : UpdateMode} {kind : Kind} {ns name : String} {body : Json}
    {creating updating : Action} {key : Key} (hkey : Server.keyOf kind body = key)
    (hkind : kind ≠ .claims) (hname : name = givenName body) :
    Creates plan [key] (upsert mode kind ns name body creating updating) := by
  subst hkey
  have hobject : (Call.create kind ns body).object? = some (Server.keyOf kind body) :=
    if_neg hkind
  have hupdate : ∀ past reason, let h := past ++ [(Call.create kind ns body, .error ⟨409, reason⟩)]
      (updateCall mode kind ns name body).Repeats h ∧
        (updateCall mode kind ns name body).object? = none := by
    intro past reason h
    cases mode with
    | patch => exact ⟨⟨hname, past, reason, rfl⟩, rfl⟩
    | replace => exact ⟨⟨hname, past, reason, rfl⟩, rfl⟩
  intro h hplan
  have hcreate : ∀ a, objects (h ++ [(Call.create kind ns body, a)]) =
      objects h ++ [Server.keyOf kind body] := by
    intro a
    rw [objects_concat, hobject]
    rfl
  apply honours_createOrUpdate
  · exact ⟨by rwa [hobject], trivial⟩
  · exact fun j _ => hcreate _
  · rintro ⟨status, reason⟩ hstatus
    change status = 409 at hstatus
    subst hstatus
    obtain ⟨hrepeats, hnone⟩ := hupdate h reason
    have hsame := objects_concat_of_none hnone
    apply honours_must
    · refine ⟨?_, hrepeats⟩
      rw [hnone, hcreate]
      exact (List.append_nil _).symm ▸ hplan
    · intro j _
      exact (hsame _ _).trans (hcreate _)
    · intro e
      change objects _ <+: plan
      rwa [hsame, hcreate]
  · intro e _
    change objects _ <+: plan
    rwa [hcreate]

end Rules

theorem keyOf_namespace (n : NamespaceManifest) :
    Server.keyOf .namespaces n.toJson = ⟨.namespaces, "", n.name⟩ := by
  have hpath : ∀ k, n.toJson.path ["metadata", k] =
      ((n.toJson.get "metadata").member? k).getD .null := fun _ => rfl
  rw [Server.keyOf, hpath, hpath, member?_namespace, member?_namespace]
  rfl

section Plan

variable (app : AppName)

def fileObjects (d : DeployableService) : List Key :=
  if d.files.isEmpty then [] else [⟨.secrets, app.namespaceId, app.secretName d.name⟩]

def routeObjects (d : DeployableService) : List Key :=
  if d.route.isEmpty then []
  else
    (d.route.inlineMiddlewares.map fun m => ⟨.middlewares, app.namespaceId, m.objectName⟩) ++
      [⟨.ingressRoutes, app.namespaceId, app.ingressRouteName d.name⟩]

def serviceObjects (d : DeployableService) : List Key :=
  fileObjects app d ++ ⟨.deployments, app.namespaceId, app.deploymentName d.name⟩ ::
    ⟨.services, app.namespaceId, d.name⟩ :: routeObjects app d

def unitObjects (u : DeploymentUnit) : List Key :=
  ⟨.namespaces, "", u.app.namespaceId⟩ ::
    (if u.needsPullSecret then [⟨.secrets, u.app.namespaceId, u.app.pullSecretName⟩] else []) ++
      u.services.flatMap (serviceObjects u.app)

end Plan

section Deployments

variable {plan : List Key} (app : AppName)

theorem creates_upsertNamespace (settings : Settings) :
    Creates plan [⟨.namespaces, "", app.namespaceId⟩] (upsertNamespace settings app) := by
  let manifest := NamespaceManifest.ofApp app settings
  apply (creates_graded plan).discard
  apply creates_upsert (keyOf_namespace manifest)
  · decide
  · exact (named_namespace manifest).given.symm

theorem creates_providePullSecret (u : DeploymentUnit) :
    Creates plan (if u.needsPullSecret then
      [⟨.secrets, u.app.namespaceId, u.app.pullSecretName⟩] else []) (providePullSecret u) := by
  unfold providePullSecret
  split
  · apply Creates.bind_of_none
    · apply (creates_graded plan).discard
      exact creates_may rfl fun _ => trivial
    · intro _
      apply (creates_graded plan).discard
      exact creates_must rfl fun _ => trivial
  · exact (creates_graded plan).closed.pure ()

theorem creates_upsertFiles (d : DeployableService) :
    Creates plan (fileObjects app d) (upsertFiles app d) := by
  unfold upsertFiles fileObjects
  split
  · exact (creates_graded plan).closed.pure ()
  · apply (creates_graded plan).discard
    apply creates_upsert
    · rfl
    · decide
    · rfl

theorem creates_claimsFor (settings : Settings) (d : DeployableService) :
    Creates plan [] (claimsFor settings app d) := by
  apply (creates_graded plan).closed.claimsFor
  · exact fun _ _ => creates_must rfl fun _ => trivial
  · exact fun _ _ => creates_must rfl fun _ => trivial

theorem creates_upsertRoutes (d : DeployableService) {base : Option IngressRoute}
    (hbase : ∀ b ∈ base, ∀ m ∈ b.middlewares, m.isRef) :
    Creates plan (routeObjects app d) (upsertRoutes app d base) := by
  -- a base route adds no objects, since its middlewares are references
  unfold routeObjects
  split
  · next hempty =>
    unfold upsertRoutes
    rw [if_pos hempty]
    exact (creates_graded plan).closed.pure ()
  · next hroute =>
    have hmiddlewares : d.route.inlineMiddlewares.map (fun m =>
        (⟨.middlewares, app.namespaceId, m.objectName⟩ : Key)) =
        (Traefik.middlewares app (placedBehind base d)).flatMap fun r =>
          [⟨.middlewares, app.namespaceId, r.metadata.name.getD ""⟩] := by
      rw [Traefik.middlewares_placedBehind app d hbase, Traefik.middlewares, List.flatMap_map,
        ← List.map_eq_flatMap]
      rfl
    rw [hmiddlewares]
    apply (creates_graded plan).upsertRoutes (Bool.eq_false_iff.2 hroute)
    · intro m hm
      obtain ⟨own, -, rfl⟩ := List.mem_map.1 hm
      apply (creates_graded plan).discard
      apply creates_upsert
      · rfl
      · decide
      · rfl
    · intro r hr
      unfold Traefik.ingressRoute? at hr
      split at hr
      · cases hr
      · cases hr
        apply creates_upsert
        · rfl
        · decide
        · rfl

theorem creates_deployService (settings : Settings) (container : ContainerConfig)
    (now : Timestamp) (usePullSecret : Bool) (d : DeployableService) {base : Option IngressRoute}
    (hbase : ∀ b ∈ base, ∀ m ∈ b.middlewares, m.isRef) :
    Creates plan (serviceObjects app d)
      (deployService settings container now app usePullSecret base d) := by
  unfold deployService serviceObjects
  apply (creates_upsertFiles app d).bind
  intro _
  apply (creates_claimsFor app settings d).bind_of_none
  intro found
  apply (creates_ofExcept (readClaims found)).bind_of_none
  intro claims
  change Creates plan ([_] ++ ([_] ++ routeObjects app d)) _
  apply Creates.bind
  · apply creates_upsert
    · rfl
    · decide
    · rfl
  · intro stored
    apply Creates.bind
    · apply (creates_graded plan).discard
      apply creates_upsert
      · rfl
      · decide
      · rfl
    · intro _
      apply (creates_graded plan).bind_none (creates_upsertRoutes app d hbase)
      intro _
      exact creates_ofExcept _

theorem creates_baseRoute (settings : Settings) : Creates plan [] (baseRoute settings) := by
  apply (creates_graded plan).closed.baseRoute
  exact fun _ _ => creates_may rfl fun _ => trivial

theorem creates_deploy (settings : Settings) (container : ContainerConfig) (now : Timestamp)
    (u : DeploymentUnit) : Creates plan (unitObjects u) (deploy settings container now u) := by
  rw [deploy_eq]
  change Creates plan ([_] ++ (_ ++ _)) _
  apply (creates_upsertNamespace u.app settings).bind
  intro _
  apply (creates_providePullSecret u).bind
  intro _ h hplan
  have hread : objects h ++ [] <+: plan := by
    rw [List.append_nil]
    exact (List.prefix_append _ _).trans hplan
  apply Honours.bind
  apply ((creates_baseRoute settings h hread).and_results (results_baseRoute settings)).mono
  rintro h' base ⟨hsame, hbase⟩
  rw [List.append_nil] at hsame
  rw [← hsame] at hplan ⊢
  apply (creates_graded plan).mapM _ h' hplan
  intro d _
  exact creates_deployService u.app settings container now _ d hbase

end Deployments

section Plain

variable {app : AppName} {d d' : DeployableService} {u : DeploymentUnit} {key : Key}

/-- Different services with labels for names, under their default routes. -/
structure Plain (u : DeploymentUnit) : Prop where
  nodup : u.serviceNames.Nodup
  labels : ∀ d ∈ u.services, AppName.IsLabel d.name
  routes : ∀ d ∈ u.services, d.route = .ofService u.app d.name

/-- The files of a service and the credentials of its unit go to the same secret. -/
def Clashes (u : DeploymentUnit) : Prop :=
  u.needsPullSecret ∧ ∃ d ∈ u.services, d.files.isEmpty = false ∧ d.name = "image-pull"

instance (u : DeploymentUnit) : Decidable (Clashes u) := inferInstanceAs (Decidable (_ ∧ _))

def middlewareName (app : AppName) (service : String) : String :=
  (Middleware.mk (app.value ++ "-" ++ service ++ "-middleware") (some
    (IngressRoute.stripPrefix ("/" ++ app.value ++ "/" ++ service ++ "/")))).objectName

def objectName (app : AppName) (service : String) : Kind → String
  | .secrets => app.secretName service
  | .deployments => app.deploymentName service
  | .middlewares => middlewareName app service
  | .ingressRoutes => app.ingressRouteName service
  | _ => service

theorem objectName_inj {s t : String} (hs : AppName.IsLabel s) (ht : AppName.IsLabel t)
    {kind : Kind} (h : objectName app s kind = objectName app t kind) : s = t := by
  cases kind with
  | secrets => exact AppName.secretName_inj h
  | deployments => exact AppName.deploymentName_inj h
  | middlewares => exact IngressRoute.objectName_inj hs ht h
  | ingressRoutes => exact AppName.ingressRouteName_inj h
  | _ => exact h

def kindsOf (d : DeployableService) : List Kind :=
  (if d.files.isEmpty then [] else [.secrets]) ++
    [.deployments, .services, .middlewares, .ingressRoutes]

theorem serviceObjects_eq (hroute : d.route = .ofService app d.name) :
    serviceObjects app d =
      (kindsOf d).map fun kind => ⟨kind, app.namespaceId, objectName app d.name kind⟩ := by
  unfold serviceObjects fileObjects routeObjects kindsOf
  rw [hroute]
  split
  · rfl
  · rfl

theorem nodup_serviceObjects (hroute : d.route = .ofService app d.name) :
    (serviceObjects app d).Nodup := by
  have hkinds : (kindsOf d).Nodup := by
    unfold kindsOf
    split
    · decide
    · decide
  rw [serviceObjects_eq hroute]
  apply hkinds.map
  intro kind kind' h
  exact (Key.mk.inj h).1

theorem name_eq_of_mem_serviceObjects (hd : AppName.IsLabel d.name) (hd' : AppName.IsLabel d'.name)
    (hroute : d.route = .ofService app d.name) (hroute' : d'.route = .ofService app d'.name)
    (h : key ∈ serviceObjects app d) (h' : key ∈ serviceObjects app d') : d.name = d'.name := by
  rw [serviceObjects_eq hroute] at h
  rw [serviceObjects_eq hroute'] at h'
  obtain ⟨kind, -, rfl⟩ := List.mem_map.1 h
  obtain ⟨kind', -, hkey⟩ := List.mem_map.1 h'
  obtain ⟨rfl, -, hname⟩ := Key.mk.inj hkey
  exact (objectName_inj hd' hd hname).symm

theorem mem_pullSecret_iff (hroute : d.route = .ofService app d.name) :
    ⟨.secrets, app.namespaceId, app.pullSecretName⟩ ∈ serviceObjects app d ↔
      d.files.isEmpty = false ∧ d.name = "image-pull" := by
  rw [serviceObjects_eq hroute, List.mem_map, ← AppName.secretName_eq_pullSecretName_iff (a := app)]
  constructor
  · rintro ⟨kind, hkind, hkey⟩
    obtain ⟨rfl, -, hname⟩ := Key.mk.inj hkey
    refine ⟨?_, hname⟩
    unfold kindsOf at hkind
    split at hkind
    · simp at hkind
    · next hfiles => exact Bool.eq_false_iff.2 hfiles
  · rintro ⟨hfiles, hname⟩
    refine ⟨.secrets, by simp [kindsOf, hfiles], ?_⟩
    exact congrArg _ hname

theorem nodup_unitObjects_iff (hu : Plain u) : (unitObjects u).Nodup ↔ ¬Clashes u := by
  have hservices : (u.services.flatMap (serviceObjects u.app)).Nodup := by
    rw [List.nodup_flatMap]
    refine ⟨fun d hd => nodup_serviceObjects (hu.routes d hd), ?_⟩
    apply (List.pairwise_map.1 hu.nodup).imp_of_mem
    intro d d' hd hd' hne key hkey hkey'
    exact hne (name_eq_of_mem_serviceObjects (hu.labels d hd) (hu.labels d' hd')
      (hu.routes d hd) (hu.routes d' hd') hkey hkey')
  have hrest : ∀ key ∈ u.services.flatMap (serviceObjects u.app), key.kind ≠ .namespaces := by
    intro key hkey
    obtain ⟨d, hd, hkey⟩ := List.mem_flatMap.1 hkey
    rw [serviceObjects_eq (hu.routes d hd)] at hkey
    obtain ⟨kind, hkind, rfl⟩ := List.mem_map.1 hkey
    rintro rfl
    unfold kindsOf at hkind
    split at hkind <;> simp at hkind
  have hnamespace : (⟨.namespaces, "", u.app.namespaceId⟩ : Key) ∉
      u.services.flatMap (serviceObjects u.app) := fun h => hrest _ h rfl
  have hpull : ∀ d ∈ u.services,
      ((⟨.secrets, u.app.namespaceId, u.app.pullSecretName⟩ : Key) ∈ serviceObjects u.app d ↔
        d.files.isEmpty = false ∧ d.name = "image-pull") :=
    fun d hd => mem_pullSecret_iff (hu.routes d hd)
  unfold unitObjects Clashes
  split
  · next hneeds => simp +contextual [hservices, hnamespace, hpull, hneeds]
  · next hneeds => simp [hservices, hnamespace, hneeds]

/-- Deployments write no object twice, except that one which succeeds does so if there is a clash. -/
theorem deploy_apart_iff {σ : Type} (answer : Call → σ → Answer × σ) (settings : Settings)
    (container : ContainerConfig) (now : Timestamp) (hu : Plain u) (s : σ) :
    (¬Clashes u → Apart ((deploy settings container now u).history answer s)) ∧
      ∀ replies, ((deploy settings container now u).run answer s).1 = .ok replies →
        (Apart ((deploy settings container now u).history answer s) ↔ ¬Clashes u) := by
  have hplan : ([] : List Key) ++ unitObjects u <+: unitObjects u := List.prefix_refl _
  have hcreates := creates_deploy settings container now u [] hplan
  have hnodup := nodup_unitObjects_iff hu
  have hprefix : objects ((deploy settings container now u).history answer s) <+: unitObjects u := by
    rcases ending_of_honours hcreates fun _ _ => trivial with ⟨_, -, h⟩ | ⟨_, -, h⟩
    · rw [← List.nil_append (unitObjects u)]
      exact h ▸ List.prefix_refl _
    · exact h
  have hrepeats : ∀ past c a rest, (deploy settings container now u).history answer s =
      past ++ (c, a) :: rest → c.Repeats past := by
    intro past c a rest hsplit
    exact (before_of_honours hcreates (fun _ _ => trivial) hsplit).2
  have happart : ¬Clashes u → Apart ((deploy settings container now u).history answer s) :=
    fun h => ⟨(hnodup.2 h).sublist hprefix.sublist, hrepeats⟩
  refine ⟨happart, ?_⟩
  intro replies hrun
  refine ⟨?_, happart⟩
  intro h
  apply hnodup.1
  rcases ending_of_honours hcreates fun _ _ => trivial with ⟨_, -, hall⟩ | ⟨e, he, -⟩
  · exact (congrArg List.Nodup hall).mp h.nodup
  · rw [hrun] at he
    cases he

end Plain

def filedService (app : AppName) (service : String) : DeployableService where
  config := ⟨service, "nginx", none, some [(.ofString "/etc/a.conf", "x")], 80, .standalone⟩
  strategy := .never
  route := .ofService app service
  declaredVolumes := []

def pulledUnit (app : AppName) (services : List String) : DeploymentUnit where
  app := app
  services := services.map (filedService app)
  credentials := [("r.example", ⟨"u", "p"⟩)]

theorem plain_pulledUnit (app : AppName) {services : List String} (hnodup : services.Nodup)
    (hlabels : ∀ s ∈ services, AppName.IsLabel s) : Plain (pulledUnit app services) := by
  constructor
  · have hnames : (pulledUnit app services).serviceNames = services := by
      simp [pulledUnit, DeploymentUnit.serviceNames, Function.comp_def, DeployableService.name,
        filedService]
    exact hnames.symm ▸ hnodup
  · intro d hd
    obtain ⟨s, hs, rfl⟩ := List.mem_map.1 hd
    exact hlabels s hs
  · intro d hd
    obtain ⟨s, -, rfl⟩ := List.mem_map.1 hd
    rfl

theorem isLabel_of_all {s : String} (hchars : s.toList.all AppName.isLabelChar = true)
    (hends : s.toList.head? ≠ some '-' ∧ s.toList.getLast? ≠ some '-')
    (hlength : 0 < s.length ∧ s.length ≤ 63) : AppName.IsLabel s :=
  ⟨List.all_eq_true.1 hchars, hends.1, hends.2, hlength.1, hlength.2⟩

theorem deploy_apart_iff_beside_pullSecret :
    Plain (pulledUnit shop ["image", "image-pull-image"]) ∧
      Apart ((deploy webSettings ⟨none⟩ noon (pulledUnit shop ["image", "image-pull-image"])).history
        Server.answer .empty) := by
  have hplain : Plain (pulledUnit shop ["image", "image-pull-image"]) := by
    apply plain_pulledUnit shop (by decide)
    simp only [List.forall_mem_cons]
    have hservice := isLabel_of_all (s := "image") (by decide) (by decide) (by decide)
    have hother := isLabel_of_all (s := "image-pull-image") (by decide) (by decide) (by decide)
    exact ⟨hservice, hother, by simp⟩
  exact ⟨hplain, (deploy_apart_iff Server.answer webSettings ⟨none⟩ noon hplain .empty).1
    (by decide)⟩

/-- The file is patched into the pull secret. -/
theorem deploy_not_apart_over_pullSecret :
    Plain (pulledUnit .master ["image-pull"]) ∧
      ¬Apart ((deploy webSettings ⟨none⟩ noon (pulledUnit .master ["image-pull"])).history
        Server.answer .empty) := by
  constructor
  · apply plain_pulledUnit .master (by decide)
    have hservice := isLabel_of_all (s := "image-pull") (by decide) (by decide) (by decide)
    simpa using hservice
  · intro h
    have hrepeated : ¬(objects ((deploy webSettings ⟨none⟩ noon
        (pulledUnit .master ["image-pull"])).history Server.answer .empty)).Nodup := by
      decide +kernel
    exact hrepeated h.nodup

end PreviewApps.Cluster
