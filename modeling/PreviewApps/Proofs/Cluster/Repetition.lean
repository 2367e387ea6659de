import PreviewApps.Proofs.Cluster.Completed
import PreviewApps.Proofs.Cluster.Deployed

/-!
Deploying a unit a second time. The plan is the same as the first time, but for the date at the pods
of services that are always redeployed, and what a plan has left it leaves again. This needs a base
route that the unit does not write itself.
-/

namespace PreviewApps

/-- A service as it would be told of another deployment with the same content. -/
def Service.withoutAssigned (s : Service) : Service := { s with id := "", startedAt := none }

namespace Cluster

open Program
open Json (Place)

section Answers

variable {app : AppName} {s : DeployableService} {container : ContainerConfig}
  {usePullSecret : Bool} {claims : List (String × Claim)} {now now' : Timestamp} {j j' : Json}

theorem identityOf_congr {a b : List (String × Json)} (huid : a.lookup "uid" = b.lookup "uid")
    (hname : a.lookup "name" = b.lookup "name") : identityOf a = identityOf b := by
  unfold identityOf member
  rw [huid, hname]

def readable (app : AppName) (s : DeployableService) : Service where
  id := ""
  app := app
  config := { s.config with env := s.config.env.map (·.readBack), files := none }
  status := .running
  startedAt := none

theorem exists_metadata_of_dressed
    (h : Dressed (Deployment.ofService app s container usePullSecret claims now).toJson
      (app.deploymentName s.name) j) :
    ∃ metadata, identity j = (metadata.lookup "uid", metadata.lookup "creationTimestamp") ∧
      metadata.lookup "name" = some (.str (app.deploymentName s.name)) ∧
      serviceOf j = if s.name = "" then .ok none
        else (startOf metadata).map fun started =>
          some { readable app s with id := identityOf metadata, startedAt := started } := by
  obtain ⟨entries, hentries, rfl⟩ := h
  let d := Deployment.ofService app s container usePullSecret claims now
  have hlookup : ∀ k ∈ writtenKeys,
      (entries.foldl (fun m e => Assoc.insert e.1 e.2 m) d.metadata).lookup k =
        d.metadata.lookup k := fun k hk => lookup_dressed hentries rfl hk
  have hread := serviceOf_stored_eq app s container usePullSecret claims now 1
    (hlookup "labels" (by decide)) (hlookup "annotations" (by decide))
  exact ⟨_, rfl, hlookup "name" (by decide), hread⟩

theorem serviceOf_eq_of_identity
    (h : Dressed (Deployment.ofService app s container usePullSecret claims now).toJson
      (app.deploymentName s.name) j)
    (h' : Dressed (Deployment.ofService app s container usePullSecret claims now').toJson
      (app.deploymentName s.name) j')
    (hid : identity j' = identity j) : serviceOf j' = serviceOf j := by
  obtain ⟨metadata, hidentity, hname, hread⟩ := exists_metadata_of_dressed h
  obtain ⟨metadata', hidentity', hname', hread'⟩ := exists_metadata_of_dressed h'
  rw [hidentity, hidentity'] at hid
  obtain ⟨huid, hstart⟩ := Prod.ext_iff.1 hid
  rw [hread, hread', identityOf_congr huid (hname'.trans hname.symm), startOf_congr hstart]

theorem withoutAssigned_of_dressed
    (h : Dressed (Deployment.ofService app s container usePullSecret claims now).toJson
      (app.deploymentName s.name) j) {r : Option Service} (hr : serviceOf j = .ok r) :
    r.map (·.withoutAssigned) = if s.name = "" then none else some (readable app s) := by
  obtain ⟨metadata, -, -, hread⟩ := exists_metadata_of_dressed h
  rw [hr] at hread
  split at hread
  · next hname =>
    cases hread
    exact (if_pos hname).symm
  · next hname =>
    rw [if_neg hname]
    cases hstart : startOf metadata with
    | error e =>
      rw [hstart] at hread
      cases hread
    | ok start =>
      rw [hstart] at hread
      cases hread
      rfl

theorem Replied.agree {keeps : Prop} {r : Rollout} {m m' : Store} {e : Supply}
    {reply reply' : Option Service} (h : Replied keeps r m e reply)
    (h' : Replied keeps { r with now := now' } m' e reply') (hm : Steady keeps m m') :
    reply'.map (·.withoutAssigned) = reply.map (·.withoutAssigned) ∧
      (keeps → reply' = reply) := by
  obtain ⟨j, last, hdressed, hread, hlast, hsame⟩ := h
  obtain ⟨j', last', hdressed', hread', hlast', hsame'⟩ := h'
  obtain ⟨stored, hstored, hsteady⟩ := hm _ last rfl hlast
  obtain rfl : last' = stored := Option.some.inj (hlast'.symm.trans hstored)
  constructor
  · exact (withoutAssigned_of_dressed hdressed' hread').trans
      (withoutAssigned_of_dressed hdressed hread).symm
  · intro hkeeps
    have hid : identity j' = identity j :=
      (hsame' hkeeps).symm.trans ((hsteady hkeeps).trans (hsame hkeeps))
    have hservice := serviceOf_eq_of_identity hdressed hdressed' hid
    rw [hread, hread'] at hservice
    exact Except.ok.inj hservice

end Answers

def datePlace : List Place := ["spec", "template", "metadata", "annotations", "date"].map .member

/-- What a second deployment may write anew: what the server adds to the metadata of objects that
are replaced, and the date at the pods. -/
inductive Renewed (u : DeploymentUnit) : Key → List Place → Prop
  | deployment {d ps} (hd : d ∈ u.services) (hps : assigned ps = true) :
      Renewed u (deploymentKey u.app d) ps
  | pullSecret {ps} (hpull : u.needsPullSecret) (hps : assigned ps = true) :
      Renewed u (pullSecretKey u.app) ps
  | date {d} (hd : d ∈ u.services) (halways : d.strategy.policy = .always) :
      Renewed u (deploymentKey u.app d) datePlace

inductive WrittenBy (u : DeploymentUnit) : UpdateMode → Key → Prop
  | plain {key} (hkind : key.kind ≠ .ingressRoutes) : WrittenBy u .patch key
  | route {d} (hd : d ∈ u.services) (hroute : d.route.isEmpty = false) :
      WrittenBy u .patch (routeKey u.app d)
  | deployment {d} (hd : d ∈ u.services) : WrittenBy u .replace (deploymentKey u.app d)
  | pullSecret (hpull : u.needsPullSecret) : WrittenBy u .replace (pullSecretKey u.app)

def BasedElsewhere (settings : Settings) (u : DeploymentUnit) : Prop :=
  ∀ b ∈ settings.runtime.baseIngressRoute, ∀ d ∈ u.services, d.route.isEmpty = false →
    routeKey u.app d ≠ ⟨.ingressRoutes, b.namespaceId, b.name⟩

section Plans

variable {settings : Settings} {r : Rollout} {base : Option IngressRoute} {supplies : List Supply}
  {w : Write}

theorem writtenBy_of_mem_routeWrites {d : DeployableService} (hd : d ∈ r.unit.services)
    (hw : w ∈ routeWrites r.unit.app (placedBehind base d)) :
    WrittenBy r.unit w.mode w.key := by
  cases hroute : d.route.isEmpty with
  | true =>
    rw [routeWrites_of_isEmpty ((isEmpty_placedBehind base d).trans hroute)] at hw
    cases hw
  | false =>
    rcases List.mem_append.1 hw with hw | hw
    · obtain ⟨m, -, rfl⟩ := List.mem_map.1 hw
      exact .plain Kind.noConfusion
    · obtain ⟨route, -, rfl⟩ := List.mem_map.1 hw
      exact WrittenBy.route (d := d) hd hroute

theorem writtenBy_of_mem_serviceWrites {e : Supply} (he : e.1 ∈ r.unit.services)
    (hw : w ∈ serviceWrites r base e) : WrittenBy r.unit w.mode w.key := by
  rcases List.mem_append.1 hw with hw | hw
  · unfold fileWrites at hw
    split at hw
    · cases hw
    · rw [List.mem_singleton.1 hw]
      exact .plain Kind.noConfusion
  · rcases List.mem_cons.1 hw with rfl | hw
    · exact .deployment he
    · rcases List.mem_cons.1 hw with rfl | hw
      · exact .plain Kind.noConfusion
      · exact writtenBy_of_mem_routeWrites he hw

theorem writtenBy_of_mem_rolloutWrites (hsupplies : supplies.map (·.1) = r.unit.services)
    (hw : w ∈ rolloutWrites settings r base supplies) : WrittenBy r.unit w.mode w.key := by
  rcases List.mem_cons.1 hw with rfl | hw
  · exact .plain Kind.noConfusion
  · rcases List.mem_append.1 hw with hw | hw
    · obtain ⟨hpull, rfl⟩ := mem_pullWrites_iff.1 hw
      exact .pullSecret hpull
    · obtain ⟨e, he, hw⟩ := List.mem_flatMap.1 hw
      exact writtenBy_of_mem_serviceWrites (hsupplies ▸ List.mem_map_of_mem he) hw

theorem baseIn_of_leaves {m m' : Store} (hbase : BasedElsewhere settings r.unit)
    (hsupplies : supplies.map (·.1) = r.unit.services)
    (h : Leaves (rolloutWrites settings r base supplies) m m') :
    baseIn settings m' = baseIn settings m := by
  unfold baseIn
  cases hb : settings.runtime.baseIngressRoute with
  | none => rfl
  | some b =>
    have hsame : m' ⟨.ingressRoutes, b.namespaceId, b.name⟩ =
        m ⟨.ingressRoutes, b.namespaceId, b.name⟩ := by
      apply h.others _ Kind.noConfusion
      intro w hw hkey
      have hwritten := writtenBy_of_mem_rolloutWrites hsupplies hw
      rw [← hkey] at hwritten
      generalize hmode : w.mode = mode at hwritten
      generalize hb' : Key.mk .ingressRoutes b.namespaceId b.name = key at hwritten
      cases hwritten with
      | plain hkind => exact hkind (hb' ▸ rfl)
      | route hd hroute => exact hbase b hb _ hd hroute hb'.symm
      | deployment hd => cases hb'
      | pullSecret hpull => cases hb'
    rw [Option.bind_some, Option.bind_some, hsame]

variable (now' : Timestamp)

theorem keys_rolloutWrites :
    (rolloutWrites settings { r with now := now' } base supplies).map (·.key) =
      (rolloutWrites settings r base supplies).map (·.key) := by
  simp [rolloutWrites, List.map_flatMap, serviceWrites]

theorem shellAt_manifest {e : Supply} {ps : List Place}
    (hps : e.1.strategy.policy = .always → ps ≠ datePlace) :
    ({ r with now := now' }.manifest e).shellAt ps = (r.manifest e).shellAt ps := by
  let d := Deployment.ofService r.unit.app e.1 r.container r.unit.needsPullSecret e.2 r.now
  have hpod : ∀ now,
      Deployment.toJson { d with podAnnotations := e.1.strategy.podAnnotations now } =
        (Deployment.ofService r.unit.app e.1 r.container r.unit.needsPullSecret e.2 now).toJson :=
    fun _ => rfl
  unfold Rollout.manifest
  rw [← hpod, ← hpod]
  unfold Strategy.podAnnotations
  cases hpolicy : e.1.strategy.policy with
  | always =>
    have hdate := Json.differAt_str r.now.render now'.render
    have hannotations := hdate.member "date" [] []
    have hmetadata := hannotations.member "annotations" [("labels", .ofMap d.labels)] []
    have htemplate := hmetadata.member "metadata" [] [("spec", d.podSpec)]
    have hspec := htemplate.member "template"
      [("replicas", .int 1), ("selector", .obj [("matchLabels", .ofMap d.labels)])] []
    have hbody := hspec.member "spec" [("apiVersion", .str "apps/v1"), ("kind", .str "Deployment"),
      ("metadata", .obj d.metadata)] []
    exact hbody ps (hps hpolicy)
  | onImageUpdate => rfl
  | never => rfl

theorem leftBy_serviceWrites {e : Supply} {key : Key} {ps : List Place}
    (hdate : e.1.strategy.policy = .always → key = deploymentKey r.unit.app e.1 →
      ps ≠ datePlace) :
    leftBy (serviceWrites { r with now := now' } base e) key ps =
      leftBy (serviceWrites r base e) key ps := by
  have hleaves : (Write.mk .replace (deploymentKey r.unit.app e.1)
      ({ r with now := now' }.manifest e)).leaves key ps =
        (Write.mk .replace (deploymentKey r.unit.app e.1) (r.manifest e)).leaves key ps := by
    unfold Write.leaves
    split
    · next hkey =>
      have hbody := shellAt_manifest (r := r) now' fun halways => hdate halways hkey
      exact congrArg (fun v _ => v) hbody
    · rfl
  funext old
  unfold serviceWrites
  rw [leftBy_append, leftBy_append]
  change leftBy _ key ps (Write.leaves _ key ps _) = leftBy _ key ps (Write.leaves _ key ps _)
  rw [hleaves]

theorem leftBy_rolloutWrites (hsupplies : supplies.map (·.1) = r.unit.services) {key : Key}
    {ps : List Place} (hps : ¬Renewed r.unit key ps) :
    leftBy (rolloutWrites settings { r with now := now' } base supplies) key ps =
      leftBy (rolloutWrites settings r base supplies) key ps := by
  have hservices : leftBy (supplies.flatMap (serviceWrites { r with now := now' } base)) key ps =
      leftBy (supplies.flatMap (serviceWrites r base)) key ps := by
    apply leftBy_flatMap_congr
    intro e he
    apply leftBy_serviceWrites
    rintro halways rfl rfl
    exact hps (.date (hsupplies ▸ List.mem_map_of_mem he) halways)
  funext old
  change leftBy (pullWrites r.unit ++ _) key ps _ = leftBy (pullWrites r.unit ++ _) key ps _
  rw [leftBy_append, leftBy_append, hservices]

end Plans

section Repeated

variable {keeps : Prop} {settings : Settings} {r : Rollout} {now' : Timestamp}
  {base : Option IngressRoute} {supplies supplies' : List Supply}
  {replies replies' : List (Option Service)} {v v₁ v₂ : OrderedStore}
  (h : Completed keeps settings r r.unit.services (rolloutWrites settings r base supplies) supplies
    replies v v₁)

include h

theorem supplies_eq_of_completed {ws : List Write}
    (hasymm : ∀ {key key'}, v₂.before key key' → ¬v₂.before key' key)
    (h' : Completed keeps settings { r with now := now' } r.unit.services ws supplies' replies'
      v₁ v₂) : supplies' = supplies := by
  -- claims that are in use stay in use, so both supplies are compared in the last state
  have hkept : ∀ e ∈ supplies, Supplied settings r.unit.app v₂ e :=
    fun e he => (h.supplied e he).grows h'.progress.grows
  apply eq_of_map_eq _ hkept h'.supplied (h'.services.trans h.services.symm)
  exact fun he he' hservice => he.unique hasymm he' hservice

theorem merges_of_completed {w : Write} {ps : List Place}
    (hw : w ∈ rolloutWrites settings { r with now := now' } base supplies)
    (hps : ¬Renewed r.unit w.key ps) (hassigned : assigned ps = true) :
    Merges (rolloutWrites settings { r with now := now' } base supplies) v₁.store w.key := by
  constructor
  · have hkey := List.mem_map_of_mem (f := Write.key) hw
    rw [keys_rolloutWrites] at hkey
    obtain ⟨w₁, hw₁, hsame⟩ := List.mem_map.1 hkey
    rw [← hsame]
    exact h.progress.leaves.written w₁ hw₁
  · intro w' hw' hkey
    have hwritten : WrittenBy r.unit w'.mode w'.key :=
      writtenBy_of_mem_rolloutWrites (r := { r with now := now' }) h.services hw'
    rw [hkey] at hwritten
    generalize w'.mode = mode at hwritten
    generalize w.key = key at hwritten hps
    cases hwritten with
    | plain hkind => rfl
    | route hd hroute => rfl
    | deployment hd => exact absurd (.deployment hd hassigned) hps
    | pullSecret hpull => exact absurd (.pullSecret hpull hassigned) hps

variable (h' : Completed keeps settings { r with now := now' } r.unit.services
  (rolloutWrites settings { r with now := now' } base supplies) supplies replies' v₁ v₂)

include h'

theorem sameClaims_of_completed : SameClaims v₁.store v₂.store := by
  apply h'.progress.idle
  intro d hd
  rw [← h.services] at hd
  obtain ⟨e, he, rfl⟩ := List.mem_map.1 hd
  obtain ⟨found, hfound, -⟩ := h.supplied e he
  exact ⟨found, hfound⟩

theorem spot_of_completed {key : Key} {ps : List Place} (hps : ¬Renewed r.unit key ps) :
    v₂.store.spot key ps = v₁.store.spot key ps := by
  by_cases hclaims : key.kind = .claims
  · rw [Store.spot, Store.spot, sameClaims_of_completed h h' key hclaims]
  · cases hassigned : assigned ps with
    | false =>
      -- both plans are the same here, and a plan done twice does the same as done once
      rw [h'.progress.leaves.spots key ps hclaims hassigned,
        leftBy_rolloutWrites now' h.services hps, h.progress.leaves.spots key ps hclaims hassigned]
      exact (settles_leftBy _ key ps).twice _
    | true =>
      by_cases hwritten : ∀ w ∈ rolloutWrites settings { r with now := now' } base supplies,
          key ≠ w.key
      · rw [Store.spot, Store.spot, h'.progress.leaves.others key hclaims hwritten]
      · -- the server's own part of an object stays, since it is not one of those replaced
        push Not at hwritten
        obtain ⟨w, hw, rfl⟩ := hwritten
        exact h'.progress.leaves.merged w.key ps hclaims hassigned
          (merges_of_completed h hw hps hassigned)

theorem replies_of_completed :
    replies'.map (·.map (·.withoutAssigned)) = replies.map (·.map (·.withoutAssigned)) ∧
      (keeps → replies' = replies) := by
  have hsteady := h'.progress.steady
  have hreplied := h.replied
  have hreplied' := h'.replied
  clear h h'
  induction hreplied generalizing replies' with
  | nil =>
    cases hreplied'
    exact ⟨rfl, fun _ => rfl⟩
  | cons hfirst hrest ih =>
    cases hreplied' with
    | cons hfirst' hrest' =>
      obtain ⟨hown, hkept⟩ := hfirst.agree hfirst' hsteady
      obtain ⟨howns, hkepts⟩ := ih hrest'
      constructor
      · rw [List.map_cons, List.map_cons, hown, howns]
      · intro hkeeps
        rw [hkept hkeeps, hkepts hkeeps]

end Repeated

/-- A unit that is deployed again unchanged stays stored as it was, and the answer is the same. Only
what the server assigns anew and the dates of services that are always redeployed may differ. -/
theorem rollOut_repeated {σ : Type} (server : SparingServer σ) {settings : Settings} {r : Rollout}
    (now' : Timestamp) {s s₁ s₂ : σ} {replies replies' : List (Option Service)}
    (hs : server.Valid s) (hannotations : (settings.namespaceAnnotations.map (·.1)).Nodup)
    (hunit : TidyUnit r.unit) (hclaims : ∀ d ∈ r.unit.services, Selectable settings d)
    (hbase : BasedElsewhere settings r.unit)
    (hrun : (rollOut settings r).run server.answer s = (.ok replies, s₁))
    (hrun' : (rollOut settings { r with now := now' }).run server.answer s₁ =
      (.ok replies', s₂)) :
    (∀ key ps, ¬Renewed r.unit key ps →
      (server.stored s₂).spot key ps = (server.stored s₁).spot key ps) ∧
    replies'.map (·.map (·.withoutAssigned)) = replies.map (·.map (·.withoutAssigned)) ∧
    (server.KeepsIdentity → replies' = replies) := by
  obtain ⟨⟨supplies, h⟩, hs₁⟩ := SparingServer.run_of_yields hs
    (yields_rollOut hannotations hunit hclaims) hrun
  obtain ⟨⟨supplies', h'⟩, hs₂⟩ := SparingServer.run_of_yields hs₁
    (yields_rollOut (r := { r with now := now' }) hannotations hunit hclaims) hrun'
  obtain rfl := supplies_eq_of_completed h (server.asymm hs₂) h'
  have hfound : baseIn settings (server.stored s₁) = baseIn settings (server.stored s) :=
    baseIn_of_leaves hbase h.services h.progress.leaves
  change Completed _ _ _ _ (rolloutWrites _ _ (baseIn settings (server.stored s₁)) _) _ _ _ _ at h'
  rw [hfound] at h'
  exact ⟨fun key ps hps => spot_of_completed h h' hps, replies_of_completed h h'⟩

/-- Writes objects of every kind, and its frontend is always redeployed. -/
def storefront : Rollout where
  unit := ⟨.master,
    [{ config := ⟨"frontend", "nginx", none, some [(Path.ofString "/etc/web/a.conf", "x")], 80,
        .standalone⟩
       strategy := .always
       route := .ofService .master "frontend"
       declaredVolumes := ["/data"] },
      { webWith .empty with declaredVolumes := ["/", "/cache"] }],
    [("registry.example", ⟨"user", "password"⟩)]⟩
  container := ⟨none⟩
  now := noon

def storefrontSettings : Settings :=
  { webSettings with runtime := { webSettings.runtime with
      namespaceAnnotations := [("team", "shop")]
      baseIngressRoute := some ⟨"infrastructure", "base"⟩ } }

def evening : Timestamp := { noon with clock := ⟨20, 0, 0, 0, by decide⟩ }

theorem rollOut_repeated_of_storefront :
    ∃ replies replies' s₁ s₂,
      Server.sparing.Valid .empty ∧ (storefrontSettings.namespaceAnnotations.map (·.1)).Nodup ∧
      TidyUnit storefront.unit ∧
      (∀ d ∈ storefront.unit.services, Selectable storefrontSettings d) ∧
      BasedElsewhere storefrontSettings storefront.unit ∧
      (rollOut storefrontSettings storefront).run Server.sparing.answer .empty = (.ok replies, s₁) ∧
      (rollOut storefrontSettings { storefront with now := evening }).run
        Server.sparing.answer s₁ = (.ok replies', s₂) ∧
      (∀ key ps, ¬Renewed storefront.unit key ps →
        (Server.sparing.stored s₂).spot key ps = (Server.sparing.stored s₁).spot key ps) ∧
      replies'.map (·.map (·.withoutAssigned)) = replies.map (·.map (·.withoutAssigned)) ∧
      replies' = replies := by
  obtain ⟨replies, hrun⟩ := exists_run_eq_ok Server.sparing.answer
    (rollOut storefrontSettings storefront) .empty (by decide +kernel)
  obtain ⟨replies', hrun'⟩ := exists_run_eq_ok Server.sparing.answer
    (rollOut storefrontSettings { storefront with now := evening })
    ((rollOut storefrontSettings storefront).run Server.sparing.answer .empty).2 (by decide +kernel)
  have hunit : TidyUnit storefront.unit := by
    intro d hd
    simp only [storefront, List.mem_cons, List.not_mem_nil, or_false] at hd
    rcases hd with rfl | rfl
    · exact tidyRoute_ofService .master "frontend"
    · exact fun m hm => absurd hm List.not_mem_nil
  have hclaims : ∀ d ∈ storefront.unit.services, Selectable storefrontSettings d := by
    simp [Selectable, storefront, webWith, DeployableService.name]
  have hbase : BasedElsewhere storefrontSettings storefront.unit := by
    rintro b ⟨⟩ d hd - hkey
    have hns : AppName.master.namespaceId ≠ "infrastructure" := by decide
    exact hns (congrArg Key.namespaceId hkey)
  obtain ⟨hspots, hcontents, hreplies⟩ := rollOut_repeated Server.sparing evening
    Server.validSparing_empty (by decide) hunit hclaims hbase hrun hrun'
  exact ⟨replies, replies', _, _, Server.validSparing_empty, by decide, hunit, hclaims, hbase,
    hrun, hrun', hspots, hcontents, hreplies Server.keepsIdentity_sparing⟩

/-- A route that is its own base is laid behind itself with every deployment. -/
theorem route_grows_of_selfBased :
    ∃ replies replies' s₁ s₂,
      (∀ d ∈ (webBehind hostRoute).unit.services, d.strategy.policy ≠ .always) ∧
      (rollOut selfBased (webBehind hostRoute)).run Server.sparing.answer .empty =
        (.ok replies, s₁) ∧
      (rollOut selfBased (webBehind hostRoute)).run Server.sparing.answer s₁ =
        (.ok replies', s₂) ∧
      (Server.sparing.stored s₂).spot (routeKey .master (webWith hostRoute))
          [.member "spec", .member "routes", .item 0, .member "match"] ≠
        (Server.sparing.stored s₁).spot (routeKey .master (webWith hostRoute))
          [.member "spec", .member "routes", .item 0, .member "match"] := by
  obtain ⟨replies, hrun⟩ := exists_run_eq_ok Server.sparing.answer
    (rollOut selfBased (webBehind hostRoute)) .empty (by decide +kernel)
  obtain ⟨replies', hrun'⟩ := exists_run_eq_ok Server.sparing.answer
    (rollOut selfBased (webBehind hostRoute))
    ((rollOut selfBased (webBehind hostRoute)).run Server.sparing.answer .empty).2
    (by decide +kernel)
  refine ⟨replies, replies', _, _, by decide, hrun, hrun', ?_⟩
  intro hsame
  have htext := congrArg (·.bind (·.str?)) hsame
  revert htext
  decide +kernel

end Cluster

end PreviewApps
