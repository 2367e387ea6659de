import Mathlib.Data.List.Nodup
import PreviewApps.Proofs.Agreement
import PreviewApps.Proofs.AppName
import PreviewApps.Proofs.Cluster.Contents
import PreviewApps.Proofs.Cluster.Server
import PreviewApps.Proofs.Traefik.Conversion

/-!
Deploying over what earlier deployments have left. Existing objects are patched, and a patch takes
nothing away that it does not name, so what is stored afterwards is what the unit asks for only if
the unit covers what was stored before.
-/

namespace PreviewApps.Cluster

open Program

def overlayAll (c : Option Json) (js : List Json) : Option Json :=
  js.foldl (fun c j => some (overlay j c)) c

def Agreeing (j j' : Json) : Prop := j.Same j' ∧ j'.Covers j

theorem distinct_overlay {j : Json} {c : Option Json} (hj : j.Distinct)
    (hc : ∀ o ∈ c, o.Distinct) : (overlay j c).Distinct := by
  cases c with
  | none => exact hj
  | some o => exact (hc o rfl).mergePatch hj

theorem same_overlay_iff {j : Json} {c : Option Json} (hj : j.Distinct)
    (hc : ∀ o ∈ c, o.Distinct) : (overlay j c).Same j ↔ ∀ o ∈ c, j.Covers o := by
  cases c with
  | none => simp [overlay, Json.Same.refl]
  | some o => simpa [overlay] using Json.same_mergePatch_iff (hc o rfl) hj

theorem covers_of_covers_overlay {j : Json} {c : Option Json} (hj : j.Distinct)
    (hc : ∀ o ∈ c, o.Distinct) (h : j.Covers (overlay j c)) : ∀ o ∈ c, j.Covers o := by
  cases c with
  | none => simp
  | some o => simpa using h.of_mergePatch (hc o rfl) hj

theorem forall_same_overlayAll_iff {c : Option Json} {js : List Json}
    (hc : ∀ o ∈ c, o.Distinct) (hjs : ∀ j ∈ js, j.Distinct) :
    (∀ j ∈ js, ∃ last, overlayAll c js = some last ∧ last.Same j) ↔
      (∀ j ∈ js, ∀ o ∈ c, j.Covers o) ∧ js.Pairwise Agreeing := by
  induction js generalizing c with
  | nil => simp
  | cons j js ih =>
    obtain ⟨hj, hjs⟩ := List.forall_mem_cons.1 hjs
    have hnext : ∀ o ∈ some (overlay j c), o.Distinct := by
      rintro o ⟨⟩
      exact distinct_overlay hj hc
    have ih := ih hnext hjs
    change (∀ j' ∈ j :: js, ∃ last, overlayAll (some (overlay j c)) js = some last ∧ _) ↔ _
    rw [List.forall_mem_cons, List.forall_mem_cons, List.pairwise_cons, ih]
    constructor
    · rintro ⟨⟨last, hlast, hlastSame⟩, hcovered, hpairwise⟩
      have hsame : ∀ j' ∈ js, j.Same j' := by
        intro j' hj'
        obtain ⟨last', hlast', hlastSame'⟩ := ih.2 ⟨hcovered, hpairwise⟩ j' hj'
        obtain rfl : last = last' := Option.some.inj (hlast.symm.trans hlast')
        exact hlastSame.symm.trans hlastSame'
      have hcovers : ∀ o ∈ c, j.Covers o := by
        cases js with
        | nil =>
          obtain rfl : overlay j c = last := Option.some.inj hlast
          exact (same_overlay_iff hj hc).1 hlastSame
        | cons j' js =>
          -- the next content is the same and covers what this one has been laid over
          have hnext := hcovered j' (List.mem_cons_self ..) _ rfl
          have hown := hsame j' (List.mem_cons_self ..)
          exact covers_of_covers_overlay hj hc (hnext.congr hown.symm (Json.Same.refl _))
      have hwritten : (overlay j c).Same j := (same_overlay_iff hj hc).2 hcovers
      refine ⟨⟨hcovers, ?_⟩, ?_, hpairwise⟩
      · intro j' hj' o ho
        exact (hcovers o ho).congr (hsame j' hj') (Json.Same.refl o)
      · intro j' hj'
        exact ⟨hsame j' hj', (hcovered j' hj' _ rfl).congr (Json.Same.refl j') hwritten⟩
    · rintro ⟨⟨hcovers, hrest⟩, hagree, hpairwise⟩
      have hsame : (overlay j c).Same j := (same_overlay_iff hj hc).2 hcovers
      have hcovered : ∀ j' ∈ js, ∀ o ∈ some (overlay j c), j'.Covers o := by
        rintro j' hj' o ⟨⟩
        exact (hagree j' hj').2.congr (Json.Same.refl j') hsame.symm
      refine ⟨?_, hcovered, hpairwise⟩
      cases js with
      | nil => exact ⟨_, rfl, hsame⟩
      | cons j' js =>
        obtain ⟨last, hlast, hlastSame⟩ := ih.2 ⟨hcovered, hpairwise⟩ j' (List.mem_cons_self ..)
        exact ⟨last, hlast, hlastSame.trans (hagree j' (List.mem_cons_self ..)).1.symm⟩

namespace Contents

theorem write_self (key : Key) (j : Json) (c : Contents) :
    c.write key j key = some (overlay j (c key)) := Store.put_self ..

theorem write_of_ne {key k : Key} (h : k ≠ key) (j : Json) (c : Contents) :
    c.write key j k = c k := Store.put_of_ne h ..

theorem writeAll_apply (ws : List (Key × Json)) (c : Contents) (key : Key) :
    c.writeAll ws key = overlayAll (c key) ((ws.filter (·.1 = key)).map (·.2)) := by
  induction ws generalizing c with
  | nil => rfl
  | cons w ws ih =>
    change (c.write w.1 w.2).writeAll ws key = _
    rw [ih]
    by_cases hkey : w.1 = key
    · subst hkey
      rw [write_self, List.filter_cons_of_pos (by simp)]
      rfl
    · rw [write_of_ne (Ne.symm hkey), List.filter_cons_of_neg (by simpa using hkey)]

theorem writeAll_of_notMem {ws : List (Key × Json)} {key : Key} (h : ∀ w ∈ ws, w.1 ≠ key)
    (c : Contents) : c.writeAll ws key = c key := by
  have hnone : ws.filter (·.1 = key) = [] := by simpa using h
  rw [writeAll_apply, hnone]
  rfl

def Tidy (c : Contents) : Prop := ∀ key, ∀ j ∈ c key, j.Distinct

variable {c : Contents} {ws : List (Key × Json)}

theorem Tidy.put (hc : c.Tidy) {j : Json} (hj : j.Distinct) (key : Key) :
    Contents.Tidy (c.put key j) := by
  intro k o ho
  by_cases hk : k = key
  · rw [hk, Store.put_self] at ho
    cases ho
    exact hj
  · rw [Store.put_of_ne hk] at ho
    exact hc k o ho

theorem Tidy.writeAll (hc : c.Tidy) (hws : ∀ w ∈ ws, w.2.Distinct) : (c.writeAll ws).Tidy := by
  induction ws generalizing c with
  | nil => exact hc
  | cons w ws ih =>
    obtain ⟨hw, hws⟩ := List.forall_mem_cons.1 hws
    exact ih (hc.put (distinct_overlay hw (hc w.1)) w.1) hws

end Contents

section Keyed

variable {κ ν : Type} [DecidableEq κ]

theorem forall_keyed_iff (ws : List (κ × ν)) (p : κ → ν → Prop) :
    (∀ key, ∀ j ∈ (ws.filter (·.1 = key)).map (·.2), p key j) ↔ ∀ w ∈ ws, p w.1 w.2 := by
  constructor
  · intro h w hw
    exact h w.1 w.2 (List.mem_map_of_mem (List.mem_filter.2 ⟨hw, by simp⟩))
  · intro h key j hj
    obtain ⟨w, hw, rfl⟩ := List.mem_map.1 hj
    obtain ⟨hw, hkey⟩ := List.mem_filter.1 hw
    simp only [decide_eq_true_eq] at hkey
    exact hkey ▸ h w hw

theorem pairwise_keyed_iff (ws : List (κ × ν)) (r : ν → ν → Prop) :
    (∀ key, ((ws.filter (·.1 = key)).map (·.2)).Pairwise r) ↔
      ws.Pairwise fun w w' => w.1 = w'.1 → r w.2 w'.2 := by
  constructor
  · intro h
    rw [List.pairwise_iff_forall_sublist]
    intro w w' hsub hkey
    have hpair := (h w.1).sublist ((hsub.filter (·.1 = w.1)).map (·.2))
    simpa [hkey] using hpair
  · intro h key
    rw [List.pairwise_map]
    apply (h.filter (·.1 = key)).imp_of_mem
    intro w w' hw hw' hr
    have hkey := (List.mem_filter.1 hw).2
    have hkey' := (List.mem_filter.1 hw').2
    simp only [decide_eq_true_eq] at hkey hkey'
    exact hr (hkey.trans hkey'.symm)

end Keyed

theorem forall_same_writeAll_iff {c : Contents} {ws : List (Key × Json)} (hc : c.Tidy)
    (hws : ∀ w ∈ ws, w.2.Distinct) :
    (∀ w ∈ ws, ∃ last, c.writeAll ws w.1 = some last ∧ last.Same w.2) ↔
      (∀ w ∈ ws, ∀ o ∈ c w.1, w.2.Covers o) ∧
        ws.Pairwise fun w w' => w.1 = w'.1 → Agreeing w.2 w'.2 := by
  have hdistinct := (forall_keyed_iff ws fun _ j => j.Distinct).2 hws
  have hstored := forall_keyed_iff ws fun key j =>
    ∃ last, c.writeAll ws key = some last ∧ last.Same j
  have hcovered := forall_keyed_iff ws fun key j => ∀ o ∈ c key, j.Covers o
  have hagreeing := pairwise_keyed_iff ws Agreeing
  apply hstored.symm.trans
  apply Iff.trans _ (and_congr hcovered hagreeing)
  rw [← forall_and]
  simp only [Contents.writeAll_apply]
  exact forall_congr' fun key => forall_same_overlayAll_iff (hc key) (hdistinct key)

section Tidy

variable {app : AppName} {base : Option IngressRoute} {d : DeployableService} {u : DeploymentUnit}

def TidyRoute (r : IngressRoute) : Prop :=
  ∀ m ∈ r.middlewares, (Json.obj (m.spec.getD [])).Distinct

theorem distinct_fileContents : ∀ w ∈ fileContents app d, w.2.Distinct := by
  intro w hw
  unfold fileContents at hw
  split at hw
  · cases hw
  · rw [List.mem_singleton.1 hw]
    exact Json.distinct_ofMap (Assoc.nodup_keys_ofList _)

theorem distinct_of_mem_map {α : Type} {f : α → Json} {o : Option α} (h : ∀ a, (f a).Distinct) :
    ∀ v ∈ o.map f, v.Distinct := by
  intro v hv
  obtain ⟨a, -, rfl⟩ := Option.map_eq_some_iff.1 hv
  exact h a

theorem distinct_toJson (s : Traefik.IngressRouteSpec) : s.toJson.Distinct := by
  have htls : ∀ t : Traefik.Tls, t.toJson.Distinct := by
    intro t
    apply Json.distinct_record (by simp)
    simp only [List.forall_mem_singleton]
    exact distinct_of_mem_map fun resolver => Json.distinct_of_ne_obj (by simp)
  apply Json.distinct_record (by simp)
  simp only [List.forall_mem_cons]
  refine ⟨?_, ?_, distinct_of_mem_map htls, by simp⟩
  · exact distinct_of_mem_map fun es => Json.distinct_of_ne_obj (by simp [Traefik.strings])
  · exact distinct_of_mem_map fun rs => Json.distinct_of_ne_obj (by simp)

theorem distinct_routeContents (h : TidyRoute d.route) :
    ∀ w ∈ routeContents app d, w.2.Distinct := by
  intro w hw
  rcases List.mem_append.1 hw with hw | hw
  · obtain ⟨r, hr, rfl⟩ := List.mem_map.1 hw
    obtain ⟨m, hm, rfl⟩ := List.mem_map.1 hr
    exact h m (IngressRoute.mem_middlewares_of_mem_inlineMiddlewares hm)
  · obtain ⟨r, -, rfl⟩ := List.mem_map.1 hw
    exact distinct_toJson r.spec

theorem tidyRoute_placedBehind (hd : TidyRoute d.route) (hbase : ∀ b ∈ base, TidyRoute b) :
    TidyRoute (placedBehind base d).route := by
  cases base with
  | none => exact hd
  | some b =>
    intro m hm
    rcases IngressRoute.mem_middlewares_behind hm with hm | hm
    · exact hbase b rfl m hm
    · exact hd m hm

theorem tidyRoute_of_convertJson {j : Json} {b : IngressRoute}
    (h : Traefik.convertJson j = .ok b) : TidyRoute b := by
  intro m hm
  have hspec : m.spec = none := Option.isNone_iff_eq_none.1 (Traefik.isRef_of_convertJson h m hm)
  rw [hspec]
  exact Json.distinct_obj List.nodup_nil (by simp)

theorem tidyRoute_of_mem_baseIn {settings : Settings} {m : Store} :
    ∀ b ∈ baseIn settings m, TidyRoute b := by
  intro b hb
  obtain ⟨r, -, hb⟩ := Option.bind_eq_some_iff.1 hb
  obtain ⟨j, -, hb⟩ := Option.bind_eq_some_iff.1 hb
  cases hread : Traefik.convertJson j with
  | error e =>
    rw [hread] at hb
    cases hb
  | ok b' =>
    rw [hread] at hb
    cases hb
    exact tidyRoute_of_convertJson hread

def TidyUnit (u : DeploymentUnit) : Prop := ∀ d ∈ u.services, TidyRoute d.route

theorem distinct_unitContents (hu : TidyUnit u) (settings : Settings) (m : Store) :
    ∀ w ∈ u.services.flatMap (serviceContents u.app (baseIn settings m)), w.2.Distinct := by
  intro w hw
  obtain ⟨d, hd, hw⟩ := List.mem_flatMap.1 hw
  rcases List.mem_append.1 hw with hw | hw
  · exact distinct_fileContents w hw
  · exact distinct_routeContents (tidyRoute_placedBehind (hu d hd) tidyRoute_of_mem_baseIn) w hw

theorem tidy_pulled {c : Contents} (hc : c.Tidy) (u : DeploymentUnit) : (pulled u c).Tidy := by
  unfold pulled
  split
  · exact hc.put (Json.distinct_ofMap (by simp [Secret.forImagePull])) _
  · exact hc

end Tidy

structure Rollout where
  unit : DeploymentUnit
  container : ContainerConfig
  now : Timestamp

def rollOut (settings : Settings) (r : Rollout) : Program (List (Option Service)) :=
  deploy settings r.container r.now r.unit

theorem ensures_tidy_rollOut {settings : Settings} {r : Rollout} {m : Store}
    (hr : TidyUnit r.unit) (hm : (contents m).Tidy) :
    (rollOut settings r).Ensures m fun _ m' => (contents m').Tidy := by
  apply (ensures_deploy settings r.container r.now r.unit).mono
  intro _ m' hm'
  rw [hm']
  exact (tidy_pulled hm r.unit).writeAll (distinct_unitContents hr settings m)

theorem ensures_tidy_rollOuts {settings : Settings} {rs : List Rollout} {m : Store}
    (hrs : ∀ r ∈ rs, TidyUnit r.unit) (hm : (contents m).Tidy) :
    (rs.mapM (rollOut settings)).Ensures m fun _ m' => (contents m').Tidy :=
  ensures_mapM (I := fun m => (contents m).Tidy)
    (fun r hr _ hm => ensures_tidy_rollOut (hrs r hr) hm) hm

section Applied

variable (app : AppName) (base : Option IngressRoute)

def routeKey (d : DeployableService) : Key :=
  ⟨.ingressRoutes, app.namespaceId, app.ingressRouteName d.name⟩

/-- Stored are the contents that a service asks for, and no route if it has none. -/
structure Applied (m : Store) (d : DeployableService) : Prop where
  stored : ∀ w ∈ serviceContents app base d, ∃ j, contents m w.1 = some j ∧ j.Same w.2
  unrouted : d.route.isEmpty → m (routeKey app d) = none

/-- The contents that the services ask for cover those that are found, agree where they are for one
object, and leave no route of a service that has none. -/
structure Fits (ds : List DeployableService) (found : Contents) : Prop where
  covered : ∀ w ∈ ds.flatMap (serviceContents app base), ∀ old ∈ found w.1, w.2.Covers old
  agreeing : (ds.flatMap (serviceContents app base)).Pairwise fun w w' =>
    w.1 = w'.1 → Agreeing w.2 w'.2
  unrouted : ∀ d ∈ ds, d.route.isEmpty → found (routeKey app d) = none

variable {app base}

theorem contents_eq_none_iff (m : Store) (d : DeployableService) :
    contents m (routeKey app d) = none ↔ m (routeKey app d) = none := Option.map_eq_none_iff

theorem notMem_serviceContents {ds : List DeployableService} (hnames : (ds.map (·.name)).Nodup)
    {d : DeployableService} (hd : d ∈ ds) (hroute : d.route.isEmpty = true) :
    ∀ w ∈ ds.flatMap (serviceContents app base), w.1 ≠ routeKey app d := by
  intro w hw hkey
  obtain ⟨d', hd', hw⟩ := List.mem_flatMap.1 hw
  rcases List.mem_append.1 hw with hw | hw
  · unfold fileContents at hw
    split at hw
    · cases hw
    · rw [List.mem_singleton.1 hw] at hkey
      simp [routeKey] at hkey
  · by_cases hroute' : d'.route.isEmpty = true
    · rw [routeContents_of_isEmpty ((isEmpty_placedBehind base d').trans hroute')] at hw
      cases hw
    · rcases List.mem_append.1 hw with hw | hw
      · obtain ⟨r, -, rfl⟩ := List.mem_map.1 hw
        simp [routeKey] at hkey
      · obtain ⟨r, -, rfl⟩ := List.mem_map.1 hw
        have hname : d'.name = d.name := AppName.ingressRouteName_inj (congrArg Key.name hkey)
        rw [List.inj_on_of_nodup_map hnames hd' hd hname] at hroute'
        exact hroute' hroute

theorem forall_applied_iff {u : DeploymentUnit} {m m' : Store} (hnames : u.serviceNames.Nodup)
    (hm : (pulled u (contents m)).Tidy)
    (hunit : ∀ w ∈ u.services.flatMap (serviceContents u.app base), w.2.Distinct)
    (hm' : contents m' =
      (pulled u (contents m)).writeAll (u.services.flatMap (serviceContents u.app base))) :
    (∀ d ∈ u.services, Applied u.app base m' d) ↔
      Fits u.app base u.services (pulled u (contents m)) := by
  have hstored := forall_same_writeAll_iff hm hunit
  rw [← hm'] at hstored
  have hroute : ∀ d ∈ u.services, d.route.isEmpty = true →
      (m' (routeKey u.app d) = none ↔ pulled u (contents m) (routeKey u.app d) = none) := by
    intro d hd hempty
    rw [← contents_eq_none_iff, hm',
      Contents.writeAll_of_notMem (notMem_serviceContents hnames hd hempty)]
  constructor
  · intro h
    have hall : ∀ w ∈ u.services.flatMap (serviceContents u.app base),
        ∃ j, contents m' w.1 = some j ∧ j.Same w.2 := by
      intro w hw
      obtain ⟨d, hd, hw⟩ := List.mem_flatMap.1 hw
      exact (h d hd).stored w hw
    obtain ⟨hcovered, hagreeing⟩ := hstored.1 hall
    refine ⟨hcovered, hagreeing, fun d hd hempty => ?_⟩
    exact (hroute d hd hempty).1 ((h d hd).unrouted hempty)
  · rintro ⟨hcovered, hagreeing, hunrouted⟩ d hd
    have hall := hstored.2 ⟨hcovered, hagreeing⟩
    refine ⟨fun w hw => hall w (List.mem_flatMap.2 ⟨d, hd, hw⟩), fun hempty => ?_⟩
    exact (hroute d hd hempty).2 (hunrouted d hd hempty)

/-- After a run of deployments the last one is applied exactly if its unit fits what the earlier
ones have left. -/
theorem rollOut_applied_iff {σ : Type} (api : ApiServer σ) (settings : Settings)
    {earlier : List Rollout} {last : Rollout} {s s₁ s₂ : σ}
    {replies : List (List (Option Service))} {reply : List (Option Service)}
    (hs : api.Valid s) (hstored : (contents (api.stored s)).Tidy)
    (hearlier : ∀ r ∈ earlier, TidyUnit r.unit) (hlast : TidyUnit last.unit)
    (hnames : last.unit.serviceNames.Nodup)
    (hrun : (earlier.mapM (rollOut settings)).run api.answer s = (.ok replies, s₁))
    (hrunLast : (rollOut settings last).run api.answer s₁ = (.ok reply, s₂)) :
    (∀ d ∈ last.unit.services,
        Applied last.unit.app (baseIn settings (api.stored s₁)) (api.stored s₂) d) ↔
      Fits last.unit.app (baseIn settings (api.stored s₁)) last.unit.services
        (pulled last.unit (contents (api.stored s₁))) := by
  obtain ⟨htidy, hs₁⟩ := run_of_ensures hs (ensures_tidy_rollOuts hearlier hstored) hrun
  obtain ⟨hcontents, -⟩ := run_of_ensures hs₁
    (ensures_deploy settings last.container last.now last.unit) hrunLast
  exact forall_applied_iff hnames (tidy_pulled htidy last.unit)
    (distinct_unitContents hlast settings _) hcontents

end Applied

def selfBased : Settings :=
  ⟨⟨.kubernetes, [], none, some ⟨"master", "master-web-ingress-route"⟩⟩, ⟨none⟩, [], none, none⟩

def webWith (route : IngressRoute) : DeployableService where
  config := ⟨"web", "nginx", none, none, 80, .standalone⟩
  strategy := .never
  route := route
  declaredVolumes := []

def webBehind (route : IngressRoute) : Rollout where
  unit := ⟨.master, [webWith route], []⟩
  container := ⟨none⟩
  now := noon

def hostRoute : IngressRoute := .ofRule (.matcher "Host" ["a"])

theorem tidyRoute_ofRule (e : Rule) : TidyRoute (.ofRule e) := by
  simp [TidyRoute, IngressRoute.ofRule, IngressRoute.middlewares]

theorem tidyRoute_ofService (app : AppName) (service : String) :
    TidyRoute (.ofService app service) := by
  intro m hm
  have hspec : ∃ path, m.spec = some (IngressRoute.stripPrefix path) := by
    simp only [IngressRoute.ofService, IngressRoute.middlewares, List.flatMap_singleton,
      List.mem_singleton] at hm
    exact ⟨_, by rw [hm]⟩
  obtain ⟨path, hspec⟩ := hspec
  rw [hspec]
  have hprefixes : (Json.obj [("prefixes", .arr [.str path])]).Distinct :=
    Json.distinct_obj (List.nodup_singleton _) (by simp [Json.distinct_of_ne_obj])
  refine Json.distinct_obj (List.nodup_singleton _) ?_
  simpa [IngressRoute.stripPrefix] using hprefixes

theorem tidy_empty : (contents Server.empty.stored).Tidy := by
  intro key j hj
  simp [contents, Server.stored, Server.empty] at hj

theorem rollOut_applied_iff_after_hostRoute :
    ∃ replies reply s₁ s₂,
      ([webBehind hostRoute].mapM (rollOut selfBased)).run Server.answer .empty =
        (.ok replies, s₁) ∧
      (rollOut selfBased (webBehind (.ofService .master "web"))).run Server.answer s₁ =
        (.ok reply, s₂) ∧
      ((∀ d ∈ (webBehind (.ofService .master "web")).unit.services,
          Applied .master (baseIn selfBased s₁.stored) s₂.stored d) ↔
        Fits .master (baseIn selfBased s₁.stored)
          (webBehind (.ofService .master "web")).unit.services
          (pulled (webBehind (.ofService .master "web")).unit (contents s₁.stored))) := by
  obtain ⟨replies, hrun⟩ := exists_run_eq_ok Server.answer
    ([webBehind hostRoute].mapM (rollOut selfBased)) .empty (by decide +kernel)
  obtain ⟨reply, hrunLast⟩ := exists_run_eq_ok Server.answer
    (rollOut selfBased (webBehind (.ofService .master "web")))
    (([webBehind hostRoute].mapM (rollOut selfBased)).run Server.answer .empty).2
    (by decide +kernel)
  have hearlier : ∀ r ∈ [webBehind hostRoute], TidyUnit r.unit := by
    simp [TidyUnit, webBehind, webWith, hostRoute, tidyRoute_ofRule]
  have hlast : TidyUnit (webBehind (.ofService .master "web")).unit := by
    simp [TidyUnit, webBehind, webWith, tidyRoute_ofService]
  exact ⟨replies, reply, _, _, hrun, hrunLast,
    rollOut_applied_iff Server.api selfBased Server.valid_empty tidy_empty hearlier hlast
      (by decide) hrun hrunLast⟩

/-- A service keeps its route although it has none any more. -/
theorem route_stays_after_hostRoute :
    ∃ replies reply s₁ s₂,
      ([webBehind hostRoute].mapM (rollOut selfBased)).run Server.answer .empty =
        (.ok replies, s₁) ∧
      (rollOut selfBased (webBehind .empty)).run Server.answer s₁ = (.ok reply, s₂) ∧
      (webBehind .empty).unit.serviceNames.Nodup ∧
      ¬∀ d ∈ (webBehind .empty).unit.services,
        Applied .master (baseIn selfBased s₁.stored) s₂.stored d := by
  obtain ⟨replies, hrun⟩ := exists_run_eq_ok Server.answer
    ([webBehind hostRoute].mapM (rollOut selfBased)) .empty (by decide +kernel)
  obtain ⟨reply, hrunLast⟩ := exists_run_eq_ok Server.answer
    (rollOut selfBased (webBehind .empty))
    (([webBehind hostRoute].mapM (rollOut selfBased)).run Server.answer .empty).2
    (by decide +kernel)
  have hkept : (((rollOut selfBased (webBehind .empty)).run Server.answer
      (([webBehind hostRoute].mapM (rollOut selfBased)).run Server.answer .empty).2).2.stored
        (routeKey .master (webWith .empty))).isSome = true := by
    decide +kernel
  refine ⟨replies, reply, _, _, hrun, hrunLast, by decide, ?_⟩
  intro happlied
  have hgone := (happlied (webWith .empty) (List.mem_singleton_self _)).unrouted rfl
  rw [hgone] at hkept
  cases hkept

/-- A resolver that is left out later stays as well. -/
example :
    let secured := { hostRoute with entryPoints := ["websecure"], certResolver := some "acme" }
    let settings := { selfBased with runtime := ⟨.kubernetes, [], none, none⟩ }
    ((contents ((([secured, hostRoute].map webBehind).mapM (rollOut settings)).run
      Server.answer .empty).2.stored (routeKey .master (webWith hostRoute))).bind
        (·.inner ["tls", "certResolver"])).isSome = true := by
  decide +kernel

end PreviewApps.Cluster
