import PreviewApps.Proofs.Cluster.Server
import PreviewApps.Proofs.Query

/-!
The two backends agree: on every run, a cluster behind any API server and the backend in memory give
the same replies and show the same services after every step.
-/

namespace PreviewApps

open Cluster Memory

/-- A deployment carries the times that the clocks of the two backends show. -/
inductive Step
  | deploy (unit : DeploymentUnit) (container : ContainerConfig)
    (clusterTime memoryTime : Timestamp)
  | setStatus (app : AppName) (service : String) (status : ServiceStatus)
  | stop (app : AppName)

inductive Reply
  | deployed (services : List (Option Service))
  | changed (service : Option Service)
  | stopped (services : List Service)

/-- Replies of one kind with the same outlines; stopped services come in any order. -/
def Reply.Agrees : Reply → Reply → Prop
  | deployed ss, deployed ss' => ss.map (·.map (·.outline)) = ss'.map (·.map (·.outline))
  | changed s, changed s' => s.map (·.outline) = s'.map (·.outline)
  | stopped ss, stopped ss' => (ss.map (·.outline)).Perm (ss'.map (·.outline))
  | _, _ => False

namespace Step

def app : Step → AppName
  | deploy u _ _ _ => u.app
  | setStatus app _ _ => app
  | stop app => app

def Named : Step → Prop
  | deploy u _ _ _ => ∀ d ∈ u.services, d.name ≠ ""
  | _ => True

def onCluster (settings : Settings) : Step → Program Reply
  | deploy u container now _ => Reply.deployed <$> Cluster.deploy settings container now u
  | setStatus app service status => Reply.changed <$> Cluster.setStatus app service status
  | stop app => Reply.stopped <$> Cluster.stop app

def inMemory (b : Backend) : Step → Reply × Backend
  | deploy u _ _ now => (.deployed ((b.deploy u now).1.map some), (b.deploy u now).2)
  | setStatus app service status =>
    (.changed (b.setStatus app service status).1, (b.setStatus app service status).2)
  | stop app => (.stopped (b.stop app).1, (b.stop app).2)

end Step

def clusterTrace {σ : Type} (answer : Call → σ → Answer × σ) (settings : Settings) :
    List Step → σ → List (Except Fault Reply × Except Fault Groups)
  | [], _ => []
  | st :: sts, s =>
    let (reply, s) := (st.onCluster settings).run answer s
    let (groups, s) := services.run answer s
    (reply, groups) :: clusterTrace answer settings sts s

def memoryTrace : List Step → Backend → List (Reply × Groups)
  | [], _ => []
  | st :: sts, b =>
    let (reply, b) := st.inMemory b
    (reply, b.services) :: memoryTrace sts b

def Agree (shown : Except Fault Reply × Except Fault Groups) (expected : Reply × Groups) : Prop :=
  ∃ reply groups, shown = (.ok reply, .ok groups) ∧ reply.Agrees expected.1 ∧
    SameGroups groups expected.2

variable {A : AppName → Prop} {m : Store} {b : Backend}

theorem Step.valid_inMemory (hA : AppName.Separate A) (hb : b.Valid A) {st : Step}
    (hst : A st.app) : (st.inMemory b).2.Valid A := by
  cases st with
  | deploy u container now now' => exact Backend.valid_deploy hA hst now' hb
  | setStatus app service status => exact Backend.valid_setStatus app service status hb
  | stop app => exact Backend.valid_stop app hb

theorem meets_onCluster (hA : AppName.Separate A) (hb : b.Valid A) (h : Mirrors A m b.view)
    (settings : Settings) {st : Step} (hst : A st.app) (hnamed : st.Named) :
    (st.onCluster settings).Meets m fun reply m' =>
      reply.Agrees (st.inMemory b).1 ∧ Mirrors A m' (st.inMemory b).2.view := by
  cases st with
  | deploy u container now now' =>
    have hdeploy := meets_deploy hA h settings container now now' hst hnamed b.issued
    refine Program.Meets.bind (hdeploy.mono ?_)
    rintro rs m' ⟨hrs, hm'⟩
    rw [← Backend.view_deploy] at hm'
    refine ⟨?_, hm'⟩
    change rs.map _ = ((Backend.start u.app now' b.issued u.services).map some).map _
    rw [List.map_map]
    exact hrs
  | setStatus app service status =>
    change A app at hst
    obtain ⟨hss, hview⟩ := Backend.stopped_of_valid app hb
    refine Program.Meets.bind ((meets_setStatus hA h hst hss hview service status).mono ?_)
    rintro r m' ⟨hr, hm'⟩
    change r.map _ = (b.setStatus app service status).1.map _ ∧
      Mirrors A m' (b.setStatus app service status).2.view
    cases hf : b.view app.namespaceId service with
    | none =>
      rw [hf] at hr hm'
      rw [Backend.setStatus_of_view_eq_none hf]
      exact ⟨hr, hm'⟩
    | some s =>
      obtain ⟨a, -, -, hset⟩ := Backend.setStatus_of_view_eq_some hf status
      rw [hf] at hr hm'
      rw [Backend.view_setStatus hf, hset]
      exact ⟨hr, hm'⟩
  | stop app =>
    change A app at hst
    obtain ⟨hss, hview⟩ := Backend.stopped_of_valid app hb
    refine Program.Meets.bind ((meets_stop hA h hst hss hview).mono ?_)
    rintro ss m' ⟨hperm, hm'⟩
    rw [← Backend.view_stop app hb] at hm'
    exact ⟨hperm, hm'⟩

theorem meets_services_of_valid (hA : AppName.Separate A) (hb : b.Valid A)
    (h : Mirrors A m b.view) :
    services.Meets m fun gs m' => SameGroups gs b.services ∧ Mirrors A m' b.view := by
  have hservices := meets_services hA h (Backend.grouped_services hb) (Backend.nodup_ungrouped hb)
    (Backend.mem_ungrouped_iff hb)
  refine hservices.mono ?_
  rintro gs _ ⟨rfl, hsame⟩
  exact ⟨hsame, h⟩

theorem traces_agree {σ : Type} (api : ApiServer σ) (settings : Settings)
    (hA : AppName.Separate A) {steps : List Step} (hsteps : ∀ st ∈ steps, A st.app ∧ st.Named)
    {s : σ} (hs : api.Valid s) (hb : b.Valid A) (h : Mirrors A (api.stored s) b.view) :
    List.Forall₂ Agree (clusterTrace api.answer settings steps s) (memoryTrace steps b) := by
  induction steps generalizing s b with
  | nil => exact .nil
  | cons st steps ih =>
    obtain ⟨hst, hnamed⟩ := hsteps st (List.mem_cons_self ..)
    have hb' := st.valid_inMemory hA hb hst
    obtain ⟨reply, hreply, ⟨hagrees, hm₁⟩, hs₁⟩ :=
      Program.run_of_meets hs (meets_onCluster hA hb h settings hst hnamed)
    -- reading all services is a call as well, so the server may have changed by it
    obtain ⟨groups, hgroups, ⟨hsame, hm₂⟩, hs₂⟩ :=
      Program.run_of_meets hs₁ (meets_services_of_valid hA hb' hm₁)
    refine .cons ⟨reply, groups, ?_, hagrees, hsame⟩ ?_
    · exact Prod.ext hreply hgroups
    · exact ih (fun st' hst' => hsteps st' (List.mem_cons_of_mem st hst')) hs₂ hb' hm₂

theorem backends_agree {σ : Type} (api : ApiServer σ) (settings : Settings) {steps : List Step}
    {s : σ} (hs : api.Valid s) (hnew : ∀ ns name, api.stored s ⟨.deployments, ns, name⟩ = none)
    (hnamed : ∀ st ∈ steps, st.Named)
    (hspelled : ∀ st ∈ steps, ∀ st' ∈ steps, st.app.namespaceId = st'.app.namespaceId →
      st.app = st'.app) :
    List.Forall₂ Agree (clusterTrace api.answer settings steps s) (memoryTrace steps .empty) := by
  let A (app : AppName) : Prop := ∃ st ∈ steps, st.app = app
  have hA : AppName.Separate A := by
    rintro _ _ ⟨st, hst, rfl⟩ ⟨st', hst', rfl⟩ hns
    exact hspelled st hst st' hst' hns
  have hsteps : ∀ st ∈ steps, A st.app ∧ st.Named := fun st hst => ⟨⟨st, hst, rfl⟩, hnamed st hst⟩
  refine traces_agree api settings hA hsteps hs (Backend.valid_empty A) (mirrors_nothing ?_)
  rintro ⟨kind, ns, name⟩ hkind
  have hkind : kind = .deployments := hkind
  rw [hkind]
  exact hnew ns name

def webService : DeployableService where
  config :=
    { serviceName := "web"
      image := "docker.io/library/nginx:1.25"
      env := some [.replicatedOf "MODE" "demo", ⟨"LEVEL", "info", false, false⟩]
      files := none
      port := 80
      containerType := .standalone }
  strategy := .never
  route := .ofService .master "web"
  declaredVolumes := ["/var/lib/data"]

def shop : AppName := ⟨"Shop", by decide +kernel⟩

theorem valid_newYear : Date.Valid 2024 1 1 := by decide

def noon : Timestamp := ⟨⟨2024, 1, 1, valid_newYear⟩, ⟨12, 0, 0, 0, by decide⟩, some .utc⟩

def webSettings : Settings :=
  ⟨⟨.kubernetes, [], some ⟨1024, "local-path"⟩, none⟩, ⟨none⟩, [], none, none⟩

/-- Deployed, paused, deployed again and stopped; another application was never there. -/
def webRun : List Step :=
  [.deploy ⟨.master, [webService], []⟩ ⟨none⟩ noon noon, .setStatus .master "web" .paused,
    .deploy ⟨.master, [webService], []⟩ ⟨none⟩ noon noon, .stop shop, .stop .master]

theorem named_webRun : ∀ st ∈ webRun, st.Named := by
  have hweb : ∀ d ∈ [webService], d.name ≠ "" := by
    intro d hd
    rw [List.mem_singleton.1 hd]
    decide
  intro st hst
  simp only [webRun, List.mem_cons, List.not_mem_nil, or_false] at hst
  rcases hst with rfl | rfl | rfl | rfl | rfl
  · exact hweb
  · trivial
  · exact hweb
  · trivial
  · trivial

theorem separate_webRun : ∀ st ∈ webRun, ∀ st' ∈ webRun,
    st.app.namespaceId = st'.app.namespaceId → st.app = st'.app := by
  have happs : ∀ st ∈ webRun, st.app ∈ [AppName.master, shop] := by
    intro st hst
    simp only [webRun, List.mem_cons, List.not_mem_nil, or_false] at hst
    rcases hst with rfl | rfl | rfl | rfl | rfl <;> simp [Step.app]
  have hns : ∀ a ∈ [AppName.master, shop], ∀ a' ∈ [AppName.master, shop],
      a.namespaceId = a'.namespaceId → a = a' := by decide +kernel
  exact fun st hst st' hst' => hns _ (happs st hst) _ (happs st' hst')

theorem backends_agree_on_webRun :
    (Server.Valid .empty ∧ (∀ ns name, Server.empty.stored ⟨.deployments, ns, name⟩ = none) ∧
      (∀ st ∈ webRun, st.Named) ∧ ∀ st ∈ webRun, ∀ st' ∈ webRun,
        st.app.namespaceId = st'.app.namespaceId → st.app = st'.app) ∧
    List.Forall₂ Agree (clusterTrace Server.answer webSettings webRun .empty)
      (memoryTrace webRun .empty) := by
  have hnew : ∀ ns name, Server.empty.stored ⟨.deployments, ns, name⟩ = none := fun _ _ => rfl
  exact ⟨⟨Server.valid_empty, hnew, named_webRun, separate_webRun⟩,
    backends_agree Server.api webSettings Server.valid_empty hnew named_webRun separate_webRun⟩

end PreviewApps
