import PreviewApps.Cluster.Query
import PreviewApps.Proofs.Cluster.History
import PreviewApps.Proofs.Cluster.Logs
import PreviewApps.Proofs.Cluster.Selectors
import PreviewApps.Proofs.Cluster.WellFormed

/-!
Absent things and failures. Stopping an application, scaling a service and reading its log take some
failures of calls for the answer that there is nothing. Every other failure is reported as it is and
ends the operation, and nothing is changed unless a service was found.
-/

namespace PreviewApps.Cluster

open Program

namespace Call

/-- The statuses of a failed call that say that there is nothing. A container that is not created
yet has no log. -/
def absences : Call → List Int
  | .podLog .. => [400, 404]
  | _ => [404]

def isChange : Call → Bool
  | .create .. => true
  | .patch .. => true
  | .replace .. => true
  | .delete .. => true
  | _ => false

end Call

def Passed (h : History) : Prop := ∀ c e, (c, .error e) ∈ h → e.status ∈ c.absences

def WellFormed : Exchange → Prop
  | (.list .deployments _ _, .ok j) => ∀ item ∈ j.items, IsDeployment item
  | (.patch .deployments _ _ _, .ok j) => IsDeployment j
  | (.list .pods _ _, .ok j) => ∀ pod ∈ j.items, IsPod pod
  | (.podLog .., .ok j) => IsLog j
  | _ => True

/-- Only a failure that does not say that there is nothing ends an operation, unless an answer
was not of its form. Changes are made only when they are due. -/
def candour (due : History → Call → Prop) : Contract where
  expects _ := True
  before h c := Passed h ∧ (c.isChange = true → due h c)
  faulty h f := (∃ past c e action, h = past ++ [(c, .error e)] ∧ Passed past ∧
    e.status ∉ c.absences ∧ f = .api action e) ∨ (Passed h ∧ ∃ x ∈ h, ¬WellFormed x)

section Contract

variable {α : Type} {due : History → Call → Prop} {h : History} {c : Call} {a : Answer}
  {action : Action}

theorem passed_nil : Passed [] := fun _ _ hmem => absurd hmem List.not_mem_nil

theorem Passed.concat (hh : Passed h) (ha : ∀ e, a = .error e → e.status ∈ c.absences) :
    Passed (h ++ [(c, a)]) :=
  forall_error_concat hh ha

theorem asks_may (hh : Passed h) (hdue : c.isChange = true → due h c) :
    (may c.absences action c).Honours (candour due) h fun h' found =>
      Passed h' ∧ ∀ j, found = some j → h' = h ++ [(c, .ok j)] := by
  refine honours_may ⟨hh, hdue⟩ ?_ ?_ ?_
  · intro j _
    refine ⟨hh.concat nofun, ?_⟩
    rintro _ ⟨⟩
    rfl
  · intro e he
    refine ⟨hh.concat ?_, nofun⟩
    rintro _ ⟨⟩
    exact he
  · exact fun e he => .inl ⟨h, c, e, action, rfl, hh, he, rfl⟩

theorem reads_ofExcept {r : Except Fault α} {Q : History → α → Prop} {x : Exchange}
    (hh : Passed (h ++ [x])) (hr : WellFormed x → ∃ a, r = .ok a)
    (hQ : ∀ a, r = .ok a → Q (h ++ [x]) a) : (ofExcept r).Honours (candour due) (h ++ [x]) Q := by
  refine honours_ofExcept hQ ?_
  intro e he
  refine .inr ⟨hh, x, by simp, fun hform => ?_⟩
  obtain ⟨a, ha⟩ := hr hform
  rw [he] at ha
  cases ha

end Contract

section Services

variable {app : AppName} {due : History → Call → Prop}

def listCall (app : AppName) : Call :=
  .list .deployments app.namespaceId (Labels.ofApp app).selector

/-- So far only the deployments of the application were listed, and the service was read from
them. It is one of the application if the server respects the selector. -/
def Found (app : AppName) (r : Service) (h : History) : Prop :=
  ∃ found, h = [(listCall app, .ok found)] ∧ ∃ item ∈ found.items, serviceOf item = .ok (some r) ∧
    (Server.selects (Labels.ofApp app).selector item → r.app = app)

theorem app_eq_of_selects {item : Json} {r : Service} (hr : serviceOf item = .ok (some r))
    (h : Server.selects (Labels.ofApp app).selector item) : r.app = app := by
  have hown := hasLabel_of_serviceOf hr
  rw [selects_ofApp] at h
  have hsame := (eq_of_beq hown).symm.trans (eq_of_beq h)
  exact AppName.ext_iff.2 (Option.some.inj hsame)

theorem exists_readServices_of_wellFormed {found : Json}
    (h : WellFormed (listCall app, .ok found)) : ∃ rs, readServices found.items = .ok rs := by
  obtain ⟨rs, hrs⟩ := exists_mapM_eq_ok_iff.2 fun item hitem => (h item hitem).exists_serviceOf
  exact exists_bind_eq_ok hrs ⟨_, rfl⟩

theorem found_of_mem_readServices {found : Json} {rs : List Service} {r : Service}
    (hrs : readServices found.items = .ok rs) (hr : r ∈ rs) :
    Found app r [(listCall app, .ok found)] := by
  obtain ⟨read, hread, hown⟩ := bind_eq_ok_iff.1 hrs
  cases hown
  obtain ⟨own, hmem, rfl⟩ := List.mem_filterMap.1 hr
  obtain ⟨item, hitem, hservice⟩ := exists_mem_of_mapM_eq_ok hread _ hmem
  exact ⟨found, rfl, item, hitem, hservice, app_eq_of_selects hservice⟩

theorem asks_servicesOf (app : AppName) :
    (servicesOf app).Honours (candour due) [] fun h rs => Passed h ∧ ∀ r ∈ rs, Found app r h := by
  refine Honours.bind ((asks_may passed_nil nofun).mono ?_)
  rintro h found ⟨hh, hfound⟩
  cases found with
  | none => exact ⟨hh, fun _ hr => absurd hr List.not_mem_nil⟩
  | some j =>
    obtain rfl := hfound j rfl
    refine reads_ofExcept hh exists_readServices_of_wellFormed ?_
    exact fun rs hrs => ⟨hh, fun r hr => found_of_mem_readServices hrs hr⟩

def stopDue (app : AppName) (h : History) (c : Call) : Prop :=
  c = .delete .namespaces "" app.namespaceId ∧ ∃ r, Found app r h

theorem asks_stop (app : AppName) :
    (stop app).Honours (candour (stopDue app)) [] fun h _ => Passed h := by
  refine Honours.bind ((asks_servicesOf app).mono ?_)
  rintro h rs ⟨hh, hfound⟩
  cases rs with
  | nil => exact hh
  | cons r rs =>
    have hdue : stopDue app h (.delete .namespaces "" app.namespaceId) :=
      ⟨rfl, r, hfound r (List.mem_cons_self ..)⟩
    refine Honours.bind (Honours.discard ((asks_may hh fun _ => hdue).mono ?_))
    exact fun h' _ hh' => hh'.1

def scaleDue (app : AppName) (service : String) (status : ServiceStatus) (h : History) (c : Call) :
    Prop :=
  ∃ r, r.name = service ∧ Found app r h ∧ c = .patch .deployments app.namespaceId
    (app.deploymentName service) (Deployment.replicasPatch app r.config (replicasFor status))

theorem asks_setStatus (app : AppName) (service : String) (status : ServiceStatus) :
    (setStatus app service status).Honours (candour (scaleDue app service status)) [] fun h _ =>
      Passed h := by
  refine Honours.bind ((asks_servicesOf app).mono ?_)
  rintro h rs ⟨hh, hfound⟩
  cases hnamed : rs.find? (·.name == service) with
  | none => exact hh
  | some r =>
    have hname : r.name = service := by simpa using List.find?_some hnamed
    have hdue : scaleDue app service status h (.patch .deployments app.namespaceId
        (app.deploymentName r.name) (Deployment.replicasPatch app r.config (replicasFor status))) :=
      ⟨r, hname, hfound r (List.mem_of_find?_eq_some hnamed), by rw [hname]⟩
    refine Honours.bind ((asks_may hh fun _ => hdue).mono ?_)
    rintro h' stored ⟨hh', hstored⟩
    cases stored with
    | none => exact hh'
    | some j =>
      obtain rfl := hstored j rfl
      exact reads_ofExcept hh' IsDeployment.exists_serviceOf fun _ _ => hh'

end Services

section Log

theorem exists_podName {pod : Json} (h : IsPod pod) : ∃ name, podName pod = .ok name := by
  obtain ⟨name, hname⟩ := h.named
  rw [podName, hname]
  exact ⟨name, rfl⟩

theorem exists_logText {log : Json} (h : IsLog log) : ∃ text, logText log = .ok text := by
  obtain rfl | ⟨text, rfl, -⟩ := h
  · exact ⟨"", rfl⟩
  · exact ⟨text, rfl⟩

theorem exists_takeLines {log : Json} {text : String} (h : IsLog log)
    (htext : logText log = .ok text) (start : Option Timestamp) (limit : Int) :
    ∃ ls, takeLines start limit 0 (Text.lines text) = .ok ls := by
  have htimes : ∀ l ∈ Text.lines text, LogLine.read l ≠ .impossible := by
    obtain rfl | ⟨own, rfl, hown⟩ := h
    · have hempty : Text.lines "" = [] := by decide +kernel
      cases htext
      rw [hempty]
      exact List.forall_mem_nil _
    · cases htext
      exact hown
  exact ⟨_, takeLines_eq_ok htimes⟩

def neverDue (_ : History) (_ : Call) : Prop := False

theorem asks_logs (app : AppName) (service : String) (start : Option Timestamp) (limit : Int)
    (now : Timestamp) :
    (logs app service start limit now).Honours (candour neverDue) [] fun h _ => Passed h := by
  refine Honours.bind ((asks_may passed_nil nofun).mono ?_)
  rintro h found ⟨hh, hfound⟩
  cases found with
  | none => exact hh
  | some j =>
    obtain rfl := hfound j rfl
    cases hitems : j.items with
    | nil =>
      simp only [hitems]
      exact hh
    | cons pod pods =>
      simp only [hitems]
      refine Honours.bind (reads_ofExcept hh ?_ ?_)
      · exact fun hform => exists_podName (hform pod (hitems ▸ List.mem_cons_self ..))
      intro name _
      refine Honours.bind ((asks_may hh nofun).mono ?_)
      rintro h' log ⟨hh', hlog⟩
      cases log with
      | none => exact hh'
      | some log =>
        obtain rfl := hlog log rfl
        refine Honours.bind (reads_ofExcept hh' exists_logText ?_)
        intro text htext
        refine Honours.bind (reads_ofExcept hh' (exists_takeLines · htext _ _) ?_)
        exact fun _ _ => hh'

end Log

section Runs

variable {α σ : Type} {due : History → Call → Prop}

theorem notFound_mem_absences (c : Call) : 404 ∈ c.absences := by
  cases c <;> simp [Call.absences]

theorem eq_last_of_notMem {past rest past' : History} {x y : Exchange}
    (h : past ++ x :: rest = past' ++ [y]) (hx : x ∉ past') : rest = [] ∧ past = past' ∧ x = y := by
  rcases List.eq_nil_or_concat rest with rfl | ⟨more, z, rfl⟩
  · obtain ⟨hpast, hlast⟩ := List.append_inj' h rfl
    exact ⟨rfl, hpast, List.singleton_inj.1 hlast⟩
  · rw [List.concat_eq_append, ← List.cons_append, ← List.append_assoc] at h
    obtain ⟨hpast, -⟩ := List.append_inj' h rfl
    exact absurd (hpast ▸ List.mem_append_right _ (List.mem_cons_self ..)) hx

/-- What an operation does with the failures of its calls, and on which grounds it changes
anything. -/
structure HidesNoFault (due : History → Call → Prop) (h : History) (result : Except Fault α) :
    Prop where
  returned : ∀ a, result = .ok a → Passed h
  failed : ∀ past c e rest, h = past ++ (c, .error e) :: rest → e.status ∉ c.absences →
    rest = [] ∧ Passed past ∧ ∃ f, result = .error f ∧ f.status? = some e.status ∧
      f.failureClass? = some (if e.status = 409 then .conflict else .other)
  answered : Passed h → (∀ x ∈ h, WellFormed x) → ∃ a, result = .ok a
  changes : ∀ past c a rest, h = past ++ (c, a) :: rest → c.isChange = true → due past c

theorem failureClass?_api {c : Call} {e : ApiError} (h : e.status ∉ c.absences) (action : Action) :
    (Fault.api action e).failureClass? = some (if e.status = 409 then .conflict else .other) := by
  have hfound : e.status ≠ 404 := fun hmissing => h (hmissing ▸ notFound_mem_absences c)
  change some e.failureClass = _
  rw [ApiError.failureClass, if_neg hfound]

theorem hidesNoFault_of_honours {p : Program α}
    (hp : p.Honours (candour due) [] fun h _ => Passed h) (answer : Call → σ → Answer × σ) (s : σ) :
    HidesNoFault due (p.history answer s) (p.run answer s).1 := by
  have hending := ending_of_honours hp fun x (_ : x ∈ p.history answer s) => trivial
  constructor
  · intro a ha
    rcases hending with ⟨_, -, hpassed⟩ | ⟨f, hf, -⟩
    · exact hpassed
    · rw [ha] at hf
      cases hf
  · intro past c e rest hsplit hnot
    have hmem : (c, Except.error e) ∈ p.history answer s := by
      rw [hsplit]
      exact List.mem_append_right _ (List.mem_cons_self ..)
    rcases hending with ⟨_, -, hpassed⟩ | ⟨f, hf, hfaulty⟩
    · exact absurd (hpassed c e hmem) hnot
    rcases hfaulty with ⟨past', c', e', action, hlast, hpassed, -, rfl⟩ | ⟨hpassed, -⟩
    · have hnew : (c, Except.error e) ∉ past' := fun hold => hnot (hpassed c e hold)
      obtain ⟨hrest, rfl, hsame⟩ := eq_last_of_notMem (hsplit.symm.trans hlast) hnew
      cases hsame
      exact ⟨hrest, hpassed, _, hf, rfl, failureClass?_api hnot action⟩
    · exact absurd (hpassed c e hmem) hnot
  · intro hpassed hforms
    rcases hending with ⟨a, ha, -⟩ | ⟨f, -, hfaulty⟩
    · exact ⟨a, ha⟩
    rcases hfaulty with ⟨past, c, e, action, hlast, -, hnot, -⟩ | ⟨-, x, hx, hnot⟩
    · have hmem : (c, Except.error e) ∈ p.history answer s := by
        rw [← List.nil_append (p.history answer s), hlast]
        exact List.mem_append_right _ (List.mem_singleton_self _)
      exact absurd (hpassed c e hmem) hnot
    · exact absurd (hforms x hx) hnot
  · intro past c a rest hsplit
    exact (before_of_honours hp (fun _ _ => trivial) hsplit).2

/-- Whatever the calls are answered, the operations take only those failures for the answer that
there is nothing that say so. -/
theorem operations_hide_no_fault (answer : Call → σ → Answer × σ) (s : σ) (app : AppName)
    (service : String) (status : ServiceStatus) (start : Option Timestamp) (limit : Int)
    (now : Timestamp) :
    HidesNoFault (stopDue app) ((stop app).history answer s) ((stop app).run answer s).1 ∧
    HidesNoFault (scaleDue app service status) ((setStatus app service status).history answer s)
      ((setStatus app service status).run answer s).1 ∧
    HidesNoFault neverDue ((logs app service start limit now).history answer s)
      ((logs app service start limit now).run answer s).1 :=
  ⟨hidesNoFault_of_honours (asks_stop app) answer s,
    hidesNoFault_of_honours (asks_setStatus app service status) answer s,
    hidesNoFault_of_honours (asks_logs app service start limit now) answer s⟩

end Runs

end PreviewApps.Cluster
