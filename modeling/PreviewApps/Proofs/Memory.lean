import PreviewApps.Memory.Backend
import PreviewApps.Proofs.AppName
import PreviewApps.Proofs.Outline

/-!
The backend in memory as a view: the service under a namespace and a name. Its invariant ties every
application to its namespace and every service to its application and name.
-/

namespace PreviewApps.Memory

abbrev View := String → String → Option Service

namespace View

def set (ns name : String) (s : Service) (f : View) : View := fun ns' name' =>
  if ns' = ns ∧ name' = name then some s else f ns' name'

def clear (ns : String) (f : View) : View := fun ns' name' => if ns' = ns then none else f ns' name'

def setAll (ns : String) (ss : List Service) (f : View) : View :=
  ss.foldl (fun f s => f.set ns s.name s) f

theorem setAll_cons (ns : String) (s : Service) (ss : List Service) (f : View) :
    f.setAll ns (s :: ss) = (f.set ns s.name s).setAll ns ss := rfl

theorem set_self (ns name : String) (s : Service) (f : View) : f.set ns name s ns name = some s :=
  if_pos ⟨rfl, rfl⟩

theorem set_of_not {ns ns' name name' : String} (h : ¬(ns' = ns ∧ name' = name)) (s : Service)
    (f : View) : f.set ns name s ns' name' = f ns' name' := if_neg h

theorem set_eq_some {ns ns' name name' : String} {s t : Service} {f : View}
    (h : f.set ns name s ns' name' = some t) :
    (ns' = ns ∧ name' = name ∧ t = s) ∨ ¬(ns' = ns ∧ name' = name) ∧ f ns' name' = some t := by
  unfold set at h
  split at h
  · next hat =>
    cases h
    exact .inl ⟨hat.1, hat.2, rfl⟩
  · next hat => exact .inr ⟨hat, h⟩

theorem clear_eq_some {ns ns' name : String} {s : Service} {f : View}
    (h : f.clear ns ns' name = some s) : ns' ≠ ns ∧ f ns' name = some s := by
  unfold clear at h
  split at h
  · cases h
  · next hns => exact ⟨hns, h⟩

theorem set_of_ne {ns ns' : String} (h : ns' ≠ ns) (name name' : String) (s : Service) (f : View) :
    f.set ns name s ns' name' = f ns' name' := set_of_not (fun hand => h hand.1) s f

theorem setAll_of_ne {ns ns' : String} (h : ns' ≠ ns) (name : String) (ss : List Service)
    (f : View) : f.setAll ns ss ns' name = f ns' name := by
  induction ss generalizing f with
  | nil => rfl
  | cons s ss ih => rw [setAll_cons, ih, set_of_ne h]

end View

theorem lookup_insert_service (s : Service) (services : List (String × Service)) (name : String) :
    (Assoc.insert s.name s services).lookup name =
      if name = s.name then some s else services.lookup name := by
  split
  · next h => rw [h, Assoc.lookup_insert_self]
  · next h => exact Assoc.lookup_insert_of_ne h s services

theorem lookup_foldl_insert_service {ns : String} {services : List (String × Service)} {f : View}
    (h : ∀ name, f ns name = services.lookup name) (ss : List Service) (name : String) :
    (ss.foldl (fun m s => Assoc.insert s.name s m) services).lookup name =
      f.setAll ns ss ns name := by
  induction ss generalizing services f with
  | nil => exact (h name).symm
  | cons s ss ih =>
    rw [List.foldl_cons, View.setAll_cons]
    refine ih fun name' => ?_
    rw [lookup_insert_service, View.set, h]
    simp

structure App.Valid (a : App) : Prop where
  nodup : (a.services.map (·.1)).Nodup
  own : ∀ p ∈ a.services, p.2.app = a.spelling ∧ p.2.name = p.1

theorem App.Valid.insert {a : App} {s : Service} (ha : a.Valid) (hs : s.app = a.spelling) :
    App.Valid ⟨a.spelling, Assoc.insert s.name s a.services⟩ := by
  refine ⟨Assoc.nodup_keys_insert ha.nodup s.name s, ?_⟩
  intro p hp
  rcases Assoc.mem_insert hp with rfl | hp
  · exact ⟨hs, rfl⟩
  · exact ha.own p hp

theorem App.Valid.foldl_insert {app : AppName} {services : List (String × Service)}
    {ss : List Service} (ha : App.Valid ⟨app, services⟩) (hs : ∀ s ∈ ss, s.app = app) :
    App.Valid ⟨app, ss.foldl (fun m s => Assoc.insert s.name s m) services⟩ := by
  induction ss generalizing services with
  | nil => exact ha
  | cons s ss ih =>
    exact ih (ha.insert (hs s (List.mem_cons_self ..))) fun s' hs' =>
      hs s' (List.mem_cons_of_mem s hs')

namespace Backend

variable {A : AppName → Prop} {b : Backend}

structure Valid (A : AppName → Prop) (b : Backend) : Prop where
  nodup : (b.apps.map (·.1)).Nodup
  app : ∀ e ∈ b.apps, A e.2.spelling ∧ e.1 = e.2.spelling.namespaceId ∧ e.2.Valid

def view (b : Backend) : View := fun ns name =>
  (b.apps.lookup ns).bind fun a => a.services.lookup name

theorem valid_empty (A : AppName → Prop) : empty.Valid A :=
  ⟨List.nodup_nil, fun _ he => absurd he List.not_mem_nil⟩

theorem Valid.of_lookup {a : App} {ns : String} (hb : b.Valid A) (h : b.apps.lookup ns = some a) :
    A a.spelling ∧ ns = a.spelling.namespaceId ∧ a.Valid :=
  hb.app (ns, a) (Assoc.mem_of_lookup h)

theorem Valid.insert {a : App} (hb : b.Valid A) (hA : A a.spelling) (ha : a.Valid) (n : Nat) :
    Valid A ⟨Assoc.insert a.spelling.namespaceId a b.apps, n⟩ := by
  refine ⟨Assoc.nodup_keys_insert hb.nodup _ a, ?_⟩
  intro e he
  rcases Assoc.mem_insert he with rfl | he
  · exact ⟨hA, rfl, ha⟩
  · exact hb.app e he

theorem app_of_mem_start {app : AppName} {now : Timestamp} {n : Nat} {ds : List DeployableService}
    {s : Service} (h : s ∈ start app now n ds) : s.app = app := by
  induction ds generalizing n with
  | nil => exact absurd h List.not_mem_nil
  | cons d ds ih =>
    rcases List.mem_cons.1 h with rfl | h
    · rfl
    · exact ih h

def oldServices (app : AppName) (b : Backend) : List (String × Service) :=
  ((b.apps.lookup app.namespaceId).map (·.services)).getD []

theorem valid_oldServices (hA : AppName.Separate A)
    {app : AppName} (happ : A app) (hb : b.Valid A) : App.Valid ⟨app, oldServices app b⟩ := by
  unfold oldServices
  cases h : b.apps.lookup app.namespaceId with
  | none => exact ⟨List.nodup_nil, fun _ hp => absurd hp List.not_mem_nil⟩
  | some a =>
    obtain ⟨hspelling, hns, ha⟩ := hb.of_lookup h
    rw [hA app a.spelling happ hspelling hns]
    exact ha

theorem valid_deploy (hA : AppName.Separate A)
    {u : DeploymentUnit} (happ : A u.app) (now : Timestamp) (hb : b.Valid A) :
    (b.deploy u now).2.Valid A :=
  hb.insert (a := ⟨u.app, _⟩) happ
    ((valid_oldServices hA happ hb).foldl_insert fun _ hs => app_of_mem_start hs) _

theorem view_deploy (u : DeploymentUnit) (now : Timestamp) (b : Backend) :
    (b.deploy u now).2.view =
      b.view.setAll u.app.namespaceId (start u.app now b.issued u.services) := by
  funext ns name
  by_cases hns : ns = u.app.namespaceId
  · subst hns
    change ((Assoc.insert u.app.namespaceId _ b.apps).lookup u.app.namespaceId).bind _ = _
    rw [Assoc.lookup_insert_self, Option.bind_some]
    refine lookup_foldl_insert_service ?_ _ name
    intro name
    unfold view
    cases b.apps.lookup u.app.namespaceId <;> rfl
  · rw [View.setAll_of_ne hns]
    change ((Assoc.insert u.app.namespaceId _ b.apps).lookup ns).bind _ = _
    rw [Assoc.lookup_insert_of_ne hns]
    rfl

theorem valid_stop (app : AppName) (hb : b.Valid A) : (b.stop app).2.Valid A := by
  unfold stop
  split
  · exact hb
  · have hsub := Assoc.erase_sublist app.namespaceId b.apps
    exact ⟨hb.nodup.sublist (hsub.map _), fun e he => hb.app e (hsub.subset he)⟩

theorem stop_of_lookup_eq_none {app : AppName} (h : b.apps.lookup app.namespaceId = none) :
    b.stop app = ([], b) := by
  rw [stop, h]

theorem stop_of_lookup_eq_some {app : AppName} {a : App}
    (h : b.apps.lookup app.namespaceId = some a) :
    b.stop app = (a.services.map (·.2), ⟨Assoc.erase app.namespaceId b.apps, b.issued⟩) := by
  rw [stop, h]

theorem view_stop (app : AppName) (hb : b.Valid A) :
    (b.stop app).2.view = b.view.clear app.namespaceId := by
  funext ns name
  unfold View.clear
  cases h : b.apps.lookup app.namespaceId with
  | none =>
    rw [stop_of_lookup_eq_none h]
    split
    · next hns =>
      rw [view, hns, h]
      rfl
    · rfl
  | some a =>
    rw [stop_of_lookup_eq_some h]
    change ((Assoc.erase app.namespaceId b.apps).lookup ns).bind _ = _
    split
    · next hns =>
      rw [hns, Assoc.lookup_erase_self hb.nodup]
      rfl
    · next hns =>
      rw [Assoc.lookup_erase_of_ne hns]
      rfl

theorem setStatus_of_view_eq_none {app : AppName} {service : String}
    (h : b.view app.namespaceId service = none) (status : ServiceStatus) :
    b.setStatus app service status = (none, b) := by
  unfold setStatus
  unfold view at h
  cases happ : b.apps.lookup app.namespaceId with
  | none => rfl
  | some a =>
    rw [happ, Option.bind_some] at h
    dsimp only
    rw [h]

theorem setStatus_of_view_eq_some {app : AppName} {service : String} {s : Service}
    (h : b.view app.namespaceId service = some s) (status : ServiceStatus) :
    ∃ a, b.apps.lookup app.namespaceId = some a ∧ a.services.lookup service = some s ∧
      b.setStatus app service status = (some { s with status },
        ⟨Assoc.insert app.namespaceId
          ⟨a.spelling, Assoc.insert service { s with status } a.services⟩ b.apps, b.issued⟩) := by
  obtain ⟨a, happ, hs⟩ := Option.bind_eq_some_iff.1 h
  refine ⟨a, happ, hs, ?_⟩
  unfold setStatus
  rw [happ]
  dsimp only
  rw [hs]

theorem valid_setStatus (app : AppName) (service : String) (status : ServiceStatus)
    (hb : b.Valid A) : (b.setStatus app service status).2.Valid A := by
  cases h : b.view app.namespaceId service with
  | none =>
    rw [setStatus_of_view_eq_none h]
    exact hb
  | some s =>
    obtain ⟨a, happ, hs, hset⟩ := setStatus_of_view_eq_some h status
    obtain ⟨hA, hns, ha⟩ := hb.of_lookup happ
    obtain ⟨hspelling, hname⟩ := ha.own (service, s) (Assoc.mem_of_lookup hs)
    let a' : App := ⟨a.spelling, Assoc.insert s.name { s with status } a.services⟩
    have ha' : a'.Valid := ha.insert (s := { s with status }) hspelling
    have hvalid : Valid A ⟨Assoc.insert a'.spelling.namespaceId a' b.apps, b.issued⟩ :=
      hb.insert (a := a') hA ha' b.issued
    change s.name = service at hname
    rw [hset, ← hname, hns]
    exact hvalid

theorem view_setStatus {app : AppName} {service : String} {s : Service}
    (h : b.view app.namespaceId service = some s) (status : ServiceStatus) :
    (b.setStatus app service status).2.view =
      b.view.set app.namespaceId service { s with status } := by
  obtain ⟨a, happ, hs, hset⟩ := setStatus_of_view_eq_some h status
  rw [hset]
  funext ns name
  change ((Assoc.insert app.namespaceId _ b.apps).lookup ns).bind _ = _
  by_cases hns : ns = app.namespaceId
  · rw [hns, Assoc.lookup_insert_self, Option.bind_some]
    by_cases hname : name = service
    · rw [hname, Assoc.lookup_insert_self, View.set_self]
    · rw [Assoc.lookup_insert_of_ne hname, View.set_of_not fun hand => hname hand.2, view, happ]
      rfl
  · rw [Assoc.lookup_insert_of_ne hns, View.set_of_ne hns]
    rfl

theorem nodup_services {a : App} (ha : a.Valid) : (a.services.map (·.2)).Nodup := by
  have hnames : ((a.services.map (·.2)).map (·.name)) = a.services.map (·.1) := by
    rw [List.map_map]
    exact List.map_congr_left fun p hp => (ha.own p hp).2
  exact List.Nodup.of_map (·.name) (hnames ▸ ha.nodup)

theorem mem_services_iff {a : App} (ha : a.Valid) (s : Service) :
    s ∈ a.services.map (·.2) ↔ a.services.lookup s.name = some s := by
  constructor
  · intro hs
    obtain ⟨p, hp, rfl⟩ := List.mem_map.1 hs
    rw [(ha.own p hp).2]
    exact Assoc.lookup_of_mem ha.nodup hp
  · intro hs
    exact List.mem_map.2 ⟨_, Assoc.mem_of_lookup hs, rfl⟩

theorem stopped_of_valid (app : AppName) (hb : b.Valid A) :
    (b.stop app).1.Nodup ∧
      ∀ s, s ∈ (b.stop app).1 ↔ b.view app.namespaceId s.name = some s := by
  cases h : b.apps.lookup app.namespaceId with
  | none =>
    unfold view
    rw [stop_of_lookup_eq_none h, h]
    exact ⟨List.nodup_nil, fun s => ⟨fun hs => absurd hs List.not_mem_nil, fun hs => by cases hs⟩⟩
  | some a =>
    obtain ⟨-, -, ha⟩ := hb.of_lookup h
    unfold view
    rw [stop_of_lookup_eq_some h, h]
    exact ⟨nodup_services ha, mem_services_iff ha⟩

theorem mem_groups {g : AppName × List Service} (hg : g ∈ b.services) :
    ∃ e ∈ b.apps, e.2.services ≠ [] ∧ g = (e.2.spelling, e.2.services.map (·.2)) := by
  obtain ⟨e, he, rfl⟩ := List.mem_map.1 hg
  obtain ⟨he, hne⟩ := List.mem_filter.1 he
  refine ⟨e, he, ?_, rfl⟩
  intro hempty
  rw [hempty] at hne
  cases hne

theorem grouped_services (hb : b.Valid A) : Grouped b.services := by
  constructor
  · have hsub := (List.filter_sublist (p := fun e : String × App => !e.2.services.isEmpty)
      (l := b.apps)).map (·.1)
    -- the namespaces of the groups are keys of applications
    have hkeys : (b.services.map (·.1)).map (·.namespaceId) =
        (b.apps.filter fun e => !e.2.services.isEmpty).map (·.1) := by
      rw [services, List.map_map, List.map_map]
      exact List.map_congr_left fun e he => ((hb.app e (List.mem_filter.1 he).1).2.1).symm
    exact List.Nodup.of_map (·.namespaceId) (hkeys ▸ hb.nodup.sublist hsub)
  · intro g hg
    obtain ⟨e, he, hne, rfl⟩ := mem_groups hg
    refine ⟨fun hempty => hne (List.map_eq_nil_iff.1 hempty), ?_⟩
    intro s hs
    obtain ⟨p, hp, rfl⟩ := List.mem_map.1 hs
    exact ((hb.app e he).2.2.own p hp).1

theorem nodup_ungrouped (hb : b.Valid A) : (ungrouped b.services).Nodup := by
  refine (grouped_services hb).nodup_ungrouped ?_
  intro g hg
  obtain ⟨e, he, -, rfl⟩ := mem_groups hg
  exact nodup_services (hb.app e he).2.2

theorem mem_ungrouped_iff (hb : b.Valid A) (s : Service) :
    s ∈ ungrouped b.services ↔ b.view s.app.namespaceId s.name = some s := by
  constructor
  · intro hs
    obtain ⟨g, hg, hs⟩ := List.mem_flatMap.1 hs
    obtain ⟨e, he, -, rfl⟩ := mem_groups hg
    obtain ⟨-, hns, ha⟩ := hb.app e he
    have happ := ((grouped_services hb).own _ hg).2 s hs
    unfold view
    rw [happ, ← hns, Assoc.lookup_of_mem hb.nodup he]
    exact (mem_services_iff ha s).1 hs
  · intro hs
    obtain ⟨a, happ, hs⟩ := Option.bind_eq_some_iff.1 hs
    have hmem := (mem_services_iff (hb.of_lookup happ).2.2 s).2 hs
    refine List.mem_flatMap.2 ⟨(a.spelling, a.services.map (·.2)), ?_, hmem⟩
    refine List.mem_map.2 ⟨(_, a), List.mem_filter.2 ⟨Assoc.mem_of_lookup happ, ?_⟩, rfl⟩
    cases hservices : a.services with
    | nil =>
      rw [hservices] at hmem
      exact absurd hmem List.not_mem_nil
    | cons p ps => rfl

end Backend

end PreviewApps.Memory
