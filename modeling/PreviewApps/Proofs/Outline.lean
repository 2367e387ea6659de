import Mathlib.Data.List.Nodup
import Mathlib.Data.List.Perm.Basic
import PreviewApps.DeploymentUnit
import PreviewApps.Proofs.Assoc

/-!
What two backends have to show alike: the outline of a service, and groups of services by
application, both up to order.
-/

namespace PreviewApps

/-- What every backend shows of a service. -/
structure Outline where
  app : AppName
  serviceName : String
  image : String
  port : Int
  containerType : ContainerType
  env : Option (List (String × String))
  status : ServiceStatus

def Service.outline (s : Service) : Outline where
  app := s.app
  serviceName := s.name
  image := s.config.image
  port := s.config.port
  containerType := s.config.containerType
  env := s.config.env.map fun env => env.map fun v => (v.key, v.value)
  status := s.status

def DeployableService.outline (app : AppName) (s : DeployableService) : Outline where
  app := app
  serviceName := s.name
  image := s.config.image
  port := s.config.port
  containerType := s.config.containerType
  env := s.config.env.map fun env => env.map fun v => (v.key, v.value)
  status := .running

abbrev Groups := List (AppName × List Service)

def SameGroups (gs gs' : Groups) : Prop :=
  (gs.map (·.1)).Perm (gs'.map (·.1)) ∧ ∀ app,
    (((gs.lookup app).getD []).map (·.outline)).Perm (((gs'.lookup app).getD []).map (·.outline))

structure Grouped (gs : Groups) : Prop where
  nodup : (gs.map (·.1)).Nodup
  own : ∀ g ∈ gs, g.2 ≠ [] ∧ ∀ s ∈ g.2, s.app = g.1

def ungrouped (gs : Groups) : List Service := gs.flatMap (·.2)

theorem Grouped.mem_keys {gs : Groups} (h : Grouped gs) (app : AppName) :
    app ∈ gs.map (·.1) ↔ ∃ s ∈ ungrouped gs, s.app = app := by
  constructor
  · intro happ
    obtain ⟨g, hg, rfl⟩ := List.mem_map.1 happ
    obtain ⟨hne, hown⟩ := h.own g hg
    obtain ⟨s, hs⟩ := List.exists_mem_of_ne_nil g.2 hne
    exact ⟨s, List.mem_flatMap.2 ⟨g, hg, hs⟩, hown s hs⟩
  · rintro ⟨s, hs, rfl⟩
    obtain ⟨g, hg, hs⟩ := List.mem_flatMap.1 hs
    exact List.mem_map.2 ⟨g, hg, ((h.own g hg).2 s hs).symm⟩

theorem Grouped.tail {g : AppName × List Service} {gs : Groups} (h : Grouped (g :: gs)) :
    Grouped gs :=
  ⟨(List.nodup_cons.1 h.nodup).2, fun g' hg' => h.own g' (List.mem_cons_of_mem g hg')⟩

theorem Grouped.lookup {gs : Groups} (h : Grouped gs) (app : AppName) :
    (gs.lookup app).getD [] = (ungrouped gs).filter (·.app = app) := by
  induction gs with
  | nil => rfl
  | cons g gs ih =>
    have hown := (h.own g (List.mem_cons_self ..)).2
    rw [ungrouped, List.flatMap_cons, List.filter_append, List.lookup_cons]
    by_cases happ : app = g.1
    · have hself : g.2.filter (·.app = app) = g.2 := by
        rw [List.filter_eq_self]
        exact fun s hs => by simp [hown s hs, happ]
      -- the other groups belong to other applications
      have hrest : (ungrouped gs).filter (·.app = app) = [] := by
        rw [List.filter_eq_nil_iff]
        intro s hs hkey
        have hmem := (h.tail.mem_keys app).2 ⟨s, hs, of_decide_eq_true hkey⟩
        rw [happ] at hmem
        exact (List.nodup_cons.1 h.nodup).1 hmem
      rw [hself]
      change _ = g.2 ++ (ungrouped gs).filter (·.app = app)
      rw [hrest, List.append_nil, happ, BEq.rfl]
      rfl
    · have hself : g.2.filter (·.app = app) = [] := by
        rw [List.filter_eq_nil_iff]
        intro s hs hkey
        exact happ ((of_decide_eq_true hkey).symm.trans (hown s hs))
      rw [hself, List.nil_append, beq_false_of_ne happ]
      exact ih h.tail

theorem mem_outlines {ss : List Service} {app : AppName} :
    (∃ s ∈ ss, s.app = app) ↔ ∃ o ∈ ss.map (·.outline), o.app = app := by
  simp only [List.mem_map, exists_exists_and_eq_and]
  rfl

theorem sameGroups_of_perm {gs gs' : Groups} (h : Grouped gs) (h' : Grouped gs')
    (hperm : ((ungrouped gs).map (·.outline)).Perm ((ungrouped gs').map (·.outline))) :
    SameGroups gs gs' := by
  constructor
  · refine (List.perm_ext_iff_of_nodup h.nodup h'.nodup).2 ?_
    intro app
    rw [h.mem_keys, h'.mem_keys, mem_outlines, mem_outlines]
    simp only [hperm.mem_iff]
  · intro app
    have hfilter : ∀ ss : List Service, (ss.filter (·.app = app)).map (·.outline) =
        (ss.map (·.outline)).filter (·.app = app) := by
      intro ss
      rw [List.filter_map]
      rfl
    rw [h.lookup, h'.lookup, hfilter, hfilter]
    exact hperm.filter _

theorem Grouped.nodup_ungrouped {gs : Groups} (h : Grouped gs) (hgs : ∀ g ∈ gs, g.2.Nodup) :
    (ungrouped gs).Nodup := by
  refine List.nodup_flatMap.2 ⟨hgs, ?_⟩
  have hkeys := List.pairwise_map.1 h.nodup
  refine hkeys.imp_of_mem ?_
  intro g g' hg hg' hne s hs hs'
  exact hne (((h.own g hg).2 s hs).symm.trans ((h.own g' hg').2 s hs'))

theorem grouped_groupBy (ss : List Service) :
    Grouped (Assoc.groupBy (·.app) ss) ∧ (ungrouped (Assoc.groupBy (·.app) ss)).Perm ss := by
  refine ⟨⟨Assoc.nodup_keys_groupBy _ ss, ?_⟩, Assoc.groupBy_perm _ ss⟩
  intro g hg
  refine ⟨Assoc.ne_nil_of_mem_groupBy hg, ?_⟩
  intro s hs
  rw [Assoc.eq_filter_of_mem_groupBy hg] at hs
  exact eq_of_beq (List.mem_filter.1 hs).2

end PreviewApps
