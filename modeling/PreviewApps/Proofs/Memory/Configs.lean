import PreviewApps.Proofs.Memory.History
import PreviewApps.Proofs.Stopping

/-!
The configurations that are copied with an application. They are looked up under a spelling while
the services lie under the namespace, so they are found under the last deployed spelling only.
-/

namespace PreviewApps.Memory

def copiedConfigs (ss : List Service) : List ServiceConfig :=
  (ss.filter (·.isCopied)).map (·.config)

namespace Backend

variable {b : Backend} {es : List Event}

theorem lookup_services (app : AppName) (b : Backend) :
    b.services.lookup app = (b.report app.namespaceId).lookup app := by
  have hkeep := Assoc.lookup_filter_keys
    (fun a : AppName => a.namespaceId == app.namespaceId) app b.services
  rw [if_pos (beq_self_eq_true _)] at hkeep
  exact hkeep.symm

theorem Tracks.configsOf (h : b.Tracks es) (app : AppName) :
    b.configsOf app = if lastSpelling app.namespaceId es = some app
      then copiedConfigs (b.stop app).1 else [] := by
  have hlookup : (b.services.lookup app).getD [] =
      if lastSpelling app.namespaceId es = some app then (b.stop app).1 else [] := by
    rw [lookup_services, fst_stop]
    rcases h.shows app.namespaceId with ⟨hnone, hreport⟩ | ⟨-, last, hlast, hreport⟩
    · rw [hnone, hreport, ite_self]
      rfl
    · rw [hreport, hlast, List.lookup_cons]
      by_cases happ : app = last
      · simp [happ]
      · simp [beq_false_of_ne happ, Ne.symm happ]
  change copiedConfigs _ = _
  rw [hlookup]
  split <;> rfl

end Backend

/-- Two spellings of an application find the configurations of what a stop gives back exactly if
there are none, or if both are the spelling that was deployed last. -/
theorem configs_found_iff (steps : List Step) {a b : AppName}
    (hns : a.namespaceId = b.namespaceId) :
    let m := afterwards steps
    (m.configsOf a = m.configsOf b ∧ m.configsOf a = copiedConfigs (m.stop a).1) ↔
      copiedConfigs (m.stop a).1 = [] ∨
        a = b ∧ lastSpelling a.namespaceId (history steps) = some a := by
  intro m
  have htracks : m.Tracks (history steps) := Backend.tracks_afterwards steps
  have hstop : (m.stop a).1 = (m.stop b).1 := by
    rw [Backend.fst_stop, Backend.fst_stop, hns]
  rw [htracks.configsOf a, htracks.configsOf b, ← hstop, ← hns]
  constructor
  · rintro ⟨hsame, hall⟩
    refine or_iff_not_imp_left.2 fun hsome => ?_
    -- what is to be copied is found under both names, so both were deployed last
    have ha : lastSpelling a.namespaceId (history steps) = some a := by
      by_contra hother
      rw [if_neg hother] at hall
      exact hsome hall.symm
    have hb : lastSpelling a.namespaceId (history steps) = some b := by
      by_contra hother
      rw [if_neg hother, hall] at hsame
      exact hsome hsame
    exact ⟨Option.some.inj (ha.symm.trans hb), ha⟩
  · rintro (hnone | ⟨rfl, hlast⟩)
    · simp [hnone]
    · simp [hlast]

theorem configs_found_after_twoSpellings :
    shop.namespaceId = lowerShop.namespaceId ∧
    let m := afterwards twoSpellings
    (m.configsOf shop = m.configsOf lowerShop ∧
        m.configsOf shop = copiedConfigs (m.stop shop).1) ↔
      copiedConfigs (m.stop shop).1 = [] ∨
        shop = lowerShop ∧ lastSpelling shop.namespaceId (history twoSpellings) = some shop := by
  have hns : shop.namespaceId = lowerShop.namespaceId := by decide +kernel
  exact ⟨hns, configs_found_iff twoSpellings hns⟩

/-- Under the first spelling nothing is found, though both services would be stopped. -/
theorem configs_missed_after_twoSpellings :
    shop.namespaceId = lowerShop.namespaceId ∧
    let m := afterwards twoSpellings
    ¬(m.configsOf shop = m.configsOf lowerShop ∧
      m.configsOf shop = copiedConfigs (m.stop shop).1) := by
  decide +kernel

end PreviewApps.Memory
