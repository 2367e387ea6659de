import PreviewApps.Proofs.Cluster.Api

/-!
What programs ensure against every server. A program is followed call by call, whatever the server
answers to each of them, and must not end in a fault.
-/

namespace PreviewApps.Cluster.Program

variable {α β : Type}

def Meets : Program α → Store → (α → Store → Prop) → Prop
  | done (.ok a), m, Q => Q a m
  | done (.error _), _, _ => False
  | call c next, m, Q => c.Proper ∧ ∀ a m', Serves m c a m' → (next a).Meets m' Q

variable {p : Program α} {m : Store} {Q Q' : α → Store → Prop}

theorem Meets.mono (h : p.Meets m Q) (hQ : ∀ a m', Q a m' → Q' a m') : p.Meets m Q' := by
  induction p generalizing m with
  | done r =>
    cases r with
    | ok a => exact hQ a m h
    | error e => exact h
  | call c next ih => exact ⟨h.1, fun a m' hs => ih a (h.2 a m' hs)⟩

theorem Meets.bind {f : α → Program β} {Q : β → Store → Prop}
    (h : p.Meets m fun a m' => (f a).Meets m' Q) : (p >>= f).Meets m Q := by
  induction p generalizing m with
  | done r =>
    cases r with
    | ok a => exact h
    | error e => exact h
  | call c next ih => exact ⟨h.1, fun a m' hs => ih a (h.2 a m' hs)⟩

theorem Meets.discard {Q : Unit → Store → Prop} (h : p.Meets m fun _ m' => Q () m') :
    (Functor.discard p).Meets m Q :=
  Meets.bind (f := fun _ => pure ()) h

theorem meets_ofExcept {a : α} {r : Except Fault α} (hr : r = .ok a) (h : Q a m) :
    (ofExcept r).Meets m Q := by
  subst hr
  exact h

theorem meets_must {action : Action} {c : Call} {Q : Json → Store → Prop} (hc : c.Proper)
    (h : ∀ a m', Serves m c a m' → ∃ j, a = .ok j ∧ Q j m') : (must action c).Meets m Q := by
  refine ⟨hc, ?_⟩
  intro a m' hs
  obtain ⟨j, rfl, hQ⟩ := h a m' hs
  exact hQ

theorem meets_must_of_stored {action : Action} {c : Call} {key : Key} {old : Json}
    {Q : Json → Store → Prop} (hc : c.Proper) (hkey : c.target? = some key)
    (hold : m key = some old) (h : ∀ j m', Serves m c (.ok j) m' → Q j m') :
    (must action c).Meets m Q := by
  refine meets_must hc ?_
  intro a m' hs
  cases a with
  | ok j => exact ⟨j, rfl, h j m' hs⟩
  | error e =>
    have hnone := (hs.error_of_target hkey).2.1
    rw [hold] at hnone
    cases hnone

theorem meets_may {action : Action} {c : Call} {Q : Option Json → Store → Prop} (hc : c.Proper)
    (hok : ∀ j m', Serves m c (.ok j) m' → Q (some j) m')
    (herror : ∀ e m', Serves m c (.error e) m' → e.status = 404 ∧ Q none m') :
    (may [404] action c).Meets m Q := by
  refine ⟨hc, ?_⟩
  intro a m' hs
  cases a with
  | ok j => exact hok j m' hs
  | error e =>
    obtain ⟨hstatus, hQ⟩ := herror e m' hs
    have habsorbed : [404].contains e.status = true := by
      rw [hstatus]
      rfl
    change (if [404].contains e.status then pure none else throw (.api action e)).Meets m' Q
    rw [if_pos habsorbed]
    exact hQ

theorem meets_may_of_target {action : Action} {c : Call} {key : Key}
    {Q : Option Json → Store → Prop} (hc : c.Proper) (hkey : c.target? = some key)
    (hok : ∀ j m', Serves m c (.ok j) m' → Q (some j) m') (hnone : m key = none → Q none m) :
    (may [404] action c).Meets m Q := by
  refine meets_may hc hok ?_
  intro e m' hs
  obtain ⟨hstatus, hmissing, rfl⟩ := hs.error_of_target hkey
  exact ⟨hstatus, hnone hmissing⟩

theorem run_of_meets {σ : Type} {api : ApiServer σ} {s : σ} (hs : api.Valid s)
    (h : p.Meets (api.stored s) Q) :
    ∃ a, (p.run api.answer s).1 = .ok a ∧ Q a (api.stored (p.run api.answer s).2) ∧
      api.Valid (p.run api.answer s).2 := by
  induction p generalizing s with
  | done r =>
    cases r with
    | ok a => exact ⟨a, rfl, h, hs⟩
    | error e => exact absurd h id
  | call c next ih =>
    obtain ⟨hc, hnext⟩ := h
    exact ih _ (api.valid_answer hs hc) (hnext _ _ (api.serves hs hc))

theorem bind_assoc {γ : Type} (p : Program α) (f : α → Program β) (g : β → Program γ) :
    (p.bind f).bind g = p.bind fun a => (f a).bind g := by
  induction p with
  | done r => cases r <;> rfl
  | call c next ih => exact congrArg (call c) (funext ih)

theorem bind_pure (p : Program α) : p.bind (fun a => done (.ok a)) = p := by
  induction p with
  | done r => cases r <;> rfl
  | call c next ih => exact congrArg (call c) (funext ih)

instance : LawfulMonad Program := LawfulMonad.mk' Program
  (fun x => bind_pure x) (fun _ _ => rfl) (fun x f g => bind_assoc x f g)

theorem meets_mapM {f : α → Program β} {I : Store → Prop} {xs : List α}
    (hstep : ∀ x ∈ xs, ∀ m, I m → (f x).Meets m fun _ m' => I m') (hm : I m) :
    (xs.mapM f).Meets m fun _ m' => I m' := by
  induction xs generalizing m with
  | nil => exact hm
  | cons x xs ih =>
    rw [List.mapM_cons]
    refine Meets.bind ((hstep x (List.mem_cons_self ..) m hm).mono ?_)
    intro y m₁ hm₁
    refine Meets.bind ((ih (fun z hz => hstep z (List.mem_cons_of_mem x hz)) hm₁).mono ?_)
    exact fun ys m₂ hm₂ => hm₂

end PreviewApps.Cluster.Program
