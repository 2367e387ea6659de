import PreviewApps.Proofs.Cluster.Relative
import PreviewApps.Proofs.Cluster.Triple

/-!
What programs ensure if they succeed. Nothing is asked of a run that ends in a fault, so no answer
of the server has to be readable.
-/

namespace PreviewApps.Cluster.Program

variable {α β : Type}

def Ensures : Program α → Store → (α → Store → Prop) → Prop
  | done (.ok a), m, Q => Q a m
  | done (.error _), _, _ => True
  | call c next, m, Q => c.Proper ∧ ∀ a m', Serves m c a m' → (next a).Ensures m' Q

variable {p : Program α} {m : Store} {Q Q' : α → Store → Prop}

theorem Meets.ensures (h : p.Meets m Q) : p.Ensures m Q := by
  induction p generalizing m with
  | done r =>
    cases r with
    | ok a => exact h
    | error e => trivial
  | call c next ih => exact ⟨h.1, fun a m' hs => ih a (h.2 a m' hs)⟩

theorem ensures_iff_yields : p.Ensures m Q ↔ p.Yields ⟨Call.Proper, Serves⟩ m Q := by
  induction p generalizing m with
  | done r => cases r <;> rfl
  | call c next ih =>
    apply and_congr_right
    intro _
    exact forall_congr' fun a => forall_congr' fun m' => imp_congr_right fun _ => ih a

theorem Ensures.mono (h : p.Ensures m Q) (hQ : ∀ a m', Q a m' → Q' a m') : p.Ensures m Q' := by
  rw [ensures_iff_yields] at h ⊢
  exact h.mono hQ

theorem Ensures.bind {f : α → Program β} {Q : β → Store → Prop}
    (h : p.Ensures m fun a m' => (f a).Ensures m' Q) : (p >>= f).Ensures m Q := by
  simp only [ensures_iff_yields] at h ⊢
  exact h.bind

theorem Ensures.discard {Q : Unit → Store → Prop} (h : p.Ensures m fun _ m' => Q () m') :
    (Functor.discard p).Ensures m Q :=
  Ensures.bind (f := fun _ => pure ()) h

theorem ensures_ofExcept {r : Except Fault α} (h : ∀ a, r = .ok a → Q a m) :
    (ofExcept r).Ensures m Q := ensures_iff_yields.2 (yields_ofExcept h)

theorem ensures_must {action : Action} {c : Call} {Q : Json → Store → Prop} (hc : c.Proper)
    (h : ∀ j m', Serves m c (.ok j) m' → Q j m') : (must action c).Ensures m Q :=
  ensures_iff_yields.2 (yields_must hc h)

theorem ensures_may {absorbed : List Int} {action : Action} {c : Call}
    {Q : Option Json → Store → Prop} (hc : c.Proper)
    (hok : ∀ j m', Serves m c (.ok j) m' → Q (some j) m')
    (herror : ∀ e m', Serves m c (.error e) m' → Q none m') :
    (may absorbed action c).Ensures m Q :=
  ensures_iff_yields.2 (yields_may hc hok herror)

theorem ensures_mapM {f : α → Program β} {I : Store → Prop} {xs : List α}
    (hstep : ∀ x ∈ xs, ∀ m, I m → (f x).Ensures m fun _ m' => I m') (hm : I m) :
    (xs.mapM f).Ensures m fun _ m' => I m' := by
  induction xs generalizing m with
  | nil => exact hm
  | cons x xs ih =>
    rw [List.mapM_cons]
    apply Ensures.bind
    apply (hstep x (List.mem_cons_self ..) m hm).mono
    intro y m₁ hm₁
    apply Ensures.bind
    apply (ih (fun z hz => hstep z (List.mem_cons_of_mem x hz)) hm₁).mono
    exact fun ys m₂ hm₂ => hm₂

theorem run_of_ensures {σ : Type} {api : ApiServer σ} {s s' : σ} {a : α} (hs : api.Valid s)
    (h : p.Ensures (api.stored s) Q) (hrun : p.run api.answer s = (.ok a, s')) :
    Q a (api.stored s') ∧ api.Valid s' := by
  apply run_of_yields _ hs (ensures_iff_yields.1 h) hrun
  exact fun hs hc => ⟨api.serves hs hc, api.valid_answer hs hc⟩

theorem exists_run_eq_ok {σ : Type} (answer : Call → σ → Answer × σ) (p : Program α) (s : σ)
    (h : (p.run answer s).1.toOption.isSome = true) :
    ∃ a, p.run answer s = (.ok a, (p.run answer s).2) := by
  cases hrun : (p.run answer s).1 with
  | ok a => exact ⟨a, Prod.ext hrun rfl⟩
  | error e =>
    rw [hrun] at h
    cases h

end PreviewApps.Cluster.Program
