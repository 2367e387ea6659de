import PreviewApps.Proofs.Cluster.Api

/-!
What programs yield relative to an interface, which says what calls may be made and how they may be
answered in the states that it knows. Nothing is asked of a run that ends in a fault.
-/

namespace PreviewApps.Cluster

/-- The calls that may be made, and what may be answered to them and be the state then. -/
structure Interface (S : Type) where
  admits : Call → Prop
  steps : S → Call → Answer → S → Prop

namespace Program

variable {α β S : Type} {i : Interface S}

def Yields (i : Interface S) : Program α → S → (α → S → Prop) → Prop
  | done (.ok a), m, Q => Q a m
  | done (.error _), _, _ => True
  | call c next, m, Q => i.admits c ∧ ∀ a m', i.steps m c a m' → (next a).Yields i m' Q

variable {p : Program α} {m : S} {Q Q' : α → S → Prop}

theorem Yields.mono (h : p.Yields i m Q) (hQ : ∀ a m', Q a m' → Q' a m') : p.Yields i m Q' := by
  induction p generalizing m with
  | done r =>
    cases r with
    | ok a => exact hQ a m h
    | error e => trivial
  | call c next ih => exact ⟨h.1, fun a m' hs => ih a (h.2 a m' hs)⟩

theorem Yields.bind {f : α → Program β} {Q : β → S → Prop}
    (h : p.Yields i m fun a m' => (f a).Yields i m' Q) : (p >>= f).Yields i m Q := by
  induction p generalizing m with
  | done r =>
    cases r with
    | ok a => exact h
    | error e => trivial
  | call c next ih => exact ⟨h.1, fun a m' hs => ih a (h.2 a m' hs)⟩

theorem Yields.discard {Q : Unit → S → Prop} (h : p.Yields i m fun _ m' => Q () m') :
    (Functor.discard p).Yields i m Q :=
  Yields.bind (f := fun _ => pure ()) h

theorem yields_ofExcept {r : Except Fault α} (h : ∀ a, r = .ok a → Q a m) :
    (ofExcept r).Yields i m Q := by
  cases r with
  | ok a => exact h a rfl
  | error e => trivial

theorem yields_must {action : Action} {c : Call} {Q : Json → S → Prop} (hc : i.admits c)
    (h : ∀ j m', i.steps m c (.ok j) m' → Q j m') : (must action c).Yields i m Q := by
  refine ⟨hc, ?_⟩
  intro a m' hs
  cases a with
  | ok j => exact h j m' hs
  | error e => trivial

theorem yields_may {absorbed : List Int} {action : Action} {c : Call}
    {Q : Option Json → S → Prop} (hc : i.admits c)
    (hok : ∀ j m', i.steps m c (.ok j) m' → Q (some j) m')
    (herror : ∀ e m', i.steps m c (.error e) m' → Q none m') :
    (may absorbed action c).Yields i m Q := by
  refine ⟨hc, ?_⟩
  intro a m' hs
  cases a with
  | ok j => exact hok j m' hs
  | error e =>
    change (if absorbed.contains e.status then pure none else throw (.api action e)).Yields i m' Q
    split
    · exact herror e m' hs
    · trivial

theorem Yields.refine {T : Type} {j : Interface T} (view : T → S) (Keeps : T → T → Prop)
    (hrefl : ∀ t, Keeps t t) (htrans : ∀ {t t' t''}, Keeps t t' → Keeps t' t'' → Keeps t t'')
    (hadmits : ∀ {c}, i.admits c → j.admits c)
    (hsteps : ∀ {t c a t'}, i.admits c → j.steps t c a t' →
      i.steps (view t) c a (view t') ∧ Keeps t t')
    {t : T} (h : p.Yields i (view t) Q) : p.Yields j t fun a t' => Q a (view t') ∧ Keeps t t' := by
  induction p generalizing t with
  | done r =>
    cases r with
    | ok a => exact ⟨h, hrefl t⟩
    | error e => trivial
  | call c next ih =>
    obtain ⟨hc, hnext⟩ := h
    refine ⟨hadmits hc, ?_⟩
    intro a t' hstep
    obtain ⟨hown, hkeeps⟩ := hsteps hc hstep
    apply (ih a (hnext a _ hown)).mono
    rintro b t'' ⟨hb, hkeeps'⟩
    exact ⟨hb, htrans hkeeps hkeeps'⟩

theorem run_of_yields {σ : Type} {answer : Call → σ → Answer × σ} {stored : σ → S}
    {Valid : σ → Prop} (hstep : ∀ {s c}, Valid s → i.admits c →
      i.steps (stored s) c (answer c s).1 (stored (answer c s).2) ∧ Valid (answer c s).2)
    {s s' : σ} {a : α} (hs : Valid s) (h : p.Yields i (stored s) Q)
    (hrun : p.run answer s = (.ok a, s')) : Q a (stored s') ∧ Valid s' := by
  induction p generalizing s with
  | done r =>
    cases hrun
    exact ⟨h, hs⟩
  | call c next ih =>
    obtain ⟨hc, hnext⟩ := h
    obtain ⟨hserved, hvalid⟩ := hstep hs hc
    exact ih _ hvalid (hnext _ _ hserved) hrun

end Program

end PreviewApps.Cluster
