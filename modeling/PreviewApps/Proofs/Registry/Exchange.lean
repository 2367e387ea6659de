import Mathlib.Tactic.Common
import PreviewApps.Registry.Handshake

/-!
Laws of exchanges with a registry. A run that ends well is followed request by request with what was
answered to it, and what an exchange ensures holds whatever is answered.
-/

namespace PreviewApps.Registry.Exchange

variable {α β σ : Type}

section Runs

variable {answer : Request → σ → Outcome × σ} {s s' : σ} {qs : List Request}

def conversation (answer : Request → σ → Outcome × σ) : Exchange α → σ → List (Request × Outcome)
  | done _, _ => []
  | send q next, s =>
    (q, (answer q s).1) :: conversation answer (next (answer q s).1) (answer q s).2

theorem snd_run (x : Exchange α) (s : σ) :
    (x.run answer s).2 = (x.conversation answer s).map (·.1) := by
  induction x generalizing s with
  | done r => rfl
  | send q next ih => exact congrArg (q :: ·) (ih (answer q s).1 (answer q s).2)

theorem exists_answer_of_mem_conversation {x : Exchange α} {q : Request} {o : Outcome}
    (h : (q, o) ∈ x.conversation answer s) : ∃ s', o = (answer q s').1 := by
  induction x generalizing s with
  | done r => cases h
  | send q' next ih =>
    rcases List.mem_cons.1 h with heq | hmem
    · obtain ⟨rfl, rfl⟩ := Prod.mk.inj heq
      exact ⟨s, rfl⟩
    · exact ih _ hmem

inductive Gives (answer : Request → σ → Outcome × σ) :
    Exchange α → σ → α → List Request → σ → Prop
  | done {a : α} {s : σ} : Gives answer (done (.ok a)) s a [] s
  | send {q : Request} {next : Outcome → Exchange α} {s s' : σ} {a : α} {qs : List Request} :
    Gives answer (next (answer q s).1) (answer q s).2 a qs s' →
      Gives answer (send q next) s a (q :: qs) s'

theorem gives_pure_iff {a b : α} :
    Gives answer (pure a : Exchange α) s b qs s' ↔ b = a ∧ qs = [] ∧ s' = s := by
  constructor
  · rintro ⟨⟩
    exact ⟨rfl, rfl, rfl⟩
  · rintro ⟨rfl, rfl, rfl⟩
    exact .done

theorem not_gives_throw {e : Error} {a : α} : ¬Gives answer (throw e) s a qs s' := by
  rintro ⟨⟩

theorem gives_send_iff {q : Request} {next : Outcome → Exchange α} {a : α} :
    Gives answer (send q next) s a qs s' ↔
      ∃ rest, qs = q :: rest ∧ Gives answer (next (answer q s).1) (answer q s).2 a rest s' := by
  constructor
  · intro h
    cases h with
    | send h => exact ⟨_, rfl, h⟩
  · rintro ⟨rest, rfl, h⟩
    exact .send h

theorem gives_bind_iff {x : Exchange α} {f : α → Exchange β} {b : β} :
    Gives answer (x >>= f) s b qs s' ↔ ∃ a before s₁ after, Gives answer x s a before s₁ ∧
      Gives answer (f a) s₁ b after s' ∧ qs = before ++ after := by
  change Gives answer (x.bind f) s b qs s' ↔ _
  induction x generalizing s qs with
  | done r =>
    cases r with
    | ok a =>
      constructor
      · exact fun h => ⟨a, [], s, qs, .done, h, rfl⟩
      · rintro ⟨_, _, _, after, ⟨⟩, h, rfl⟩
        exact h
    | error e =>
      constructor
      · rintro ⟨⟩
      · rintro ⟨_, _, _, _, ⟨⟩, -⟩
  | send q next ih =>
    rw [bind, gives_send_iff]
    constructor
    · rintro ⟨rest, rfl, h⟩
      obtain ⟨a, before, s₁, after, ha, hb, rfl⟩ := (ih _).1 h
      exact ⟨a, q :: before, s₁, after, .send ha, hb, rfl⟩
    · rintro ⟨a, before, s₁, after, hfirst, hb, rfl⟩
      obtain ⟨rest, rfl, ha⟩ := gives_send_iff.1 hfirst
      exact ⟨rest ++ after, rfl, (ih _).2 ⟨a, rest, s₁, after, ha, hb, rfl⟩⟩

theorem run_eq_ok_iff {x : Exchange α} {a : α} :
    x.run answer s = (.ok a, qs) ↔ ∃ s', Gives answer x s a qs s' := by
  induction x generalizing s qs with
  | done r =>
    constructor
    · rintro ⟨⟩
      exact ⟨s, .done⟩
    · rintro ⟨_, ⟨⟩⟩
      rfl
  | send q next ih =>
    simp only [gives_send_iff]
    constructor
    · intro h
      obtain ⟨hresult, rfl⟩ := Prod.mk.inj h
      obtain ⟨s', hgives⟩ := (ih _).1 (Prod.ext hresult rfl)
      exact ⟨s', _, rfl, hgives⟩
    · rintro ⟨s', rest, rfl, hgives⟩
      obtain ⟨hresult, hrequests⟩ := Prod.ext_iff.1 ((ih _).2 ⟨s', hgives⟩)
      exact Prod.ext hresult (congrArg (List.cons q) hrequests)

end Runs

section Ensured

/-- What holds at the end, of the result and of all that was asked and answered, whatever the
answers are. -/
inductive Ensures (P : Except Error α → List (Request × Outcome) → Prop) :
    Exchange α → List (Request × Outcome) → Prop
  | done {result : Except Error α} {past : List (Request × Outcome)} :
    P result past → Ensures P (done result) past
  | send {q : Request} {next : Outcome → Exchange α} {past : List (Request × Outcome)} :
    (∀ o, Ensures P (next o) (past ++ [(q, o)])) → Ensures P (send q next) past

def Then (f : α → Exchange β) (P : Except Error β → List (Request × Outcome) → Prop) :
    Except Error α → List (Request × Outcome) → Prop
  | .ok a, past => (f a).Ensures P past
  | .error e, past => P (.error e) past

variable {past : List (Request × Outcome)}

theorem Ensures.bind {P : Except Error β → List (Request × Outcome) → Prop} {x : Exchange α}
    {f : α → Exchange β} (h : x.Ensures (Then f P) past) : (x >>= f).Ensures P past := by
  induction h with
  | @done result past h =>
    cases result with
    | ok a => exact h
    | error e => exact .done h
  | send _ ih => exact .send ih

theorem run_of_ensures {P : Except Error α → List (Request × Outcome) → Prop} {x : Exchange α}
    (h : x.Ensures P past) (answer : Request → σ → Outcome × σ) (s : σ) :
    P (x.run answer s).1 (past ++ x.conversation answer s) := by
  induction h generalizing s with
  | done h =>
    rw [conversation, List.append_nil]
    exact h
  | @send q next past _ ih =>
    have hnext := ih (answer q s).1 (answer q s).2
    rwa [List.append_assoc] at hnext

end Ensured

end PreviewApps.Registry.Exchange
