import Mathlib.Data.List.Forall2
import PreviewApps.Proofs.Cluster.Stages

/-!
Histories: the calls of a run, each with its answer. A contract says what must hold of the history
whenever a call is made and when a program gives up. A program that honours its contract keeps it in
every run, whatever the answers are.
-/

namespace PreviewApps.Cluster

abbrev Exchange := Call × Answer

abbrev History := List Exchange

/-- What a program may expect of the answers, and what it has to ensure at every call and fault. -/
structure Contract where
  expects : Exchange → Prop
  before : History → Call → Prop
  faulty : History → Fault → Prop

theorem forall_error_concat {P : Call → ApiError → Prop} {h : History} {c : Call} {a : Answer}
    (hh : ∀ c e, (c, .error e) ∈ h → P c e) (ha : ∀ e, a = .error e → P c e) :
    ∀ c' e, (c', .error e) ∈ h ++ [(c, a)] → P c' e := by
  intro c' e hmem
  rcases List.mem_append.1 hmem with hold | hnew
  · exact hh c' e hold
  · have hlast : (c', Except.error e) = (c, a) := List.mem_singleton.1 hnew
    cases hlast
    exact ha e rfl

namespace Program

variable {α β σ : Type}

def history (answer : Call → σ → Answer × σ) : Program α → σ → History
  | done _, _ => []
  | call c next, s => (c, (answer c s).1) :: history answer (next (answer c s).1) (answer c s).2

/-- Started after the given history, the program keeps the contract and ends as demanded. -/
def Honours (k : Contract) : Program α → History → (History → α → Prop) → Prop
  | done (.ok a), h, Q => Q h a
  | done (.error e), h, _ => k.faulty h e
  | call c next, h, Q =>
    k.before h c ∧ ∀ a, k.expects (c, a) → (next a).Honours k (h ++ [(c, a)]) Q

variable {k : Contract} {p : Program α} {h : History} {Q Q' : History → α → Prop}

theorem Honours.mono (hp : p.Honours k h Q) (hQ : ∀ h' a, Q h' a → Q' h' a) :
    p.Honours k h Q' := by
  induction p generalizing h with
  | done r =>
    cases r with
    | ok a => exact hQ h a hp
    | error e => exact hp
  | call c next ih => exact ⟨hp.1, fun a ha => ih a (hp.2 a ha)⟩

theorem Honours.bind {f : α → Program β} {Q : History → β → Prop}
    (hp : p.Honours k h fun h' a => (f a).Honours k h' Q) : (p >>= f).Honours k h Q := by
  induction p generalizing h with
  | done r =>
    cases r with
    | ok a => exact hp
    | error e => exact hp
  | call c next ih => exact ⟨hp.1, fun a ha => ih a (hp.2 a ha)⟩

theorem Honours.extending (hp : p.Honours k h Q) :
    p.Honours k h fun h' a => h <+: h' ∧ Q h' a := by
  suffices hfrom : ∀ h₀, h₀ <+: h → p.Honours k h fun h' a => h₀ <+: h' ∧ Q h' a from
    hfrom h (List.prefix_refl h)
  intro h₀ hh₀
  induction p generalizing h with
  | done r =>
    cases r with
    | ok a => exact ⟨hh₀, hp⟩
    | error e => exact hp
  | call c next ih =>
    refine ⟨hp.1, ?_⟩
    intro a ha
    exact ih a (hp.2 a ha) (hh₀.trans (List.prefix_append h _))

/-- Takes a fault for a result, so that other programs can follow. -/
def attempt : Program α → Program (Except Fault α)
  | done r => done (.ok r)
  | call c next => call c fun a => (next a).attempt

theorem honours_attempt {Q' : History → Except Fault α → Prop} (hp : p.Honours k h Q)
    (hok : ∀ h' a, Q h' a → Q' h' (.ok a)) (herror : ∀ h' e, k.faulty h' e → Q' h' (.error e)) :
    p.attempt.Honours k h Q' := by
  induction p generalizing h with
  | done r =>
    cases r with
    | ok a => exact hok h a hp
    | error e => exact herror h e hp
  | call c next ih => exact ⟨hp.1, fun a ha => ih a (hp.2 a ha)⟩

theorem Honours.discard {Q : History → Unit → Prop} (hp : p.Honours k h fun h' _ => Q h' ()) :
    (Functor.discard p).Honours k h Q :=
  Honours.bind (f := fun _ => pure ()) hp

theorem honours_ofExcept {r : Except Fault α} (hok : ∀ a, r = .ok a → Q h a)
    (herror : ∀ e, r = .error e → k.faulty h e) : (ofExcept r).Honours k h Q := by
  cases r with
  | ok a => exact hok a rfl
  | error e => exact herror e rfl

theorem honours_ok {a : α} {r : Except Fault α} (hr : r = .ok a) (hQ : Q h a) :
    (ofExcept r).Honours k h Q := by
  subst hr
  exact hQ

theorem honours_must {action : Action} {c : Call} {Q : History → Json → Prop} (hc : k.before h c)
    (hok : ∀ j, k.expects (c, .ok j) → Q (h ++ [(c, .ok j)]) j)
    (herror : ∀ e, k.faulty (h ++ [(c, .error e)]) (.api action e)) :
    (must action c).Honours k h Q := by
  refine ⟨hc, ?_⟩
  intro a ha
  cases a with
  | ok j => exact hok j ha
  | error e => exact herror e

theorem honours_may {absorbed : List Int} {action : Action} {c : Call}
    {Q : History → Option Json → Prop} (hc : k.before h c)
    (hok : ∀ j, k.expects (c, .ok j) → Q (h ++ [(c, .ok j)]) (some j))
    (habsorbed : ∀ e, e.status ∈ absorbed → Q (h ++ [(c, .error e)]) none)
    (herror : ∀ e, e.status ∉ absorbed → k.faulty (h ++ [(c, .error e)]) (.api action e)) :
    (may absorbed action c).Honours k h Q := by
  refine ⟨hc, ?_⟩
  intro a ha
  cases a with
  | ok j => exact hok j ha
  | error e =>
    show (if absorbed.contains e.status then pure none else throw (.api action e)).Honours k _ Q
    by_cases hstatus : e.status ∈ absorbed
    · rw [if_pos (List.contains_iff_mem.2 hstatus)]
      exact habsorbed e hstatus
    · rw [if_neg (fun hmem => hstatus (List.contains_iff_mem.1 hmem))]
      exact herror e hstatus

theorem honours_createOrUpdate {mode : UpdateMode} {kind : Kind} {ns name : String} {body : Json}
    {creating updating : Action} {Q : History → Json → Prop}
    (hcreate : k.before h (.create kind ns body))
    (hcreated : ∀ j, k.expects (.create kind ns body, .ok j) →
      Q (h ++ [(.create kind ns body, .ok j)]) j)
    (hexists : ∀ e, e.status = 409 →
      (must updating (updateCall mode kind ns name body)).Honours k
        (h ++ [(.create kind ns body, .error e)]) Q)
    (hrefused : ∀ e, e.status ≠ 409 →
      k.faulty (h ++ [(.create kind ns body, .error e)]) (.api creating e)) :
    (upsert mode kind ns name body creating updating).Honours k h Q := by
  refine ⟨hcreate, ?_⟩
  intro a ha
  cases a with
  | ok j => exact hcreated j ha
  | error e =>
    show (if e.status = 409 then must updating (updateCall mode kind ns name body)
      else throw (.api creating e)).Honours k _ Q
    by_cases hstatus : e.status = 409
    · rw [if_pos hstatus]
      exact hexists e hstatus
    · rw [if_neg hstatus]
      exact hrefused e hstatus

theorem honours_mapM {f : α → Program β} {I : History → Prop} {R : α → β → Prop} {xs : List α}
    (hstep : ∀ x ∈ xs, ∀ h, I h → (f x).Honours k h fun h' y => I h' ∧ R x y) (hI : I h) :
    (xs.mapM f).Honours k h fun h' ys => I h' ∧ List.Forall₂ R xs ys := by
  induction xs generalizing h with
  | nil => exact ⟨hI, .nil⟩
  | cons x xs ih =>
    have hrest := fun h₁ => ih (h := h₁) fun y hy => hstep y (List.mem_cons_of_mem x hy)
    rw [List.mapM_cons]
    refine Honours.bind ((hstep x (List.mem_cons_self ..) h hI).mono ?_)
    rintro h₁ y ⟨hI₁, hy⟩
    refine Honours.bind ((hrest h₁ hI₁).mono ?_)
    rintro h₂ ys ⟨hI₂, hys⟩
    exact ⟨hI₂, .cons hy hys⟩

theorem honours_forM {f : α → Program Unit} {I : List α → History → Prop} {xs : List α}
    (hstep : ∀ done, ∀ x ∈ xs, ∀ h, I done h →
      (f x).Honours k h fun h' _ => I (done ++ [x]) h') (hI : I [] h) :
    (xs.forM f).Honours k h fun h' _ => I xs h' := by
  suffices hfrom : ∀ done h, I done h → (xs.forM f).Honours k h fun h' _ => I (done ++ xs) h' from
    hfrom [] h hI
  clear hI
  induction xs with
  | nil =>
    intro done h hI
    rw [List.append_nil]
    exact hI
  | cons x xs ih =>
    intro done h hI
    refine Honours.bind ((hstep done x (List.mem_cons_self ..) h hI).mono ?_)
    intro h₁ _ hI₁
    have hlast := ih (fun done y hy => hstep done y (List.mem_cons_of_mem x hy)) _ h₁ hI₁
    rwa [List.append_assoc] at hlast

theorem Honours.and_results {R : α → Prop} (hp : p.Honours k h Q) (hr : p.Results R) :
    p.Honours k h fun h' a => Q h' a ∧ R a := by
  induction p generalizing h with
  | done r =>
    cases r with
    | ok a => exact ⟨hp, hr⟩
    | error e => exact hp
  | call c next ih => exact ⟨hp.1, fun a ha => ih a (hp.2 a ha) (hr a)⟩

theorem exists_answer_of_mem_history {answer : Call → σ → Answer × σ} {s : σ} {x : Exchange}
    (hx : x ∈ p.history answer s) : ∃ s', x.2 = (answer x.1 s').1 := by
  induction p generalizing s with
  | done r => cases hx
  | call c next ih =>
    rcases List.mem_cons.1 hx with rfl | hrest
    · exact ⟨s, rfl⟩
    · exact ih _ hrest

/-- At every call of a run the contract holds of the history up to it. -/
theorem before_of_honours {answer : Call → σ → Answer × σ} {s : σ} (hp : p.Honours k h Q)
    (hexpects : ∀ x ∈ p.history answer s, k.expects x) {past rest : History} {c : Call}
    {a : Answer} (hsplit : p.history answer s = past ++ (c, a) :: rest) :
    k.before (h ++ past) c := by
  induction p generalizing h s past with
  | done r => simp [history] at hsplit
  | call c' next ih =>
    have hfirst := hexpects _ (List.mem_cons_self ..)
    have hlater := fun x hx => hexpects x (List.mem_cons_of_mem _ hx)
    cases past with
    | nil =>
      have hc : c' = c := congrArg Prod.fst (List.cons.inj hsplit).1
      rw [← hc, List.append_nil]
      exact hp.1
    | cons x past =>
      obtain ⟨rfl, hrest⟩ := List.cons.inj hsplit
      have hlast := ih _ (hp.2 _ hfirst) hlater hrest
      rwa [List.append_assoc] at hlast

theorem ending_of_honours {answer : Call → σ → Answer × σ} {s : σ} (hp : p.Honours k h Q)
    (hexpects : ∀ x ∈ p.history answer s, k.expects x) :
    (∃ a, (p.run answer s).1 = .ok a ∧ Q (h ++ p.history answer s) a) ∨
      ∃ e, (p.run answer s).1 = .error e ∧ k.faulty (h ++ p.history answer s) e := by
  induction p generalizing h s with
  | done r =>
    rw [history, List.append_nil]
    cases r with
    | ok a => exact .inl ⟨a, rfl, hp⟩
    | error e => exact .inr ⟨e, rfl, hp⟩
  | call c next ih =>
    have hfirst := hexpects _ (List.mem_cons_self ..)
    have hlater := fun x hx => hexpects x (List.mem_cons_of_mem _ hx)
    have hlast := ih _ (hp.2 _ hfirst) hlater
    rwa [List.append_assoc] at hlast

end Program

end PreviewApps.Cluster
