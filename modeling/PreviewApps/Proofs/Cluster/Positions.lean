import PreviewApps.Proofs.Cluster.History
import PreviewApps.Proofs.Cluster.Stages
import PreviewApps.Proofs.Cluster.Triple

/-!
Places in a run. An exchange of a program is one of its parts, and what is in front of that part has
been run to its end; of a deployment it is one of the service that is next.
-/

namespace PreviewApps.Cluster

namespace Program

variable {α β σ : Type} {answer : Call → σ → Answer × σ} {p : Program α} {s s' : σ} {a : α}
  {past : History} {x : Exchange}

structure Passes (answer : Call → σ → Answer × σ) (p : Program α) (s : σ) (h : History) (a : α)
    (s' : σ) : Prop where
  run : p.run answer s = (.ok a, s')
  history : p.history answer s = h

def Reaches (answer : Call → σ → Answer × σ) (p : Program α) (s : σ) (past : History)
    (x : Exchange) : Prop :=
  ∃ rest, p.history answer s = past ++ x :: rest

theorem run_bind (hp : p.run answer s = (.ok a, s')) (f : α → Program β) :
    (p >>= f).run answer s = (f a).run answer s' := by
  induction p generalizing s with
  | done r => cases hp; rfl
  | call c next ih => exact ih _ hp

theorem history_bind (hp : p.run answer s = (.ok a, s')) (f : α → Program β) :
    (p >>= f).history answer s = p.history answer s ++ (f a).history answer s' := by
  induction p generalizing s with
  | done r => cases hp; rfl
  | call c next ih => exact congrArg (_ :: ·) (ih _ hp)

theorem history_bind_of_error {e : Fault} (hp : p.run answer s = (.error e, s'))
    (f : α → Program β) : (p >>= f).history answer s = p.history answer s := by
  induction p generalizing s with
  | done r => cases hp; rfl
  | call c next ih => exact congrArg (_ :: ·) (ih _ hp)

theorem history_attempt (p : Program α) (s : σ) :
    p.attempt.history answer s = p.history answer s := by
  induction p generalizing s with
  | done r => rfl
  | call c next ih => exact congrArg (_ :: ·) (ih _ _)

theorem passes_pure (a : α) (s : σ) : (pure a : Program α).Passes answer s [] a s := ⟨rfl, rfl⟩

theorem Passes.bind {f : α → Program β} {b : β} {s'' : σ} {h h' : History}
    (hp : p.Passes answer s h a s') (hf : (f a).Passes answer s' h' b s'') :
    (p >>= f).Passes answer s (h ++ h') b s'' := by
  constructor
  · rw [run_bind hp.run, hf.run]
  · rw [history_bind hp.run, hp.history, hf.history]

theorem Passes.ends {k : Contract} {h h' : History} {Q : History → α → Prop}
    (hp : p.Passes answer s h' a s') (hhonours : p.Honours k h Q)
    (hexpects : ∀ x ∈ p.history answer s, k.expects x) : Q (h ++ h') a := by
  rcases ending_of_honours hhonours hexpects with ⟨a', hrun, hQ⟩ | ⟨e, hrun, -⟩
  · rw [hp.run] at hrun
    cases hrun
    rwa [hp.history] at hQ
  · rw [hp.run] at hrun
    cases hrun

theorem not_reaches_pure : ¬(pure a : Program α).Reaches answer s past x := by
  rintro ⟨rest, h⟩
  cases past <;> cases h

theorem reaches_bind {f : α → Program β} (h : (p >>= f).Reaches answer s past x) :
    p.Reaches answer s past x ∨ ∃ h₁ a s' own, p.Passes answer s h₁ a s' ∧ past = h₁ ++ own ∧
      (f a).Reaches answer s' own x := by
  obtain ⟨rest, hsplit⟩ := h
  rcases hrun : p.run answer s with ⟨e | a, s'⟩
  · rw [history_bind_of_error hrun] at hsplit
    exact .inl ⟨rest, hsplit⟩
  · rw [history_bind hrun] at hsplit
    rcases List.append_eq_append_iff.1 hsplit with ⟨own, hpast, hlater⟩ | ⟨own, hbefore, hlater⟩
    · exact .inr ⟨_, a, s', own, ⟨hrun, rfl⟩, hpast, rest, hlater⟩
    · cases own with
      | nil =>
        refine .inr ⟨_, a, s', [], ⟨hrun, rfl⟩, ?_, rest, hlater.symm⟩
        rw [hbefore, List.append_nil, List.append_nil]
      | cons y own =>
        obtain ⟨rfl, -⟩ := List.cons.inj hlater
        exact .inl ⟨own, hbefore⟩

theorem reaches_mapM {f : α → Program β} {xs : List α} (h : (xs.mapM f).Reaches answer s past x) :
    ∃ done y waiting, xs = done ++ y :: waiting ∧ ∃ h₁ ys s' own,
      (done.mapM f).Passes answer s h₁ ys s' ∧ past = h₁ ++ own ∧
      (f y).Reaches answer s' own x := by
  induction xs generalizing s past with
  | nil => exact absurd h not_reaches_pure
  | cons y xs ih =>
    rw [List.mapM_cons] at h
    rcases reaches_bind h with hfirst | ⟨h₁, b, s₁, own, hpasses, rfl, hlater⟩
    · refine ⟨[], y, xs, rfl, [], [], s, past, ?_, rfl, hfirst⟩
      exact passes_pure [] s
    · rcases reaches_bind hlater with hrest | ⟨_, _, _, _, -, -, hend⟩
      · obtain ⟨done, z, waiting, rfl, h₂, ys, s₂, own', hdone, rfl, hz⟩ := ih hrest
        refine ⟨y :: done, z, waiting, rfl, h₁ ++ h₂, b :: ys, s₂, own', ?_, ?_, hz⟩
        · have hrest := hdone.bind (f := fun ys => pure (b :: ys)) (passes_pure (b :: ys) s₂)
          rw [List.append_nil] at hrest
          rw [List.mapM_cons]
          exact hpasses.bind hrest
        · rw [List.append_assoc]
      · exact absurd hend not_reaches_pure

end Program

section Deployments

open Program

variable {σ : Type} {answer : Call → σ → Answer × σ} {settings : Settings}
  {container : ContainerConfig} {now : Timestamp} {u : DeploymentUnit} {s : σ} {past : History}
  {x : Exchange}

def prepare (settings : Settings) (u : DeploymentUnit) : Program (Option IngressRoute) := do
  upsertNamespace settings u.app
  providePullSecret u
  baseRoute settings

theorem deploy_eq_prepare (settings : Settings) (container : ContainerConfig) (now : Timestamp)
    (u : DeploymentUnit) : deploy settings container now u = (do
      let base ← prepare settings u
      u.services.mapM (deployService settings container now u.app u.needsPullSecret base)) := by
  rw [deploy_eq, prepare]
  simp only [LawfulMonad.bind_assoc]

/-- Deploying a unit up to where these of its services are there. -/
def leadUp (settings : Settings) (container : ContainerConfig) (now : Timestamp)
    (u : DeploymentUnit) (ready : List DeployableService) : Program (Option IngressRoute) := do
  let base ← prepare settings u
  let _ ← ready.mapM (deployService settings container now u.app u.needsPullSecret base)
  pure base

/-- The exchange is one of deploying `d`, the next service of the unit, behind the base route that
was read before. -/
def Deploying (answer : Call → σ → Answer × σ) (settings : Settings) (container : ContainerConfig)
    (now : Timestamp) (u : DeploymentUnit) (s : σ) (d : DeployableService)
    (base : Option IngressRoute) (past : History) (x : Exchange) : Prop :=
  ∃ ready waiting, u.services = ready ++ d :: waiting ∧ ∃ h s' own,
    (leadUp settings container now u ready).Passes answer s h base s' ∧ past = h ++ own ∧
    (deployService settings container now u.app u.needsPullSecret base d).Reaches answer s' own x

theorem reaches_deploy (h : (deploy settings container now u).Reaches answer s past x) :
    (prepare settings u).Reaches answer s past x ∨
      ∃ d base, Deploying answer settings container now u s d base past x := by
  rw [deploy_eq_prepare] at h
  rcases reaches_bind h with hfirst | ⟨h₁, base, s₁, own, hprepared, rfl, hlater⟩
  · exact .inl hfirst
  · obtain ⟨ready, d, waiting, hservices, h₂, replies, s₂, own', hready, rfl, hd⟩ :=
      reaches_mapM hlater
    refine .inr ⟨d, base, ready, waiting, hservices, h₁ ++ h₂, s₂, own', ?_, ?_, hd⟩
    · have hled := hready.bind (f := fun _ => pure base) (passes_pure base s₂)
      rw [List.append_nil] at hled
      exact hprepared.bind hled
    · rw [List.append_assoc]

end Deployments

end PreviewApps.Cluster
