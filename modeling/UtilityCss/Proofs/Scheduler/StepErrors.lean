import UtilityCss.Proofs.Scheduler.Attempts
import UtilityCss.Proofs.Scheduler.Course
/-!
# What breaks a step off

A pass ends with an error only if the delay before one of its retries cannot be computed, and a step
also if that is so for the delay of a batch. Both depend on the terms of the scheduler alone, its
settings and its retry policy, which no event and no step ever changes.
-/

namespace UtilityCss

open Binary64

variable {σ : Type}

/-- The settings and the retry policy of a session. -/
def Session.terms (s : Session σ) : BatchSettings × RetryPolicy :=
  (s.scheduler.settings, s.scheduler.policy)

/-- The calls of a processor, and the sleeps before retries, relate the sessions before and after
them. -/
structure Processor.Relates (p : Processor σ) (R : Session σ → Session σ → Prop) : Prop where
  runPass : ∀ files s, R s (p.runPass files s).2
  forget : ∀ path s, R s (p.forget path s).2
  rebuild : ∀ s, R s (p.rebuild s).2
  sleep : ∀ seconds s, R s (p.sleep seconds s)

/-- A processor that leaves the terms as they are. -/
def Processor.Loyal (p : Processor σ) : Prop := p.Relates fun s s' => s'.terms = s.terms

/-- The error of a delay before one of the retries from some number on. -/
def RetryPolicy.Refuses (policy : RetryPolicy) (first retries : Nat) (e : ArithmeticError) : Prop :=
  ∃ k, first ≤ k ∧ k < first + retries ∧ policy.delayBefore k = .error e

/-- The error of a delay that a batch may have. -/
def BatchSettings.Refuses (settings : BatchSettings) (e : ArithmeticError) : Prop :=
  ∃ n : Nat, thousandths (settings.delay n) = .error e

namespace Session

variable {p : Processor σ} {run : Session σ → Except Failure RebuildResult × Session σ}
  {files : List Text} {removal : Bool} {e : ArithmeticError}

/-! ## Passes -/

/-- Whatever an attempt does, the pass keeps to the terms, and ends with an error only if they
refuse a delay. -/
theorem attemptPass_terms (hrun : ∀ s, (run s).2.terms = s.terms)
    (hsleep : ∀ seconds s, (p.sleep seconds s).terms = s.terms) (retries attempt : Nat)
    (s : Session σ) :
    (attemptPass p run files removal retries attempt s).2.terms = s.terms ∧
      ∀ e, (attemptPass p run files removal retries attempt s).1 = .error e →
        s.scheduler.policy.Refuses attempt retries e := by
  -- On the retries that are left: an attempt that fails leaves the terms to the next one.
  induction retries generalizing attempt s with
  | zero =>
    have hterms := hrun (s.emit (.passStarted files.length attempt removal))
    rcases hfirst : run (s.emit (.passStarted files.length attempt removal))
      with ⟨failure | result, s₁⟩
    all_goals
      rw [hfirst] at hterms
      unfold attemptPass
      rw [hfirst]
      exact ⟨hterms, fun e he => by contradiction⟩
  | succ retries ih =>
    have hterms := hrun (s.emit (.passStarted files.length attempt removal))
    rcases hfirst : run (s.emit (.passStarted files.length attempt removal))
      with ⟨failure | result, s₁⟩
    · rw [hfirst] at hterms
      have hpolicy : s₁.scheduler.policy = s.scheduler.policy := congrArg Prod.snd hterms
      cases hdelay : s₁.scheduler.policy.delayBefore attempt with
      | error overflow =>
        unfold attemptPass
        simp only [hfirst, hdelay]
        refine ⟨hterms, fun e he => ⟨attempt, Nat.le_refl _, by omega, ?_⟩⟩
        rw [← Except.error.inj he, ← hpolicy, hdelay]
      | ok delay =>
        rw [attemptPass_of_error hfirst hdelay]
        generalize hnext : p.sleep delay (s₁.emit _) = s₂
        have hslept : s₂.terms = s.terms := by
          rw [← hnext]
          exact (hsleep delay _).trans hterms
        obtain ⟨hlater, herror⟩ := ih (attempt + 1) s₂
        refine ⟨hlater.trans hslept, fun e he => ?_⟩
        obtain ⟨k, hk, hlt, hrefused⟩ := herror e he
        rw [show s₂.scheduler.policy = s.scheduler.policy from congrArg Prod.snd hslept] at hrefused
        exact ⟨k, Nat.le_of_succ_le hk, by omega, hrefused⟩
    · rw [hfirst] at hterms
      rw [attemptPass_of_ok hfirst]
      exact ⟨hterms, fun e he => by contradiction⟩

theorem runWithRetries_terms (files : List Text) (removal : Bool)
    (hrun : ∀ s, (run s).2.terms = s.terms)
    (hsleep : ∀ seconds s, (p.sleep seconds s).terms = s.terms) (s : Session σ) :
    (runWithRetries p run files removal s).2.terms = s.terms ∧
      ∀ e, (runWithRetries p run files removal s).1 = .error e →
        s.scheduler.policy.Refuses 1 s.scheduler.policy.maxRetries.toNat e :=
  attemptPass_terms hrun hsleep _ 1 s

/-! ## Steps -/

/-- The terms refuse a delay that a step may need. -/
def Refuses (s : Session σ) (e : ArithmeticError) : Prop :=
  s.scheduler.policy.Refuses 1 s.scheduler.policy.maxRetries.toNat e ∨
    s.scheduler.settings.Refuses e

theorem Refuses.of_terms {s s' : Session σ} (hterms : s'.terms = s.terms) (h : s'.Refuses e) :
    s.Refuses e := by
  obtain ⟨hsettings, hpolicy⟩ := Prod.mk.inj hterms
  rwa [Refuses, hsettings, hpolicy] at h

theorem handleRemovals_terms (hp : p.Loyal) (paths : List Text) (s : Session σ) :
    (handleRemovals p paths s).2.terms = s.terms ∧
      ∀ e, (handleRemovals p paths s).1 = .error e → s.Refuses e := by
  induction paths generalizing s with
  | nil => exact ⟨rfl, nofun⟩
  | cons path paths ih =>
    have hforget := hp.forget path s
    unfold handleRemovals
    rcases hfound : p.forget path s with ⟨_ | _, s₁⟩
    · rw [hfound] at hforget
      obtain ⟨hterms, herror⟩ := ih s₁
      exact ⟨hterms.trans hforget, fun e he => .of_terms hforget (herror e he)⟩
    · rw [hfound] at hforget
      obtain ⟨hterms, herror⟩ := runWithRetries_terms [] true hp.rebuild hp.sleep s₁
      rcases hrebuilt : runWithRetries p p.rebuild [] true s₁ with ⟨e | outcome, s₂⟩
      · rw [hrebuilt] at hterms herror
        simp only [hrebuilt]
        refine ⟨hterms.trans hforget, fun e' he => .of_terms hforget (.inl (herror e' ?_))⟩
        exact congrArg Except.error (Except.error.inj he)
      · rw [hrebuilt] at hterms
        simp only [hrebuilt]
        have hboth := hterms.trans hforget
        obtain ⟨hlater, herror'⟩ := ih s₂
        exact ⟨hlater.trans hboth, fun e he => .of_terms hboth (herror' e he)⟩

theorem arm_terms (s : Session σ) : s.arm.2.terms = s.terms ∧
    ∀ e, s.arm.1 = .error e → s.scheduler.settings.Refuses e := by
  unfold arm Scheduler.arm
  cases hdelay : thousandths s.scheduler.delay with
  | error e =>
    refine ⟨rfl, fun e' he => ⟨s.scheduler.pending.length, ?_⟩⟩
    rw [← Except.error.inj he]
    exact hdelay
  | ok x => exact ⟨rfl, nofun⟩

theorem finishPass_terms (s : Session σ) : s.finishPass.2.terms = s.terms ∧
    ∀ e, s.finishPass.1 = .error e → s.scheduler.settings.Refuses e := by
  unfold finishPass
  dsimp only
  split
  · exact ⟨rfl, nofun⟩
  · obtain ⟨hterms, herror⟩ :=
      arm_terms { s with scheduler := { s.scheduler with compiling := false } }
    split <;> rename_i harm <;> rw [harm] at hterms herror
    · exact ⟨hterms, fun e he => herror e (congrArg Except.error (Except.error.inj he))⟩
    · exact ⟨hterms, nofun⟩

/-- The answer for a batch that was taken counts only if its pass could be finished. -/
theorem compileDueBatch_of_some {s s₁ s₂ : Session σ} {scheduler : Scheduler}
    {answer : Except ArithmeticError PassOutcome} {finished : Except ArithmeticError Unit}
    (htaken : s.scheduler.takeDueBatch s.now = (some files, scheduler))
    (hbatch : runBatch p files { s with scheduler := scheduler } = (answer, s₁))
    (hfinish : s₁.finishPass = (finished, s₂)) :
    compileDueBatch p s = (finished >>= fun _ => answer.map some, s₂) := by
  unfold compileDueBatch
  simp only [htaken, hbatch, hfinish]
  cases finished <;> rfl

theorem compileDueBatch_terms (hp : p.Loyal) (s : Session σ) :
    (compileDueBatch p s).2.terms = s.terms ∧
      ∀ e, (compileDueBatch p s).1 = .error e → s.Refuses e := by
  rcases htaken : s.scheduler.takeDueBatch s.now with ⟨_ | files, scheduler⟩
  · obtain ⟨deadline, rfl⟩ := Scheduler.eq_of_takeDueBatch_eq_none htaken
    unfold compileDueBatch
    rw [htaken]
    exact ⟨rfl, nofun⟩
  · have hstart : ({ s with scheduler := scheduler } : Session σ).terms = s.terms := by
      obtain ⟨-, -, -, rfl⟩ := Scheduler.takeDueBatch_eq_some_iff.1 htaken
      rfl
    obtain ⟨hterms, herror⟩ := runWithRetries_terms files false (hp.runPass files) hp.sleep
      { s with scheduler := scheduler }
    rcases hbatch : runBatch p files { s with scheduler := scheduler } with ⟨answer, s₁⟩
    rw [← runBatch.eq_def, hbatch] at hterms herror
    obtain ⟨hfinished, herror'⟩ := finishPass_terms s₁
    rcases hfinish : s₁.finishPass with ⟨finished, s₂⟩
    rw [hfinish] at hfinished herror'
    rw [compileDueBatch_of_some htaken hbatch hfinish]
    -- An error in arming the next batch is reported in place of the outcome of this one.
    have hboth := hterms.trans hstart
    refine ⟨hfinished.trans hboth, fun e he => ?_⟩
    cases finished with
    | error e' =>
      have hrefused : s₁.Refuses e' := .inr (herror' e' rfl)
      exact Except.error.inj he ▸ hrefused.of_terms hboth
    | ok _ =>
      cases answer with
      | error e' =>
        have hrefused : Refuses _ e' := .inl (herror e' rfl)
        exact Except.error.inj he ▸ hrefused.of_terms hstart
      | ok outcome => contradiction

/-- A step keeps to the terms, and only a delay that they refuse breaks it off. -/
theorem step_terms (hp : p.Loyal) (s : Session σ) :
    (step p s).2.terms = s.terms ∧ ∀ e, (step p s).1 = .error e → s.Refuses e := by
  obtain ⟨hterms, herror⟩ :=
    handleRemovals_terms hp s.scheduler.removals
      { s with scheduler := { s.scheduler with removals := [] } }
  rcases hhandled : handleRemovals p s.scheduler.removals
    { s with scheduler := { s.scheduler with removals := [] } } with ⟨e | _, s₁⟩
  · rw [hhandled] at hterms herror
    rw [step_of_error hhandled]
    exact ⟨hterms, fun e' he => herror e' (congrArg Except.error (Except.error.inj he))⟩
  · rw [hhandled] at hterms
    rw [step_of_ok hhandled]
    obtain ⟨hcompiled, herror'⟩ := compileDueBatch_terms hp s₁
    exact ⟨hcompiled.trans hterms, fun e he => .of_terms hterms (herror' e he)⟩

end Session

end UtilityCss
