import UtilityCss.Scheduler.Session
/-!
# The attempts of a pass

A pass is attempted until it succeeds or no retries are left. Every attempt but the first begins
where a failed one has left the session, after a sleep. What each failed attempt preserves therefore
holds at the beginning of the last one, and a pass that succeeds ends as its last attempt does.
-/

namespace UtilityCss.Session

open Binary64

variable {σ : Type} {p : Processor σ} {run : Session σ → Except Failure RebuildResult × Session σ}
  {files : List Text} {removal : Bool}

/-- The sessions in which the attempts of a pass begin, the first attempt first. -/
def attempts (p : Processor σ) (run : Session σ → Except Failure RebuildResult × Session σ)
    (files : List Text) (removal : Bool) : (retries attempt : Nat) → Session σ → List (Session σ)
  | retries, attempt, s =>
    let start := s.emit (.passStarted files.length attempt removal)
    match run start with
    | (.ok _, _) => [start]
    | (.error e, s) =>
      match retries with
      | 0 => [start]
      | retries + 1 =>
        match s.scheduler.policy.delayBefore attempt with
        | .error _ => [start]
        | .ok delay =>
          let maxRetries := s.scheduler.policy.maxRetries
          let event := .passRetrying files.length attempt maxRetries delay e.message removal
          start :: attempts p run files removal retries (attempt + 1) (p.sleep delay (s.emit event))

/-- The sessions in which the attempts of a batch begin. -/
def batchAttempts (p : Processor σ) (files : List Text) (s : Session σ) : List (Session σ) :=
  attempts p (p.runPass files) files false s.scheduler.policy.maxRetries.toNat 1 s

theorem attempts_ne_nil (retries attempt : Nat) (s : Session σ) :
    attempts p run files removal retries attempt s ≠ [] := by
  unfold attempts
  dsimp only
  split
  · simp
  · split
    · simp
    · split <;> simp

section Steps

variable {retries attempt : Nat} {s s₁ : Session σ} {result : RebuildResult} {e : Failure}
  {delay : Float}

/-- An attempt that succeeds is the last one. -/
theorem attempts_of_ok
    (h : run (s.emit (.passStarted files.length attempt removal)) = (.ok result, s₁)) :
    attempts p run files removal retries attempt s =
      [s.emit (.passStarted files.length attempt removal)] := by
  unfold attempts
  simp only [h]

theorem attemptPass_of_ok
    (h : run (s.emit (.passStarted files.length attempt removal)) = (.ok result, s₁)) :
    attemptPass p run files removal retries attempt s = (.ok ⟨files, attempt, .ok result⟩,
      s₁.emit (.passCompleted files.length (attempt - 1 : Nat) result.ruleCount removal)) := by
  unfold attemptPass
  simp only [h]

/-- An attempt that fails is followed by the others, if a retry is left and its delay can be
computed. -/
theorem attempts_of_error
    (h : run (s.emit (.passStarted files.length attempt removal)) = (.error e, s₁))
    (hdelay : s₁.scheduler.policy.delayBefore attempt = .ok delay) :
    attempts p run files removal (retries + 1) attempt s =
      s.emit (.passStarted files.length attempt removal) ::
      attempts p run files removal retries (attempt + 1) (p.sleep delay (s₁.emit
        (.passRetrying files.length attempt s₁.scheduler.policy.maxRetries delay e.message
          removal))) := by
  rw [attempts]
  simp only [h, hdelay]

theorem attemptPass_of_error
    (h : run (s.emit (.passStarted files.length attempt removal)) = (.error e, s₁))
    (hdelay : s₁.scheduler.policy.delayBefore attempt = .ok delay) :
    attemptPass p run files removal (retries + 1) attempt s =
      attemptPass p run files removal retries (attempt + 1) (p.sleep delay (s₁.emit
        (.passRetrying files.length attempt s₁.scheduler.policy.maxRetries delay e.message
          removal))) := by
  rw [attemptPass]
  simp only [h, hdelay]

/-- The first attempt of a pass that succeeds in the end either succeeds, or it is followed by
others. -/
theorem first_of_attemptPass_ok {s' : Session σ} {outcome : PassOutcome}
    (hpass : attemptPass p run files removal retries attempt s = (.ok outcome, s'))
    (hresult : outcome.result = .ok result) :
    (∃ s₁ event, run (s.emit (.passStarted files.length attempt removal)) = (.ok result, s₁) ∧
      s' = s₁.emit event) ∨
    ∃ e s₁ retries' delay, run (s.emit (.passStarted files.length attempt removal)) =
      (.error e, s₁) ∧
      retries = retries' + 1 ∧ s₁.scheduler.policy.delayBefore attempt = .ok delay := by
  cases hrun : run (s.emit (.passStarted files.length attempt removal)) with
  | mk answer s₁ =>
    cases answer with
    | ok result' =>
      rw [attemptPass_of_ok hrun] at hpass
      obtain ⟨houtcome, hs'⟩ := Prod.mk.inj hpass
      rw [← Except.ok.inj houtcome] at hresult
      obtain rfl := Except.ok.inj hresult
      exact .inl ⟨s₁, _, rfl, hs'.symm⟩
    | error e =>
      right
      unfold attemptPass at hpass
      rw [hrun] at hpass
      cases retries with
      | zero =>
        -- No retry is left, so the failure is the outcome.
        obtain ⟨houtcome, -⟩ := Prod.mk.inj hpass
        rw [← Except.ok.inj houtcome] at hresult
        contradiction
      | succ retries =>
        cases hdelay : s₁.scheduler.policy.delayBefore attempt with
        | error overflow =>
          dsimp only at hpass
          rw [hdelay] at hpass
          cases congrArg Prod.fst hpass
        | ok delay => exact ⟨e, s₁, retries, delay, rfl, rfl, hdelay⟩

end Steps

/-- **A pass that succeeds ends as its last attempt.** If the first attempt is ready, and every
attempt that fails leaves the next one ready, then the last attempt is ready; and after it there is
only a report. -/
theorem of_attemptPass_ok (Ready : Session σ → Prop) {retries attempt : Nat} {s s' last : Session σ}
    {outcome : PassOutcome} {result : RebuildResult}
    (hfirst : Ready (s.emit (.passStarted files.length attempt removal)))
    (hagain : ∀ a ∈ attempts p run files removal retries attempt s, Ready a →
      ∀ e a', run a = (.error e, a') →
      ∀ seconds event event', Ready ((p.sleep seconds (a'.emit event)).emit event'))
    (hpass : attemptPass p run files removal retries attempt s = (.ok outcome, s'))
    (hresult : outcome.result = .ok result)
    (hlast : (attempts p run files removal retries attempt s).getLast? = some last) :
    Ready last ∧ ∃ last' event, run last = (.ok result, last') ∧ s' = last'.emit event := by
  -- On the retries that are left, for all sessions: what an attempt leaves is where the next one
  -- begins.
  induction retries generalizing attempt s with
  | zero =>
    obtain ⟨s₁, event, hrun, hs'⟩ | ⟨e, s₁, retries', delay, -, hnone, -⟩ :=
      first_of_attemptPass_ok hpass hresult
    · rw [attempts_of_ok hrun] at hlast
      obtain rfl := Option.some.inj hlast
      exact ⟨hfirst, s₁, event, hrun, hs'⟩
    · contradiction
  | succ retries ih =>
    obtain ⟨s₁, event, hrun, hs'⟩ | ⟨e, s₁, retries', delay, hrun, -, hdelay⟩ :=
      first_of_attemptPass_ok hpass hresult
    · rw [attempts_of_ok hrun] at hlast
      obtain rfl := Option.some.inj hlast
      exact ⟨hfirst, s₁, event, hrun, hs'⟩
    · rw [attempts_of_error hrun hdelay] at hlast hagain
      rw [attemptPass_of_error hrun hdelay] at hpass
      rw [List.getLast?_cons_of_ne_nil (attempts_ne_nil _ _ _)] at hlast
      have hnext := hagain _ (.head _) hfirst e s₁ hrun delay
      exact ih (hnext _ _) (fun a ha => hagain a (.tail _ ha)) hpass hlast

/-- The outcome of a pass is about its files. -/
theorem files_of_attemptPass {retries attempt : Nat} {s s' : Session σ} {outcome : PassOutcome}
    (h : attemptPass p run files removal retries attempt s = (.ok outcome, s')) :
    outcome.files = files := by
  induction retries generalizing attempt s with
  | zero =>
    unfold attemptPass at h
    split at h
    · rw [← Except.ok.inj (Prod.mk.inj h).1]
    · rw [← Except.ok.inj (Prod.mk.inj h).1]
  | succ retries ih =>
    unfold attemptPass at h
    split at h
    · rw [← Except.ok.inj (Prod.mk.inj h).1]
    · dsimp only at h
      split at h
      · cases congrArg Prod.fst h
      · exact ih h

/-- **Sessions that cannot be told apart have the same outcome.** If a relation between sessions is
kept by what is attempted, by events and by sleeps, and all that are related agree on the answers
and on the policy, then they agree on the outcome. -/
theorem attemptPass_alike {R : Session σ → Session σ → Prop}
    (hrun : ∀ s t, R s t → (run s).1 = (run t).1 ∧ R (run s).2 (run t).2)
    (hemit : ∀ s t e e', R s t → R (s.emit e) (t.emit e'))
    (hsleep : ∀ s t seconds, R s t → R (p.sleep seconds s) (p.sleep seconds t))
    (hpolicy : ∀ s t, R s t → s.scheduler.policy = t.scheduler.policy)
    (retries attempt : Nat) {s t : Session σ} (h : R s t) :
    (attemptPass p run files removal retries attempt s).1 =
        (attemptPass p run files removal retries attempt t).1 ∧
      R (attemptPass p run files removal retries attempt s).2
        (attemptPass p run files removal retries attempt t).2 := by
  -- Two attempts give the same answer, so both passes take the same branch.
  have hattempt : ∀ attempt s t, R s t → ∃ answer s₁ t₁,
      run (s.emit (.passStarted files.length attempt removal)) = (answer, s₁) ∧
      run (t.emit (.passStarted files.length attempt removal)) = (answer, t₁) ∧ R s₁ t₁ := by
    intro attempt s t h
    obtain ⟨hanswer, hafter⟩ := hrun _ _ (hemit s t _ _ h)
    refine ⟨_, _, (run (t.emit (.passStarted files.length attempt removal))).2, rfl, ?_, hafter⟩
    exact Prod.ext hanswer.symm rfl
  induction retries generalizing attempt s t with
  | zero =>
    obtain ⟨answer, s₁, t₁, hs, ht, hafter⟩ := hattempt attempt s t h
    unfold attemptPass
    rw [hs, ht]
    cases answer with
    | ok result => exact ⟨rfl, hemit _ _ _ _ hafter⟩
    | error e => exact ⟨rfl, hemit _ _ _ _ hafter⟩
  | succ retries ih =>
    obtain ⟨answer, s₁, t₁, hs, ht, hafter⟩ := hattempt attempt s t h
    unfold attemptPass
    rw [hs, ht]
    cases answer with
    | ok result => exact ⟨rfl, hemit _ _ _ _ hafter⟩
    | error e =>
      dsimp only
      rw [hpolicy _ _ hafter]
      cases t₁.scheduler.policy.delayBefore attempt with
      | error overflow => exact ⟨rfl, hafter⟩
      | ok delay => exact ih (attempt + 1) (hsleep _ _ delay (hemit _ _ _ _ hafter))

end UtilityCss.Session
