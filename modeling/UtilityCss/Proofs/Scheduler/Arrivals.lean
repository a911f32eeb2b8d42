import UtilityCss.Proofs.Scheduler.StepErrors
/-!
# Arrivals

While a processor works, and while a session sleeps or waits, files change and are removed. These
events are all that happens to the scheduler then: the clock runs on, something is reported, the
work goes on, but what the scheduler knows is changed by events alone. Processors count the events
that arrive, so a step during which the count stays is one during which no event arrived.

After a step no batch is in flight, and files that wait have a deadline. A step during which no
event arrived has also done all that was to be done: no removal is left, and the deadline, if there
is one, has not come.
-/

namespace UtilityCss

open Binary64

variable {σ : Type}

/-! ## Drifting -/

namespace Session

/-- Some number of file events arrive between two sessions, and nothing else is done to the
scheduler. -/
inductive Drifts : Nat → Session σ → Session σ → Prop
  | still {s s' : Session σ} (same : s'.scheduler = s.scheduler) : Drifts 0 s s'
  | changed {n : Nat} {s t s' : Session σ} (path : Text) (before : Drifts n s t)
      (after : s'.scheduler = (t.fileChanged path).2.scheduler) : Drifts (n + 1) s s'
  | removed {n : Nat} {s t s' : Session σ} (path : Text) (before : Drifts n s t)
      (after : s'.scheduler = (t.fileRemoved path).scheduler) : Drifts (n + 1) s s'

namespace Drifts

variable {m n : Nat} {s t u : Session σ}

theorem congr (h : Drifts n s t) (hsame : u.scheduler = t.scheduler) : Drifts n s u := by
  cases h with
  | still same => exact .still (hsame.trans same)
  | changed path before after => exact .changed path before (hsame.trans after)
  | removed path before after => exact .removed path before (hsame.trans after)

theorem trans (hst : Drifts m s t) (htu : Drifts n t u) : Drifts (m + n) s u := by
  induction htu with
  | still same => exact hst.congr same
  | changed path _ after ih => exact .changed path (ih hst) after
  | removed path _ after ih => exact .removed path (ih hst) after

/-- Without events the scheduler is what it was. -/
theorem scheduler_eq (h : Drifts 0 s t) : t.scheduler = s.scheduler := by
  cases h with
  | still same => exact same

/-- Events do not end a flight, nor do they begin one. -/
theorem compiling_eq (h : Drifts n s t) : t.scheduler.compiling = s.scheduler.compiling := by
  induction h with
  | still same => rw [same]
  | changed path _ after ih =>
    rw [after, fileChanged, (arm_snd _).1, Scheduler.armed_compiling, Scheduler.enqueue_compiling,
      ih]
  | removed path _ after ih => rw [after, fileRemoved, Scheduler.enqueueRemoval_compiling, ih]

theorem terms_eq (h : Drifts n s t) : t.terms = s.terms := by
  induction h with
  | still same => rw [terms, same, terms]
  | @changed n s t s' path _ after ih =>
    have harm := (arm_terms { t with scheduler := t.scheduler.enqueue path }).1
    rw [← ih, terms, after]
    refine harm.trans ?_
    rw [terms, Scheduler.enqueue_eq]
    rfl
  | removed path _ after ih =>
    rw [← ih, terms, after]
    rfl

end Drifts

/-- The delays of all batches can be computed. -/
def Timely (s : Session σ) : Prop :=
  ∀ n : Nat, ∃ x, thousandths (s.scheduler.settings.delay n) = .ok x

/-- Files that wait have a deadline. -/
def Armed (s : Session σ) : Prop := s.scheduler.pending ≠ [] → s.scheduler.deadline ≠ none

theorem Timely.of_terms {s t : Session σ} (h : s.Timely) (hterms : t.terms = s.terms) :
    t.Timely := by
  rw [Timely, show t.scheduler.settings = s.scheduler.settings from congrArg Prod.fst hterms]
  exact h

theorem arm_armed {s : Session σ} (h : s.Timely) : s.arm.2.Armed := by
  obtain ⟨x, hx⟩ := h s.scheduler.pending.length
  rw [Armed, (arm_snd s).1, Scheduler.armed_of_ok hx]
  exact fun _ => nofun

theorem Drifts.armed {n : Nat} {s t : Session σ} (h : Drifts n s t) (htimely : s.Timely)
    (harmed : s.Armed) : t.Armed := by
  induction h with
  | still same => rwa [Armed, same]
  | @changed n s t s' path before after ih =>
    have henqueue : Timely { t with scheduler := t.scheduler.enqueue path } := by
      unfold Timely
      rw [Scheduler.enqueue_settings]
      exact htimely.of_terms before.terms_eq
    rw [Armed, after]
    exact arm_armed henqueue
  | removed path before after ih =>
    have hbefore := ih htimely harmed
    rw [Armed, after, fileRemoved, Scheduler.enqueueRemoval_pending,
      Scheduler.enqueueRemoval_deadline]
    intro herase
    refine hbefore fun hnil => herase ?_
    rw [hnil]
    rfl

end Session

/-! ## Processors that count events -/

/-- Between two sessions only events happen to the scheduler, and they are counted. -/
structure Session.Brings (arrivals : σ → Nat) (s s' : Session σ) : Prop where
  counted : arrivals s.work ≤ arrivals s'.work
  drifts : Session.Drifts (arrivals s'.work - arrivals s.work) s s'

/-- A processor that touches the scheduler by events alone, and counts them. -/
def Processor.Attentive (p : Processor σ) (arrivals : σ → Nat) : Prop :=
  p.Relates (Session.Brings arrivals)

namespace Session

variable {arrivals : σ → Nat} {p : Processor σ} {s t u : Session σ}

namespace Brings

theorem of_same (hscheduler : t.scheduler = s.scheduler) (hwork : t.work = s.work) :
    s.Brings arrivals t := by
  refine ⟨Nat.le_of_eq (by rw [hwork]), ?_⟩
  rw [hwork, Nat.sub_self]
  exact .still hscheduler

theorem trans (hst : s.Brings arrivals t) (htu : t.Brings arrivals u) : s.Brings arrivals u := by
  have hcounted := hst.counted
  have hcounted' := htu.counted
  have hsum : arrivals t.work - arrivals s.work + (arrivals u.work - arrivals t.work) =
      arrivals u.work - arrivals s.work := by omega
  exact ⟨Nat.le_trans hcounted hcounted', hsum ▸ hst.drifts.trans htu.drifts⟩

/-- If the count stays, the scheduler is what it was. -/
theorem scheduler_eq (h : s.Brings arrivals t) (hquiet : arrivals t.work ≤ arrivals s.work) :
    t.scheduler = s.scheduler := by
  have hdrifts := h.drifts
  rw [Nat.sub_eq_zero_of_le hquiet] at hdrifts
  exact hdrifts.scheduler_eq

end Brings

end Session

theorem Processor.Attentive.loyal {p : Processor σ} {arrivals : σ → Nat}
    (hp : p.Attentive arrivals) : p.Loyal where
  runPass files s := (hp.runPass files s).drifts.terms_eq
  forget path s := (hp.forget path s).drifts.terms_eq
  rebuild s := (hp.rebuild s).drifts.terms_eq
  sleep seconds s := (hp.sleep seconds s).drifts.terms_eq

namespace Session

variable {arrivals : σ → Nat} {p : Processor σ}
  {run : Session σ → Except Failure RebuildResult × Session σ}
  {files : List Text} {removal : Bool} {s : Session σ}

/-! ## Steps -/

/-- A relation between sessions that does not depend on the clock and the reports, and that can be
chained. -/
structure Chains (R : Session σ → Session σ → Prop) : Prop where
  of_same : ∀ {s t}, t.scheduler = s.scheduler → t.work = s.work → R s t
  trans : ∀ {s t u}, R s t → R t u → R s u

theorem Brings.chains (arrivals : σ → Nat) : Chains (Brings arrivals) := ⟨.of_same, .trans⟩

variable {R : Session σ → Session σ → Prop}

/-- What holds of every attempt holds of the whole pass. -/
theorem runWithRetries_relates (files : List Text) (removal : Bool) (hR : Chains R)
    (hrun : ∀ s, R s (run s).2) (hsleep : ∀ seconds s, R s (p.sleep seconds s)) (s : Session σ) :
    R s (runWithRetries p run files removal s).2 := by
  have hemit : ∀ t e, R s t → R s (t.emit e) := fun t e h => hR.trans h (hR.of_same rfl rfl)
  obtain ⟨-, hpass, -⟩ := @attemptPass_keeps _ p run files removal (R s) (fun _ => R s)
    (fun t e h => hR.trans (hemit t e h) (hrun (t.emit e)))
    (fun _ => hemit) (fun t seconds h => hR.trans h (hsleep seconds t)) (fun _ h => h)
    s.scheduler.policy.maxRetries.toNat 1 s (hR.of_same rfl rfl)
  exact hpass

theorem handleRemovals_relates (hR : Chains R) (hp : p.Relates R) (paths : List Text)
    (s : Session σ) : R s (handleRemovals p paths s).2 := by
  induction paths generalizing s with
  | nil => exact hR.of_same rfl rfl
  | cons path paths ih =>
    have hforget := hp.forget path s
    unfold handleRemovals
    rcases hfound : p.forget path s with ⟨_ | _, s₁⟩
    · rw [hfound] at hforget
      exact hR.trans hforget (ih s₁)
    · rw [hfound] at hforget
      have hrebuild : R s₁ _ := runWithRetries_relates [] true hR hp.rebuild hp.sleep s₁
      rcases hrebuilt : runWithRetries p p.rebuild [] true s₁ with ⟨e | outcome, s₂⟩
      · rw [hrebuilt] at hrebuild
        simp only [hrebuilt]
        exact hR.trans hforget hrebuild
      · rw [hrebuilt] at hrebuild
        simp only [hrebuilt]
        exact hR.trans (hR.trans hforget hrebuild) (ih s₂)

/-- What comes of a step that has handled its removals or was broken off meanwhile: it finds no
batch due, or one without files, which loses its deadline, or one that it compiles. -/
inductive Stepped (R : Session σ → Session σ → Prop) (s₁ : Session σ) :
    Except ArithmeticError (Option PassOutcome) × Session σ → Prop
  | broke (e : ArithmeticError) : Stepped R s₁ (.error e, s₁)
  | early (notDue : s₁.scheduler.isDue s₁.now = false) : Stepped R s₁ (.ok none, s₁)
  | empty (noFiles : s₁.scheduler.pending = []) :
      Stepped R s₁ (.ok none, { s₁ with scheduler := { s₁.scheduler with deadline := none } })
  | compiled (answer : Except ArithmeticError (Option PassOutcome)) (s₂ : Session σ)
      (flight : R { s₁ with
        scheduler :=
          { s₁.scheduler with pending := [], deadline := none, compiling := true } } s₂) :
      Stepped R s₁ (answer, s₂.finishPass.2)

theorem compileDueBatch_stepped (hR : Chains R) (hp : p.Relates R) (s₁ : Session σ) :
    Stepped R s₁ (compileDueBatch p s₁) := by
  rcases htaken : s₁.scheduler.takeDueBatch s₁.now with ⟨_ | files, scheduler⟩
  · unfold compileDueBatch
    rw [htaken]
    rcases Scheduler.takeDueBatch_eq_none_iff.1 htaken with ⟨hearly, rfl⟩ | ⟨-, hempty, rfl⟩
    · exact .early hearly
    · exact .empty hempty
  · obtain ⟨-, -, -, rfl⟩ := Scheduler.takeDueBatch_eq_some_iff.1 htaken
    have hflight : R _ _ := runWithRetries_relates files false hR (hp.runPass files) hp.sleep
      { s₁ with scheduler :=
        { s₁.scheduler with pending := [], deadline := none, compiling := true } }
    rcases hbatch : runBatch p files _ with ⟨answer, s₂⟩
    rw [← runBatch.eq_def, hbatch] at hflight
    rcases hfinish : s₂.finishPass with ⟨finished, s₃⟩
    rw [compileDueBatch_of_some htaken hbatch hfinish]
    have hcompiled := Stepped.compiled (finished >>= fun _ => answer.map some) s₂ hflight
    rwa [hfinish] at hcompiled

/-- Everything that a step can do, once it has taken its removals. -/
theorem step_stepped (hR : Chains R) (hp : p.Relates R) (s : Session σ) :
    ∃ s₁, R { s with scheduler := { s.scheduler with removals := [] } } s₁ ∧
      Stepped R s₁ (step p s) := by
  have hhandle := handleRemovals_relates hR hp s.scheduler.removals
    { s with scheduler := { s.scheduler with removals := [] } }
  rcases hhandled : handleRemovals p s.scheduler.removals
    { s with scheduler := { s.scheduler with removals := [] } } with ⟨e | _, s₁⟩
  · rw [hhandled] at hhandle
    rw [step_of_error hhandled]
    exact ⟨s₁, hhandle, .broke e⟩
  · rw [hhandled] at hhandle
    rw [step_of_ok hhandled]
    exact ⟨s₁, hhandle, compileDueBatch_stepped hR hp s₁⟩

/-! ## Rest -/

/-- No batch is in flight, and files that wait have a deadline. -/
structure Poised (s : Session σ) : Prop where
  landed : s.scheduler.compiling = false
  armed : s.Armed

theorem Brings.poised (h : s.Brings arrivals t) (htimely : s.Timely) (hs : s.Poised) : t.Poised :=
  ⟨h.drifts.compiling_eq.trans hs.landed, h.drifts.armed htimely hs.armed⟩

/-- The end of a pass lets no batch be in flight, and sets the deadline of the files that came
meanwhile. -/
theorem finishPass_poised (h : s.Timely) : s.finishPass.2.Poised := by
  unfold finishPass
  dsimp only
  split
  · rename_i hempty
    exact ⟨rfl, fun hfiles => absurd (List.isEmpty_iff.1 hempty) hfiles⟩
  · obtain ⟨hscheduler, -⟩ :=
      arm_snd { s with scheduler := { s.scheduler with compiling := false } }
    have harmed : Armed _ :=
      arm_armed (s := { s with scheduler := { s.scheduler with compiling := false } }) h
    rcases harm : arm { s with scheduler := { s.scheduler with compiling := false } }
      with ⟨e | delay, s₁⟩
    all_goals
      rw [harm] at hscheduler harmed
      exact ⟨by rw [hscheduler, Scheduler.armed_compiling], harmed⟩

theorem step_poised (hp : p.Attentive arrivals) (htimely : s.Timely) (hs : s.Poised) :
    (step p s).2.Poised := by
  obtain ⟨s₁, hbrings, hstepped⟩ := step_stepped (Brings.chains arrivals) hp s
  have hs₁ : s₁.Poised := hbrings.poised htimely ⟨hs.landed, hs.armed⟩
  have htimely₁ : s₁.Timely := htimely.of_terms hbrings.drifts.terms_eq
  generalize step p s = r at hstepped
  cases hstepped with
  | broke e => exact hs₁
  | early notDue => exact hs₁
  | empty noFiles => exact ⟨hs₁.landed, fun hfiles => absurd noFiles hfiles⟩
  | compiled answer s₂ flight => exact finishPass_poised (htimely₁.of_terms flight.drifts.terms_eq)

/-- **A step during which no event arrives does all that is to be done**: no removal is left, and
the deadline has not come. -/
theorem step_quiet (hp : p.Attentive arrivals) (hs : s.Poised) (hok : (step p s).1.isOk = true)
    (hquiet : arrivals (step p s).2.work ≤ arrivals s.work) : (step p s).2.scheduler.removals = [] ∧
      ∀ d, (step p s).2.scheduler.deadline = some d → (step p s).2.now < d := by
  obtain ⟨s₁, hbrings, hstepped⟩ := step_stepped (Brings.chains arrivals) hp s
  have hcounted : arrivals s.work ≤ arrivals s₁.work := hbrings.counted
  generalize step p s = r at hstepped hok hquiet
  cases hstepped with
  | broke e => contradiction
  | early notDue =>
    have hsame := hbrings.scheduler_eq hquiet
    refine ⟨by rw [hsame], fun d hd => ?_⟩
    have hlanded : s₁.scheduler.compiling = false := by rw [hsame]; exact hs.landed
    refine Classical.byContradiction fun hlate => ?_
    rw [Scheduler.isDue_iff.2 ⟨hlanded, d, hd, hlate⟩] at notDue
    contradiction
  | empty noFiles =>
    have hsame := hbrings.scheduler_eq hquiet
    exact ⟨by rw [hsame], nofun⟩
  | compiled answer s₂ flight =>
    obtain ⟨hscheduler, -, hwork⟩ := finishPass_snd s₂
    have hcounted' : arrivals s₁.work ≤ arrivals s₂.work := flight.counted
    dsimp only at hquiet ⊢
    rw [hwork] at hquiet
    have hsame : s₁.scheduler = _ := hbrings.scheduler_eq (Nat.le_trans hcounted' hquiet)
    have hempty : s₂.scheduler = _ := flight.scheduler_eq (Nat.le_trans hquiet hcounted)
    rw [hscheduler, hempty, hsame]
    exact ⟨rfl, nofun⟩

end Session

end UtilityCss
