import UtilityCss.Proofs.Scheduler.Chronicle
/-!
# The course of a run

What can happen next is said once, by `Chronicle.Follows`: it relates a history to the moments that
may come after it, with everything that a running step checks at that point. A course is a history
in which every moment follows those before it. The main lemma, `Chronicle.run_course`, is that every
run writes a course, whatever the visits do; the laws of the scheduler are then laws of courses,
shown by induction on the history alone.
-/

namespace UtilityCss

@[simp] theorem isOk_ok {ε α : Type} (a : α) : (Except.ok a : Except ε α).isOk = true := rfl

@[simp] theorem isOk_error {ε α : Type} (e : ε) : (Except.error e : Except ε α).isOk = false := rfl

/-! ## What the operations do to the scheduler -/

namespace Scheduler

/-- The scheduler after its deadline was set, unchanged if the delay is no double. -/
def armed (s : Scheduler) (now : Float) : Scheduler :=
  match s.arm now with
  | .ok s => s
  | .error _ => s

/-- The scheduler after a batch was compiled. -/
def landed (s : Scheduler) (now : Float) : Scheduler :=
  if s.pending.isEmpty then { s with compiling := false }
  else { s with compiling := false }.armed now

theorem armed_of_ok {s : Scheduler} {now x : Float} (h : thousandths s.delay = .ok x) :
    s.armed now = { s with deadline := some (now + x) } := by
  simp [armed, arm, h, bind, Except.bind, pure, Except.pure]

theorem armed_of_error {s : Scheduler} {now : Float} {e : Binary64.ArithmeticError}
    (h : thousandths s.delay = .error e) : s.armed now = s := by
  simp [armed, arm, h, bind, Except.bind]

/-- Setting the deadline changes nothing else. -/
theorem armed_eq (s : Scheduler) (now : Float) :
    ∃ deadline, s.armed now = { s with deadline := deadline } := by
  cases h : thousandths s.delay with
  | ok x => exact ⟨_, armed_of_ok h⟩
  | error e => exact ⟨s.deadline, armed_of_error h⟩

@[simp] theorem armed_pending (s : Scheduler) (now : Float) :
    (s.armed now).pending = s.pending := by
  obtain ⟨_, h⟩ := s.armed_eq now
  rw [h]

@[simp] theorem armed_removals (s : Scheduler) (now : Float) :
    (s.armed now).removals = s.removals := by
  obtain ⟨_, h⟩ := s.armed_eq now
  rw [h]

@[simp] theorem armed_compiling (s : Scheduler) (now : Float) :
    (s.armed now).compiling = s.compiling := by
  obtain ⟨_, h⟩ := s.armed_eq now
  rw [h]

@[simp] theorem armed_settings (s : Scheduler) (now : Float) :
    (s.armed now).settings = s.settings := by
  obtain ⟨_, h⟩ := s.armed_eq now
  rw [h]

@[simp] theorem landed_pending (s : Scheduler) (now : Float) :
    (s.landed now).pending = s.pending := by
  unfold landed; split <;> simp

@[simp] theorem landed_removals (s : Scheduler) (now : Float) :
    (s.landed now).removals = s.removals := by
  unfold landed; split <;> simp

@[simp] theorem landed_compiling (s : Scheduler) (now : Float) :
    (s.landed now).compiling = false := by
  unfold landed; split <;> simp

@[simp] theorem landed_settings (s : Scheduler) (now : Float) :
    (s.landed now).settings = s.settings := by
  unfold landed; split <;> simp

end Scheduler

namespace Session

variable {σ : Type}

theorem arm_snd (s : Session σ) :
    s.arm.2.scheduler = s.scheduler.armed s.now ∧ s.arm.2.now = s.now ∧ s.arm.2.work = s.work := by
  unfold arm Scheduler.armed
  cases s.scheduler.arm s.now <;> simp [emit, record]

theorem finishPass_snd (s : Session σ) :
    s.finishPass.2.scheduler = s.scheduler.landed s.now ∧ s.finishPass.2.now = s.now ∧
      s.finishPass.2.work = s.work := by
  unfold finishPass Scheduler.landed
  by_cases h : s.scheduler.pending.isEmpty
  · simp [h]
  · have harm := arm_snd { s with scheduler := { s.scheduler with compiling := false } }
    simp only [h, Bool.false_eq_true, if_false]
    revert harm
    rcases arm { s with scheduler := { s.scheduler with compiling := false } } with ⟨_ | _, s'⟩ <;>
      exact id

/-- What every attempt keeps, a pass with all its retries keeps. `Ready` is what an attempt needs,
`Done` what it leaves, where the number of the attempt and the events do not matter. An error breaks
off the retries only after an attempt has failed. -/
theorem attemptPass_keeps {p : Processor σ}
    {run : Session σ → Except Failure RebuildResult × Session σ} {files : List Text}
    {removal : Bool} {Ready : Session σ → Prop} {Done : Bool → Session σ → Prop}
    (hrun : ∀ s e, Ready s → Done (run (s.emit e)).1.isOk (run (s.emit e)).2)
    (hemit : ∀ succeeded s e, Done succeeded s → Done succeeded (s.emit e))
    (hsleep : ∀ s seconds, Done false s → Done false (p.sleep seconds s))
    (hagain : ∀ s, Done false s → Ready s) (retries attempt : Nat) (s : Session σ) (hs : Ready s) :
    ∃ succeeded, Done succeeded (attemptPass p run files removal retries attempt s).2 ∧
      ((attemptPass p run files removal retries attempt s).1.isOk ∨ succeeded = false) := by
  induction retries generalizing attempt s with
  | zero =>
    -- The last attempt decides, and its outcome is no error of the step.
    have hdone := hrun s (.passStarted files.length attempt removal) hs
    unfold attemptPass
    revert hdone
    rcases run (s.emit (.passStarted files.length attempt removal)) with ⟨e | result, s'⟩ <;>
      exact fun hdone => ⟨_, hemit _ _ _ hdone, .inl rfl⟩
  | succ retries ih =>
    have hdone := hrun s (.passStarted files.length attempt removal) hs
    unfold attemptPass
    revert hdone
    rcases run (s.emit (.passStarted files.length attempt removal)) with ⟨e | result, s'⟩
    · intro hdone
      simp only
      split
      · exact ⟨_, hdone, .inr rfl⟩
      · exact ih _ _ (hagain _ (hsleep _ _ (hemit _ _ _ hdone)))
    · exact fun hdone => ⟨_, hemit _ _ _ hdone, .inl rfl⟩

end Session

/-! ## What can happen next -/

namespace Chronicle

/-- The scheduler as a history leaves it. A step that has just begun takes the queued removals. -/
def standing (start : Scheduler) : List Moment → Scheduler
  | [] => start
  | m :: _ => if m.happening = .stepBegan then { m.scheduler with removals := [] } else m.scheduler

section Standing

variable (start : Scheduler) (m : Moment) (h : List Moment)

/-- Only the queue of removals depends on whether a step has just begun. -/
theorem standing_cons : standing start (m :: h) = { m.scheduler with
    removals := if m.happening = .stepBegan then [] else m.scheduler.removals } := by
  by_cases hm : m.happening = .stepBegan <;> simp [standing, hm]

@[simp] theorem standing_pending : (standing start (m :: h)).pending = m.scheduler.pending := by
  rw [standing_cons]

@[simp] theorem standing_deadline : (standing start (m :: h)).deadline = m.scheduler.deadline := by
  rw [standing_cons]

@[simp] theorem standing_compiling :
    (standing start (m :: h)).compiling = m.scheduler.compiling := by
  rw [standing_cons]

@[simp] theorem standing_settings : (standing start (m :: h)).settings = m.scheduler.settings := by
  rw [standing_cons]

@[simp] theorem standing_removals : (standing start (m :: h)).removals =
    if m.happening = .stepBegan then [] else m.scheduler.removals := by
  rw [standing_cons]

end Standing

/-- The clock as a history leaves it. -/
def clock : List Moment → Float
  | [] => 0.0
  | m :: _ => m.now

@[simp] theorem clock_cons (m : Moment) (h : List Moment) : clock (m :: h) = m.now := rfl

/-- The files that a history leaves tracked. -/
def trackedBy : List Moment → List Text
  | [] => []
  | m :: h =>
    match m.happening with
    | .forgot path => (trackedBy h).filter (· != path)
    | .compiled files true => trackedBy h ++ files
    | _ => trackedBy h

section Courses

variable (start : Scheduler) (depth : Nat) (outcomes : Bool → Prop)

/-- The moments that may come after a history, where steps are nested up to a depth, and passes and
rebuilds end as `outcomes` allows. -/
inductive Follows (h : List Moment) : Moment → Prop
  | changed (path : Text) :
      Follows h ⟨.changed path, ((standing start h).enqueue path).armed (clock h), clock h⟩
  | removed (path : Text) :
      Follows h ⟨.removed path, (standing start h).enqueueRemoval path, clock h⟩
  | advanced (now : Float) : Follows h ⟨.advanced, standing start h, now⟩
  | slept (now : Float) : Follows h ⟨.slept, standing start h, now⟩
  | stepBegan (shallow : (stages h).length < depth) :
      Follows h ⟨.stepBegan, standing start h, clock h⟩
  | forgetBegan {path : Text} {held : List Text} {outer : List Stage}
      (handling : stages h = .handling (path :: held) :: outer) :
      Follows h ⟨.forgetBegan path, standing start h, clock h⟩
  | forgot {path : Text} {held : List Text} {outer : List Stage}
      (forgetting : stages h = .forgetting path held :: outer) :
      Follows h ⟨.forgot path, standing start h, clock h⟩
  | taken {files : List Text} {outer : List Stage} {s : Scheduler}
      (handled : stages h = .handling [] :: outer)
      (due : (standing start h).takeDueBatch (clock h) = (some files, s)) :
      Follows h ⟨.taken files, s, clock h⟩
  | passBegan {files : List Text} {stage : Stage} {outer : List Stage}
      (running : stages h = stage :: outer)
      (ready : stage = .taken files ∨ stage = .returned files false) :
      Follows h ⟨.passBegan files, standing start h, clock h⟩
  | compiled {files : List Text} {succeeded : Bool} {outer : List Stage}
      (passing : stages h = .passing files :: outer) (allowed : outcomes succeeded) :
      Follows h ⟨.compiled files succeeded, standing start h, clock h⟩
  | passEnded {files : List Text} {succeeded : Bool} {outer : List Stage}
      (passed : stages h = .passed files succeeded :: outer) :
      Follows h ⟨.passEnded files succeeded, standing start h, clock h⟩
  /-- A step takes no batch. -/
  | stepRested {outer : List Stage} {s : Scheduler} (handled : stages h = .handling [] :: outer)
      (rest : (standing start h).takeDueBatch (clock h) = (none, s)) :
      Follows h ⟨.stepEnded none false, s, clock h⟩
  /-- An error breaks off a step that handles removals: a rebuild has failed. -/
  | stepBroke {held : List Text} {outer : List Stage}
      (handling : stages h = .handling held :: outer) (failed : outcomes false) :
      Follows h ⟨.stepEnded none true, standing start h, clock h⟩
  | stepEnded {files : List Text} {succeeded raised : Bool} {outer : List Stage}
      (returned : stages h = .returned files succeeded :: outer) :
      Follows h ⟨.stepEnded (some files) raised, (standing start h).landed (clock h), clock h⟩

/-- A history in which every moment follows those before it. -/
inductive Course : List Moment → Prop
  | nil : Course []
  | cons {m : Moment} {h : List Moment}
      (next : Follows start depth outcomes h m) (course : Course h) : Course (m :: h)

end Courses

variable {start : Scheduler} {depth : Nat} {outcomes : Bool → Prop}

theorem Course.suffix {g h : List Moment} (hg : Course start depth outcomes g) (hs : h <:+ g) :
    Course start depth outcomes h := by
  induction hg with
  | nil => rw [List.suffix_nil.mp hs]; exact .nil
  | @cons m g next course ih =>
    rcases List.suffix_cons_iff.mp hs with rfl | hs
    · exact .cons next course
    · exact ih hs

theorem Course.follows {m : Moment} {h : List Moment} (hc : Course start depth outcomes (m :: h)) :
    Follows start depth outcomes h m := by
  cases hc with
  | cons next _ => exact next

/-! ## Runs write courses -/

section Runs

variable (start : Scheduler) (depth : Nat) (outcomes : Bool → Prop)

/-- The history of a session is a course that agrees with the session, and these steps are
running. -/
structure Tells (running : List Stage) (s : Session Chronicle) : Prop where
  course : Course start depth outcomes s.work.history
  stages : stages s.work.history = running
  scheduler : s.scheduler = standing start s.work.history
  now : s.now = clock s.work.history
  tracked : s.work.tracked = trackedBy s.work.history
  visits : ∀ v ∈ s.work.visits, outcomes v.result.isOk

/-- Deeds leave the running steps as they are while there is room for `room` more. -/
def Keeps (room : Nat) (play : List Deed → Session Chronicle → Session Chronicle) : Prop :=
  ∀ {running : List Stage} {s : Session Chronicle} (deeds : List Deed),
    running.length + room ≤ depth → Tells start depth outcomes running s →
      Tells start depth outcomes running (play deeds s)

end Runs

variable {running outer : List Stage} {s s' : Session Chronicle}

namespace Tells

/-- What is neither scheduler, clock nor chronicle does not matter. -/
theorem congr (hs : Tells start depth outcomes running s) (hscheduler : s'.scheduler = s.scheduler)
    (hnow : s'.now = s.now) (hwork : s'.work = s.work) : Tells start depth outcomes running s' := by
  obtain ⟨course, stages, scheduler, now, tracked, visits⟩ := hs
  exact ⟨by rwa [hwork], by rwa [hwork], by rw [hscheduler, hwork, scheduler],
    by rw [hnow, hwork, now], by rwa [hwork], by rwa [hwork]⟩

theorem emit (hs : Tells start depth outcomes running s) (e : Event) :
    Tells start depth outcomes running (s.emit e) :=
  hs.congr rfl rfl rfl

/-- The coming visit ends as it may. -/
theorem coming (hs : Tells start depth outcomes running s) (hplain : outcomes true) :
    outcomes (s.work.visits.headD .plain).result.isOk := by
  cases hvisits : s.work.visits with
  | nil => exact hplain
  | cons visit visits => exact hs.visits visit (by simp [hvisits])

/-- A moment that may follow is written down. -/
theorem note {happening : Happening} {after : List Stage}
    (hs : Tells start depth outcomes running s)
    (hwork : s'.work.history = s.work.history ∧ s'.work.visits = s.work.visits)
    (next : Follows start depth outcomes s.work.history ⟨happening, s'.scheduler, s'.now⟩)
    (hafter : Chronicle.stages (⟨happening, s'.scheduler, s'.now⟩ :: s.work.history) = after)
    (htracked : s'.work.tracked = trackedBy (⟨happening, s'.scheduler, s'.now⟩ :: s.work.history))
    (hbegan : happening ≠ .stepBegan) :
    Tells start depth outcomes after (note happening s') where
  course := by
    simp only [Chronicle.note, hwork.1]
    exact .cons next hs.course
  stages := by simp only [Chronicle.note, hwork.1, hafter]
  scheduler := by simp [Chronicle.note, standing, hbegan]
  now := by simp [Chronicle.note, clock]
  tracked := by simp only [Chronicle.note, hwork.1, htracked]
  visits := by
    simp only [Chronicle.note, hwork.2]
    exact hs.visits

/-- A moment that changes neither the scheduler nor the clock nor what is tracked is written
down. -/
theorem mark {happening : Happening} {after : List Stage}
    (hs : Tells start depth outcomes running s) (next : Follows start depth outcomes s.work.history
      ⟨happening, standing start s.work.history, clock s.work.history⟩)
    (hafter : Chronicle.stages (⟨happening, s.scheduler, s.now⟩ :: s.work.history) = after)
    (htracked : trackedBy (⟨happening, s.scheduler, s.now⟩ :: s.work.history) =
      trackedBy s.work.history)
    (hbegan : happening ≠ .stepBegan) :
    Tells start depth outcomes after (Chronicle.note happening s) := by
  rw [← hs.scheduler, ← hs.now] at next
  exact hs.note ⟨rfl, rfl⟩ next hafter (hs.tracked.trans htracked.symm) hbegan

end Tells

/-! ### Deeds other than steps -/

theorem arrive_tells (hs : Tells start depth outcomes running s) (deed : Deed) :
    Tells start depth outcomes running (arrive s deed) := by
  cases deed with
  | change path =>
    -- A change whose delay is no double joins the batch all the same.
    obtain ⟨hscheduler, hnow, hwork⟩ :=
      Session.arm_snd { s with scheduler := s.scheduler.enqueue path }
    refine hs.note ⟨congrArg history hwork, congrArg visits hwork⟩ ?_ hs.stages
      ((congrArg Chronicle.tracked hwork).trans hs.tracked) (by simp)
    have hchanged : Follows start depth outcomes s.work.history _ := .changed path
    rw [← hs.scheduler, ← hs.now] at hchanged
    simpa only [Session.fileChanged, hscheduler, hnow] using hchanged
  | remove path =>
    refine hs.note ⟨rfl, rfl⟩ ?_ hs.stages hs.tracked (by simp)
    have hremoved : Follows start depth outcomes s.work.history _ := .removed path
    rwa [← hs.scheduler, ← hs.now] at hremoved
  | advance seconds =>
    refine hs.note ⟨rfl, rfl⟩ ?_ hs.stages hs.tracked (by simp)
    have hadvanced : Follows start depth outcomes s.work.history _ := .advanced (s.now + seconds)
    rwa [← hs.scheduler] at hadvanced
  | step => exact hs

theorem foldl_arrive_tells (hs : Tells start depth outcomes running s) (deeds : List Deed) :
    Tells start depth outcomes running (deeds.foldl arrive s) := by
  induction deeds generalizing s with
  | nil => exact hs
  | cons deed deeds ih => exact ih (arrive_tells hs deed)

/-! ### The work of the processor -/

section Work

variable {path : Text} {held files : List Text} {succeeded : Bool}

theorem forgetBegan_tells (hs : Tells start depth outcomes (.handling (path :: held) :: outer) s) :
    Tells start depth outcomes (.forgetting path held :: outer) (note (.forgetBegan path) s) :=
  hs.mark (.forgetBegan hs.stages) (by simp [stages, hs.stages]) rfl (by simp)

theorem untrack_tells (visit : Visit)
    (hs : Tells start depth outcomes (.forgetting path held :: outer) s) :
    Tells start depth outcomes (.handling held :: outer) (untrack path visit s).2 := by
  refine hs.note ⟨rfl, rfl⟩ ?_ ?_ ?_ (by simp)
  · simpa only [hs.scheduler, hs.now] using Follows.forgot hs.stages
  · simp [stages, hs.stages]
  · simp [trackedBy, hs.tracked]

theorem passBegan_tells {stage : Stage}
    (hready : stage = .taken files ∨ stage = .returned files false)
    (hs : Tells start depth outcomes (stage :: outer) s) :
    Tells start depth outcomes (.passing files :: outer) (note (.passBegan files) s) :=
  hs.mark (.passBegan hs.stages hready) (by simp [stages, hs.stages]) rfl (by simp)

theorem compile_tells (visit : Visit) (hvisit : outcomes visit.result.isOk)
    (hs : Tells start depth outcomes (.passing files :: outer) s) :
    Tells start depth outcomes (.passed files (compile files visit s).1.isOk :: outer)
      (compile files visit s).2 := by
  have hnext : Follows start depth outcomes s.work.history _ := .compiled hs.stages hvisit
  rw [← hs.scheduler, ← hs.now] at hnext
  unfold compile
  -- Only files that compile are tracked.
  by_cases hok : visit.result.isOk
  · simp only [hok, if_true]
    refine hs.note ⟨rfl, rfl⟩ (by simpa only [hok] using hnext) ?_ ?_ (by simp)
    · simp [stages, hs.stages]
    · simp [trackedBy, hs.tracked]
  · simp only [hok, if_false, Bool.false_eq_true]
    refine hs.note ⟨rfl, rfl⟩ (by simpa only [hok] using hnext) ?_ ?_ (by simp)
    · simp [stages, hs.stages]
    · simp [trackedBy, hs.tracked]

theorem passEnded_tells (hs : Tells start depth outcomes (.passed files succeeded :: outer) s) :
    Tells start depth outcomes (.returned files succeeded :: outer)
      (note (.passEnded files succeeded) s) :=
  hs.mark (.passEnded hs.stages) (by simp [stages, hs.stages]) rfl (by simp)

theorem slept_tells (seconds : Float) (hs : Tells start depth outcomes running s) :
    Tells start depth outcomes running (note .slept (s.sleep seconds)) := by
  have hslept : Follows start depth outcomes s.work.history _ := .slept (s.now + seconds)
  rw [← hs.scheduler] at hslept
  exact hs.note ⟨rfl, rfl⟩ hslept hs.stages hs.tracked (by simp)

/-- A step that has compiled a batch ends. -/
theorem landed_tells (raised : Bool)
    (hs : Tells start depth outcomes (.returned files succeeded :: outer) s) :
    Tells start depth outcomes outer
      (note (.stepEnded (batch s.finishPass.2.work.history) raised) s.finishPass.2) := by
  obtain ⟨hscheduler, hnow, hwork⟩ := s.finishPass_snd
  have hbatch : batch s.finishPass.2.work.history = some files := by
    rw [hwork]
    simp [batch, hs.stages]
  refine hs.note ⟨congrArg history hwork, congrArg visits hwork⟩ ?_ ?_
    ((congrArg Chronicle.tracked hwork).trans hs.tracked) (by simp)
  · simpa only [hscheduler, hnow, hbatch, hs.scheduler, hs.now] using Follows.stepEnded hs.stages
  · simp [stages, hs.stages]

/-- How a rebuild has ended. -/
def Rebuilt (start : Scheduler) (depth : Nat) (outcomes : Bool → Prop) (running : List Stage)
    (succeeded : Bool) (s : Session Chronicle) : Prop :=
  Tells start depth outcomes running s ∧ outcomes succeeded

theorem Rebuilt.emit (hs : Rebuilt start depth outcomes running succeeded s) (e : Event) :
    Rebuilt start depth outcomes running succeeded (s.emit e) :=
  ⟨hs.1.emit e, hs.2⟩

/-- A pass may begin: either the step has just taken the files, which no moment shows yet, or an
attempt to compile them has failed. -/
def Boards (start : Scheduler) (depth : Nat) (outcomes : Bool → Prop) (files : List Text)
    (outer : List Stage) (s : Session Chronicle) : Prop :=
  (batch s.work.history = none ∧
      Tells start depth outcomes (.taken files :: outer) (note (.taken files) s)) ∨
    Tells start depth outcomes (.returned files false :: outer) s

theorem Boards.emit (hs : Boards start depth outcomes files outer s) (e : Event) :
    Boards start depth outcomes files outer (s.emit e) := by
  rcases hs with ⟨hbatch, hs⟩ | hs
  · exact .inl ⟨hbatch, hs.congr rfl rfl rfl⟩
  · exact .inr (hs.emit e)

end Work

/-! ### Calls of the processor -/

section Calls

variable {play : List Deed → Session Chronicle → Session Chronicle} {room : Nat}
  {path : Text} {held files : List Text} (hplain : outcomes true)
  (hplay : Keeps start depth outcomes room play)

include hplain hplay

theorem attend_tells {α : Type} {work : Visit → Session Chronicle → α × Session Chronicle}
    {before : List Stage} (after : α → List Stage) (hbefore : before.length + room ≤ depth)
    (hafter : ∀ a, (after a).length + room ≤ depth)
    (hwork : ∀ visit s, outcomes visit.result.isOk → Tells start depth outcomes before s →
      Tells start depth outcomes (after (work visit s).1) (work visit s).2)
    (hs : Tells start depth outcomes before s) :
    Tells start depth outcomes (after (attend play work s).1) (attend play work s).2 := by
  have hvisit := hs.coming hplain
  have htail : Tells start depth outcomes before
      { s with work := { s.work with visits := s.work.visits.tail } } :=
    ⟨hs.course, hs.stages, hs.scheduler, hs.now, hs.tracked,
      fun visit hvisit => hs.visits visit (List.mem_of_mem_tail hvisit)⟩
  -- The deeds before the work, the work, and the deeds after it.
  have hready := hplay (s.work.visits.headD .plain).before hbefore htail
  have hworked := hwork _ _ hvisit hready
  exact hplay (s.work.visits.headD .plain).after (hafter _) hworked

theorem forget_tells (hroom : outer.length + 1 + room ≤ depth)
    (hs : Tells start depth outcomes (.handling (path :: held) :: outer) s) :
    Tells start depth outcomes (.handling held :: outer) ((processorOf play).forget path s).2 := by
  refine attend_tells hplain hplay (fun _ => .handling held :: outer) ?_ (fun _ => ?_)
    (fun visit _ _ => untrack_tells visit) (forgetBegan_tells hs)
  · exact hroom
  · exact hroom

theorem rebuild_tells (hroom : running.length + room ≤ depth)
    (hs : Tells start depth outcomes running s) :
    Rebuilt start depth outcomes running ((processorOf play).rebuild s).1.isOk
      ((processorOf play).rebuild s).2 := by
  constructor
  · exact attend_tells hplain hplay (fun _ => running) hroom (fun _ => hroom) (fun _ _ _ => id) hs
  · exact hs.coming hplain

theorem sleep_tells (hroom : running.length + room ≤ depth) (seconds : Float)
    (hs : Tells start depth outcomes running s) :
    Tells start depth outcomes running ((processorOf play).sleep seconds s) := by
  show Tells start depth outcomes running
    (attend play (fun _ s => ((), note .slept (s.sleep seconds))) s).2
  exact attend_tells hplain hplay (fun _ => running) hroom (fun _ => hroom)
    (fun _ _ _ => slept_tells seconds) hs

/-- A rebuild with all its retries is broken off only if rebuilds may fail. -/
theorem rebuilds_tells (hroom : running.length + room ≤ depth)
    (hs : Tells start depth outcomes running s) :
    let r := Session.runWithRetries (processorOf play) (processorOf play).rebuild [] true s
    Tells start depth outcomes running r.2 ∧ (r.1.isOk = false → outcomes false) := by
  have hsleep (s : Session Chronicle) (seconds : Float)
      (hs : Rebuilt start depth outcomes running false s) :
      Rebuilt start depth outcomes running false ((processorOf play).sleep seconds s) :=
    ⟨sleep_tells hplain hplay hroom seconds hs.1, hs.2⟩
  have hkept : ∃ succeeded, Rebuilt start depth outcomes running succeeded
      (Session.runWithRetries (processorOf play) (processorOf play).rebuild [] true s).2 ∧ _ :=
    Session.attemptPass_keeps (fun s e hs => rebuild_tells hplain hplay hroom (hs.emit e))
      (fun _ _ e hs => hs.emit e) hsleep (fun _ hs => hs.1) _ _ _ hs
  obtain ⟨succeeded, ⟨hrebuilt, hallowed⟩, hok⟩ := hkept
  refine ⟨hrebuilt, ?_⟩
  intro hfailed
  rcases hok with hok | rfl
  · exact absurd hok (by simpa [Session.runWithRetries] using hfailed)
  · exact hallowed

theorem runPass_tells (hroom : outer.length + 1 + room ≤ depth)
    (hs : Boards start depth outcomes files outer s) :
    Tells start depth outcomes (.returned files (runPass play files s).1.isOk :: outer)
      (runPass play files s).2 := by
  have hbegan : Tells start depth outcomes (.passing files :: outer)
      (note (.passBegan files)
        (if (batch s.work.history).isNone then note (.taken files) s else s)) := by
    rcases hs with ⟨hbatch, hs⟩ | hs
    · simpa only [hbatch, Option.isNone_none, if_true] using passBegan_tells (.inl rfl) hs
    · have hbatch : batch s.work.history = some files := by simp [batch, hs.stages]
      simpa only [hbatch, Option.isNone_some, Bool.false_eq_true, if_false] using
        passBegan_tells (.inr rfl) hs
  have hpassed := attend_tells hplain hplay
    (fun result => .passed files (Except.isOk result) :: outer) (by exact hroom)
    (fun _ => by exact hroom) (fun visit _ => compile_tells visit) hbegan
  exact passEnded_tells hpassed

/-! ### Steps -/

theorem handleRemovals_tells (hroom : outer.length + 1 + room ≤ depth) (paths : List Text)
    (hs : Tells start depth outcomes (.handling paths :: outer) s) :
    ∃ held, Tells start depth outcomes (.handling held :: outer)
        (Session.handleRemovals (processorOf play) paths s).2 ∧
      if (Session.handleRemovals (processorOf play) paths s).1.isOk then held = []
        else outcomes false := by
  induction paths generalizing s with
  | nil => exact ⟨[], hs, by simp [Session.handleRemovals]⟩
  | cons path paths ih =>
    have hforgot := forget_tells hplain hplay hroom hs
    obtain ⟨tracked, s₁, hforget⟩ :
        ∃ tracked s₁, (processorOf play).forget path s = (tracked, s₁) := ⟨_, _, rfl⟩
    rw [hforget] at hforgot
    cases tracked with
    | false =>
      simp only [Session.handleRemovals, hforget]
      exact ih hforgot
    | true =>
      obtain ⟨hrebuilt, hfailed⟩ := rebuilds_tells hplain hplay (by exact hroom) hforgot
      obtain ⟨outcome, s₂, hrebuild⟩ : ∃ outcome s₂,
          Session.runWithRetries (processorOf play) (processorOf play).rebuild [] true s₁ =
            (outcome, s₂) := ⟨_, _, rfl⟩
      rw [hrebuild] at hrebuilt hfailed
      cases outcome with
      | error e =>
        simp only [Session.handleRemovals, hforget, hrebuild]
        exact ⟨paths, hrebuilt, by simpa using hfailed⟩
      | ok outcome =>
        simp only [Session.handleRemovals, hforget, hrebuild]
        exact ih hrebuilt

/-- A batch that was taken is compiled with all its retries. -/
theorem runBatch_tells (hroom : outer.length + 1 + room ≤ depth)
    (hs : Boards start depth outcomes files outer s) :
    ∃ succeeded, Tells start depth outcomes (.returned files succeeded :: outer)
      (Session.runBatch (processorOf play) files s).2 := by
  obtain ⟨succeeded, hran, -⟩ : ∃ succeeded,
      Tells start depth outcomes (.returned files succeeded :: outer)
        (Session.runBatch (processorOf play) files s).2 ∧ _ :=
    Session.attemptPass_keeps (fun s e hs => runPass_tells hplain hplay hroom (hs.emit e))
      (fun _ _ e hs => hs.emit e)
      (fun _ seconds hs => sleep_tells hplain hplay (by exact hroom) seconds hs)
      (fun _ hs => .inr hs) _ _ _ hs
  exact ⟨succeeded, hran⟩

theorem compileDueBatch_tells (hroom : outer.length + 1 + room ≤ depth)
    (hs : Tells start depth outcomes (.handling [] :: outer) s) :
    let r := Session.compileDueBatch (processorOf play) s
    Tells start depth outcomes outer
      (note (.stepEnded (batch r.2.work.history) !r.1.isOk) r.2) := by
  have hbatch : batch s.work.history = none := by simp [batch, hs.stages]
  obtain ⟨files?, scheduler, htake⟩ : ∃ files? scheduler,
      s.scheduler.takeDueBatch s.now = (files?, scheduler) := ⟨_, _, rfl⟩
  have htake' := htake
  rw [hs.scheduler, hs.now] at htake'
  cases files? with
  | none =>
    have hrested : Follows start depth outcomes s.work.history ⟨.stepEnded none false, _, _⟩ :=
      .stepRested hs.stages htake'
    rw [← hs.now] at hrested
    simp only [Session.compileDueBatch, htake, hbatch]
    exact hs.note ⟨rfl, rfl⟩ hrested (by simp [stages, hs.stages]) hs.tracked (by simp)
  | some files =>
    -- No moment shows yet that the batch was taken: the first attempt writes it down.
    have hboards : Boards start depth outcomes files outer { s with scheduler := scheduler } := by
      refine .inl ⟨hbatch, hs.note ⟨rfl, rfl⟩ ?_ ?_ hs.tracked (by simp)⟩
      · simpa only [hs.now] using Follows.taken hs.stages htake'
      · simp [stages, hs.stages]
    obtain ⟨succeeded, hran⟩ := runBatch_tells hplain hplay hroom hboards
    have hlanded (raised : Bool) := landed_tells raised hran
    simp only [Session.compileDueBatch, htake]
    obtain ⟨finished, s', hfinish⟩ : ∃ finished s', (Session.runBatch (processorOf play) files
        { s with scheduler := scheduler }).2.finishPass = (finished, s') := ⟨_, _, rfl⟩
    rw [hfinish] at hlanded ⊢
    cases finished with
    | error e => exact hlanded _
    | ok _ => exact hlanded _

theorem step_tells (hroom : running.length + 1 + room ≤ depth)
    (hs : Tells start depth outcomes running s) :
    Tells start depth outcomes running (perform (processorOf play) s .step) := by
  have hnext : Follows start depth outcomes s.work.history _ :=
    .stepBegan (by rw [hs.stages]; omega)
  rw [← hs.scheduler, ← hs.now] at hnext
  -- The moment is written before the removals are taken, and a course counts them as taken.
  have hbegan : Tells start depth outcomes (.handling s.scheduler.removals :: running)
      { note .stepBegan s with scheduler := { s.scheduler with removals := [] } } := {
    course := .cons hnext hs.course
    stages := by simp [note, stages, hs.stages]
    scheduler := by simp [note, standing]
    now := by simp [note, clock]
    tracked := by simpa [note, trackedBy] using hs.tracked
    visits := hs.visits }
  obtain ⟨held, hhandled, hend⟩ := handleRemovals_tells hplain hplay hroom _ hbegan
  obtain ⟨handled, s₁, hhandle⟩ : ∃ handled s₁,
      Session.handleRemovals (processorOf play) s.scheduler.removals
        { note .stepBegan s with scheduler := { s.scheduler with removals := [] } } =
          (handled, s₁) := ⟨_, _, rfl⟩
  rw [hhandle] at hhandled hend
  cases handled with
  | error e =>
    have hstep : (note .stepBegan s).step (processorOf play) = (.error e, s₁) :=
      Session.step_of_error hhandle
    have hbatch : batch s₁.work.history = none := by simp [batch, hhandled.stages]
    simp only [perform, hstep, hbatch]
    exact hhandled.mark (.stepBroke hhandled.stages (by simpa using hend))
      (by simp [stages, hhandled.stages]) rfl (by simp)
  | ok u =>
    have hstep : (note .stepBegan s).step (processorOf play) =
        Session.compileDueBatch (processorOf play) s₁ := Session.step_of_ok hhandle
    have hheld : held = [] := by simpa using hend
    subst hheld
    simp only [perform, hstep]
    exact compileDueBatch_tells hplain hplay hroom hhandled

end Calls

/-! ### Runs -/

theorem run_tells (hplain : outcomes true) (room : Nat) :
    Keeps start depth outcomes room (run room) := by
  -- On the levels of nesting that are left: what is done during a step has one level less.
  induction room with
  | zero =>
    intro running s deeds hroom hs
    exact foldl_arrive_tells hs deeds
  | succ room ih =>
    intro running s deeds hroom hs
    unfold run
    induction deeds generalizing s with
    | nil => exact hs
    | cons deed deeds ihdeeds =>
      rw [List.foldl_cons]
      apply ihdeeds
      cases deed with
      | change path => exact arrive_tells hs (.change path)
      | remove path => exact arrive_tells hs (.remove path)
      | advance seconds => exact arrive_tells hs (.advance seconds)
      | step => exact step_tells hplain ih (by omega) hs

/-- Every run writes a course, and no step is running after it. -/
theorem run_course (settings : BatchSettings) (policy : RetryPolicy) (visits : List Visit)
    (hplain : outcomes true) (hvisits : ∀ visit ∈ visits, outcomes visit.result.isOk)
    (deeds : List Deed) :
    Tells (.new settings policy) depth outcomes []
      (run depth deeds (Chronicle.start settings policy visits)) :=
  run_tells hplain depth deeds (by simp) ⟨.nil, rfl, rfl, rfl, rfl, hvisits⟩

end Chronicle

end UtilityCss
