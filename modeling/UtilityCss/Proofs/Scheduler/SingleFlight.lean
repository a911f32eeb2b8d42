import UtilityCss.Proofs.Scheduler.Course
/-!
# Single flight

Only one batch is compiled at a time, however steps are nested: in passes, in rebuilds, in sleeps
before retries, at any depth. A flag of the scheduler guards this. The invariant,
`Chronicle.flights_eq`, is that the flag counts the running steps that have a batch: one if it is
set, none if it is not.
-/

namespace UtilityCss.Chronicle

variable {start : Scheduler} {depth : Nat} {outcomes : Bool → Prop} {m : Moment} {h : List Moment}

/-! ## Calls for passes -/

/-- How many calls for passes have begun and not ended. -/
def activePasses : List Moment → Int
  | [] => 0
  | m :: h =>
    match m.happening with
    | .passBegan _ => activePasses h + 1
    | .passEnded _ _ => activePasses h - 1
    | _ => activePasses h

/-- How many running steps have taken a batch. -/
def flights (h : List Moment) : Nat := (stages h).countP (·.batch.isSome)

/-- The calls for passes that are active are those of the running steps. -/
theorem activePasses_eq (hc : Course start depth outcomes h) :
    activePasses h = ((stages h).countP Stage.isActive : Nat) := by
  induction hc with
  | nil => rfl
  | @cons m h next course ih =>
    cases next with
    | passBegan running ready =>
      rcases ready with rfl | rfl <;>
        simp [activePasses, stages, running, ih]
    | _ => simp_all [activePasses, stages]

/-- The flag of the scheduler counts the steps that have taken a batch. -/
theorem flights_eq {settings : BatchSettings} {policy : RetryPolicy}
    (hc : Course (.new settings policy) depth outcomes h) :
    flights h = if (standing (.new settings policy) h).compiling then 1 else 0 := by
  induction hc with
  | nil => rfl
  | @cons m h next course ih =>
    unfold flights at ih ⊢
    cases next with
    | taken handled due =>
      -- The flag was not set, so no running step had a batch.
      obtain ⟨hdue, -, -, rfl⟩ := Scheduler.takeDueBatch_eq_some_iff.mp due
      have hidle := (Scheduler.isDue_iff.mp hdue).1
      simp_all [stages]
    | passBegan running ready => rcases ready with rfl | rfl <;> simp_all [stages]
    | stepRested handled rest =>
      obtain ⟨_, rfl⟩ := Scheduler.eq_of_takeDueBatch_eq_none rest
      simp_all [stages]
    | stepEnded returned =>
      -- The step that ends had the only batch.
      have hone : (stages h).countP (·.batch.isSome) ≤ 1 := by rw [ih]; split <;> omega
      rw [returned, List.countP_cons_of_pos (by simp)] at hone
      simp only [stages, returned, standing_compiling, Scheduler.landed_compiling,
        Bool.false_eq_true, if_false]
      omega
    | _ => simp_all [stages]

/-! ## Events alone -/

/-- A running step has taken a batch. -/
def InFlight (h : List Moment) : Prop := ∃ stage ∈ stages h, stage.batch ≠ none

/-- A step that has taken a batch has ended. -/
def Lands (m : Moment) : Prop := ∃ files raised, m.happening = .stepEnded (some files) raised

/-- The scheduler after nothing but the events of some moments, the latest first. -/
def afterEvents (s : Scheduler) : List Moment → Scheduler
  | [] => s
  | m :: later =>
    match m.happening with
    | .changed path => ((afterEvents s later).enqueue path).armed m.now
    | .removed path => (afterEvents s later).enqueueRemoval path
    | _ => afterEvents s later

/-- The scheduler's flag says whether a batch is in flight. -/
theorem inFlight_iff {settings : BatchSettings} {policy : RetryPolicy}
    (hc : Course (.new settings policy) depth outcomes h) :
    InFlight h ↔ (standing (.new settings policy) h).compiling = true := by
  have hflights := flights_eq hc
  have hpos : InFlight h ↔ 0 < flights h := by
    simp [InFlight, flights, List.countP_pos_iff, Option.isSome_iff_ne_none]
  rw [hpos, hflights]
  split <;> simp_all

/-- What the deadline is set to depends on the settings, the batch and the deadline alone. -/
theorem armed_deadline_congr {s t : Scheduler} {now : Float} (hsettings : s.settings = t.settings)
    (hpending : s.pending = t.pending) (hdeadline : s.deadline = t.deadline) :
    (s.armed now).deadline = (t.armed now).deadline := by
  have hdelay : s.delay = t.delay := by simp only [Scheduler.delay, hsettings, hpending]
  cases harm : thousandths s.delay with
  | ok x => rw [Scheduler.armed_of_ok harm, Scheduler.armed_of_ok (hdelay ▸ harm)]
  | error e =>
    rw [Scheduler.armed_of_error harm, Scheduler.armed_of_error (hdelay ▸ harm), hdeadline]

/-- While a batch is in flight, the next batch and its deadline change by events alone: no step
takes the batch, and none clears a deadline that has passed. -/
theorem standing_eq_afterEvents {settings : BatchSettings} {policy : RetryPolicy}
    {earlier later : List Moment}
    (hc : Course (.new settings policy) depth outcomes (later ++ earlier))
    (hflight : InFlight earlier) (hlater : ∀ m ∈ later, ¬Lands m) :
    let s := standing (.new settings policy) (later ++ earlier)
    let t := afterEvents (standing (.new settings policy) earlier) later
    InFlight (later ++ earlier) ∧ s.settings = t.settings ∧ s.pending = t.pending ∧
      s.deadline = t.deadline := by
  -- On what came later: the flag stays set, so no step finds a batch due.
  induction later with
  | nil => exact ⟨hflight, rfl, rfl, rfl⟩
  | cons m later ih =>
    rw [List.cons_append] at hc ⊢
    have hcourse : Course (.new settings policy) depth outcomes (later ++ earlier) :=
      hc.suffix (List.suffix_cons _ _)
    obtain ⟨hfly, hsettings, hpending, hdeadline⟩ := ih hcourse fun m hm => hlater m (by simp [hm])
    have hflag := (inFlight_iff hcourse).mp hfly
    have hnotDue := Scheduler.isDue_of_compiling hflag (clock (later ++ earlier))
    have hstill := inFlight_iff hc
    have hlands : ¬Lands m := hlater m (by simp)
    cases hc.follows with
    | changed path =>
      refine ⟨?_, by simpa [afterEvents] using hsettings, by simp [afterEvents, hpending], ?_⟩
      · simpa [hstill] using hflag
      · simp only [standing_deadline, afterEvents]
        exact armed_deadline_congr (by simpa using hsettings) (by simp [hpending])
          (by simpa using hdeadline)
    | taken handled due =>
      have hdue := (Scheduler.takeDueBatch_eq_some_iff.mp due).1
      rw [hnotDue] at hdue
      contradiction
    | stepRested handled rest =>
      rcases Scheduler.takeDueBatch_eq_none_iff.mp rest with ⟨-, rfl⟩ | ⟨hdue, -, -⟩
      · simp_all [afterEvents]
      · rw [hnotDue] at hdue
        contradiction
    | stepEnded returned => exact absurd ⟨_, _, rfl⟩ hlands
    | _ => simp_all [afterEvents]

/-! ## Single flight -/

/-- What single flight says about a moment and the history before it. -/
structure SingleFlight (start : Scheduler) (m : Moment) (h : List Moment) : Prop where
  /-- No two calls for passes are active at the same time. -/
  atMostOne : activePasses (m :: h) ≤ 1
  /-- No step takes a batch while one is in flight. -/
  startsNone : ∀ files, m.happening = .taken files → ¬InFlight h
  /-- A step that ends while a batch is in flight has taken none. -/
  endsNone : Lands m → ¬InFlight (m :: h)
  /-- The scheduler is compiling as long as a batch is in flight. -/
  compiling : m.scheduler.state = .compiling ↔ InFlight (m :: h)
  /-- From one moment of a flight to a later one, events alone change the next batch and its
  deadline, whatever steps were taken between them. -/
  eventsAlone : ∀ earlier later, m :: h = later ++ earlier → InFlight earlier →
    (∀ m' ∈ later, ¬Lands m') →
      m.scheduler.pending = (afterEvents (standing start earlier) later).pending ∧
        m.scheduler.deadline = (afterEvents (standing start earlier) later).deadline
  /-- When the outermost step has returned or was broken off, no batch is in flight. -/
  rest : stages (m :: h) = [] → m.scheduler.compiling = false ∧ activePasses (m :: h) = 0

theorem activePasses_le_one {settings : BatchSettings} {policy : RetryPolicy}
    (hc : Course (.new settings policy) depth outcomes h) : activePasses h ≤ 1 := by
  have hactive (stage : Stage) : stage.isActive = true → stage.batch.isSome = true := by
    cases stage <;> simp
  have hflights : flights h ≤ 1 := by
    rw [flights_eq hc]
    split <;> omega
  have hle : (stages h).countP Stage.isActive ≤ flights h :=
    List.countP_mono_left fun stage _ => hactive stage
  rw [activePasses_eq hc]
  omega

theorem Course.singleFlight {settings : BatchSettings} {policy : RetryPolicy}
    (hc : Course (.new settings policy) depth outcomes (m :: h)) :
    SingleFlight (.new settings policy) m h where
  -- The flag of the scheduler is the number of passes in flight, before and after every moment.
  atMostOne := activePasses_le_one hc
  startsNone := by
    intro files htaken
    have hcourse := hc.suffix (List.suffix_cons m h)
    rw [inFlight_iff hcourse]
    cases hc.follows with
    | taken handled due =>
      have hdue := (Scheduler.takeDueBatch_eq_some_iff.mp due).1
      simp [(Scheduler.isDue_iff.mp hdue).1]
    | _ => cases htaken
  endsNone := by
    rintro ⟨files, raised, hended⟩
    rw [inFlight_iff hc]
    cases hc.follows with
    | stepEnded returned => simp
    | _ => cases hended
  compiling := by
    rw [Scheduler.state_eq_compiling_iff, inFlight_iff hc, standing_compiling]
  eventsAlone := by
    intro earlier later heq hflight hlater
    rw [heq] at hc
    obtain ⟨-, -, hpending, hdeadline⟩ := standing_eq_afterEvents hc hflight hlater
    rw [← heq, standing_pending] at hpending
    rw [← heq, standing_deadline] at hdeadline
    exact ⟨hpending, hdeadline⟩
  rest := by
    intro hrest
    have hnone : ¬InFlight (m :: h) := by simp [InFlight, hrest]
    rw [inFlight_iff hc, standing_compiling] at hnone
    exact ⟨by simpa using hnone, by simp [activePasses_eq hc, hrest]⟩

/-- **Single flight**: however steps are nested, and whatever passes, rebuilds and sleeps bring,
batches are compiled one at a time, and none is in flight after the outermost step. -/
theorem run_singleFlight (settings : BatchSettings) (policy : RetryPolicy) (visits : List Visit)
    (depth : Nat) (deeds : List Deed) :
    (run depth deeds (Chronicle.start settings policy visits)).scheduler.compiling = false ∧
      ∀ m h, m :: h <:+ (run depth deeds (Chronicle.start settings policy visits)).work.history →
        SingleFlight (.new settings policy) m h := by
  have htells : Tells (.new settings policy) depth (fun _ => True) [] _ :=
    run_course settings policy visits trivial (fun _ _ => trivial) deeds
  refine ⟨?_, fun m h hsuffix => (htells.course.suffix hsuffix).singleFlight⟩
  have hnone : ¬InFlight
      (run depth deeds (Chronicle.start settings policy visits)).work.history := by
    simp [InFlight, htells.stages]
  rw [inFlight_iff htells.course, ← htells.scheduler] at hnone
  simpa using hnone

/-- A file changes during a pass, and a step within the pass finds it due. -/
def nested : Session Chronicle :=
  run 2 [.change "a", .step]
    (Chronicle.start ⟨0, 0, 0⟩ (.ofSettings 3 0 1.0)
      [⟨[.change "b", .step], .ok ⟨1, 1, 0, [], []⟩, []⟩])

/-- Single flight where the step within the pass ends. -/
theorem nested_singleFlight : nested.scheduler.compiling = false ∧
    ∃ m h, m :: h <:+ nested.work.history ∧ m.happening = .stepEnded none false ∧
      SingleFlight (.new ⟨0, 0, 0⟩ (.ofSettings 3 0 1.0)) m h := by
  obtain ⟨hidle, hflight⟩ := run_singleFlight ⟨0, 0, 0⟩ (.ofSettings 3 0 1.0)
    [⟨[.change "b", .step], .ok ⟨1, 1, 0, [], []⟩, []⟩] 2 [.change "a", .step]
  obtain ⟨m, hended, hsplit⟩ := exists_split (h := nested.work.history) 3
    (fun m => m.happening = .stepEnded none false) (by decide +kernel)
  have hsuffix : m :: nested.work.history.drop 4 <:+ nested.work.history := ⟨_, hsplit.symm⟩
  exact ⟨hidle, m, _, hsuffix, by simpa using hended, hflight m _ hsuffix⟩

end UtilityCss.Chronicle
