import UtilityCss.Decimal.Order
import UtilityCss.Proofs.Scheduler.SingleFlight
/-!
# Deadlines

Every change of a file opens a window in which the batch waits for more, and so does the end of a
pass that leaves files waiting. The deadline of a batch is the end of the window that was opened
last, be it earlier or later than the end of the window before; removals leave it as it is. A step
takes the batch if and only if the deadline has passed, files are waiting and no batch is in flight.
-/

namespace UtilityCss

open Binary64

namespace Moment

/-- Whether a file has changed. -/
def isChange (m : Moment) : Bool :=
  match m.happening with
  | .changed _ => true
  | _ => false

/-- Whether a pass has ended while files wait. -/
def resumes (m : Moment) : Bool :=
  match m.happening with
  | .stepEnded (some _) _ => !m.scheduler.pending.isEmpty
  | _ => false

/-- Whether the moment opens a window. -/
def arms (m : Moment) : Bool := m.isChange || m.resumes

/-- The end of the window that the moment opens. -/
def window (settings : BatchSettings) (m : Moment) : Except ArithmeticError Float := do
  return m.now + (← thousandths (settings.delay m.scheduler.pending.length))

theorem window_of_ok {settings : BatchSettings} {m : Moment} {x : Float}
    (hx : thousandths (settings.delay m.scheduler.pending.length) = .ok x) :
    m.window settings = .ok (m.now + x) := by
  simp [window, hx, bind, Except.bind, pure, Except.pure]

end Moment

namespace Chronicle

variable {depth : Nat} {outcomes : Bool → Prop} {settings : BatchSettings} {policy : RetryPolicy}
  {m : Moment} {h : List Moment}

/-! ## The invariant -/

/-- A batch that holds files has a deadline, and the deadline is the end of the latest window. -/
structure Timed (settings : BatchSettings) (s : Scheduler) (h : List Moment) : Prop where
  armed : s.pending ≠ [] → s.deadline ≠ none
  deadline : ∀ d, s.deadline = some d →
    ∃ a, h.find? Moment.arms = some a ∧ a.window settings = .ok d

namespace Timed

variable {s s' : Scheduler}

/-- Where no window opens, files may leave the batch and the deadline may stay. -/
theorem cons (ht : Timed settings s h) (hm : m.arms = false)
    (hpending : s'.pending ≠ [] → s.pending ≠ []) (hdeadline : s'.deadline = s.deadline) :
    Timed settings s' (m :: h) where
  armed hs := by
    rw [hdeadline]
    exact ht.armed (hpending hs)
  deadline d hd := by
    rw [hdeadline] at hd
    rw [List.find?_cons_of_neg (by simp [hm])]
    exact ht.deadline d hd

/-- A batch that has been taken leaves neither files nor a deadline. -/
theorem empty (hpending : s.pending = []) (hdeadline : s.deadline = none) : Timed settings s h where
  armed hs := absurd hpending hs
  deadline d hd := by simp [hdeadline] at hd

/-- Where a window opens, it sets the deadline. -/
theorem arm {now x : Float} (hm : m.arms) (hscheduler : m.scheduler = s.armed now)
    (hnow : m.now = now) (hx : thousandths s.delay = .ok x) (hsettings : s.settings = settings) :
    Timed settings (s.armed now) (m :: h) where
  armed _ := by simp [Scheduler.armed_of_ok hx]
  deadline d hd := by
    have hwindow : m.window settings = .ok (m.now + x) := by
      apply Moment.window_of_ok
      rw [hscheduler, Scheduler.armed_pending, ← hsettings]
      exact hx
    have hend : now + x = d := by simpa [Scheduler.armed_of_ok hx] using hd
    exact ⟨m, List.find?_cons_of_pos hm, by rw [hwindow, hnow, hend]⟩

end Timed

/-- No operation changes the settings. -/
theorem Course.settings_eq (hc : Course (.new settings policy) depth outcomes h) :
    (standing (.new settings policy) h).settings = settings := by
  induction hc with
  | nil => rfl
  | @cons m h next course ih =>
    rw [standing_settings]
    cases next with
    | taken handled due =>
      obtain ⟨-, -, -, rfl⟩ := Scheduler.takeDueBatch_eq_some_iff.mp due
      exact ih
    | stepRested handled rest =>
      obtain ⟨_, rfl⟩ := Scheduler.eq_of_takeDueBatch_eq_none rest
      exact ih
    | _ => simpa using ih

theorem Course.timed (hc : Course (.new settings policy) depth outcomes h)
    (hdelays : ∀ n : Nat, ∃ x, thousandths (settings.delay n) = .ok x) :
    Timed settings (standing (.new settings policy) h) h := by
  have hdelay (s : Scheduler) (hs : s.settings = settings) : ∃ x, thousandths s.delay = .ok x := by
    unfold Scheduler.delay
    rw [hs]
    exact hdelays _
  -- On the history: moments that arm set the deadline, all others keep it or clear it with the
  -- batch.
  induction hc with
  | nil => exact .empty rfl rfl
  | @cons m h next course ih =>
    have hsettings := course.settings_eq
    rw [standing_cons]
    cases next with
    | changed path =>
      obtain ⟨x, hx⟩ :=
        hdelay ((standing (.new settings policy) h).enqueue path) (by simp [hsettings])
      exact .arm rfl rfl rfl hx (by simp [hsettings])
    | removed path =>
      refine ih.cons rfl ?_ rfl
      simp only [Scheduler.enqueueRemoval_pending]
      intro herase hnil
      exact herase (by simp [hnil])
    | taken handled due =>
      obtain ⟨-, -, -, rfl⟩ := Scheduler.takeDueBatch_eq_some_iff.mp due
      exact .empty rfl rfl
    | stepRested handled rest =>
      rcases Scheduler.takeDueBatch_eq_none_iff.mp rest with ⟨-, rfl⟩ | ⟨-, hpending, rfl⟩
      · exact ih.cons rfl id rfl
      · -- The deadline of an empty batch has passed, and is cleared.
        exact .empty hpending rfl
    | stepEnded returned =>
      unfold Scheduler.landed
      by_cases hempty : (standing (.new settings policy) h).pending.isEmpty
      · simp only [hempty, if_true]
        exact ih.cons (by simp [Moment.arms, Moment.isChange, Moment.resumes, hempty]) id rfl
      · simp only [hempty, Bool.false_eq_true, if_false]
        obtain ⟨x, hx⟩ := hdelay
          { standing (.new settings policy) h with compiling := false } (by simp [hsettings])
        exact .arm (by simp [Moment.arms, Moment.resumes, hempty]) rfl rfl hx (by simp [hsettings])
    | _ => exact ih.cons rfl id rfl

/-! ## Steps -/

/-- A step that looks for a batch finds one that it may take. -/
def Ready (start : Scheduler) (h : List Moment) : Prop :=
  ¬InFlight h ∧ (standing start h).pending ≠ [] ∧
    ∃ d, (standing start h).deadline = some d ∧ ¬clock h < d

theorem Course.ready_iff (hc : Course (.new settings policy) depth outcomes h) :
    Ready (.new settings policy) h ↔ (standing (.new settings policy) h).pending ≠ [] ∧
      (standing (.new settings policy) h).isDue (clock h) = true := by
  rw [Ready, inFlight_iff hc, Scheduler.isDue_iff, Bool.not_eq_true]
  constructor
  · rintro ⟨hidle, hpending, hdeadline⟩
    exact ⟨hpending, hidle, hdeadline⟩
  · rintro ⟨hpending, hidle, hdeadline⟩
    exact ⟨hidle, hpending, hdeadline⟩

theorem Course.taken_ready {files : List Text}
    (hc : Course (.new settings policy) depth outcomes (m :: h))
    (htaken : m.happening = .taken files) :
    Ready (.new settings policy) h ∧ files = (standing (.new settings policy) h).pending ∧
      m.now = clock h := by
  rw [(hc.suffix (List.suffix_cons m h)).ready_iff]
  cases hc.follows with
  | taken handled due =>
    cases htaken
    obtain ⟨hdue, hpending, hne, -⟩ := Scheduler.takeDueBatch_eq_some_iff.mp due
    exact ⟨⟨hpending ▸ hne, hdue⟩, hpending.symm, rfl⟩
  | _ => cases htaken

theorem Course.rested_not_ready (hc : Course (.new settings policy) depth outcomes (m :: h))
    (hrested : m.happening = .stepEnded none false) : ¬Ready (.new settings policy) h := by
  rw [(hc.suffix (List.suffix_cons m h)).ready_iff]
  rintro ⟨hpending, hdue⟩
  cases hc.follows with
  | stepRested handled rest =>
    rcases Scheduler.takeDueBatch_eq_none_iff.mp rest with ⟨hearly, -⟩ | ⟨-, hempty, -⟩
    · simp [hdue] at hearly
    · exact hpending hempty
  | _ => cases hrested

/-- A batch that is taken inside a window was given an earlier deadline by a later window. -/
theorem Course.taken_inside {files : List Text} {later earlier : List Moment} {c : Moment}
    {d : Float} (hc : Course (.new settings policy) depth outcomes (m :: (later ++ c :: earlier)))
    (hdelays : ∀ n : Nat, ∃ x, thousandths (settings.delay n) = .ok x)
    (htaken : m.happening = .taken files) (harms : c.arms) (hwindow : c.window settings = .ok d)
    (hinside : m.now < d) :
    ∃ e ∈ later, ∃ d', e.arms ∧ e.window settings = .ok d' ∧ ¬d ≤ d' ∧ ¬m.now < d' := by
  obtain ⟨⟨-, -, d', hdeadline, hpassed⟩, -, hnow⟩ := hc.taken_ready htaken
  rw [← hnow] at hpassed
  obtain ⟨e, hlatest, hend⟩ :=
    ((hc.suffix (List.suffix_cons m _)).timed hdelays).deadline d' hdeadline
  rw [List.find?_append] at hlatest
  cases hlater : later.find? Moment.arms with
  | some e' =>
    obtain rfl : e' = e := by simpa [hlater] using hlatest
    refine ⟨e', List.mem_of_find?_eq_some hlater, d', List.find?_some hlater, hend, ?_, hpassed⟩
    exact fun hle => hpassed (lt_of_lt_of_le hinside hle)
  | none =>
    -- The window is the latest, and its end has passed.
    obtain rfl : c = e := by simpa [hlater, List.find?_cons_of_pos harms] using hlatest
    obtain rfl : d = d' := by simpa [hwindow] using hend
    exact absurd hinside hpassed

/-- What holds of deadlines at a moment, with the history before it. -/
structure Punctual (start : Scheduler) (m : Moment) (h : List Moment) : Prop where
  /-- No file waits without a deadline. -/
  armed : m.scheduler.pending ≠ [] → m.scheduler.deadline ≠ none
  /-- The deadline is the end of the window that was opened last. -/
  deadline : ∀ d, m.scheduler.deadline = some d →
    ∃ a, (m :: h).find? Moment.arms = some a ∧ a.window start.settings = .ok d
  /-- A step that takes a batch takes all that waits, and was ready to. -/
  taken : ∀ files, m.happening = .taken files →
    Ready start h ∧ files = (standing start h).pending
  /-- A step that handles its removals and takes no batch was not ready to. -/
  rested : m.happening = .stepEnded none false → ¬Ready start h
  /-- A batch is taken inside a window only if a later window has set an earlier deadline. -/
  inside : ∀ files, m.happening = .taken files → ∀ later a earlier d, h = later ++ a :: earlier →
    a.arms → a.window start.settings = .ok d → m.now < d →
      ∃ e ∈ later, ∃ d', e.arms ∧ e.window start.settings = .ok d' ∧ ¬d ≤ d' ∧ ¬m.now < d'
  /-- It is taken inside the window of the latest change only if a pass that ended after the change
  has set an earlier deadline. -/
  insideLatest :
    ∀ files, m.happening = .taken files → ∀ later c earlier d, h = later ++ c :: earlier →
    c.isChange → (∀ e ∈ later, ¬e.isChange) → c.window start.settings = .ok d → m.now < d →
      ∃ e ∈ later, ∃ d', e.resumes ∧ e.window start.settings = .ok d' ∧ ¬d ≤ d' ∧ ¬m.now < d'

theorem Course.punctual (hc : Course (.new settings policy) depth outcomes (m :: h))
    (hdelays : ∀ n : Nat, ∃ x, thousandths (settings.delay n) = .ok x) :
    Punctual (.new settings policy) m h := by
  have htimed := hc.timed hdelays
  rw [standing_cons] at htimed
  constructor
  case armed => exact htimed.armed
  case deadline => exact htimed.deadline
  case taken =>
    intro files htaken
    obtain ⟨hready, hfiles, -⟩ := hc.taken_ready htaken
    exact ⟨hready, hfiles⟩
  case rested => exact hc.rested_not_ready
  case inside =>
    rintro files htaken later a earlier d rfl harms hwindow hinside
    exact hc.taken_inside hdelays htaken harms hwindow hinside
  case insideLatest =>
    rintro files htaken later c earlier d rfl hchange hlatest hwindow hinside
    have harms : c.arms := by simp [Moment.arms, hchange]
    obtain ⟨e, he, d', harms', hend⟩ := hc.taken_inside hdelays htaken harms hwindow hinside
    -- What came later and is no change is the end of a pass.
    have hresumes : e.resumes := by simpa [Moment.arms, hlatest e he] using harms'
    exact ⟨e, he, d', hresumes, hend⟩

/-- **Deadlines are kept**, at every moment of every run: however steps are nested, and whether
passes succeed, fail or are given up. -/
theorem run_punctual (settings : BatchSettings) (policy : RetryPolicy) (visits : List Visit)
    (depth : Nat) (deeds : List Deed)
    (hdelays : ∀ n : Nat, ∃ x, thousandths (settings.delay n) = .ok x) (m : Moment)
    (h : List Moment)
    (hsuffix : m :: h <:+ (run depth deeds (Chronicle.start settings policy visits)).work.history) :
    Punctual (.new settings policy) m h := by
  have htells : Tells (.new settings policy) depth (fun _ => True) [] _ :=
    run_course settings policy visits trivial (fun _ _ => trivial) deeds
  exact (htells.course.suffix hsuffix).punctual hdelays

/-! ## A crowded pass -/

/-- One second for each file, and two at most. -/
def secondEach : BatchSettings := ⟨0, 1000, 2000⟩

theorem secondEach_delays (n : Nat) : ∃ x, thousandths (secondEach.delay n) = .ok x := by
  have hmin : secondEach.delay n = secondEach.delay (min n 2 : Nat) := by
    simp only [secondEach, BatchSettings.delay]
    omega
  have hfew : ∀ i : Fin 3, (thousandths (secondEach.delay i.val)).isOk = true := by decide +kernel
  have hok : (thousandths (secondEach.delay (min n 2 : Nat))).isOk = true :=
    hfew ⟨min n 2, by omega⟩
  rw [hmin]
  cases hx : thousandths (secondEach.delay (min n 2 : Nat)) with
  | ok x => exact ⟨x, rfl⟩
  | error e =>
    rw [hx] at hok
    cases hok

/-- During a pass two files change, and one of them is removed again. The end of the pass counts one
file only, so its window ends before the window of the latest change. -/
def crowded : Session Chronicle :=
  run 1 [.change "x", .advance 1.0, .step, .advance 1.0, .step]
    (Chronicle.start secondEach (.ofSettings 3 0 1.0)
      [⟨[.change "a", .change "b", .remove "a"], .ok ⟨1, 1, 0, [], []⟩, []⟩])

/-- The deadlines of the crowded pass are kept, also where the second batch is taken. -/
theorem crowded_punctual : ∃ m h, m :: h <:+ crowded.work.history ∧ m.happening = .taken ["b"] ∧
    Punctual (.new secondEach (.ofSettings 3 0 1.0)) m h := by
  obtain ⟨m, htaken, hsplit⟩ := exists_split (h := crowded.work.history) 4
    (fun m => m.happening = .taken ["b"]) (by decide +kernel)
  have hsuffix : m :: crowded.work.history.drop 5 <:+ crowded.work.history := ⟨_, hsplit.symm⟩
  exact ⟨m, _, hsuffix, by simpa using htaken,
    run_punctual secondEach _ _ 1 _ secondEach_delays m _ hsuffix⟩

/-- The second batch is taken one second before the window of its latest change ends. -/
theorem crowded_inside_latest : ¬∀ m h, m :: h <:+ crowded.work.history →
    ∀ files, m.happening = .taken files → ∀ later c earlier d, h = later ++ c :: earlier →
      c.isChange → (∀ e ∈ later, ¬e.isChange) → c.window secondEach = .ok d → ¬m.now < d := by
  intro hclaim
  obtain ⟨m, hm, hsplit⟩ := exists_split (h := crowded.work.history) 4
    (fun m => m.happening = .taken ["b"] ∧ m.now < 3.0) (by decide +kernel)
  obtain ⟨c, hc, hsplit'⟩ := exists_split (h := crowded.work.history.drop 5) 8
    (fun c => c.isChange ∧ (c.window secondEach).toOption = some 3.0) (by decide +kernel)
  have hlater : ∀ e ∈ (crowded.work.history.drop 5).take 8, ¬e.isChange := by decide +kernel
  simp only [decide_eq_true_eq] at hm hc
  have hwindow : c.window secondEach = .ok 3.0 := by
    cases hd : c.window secondEach with
    | ok d => simpa [hd, Except.toOption] using hc.2
    | error e => simp [hd, Except.toOption] at hc
  exact hclaim m _ ⟨_, hsplit.symm⟩ ["b"] hm.1 _ c _ 3.0 hsplit' hc.1 hlater hwindow hm.2

end Chronicle

end UtilityCss
