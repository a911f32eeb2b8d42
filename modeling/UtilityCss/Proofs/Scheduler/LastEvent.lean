import UtilityCss.Proofs.Scheduler.Queues
/-!
# The last event

When both queues are empty, a file should be tracked if and only if its last event was a change.
There is one way in which the change is lost. A step takes all queued removals before it takes its
batch, but a removal that arrives in between, while an earlier one is handled, stays queued. If the
file changes again right after, the step compiles the change before the removal is handled, and the
next step forgets the file. The change has overtaken the removal. The main result is that this is
the only way.

The invariant, `Chronicle.Fate`, follows one file. As long as it does not wait, its last event
decides: a change is about to be compiled or tracked with no removal behind it, and otherwise the
file is not tracked or about to be forgotten.
-/

namespace UtilityCss

namespace Stage

/-- The step is going to forget a path. -/
def dooms (path : Text) : Stage → Prop
  | handling held => path ∈ held
  | forgetting forgotten held => path = forgotten ∨ path ∈ held
  | _ => False

@[simp] theorem dooms_eq {path : Text} :
    (∀ paths, (handling paths).dooms path ↔ path ∈ paths) ∧
      (∀ forgotten paths, (forgetting forgotten paths).dooms path ↔
        path = forgotten ∨ path ∈ paths) ∧
      (∀ files, ¬(taken files).dooms path) ∧ (∀ files, ¬(passing files).dooms path) ∧
      (∀ files ok, ¬(passed files ok).dooms path) ∧ (∀ files ok, ¬(returned files ok).dooms path) :=
  ⟨fun _ => Iff.rfl, fun _ _ => Iff.rfl, fun _ => id, fun _ => id, fun _ _ => id, fun _ _ => id⟩

/-- The step has taken a path and has yet to compile it. -/
def carries (path : Text) : Stage → Prop
  | taken files | passing files => path ∈ files
  | _ => False

@[simp] theorem carries_eq {path : Text} :
    (∀ paths, ¬(handling paths).carries path) ∧
      (∀ forgotten paths, ¬(forgetting forgotten paths).carries path) ∧
      (∀ files, (taken files).carries path ↔ path ∈ files) ∧
      (∀ files, (passing files).carries path ↔ path ∈ files) ∧
      (∀ files ok, ¬(passed files ok).carries path) ∧
      (∀ files ok, ¬(returned files ok).carries path) :=
  ⟨fun _ => id, fun _ _ => id, fun _ => Iff.rfl, fun _ => Iff.rfl, fun _ _ => id, fun _ _ => id⟩

/-- A pass of the step has failed. -/
def Failed : Stage → Prop
  | passed _ succeeded | returned _ succeeded => succeeded = false
  | _ => False

@[simp] theorem failed_eq :
    (∀ paths, ¬(handling paths).Failed) ∧ (∀ path paths, ¬(forgetting path paths).Failed) ∧
      (∀ files, ¬(taken files).Failed) ∧ (∀ files, ¬(passing files).Failed) ∧
      (∀ files ok, (passed files ok).Failed ↔ ok = false) ∧
      (∀ files ok, (returned files ok).Failed ↔ ok = false) :=
  ⟨fun _ => id, fun _ _ => id, fun _ => id, fun _ => id, fun _ _ => Iff.rfl, fun _ _ => Iff.rfl⟩

end Stage

namespace Chronicle

variable {start : Scheduler} {depth : Nat} {outcomes : Bool → Prop} {settings : BatchSettings}
  {policy : RetryPolicy} {path : Text} {m : Moment} {h : List Moment}

/-! ## One file -/

/-- The latest change or removal of a path. -/
def latestEvent (path : Text) (h : List Moment) : Option Happening :=
  (h.map Moment.happening).find? fun event => event = .changed path ∨ event = .removed path

/-- The latest moment at which a batch with a path was taken. -/
def latestTaken (path : Text) (h : List Moment) : Option Moment :=
  h.find? fun m => m.taken?.any (path ∈ ·)

/-- A change of a path has overtaken a removal: when its batch was taken the removal was still
queued. -/
def Overtaken (path : Text) (h : List Moment) : Prop :=
  ∃ m, latestTaken path h = some m ∧ path ∈ m.scheduler.removals

/-- The last event of a path is a change that has not overtaken a removal. -/
def Wanted (path : Text) (h : List Moment) : Prop :=
  latestEvent path h = some (.changed path) ∧ ¬Overtaken path h

/-- The removal of a path is queued or in the hands of a step. -/
def Doomed (start : Scheduler) (path : Text) (h : List Moment) : Prop :=
  path ∈ (standing start h).removals ∨ ∃ stage ∈ stages h, stage.dooms path

/-- A step has taken a path and has yet to compile it. -/
def Carried (path : Text) (h : List Moment) : Prop := ∃ stage ∈ stages h, stage.carries path

/-- What becomes of a path is decided by its last event. -/
structure Fate (start : Scheduler) (path : Text) (h : List Moment) : Prop where
  waiting : path ∈ (standing start h).pending → latestEvent path h = some (.changed path)
  wanted : path ∉ (standing start h).pending → Wanted path h →
    ¬Doomed start path h ∧ (Carried path h ∨ path ∈ trackedBy h)
  unwanted : path ∉ (standing start h).pending → ¬Wanted path h →
    Doomed start path h ∨ (¬Carried path h ∧ path ∉ trackedBy h)

theorem latestEvent_cons : latestEvent path (m :: h) =
    if m.happening = .changed path ∨ m.happening = .removed path then some m.happening
      else latestEvent path h := by
  simp only [latestEvent, List.map_cons, List.find?_cons]
  split <;> simp_all

theorem overtaken_cons_of_taken {files : List Text} (hm : m.happening = .taken files) :
    Overtaken path (m :: h) ↔
      if path ∈ files then path ∈ m.scheduler.removals else Overtaken path h := by
  unfold Overtaken latestTaken
  by_cases hpath : path ∈ files <;> simp [Moment.taken?, hm, hpath]

theorem overtaken_cons (hm : m.taken? = none) : Overtaken path (m :: h) ↔ Overtaken path h := by
  simp [Overtaken, latestTaken, hm]

/-! ## Passes that succeed -/

/-- Where no pass may fail, none has failed. -/
theorem Course.not_failed (hc : Course start depth (· = true) h) :
    ∀ stage ∈ stages h, ¬stage.Failed := by
  induction hc with
  | nil => simp [stages]
  | @cons m h next course ih =>
    cases next with
    | passBegan running ready =>
      rw [running, List.forall_mem_cons] at ih
      simp only [stages, running, List.forall_mem_cons]
      exact ⟨by simp, ih.2⟩
    | _ => simp_all [stages]

/-! ## The invariant -/

/-- What has nothing to do with a path leaves its fate as it is. -/
theorem Fate.cons (hf : Fate start path h)
    (hpending : path ∈ (standing start (m :: h)).pending ↔ path ∈ (standing start h).pending)
    (hevent : latestEvent path (m :: h) = latestEvent path h)
    (hovertaken : Overtaken path (m :: h) ↔ Overtaken path h)
    (hdoomed : Doomed start path (m :: h) ↔ Doomed start path h)
    (hcarried : Carried path (m :: h) ↔ Carried path h)
    (htracked : path ∈ trackedBy (m :: h) ↔ path ∈ trackedBy h) : Fate start path (m :: h) := by
  have hwanted : Wanted path (m :: h) ↔ Wanted path h := by
    rw [Wanted, Wanted, hevent, hovertaken]
  constructor
  case waiting =>
    rw [hpending, hevent]
    exact hf.waiting
  case wanted =>
    rw [hpending, hwanted, hdoomed, hcarried, htracked]
    exact hf.wanted
  case unwanted =>
    rw [hpending, hwanted, hdoomed, hcarried, htracked]
    exact hf.unwanted

theorem Fate.changed (hf : Fate start path h) {changed : Text} (now : Float) :
    Fate start path
      (⟨.changed changed, ((standing start h).enqueue changed).armed now, clock h⟩ :: h) := by
  by_cases hpath : path = changed
  · -- The path waits, and its last event is this change.
    subst hpath
    have hpending : path ∈ (((standing start h).enqueue path).armed now).pending := by
      rw [Scheduler.armed_pending, Scheduler.enqueue_pending]
      split <;> simp_all
    constructor
    case waiting =>
      intro _
      simp [latestEvent_cons]
    case wanted =>
      intro hout
      exact absurd hpending hout
    case unwanted =>
      intro hout
      exact absurd hpending hout
  · refine hf.cons ?_ ?_ (overtaken_cons rfl) ?_ ?_ Iff.rfl
    · rw [standing_pending, Scheduler.armed_pending, Scheduler.enqueue_pending]
      split <;> simp [hpath]
    · simp [latestEvent_cons, Ne.symm hpath]
    · simp [Doomed, stages]
    · simp [Carried, stages]

theorem Fate.removed (hf : Fate start path h) (hnodup : (standing start h).pending.Nodup)
    {removed : Text} (now : Float) :
    Fate start path (⟨.removed removed, (standing start h).enqueueRemoval removed, now⟩ :: h) := by
  by_cases hpath : path = removed
  · -- Its removal is queued.
    subst hpath
    have hpending : path ∉ ((standing start h).enqueueRemoval path).pending := by
      rw [Scheduler.enqueueRemoval_pending, hnodup.mem_erase_iff]
      simp
    constructor
    case waiting =>
      intro hin
      exact absurd hin hpending
    case wanted =>
      intro _ hwanted
      simp [Wanted, latestEvent_cons] at hwanted
    case unwanted =>
      intro _ _
      exact .inl (.inl (by simp))
  · refine hf.cons ?_ ?_ (overtaken_cons rfl) ?_ ?_ Iff.rfl
    · rw [standing_pending, Scheduler.enqueueRemoval_pending, List.mem_erase_of_ne hpath]
    · simp [latestEvent_cons, Ne.symm hpath]
    · simp [Doomed, stages, hpath]
    · simp [Carried, stages]

/-- A batch is taken when the step holds no removal, so all depends on those that are queued. -/
theorem Fate.taken (hf : Fate start path h) {files : List Text} {s : Scheduler}
    (hrunning : stages h = [.handling []])
    (hdue : (standing start h).takeDueBatch (clock h) = (some files, s)) :
    Fate start path (⟨.taken files, s, clock h⟩ :: h) := by
  obtain ⟨-, hfiles, -, hs⟩ := Scheduler.takeDueBatch_eq_some_iff.mp hdue
  have hpending : path ∉ s.pending := by simp [hs]
  have hremovals : s.removals = (standing start h).removals := by rw [hs]
  have hevent : latestEvent path (⟨.taken files, s, clock h⟩ :: h) = latestEvent path h := by
    simp [latestEvent_cons]
  have hdoomed : Doomed start path (⟨.taken files, s, clock h⟩ :: h) ↔ path ∈ s.removals := by
    simp [Doomed, stages, hrunning]
  by_cases hpath : path ∈ files
  · -- The path has waited until now. A removal of it that is queued has been overtaken.
    have hchanged := hf.waiting (hfiles ▸ hpath)
    have hwanted : Wanted path (⟨.taken files, s, clock h⟩ :: h) ↔ path ∉ s.removals := by
      rw [Wanted, hevent, overtaken_cons_of_taken rfl, if_pos hpath]
      simp [hchanged]
    constructor
    case waiting =>
      intro hin
      exact absurd hin hpending
    case wanted =>
      intro _ hsafe
      rw [hdoomed]
      exact ⟨hwanted.mp hsafe, .inl (by simpa [Carried, stages, hrunning] using hpath)⟩
    case unwanted =>
      intro _ hlost
      rw [hwanted, Decidable.not_not] at hlost
      exact .inl (hdoomed.mpr hlost)
  · refine hf.cons ?_ hevent ?_ ?_ ?_ Iff.rfl
    · simp [hpending, hfiles, hpath]
    · rw [overtaken_cons_of_taken rfl, if_neg hpath]
    · rw [hdoomed, hremovals]
      simp [Doomed, hrunning]
    · simp [Carried, stages, hrunning, hpath]

theorem Fate.forgot (hf : Fate start path h) {forgotten : Text} {held : List Text}
    (hrunning : stages h = [.forgetting forgotten held]) :
    Fate start path (⟨.forgot forgotten, standing start h, clock h⟩ :: h) := by
  have hevent : latestEvent path (⟨.forgot forgotten, standing start h, clock h⟩ :: h) =
      latestEvent path h := by
    simp [latestEvent_cons]
  by_cases hpath : path = forgotten
  · -- A path that is wanted is not about to be forgotten.
    subst hpath
    have hdoomed : Doomed start path h := by simp [Doomed, hrunning]
    have hwanted : Wanted path (⟨.forgot path, standing start h, clock h⟩ :: h) ↔
        Wanted path h := by
      rw [Wanted, Wanted, hevent, overtaken_cons rfl]
    constructor
    case waiting =>
      intro hin
      rw [hevent]
      exact hf.waiting (by simpa using hin)
    case wanted =>
      intro hout hsafe
      exact absurd hdoomed (hf.wanted (by simpa using hout) (hwanted.mp hsafe)).1
    case unwanted =>
      intro _ _
      exact .inr ⟨by simp [Carried, stages, hrunning], by simp [trackedBy]⟩
  · refine hf.cons (by simp) hevent (overtaken_cons rfl) ?_ ?_ ?_
    · simp [Doomed, stages, hrunning, hpath]
    · simp [Carried, stages, hrunning]
    · simp [trackedBy, hpath]

theorem Fate.compiled (hf : Fate start path h) {files : List Text}
    (hrunning : stages h = [.passing files]) :
    Fate start path (⟨.compiled files true, standing start h, clock h⟩ :: h) := by
  have hevent : latestEvent path (⟨.compiled files true, standing start h, clock h⟩ :: h) =
      latestEvent path h := by
    simp [latestEvent_cons]
  have hdoomed : Doomed start path (⟨.compiled files true, standing start h, clock h⟩ :: h) ↔
      Doomed start path h := by
    simp [Doomed, stages, hrunning]
  have hwanted : Wanted path (⟨.compiled files true, standing start h, clock h⟩ :: h) ↔
      Wanted path h := by
    rw [Wanted, Wanted, hevent, overtaken_cons rfl]
  by_cases hpath : path ∈ files
  · -- The path was carried, so if it is not wanted it is doomed.
    have hcarried : Carried path h := by simp [Carried, hrunning, hpath]
    constructor
    case waiting =>
      intro hin
      rw [hevent]
      exact hf.waiting (by simpa using hin)
    case wanted =>
      intro hout hsafe
      have hkept := hf.wanted (by simpa using hout) (hwanted.mp hsafe)
      rw [hdoomed]
      exact ⟨hkept.1, .inr (by simp [trackedBy, hpath])⟩
    case unwanted =>
      intro hout hlost
      rw [hwanted] at hlost
      rw [hdoomed]
      rcases hf.unwanted (by simpa using hout) hlost with hd | ⟨hnot, -⟩
      · exact .inl hd
      · exact absurd hcarried hnot
  · refine hf.cons (by simp) hevent (overtaken_cons rfl) hdoomed ?_ ?_
    · simp [Carried, stages, hrunning, hpath]
    · simp [trackedBy, hpath]

theorem Course.fate (hc : Course (.new settings policy) 1 (· = true) h) (path : Text) :
    Fate (.new settings policy) path h := by
  -- On the history: events of the path, and its way through the stages, decide its fate.
  induction hc with
  | nil =>
    constructor
    case waiting =>
      intro hin
      simp [standing, Scheduler.new] at hin
    case wanted =>
      intro _ hwanted
      simp [Wanted, latestEvent] at hwanted
    case unwanted =>
      intro _ _
      exact .inr ⟨by simp [Carried, stages], by simp [trackedBy]⟩
  | @cons m h next course ih =>
    cases next with
    | changed changed => exact ih.changed _
    | removed removed => exact ih.removed course.ordered.nodup _
    | taken handled due =>
      obtain rfl := course.outer_eq_nil handled
      exact ih.taken handled due
    | forgot forgetting =>
      obtain rfl := course.outer_eq_nil forgetting
      exact ih.forgot forgetting
    | compiled passing allowed =>
      obtain rfl := course.outer_eq_nil passing
      subst allowed
      exact ih.compiled passing
    | advanced | slept =>
      refine ih.cons (by simp) (by simp [latestEvent_cons]) (overtaken_cons rfl) ?_ ?_ Iff.rfl
      · simp [Doomed, stages]
      · simp [Carried, stages]
    | stepBegan shallow =>
      have hrest := stages_eq_nil_of_length_lt shallow
      refine ih.cons (by simp) (by simp [latestEvent_cons]) (overtaken_cons rfl) ?_ ?_ Iff.rfl
      · simp [Doomed, stages, hrest]
      · simp [Carried, stages, hrest]
    | forgetBegan running | passEnded running | stepEnded running =>
      obtain rfl := course.outer_eq_nil running
      refine ih.cons (by simp) (by simp [latestEvent_cons]) (overtaken_cons rfl) ?_ ?_ Iff.rfl
      · simp [Doomed, stages, running]
      · simp [Carried, stages, running]
    | @passBegan files stage outer running ready =>
      obtain rfl := course.outer_eq_nil running
      have hsound := course.not_failed stage (by rw [running]; exact List.mem_cons_self)
      -- No pass has failed, so this is the first attempt.
      rcases ready with rfl | rfl
      · refine ih.cons (by simp) (by simp [latestEvent_cons]) (overtaken_cons rfl) ?_ ?_ Iff.rfl
        · simp [Doomed, stages, running]
        · simp [Carried, stages, running]
      · simp at hsound
    | stepRested running rest =>
      obtain rfl := course.outer_eq_nil running
      obtain ⟨_, rfl⟩ := Scheduler.eq_of_takeDueBatch_eq_none rest
      refine ih.cons (by simp) (by simp [latestEvent_cons]) (overtaken_cons rfl) ?_ ?_ Iff.rfl
      · simp [Doomed, stages, running]
      · simp [Carried, stages, running]
    | stepBroke running failed => contradiction

/-! ## The last event -/

/-- **The last event wins unless it has overtaken a removal**: where all passes and rebuilds succeed
and no file waits for anything, a file is tracked if and only if its last event is a change, and no
removal of the file was queued when the batch with that change was taken. -/
theorem run_lastEvent (settings : BatchSettings) (policy : RetryPolicy) (visits : List Visit)
    (hvisits : ∀ visit ∈ visits, visit.result.isOk = true) (deeds : List Deed) (path : Text) :
    let s := run 1 deeds (Chronicle.start settings policy visits)
    s.scheduler.pending = [] → s.scheduler.removals = [] →
      (path ∈ s.work.tracked ↔ latestEvent path s.work.history = some (.changed path) ∧
        ¬Overtaken path s.work.history) := by
  intro s hpending hremovals
  have htells : Tells (.new settings policy) 1 (· = true) [] s :=
    run_course settings policy visits (by rfl) hvisits deeds
  have hfate := htells.course.fate path
  rw [htells.scheduler] at hpending hremovals
  have hdoomed : ¬Doomed (.new settings policy) path s.work.history := by
    simp [Doomed, hremovals, htells.stages]
  have hcarried : ¬Carried path s.work.history := by simp [Carried, htells.stages]
  have hout : path ∉ (standing (.new settings policy) s.work.history).pending := by simp [hpending]
  rw [htells.tracked]
  by_cases hwanted : Wanted path s.work.history
  · obtain ⟨-, hc | htracked⟩ := hfate.wanted hout hwanted
    · exact absurd hc hcarried
    · exact iff_of_true htracked hwanted
  · rcases hfate.unwanted hout hwanted with hd | ⟨-, hnot⟩
    · exact absurd hd hdoomed
    · exact iff_of_false hnot hwanted

/-- While one removal is handled, another file is removed and changes again at once. -/
def hasty : Session Chronicle :=
  run 1 [.change "q", .step, .remove "q", .step, .step]
    (Chronicle.start ⟨0, 0, 0⟩ (.ofSettings 3 0 1.0)
      [.plain, .plain, ⟨[.remove "p", .change "p"], .ok ⟨1, 1, 0, [], []⟩, []⟩])

/-- What is tracked after the hasty change, in terms of the events. -/
theorem hasty_lastEvent : ("p" : Text) ∈ hasty.work.tracked ↔
    latestEvent "p" hasty.work.history = some (.changed "p") ∧ ¬Overtaken "p" hasty.work.history :=
  run_lastEvent _ _ _ (by decide +kernel) _ _ (by decide +kernel) (by decide +kernel)

/-- The file of the hasty change is forgotten, though the change is its last event. -/
theorem hasty_forgotten : ¬∀ path, hasty.scheduler.pending = [] → hasty.scheduler.removals = [] →
    latestEvent path hasty.work.history ≠ none →
      (path ∈ hasty.work.tracked ↔ latestEvent path hasty.work.history = some (.changed path)) := by
  intro hclaim
  have hwins := hclaim "p" (by decide +kernel) (by decide +kernel) (by decide +kernel)
  have hlost : ¬(("p" : Text) ∈ hasty.work.tracked ↔
      latestEvent "p" hasty.work.history = some (.changed "p")) := by decide +kernel
  exact hlost hwins

end Chronicle

end UtilityCss
