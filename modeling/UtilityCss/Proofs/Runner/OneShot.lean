import UtilityCss.Decimal.Order
import UtilityCss.Proofs.Pipeline.Journals
import UtilityCss.Proofs.Pipeline.Retrying
import UtilityCss.Proofs.Scheduler.Course
import UtilityCss.Proofs.Watch.FirstPoll
/-!
# Builds with and without watching

A build without watching makes a pass over all matching files at once. A runner that watches takes
another way: the first poll adds the files, each of them is dispatched to the scheduler, and the
batch that they make up is compiled when its deadline has passed. Both ways end in the same pass
over the same files, in workshops that differ at most in what was reported. So they have the same
outcome and leave the same disk.

A pattern that cannot be listed is reported and left out, unless its failure is one that nobody
expects: such a pattern ends the listing, and then nothing is compiled either way.
-/

namespace UtilityCss

open Binary64

namespace Runner

open WatchEvent

variable {s s' s₀ : Session Runner} {e : WatchEvent} {events : List WatchEvent}
  {seen files : List Text}

/-! ## Dispatching files that were added -/

/-- A session has polled and dispatched the files that were seen, and nothing else has happened
since `s₀`: the files wait in their order, and if there are any then there is a deadline. -/
structure Awaits (s₀ s : Session Runner) (seen : List Text) : Prop where
  work : ∃ watcher, s.work = { s₀.work with watcher := watcher }
  scheduler :
    ∃ deadline, s.scheduler = { s₀.scheduler with pending := seen, deadline := deadline } ∧
    (seen ≠ [] → deadline ≠ none)

theorem Awaits.polled (h : s.scheduler.pending = []) (w : Watcher) :
    Awaits s { s with work := { s.work with watcher := w } } [] where
  work := ⟨w, rfl⟩
  scheduler := ⟨s.scheduler.deadline, by rw [← h], fun hne => absurd rfl hne⟩

/-- The delays of all batches up to a number of files are doubles. -/
def Converts (settings : BatchSettings) (files : Nat) : Prop :=
  ∀ n : Nat, n ≤ files → ∃ x, thousandths (settings.delay n) = .ok x

/-- An error that is dispatched is only reported. -/
theorem Awaits.dispatch_error (h : Awaits s₀ s seen) (hkind : e.kind = .error) :
    ∃ s', dispatch e s = (.ok ⟨⟩, s') ∧ Awaits s₀ s' seen := by
  unfold dispatch
  rw [hkind]
  exact ⟨_, rfl, h.work, h.scheduler⟩

/-- A file that is dispatched joins the batch, and the batch gets a deadline. -/
theorem Awaits.dispatch_added (h : Awaits s₀ s seen) (hnew : e.path ∉ seen)
    (hdelay : ∃ x, thousandths (s₀.scheduler.settings.delay (seen ++ [e.path]).length) = .ok x)
    (hkind : e.kind = .added) :
    ∃ s', dispatch e s = (.ok ⟨⟩, s') ∧ Awaits s₀ s' (seen ++ [e.path]) := by
  obtain ⟨hwork, deadline, hscheduler, -⟩ := h
  have hpending : s.scheduler.pending = seen := by rw [hscheduler]
  have hsettings : s.scheduler.settings = s₀.scheduler.settings := by rw [hscheduler]
  have hjoined : (s.scheduler.enqueue e.path).pending = seen ++ [e.path] := by
    rw [Scheduler.enqueue_pending, hpending, if_neg hnew]
  obtain ⟨x, hx⟩ : ∃ x, thousandths (s.scheduler.enqueue e.path).delay = .ok x := by
    rw [Scheduler.delay, hjoined, Scheduler.enqueue_settings, hsettings]
    exact hdelay
  have harm : (s.scheduler.enqueue e.path).arm s.now =
      .ok { s.scheduler.enqueue e.path with deadline := some (s.now + x) } := by
    simp [Scheduler.arm, hx, bind, Except.bind, pure, Except.pure]
  unfold dispatch
  rw [hkind]
  dsimp only
  unfold Session.fileChanged Session.arm report Session.record
  dsimp only
  rw [harm]
  refine ⟨_, rfl, hwork, some (s.now + x), ?_, fun _ => Option.some_ne_none _⟩
  dsimp only [Session.emit, Session.record]
  rw [← hjoined, Scheduler.enqueue_eq, hscheduler]

/-- **The files that were added wait in their order** when all events of a first poll were
dispatched. -/
theorem Awaits.dispatchAll (h : Awaits s₀ s seen) (hnodup : (seen ++ addedPaths events).Nodup)
    (hdelays : Converts s₀.scheduler.settings (seen ++ addedPaths events).length)
    (hkinds : ∀ e ∈ events, e.kind = .error ∨ e.kind = .added) :
    ∃ s', dispatchAll events s = (.ok ⟨⟩, s') ∧ Awaits s₀ s' (seen ++ addedPaths events) := by
  -- On the events, for all files that were seen before them.
  induction events generalizing s seen with
  | nil => exact ⟨s, rfl, by simpa [addedPaths] using h⟩
  | cons e events ih =>
    have hrest : ∀ e ∈ events, e.kind = .error ∨ e.kind = .added :=
      fun e he => hkinds e (.tail _ he)
    rcases hkinds e (.head _) with hkind | hkind
    · have hadded : addedPaths (e :: events) = addedPaths events := by simp [addedPaths, hkind]
      rw [hadded] at hnodup hdelays ⊢
      obtain ⟨s₁, hfirst, hseen⟩ := h.dispatch_error hkind
      obtain ⟨s', hevents, hall⟩ := ih hseen hnodup hdelays hrest
      exact ⟨s', by rw [Runner.dispatchAll, hfirst, ← hevents], hall⟩
    · have hadded : seen ++ addedPaths (e :: events) = seen ++ [e.path] ++ addedPaths events := by
        simp [addedPaths, hkind]
      rw [hadded] at hnodup hdelays ⊢
      have hnew : e.path ∉ seen :=
        fun hmem => (List.nodup_append.1 (List.nodup_append.1 hnodup).1).2.2 _ hmem _ (.head _) rfl
      have hdelay := hdelays (seen ++ [e.path]).length (by simp)
      obtain ⟨s₁, hfirst, hseen⟩ := h.dispatch_added hnew hdelay hkind
      obtain ⟨s', hevents, hall⟩ := ih hseen hnodup hdelays hrest
      exact ⟨s', by rw [Runner.dispatchAll, hfirst, ← hevents], hall⟩

/-! ## Batches in sessions that are alike -/

/-- Two sessions have workshops that are alike, and the same policy for retries. The clock, the
journal and the rest of the scheduler may differ. -/
structure Alike (s t : Session Runner) : Prop where
  workshop : (workshop s).Alike (workshop t)
  policy : s.scheduler.policy = t.scheduler.policy

theorem Alike.disk {t : Session Runner} (h : Alike s t) : s.work.disk = t.work.disk :=
  h.workshop.disk

/-- **Batches of the same files have the same outcome** in sessions that are alike. -/
theorem Alike.runBatch {t : Session Runner} (h : Alike s t) (files : List Text) :
    (s.runBatch processor files).1 = (t.runBatch processor files).1 ∧
      Alike (s.runBatch processor files).2 (t.runBatch processor files).2 := by
  have hrun : ∀ s t, Alike s t → (processor.runPass files s).1 = (processor.runPass files t).1 ∧
      Alike (processor.runPass files s).2 (processor.runPass files t).2 := by
    intro s t h
    obtain ⟨hanswer, halike⟩ := h.workshop.runPass files
    exact ⟨hanswer, halike, h.policy⟩
  have hemit : ∀ (s t : Session Runner) (e e' : Event), Alike s t → Alike (s.emit e) (t.emit e') :=
    fun s t e e' h => ⟨h.workshop.reported _ _, h.policy⟩
  have hsleep : ∀ (s t : Session Runner) (seconds : Float), Alike s t →
      Alike (processor.sleep seconds s) (processor.sleep seconds t) :=
    fun s t seconds h => ⟨h.workshop, h.policy⟩
  unfold Session.runBatch Session.runWithRetries
  rw [h.policy]
  exact Session.attemptPass_alike hrun hemit hsleep (fun s t h => h.policy) _ 1 h

/-- A batch leaves the scheduler alone. -/
theorem scheduler_runBatch (s : Session Runner) (files : List Text) :
    (s.runBatch processor files).2.scheduler = s.scheduler := by
  obtain ⟨succeeded, hkept, -⟩ :=
    @Session.attemptPass_keeps Runner processor (processor.runPass files) files
    false (fun t => t.scheduler = s.scheduler) (fun _ t => t.scheduler = s.scheduler)
    (fun t e h => h) (fun _ t e h => h) (fun t seconds h => h) (fun t h => h)
    s.scheduler.policy.maxRetries.toNat 1 s rfl
  exact hkept

/-! ## Building once -/

theorem settle_of_log_eq_none (h : s.work.log = none) : settle s = s := by
  unfold settle
  rw [Workbench.settle_of_log_eq_none (b := bench s) h]
  rfl

theorem foldl_report (messages : List Text) (s : Session Runner) :
    ∃ j, messages.foldl (fun s message => report s .error message) s = { s with journal := j } := by
  induction messages generalizing s with
  | nil => exact ⟨s.journal, rfl⟩
  | cons message messages ih => exact ih (report s .error message)

/-- A build without watching is a batch of all matching files. -/
theorem buildOnce_eq {found : List Path} (hlog : s.work.log = none)
    (hfiles : (s.work.watcher.watchList.matchingFiles s.work.disk).1 = .ok found) :
    ∃ j, buildOnce s =
      ((Session.runBatch processor (found.map Path.text) { s with journal := j }).1.mapError
          .arithmetic,
        (Session.runBatch processor (found.map Path.text) { s with journal := j }).2) := by
  unfold buildOnce
  dsimp only
  rw [settle_of_log_eq_none hlog]
  cases hmatching : s.work.watcher.watchList.matchingFiles s.work.disk with
  | mk answer problems =>
    rw [hmatching] at hfiles
    obtain rfl : answer = .ok found := hfiles
    obtain ⟨j, hj⟩ := foldl_report problems s
    dsimp only
    rw [hj]
    exact ⟨j, rfl⟩

/-- A build without watching ends before any batch if the matching files cannot be listed. -/
theorem buildOnce_of_error {e : Failure} (hlog : s.work.log = none)
    (hfiles : (s.work.watcher.watchList.matchingFiles s.work.disk).1 = .error e) :
    ∃ j, buildOnce s = (.error e, { s with journal := j }) := by
  unfold buildOnce
  dsimp only
  rw [settle_of_log_eq_none hlog]
  cases hmatching : s.work.watcher.watchList.matchingFiles s.work.disk with
  | mk answer problems =>
    rw [hmatching] at hfiles
    obtain rfl : answer = .error e := hfiles
    obtain ⟨j, hj⟩ := foldl_report problems s
    dsimp only
    rw [hj]
    exact ⟨j, rfl⟩

/-! ## Watching -/

/-- A session in which files wait and nothing else takes them as a batch when the deadline has
passed. -/
theorem Awaits.takeDueBatch {now deadline : Float} (h : Awaits s₀ s seen)
    (hcompiling : s₀.scheduler.compiling = false) (hseen : seen ≠ [])
    (hdeadline : s.scheduler.deadline = some deadline) (hnow : ¬now < deadline) :
    s.scheduler.takeDueBatch now = (some seen,
      { s.scheduler with pending := [], deadline := none, compiling := true }) := by
  obtain ⟨-, deadline', hscheduler, -⟩ := h
  have hpending : s.scheduler.pending = seen := by rw [hscheduler]
  have hidle : s.scheduler.compiling = false := by rw [hscheduler]; exact hcompiling
  have hdue : s.scheduler.isDue now := Scheduler.isDue_iff.2 ⟨hidle, deadline, hdeadline, hnow⟩
  exact Scheduler.takeDueBatch_eq_some_iff.2 ⟨hdue, hpending, hseen, rfl⟩

/-- A step that finds a batch due and no removals queued runs the batch, and that is all. -/
theorem step_of_takeDueBatch {scheduler : Scheduler} (hremovals : s.scheduler.removals = [])
    (hdue : s.scheduler.takeDueBatch s.now = (some files, scheduler))
    (hpending : scheduler.pending = []) :
    (step s).1 = (Session.runBatch processor files { s with scheduler := scheduler }).1.map some ∧
      (step s).2.work =
        (Session.runBatch processor files { s with scheduler := scheduler }).2.work := by
  have hsame : { s with scheduler := { s.scheduler with removals := [] } } = s := by
    rw [← hremovals]
  have hhandled : Session.handleRemovals processor s.scheduler.removals
      { s with scheduler := { s.scheduler with removals := [] } } = (.ok ⟨⟩, s) := by
    rw [hsame, hremovals]
    rfl
  unfold step
  rw [Session.step_of_ok hhandled, Session.compileDueBatch, hdue]
  dsimp only
  have hscheduler := scheduler_runBatch { s with scheduler := scheduler } files
  cases hbatch : Session.runBatch processor files { s with scheduler := scheduler } with
  | mk outcome t =>
    rw [hbatch] at hscheduler
    -- Nothing has joined the batch meanwhile, so no new deadline is set.
    have hnone : t.scheduler.pending = [] := by
      dsimp only at hscheduler
      rw [hscheduler]
      exact hpending
    dsimp only
    rw [Session.finishPass]
    dsimp only
    rw [hnone]
    exact ⟨rfl, rfl⟩

/-! ## The two ways -/

/-- A session that follows a configuration on a disk: it watches the files of the list and knows
none of them yet, it has built nothing, and nothing waits. The clock and the journal may be any. -/
structure IsFresh (c : Config) (d : Disk) (w : WatchList) (s : Session Runner) : Prop where
  pipeline : s.work.pipeline =
    .new c.vocabulary c.outputSettings c.existingCssPaths c.ignoreExistingClasses c.scanWorkers
  disk : s.work.disk = d
  log : s.work.log = none
  watcher : s.work.watcher = .new w
  scheduler : s.scheduler = .new c.batchSettings c.retryPolicy

variable {c : Config} {d : Disk} {w : WatchList} {found : List Path} {t : Session Runner}

/-- A session that has started is fresh, and sees the patterns from the root of its
configuration. -/
theorem isFresh_of_start (h : start c d = .ok s) : ∃ w, w.root = c.root ∧ IsFresh c d w s := by
  obtain ⟨watchList, hlist, hs⟩ := bind_eq_ok.1 h
  obtain rfl := Except.ok.inj hs
  have hroot : watchList.root = c.root := by
    unfold WatchList.ofPatterns at hlist
    split at hlist
    · rw [← Except.ok.inj hlist]
    · contradiction
  exact ⟨watchList, hroot, rfl, rfl, rfl, rfl, rfl⟩

namespace IsFresh

/-- It does not matter when a session starts. -/
theorem at_time (h : IsFresh c d w s) (now : Float) : IsFresh c d w { s with now := now } :=
  ⟨h.pipeline, h.disk, h.log, h.watcher, h.scheduler⟩

/-- A poll changes nothing of the session but the watcher. -/
theorem poll_eq (h : IsFresh c d w s) : poll s = (((Watcher.new w).poll d).1,
    { s with work := { s.work with watcher := ((Watcher.new w).poll d).2 } }) := by
  have hpolled : s.work.watcher.poll s.work.disk = (Watcher.new w).poll d := by
    rw [h.watcher, h.disk]
  unfold poll
  rw [settle_of_log_eq_none h.log]
  dsimp only
  rw [hpolled]

/-- The first poll adds the files that match, in their order, and fails if they cannot be listed. -/
theorem addedPaths_poll (h : IsFresh c d w s) (hroot : w.root.IsNormal) (hd : d.WellNamed)
    (htimed : d.Timed) :
    (poll s).1.map addedPaths = (w.matchingFiles d).1.map (List.map Path.text) := by
  have hfirst := Watcher.poll_new (w := w) hd hroot htimed
  rw [h.poll_eq]
  cases hmatching : (w.matchingFiles d).1 with
  | error e =>
    rw [hmatching] at hfirst
    exact congrArg (Except.map addedPaths) hfirst
  | ok found =>
    rw [hmatching] at hfirst
    obtain ⟨events, w', hevents, hadded, -, -⟩ := hfirst
    rw [hevents]
    exact congrArg Except.ok hadded

/-- Once the first poll is dispatched, the files that match wait in their order. -/
theorem drain_eq (h : IsFresh c d w s) (hroot : w.root.IsNormal) (hd : d.WellNamed)
    (htimed : d.Timed) (hmatching : (w.matchingFiles d).1 = .ok found)
    (hdelays : Converts c.batchSettings found.length) :
    ∃ events s', drain s = (.ok events, s') ∧ addedPaths events = found.map Path.text ∧
      Awaits s s' (found.map Path.text) := by
  have hfirst := Watcher.poll_new (w := w) hd hroot htimed
  rw [hmatching] at hfirst
  obtain ⟨events, w', hevents, hadded, hnodup, hkinds⟩ := hfirst
  have hnone : s.scheduler.pending = [] := by rw [h.scheduler]; rfl
  have hconverts : Converts s.scheduler.settings ([] ++ addedPaths events).length := by
    rw [h.scheduler, List.nil_append, hadded, List.length_map]
    exact hdelays
  obtain ⟨s', hdispatched, hawaits⟩ :=
    (Awaits.polled hnone w').dispatchAll (by rwa [List.nil_append, hadded]) hconverts hkinds
  rw [List.nil_append, hadded] at hawaits
  refine ⟨events, s', ?_, hadded, hawaits⟩
  unfold drain
  rw [h.poll_eq, hevents]
  dsimp only
  rw [hdispatched]

/-- If the matching files cannot be listed, nothing is dispatched. -/
theorem drain_of_error (h : IsFresh c d w s) (hroot : w.root.IsNormal) (hd : d.WellNamed)
    (htimed : d.Timed) {e : Failure} (hmatching : (w.matchingFiles d).1 = .error e) :
    (drain s).1 = .error e ∧ (drain s).2.scheduler = s.scheduler ∧ (drain s).2.work.disk = d := by
  have hfirst := Watcher.poll_new (w := w) hd hroot htimed
  rw [hmatching] at hfirst
  dsimp only at hfirst
  unfold drain
  rw [h.poll_eq, hfirst]
  exact ⟨rfl, rfl, h.disk⟩

/-- **A step with the matching files has the outcome of a build without watching.** The two sessions
were fresh in the same way, and one of them has dispatched its first poll. -/
theorem step_agrees (hs : IsFresh c d w s) (ht : IsFresh c d w t)
    (h : Awaits t s' (found.map Path.text))
    (hmatching : (w.matchingFiles d).1 = .ok found) {now : Float}
    (hdue : s'.scheduler.takeDueBatch now = (some (found.map Path.text),
      { s'.scheduler with pending := [], deadline := none, compiling := true })) :
    (step { s' with now := now }).1.mapError .arithmetic = (buildOnce s).1.map some ∧
      (step { s' with now := now }).2.work.disk = (buildOnce s).2.work.disk ∧
      ∀ outcome, (buildOnce s).1 = .ok outcome → outcome.files = found.map Path.text := by
  obtain ⟨⟨watcher, hwork⟩, deadline, hscheduler, -⟩ := h
  have hremovals : s'.scheduler.removals = [] := by rw [hscheduler, ht.scheduler]; rfl
  obtain ⟨hstep, hafterStep⟩ :=
    step_of_takeDueBatch (s := { s' with now := now }) hremovals hdue rfl
  obtain ⟨j, hbuild⟩ := buildOnce_eq hs.log (by rw [hs.watcher, hs.disk]; exact hmatching)
  -- Both ways come to a batch of the same files, in sessions that are alike.
  have halike : Alike { s with journal := j } { s' with
      now := now
      scheduler := { s'.scheduler with pending := [], deadline := none, compiling := true } } := by
    refine ⟨⟨hs.log, s'.journal, ?_⟩, ?_⟩
    · unfold workshop bench
      dsimp only
      rw [hwork, hs.pipeline, hs.disk, hs.log]
      dsimp only
      rw [ht.pipeline, ht.disk, ht.log]
    · dsimp only
      rw [hscheduler, hs.scheduler, ht.scheduler]
  obtain ⟨hanswer, hafter⟩ := halike.runBatch (found.map Path.text)
  rw [hstep, hafterStep, hbuild]
  refine ⟨?_, hafter.disk.symm, fun outcome houtcome => ?_⟩
  · rw [← hanswer]
    cases (Session.runBatch processor (found.map Path.text) { s with journal := j }).1 <;> rfl
  · exact Session.files_of_attemptPass (Prod.ext (mapError_eq_ok.1 houtcome) rfl)

end IsFresh

/-- **Building once and watching agree.** Let a session follow a configuration on a disk that does
not change and whose files can be looked at. At whatever time it comes, the first poll adds the
files that match, in their order, and fails if they cannot be listed. They can be listed exactly if
no pattern breaks the listing, that is, if every failure of a pattern is contained.

Then, if any file matches and the delays are doubles, all events are dispatched and the batch gets a
deadline; and at any time when that has passed, the scheduler takes these files, a step has the
outcome of a build without watching, and both leave the same disk. If a pattern does break the
listing, then both ways end with the failure of such a pattern and compile nothing, whatever the
other patterns match. -/
theorem watched_as_builtOnce {c : Config} {d : Disk} (hstart : start c d = .ok s)
    (hroot : c.root.IsNormal) (hd : d.WellNamed) (htimed : d.Timed) (early : Float) :
    (poll { s with now := early }).1.map addedPaths =
        (s.work.watcher.watchList.matchingFiles d).1.map (List.map Path.text) ∧
    ((∀ pattern ∈ s.work.watcher.watchList.patterns, ∀ e,
        ¬s.work.watcher.watchList.Breaks d pattern e) →
      ∃ found, (s.work.watcher.watchList.matchingFiles d).1 = .ok found ∧
        (found ≠ [] → Converts c.batchSettings found.length →
          ∃ events s' deadline, drain { s with now := early } = (.ok events, s') ∧
            addedPaths events = found.map Path.text ∧ s'.scheduler.deadline = some deadline ∧
            ∀ now, ¬now < deadline →
              (s'.scheduler.takeDueBatch now).1 = some (found.map Path.text) ∧
              (step { s' with now := now }).1.mapError .arithmetic = (buildOnce s).1.map some ∧
              (step { s' with now := now }).2.work.disk = (buildOnce s).2.work.disk ∧
              ∀ outcome, (buildOnce s).1 = .ok outcome → outcome.files = found.map Path.text)) ∧
    ∀ pattern ∈ s.work.watcher.watchList.patterns, ∀ e,
      s.work.watcher.watchList.Breaks d pattern e →
      ∃ pattern' ∈ s.work.watcher.watchList.patterns, ∃ e',
        s.work.watcher.watchList.Breaks d pattern' e' ∧
        (drain { s with now := early }).1 = .error e' ∧
        (drain { s with now := early }).2.scheduler = s.scheduler ∧
        (drain { s with now := early }).2.work.disk = d ∧
        (buildOnce s).1 = .error e' ∧ (buildOnce s).2.work.disk = d := by
  obtain ⟨w, hsameRoot, hfresh⟩ := isFresh_of_start hstart
  have hlater := hfresh.at_time early
  have hlist : s.work.watcher.watchList = w := by rw [hfresh.watcher]; rfl
  rw [← hsameRoot] at hroot
  rw [hlist]
  -- The poll may come at any time, whereas the build without watching comes at the start.
  refine ⟨hlater.addedPaths_poll hroot hd htimed, fun hunbroken => ?_,
    fun pattern hpattern e hbreaks => ?_⟩
  · obtain ⟨found, hmatching⟩ := WatchList.exists_matchingFiles_iff.2 hunbroken
    refine ⟨found, hmatching, fun hsome hdelays => ?_⟩
    obtain ⟨events, s', hdrain, hadded, hawaits⟩ :=
      hlater.drain_eq hroot hd htimed hmatching hdelays
    have htexts : found.map Path.text ≠ [] := by simpa using hsome
    obtain ⟨deadline', hwaiting, harmed⟩ := hawaits.scheduler
    obtain ⟨deadline, hdeadline⟩ : ∃ deadline, s'.scheduler.deadline = some deadline := by
      rw [hwaiting]
      exact Option.ne_none_iff_exists'.1 (harmed htexts)
    refine ⟨events, s', deadline, hdrain, hadded, hdeadline, fun now hnow => ?_⟩
    have hidle : Session.scheduler { s with now := early } = .new c.batchSettings c.retryPolicy :=
      hlater.scheduler
    have hdue := hawaits.takeDueBatch (by rw [hidle]; rfl) htexts hdeadline hnow
    exact ⟨congrArg Prod.fst hdue, hfresh.step_agrees hlater hawaits hmatching hdue⟩
  · cases hmatching : (w.matchingFiles d).1 with
    | ok found =>
      exact absurd hbreaks
        (WatchList.exists_matchingFiles_iff.1 ⟨found, hmatching⟩ pattern hpattern e)
    | error e' =>
      obtain ⟨pattern', hpattern', hbreaks'⟩ := WatchList.breaks_of_matchingFiles hmatching
      obtain ⟨hanswer, hidle, hdisk⟩ := hlater.drain_of_error hroot hd htimed hmatching
      obtain ⟨j, hbuild⟩ := buildOnce_of_error hfresh.log (by rwa [hlist, hfresh.disk])
      rw [hbuild]
      exact ⟨pattern', hpattern', e', hbreaks', hanswer, hidle, hdisk, rfl, hfresh.disk⟩

/-! ## A site with two pages -/

/-- A configuration that watches each page by patterns of its own, and has a pattern that is
none. -/
def siteConfig : Config where
  root := Path.ofText "/site"
  watchPatterns := ["page.*", "**ml", "s*.html", "p*"]
  outputDir := "."
  rules := .ofRules [Config.scalarRule "m" ["margin"]]
  valueMap := .empty

/-- The session that follows the configuration. -/
def siteSession : Session Runner :=
  .new (.new siteConfig.batchSettings siteConfig.retryPolicy) {
    pipeline := .new siteConfig.vocabulary siteConfig.outputSettings [] true 8
    disk := History.siteDisk
    log := none
    watcher := .new ⟨siteConfig.watchPatterns, siteConfig.root, true⟩
    patterns := siteConfig.watchPatterns
    pollInterval := siteConfig.pollInterval
    watching := false
    stopped := false }

/-- Building the site once and watching it agree as soon as the deadline is there. -/
theorem siteSession_agrees :
    ∃ events s' deadline, drain { siteSession with now := 0.0 } = (.ok events, s') ∧
    addedPaths events = ["/site/page.html", "/site/side.html"].map Text.ofString ∧
    s'.scheduler.deadline = some deadline ∧
    (step { s' with now := deadline }).1.mapError .arithmetic = (buildOnce siteSession).1.map some ∧
    (step { s' with now := deadline }).2.work.disk = (buildOnce siteSession).2.work.disk := by
  have hpatterns : siteConfig.watchPatterns.mapM expandBraces? =
      some (siteConfig.watchPatterns.map fun pattern => [pattern]) := by decide +kernel
  have hstart : start siteConfig History.siteDisk = .ok siteSession := by
    unfold start WatchList.ofPatterns
    rw [hpatterns]
    rfl
  have hdelays : Converts siteConfig.batchSettings 2 := by
    intro n hn
    have hcases : n = 0 ∨ n = 1 ∨ n = 2 := by omega
    rcases hcases with rfl | rfl | rfl <;> exact ⟨_, rfl⟩
  have hmatching : (siteSession.work.watcher.watchList.matchingFiles History.siteDisk).1 =
      .ok (["/site/page.html", "/site/side.html"].map fun file =>
        Path.ofText (Text.ofString file)) := by
    decide +kernel
  obtain ⟨-, hagree, -⟩ := watched_as_builtOnce hstart (by decide +kernel) (by decide +kernel)
    (Disk.timed_of_no_faults rfl) 0.0
  obtain ⟨found, hfound, hbuilt⟩ := hagree (WatchList.exists_matchingFiles_iff.1 ⟨_, hmatching⟩)
  obtain rfl := Except.ok.inj (hmatching.symm.trans hfound)
  obtain ⟨events, s', deadline, hdrain, hadded, hdeadline, hthen⟩ := hbuilt (by simp) hdelays
  obtain ⟨-, hstep, hdisk, -⟩ := hthen deadline (not_lt_self deadline)
  have htexts :
      (["/site/page.html", "/site/side.html"].map fun file => Path.ofText (Text.ofString file)).map
      Path.text = ["/site/page.html", "/site/side.html"].map Text.ofString := by decide +kernel
  exact ⟨events, s', deadline, hdrain, hadded.trans htexts, hdeadline, hstep, hdisk⟩

/-- The session with a pattern that has no component, behind one that a page matches. -/
def dottedSession : Session Runner :=
  { siteSession with work := { siteSession.work with
      watcher := .new ⟨["page.*", "."], siteConfig.root, true⟩
      patterns := ["page.*", "."] } }

/-- **A pattern can keep all files from being compiled**, with and without watching. -/
theorem dottedSession_unbuilt :
    start { siteConfig with watchPatterns := ["page.*", "."] } History.siteDisk =
      .ok dottedSession ∧
    dottedSession.work.watcher.watchList.filesOf History.siteDisk "page.*" =
      .ok [Path.ofText "/site/page.html"] ∧
    (drain dottedSession).1 = .error (.pattern .noComponent) ∧
    (buildOnce dottedSession).1 = .error (.pattern .noComponent) := by
  have hpatterns : (["page.*", "."] : List Text).mapM expandBraces? =
      some (["page.*", "."].map fun pattern => [Text.ofString pattern]) := by
    decide +kernel
  have hmatching : (dottedSession.work.watcher.watchList.matchingFiles History.siteDisk).1 =
      .error (.pattern .noComponent) := by
    decide +kernel
  refine ⟨?_, by decide +kernel, by decide +kernel, ?_⟩
  · unfold start WatchList.ofPatterns
    rw [hpatterns]
    rfl
  · obtain ⟨j, hbuild⟩ := buildOnce_of_error (s := dottedSession) rfl hmatching
    rw [hbuild]

end Runner

end UtilityCss
