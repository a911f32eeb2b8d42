import UtilityCss.Proofs.Pipeline.Tracking
/-!
# What was reported does not matter

Without a log file the journal is written and never read. So if two workshops have the same pipeline
and the same disk, then a pass gives the same answer in both of them and leaves the same pipeline
and the same disk, whatever was reported before.
-/

namespace UtilityCss

/-! ## Workbenches -/

/-- Two workbenches without a log file differ at most in what was reported. -/
def Workbench.Alike (b b' : Workbench) : Prop := b.log = none ∧ ∃ j, b' = { b with journal := j }

namespace ExistingClasses

variable {b b' : Workbench}

/-- What reading stylesheets gives does not depend on the journal. -/
theorem readAll_alike (h : b.Alike b') (ps : List Path) :
    (readAll b ps).1 = (readAll b' ps).1 ∧ (readAll b ps).2.Alike (readAll b' ps).2 := by
  induction ps generalizing b b' with
  | nil => exact ⟨rfl, h⟩
  | cons p ps ih =>
    obtain ⟨hlog, j, rfl⟩ := h
    have hread (j : Journal) : ({ b with journal := j } : Workbench).onDisk (·.readText p) =
        ((b.disk.readText p).1, { b with disk := (b.disk.readText p).2, journal := j }) := by
      unfold Workbench.onDisk
      rw [Workbench.settle_of_log_eq_none (b := { b with journal := j }) hlog]
    have hfirst := hread b.journal
    rw [readAll, readAll, hread j, hfirst]
    cases b.disk.readText p with
    | mk answer d =>
      cases answer with
      | error e =>
        dsimp only
        split
        · exact ih ⟨hlog, _, rfl⟩
        · exact ⟨rfl, hlog, _, rfl⟩
      | ok source =>
        dsimp only
        split
        · exact ⟨rfl, hlog, _, rfl⟩
        · exact ih ⟨hlog, _, rfl⟩
        · split
          · exact ⟨rfl, hlog, _, rfl⟩
          · next names _ =>
            -- The other stylesheets are read, and their class names are added to those of the first
            -- one.
            let line := s!"Loaded {names.length} existing classes from " ++ p.text
            have hrecorded : (Workbench.record { b with disk := d } (.line ⟨.info, line⟩)).Alike
                (Workbench.record { b with disk := d, journal := j } (.line ⟨.info, line⟩)) :=
              ⟨hlog, _, rfl⟩
            obtain ⟨hanswer, hrest⟩ := ih hrecorded
            exact ⟨congrArg (Except.map (names ++ ·)) hanswer, hrest⟩

theorem load_alike (x : ExistingClasses) (h : b.Alike b') : (x.load b).1 = (x.load b').1 ∧
    (x.load b).2.1 = (x.load b').2.1 ∧ (x.load b).2.2.Alike (x.load b').2.2 := by
  obtain ⟨hanswer, hrest⟩ := readAll_alike h x.paths
  unfold load
  split
  · exact ⟨rfl, rfl, h⟩
  · cases hb : readAll b x.paths with
    | mk found b₁ =>
      cases hb' : readAll b' x.paths with
      | mk found' b₁' =>
        rw [hb, hb'] at hanswer hrest
        obtain rfl : found = found' := hanswer
        cases found with
        | error e => exact ⟨rfl, rfl, hrest⟩
        | ok names => exact ⟨rfl, rfl, hrest⟩

end ExistingClasses

/-! ## Workshops -/

namespace Workshop

variable {w w' : Workshop}

/-- Two workshops without a log file differ at most in what was reported. -/
def Alike (w w' : Workshop) : Prop := w.log = none ∧ ∃ j, w' = { w with journal := j }

theorem Alike.disk (h : w.Alike w') : w.disk = w'.disk := by
  obtain ⟨-, j, rfl⟩ := h
  rfl

/-- Whatever is reported in them, workshops stay alike. -/
theorem Alike.reported (h : w.Alike w') (j j' : Journal) :
    Workshop.Alike { w with journal := j } { w' with journal := j' } := by
  obtain ⟨hlog, -, rfl⟩ := h
  exact ⟨hlog, j', rfl⟩

/-- The sources that are read and the class names that are taken into the index are the same. -/
theorem Alike.scan (h : w.Alike w') (paths : List Text) :
    (w.scan paths).1 = (w'.scan paths).1 ∧ (w.scan paths).2.Alike (w'.scan paths).2 := by
  obtain ⟨hlog, j, rfl⟩ := h
  unfold Workshop.scan readSources
  rw [onDisk_of_log_eq_none hlog, onDisk_of_log_eq_none (w := { w with journal := j }) hlog]
  dsimp only
  cases w.pipeline.reader.readAll w.disk paths with
  | mk sources d =>
    cases sources with
    | error e => exact ⟨rfl, hlog, j, rfl⟩
    | ok sources =>
      dsimp only
      rw [track_foldl, track_foldl]
      exact ⟨rfl, hlog, _, rfl⟩

theorem Alike.suppressed (h : w.Alike w') :
    w.suppressed.1 = w'.suppressed.1 ∧ w.suppressed.2.Alike w'.suppressed.2 := by
  obtain ⟨hlog, j, rfl⟩ := h
  have hbench : w.toWorkbench.Alike { w.toWorkbench with journal := j } := ⟨hlog, j, rfl⟩
  obtain ⟨hanswer, hexisting, hlog', k, hk⟩ := ExistingClasses.load_alike w.pipeline.existing hbench
  unfold Workshop.suppressed
  split
  · refine ⟨hanswer, hlog', k, ?_⟩
    dsimp only
    rw [hk, hexisting]
  · exact ⟨rfl, hlog, j, rfl⟩

/-- The same files are written. -/
theorem Alike.publish (h : w.Alike w') (rules : List CssRule) :
    (w.publish rules).1 = (w'.publish rules).1 ∧
      (w.publish rules).2.Alike (w'.publish rules).2 := by
  obtain ⟨hlog, j, rfl⟩ := h
  unfold Workshop.publish
  rw [onDisk_of_log_eq_none hlog, onDisk_of_log_eq_none (w := { w with journal := j }) hlog]
  dsimp only
  cases w.disk.writeAll (w.pipeline.output.render rules) with
  | mk answer d =>
    cases answer with
    | error e => exact ⟨rfl, hlog, j, rfl⟩
    | ok report =>
      obtain ⟨k, hk⟩ := report_eq { w with disk := d } (w.pipeline.output.group rules) report
      obtain ⟨k', hk'⟩ :=
        report_eq { w with disk := d, journal := j } (w.pipeline.output.group rules) report
      dsimp only
      rw [hk, hk']
      exact ⟨rfl, hlog, k', rfl⟩

theorem Alike.rebuild (h : w.Alike w') :
    w.rebuild.1 = w'.rebuild.1 ∧ w.rebuild.2.Alike w'.rebuild.2 := by
  obtain ⟨hanswer, hlog, j, hj⟩ := h.suppressed
  have hpipeline : w'.pipeline = w.pipeline := by
    obtain ⟨-, j, rfl⟩ := h
    rfl
  unfold Workshop.rebuild
  dsimp only
  cases hw : w.suppressed with
  | mk answer w₁ =>
    cases hw' : w'.suppressed with
    | mk answer' w₁' =>
      rw [hw, hw'] at hanswer hj
      rw [hw] at hlog
      obtain rfl : answer = answer' := hanswer
      obtain rfl : w₁' = { w₁ with journal := j } := hj
      cases answer with
      | error e => exact ⟨rfl, hlog, j, rfl⟩
      | ok names =>
        dsimp only
        rw [hpipeline]
        generalize w₁.pipeline.compiler.compileMany _ = compiled
        -- The compiled rules are published in workshops that are alike again.
        let w₂ : Workshop := { w₁ with pipeline := { w₁.pipeline with compiler := compiled.2 } }
        have halike : w₂.Alike { w₂ with journal := j } := ⟨hlog, j, rfl⟩
        obtain ⟨hwritten, hafter⟩ := halike.publish compiled.1
        cases hp : w₂.publish compiled.1 with
        | mk written w₃ =>
          cases hp' : Workshop.publish { w₂ with journal := j } compiled.1 with
          | mk written' w₃' =>
            rw [hp, hp'] at hwritten hafter
            obtain rfl : written = written' := hwritten
            cases written with
            | error e => exact ⟨rfl, hafter⟩
            | ok report => exact ⟨rfl, hafter⟩

/-- **A pass does not see what was reported before.** -/
theorem Alike.runPass (h : w.Alike w') (paths : List Text) :
    (w.runPass paths).1 = (w'.runPass paths).1 ∧
      (w.runPass paths).2.Alike (w'.runPass paths).2 := by
  obtain ⟨hanswer, halike⟩ := h.scan paths
  unfold Workshop.runPass
  cases hw : w.scan paths with
  | mk scans w₁ =>
    cases hw' : w'.scan paths with
    | mk scans' w₁' =>
      rw [hw, hw'] at hanswer halike
      obtain rfl : scans = scans' := hanswer
      cases scans with
      | error e => exact ⟨rfl, halike⟩
      | ok scans => exact halike.rebuild

end Workshop

end UtilityCss
