import UtilityCss.Proofs.Pipeline.ExistingStylesheets
import UtilityCss.Proofs.Pipeline.FromScratch
import UtilityCss.Proofs.Scheduler.Attempts
import UtilityCss.Runner
/-!
# Retrying a pass

An attempt that fails is not undone. It may have taken texts into the index, it may know the class
names of the existing stylesheets by now, and it may have made directories and written some of the
files. None of this shows in the end: the next attempt takes over texts of the same files, in the
same places; what is known about stylesheets that do not change is what would be found again; and
all files are written or found unchanged. So a pass that succeeds after some failures has the result
of one attempt alone.
-/

namespace UtilityCss

/-! ## Existing class names -/

namespace ExistingClasses

variable {x : ExistingClasses}

/-- The class names as they are known, else as the answers for the stylesheets give them. -/
def namesFrom (x : ExistingClasses) (answers : List (Except DiskError Text)) :
    Except Failure (List Text) :=
  match x.loaded with
  | some names => .ok names
  | none => (answers.mapM contribution).map fun found => (found.map (·.getD [])).flatten.eraseDups

theorem namesFrom_of_loaded {names : List Text} (h : x.loaded = some names)
    (answers : List (Except DiskError Text)) : x.namesFrom answers = .ok names := by
  rw [namesFrom, h]

theorem load_eq (x : ExistingClasses) (b : Workbench) :
    (x.load b).1 = x.namesFrom (answers b x.paths) := by
  cases hloaded : x.loaded with
  | some names => rw [load_of_loaded hloaded, namesFrom_of_loaded hloaded]
  | none =>
    rw [(load_of_not_loaded hloaded b).1, readAll_eq, namesFrom, hloaded]
    cases (answers b x.paths).mapM contribution <;> rfl

/-- Loading makes the class names known, or it changes nothing. -/
theorem load_cases (x : ExistingClasses) (b : Workbench) : (x.load b).2.1 = x ∨ x.loaded = none ∧
    ∃ names, (x.load b).1 = .ok names ∧ (x.load b).2.1 = { x with loaded := some names } := by
  cases hloaded : x.loaded with
  | some names =>
    rw [load_of_loaded hloaded]
    exact .inl rfl
  | none =>
    obtain ⟨-, hok, herror⟩ := load_of_not_loaded hloaded b
    cases hnames : (x.load b).1 with
    | ok names => exact .inr ⟨rfl, names, rfl, hok names hnames⟩
    | error e => exact .inl (herror e hnames)

end ExistingClasses

namespace Workshop

variable {w w' w₀ : Workshop} {v : Vocabulary} {output : OutputSettings} {suppress : Bool}
  {files : List Text} {answers : List (Except DiskError Text)}

/-- The answers for the existing stylesheets when a pass asks for them. -/
def sheets (w : Workshop) (files : List Text) : List (Except DiskError Text) :=
  ExistingClasses.answers (w.scan files).2.toWorkbench w.pipeline.existing.paths

/-- The class names that are left out if the stylesheets are as some answers say. -/
def leftOut (w : Workshop) (answers : List (Except DiskError Text)) : Except Failure (List Text) :=
  if w.pipeline.suppress then w.pipeline.existing.namesFrom answers else .ok []

/-- A pass reads the existing stylesheets to the end: they are to be left out and are not known, all
files could be scanned, and no stylesheet ends the reading. -/
structure Learns (w : Workshop) (files : List Text) : Prop where
  suppress : w.pipeline.suppress = true
  loaded : w.pipeline.existing.loaded = none
  scanned : (w.scan files).1.isOk
  known : (w.pipeline.existing.namesFrom (w.sheets files)).isOk

/-- A scan changes nothing of a pipeline but the index. -/
theorem scan_pipeline (w : Workshop) (files : List Text) : (w.scan files).2.pipeline =
    { w.pipeline with index := w.pipeline.index.takeOver (w.scanned files) } := by
  have hread : (w.readSources files).2.pipeline = w.pipeline := rfl
  unfold scan scanned
  cases hsources : w.readSources files with
  | mk answer w₁ =>
    rw [hsources] at hread
    cases answer with
    | error e => exact hread
    | ok sources =>
      dsimp only at hread ⊢
      rw [track_foldl, ← hread]

/-- After a scan the class names that are left out are those that the stylesheets give then. -/
theorem suppressed_scan (w : Workshop) (files : List Text) :
    (w.scan files).2.suppressed.1 = w.leftOut (w.sheets files) ∧
      ((w.scan files).2.suppressed.2.pipeline.existing = w.pipeline.existing ∨
        w.pipeline.suppress = true ∧ w.pipeline.existing.loaded = none ∧
        ∃ names, w.leftOut (w.sheets files) = .ok names ∧
          (w.scan files).2.suppressed.2.pipeline.existing =
            { w.pipeline.existing with loaded := some names }) := by
  have hpipeline := scan_pipeline w files
  have hsuppress : (w.scan files).2.pipeline.suppress = w.pipeline.suppress := by rw [hpipeline]
  have hexisting : (w.scan files).2.pipeline.existing = w.pipeline.existing := by rw [hpipeline]
  unfold suppressed leftOut sheets
  rw [hsuppress, hexisting]
  by_cases h : w.pipeline.suppress = true
  · simp only [if_pos h]
    have hload := ExistingClasses.load_eq w.pipeline.existing (w.scan files).2.toWorkbench
    obtain hsame | ⟨hloaded, names, hnames, hknown⟩ :=
      ExistingClasses.load_cases w.pipeline.existing (w.scan files).2.toWorkbench
    · exact ⟨hload, .inl hsame⟩
    · exact ⟨hload, .inr ⟨h, hloaded, names, hload.symm.trans hnames, hknown⟩⟩
  · simp only [if_neg h]
    exact ⟨trivial, .inl hexisting⟩

/-- **What a pass leaves**, whether it succeeds or not: the texts that it has scanned are taken
over, and the class names of the existing stylesheets are known if it has read these to the end. -/
theorem runPass_leaves (h : w.InOrder v output suppress) (files : List Text) :
    (w.runPass files).2.InOrder v output suppress ∧
      (w.runPass files).2.pipeline.index = w.pipeline.index.takeOver (w.scanned files) ∧
      ((w.runPass files).2.pipeline.existing = w.pipeline.existing ∨
        w.Learns files ∧ ∃ names, w.leftOut (w.sheets files) = .ok names ∧
          (w.runPass files).2.pipeline.existing =
            { w.pipeline.existing with loaded := some names }) := by
  obtain ⟨horder, htaken, -⟩ := scan_spec h files
  have hpipeline := scan_pipeline w files
  obtain ⟨-, hasked⟩ := suppressed_scan w files
  unfold runPass
  cases hscan : w.scan files with
  | mk scans w₁ =>
    rw [hscan] at horder htaken hpipeline hasked
    cases scans with
    | error e => exact ⟨horder, htaken, .inl (by rw [hpipeline])⟩
    | ok scans =>
      obtain ⟨hafter, hindex, -⟩ := rebuild_spec horder
      dsimp only at hasked ⊢
      refine ⟨hafter, hindex.trans htaken, ?_⟩
      rw [(rebuild_existing horder).1]
      refine hasked.imp_right ?_
      rintro ⟨hsuppress, hloaded, names, hnames, hknown⟩
      refine ⟨⟨hsuppress, hloaded, by rw [hscan]; rfl, ?_⟩, names, hnames, hknown⟩
      rw [leftOut, if_pos hsuppress] at hnames
      rw [hnames]
      rfl

/-- A pass that succeeds has scanned all its files, and has left out what the stylesheets gave. -/
theorem runPass_succeeds (h : w.InOrder v output suppress) {result : RebuildResult}
    (hpass : w.runPass files = (.ok result, w')) : w'.Rebuilt output ∧ (w.scan files).1.isOk ∧
      w.leftOut (w.sheets files) = .ok w'.pipeline.suppressedNames := by
  obtain ⟨horder, -, -⟩ := scan_spec h files
  obtain ⟨hasked, -⟩ := suppressed_scan w files
  unfold runPass at hpass
  cases hscan : w.scan files with
  | mk scans w₁ =>
    rw [hscan] at horder hasked hpass
    cases scans with
    | error e => cases congrArg Prod.fst hpass
    | ok scans =>
      dsimp only at hasked hpass
      obtain ⟨-, -, hwritten⟩ := rebuild_spec horder
      obtain ⟨hexisting, hknown⟩ := rebuild_existing horder
      obtain ⟨hsuppressed, -, hnames⟩ := suppressed_spec horder
      have hafter := (rebuild_spec horder).1
      rw [hpass] at hwritten hexisting hknown hafter
      obtain ⟨names, hok⟩ := hknown result rfl
      refine ⟨hwritten result rfl, rfl, ?_⟩
      -- The rebuild changes nothing of what it has asked for.
      have hsame : w'.pipeline.suppressedNames = w₁.suppressed.2.pipeline.suppressedNames := by
        rw [Pipeline.suppressedNames, Pipeline.suppressedNames, hexisting, hafter.suppress,
          hsuppressed.suppress]
      rw [← hasked, hok, hsame, hnames names hok]

/-! ## Attempts that go on from others -/

/-- The pipeline stands where attempts at a pass may have left it that have begun in the workshop
`w₀`: files of the pass may have been taken over, and what is left out is what was left out before,
if the stylesheets give the answers. -/
structure Resumes (w₀ : Workshop) (files : List Text) (answers : List (Except DiskError Text))
    (w : Workshop) : Prop where
  inOrder : ∃ v output suppress, w₀.InOrder v output suppress ∧ w.InOrder v output suppress
  index : ∃ sources : List (Text × Text), (sources = [] ∨ sources.map Prod.fst = files) ∧
    w.pipeline.index = w₀.pipeline.index.takeOver sources
  leftOut : w.leftOut answers = w₀.leftOut answers

theorem Resumes.refl (h : w.InOrder v output suppress) (files : List Text)
    (answers : List (Except DiskError Text)) : Resumes w files answers w :=
  ⟨⟨v, output, suppress, h, h⟩, ⟨[], .inl rfl, rfl⟩, rfl⟩

/-- Only the pipeline matters, and that there is no log file. -/
theorem Resumes.congr (h : Resumes w₀ files answers w) (hpipeline : w'.pipeline = w.pipeline)
    (hlog : w'.log = w.log) : Resumes w₀ files answers w' := by
  obtain ⟨⟨v, output, suppress, hstart, horder⟩, hindex, hnames⟩ := h
  refine ⟨⟨v, output, suppress, hstart, ?_⟩, hpipeline ▸ hindex, ?_⟩
  · exact ⟨hlog.trans horder.log, hpipeline ▸ horder.faithful, hpipeline ▸ horder.vocabulary,
      hpipeline ▸ horder.output, hpipeline ▸ horder.suppress⟩
  · rw [Workshop.leftOut, hpipeline]
    exact hnames

/-- What a pass has left out is what the answers give, if it has found the stylesheets so. -/
theorem leftOut_of_learns {names : List Text} (hlearns : w.Learns files → w.sheets files = answers)
    (hscan : (w.scan files).1.isOk) (h : w.leftOut (w.sheets files) = .ok names) :
    w.leftOut answers = .ok names := by
  by_cases hsuppress : w.pipeline.suppress = true
  · rw [leftOut, if_pos hsuppress] at h ⊢
    cases hloaded : w.pipeline.existing.loaded with
    | some known =>
      rw [ExistingClasses.namesFrom_of_loaded hloaded] at h ⊢
      exact h
    | none =>
      have hsheets := hlearns ⟨hsuppress, hloaded, hscan, by rw [h]; rfl⟩
      rw [← hsheets]
      exact h
  · rw [leftOut, if_neg hsuppress] at h ⊢
    exact h

/-- **The step**: a pass over the same files, whatever becomes of it, leaves a pipeline that
resumes. -/
theorem Resumes.runPass (h : Resumes w₀ files answers w)
    (hlearns : w.Learns files → w.sheets files = answers) :
    Resumes w₀ files answers (w.runPass files).2 := by
  obtain ⟨⟨v, output, suppress, hstart, horder⟩, ⟨sources, hsources, hindex⟩, hnames⟩ := h
  obtain ⟨hafter, htaken, hexisting⟩ := runPass_leaves horder files
  refine ⟨⟨v, output, suppress, hstart, hafter⟩, ?_, ?_⟩
  · -- A scan either takes nothing over, or it takes over all files and hides what was taken over
    -- before.
    cases hscan : (w.scan files).1 with
    | error e =>
      have hnone : w.scanned files = [] := by
        unfold scan at hscan
        unfold scanned
        cases hread : w.readSources files with
        | mk answer w₁ =>
          rw [hread] at hscan
          cases answer with
          | error e => rfl
          | ok sources => contradiction
      exact ⟨sources, hsources, by rw [htaken, hnone, hindex]; rfl⟩
    | ok scans =>
      have hpaths := (scan_spec horder files).2.2 scans hscan
      refine ⟨w.scanned files, .inr hpaths, ?_⟩
      rw [htaken, hindex]
      rcases hsources with rfl | hsources
      · rfl
      · exact UsageIndex.takeOver_takeOver (hsources.trans hpaths.symm)
  · -- What the pass has learned is what the answers give.
    rw [← hnames]
    have hsame : (w.runPass files).2.pipeline.suppress = w.pipeline.suppress :=
      hafter.suppress.trans horder.suppress.symm
    rcases hexisting with hexisting | ⟨hlearned, names, hok, hknown⟩
    · rw [Workshop.leftOut, Workshop.leftOut, hsame, hexisting]
    · rw [leftOut_of_learns hlearns hlearned.scanned hok, Workshop.leftOut, hsame,
        if_pos hlearned.suppress, hknown]
      rfl

/-- A rebuild that has written the same rules in the same directory has written the same bytes. -/
theorem Rebuilt.same (h : w.Rebuilt output) (h' : w'.Rebuilt output)
    (hcwd : w'.disk.cwd = w.disk.cwd)
    (hrules : w'.pipeline.rules = w.pipeline.rules) : ∀ file ∈ output.files, ∃ bytes,
      w.disk.content file = .ok bytes ∧ w'.disk.content file = .ok bytes := by
  intro file hfile
  obtain ⟨-, q, hlast, bytes, hbytes, hcontent⟩ := h.holds hfile
  obtain ⟨-, q', hlast', bytes', hbytes', hcontent'⟩ := h'.holds hfile
  rw [hcwd, hlast, Option.some.injEq] at hlast'
  subst hlast'
  rw [hrules, hbytes, Except.ok.injEq] at hbytes'
  exact ⟨bytes, hcontent, hbytes' ▸ hcontent'⟩

/-- **The last attempt**: a pass that resumes and succeeds ends as a pass from the start that
succeeds with the same texts and the same stylesheets. -/
theorem Resumes.succeeds {alone alone' : Workshop} {result result' : RebuildResult}
    (h : Resumes alone files (alone.sheets files) w) (horder : alone.InOrder v output suppress)
    (hlearns : w.Learns files → w.sheets files = alone.sheets files)
    (hpass : w.runPass files = (.ok result, w'))
    (halone : alone.runPass files = (.ok result', alone'))
    (htexts : w.scanned files = alone.scanned files) (hcwd : alone'.disk.cwd = w'.disk.cwd) :
    w'.pipeline.index = alone'.pipeline.index ∧ ∀ file ∈ output.files, ∃ bytes,
      w'.disk.content file = .ok bytes ∧ alone'.disk.content file = .ok bytes := by
  have hw : w.InOrder v output suppress := by
    obtain ⟨v', output', suppress', hstart, hw⟩ := h.inOrder
    obtain rfl : v' = v := hstart.vocabulary.symm.trans horder.vocabulary
    obtain rfl : output' = output := hstart.output.symm.trans horder.output
    obtain rfl : suppress' = suppress := hstart.suppress.symm.trans horder.suppress
    exact hw
  obtain ⟨hrebuilt, hscan, hnames⟩ := runPass_succeeds hw hpass
  obtain ⟨hrebuilt', -, hnames'⟩ := runPass_succeeds horder halone
  obtain ⟨hafter, htaken, -⟩ := runPass_leaves hw files
  obtain ⟨hafter', htaken', -⟩ := runPass_leaves horder files
  have hpaths := (runPass_eq_ok hw (congrArg Prod.fst hpass)).2
  rw [hpass] at hafter htaken
  rw [halone] at hafter' htaken'
  -- What earlier attempts have taken over is hidden by the texts of this one.
  have hindex : w'.pipeline.index = alone'.pipeline.index := by
    obtain ⟨sources, hsources, hresumed⟩ := h.index
    rw [htaken, htaken', hresumed, ← htexts]
    rcases hsources with rfl | hsources
    · rfl
    · exact UsageIndex.takeOver_takeOver (hsources.trans hpaths.symm)
  have hsame : w'.pipeline.suppressedNames = alone'.pipeline.suppressedNames := by
    have hleft := leftOut_of_learns hlearns hscan hnames
    rw [h.leftOut, hnames'] at hleft
    exact (Except.ok.inj hleft).symm
  have hrules : alone'.pipeline.rules = w'.pipeline.rules := by
    rw [Pipeline.rules, Pipeline.rules, hindex, hsame, hafter.vocabulary, hafter'.vocabulary]
  exact ⟨hindex, hrebuilt.same hrebuilt' hcwd hrules⟩

end Workshop

/-! ## Batches -/

namespace Runner

variable {p : Processor Runner} {v : Vocabulary} {output : OutputSettings} {suppress : Bool}
  {files : List Text}

/-- The workshop of a session. -/
def workshop (s : Session Runner) : Workshop := { bench s with pipeline := s.work.pipeline }

/-- A processor that makes passes with the pipeline. While it sleeps before a retry, anything may
happen to the disk. -/
structure Drives (p : Processor Runner) : Prop where
  runPass : ∀ files s, p.runPass files s = processor.runPass files s
  pipeline : ∀ seconds s, (p.sleep seconds s).work.pipeline = s.work.pipeline
  log : ∀ seconds s, (p.sleep seconds s).work.log = s.work.log

theorem drives_processor : Drives processor := ⟨fun _ _ => rfl, fun _ _ => rfl, fun _ _ => rfl⟩

/-- A pass of a session is a pass of its workshop. -/
theorem workshop_runPass (hp : Drives p) (files : List Text) (s : Session Runner) :
    (p.runPass files s).1 = ((workshop s).runPass files).1 ∧
      workshop (p.runPass files s).2 = ((workshop s).runPass files).2 := by
  rw [hp.runPass]
  exact ⟨rfl, rfl⟩

/-- **Retrying a pass is transparent.** Let a batch succeed after any number of attempts that failed
anywhere, and let the same pass succeed at once in the workshop before the batch, on any disk that
gives it the texts of the last attempt. If every attempt that has read the existing stylesheets to
the end has found them as the pass alone finds them, then both end with the same index and with the
same bytes in every file. -/
theorem retried_as_alone (hp : Drives p) {s s' last : Session Runner} {outcome : PassOutcome}
    {result result' : RebuildResult} {d : Disk} {alone : Workshop}
    (horder : (workshop s).InOrder v output suppress)
    (hbatch : s.runBatch p files = (.ok outcome, s'))
    (hresult : outcome.result = .ok result) (hlast : (s.batchAttempts p files).getLast? = some last)
    (halone : Workshop.runPass { workshop s with disk := d } files = (.ok result', alone))
    (htexts : (workshop last).scanned files = Workshop.scanned { workshop s with disk := d } files)
    (hsheets : ∀ a ∈ s.batchAttempts p files, (workshop a).Learns files →
      (workshop a).sheets files = Workshop.sheets { workshop s with disk := d } files)
    (hcwd : alone.disk.cwd = s'.work.disk.cwd) :
    s'.work.pipeline.index = alone.pipeline.index ∧ ∀ file ∈ output.files, ∃ bytes,
      s'.work.disk.content file = .ok bytes ∧ alone.disk.content file = .ok bytes := by
  have hstart : Workshop.InOrder { workshop s with disk := d } v output suppress :=
    ⟨horder.log, horder.faithful, horder.vocabulary, horder.output, horder.suppress⟩
  generalize hw₀ : ({ workshop s with disk := d } : Workshop) = w₀ at halone htexts hsheets hstart
  have hfirst : ∀ event, Workshop.Resumes w₀ files (w₀.sheets files) (workshop (s.emit event)) := by
    intro event
    refine (Workshop.Resumes.refl hstart files _).congr ?_ ?_ <;> rw [← hw₀] <;> rfl
  -- A failed attempt and a sleep leave a pipeline that resumes, and so does every attempt after it.
  have hagain : ∀ a ∈ s.batchAttempts p files, Workshop.Resumes w₀ files (w₀.sheets files)
      (workshop a) → ∀ e a', p.runPass files a = (.error e, a') → ∀ seconds event event',
        Workshop.Resumes w₀ files (w₀.sheets files)
          (workshop ((p.sleep seconds (a'.emit event)).emit event')) := by
    intro a ha hready e a' hrun seconds event event'
    have hafter := (workshop_runPass hp files a).2
    rw [hrun] at hafter
    refine (hready.runPass (hsheets a ha)).congr ?_ ?_ <;> rw [← hafter]
    · exact hp.pipeline seconds _
    · exact hp.log seconds _
  obtain ⟨hready, last', event, hrun, hs'⟩ :=
    Session.of_attemptPass_ok _ (hfirst _) hagain hbatch hresult hlast
  obtain ⟨hanswer, hafter⟩ := workshop_runPass hp files last
  rw [hrun] at hanswer hafter
  have hpass : (workshop last).runPass files = (.ok result, workshop last') :=
    Prod.ext hanswer.symm hafter.symm
  have hmem : last ∈ s.batchAttempts p files := List.mem_of_getLast? hlast
  have hdone := hready.succeeds hstart (hsheets last hmem) hpass halone htexts
  rw [hs'] at hcwd ⊢
  exact hdone hcwd

/-! ## A site whose disk fails for a while -/

/-- The pages of a site with a stylesheet that defines one of their class names. -/
def knownDisk : Disk :=
  let sheet : Entry := .file (".m-8 \x7b\x7d".toList.map fun c => c.toNat.toUInt8) 0
  History.siteDisk.place (.ofList ["site", "known.css"]) sheet

/-- The second page cannot be read at first; then no directory can be made; then no file can be
written. -/
def failingDisk : Disk :=
  { knownDisk with outages :=
    [none, some (.fault .os "busy"), none, none, none, some (.fault .os "disk full"),
      none, none, none, none, some (.fault .os "disk full")] }

/-- A session with three retries. -/
def failingSite : Session Runner :=
  .new (.new ⟨0, 0, 0⟩ (.ofSettings 3 0 1.0)) {
    pipeline :=
      .new History.marginVocabulary History.siteOutput [Path.ofText "/site/known.css"] true 8
    disk := failingDisk
    log := none
    watcher := .new ⟨[], Path.ofText "/site", true⟩
    patterns := []
    pollInterval := 0.5
    watching := false
    stopped := false }

/-- The pages of the site. -/
def pages : List Text := ["page.html", "side.html"]

/-- The site in the end, after four attempts. -/
def retriedSite : Session Runner := (failingSite.runBatch processor pages).2

/-- The workshop after one attempt on a disk that does not fail. -/
def steadySite : Workshop :=
  (Workshop.runPass { workshop failingSite with disk := knownDisk } pages).2

theorem retried_as_steady : (failingSite.batchAttempts processor pages).length = 4 ∧
    retriedSite.work.pipeline.index = steadySite.pipeline.index ∧
    ∀ file ∈ History.siteOutput.files, ∃ bytes,
      retriedSite.work.disk.content file = .ok bytes ∧
        steadySite.disk.content file = .ok bytes := by
  have horder : (workshop failingSite).InOrder History.marginVocabulary History.siteOutput true :=
    ⟨rfl, Compiler.faithful_new _, rfl, rfl, rfl⟩
  obtain ⟨outcome, hbatch, hresult⟩ : ∃ outcome,
      failingSite.runBatch processor pages = (.ok outcome, retriedSite) ∧
        outcome.result = .ok ⟨2, 1, 1, [Path.ofText "/site/site.css"], []⟩ := by
    have hevaluated : ((failingSite.runBatch processor pages).1.map PassOutcome.result) =
        .ok (.ok ⟨2, 1, 1, [Path.ofText "/site/site.css"], []⟩) := by decide +kernel
    cases hbatch : (failingSite.runBatch processor pages).1 with
    | error e => simp [hbatch, Except.map] at hevaluated
    | ok outcome =>
      rw [hbatch] at hevaluated
      exact ⟨outcome, Prod.ext hbatch rfl, Except.ok.inj hevaluated⟩
  have hsome : failingSite.batchAttempts processor pages ≠ [] := Session.attempts_ne_nil _ _ _
  have hlast := List.getLast?_eq_some_getLast hsome
  have halone : Workshop.runPass { workshop failingSite with disk := knownDisk } pages =
      (.ok ⟨2, 1, 1, [Path.ofText "/site/site.css"], []⟩, steadySite) :=
    Prod.ext (by decide +kernel) rfl
  have htexts : ((failingSite.batchAttempts processor pages).getLast?.map fun a =>
      (workshop a).scanned pages) =
        some (Workshop.scanned { workshop failingSite with disk := knownDisk } pages) := by
    decide +kernel
  rw [hlast] at htexts
  have hsheets : ∀ a ∈ failingSite.batchAttempts processor pages, (workshop a).sheets pages =
      Workshop.sheets { workshop failingSite with disk := knownDisk } pages := by decide +kernel
  exact ⟨by decide +kernel, retried_as_alone drives_processor horder hbatch hresult hlast halone
    (Option.some.inj htexts) (fun a ha _ => hsheets a ha) (by decide +kernel)⟩

end Runner

end UtilityCss
