import UtilityCss.Proofs.Disk.Rewriting
import UtilityCss.Proofs.Pipeline.ExistingStylesheets
import UtilityCss.Proofs.Pipeline.FromScratch
/-!
# Rebuilding twice

A rebuild that succeeds knows the class names that are left out, has made every directory, and has
written every file. If no two files with different bytes lead to one location, then every file holds
the rules of its group, and the next rebuild writes nothing. If two of them do, then one file does
not hold its rules, and every rebuild writes again: each of the two replaces what was written for
the other.
-/

namespace UtilityCss

namespace Disk

variable {d d' : Disk} {p : Path} {text : Text} {files : List Path} {g : Path → Text}

/-- A file that was not written had its text already, and nothing is lost. -/
theorem holds_of_writeIfChanged_false (h : d.writeIfChanged p text = (.ok false, d')) :
    d'.Holds p text ∧ Keeps d d' fun _ => False := by
  have hfolders : Keeps d (d.ensureFolders p.parent).2 fun _ => False := keeps_ensureFolders d _
  unfold writeIfChanged at h
  split at h
  · simp at h
  next bytes hbytes =>
  split at h
  · simp at h
  next d₁ hfolder =>
  rw [hfolder] at hfolders
  split at h
  · simp at h
  next current d₂ hcurrent =>
  have hread : Keeps d₁ (d₁.currentBytes p).2 fun _ => False := keeps_currentBytes
  rw [hcurrent] at hread
  split at h
  · next hsame =>
    obtain ⟨-, rfl⟩ := Prod.mk.inj h
    rw [hsame] at hcurrent
    exact ⟨⟨bytes, hbytes, currentBytes_eq_ok hcurrent⟩, hfolders.trans hread⟩
  · split at h <;> simp at h

theorem Holds.keeps (h : d.Holds p text) (hkeeps : Keeps d d' fun _ => False) :
    d'.Holds p text := by
  obtain ⟨bytes, hbytes, hcontent⟩ := h
  obtain ⟨l, modified, hlocate, hentry⟩ := content_eq_ok hcontent
  exact ⟨bytes, hbytes, content_of_entryAt (hkeeps.locate hlocate) (hkeeps.entry l _ id hentry)⟩

/-- If nothing had to be written, then every file holds its text. -/
theorem holds_of_writeAll_unwritten {report : WriteReport}
    (h : d.writeAll (files.map fun f => (f, g f)) = (.ok report, d'))
    (hunwritten : report.written = []) :
    (∀ f ∈ files, d'.Holds f (g f)) ∧ Keeps d d' fun _ => False := by
  induction files generalizing d report with
  | nil =>
    obtain ⟨-, rfl⟩ := Prod.mk.inj h
    exact ⟨by simp, .refl d⟩
  | cons f files ih =>
    rw [List.map_cons, writeAll] at h
    split at h
    · simp at h
    next b d₁ hfirst =>
    split at h
    · simp at h
    next rest d₂ hrest =>
    obtain ⟨hreport, rfl⟩ := Prod.mk.inj h
    obtain rfl := Except.ok.inj hreport
    cases b with
    | true => simp at hunwritten
    | false =>
      obtain ⟨hholds, hkeeps⟩ := holds_of_writeIfChanged_false hfirst
      obtain ⟨hfiles, hkept⟩ := ih hrest hunwritten
      exact ⟨List.forall_mem_cons.2 ⟨hholds.keeps hkept, hfiles⟩, hkeeps.trans hkept⟩

end Disk

namespace Workshop

variable {w w' : Workshop} {v : Vocabulary} {output : OutputSettings} {suppress : Bool}

/-! ## Class names that are known -/

/-- The class names that are left out are known: asking for them changes nothing. -/
def Knows (w : Workshop) : Prop := w.suppressed = (.ok w.pipeline.suppressedNames, w)

theorem knows_of_loaded
    (h : w.pipeline.suppress = true → ∃ names, w.pipeline.existing.loaded = some names) :
    w.Knows := by
  unfold Knows suppressed Pipeline.suppressedNames
  split
  · next hsuppress =>
    obtain ⟨names, hnames⟩ := h hsuppress
    rw [ExistingClasses.load_of_loaded hnames, hnames, Option.getD_some]
  · rfl

/-- Class names that were asked for are known from then on. -/
theorem loaded_of_suppressed {names : List Text} (h : w.InOrder v output suppress)
    (hnames : w.suppressed.1 = .ok names) (hsuppress : w.suppressed.2.pipeline.suppress = true) :
    ∃ names, w.suppressed.2.pipeline.existing.loaded = some names := by
  obtain ⟨-, hload⟩ :=
    ExistingClasses.load_spec (x := w.pipeline.existing) (b := w.toWorkbench) h.log
  unfold suppressed at hnames hsuppress ⊢
  split
  · next hyes =>
    rw [if_pos hyes] at hnames
    exact ⟨names, hload names hnames⟩
  · next hno =>
    rw [if_neg hno] at hsuppress
    exact absurd hsuppress hno

/-- A rebuild that succeeds knows the class names that are left out. -/
theorem knows_of_rebuild {result : RebuildResult} (h : w.InOrder v output suppress)
    (hrebuild : w.rebuild = (.ok result, w')) : w'.Knows := by
  have horder := (rebuild_spec h).1
  obtain ⟨hexisting, hasked⟩ := rebuild_existing h
  rw [hrebuild] at horder hexisting hasked
  obtain ⟨names, hnames⟩ := hasked result rfl
  refine knows_of_loaded fun hsuppress => ?_
  have hsame : w.suppressed.2.pipeline.suppress = w'.pipeline.suppress :=
    (suppressed_spec h).1.suppress.trans horder.suppress.symm
  rw [hexisting]
  exact loaded_of_suppressed h hnames (hsame.trans hsuppress)

/-! ## A rebuild when the class names are known -/

/-- Writing stylesheets succeeds or fails as the disk does. -/
theorem publish_eq (h : w.InOrder v output suppress) (rules : List CssRule) :
    (w.publish rules).1 = (w.disk.writeAll (output.render rules)).1 ∧
      (w.publish rules).2.disk = (w.disk.writeAll (output.render rules)).2 := by
  unfold publish
  rw [onDisk_of_log_eq_none h.log, h.output]
  cases w.disk.writeAll (output.render rules) with
  | mk answer d =>
    cases answer with
    | error e => exact ⟨rfl, rfl⟩
    | ok report =>
      obtain ⟨j, hj⟩ := report_eq { w with disk := d } (output.group rules) report
      dsimp only
      rw [h.output, hj]
      exact ⟨rfl, rfl⟩

/-- If the class names that are left out are known, then a rebuild does nothing but write the rules
that the index calls for. -/
theorem rebuild_of_knows (h : w.InOrder v output suppress) (hknows : w.Knows) :
    (w.rebuild.1.map fun result => (result.written, result.unchanged)) =
        (((w.disk.writeAll (output.render w.pipeline.rules)).1.map fun report =>
          (report.written, report.unchanged)).mapError .disk) ∧
      w.rebuild.2.disk = (w.disk.writeAll (output.render w.pipeline.rules)).2 := by
  obtain ⟨hrules, hfaithful, hsame⟩ := h.faithful.compileMany
    (w.pipeline.index.allClasses.filter (!w.pipeline.suppressedNames.contains ·))
  unfold rebuild
  dsimp only
  rw [hknows]
  dsimp only
  generalize w.pipeline.compiler.compileMany _ = compiled at hrules hfaithful hsame ⊢
  have horder : { w with pipeline := { w.pipeline with compiler := compiled.2 } : Workshop }.InOrder
      v output suppress :=
    ⟨h.log, hfaithful, hsame.trans h.vocabulary, h.output, h.suppress⟩
  have hcalled : w.pipeline.rules = compiled.1 := hrules.symm
  obtain ⟨hanswer, hdisk⟩ := publish_eq horder compiled.1
  generalize hpublish : Workshop.publish _ compiled.1 = published at hanswer hdisk ⊢
  dsimp only at hanswer hdisk
  rw [hcalled, ← hanswer, ← hdisk]
  obtain ⟨answer, w₃⟩ := published
  cases answer with
  | error e => exact ⟨rfl, rfl⟩
  | ok report => exact ⟨rfl, rfl⟩

/-! ## Settled files -/

/-- Every file holds the rules of its group and nothing else. -/
def Settled (w : Workshop) : Prop :=
  ∀ file rules, (file, rules) ∈ w.pipeline.output.group w.pipeline.rules →
    w.disk.Holds file (w.pipeline.output.renderText rules)

/-- A rebuild succeeds, writes nothing, and finds every file unchanged. -/
def AtRest (w : Workshop) : Prop :=
  ∃ result w', w.rebuild = (.ok result, w') ∧ result.written = [] ∧
    result.unchanged = w.pipeline.output.files ∧ w'.disk = w.disk

/-- Files that lead to one location are to have the same bytes. -/
def Compatible (w : Workshop) : Prop :=
  ∀ file rules file' rules', (file, rules) ∈ w.pipeline.output.group w.pipeline.rules →
    (file', rules') ∈ w.pipeline.output.group w.pipeline.rules →
      w.disk.locate file = w.disk.locate file' →
      Text.Utf8.encode (w.pipeline.output.renderText rules) =
        Text.Utf8.encode (w.pipeline.output.renderText rules')

theorem mem_group {file : Path} {rules group : List CssRule} :
    (file, group) ∈ output.group rules ↔
      file ∈ output.files ∧ group = output.rulesOf rules file := by
  simp only [OutputSettings.group, OutputSettings.rulesOf, List.mem_map, Prod.mk.injEq]
  constructor
  · rintro ⟨file', hfile, rfl, rfl⟩
    exact ⟨hfile, rfl⟩
  · rintro ⟨hfile, rfl⟩
    exact ⟨file, hfile, rfl, rfl⟩

theorem settled_iff (h : w.pipeline.output = output) : w.Settled ↔ ∀ file ∈ output.files,
    w.disk.Holds file (output.renderText (output.rulesOf w.pipeline.rules file)) := by
  subst h
  constructor
  · intro hsettled file hfile
    exact hsettled file _ (mem_group.2 ⟨hfile, rfl⟩)
  · intro hholds file rules hgroup
    obtain ⟨hfile, rfl⟩ := mem_group.1 hgroup
    exact hholds file hfile

theorem compatible_iff (h : w.pipeline.output = output) : w.Compatible ↔ ∀ file ∈ output.files,
    ∀ file' ∈ output.files, w.disk.locate file = w.disk.locate file' →
      Text.Utf8.encode (output.renderText (output.rulesOf w.pipeline.rules file)) =
        Text.Utf8.encode (output.renderText (output.rulesOf w.pipeline.rules file')) := by
  subst h
  constructor
  · intro hcompatible file hfile file' hfile'
    exact hcompatible file _ file' _ (mem_group.2 ⟨hfile, rfl⟩) (mem_group.2 ⟨hfile', rfl⟩)
  · intro hsame file rules file' rules' hgroup hgroup'
    obtain ⟨hfile, rfl⟩ := mem_group.1 hgroup
    obtain ⟨hfile', rfl⟩ := mem_group.1 hgroup'
    exact hsame file hfile file' hfile'

/-- If the way to every file is there and nothing fails, then a rebuild is at rest exactly if the
files are settled. -/
theorem atRest_iff_settled (h : w.InOrder v output suppress) (hknows : w.Knows)
    (hcalm : w.disk.outages = [])
    (hfolders : ∀ file ∈ output.files, w.disk.HasFolder file.parent) : w.AtRest ↔ w.Settled := by
  obtain ⟨hanswer, hdisk⟩ := rebuild_of_knows h hknows
  rw [OutputSettings.render_eq] at hanswer hdisk
  rw [settled_iff h.output]
  constructor
  · -- What was not written held its text already.
    rintro ⟨result, w', hrebuild, hnone, -, hsame⟩
    rw [hrebuild] at hanswer hdisk
    cases hwrite : w.disk.writeAll _ with
    | mk answer d =>
      rw [hwrite] at hanswer hdisk
      cases answer with
      | error e => contradiction
      | ok report =>
        obtain ⟨hwritten, -⟩ := Prod.mk.inj (Except.ok.inj hanswer)
        have hholds := (Disk.holds_of_writeAll_unwritten hwrite (hwritten.symm.trans hnone)).1
        obtain rfl : w'.disk = d := hdisk
        rwa [hsame] at hholds
  · -- What holds its text already is not written.
    intro hholds
    rw [Disk.writeAll_of_holds hcalm hfolders hholds] at hanswer hdisk
    cases hrebuild : w.rebuild with
    | mk answer w' =>
      rw [hrebuild] at hanswer hdisk
      cases answer with
      | error e => contradiction
      | ok result =>
        obtain ⟨hnone, hall⟩ := Prod.mk.inj (Except.ok.inj hanswer)
        exact ⟨result, w', hrebuild, hnone, hall.trans (by rw [h.output]), hdisk⟩

/-- **A rebuild is settled at once, if files can be told apart.** Take any run of a new pipeline and
a rebuild after it that succeeds. Then the following three are the same, where the last one is about
a second rebuild without anything in between: no two files with different bytes lead to one
location; every file holds the rules of its group; the second rebuild succeeds, writes nothing and
finds every file unchanged. -/
theorem settled_iff_compatible {p : Pipeline} (hnew : p.IsNew v output suppress) (d : Disk)
    (turns : List Turn) {result : RebuildResult}
    (hrebuild : ((Workshop.new p d).run .empty turns).1.rebuild = (.ok result, w'))
    (hcalm : w'.disk.outages = []) :
    (w'.Settled ↔ w'.Compatible) ∧ (w'.AtRest ↔ w'.Compatible) := by
  have hstart := (run_spec (hnew.inOrder d) (hnew.upToDate d) turns).1
  generalize ((Workshop.new p d).run .empty turns).1 = w at hstart hrebuild
  obtain ⟨horder, -, hwritten⟩ := rebuild_spec hstart
  have hknows := knows_of_rebuild hstart hrebuild
  rw [hrebuild] at horder hwritten
  obtain ⟨d₀, report, hwrite⟩ := hwritten result rfl
  dsimp only at horder hwrite
  rw [OutputSettings.render_eq] at hwrite
  have hsettled : w'.Settled ↔ w'.Compatible := by
    rw [settled_iff horder.output, compatible_iff horder.output]
    exact Disk.forall_holds_iff hwrite
  have hrest : w'.AtRest ↔ w'.Settled :=
    atRest_iff_settled horder hknows hcalm (Disk.hasFolder_of_writeAll hwrite)
  exact ⟨hsettled, hrest.trans hsettled⟩

/-! ## Two spellings of one file -/

/-- A pipeline that sends the rules for margins to a file of their own. -/
def splitPipeline (file : Text) : Pipeline :=
  .new History.marginVocabulary { History.siteOutput with namespaces := .ofList [("m", file)] } []
    true 8

/-- The workshop after one pass. -/
def splitStart (file : Text) : Workshop :=
  ((Workshop.new (splitPipeline file) History.siteDisk).run .empty [⟨id, .runPass ["page.html"]⟩]).1

/-- The workshop after one pass and a rebuild. -/
def splitSite (file : Text) : Workshop := (splitStart file).rebuild.2

/-- A file that is told apart from the default one is settled, and so is the default one. -/
theorem margins_settled : (splitSite "margins.css").Settled ∧ (splitSite "margins.css").AtRest := by
  have hrebuild : (splitStart "margins.css").rebuild =
      (.ok ⟨1, 1, 0, [], ["/site/site.css", "/site/margins.css"].map
        fun file => Path.ofText (Text.ofString file)⟩, splitSite "margins.css") :=
    Prod.ext (by decide +kernel) rfl
  have hcompatible : (splitSite "margins.css").Compatible :=
    (compatible_iff rfl).2 (by decide +kernel)
  obtain ⟨hsettled, hrest⟩ := settled_iff_compatible ⟨rfl, rfl, rfl, rfl⟩ History.siteDisk
    [⟨id, .runPass ["page.html"]⟩] hrebuild (by decide +kernel)
  exact ⟨hsettled.2 hcompatible, hrest.2 hcompatible⟩

/-- **Two spellings of one file are not told apart.** The rules for margins replace the default
file, which is not settled, and every rebuild writes both again. -/
theorem alias_unsettled :
    (splitStart "more/../site.css").rebuild.1 =
      .ok ⟨1, 1, 0, ["/site/site.css", "/site/more/../site.css"].map
      fun file => Path.ofText (Text.ofString file), []⟩ ∧
    (splitSite "more/../site.css").disk.outages = [] ∧
    ¬(splitSite "more/../site.css").Settled ∧ ¬(splitSite "more/../site.css").AtRest := by
  refine ⟨by decide +kernel, by decide +kernel, ?_, ?_⟩
  · intro hsettled
    obtain ⟨bytes, hbytes, hcontent⟩ := hsettled (Path.ofText "/site/site.css") []
      (mem_group.2 ⟨by decide +kernel, by decide +kernel⟩)
    have hne : (Text.Utf8.encode (OutputSettings.renderText
        (splitSite "more/../site.css").pipeline.output [])).toOption ≠
        ((splitSite "more/../site.css").disk.content (Path.ofText "/site/site.css")).toOption := by
      decide +kernel
    exact hne (by rw [hbytes, hcontent]; rfl)
  · rintro ⟨result, w', hrebuild, hnone, -⟩
    have hagain : (splitSite "more/../site.css").rebuild.1 =
        .ok ⟨1, 1, 0, ["/site/site.css", "/site/more/../site.css"].map
          fun file => Path.ofText (Text.ofString file), []⟩ := by decide +kernel
    rw [hrebuild] at hagain
    obtain rfl := Except.ok.inj hagain
    contradiction

end Workshop

end UtilityCss
