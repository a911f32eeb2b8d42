import UtilityCss.Pipeline
import UtilityCss.Proofs.Compiler.Memory
import UtilityCss.Proofs.Disk.Writing
/-!
# What a rebuild does

A rebuild leaves the index and the settings alone, whether it succeeds or not. If it succeeds, then
what it has written are the rules that the index calls for: those of its class names that no
existing stylesheet defines, compiled as the vocabulary says. The memory of the compiler and the
files that were there before do not matter.
-/

namespace UtilityCss

/-! ## The rules that an index calls for -/

/-- The class names that are left out, as far as they are known. -/
def Pipeline.suppressedNames (p : Pipeline) : List Text :=
  if p.suppress then p.existing.loaded.getD [] else []

/-- The rules that the index calls for. -/
def Pipeline.rules (p : Pipeline) : List CssRule :=
  (p.index.allClasses.filter (!p.suppressedNames.contains ·)).filterMap
    p.compiler.vocabulary.compile

/-- The rules of a file. -/
def OutputSettings.rulesOf (s : OutputSettings) (rules : List CssRule) (file : Path) :
    List CssRule :=
  rules.filter fun r => s.target r.className == file

theorem OutputSettings.render_eq (s : OutputSettings) (rules : List CssRule) :
    s.render rules = s.files.map fun file => (file, s.renderText (s.rulesOf rules file)) := by
  rw [render, group, List.map_map]
  rfl

/-! ## Reading existing stylesheets -/

theorem Workbench.log_onDisk {α : Type} {b : Workbench} {f : Disk → α × Disk} (h : b.log = none) :
    (b.onDisk f).2.log = none := by
  rw [onDisk, settle_of_log_eq_none h]
  exact h

namespace ExistingClasses

theorem log_readAll {b : Workbench} (h : b.log = none) (ps : List Path) :
    (readAll b ps).2.log = none := by
  induction ps generalizing b with
  | nil => exact h
  | cons p ps ih =>
    have hread : (b.onDisk (·.readText p)).2.log = none := Workbench.log_onDisk h
    rw [readAll]
    split
    · next heq =>
      rw [heq] at hread
      split
      · exact ih hread
      · exact hread
    · next heq =>
      rw [heq] at hread
      split
      · exact hread
      · exact ih hread
      · split
        · exact hread
        · exact ih hread

/-- Class names that were read are known from then on. -/
theorem load_spec {x : ExistingClasses} {b : Workbench} (h : b.log = none) :
    (x.load b).2.2.log = none ∧ ∀ names, (x.load b).1 = .ok names →
      (x.load b).2.1.loaded = some names := by
  have hread := log_readAll h x.paths
  unfold load
  split
  · next names hknown => exact ⟨h, fun names' heq => by rw [hknown, Except.ok.inj heq]⟩
  · split
    · next heq =>
      rw [heq] at hread
      exact ⟨hread, fun names hok => by simp at hok⟩
    · next heq =>
      rw [heq] at hread
      exact ⟨hread, fun names hok => congrArg some (Except.ok.inj hok)⟩

end ExistingClasses

/-! ## Workshops in order -/

namespace Workshop

variable {w w' : Workshop} {v : Vocabulary} {output : OutputSettings} {suppress : Bool}

/-- There is no log file, the memory of the compiler is faithful, and the settings are the given
ones. -/
structure InOrder (w : Workshop) (v : Vocabulary) (output : OutputSettings) (suppress : Bool) :
    Prop where
  log : w.log = none
  faithful : w.pipeline.compiler.Faithful
  vocabulary : w.pipeline.compiler.vocabulary = v
  output : w.pipeline.output = output
  suppress : w.pipeline.suppress = suppress

theorem InOrder.onDisk {α : Type} {f : Disk → α × Disk} (h : w.InOrder v output suppress) :
    (w.onDisk f).2.InOrder v output suppress :=
  ⟨Workbench.log_onDisk h.log, h.faithful, h.vocabulary, h.output, h.suppress⟩

/-- Without a log file, using the disk is using the disk alone. -/
theorem onDisk_of_log_eq_none {α : Type} {f : Disk → α × Disk} (h : w.log = none) :
    w.onDisk f = ((f w.disk).1, { w with disk := (f w.disk).2 }) := by
  unfold onDisk Workbench.onDisk
  rw [Workbench.settle_of_log_eq_none h]

/-- Reporting changes nothing but the journal. -/
theorem report_eq (w : Workshop) (groups : List (Path × List CssRule)) (r : WriteReport) :
    ∃ j, w.report groups r = { w with journal := j } := by
  have hemits (f : Path → Event) (ps : List Path) (w : Workshop) :
      ∃ j, ps.foldl (fun w p => w.emit (f p)) w = { w with journal := j } := by
    induction ps generalizing w with
    | nil => exact ⟨w.journal, rfl⟩
    | cons p ps ih => exact ih (w.emit (f p))
  unfold report
  obtain ⟨j, hj⟩ :=
    hemits (fun p => .stylesheetWritten p.text ((groups.lookup p).getD []).length) r.written w
  obtain ⟨j', hj'⟩ :=
    hemits (fun p => .stylesheetUnchanged p.text) r.unchanged { w with journal := j }
  refine ⟨j', ?_⟩
  dsimp only
  rw [hj, hj']

/-- Asking for the class names to be left out changes no settings, and they are known afterwards. -/
theorem suppressed_spec (h : w.InOrder v output suppress) :
    w.suppressed.2.InOrder v output suppress ∧
      w.suppressed.2.pipeline.index = w.pipeline.index ∧
      ∀ names, w.suppressed.1 = .ok names → w.suppressed.2.pipeline.suppressedNames = names := by
  obtain ⟨hlog, hnames⟩ :=
    ExistingClasses.load_spec (x := w.pipeline.existing) (b := w.toWorkbench) h.log
  unfold suppressed
  split
  · next hsuppress =>
    refine ⟨⟨hlog, h.faithful, h.vocabulary, h.output, h.suppress⟩, rfl, fun names hok => ?_⟩
    rw [Pipeline.suppressedNames, if_pos hsuppress]
    dsimp only
    rw [hnames names hok, Option.getD_some]
  · next hsuppress =>
    refine ⟨h, rfl, fun names hok => ?_⟩
    rw [Pipeline.suppressedNames, if_neg hsuppress]
    exact Except.ok.inj hok

/-- Writing stylesheets changes nothing but the disk and the journal. -/
theorem publish_spec (h : w.InOrder v output suppress) (rules : List CssRule) :
    (w.publish rules).2.log = none ∧ (w.publish rules).2.pipeline = w.pipeline ∧
      ∀ report, (w.publish rules).1 = .ok report →
        w.disk.writeAll (output.render rules) = (.ok report, (w.publish rules).2.disk) := by
  unfold publish
  rw [onDisk_of_log_eq_none h.log, h.output]
  cases hwrite : w.disk.writeAll (output.render rules) with
  | mk answer d =>
    cases answer with
    | error e => exact ⟨h.log, rfl, fun report hok => by simp at hok⟩
    | ok report =>
      obtain ⟨j, hj⟩ := report_eq { w with disk := d } (output.group rules) report
      dsimp only
      rw [h.output, hj]
      exact ⟨h.log, rfl, fun report' hok => by rw [Except.ok.inj hok]⟩

/-- **What a rebuild does.** It changes neither the settings nor the index; and if it succeeds, the
rules that the index calls for were written to the disk. -/
theorem rebuild_spec (h : w.InOrder v output suppress) :
    w.rebuild.2.InOrder v output suppress ∧ w.rebuild.2.pipeline.index = w.pipeline.index ∧
      ∀ result, w.rebuild.1 = .ok result → ∃ (d : Disk) (report : WriteReport),
        d.writeAll (output.render w.rebuild.2.pipeline.rules) = (.ok report, w.rebuild.2.disk) := by
  obtain ⟨horder, hindex, hnames⟩ := suppressed_spec h
  unfold rebuild
  dsimp only
  cases hsuppressed : w.suppressed with
  | mk answer w₁ =>
    rw [hsuppressed] at horder hindex hnames
    cases answer with
    | error e => exact ⟨horder, hindex, fun result hok => by simp at hok⟩
    | ok names =>
      obtain ⟨hrules, hfaithful, hsame⟩ :=
        horder.faithful.compileMany (w.pipeline.index.allClasses.filter (!names.contains ·))
      dsimp only at hnames ⊢
      generalize w₁.pipeline.compiler.compileMany _ = compiled at hrules hfaithful hsame ⊢
      -- The workshop between compiling and writing, whose index calls for the compiled rules.
      let w₂ : Workshop := { w₁ with pipeline := { w₁.pipeline with compiler := compiled.2 } }
      have horder₂ : w₂.InOrder v output suppress :=
        ⟨horder.log, hfaithful, hsame.trans horder.vocabulary, horder.output, horder.suppress⟩
      have hcalled : w₂.pipeline.rules = compiled.1 := by
        have hnames₂ : w₂.pipeline.suppressedNames = names := hnames names rfl
        have hindex₂ : w₂.pipeline.index = w.pipeline.index := hindex
        rw [Pipeline.rules, hnames₂, hindex₂, hrules]
        exact congrArg (fun v : Vocabulary => List.filterMap v.compile _) hsame
      obtain ⟨hlog, hpipeline, hwritten⟩ := publish_spec horder₂ compiled.1
      generalize hpublish : Workshop.publish _ _ = published
      rw [show w₂.publish compiled.1 = published from hpublish] at hlog hpipeline hwritten
      have hpublished : published.2.InOrder v output suppress :=
        ⟨hlog, hpipeline ▸ hfaithful, hpipeline ▸ horder₂.vocabulary, hpipeline ▸ horder₂.output,
          hpipeline ▸ horder₂.suppress⟩
      have hkept : published.2.pipeline.index = w.pipeline.index := by
        rw [hpipeline]
        exact hindex
      obtain ⟨answer, w₃⟩ := published
      cases answer with
      | error e => exact ⟨hpublished, hkept, fun result hok => by simp at hok⟩
      | ok report =>
        refine ⟨hpublished, hkept, fun result _ => ⟨w₂.disk, report, ?_⟩⟩
        rw [hpipeline, hcalled]
        exact hwritten report rfl

/-- Of the existing class names a rebuild knows what it has asked for, and it does not succeed
without. -/
theorem rebuild_existing (h : w.InOrder v output suppress) :
    w.rebuild.2.pipeline.existing = w.suppressed.2.pipeline.existing ∧
      ∀ result, w.rebuild.1 = .ok result → ∃ names, w.suppressed.1 = .ok names := by
  -- What is known of existing stylesheets is settled first; compiling and publishing leave it.
  have horder := (suppressed_spec h).1
  unfold rebuild
  dsimp only
  cases hsuppressed : w.suppressed with
  | mk answer w₁ =>
    rw [hsuppressed] at horder
    cases answer with
    | error e => exact ⟨rfl, fun result hok => by simp at hok⟩
    | ok names =>
      have hfaithful :=
        horder.faithful.compileMany (w.pipeline.index.allClasses.filter (!names.contains ·))
      dsimp only
      generalize w₁.pipeline.compiler.compileMany _ = compiled at hfaithful ⊢
      have horder₂ :
          { w₁ with pipeline := { w₁.pipeline with compiler := compiled.2 } : Workshop }.InOrder
          v output suppress :=
        ⟨horder.log, hfaithful.2.1, hfaithful.2.2.trans horder.vocabulary, horder.output,
          horder.suppress⟩
      have hpipeline := (publish_spec horder₂ compiled.1).2.1
      generalize hpublish : Workshop.publish _ compiled.1 = published at hpipeline ⊢
      have hexisting : published.2.pipeline.existing = w₁.pipeline.existing := by rw [hpipeline]
      obtain ⟨answer, w₃⟩ := published
      cases answer with
      | error e => exact ⟨hexisting, fun result hok => by simp at hok⟩
      | ok report => exact ⟨hexisting, fun result _ => ⟨names, rfl⟩⟩

end Workshop

end UtilityCss
