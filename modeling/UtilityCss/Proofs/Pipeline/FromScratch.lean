import Mathlib.Data.List.Perm.Basic
import UtilityCss.Config.Settings
import UtilityCss.Proofs.Pipeline.Tracking
import UtilityCss.Proofs.Repetition
/-!
# Incremental builds and builds from scratch

After any run of calls that ends with a successful rebuild, the generated files are those of a new
pipeline that makes one pass over the tracked files, each of them with the text that it had when it
was last scanned. Nothing else of the run can be seen in them: not the order of the scans but for
the order of the paths, not what was scanned and forgotten, not what failed. If two runs end with
the same class names for each path, whatever the order of the paths, then the generated files have
the same rules up to their order.
-/

namespace UtilityCss

/-- A pipeline with the given settings that tracks no file and has compiled nothing. -/
structure Pipeline.IsNew (p : Pipeline) (v : Vocabulary) (output : OutputSettings)
    (suppress : Bool) : Prop where
  compiler : p.compiler = .new v
  output : p.output = output
  suppress : p.suppress = suppress
  index : p.index = .empty

theorem Pipeline.IsNew.inOrder {p : Pipeline} {v : Vocabulary} {output : OutputSettings}
    {suppress : Bool}
    (h : p.IsNew v output suppress) (d : Disk) : (Workshop.new p d).InOrder v output suppress where
  log := rfl
  faithful := by
    rw [Workshop.new, h.compiler]
    exact Compiler.faithful_new v
  vocabulary := by rw [Workshop.new, h.compiler]; rfl
  output := h.output
  suppress := h.suppress

theorem Pipeline.IsNew.upToDate {p : Pipeline} {v : Vocabulary} {output : OutputSettings}
    {suppress : Bool} (h : p.IsNew v output suppress) (d : Disk) :
    (Workshop.new p d).pipeline.index.UpToDate .empty := by
  rw [Workshop.new, h.index]
  exact UsageIndex.upToDate_empty

/-- A run of a new pipeline whose last turn comes to a successful rebuild. -/
structure History (v : Vocabulary) (output : OutputSettings) (suppress : Bool) where
  pipeline : Pipeline
  isNew : pipeline.IsNew v output suppress
  disk : Disk
  /-- The turns before the last one, any of which may fail. -/
  turns : List Workshop.Turn
  last : Workshop.Turn
  result : RebuildResult
  succeeded : (((Workshop.new pipeline disk).run .empty turns).1.turn last).1 = .ok (some result)

/-! ## The class names of an index -/

namespace UsageIndex

variable {u u' : UsageIndex}

theorem mem_allClasses {name : Text} : name ∈ u.allClasses ↔ ∃ path, name ∈ u.classesFor path := by
  simp only [allClasses, List.mem_eraseDups, List.mem_flatten, OrderedMap.values, List.mem_map]
  constructor
  · rintro ⟨classes, ⟨⟨path, classes'⟩, hentry, rfl⟩, hname⟩
    refine ⟨path, ?_⟩
    rw [classesFor, OrderedMap.get?_eq_some_iff.2 hentry]
    exact hname
  · rintro ⟨path, hname⟩
    cases hclasses : u.files.get? path with
    | none => simp [classesFor, hclasses] at hname
    | some classes =>
      rw [classesFor, hclasses] at hname
      exact ⟨classes, ⟨_, OrderedMap.get?_eq_some_iff.1 hclasses, rfl⟩, hname⟩

/-- Indexes with the same class names for each path have the same class names in all. -/
theorem allClasses_perm (h : ∀ path name, name ∈ u.classesFor path ↔ name ∈ u'.classesFor path) :
    u.allClasses.Perm u'.allClasses := by
  refine (List.perm_ext_iff_of_nodup (nodup_eraseDups _) (nodup_eraseDups _)).2 fun name => ?_
  rw [← allClasses, ← allClasses, mem_allClasses, mem_allClasses]
  exact exists_congr fun path => h path name

end UsageIndex

namespace History

variable {v : Vocabulary} {output : OutputSettings} {suppress : Bool}
  (h h' : History v output suppress)

/-- The workshop before the last turn, and the text of each path when it was last scanned. -/
def before : Workshop × OrderedMap Text Text := (Workshop.new h.pipeline h.disk).run .empty h.turns

/-- The workshop at the end. -/
def after : Workshop := (h.before.1.turn h.last).2

/-- The text of each path when it was last scanned with success. -/
def texts : OrderedMap Text Text :=
  h.before.2.insertMany ((h.before.1.meanwhile h.last).taken h.last.call)

/-- The index at the end. -/
def index : UsageIndex := h.after.pipeline.index

/-- The existing class names at the end. -/
def suppressedNames : List Text := h.after.pipeline.suppressedNames

/-- The rules of a file at the end. -/
def rulesOf (file : Path) : List CssRule := output.rulesOf h.after.pipeline.rules file

/-- A file holds some rules and nothing else at the end. -/
def Holds (file : Path) (rules : List CssRule) : Prop :=
  ∃ bytes, Text.Utf8.encode (output.renderText rules) = .ok bytes ∧
    h.after.disk.content file = .ok bytes

/-- The run is one pass over some files. -/
def IsPassOver (paths : List Text) : Prop := h.turns = [] ∧ h.last.call = .runPass paths

/-! ## The end of a run -/

theorem inOrder_new : (Workshop.new h.pipeline h.disk).InOrder v output suppress :=
  h.isNew.inOrder h.disk

/-- At the end the index is up to date, and the rules that it calls for were written. -/
theorem after_spec : h.after.InOrder v output suppress ∧ h.index.UpToDate h.texts ∧
    h.after.Rebuilt output := by
  obtain ⟨horder, hindex⟩ := Workshop.run_spec h.inOrder_new (h.isNew.upToDate h.disk) h.turns
  obtain ⟨hafter, hupdated, hrebuilt⟩ :=
    Workshop.answer_spec (horder.meanwhile h.last) hindex h.last.call
  exact ⟨hafter, hupdated, hrebuilt h.result h.succeeded⟩

/-- Every file holds the rules of the last file at its location. -/
theorem holds {file : Path} (hfile : file ∈ output.files) :
    h.after.disk.locate file = .ok (Disk.destination h.after.disk.cwd file) ∧
    ∃ q, Disk.lastAt h.after.disk.cwd output.files
      (Disk.destination h.after.disk.cwd file) = some q ∧ h.Holds file (h.rulesOf q) :=
  Workshop.Rebuilt.holds h.after_spec.2.2 hfile

/-- A new pipeline that makes one pass tracks the files of the pass. -/
theorem paths_of_isPassOver {paths : List Text} (hpass : h.IsPassOver paths)
    (hnodup : paths.Nodup) : h.index.paths = paths := by
  obtain ⟨hturns, hcall⟩ := hpass
  -- No turn comes before the pass, so the pass takes its files over into an empty index.
  have hstart : h.before.1 = Workshop.new h.pipeline h.disk := by rw [before, hturns]; rfl
  have horder := (hstart ▸ h.inOrder_new).meanwhile h.last
  have hindex : (h.before.1.meanwhile h.last).pipeline.index = .empty := by
    rw [hstart]; exact h.isNew.index
  have hsucceeded := h.succeeded
  rw [← before, Workshop.turn, hcall, Workshop.answer] at hsucceeded
  rw [index, after, Workshop.turn, hcall, Workshop.answer]
  cases hpass : ((h.before.1.meanwhile h.last).runPass paths).1 with
  | error e => simp [hpass, Except.map] at hsucceeded
  | ok result =>
    obtain ⟨htaken, hscanned⟩ := Workshop.runPass_eq_ok horder hpass
    have hnew : (UsageIndex.empty.takeOver ((h.before.1.meanwhile h.last).scanned paths)).paths =
        paths := by
      rw [UsageIndex.paths_takeOver (by rw [hscanned]; exact hnodup), hscanned]
      rfl
    dsimp only
    rw [htaken, hindex, hnew]

/-- The rules at the end depend on the class names of the index and the existing ones. -/
theorem rules_eq (hexisting : ∀ name, name ∈ h'.suppressedNames ↔ name ∈ h.suppressedNames) :
    h'.after.pipeline.rules =
      (h'.index.allClasses.filter (!h.suppressedNames.contains ·)).filterMap v.compile := by
  rw [Pipeline.rules, h'.after_spec.1.vocabulary]
  refine congrArg (List.filterMap v.compile) (List.filter_congr fun name _ => ?_)
  have hname := hexisting name
  rw [suppressedNames] at hname
  simp only [List.contains_eq_mem, hname]

/-- **Incremental builds are builds from scratch.** Take two runs with the same settings, in the
same working directory, and with the same existing class names. If the second is one pass over the
paths of the first, and reads each of them as the text that the first has scanned last, then all
files have the same bytes. And if both end with the same class names for each path, then all files
have the same rules up to order. -/
theorem rebuilt_as_from_scratch (hcwd : h'.after.disk.cwd = h.after.disk.cwd)
    (hexisting : ∀ name, name ∈ h'.suppressedNames ↔ name ∈ h.suppressedNames) :
    (h'.IsPassOver h.index.paths →
      (∀ path ∈ h.index.paths, h'.texts.get? path = h.texts.get? path) →
      ∀ file ∈ output.files, ∃ bytes,
        h.after.disk.content file = .ok bytes ∧ h'.after.disk.content file = .ok bytes) ∧
    ((∀ path name, name ∈ h'.index.classesFor path ↔ name ∈ h.index.classesFor path) →
      ∀ file ∈ output.files, (h'.rulesOf file).Perm (h.rulesOf file) ∧
        ∃ q ∈ output.files, h.after.disk.locate q = h.after.disk.locate file ∧
          h.Holds file (h.rulesOf q) ∧ h'.Holds file (h'.rulesOf q)) := by
  have hrules := h.rules_eq h fun _ => Iff.rfl
  have hrules' := h.rules_eq h' hexisting
  -- Both runs have written to a file what belongs to the last file at its location.
  have hsame {file : Path} (hfile : file ∈ output.files) : ∃ q ∈ output.files,
      h.after.disk.locate q = h.after.disk.locate file ∧
        h.Holds file (h.rulesOf q) ∧ h'.Holds file (h'.rulesOf q) := by
    obtain ⟨hlocate, q, hlast, hholds⟩ := h.holds hfile
    obtain ⟨-, q', hlast', hholds'⟩ := h'.holds hfile
    rw [hcwd, hlast, Option.some.injEq] at hlast'
    obtain ⟨hq, hdestination⟩ := Disk.lastAt_eq_some hlast
    refine ⟨q, hq, ?_, hholds, hlast' ▸ hholds'⟩
    rw [(h.holds hq).1, hlocate, hdestination]
  refine ⟨fun hpass htexts file hfile => ?_, fun hclasses file hfile => ⟨?_, hsame hfile⟩⟩
  · -- Both indexes hold the class names of the same texts in the same order of paths.
    have hvalues : h'.index.files.values = h.index.files.values := by
      rw [h.after_spec.2.1.values_eq, h'.after_spec.2.1.values_eq,
        h'.paths_of_isPassOver hpass h.index.files.nodup_keys]
      exact List.map_congr_left fun path hpath => by rw [htexts path hpath]
    have hall : h'.index.allClasses = h.index.allClasses := by
      rw [UsageIndex.allClasses, UsageIndex.allClasses, hvalues]
    obtain ⟨q, -, -, ⟨bytes, hbytes, hcontent⟩, ⟨bytes', hbytes', hcontent'⟩⟩ := hsame hfile
    rw [rulesOf, hrules', hall, ← hrules, ← rulesOf, hbytes, Except.ok.injEq] at hbytes'
    exact ⟨bytes, hcontent, hbytes' ▸ hcontent'⟩
  · rw [rulesOf, rulesOf, hrules, hrules']
    exact (((UsageIndex.allClasses_perm hclasses).filter _).filterMap _).filter _

/-! ## Runs over a small site -/

/-- One rule, for margins. -/
def marginVocabulary : Vocabulary := ⟨.ofRules [Config.scalarRule "m" ["margin"]], .empty, "px"⟩

/-- One stylesheet for all rules. -/
def siteOutput : OutputSettings where
  dir := Path.ofText "/site"
  fileName := "site.css"
  minify := false
  banner := ""
  footer := ""
  namespaces := .empty

/-- A directory with two pages. -/
def siteDisk : Disk :=
  let page (source : String) : Entry := .file (source.toList.map fun c => c.toNat.toUInt8) 0
  { Disk.new ["site"] with
    entries := .ofList [(.ofList ["site"], .folder),
      (.ofList ["site", "page.html"], page "class=\"m-4\""),
      (.ofList ["site", "side.html"], page "class=\"m-8 m-4\"")] }

/-- Two files can be read, and then no directory can be made. -/
def fullDisk (d : Disk) : Disk := { d with outages := [none, none, some (.fault .os "disk full")] }

/-- The turns of a new pipeline for the pages. -/
def siteRun (turns : List Workshop.Turn) (last : Workshop.Turn) (result : RebuildResult)
    (succeeded : (((Workshop.new (.new marginVocabulary siteOutput [] true 8) siteDisk).run .empty
      turns).1.turn last).1 = .ok (some result)) : History marginVocabulary siteOutput true where
  pipeline := .new marginVocabulary siteOutput [] true 8
  isNew := ⟨rfl, rfl, rfl, rfl⟩
  disk := siteDisk
  turns := turns
  last := last
  result := result
  succeeded := succeeded

/-- A pass that cannot write is followed by a rebuild. -/
def mended : History marginVocabulary siteOutput true :=
  siteRun [⟨fullDisk, .runPass ["page.html", "side.html"]⟩]
    ⟨fun d => { d with outages := [] }, .rebuild⟩
    ⟨2, 2, 0, [Path.ofText "/site/site.css"], []⟩ (by decide +kernel)

/-- One pass over the pages. -/
def onePass : History marginVocabulary siteOutput true :=
  siteRun [] ⟨id, .runPass ["page.html", "side.html"]⟩
    ⟨2, 2, 0, [Path.ofText "/site/site.css"], []⟩ (by decide +kernel)

/-- One pass over the pages in another order. -/
def otherOrder : History marginVocabulary siteOutput true :=
  siteRun [] ⟨id, .runPass ["side.html", "page.html"]⟩
    ⟨2, 2, 0, [Path.ofText "/site/site.css"], []⟩ (by decide +kernel)

/-- The mended run has the bytes of one pass, and the rules of a pass in another order. -/
theorem mended_from_scratch :
    (∀ file ∈ siteOutput.files, ∃ bytes,
      mended.after.disk.content file = .ok bytes ∧ onePass.after.disk.content file = .ok bytes) ∧
    ∀ file ∈ siteOutput.files, (otherOrder.rulesOf file).Perm (mended.rulesOf file) ∧
      ∃ q ∈ siteOutput.files, mended.after.disk.locate q = mended.after.disk.locate file ∧
        mended.Holds file (mended.rulesOf q) ∧ otherOrder.Holds file (otherOrder.rulesOf q) := by
  have hpaths : mended.index.paths = [Text.ofString "page.html", Text.ofString "side.html"] := by
    decide +kernel
  have hnames : mended.suppressedNames = [] := by decide +kernel
  have hnames' : onePass.suppressedNames = [] := by decide +kernel
  have hnames'' : otherOrder.suppressedNames = [] := by decide +kernel
  have htexts : ∀ path ∈ mended.index.paths, onePass.texts.get? path = mended.texts.get? path := by
    rw [hpaths]
    decide +kernel
  have hclasses : ∀ path name, name ∈ otherOrder.index.classesFor path ↔
      name ∈ mended.index.classesFor path := by
    have hperm : otherOrder.index.files.entries.Perm mended.index.files.entries := by decide +kernel
    intro path name
    rw [UsageIndex.classesFor, UsageIndex.classesFor, OrderedMap.get?_eq_of_perm hperm]
  exact ⟨(rebuilt_as_from_scratch mended onePass (by decide +kernel) (by simp [hnames, hnames'])).1
      ⟨rfl, by rw [hpaths]; rfl⟩ htexts,
    (rebuilt_as_from_scratch mended otherOrder (by decide +kernel) (by simp [hnames, hnames''])).2
      hclasses⟩

end History

end UtilityCss
