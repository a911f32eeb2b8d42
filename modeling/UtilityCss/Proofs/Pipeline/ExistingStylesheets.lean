import Mathlib.Data.List.Perm.Basic
import UtilityCss.Proofs.Pipeline.Rebuild
import UtilityCss.Proofs.Stylesheet.Spelling
/-!
# What existing stylesheets can do to a build

The existing stylesheets are read one after the other when their class names are first needed. A
stylesheet that the operating system does not give out is reported and left out, and so is one that
is malformed. All others contribute their class names, which are then known for good.

Three things are not contained. They end the reading, nothing is known afterwards, and the next
rebuild fails in the same way: a path that the operating system is not even asked for, blocks that
are nested too deeply, and a class name with an escape beyond the last code point.
-/

namespace UtilityCss

namespace ExistingClasses

open Stylesheet

variable {x : ExistingClasses} {b : Workbench} {p : Path} {ps : List Path}
  {answer : Except DiskError Text}

/-! ## What a stylesheet contributes -/

/-- The class names that a stylesheet contributes once its file was asked for, `none` if it is left
out. -/
def contribution : Except DiskError Text → Except Failure (Option (List Text))
  | .error e => if e.isSystem then .ok none else .error (.disk e)
  | .ok source =>
    match Stylesheet.read source with
    | .error .nestedTooDeep => .error .deepBlocks
    | .error (.malformed _) => .ok none
    | .ok blocks =>
      match classNames blocks with
      | .error e => .error (.selector e)
      | .ok names => .ok (some names)

/-- What is reported about a stylesheet that does not end the reading. -/
def remark (p : Path) : Except DiskError Text → Option LogLine
  | .error e =>
    if e.isSystem then
      some ⟨.warning, "Cannot read existing stylesheet " ++ p.text ++ ": " ++ e.message⟩
    else none
  | .ok source =>
    match Stylesheet.read source with
    | .error .nestedTooDeep => none
    | .error (.malformed e) =>
      some ⟨.warning, "Cannot parse existing stylesheet " ++ p.text ++ ": " ++ e.message⟩
    | .ok blocks =>
      match classNames blocks with
      | .error _ => none
      | .ok names => some ⟨.info, s!"Loaded {names.length} existing classes from " ++ p.text⟩

/-- The workbench when a stylesheet was reported. -/
def remarked (b : Workbench) (p : Path) (answer : Except DiskError Text) : Workbench :=
  match remark p answer with
  | some line => b.record (.line line)
  | none => b

/-- The answers of the disk to the requests for stylesheets, one after the other. -/
def answers (b : Workbench) : List Path → List (Except DiskError Text)
  | [] => []
  | p :: ps =>
    let (answer, b) := b.onDisk (·.readText p)
    answer :: answers (remarked b p answer) ps

/-- The first stylesheet either ends the reading, or it is reported and the others are read. -/
theorem readAll_cons (b : Workbench) (p : Path) (ps : List Path) :
    (readAll b (p :: ps)).1 =
      match contribution (b.onDisk (·.readText p)).1 with
      | .error e => .error e
      | .ok names =>
        (readAll (remarked (b.onDisk (·.readText p)).2 p (b.onDisk (·.readText p)).1) ps).1.map
          (names.getD [] ++ ·) := by
  have hskip (found : Except Failure (List Text)) : found.map ([] ++ ·) = found := by
    cases found <;> rfl
  rw [readAll]
  -- Errors of the operating system and malformed texts are remarked on; all else ends the reading.
  cases hread : b.onDisk (·.readText p) with
  | mk answer b₁ =>
    cases answer with
    | error e =>
      by_cases hsystem : e.isSystem = true
      · simp only [contribution, remarked, remark, hsystem, if_true, Option.getD_none, hskip]
      · simp only [contribution, hsystem, Bool.false_eq_true, if_false]
    | ok source =>
      simp only [contribution, remarked, remark]
      cases hparse : Stylesheet.read source with
      | error e =>
        cases e with
        | malformed e => simp only [Option.getD_none, hskip]
        | nestedTooDeep => rfl
      | ok blocks =>
        dsimp only
        cases hnames : classNames blocks with
        | error e => rfl
        | ok names => rfl

/-- The class names of all stylesheets are known if every stylesheet contributes some or is left
out. -/
theorem readAll_eq (b : Workbench) (ps : List Path) :
    (readAll b ps).1 =
      ((answers b ps).mapM contribution).map fun found => (found.map (·.getD [])).flatten := by
  induction ps generalizing b with
  | nil => rfl
  | cons p ps ih =>
    rw [readAll_cons, answers, List.mapM_cons, ih]
    cases contribution (b.onDisk (·.readText p)).1 with
    | error e => rfl
    | ok names =>
      dsimp only
      generalize remarked (b.onDisk (·.readText p)).2 p (b.onDisk (·.readText p)).1 = b'
      cases (answers b' ps).mapM contribution <;> rfl

/-! ## Harmless stylesheets -/

/-- What the disk answers for a stylesheet does not end the reading. If it is an error, then the
operating system reports it; if it is a text that can be parsed, then its blocks are not nested too
deeply, and its class names can be decoded. -/
structure IsHarmless (answer : Except DiskError Text) : Prop where
  error : ∀ e, answer = .error e → e.isSystem = true
  blocks : ∀ source blocks, answer = .ok source → parse source = .ok blocks →
    depthOf blocks ≤ maxDepth ∧ IsDecodable blocks

theorem isHarmless_iff : IsHarmless answer ↔ ∃ names, contribution answer = .ok names := by
  cases answer with
  | error e =>
    by_cases hsystem : e.isSystem = true
    · refine iff_of_true ⟨?_, nofun⟩ ⟨none, by simp [contribution, hsystem]⟩
      rintro _ ⟨⟩
      exact hsystem
    · refine iff_of_false (fun h => hsystem (h.error e rfl)) ?_
      simp [contribution, hsystem]
  | ok source =>
    cases hparse : parse source with
    | error e =>
      refine iff_of_true ⟨nofun, ?_⟩ ⟨none, by simp [contribution, Stylesheet.read, hparse]⟩
      rintro _ blocks ⟨⟩ hblocks
      simp [hparse] at hblocks
    | ok blocks =>
      have hharmless : IsHarmless (.ok source) ↔
          depthOf blocks ≤ maxDepth ∧ IsDecodable blocks := by
        refine ⟨fun h => h.blocks source blocks rfl hparse, fun h => ⟨nofun, ?_⟩⟩
        rintro _ blocks' ⟨⟩ hblocks'
        rwa [← Except.ok.inj (hparse.symm.trans hblocks')]
      rw [hharmless, ← exists_classNames_iff]
      by_cases hdepth : depthOf blocks ≤ maxDepth
      · cases hnames : classNames blocks <;>
          simp [contribution, Stylesheet.read, hparse, hdepth, hnames]
      · simp [contribution, Stylesheet.read, hparse, hdepth]

/-- A stylesheet contributes its class names if it can be read and parsed. -/
theorem mem_contribution {names : Option (List Text)} (h : contribution answer = .ok names)
    {name : Text} : name ∈ names.getD [] ↔ ∃ source blocks found, answer = .ok source ∧
      Stylesheet.read source = .ok blocks ∧ classNames blocks = .ok found ∧ name ∈ found := by
  cases answer with
  | error e =>
    obtain rfl : names = none := by
      cases hsystem : e.isSystem with
      | true => simpa [contribution, hsystem] using h.symm
      | false => simp [contribution, hsystem] at h
    simp
  | ok source =>
    unfold contribution at h
    dsimp only at h
    cases hread : Stylesheet.read source with
    | error e =>
      rw [hread] at h
      cases e with
      | malformed e => simp [← Except.ok.inj h, hread]
      | nestedTooDeep => contradiction
    | ok blocks =>
      rw [hread] at h
      dsimp only at h
      cases hnames : classNames blocks with
      | error e => simp [hnames] at h
      | ok found =>
        rw [hnames] at h
        simp [← Except.ok.inj h, hread, hnames]

/-! ## Loading -/

/-- Class names that are known are given at once, whatever has become of the files. -/
theorem load_of_loaded {names : List Text} (h : x.loaded = some names) (b : Workbench) :
    x.load b = (.ok names, x, b) := by
  rw [load, h]

/-- Class names that are not known are read. If that fails, they stay unknown. -/
theorem load_of_not_loaded (h : x.loaded = none) (b : Workbench) :
    (x.load b).1 = (readAll b x.paths).1.map List.eraseDups ∧
      (∀ names, (x.load b).1 = .ok names → (x.load b).2.1 = { x with loaded := some names }) ∧
      ∀ e, (x.load b).1 = .error e → (x.load b).2.1 = x := by
  rw [load, h]
  cases hread : readAll b x.paths with
  | mk found b₁ =>
    cases found with
    | error e => exact ⟨rfl, nofun, fun _ _ => rfl⟩
    | ok names => exact ⟨rfl, fun names' hnames => by rw [← Except.ok.inj hnames], nofun⟩

/-- Class names become known exactly if all stylesheets are harmless. -/
theorem exists_load_iff (h : x.loaded = none) :
    (∃ names, (x.load b).1 = .ok names) ↔ ∀ answer ∈ answers b x.paths, IsHarmless answer := by
  have hmap : (∃ names, (x.load b).1 = .ok names) ↔
      ∃ found, (answers b x.paths).mapM contribution = .ok found := by
    rw [(load_of_not_loaded h b).1, readAll_eq]
    cases (answers b x.paths).mapM contribution <;> simp [Except.map]
  rw [hmap, exists_mapM_eq_ok]
  exact forall₂_congr fun answer _ => isHarmless_iff.symm

/-- The known class names are those of the stylesheets that can be read and parsed. -/
theorem mem_load (h : x.loaded = none) {names : List Text} (hnames : (x.load b).1 = .ok names)
    {name : Text} : name ∈ names ↔ ∃ source blocks found, .ok source ∈ answers b x.paths ∧
      Stylesheet.read source = .ok blocks ∧ classNames blocks = .ok found ∧ name ∈ found := by
  rw [(load_of_not_loaded h b).1, readAll_eq] at hnames
  cases hfound : (answers b x.paths).mapM contribution with
  | error e => simp [hfound, Except.map] at hnames
  | ok found =>
    rw [hfound] at hnames
    obtain rfl := Except.ok.inj hnames
    simp only [List.mem_eraseDups, List.mem_flatten, List.mem_map, mem_of_mapM_eq_ok hfound]
    constructor
    · rintro ⟨_, ⟨names, ⟨answer, hanswer, hcontribution⟩, rfl⟩, hname⟩
      obtain ⟨source, blocks, found, rfl, hfile⟩ := (mem_contribution hcontribution).1 hname
      exact ⟨source, blocks, found, hanswer, hfile⟩
    · rintro ⟨source, blocks, found, hanswer, hread, hfound, hname⟩
      have hcontribution : contribution (.ok source) = .ok (some found) := by
        simp [contribution, hread, hfound]
      exact ⟨found, ⟨some found, ⟨_, hanswer, hcontribution⟩, rfl⟩, hname⟩

end ExistingClasses

/-! ## Rebuilding -/

namespace Workshop

open ExistingClasses

variable {w : Workshop}

/-- Writing stylesheets has nothing to do with the memory of the compiler. -/
theorem publish_congr (w : Workshop) (c : Compiler) (rules : List CssRule) :
    ({ w with pipeline := { w.pipeline with compiler := c } }.publish rules).1 =
      (w.publish rules).1 := by
  unfold publish onDisk
  dsimp only
  cases w.toWorkbench.onDisk (·.writeAll (w.pipeline.output.render rules)) with
  | mk answer b => cases answer <;> rfl

/-- A rebuild fails because the class names to be left out cannot be known, or because the rules
cannot be written. -/
theorem rebuild_eq_error {e : Failure} (h : w.rebuild.1 = .error e) :
    (w.pipeline.suppress = true ∧ (w.pipeline.existing.load w.toWorkbench).1 = .error e) ∨
      ∃ rules e', e = .disk e' ∧ (w.suppressed.2.publish rules).1 = .error e' := by
  -- A rebuild finds out what to leave out, compiles, which cannot fail, and publishes.
  unfold rebuild at h
  dsimp only at h
  cases hsuppressed : w.suppressed with
  | mk known w₁ =>
    rw [hsuppressed] at h
    cases known with
    | error e' =>
      left
      obtain rfl := Except.error.inj h
      unfold suppressed at hsuppressed
      split at hsuppressed
      · next hsuppress => exact ⟨hsuppress, congrArg Prod.fst hsuppressed⟩
      · simp at hsuppressed
    | ok names =>
      right
      dsimp only at h ⊢
      generalize w₁.pipeline.compiler.compileMany _ = compiled at h
      cases hpublish : Workshop.publish _ compiled.1 with
      | mk written w₂ =>
        rw [hpublish] at h
        cases written with
        | error e' =>
          refine ⟨compiled.1, e', (Except.error.inj h).symm, ?_⟩
          rw [← publish_congr w₁ compiled.2, hpublish]
        | ok report => contradiction

/-- If the class names to be left out cannot be known, a rebuild fails for the same reason. -/
theorem rebuild_of_load_error {e : Failure} (hsuppress : w.pipeline.suppress = true)
    (h : (w.pipeline.existing.load w.toWorkbench).1 = .error e) : w.rebuild.1 = .error e := by
  have hsuppressed : w.suppressed.1 = .error e := by
    rw [suppressed, if_pos hsuppress]
    exact h
  unfold rebuild
  dsimp only
  split
  · next heq =>
    rw [heq] at hsuppressed
    exact congrArg Except.error (Except.error.inj hsuppressed)
  · next heq =>
    rw [heq] at hsuppressed
    contradiction

/-- If a rebuild fails, then because some rules cannot be written. -/
def FailsOnlyByWriting (w : Workshop) : Prop :=
  ∀ e, w.rebuild.1 = .error e →
    ∃ rules e', e = .disk e' ∧ (w.suppressed.2.publish rules).1 = .error e'

theorem failsOnlyByWriting_of_load {names : List Text}
    (h : (w.pipeline.existing.load w.toWorkbench).1 = .ok names) : w.FailsOnlyByWriting := by
  intro e he
  rcases rebuild_eq_error he with ⟨-, hload⟩ | hwriting
  · rw [hload] at h
    contradiction
  · exact hwriting

theorem failsOnlyByWriting_of_not_suppress (h : w.pipeline.suppress = false) :
    w.FailsOnlyByWriting := by
  intro e he
  rcases rebuild_eq_error he with ⟨hsuppress, -⟩ | hwriting
  · simp [h] at hsuppress
  · exact hwriting

/-- **Harmless stylesheets do not block a build.** If every stylesheet is harmless, then the class
names of those that can be read and parsed become known, they stay known whatever becomes of the
files, and no rebuild fails on their account. Otherwise they do not become known, and a rebuild that
needs them fails, again and again; one that does not need them is as good as ever. -/
theorem existing_stylesheets_contained (w : Workshop) (hnew : w.pipeline.existing.loaded = none) :
    ((∀ answer ∈ answers w.toWorkbench w.pipeline.existing.paths, IsHarmless answer) →
      ∃ names x, w.pipeline.existing.load w.toWorkbench =
          (.ok names, x, (w.pipeline.existing.load w.toWorkbench).2.2) ∧
        (∀ name, name ∈ names ↔ ∃ source blocks found,
          .ok source ∈ answers w.toWorkbench w.pipeline.existing.paths ∧
          Stylesheet.read source = .ok blocks ∧ Stylesheet.classNames blocks = .ok found ∧
            name ∈ found) ∧
        (∀ b, x.load b = (.ok names, x, b)) ∧ w.FailsOnlyByWriting ∧
        ∀ w' : Workshop, w'.pipeline.existing = x → w'.FailsOnlyByWriting) ∧
    ((∃ answer ∈ answers w.toWorkbench w.pipeline.existing.paths, ¬IsHarmless answer) →
      ∃ e, (w.pipeline.existing.load w.toWorkbench).1 = .error e ∧
        (w.pipeline.existing.load w.toWorkbench).2.1 = w.pipeline.existing ∧
        (w.pipeline.suppress = true → w.rebuild.1 = .error e) ∧
        (w.pipeline.suppress = false → w.FailsOnlyByWriting)) := by
  obtain ⟨-, hknown, hunknown⟩ := load_of_not_loaded hnew w.toWorkbench
  constructor
  · intro hharmless
    obtain ⟨names, hnames⟩ := (exists_load_iff hnew).2 hharmless
    have hloaded := hknown names hnames
    have hlater : ∀ b, (w.pipeline.existing.load w.toWorkbench).2.1.load b =
        (.ok names, (w.pipeline.existing.load w.toWorkbench).2.1, b) :=
      load_of_loaded (by rw [hloaded])
    refine ⟨names, _, ?_, fun name => mem_load hnew hnames, hlater,
      failsOnlyByWriting_of_load hnames, ?_⟩
    · rw [← hnames]
    · intro w' hw'
      have hload : (w'.pipeline.existing.load w'.toWorkbench).1 = .ok names := by rw [hw', hlater]
      exact failsOnlyByWriting_of_load hload
  · rintro ⟨answer, hanswer, hharm⟩
    cases hload : (w.pipeline.existing.load w.toWorkbench).1 with
    | ok names => exact absurd ((exists_load_iff hnew).1 ⟨names, hload⟩ answer hanswer) hharm
    | error e =>
      exact ⟨e, rfl, hunknown e hload, fun hsuppress => rebuild_of_load_error hsuppress hload,
        failsOnlyByWriting_of_not_suppress⟩

/-! ## A site with stylesheets -/

/-- A pipeline without rules for a directory with some stylesheets. -/
def sheetSite (files : List (Text × String)) (paths : List Text) : Workshop :=
  let output : OutputSettings := ⟨⟨.none, []⟩, "site.css", false, "", "", .empty⟩
  let entries := files.map fun (name, source) =>
    (Location.ofList ["site", name], Entry.file (source.toList.map fun c => c.toNat.toUInt8) 0)
  .new (.new ⟨.ofRules [], .empty, "px"⟩ output (paths.map Path.ofText) true 8)
    { Disk.new ["site"] with entries := .ofList ((.ofList ["site"], .folder) :: entries) }

/-- A stylesheet is missing, one is malformed, and one defines a class name. -/
def neglectedSite : Workshop :=
  sheetSite [("open.css", ".a \x7b"), ("good.css", ".ok \x7b\x7d")]
    ["missing.css", "open.css", "good.css"]

theorem neglectedSite_contained : neglectedSite.FailsOnlyByWriting ∧ ∃ names x,
    neglectedSite.pipeline.existing.load neglectedSite.toWorkbench =
      (.ok names, x, (neglectedSite.pipeline.existing.load neglectedSite.toWorkbench).2.2) ∧
    names = [Text.ofString "ok"] ∧ ∀ b, x.load b = (.ok names, x, b) := by
  have hload : (neglectedSite.pipeline.existing.load neglectedSite.toWorkbench).1 =
      .ok [Text.ofString "ok"] := by decide +kernel
  have hharmless :
      ∀ answer ∈ answers neglectedSite.toWorkbench neglectedSite.pipeline.existing.paths,
        IsHarmless answer := (exists_load_iff rfl).1 ⟨_, hload⟩
  obtain ⟨names, x, hnames, -, hlater, hwriting, -⟩ :=
    (existing_stylesheets_contained neglectedSite rfl).1 hharmless
  refine ⟨hwriting, names, x, hnames, ?_, hlater⟩
  rw [hnames] at hload
  exact Except.ok.inj hload

/-- **Not every stylesheet is harmless.** A class name has an escape that is one beyond the last
code point, so no class names become known, and a rebuild fails; and so it is if the path of a
stylesheet has a null character. -/
theorem wide_escape_not_contained :
    (¬∃ names, ((sheetSite [("wide.css", ".\\110000 \x7b\x7d")] ["wide.css"]).pipeline.existing.load
      (sheetSite [("wide.css", ".\\110000 \x7b\x7d")] ["wide.css"]).toWorkbench).1 = .ok names) ∧
    (sheetSite [("wide.css", ".\\110000 \x7b\x7d")] ["wide.css"]).rebuild.1 =
      .error (.selector .outOfRange) ∧
    (sheetSite [] ["a\x00b"]).rebuild.1 = .error (.disk .nullCharacter) := by
  have hload : ((sheetSite [("wide.css", ".\\110000 \x7b\x7d")] ["wide.css"]).pipeline.existing.load
      (sheetSite [("wide.css", ".\\110000 \x7b\x7d")] ["wide.css"]).toWorkbench).1 =
        .error (.selector .outOfRange) := by decide +kernel
  refine ⟨?_, by decide +kernel, by decide +kernel⟩
  rintro ⟨names, hnames⟩
  rw [hload] at hnames
  contradiction

end Workshop

end UtilityCss
