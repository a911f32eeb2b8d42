import UtilityCss.Proofs.Compiler.Declarations
import UtilityCss.Proofs.Output.Namespaces
import UtilityCss.Proofs.Pipeline.FixedPoint
/-!
# Every rule in its place

A rebuild leaves out the class names that existing stylesheets define and those that are not
recognised, and sends the rule of every other class name to the one file to which it belongs. Every
file is written whatever the rules are, within a file the rules stand in the order of the class
names, and what a rebuild tells of its work are the sizes of what it has sorted.
-/

namespace UtilityCss

/-! ## Groups that place every rule -/

namespace OutputSettings

variable {s s' : OutputSettings} {v : Vocabulary} {names left : List Text} {file : Path}
  {rules : List CssRule}

/-- The groups hold the rules of the class names `names` without those in `left`. -/
structure Places (s : OutputSettings) (v : Vocabulary) (names left : List Text)
    (groups : List (Path × List CssRule)) : Prop where
  /-- There is a group for the default file and for the file of every namespace, whatever the rules
  are. -/
  mem_files : ∀ file, file ∈ groups.map Prod.fst ↔
    file = s.defaultPath ∨ ∃ ns fileName, s.namespaces.get? ns = some fileName ∧
      file = s.dir / fileName
  nodup_files : (groups.map Prod.fst).Nodup
  /-- A recognised class name that is not left out has its rule in the group of the file to which it
  belongs. -/
  placed : ∀ name ∈ names, name ∉ left → ∀ r, v.compile name = some r →
    r.className = name ∧ ∃ file rules, s.BelongsTo name file ∧ (file, rules) ∈ groups ∧ r ∈ rules
  /-- No class name has two rules, in one group or in two. -/
  nodup_names : ((groups.flatMap Prod.snd).map CssRule.className).Nodup
  /-- There are no other rules. -/
  only : ∀ file rules, (file, rules) ∈ groups → ∀ r ∈ rules,
    r.className ∈ names ∧ r.className ∉ left ∧ v.compile r.className = some r ∧
      s.BelongsTo r.className file
  /-- The rules of a group stand in the order of the class names. -/
  ordered : ∀ file rules, (file, rules) ∈ groups → (rules.map CssRule.className).Sublist names

/-- The recognised class names of a list, in their order. -/
theorem map_className_filterMap (v : Vocabulary) (names : List Text) :
    (names.filterMap v.compile).map CssRule.className = names.filter fun name =>
      (v.compile name).isSome := by
  induction names with
  | nil => rfl
  | cons name names ih =>
    cases hr : v.compile name with
    | none => simp [hr, ih]
    | some r => simp [hr, ih, (Vocabulary.of_compile_eq_some hr).1]

theorem mem_compiled {r : CssRule} : r ∈ (names.filter (!left.contains ·)).filterMap v.compile ↔
    r.className ∈ names ∧ r.className ∉ left ∧ v.compile r.className = some r := by
  rw [List.mem_filterMap]
  constructor
  · rintro ⟨name, hname, hr⟩
    obtain rfl := (Vocabulary.of_compile_eq_some hr).1
    obtain ⟨hmem, hkept⟩ := List.mem_filter.1 hname
    exact ⟨hmem, by simpa using hkept, hr⟩
  · rintro ⟨hmem, hkept, hr⟩
    exact ⟨r.className, List.mem_filter.2 ⟨hmem, by simpa using hkept⟩, hr⟩

/-- Sorting the rules of class names by their files places every rule. -/
theorem group_places (s : OutputSettings) (v : Vocabulary) (hnames : names.Nodup)
    (left : List Text) :
    s.Places v names left (s.group ((names.filter (!left.contains ·)).filterMap v.compile)) := by
  have hkept :
      (((names.filter (!left.contains ·)).filterMap v.compile).map CssRule.className).Sublist
        names := by
    rw [map_className_filterMap]
    exact List.filter_sublist.trans List.filter_sublist
  refine ⟨fun file => ?_, ?_, fun name hname hleft r hr => ?_, ?_, fun file rules hgroup r hr => ?_,
    fun file rules hgroup => ?_⟩
  · rw [map_fst_group, OutputSettings.mem_files]
  · rw [map_fst_group]
    exact nodup_eraseDups _
  · obtain rfl := (Vocabulary.of_compile_eq_some hr).1
    have hbelongs : s.BelongsTo r.className (s.target r.className) := belongsTo_iff.2 rfl
    refine ⟨rfl, _, _, hbelongs, Workshop.mem_group.2 ⟨hbelongs.mem_files, rfl⟩,
      List.mem_filter.2 ⟨?_, by simp⟩⟩
    exact mem_compiled.2 ⟨hname, hleft, hr⟩
  · exact ((flatMap_group_perm s _).map _).nodup_iff.2 (hnames.sublist hkept)
  · obtain ⟨-, rfl⟩ := Workshop.mem_group.1 hgroup
    obtain ⟨hrule, htarget⟩ := List.mem_filter.1 hr
    obtain ⟨hmem, hleft, hcompile⟩ := mem_compiled.1 hrule
    exact ⟨hmem, hleft, hcompile, belongsTo_iff.2 (by simpa using htarget)⟩
  · obtain ⟨-, rfl⟩ := Workshop.mem_group.1 hgroup
    exact (List.filter_sublist.map _).trans hkept

end OutputSettings

/-! ## What a rebuild writes -/

namespace Workshop

variable {w w' : Workshop} {left : List Text}

/-- Writes the text of every group. The numbers of class names and of those that are left out are
told with it. -/
def deliver (w : Workshop) (groups : List (Path × List CssRule)) (candidates suppressed : Nat) :
    Except Failure RebuildResult × Workshop :=
  match w.onDisk
    (·.writeAll (groups.map fun group => (group.1, w.pipeline.output.renderText group.2))) with
  | (.error e, w) => (.error (.disk e), w)
  | (.ok report, w) =>
    (.ok {
      candidates := candidates
      ruleCount := (groups.flatMap Prod.snd).length
      suppressed := suppressed
      written := report.written
      unchanged := report.unchanged }, w.report groups report)

/-- Asking for the class names that are left out changes nothing in the pipeline but what is known
of them. -/
theorem pipeline_suppressed (h : w.suppressed = (.ok left, w')) :
    w'.pipeline = { w.pipeline with existing := w'.pipeline.existing } := by
  unfold suppressed at h
  split at h
  · obtain ⟨-, rfl⟩ := Prod.mk.inj h
    rfl
  · obtain ⟨-, rfl⟩ := Prod.mk.inj h
    rfl

/-- When the class names that are left out are known, a rebuild compiles the others and writes their
rules. -/
theorem rebuild_eq_deliver (hfaithful : w.pipeline.compiler.Faithful)
    (hknown : w.suppressed = (.ok left, w')) : ∃ compiler : Compiler, w.rebuild =
      { w' with pipeline := { w'.pipeline with compiler := compiler } : Workshop }.deliver
        (w.pipeline.output.group ((w.pipeline.index.allClasses.filter (!left.contains ·)).filterMap
          w.pipeline.compiler.vocabulary.compile))
        w.pipeline.index.allClasses.length
          (w.pipeline.index.allClasses.filter (left.contains ·)).length := by
  have hpipeline := pipeline_suppressed hknown
  have houtput : w'.pipeline.output = w.pipeline.output := by rw [hpipeline]
  have hcompiler : w'.pipeline.compiler = w.pipeline.compiler := by rw [hpipeline]
  generalize hkept : w.pipeline.index.allClasses.filter (!left.contains ·) = kept
  have hrules := (hfaithful.compileMany kept).1
  -- What is left out and what is kept make up the class names, and the groups make up the rules.
  have hleft : w.pipeline.index.allClasses.length - kept.length =
      (w.pipeline.index.allClasses.filter (left.contains ·)).length := by
    have hparts := (List.filter_append_perm (left.contains ·) w.pipeline.index.allClasses).length_eq
    rw [List.length_append, hkept] at hparts
    omega
  have hcount :
      ((w.pipeline.output.group (w.pipeline.compiler.compileMany kept).1).flatMap Prod.snd).length =
        (w.pipeline.compiler.compileMany kept).1.length :=
    (OutputSettings.flatMap_group_perm _ _).length_eq
  refine ⟨(w.pipeline.compiler.compileMany kept).2, ?_⟩
  unfold rebuild publish deliver
  rw [hknown]
  dsimp only
  rw [hcompiler, hkept, ← hrules, hcount, hleft, OutputSettings.render, houtput]
  dsimp only
  cases hwrite : onDisk _ _ with
  | mk answer w₁ =>
    have hkeeps : w₁.pipeline.output = w.pipeline.output :=
      (congrArg (fun written => written.2.pipeline.output) hwrite).symm
    cases answer with
    | error e => rfl
    | ok report =>
      dsimp only
      rw [hkeeps]

/-- **A rebuild places every rule exactly once.** It writes groups that place the rules of the class
names of the index without those that are left out, and it tells the sizes of these. To which file a
class name belongs depends neither on the order in which the namespaces were defined nor on the
dashes in front of the name. -/
theorem rebuild_places (hfaithful : w.pipeline.compiler.Faithful)
    (hknown : w.suppressed = (.ok left, w')) :
    (∃ (groups : List (Path × List CssRule)) (compiler : Compiler),
      w.pipeline.output.Places w.pipeline.compiler.vocabulary
        w.pipeline.index.allClasses left groups ∧
      w.rebuild =
        { w' with pipeline := { w'.pipeline with compiler := compiler } : Workshop }.deliver groups
          w.pipeline.index.allClasses.length
          (w.pipeline.index.allClasses.filter (left.contains ·)).length) ∧
    (∀ s : OutputSettings, s.dir = w.pipeline.output.dir → s.fileName = w.pipeline.output.fileName →
      s.namespaces.entries.Perm w.pipeline.output.namespaces.entries →
      ∀ name file, s.BelongsTo name file ↔ w.pipeline.output.BelongsTo name file) ∧
    ∀ dashes : Text, (∀ c ∈ dashes.toList, c = '-') →
      ∀ name file, w.pipeline.output.BelongsTo (dashes ++ name) file ↔
        w.pipeline.output.BelongsTo name file := by
  refine ⟨?_, fun s hdir hfile hnamespaces name file => ?_, fun dashes hdashes name file => ?_⟩
  · obtain ⟨compiler, hrebuild⟩ := rebuild_eq_deliver hfaithful hknown
    exact ⟨_, compiler, OutputSettings.group_places _ _ (nodup_eraseDups _) left, hrebuild⟩
  · rw [OutputSettings.belongsTo_iff, OutputSettings.belongsTo_iff,
      OutputSettings.target_congr hdir hfile hnamespaces]
  · rw [OutputSettings.belongsTo_iff, OutputSettings.belongsTo_iff,
      OutputSettings.target_dashes _ hdashes]

/-- A namespace that begins another one, a namespace with the default file, and four class names of
which one is left out and one is not recognised. -/
def crowdedSite : Workshop :=
  .new { Pipeline.new History.marginVocabulary { History.siteOutput with
        namespaces := .ofList [("m", "margins.css"), ("m-8", "large.css"), ("p", "site.css")] }
      [] true 8 with
    index := ⟨.ofList [("page.html", ["-m-4", "p-8", "m-2"]), ("side.html", ["m-8", "-m-4"])]⟩
    existing := ⟨[], some ["m-2"]⟩ } History.siteDisk

/-- The rule with the dash is in the group of the shorter namespace, and four class names have been
sorted. -/
theorem crowdedSite_places :
    crowdedSite.pipeline.compiler.Faithful ∧
    crowdedSite.suppressed = (.ok [Text.ofString "m-2"], crowdedSite) ∧
    ∃ (groups : List (Path × List CssRule)) (compiler : Compiler),
      (∃ rules, (Path.ofText "/site/margins.css", rules) ∈ groups ∧
        ⟨"-m-4", ".-m-4", [⟨"margin", "-4px"⟩]⟩ ∈ rules) ∧
      crowdedSite.rebuild = { crowdedSite with
        pipeline := { crowdedSite.pipeline with compiler := compiler } : Workshop }.deliver
          groups 4 1 := by
  have hfaithful : crowdedSite.pipeline.compiler.Faithful := Compiler.faithful_new _
  have hknown : crowdedSite.suppressed = (.ok [Text.ofString "m-2"], crowdedSite) := rfl
  obtain ⟨⟨groups, compiler, hplaces, hrebuild⟩, -, -⟩ := rebuild_places hfaithful hknown
  refine ⟨hfaithful, hknown, groups, compiler, ?_, hrebuild⟩
  obtain ⟨-, file, rules, hbelongs, hgroup, hrule⟩ :=
    hplaces.placed "-m-4" (by decide +kernel) (by decide)
    ⟨"-m-4", ".-m-4", [⟨"margin", "-4px"⟩]⟩ (by decide +kernel)
  have hlongest : crowdedSite.pipeline.output.IsLongestNamespace "-m-4" "m" :=
    OutputSettings.isLongestNamespace_iff.2 ⟨by decide, by decide, by decide⟩
  have hnamed : crowdedSite.pipeline.output.namespaces.get? "m" =
      some (Text.ofString "margins.css") := by decide
  have hmargins : crowdedSite.pipeline.output.BelongsTo "-m-4" (Path.ofText "/site/margins.css") :=
    .namespaced hlongest hnamed
  have hfile :=
    (OutputSettings.belongsTo_iff.1 hbelongs).symm.trans (OutputSettings.belongsTo_iff.1 hmargins)
  exact ⟨rules, hfile ▸ hgroup, hrule⟩

end Workshop

end UtilityCss
