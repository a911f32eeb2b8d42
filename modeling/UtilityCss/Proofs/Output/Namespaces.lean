import UtilityCss.Output
import UtilityCss.Proofs.LongestKey
import UtilityCss.Proofs.Repetition
/-!
# Namespaces

A class name belongs to the longest namespace that it begins with once the dashes in front of it are
taken off, and its rule to the file of that namespace, or to the default file if there is no such
namespace. The order in which the namespaces were defined does not matter, and neither do the
dashes. Namespaces may begin one another, share a file, or name the default file; whatever the rules
are, every file has one group, and the groups together are the rules, each of them once.
-/

namespace UtilityCss

/-- A list is made up of the parts that a function tells apart by its values. -/
theorem flatMap_filter_perm {α β : Type} [BEq β] [LawfulBEq β] (f : α → β) {bs : List β}
    (hbs : bs.Nodup) (as : List α) (h : ∀ a ∈ as, f a ∈ bs) :
    (bs.flatMap fun b => as.filter (f · == b)).Perm as := by
  -- By induction on the values: the first part is split off, and the other parts are those of what
  -- is left.
  induction bs generalizing as with
  | nil =>
    obtain rfl : as = [] := List.eq_nil_iff_forall_not_mem.2 fun a ha => by simpa using h a ha
    rfl
  | cons b bs ih =>
    obtain ⟨hb, hbs⟩ := List.nodup_cons.1 hbs
    have hothers : ∀ b' ∈ bs, as.filter (f · == b') =
        (as.filter fun a => !(f a == b)).filter (f · == b') := by
      intro b' hb'
      rw [List.filter_filter]
      refine List.filter_congr fun a _ => ?_
      by_cases hab : f a = b'
      · have hne : f a ≠ b := fun heq => hb (heq ▸ hab ▸ hb')
        simp [hab, hab ▸ hne]
      · simp [hab]
    have hrest := ih hbs (as.filter fun a => !(f a == b)) fun a ha => by
      obtain ⟨hmem, hne⟩ := List.mem_filter.1 ha
      exact (List.mem_cons.1 (h a hmem)).resolve_left (by simpa using hne)
    rw [List.flatMap_cons, List.flatMap_def, List.map_congr_left hothers, ← List.flatMap_def]
    exact (hrest.append_left _).trans (List.filter_append_perm _ _)

namespace OutputSettings

variable {s s' : OutputSettings} {name ns fileName : Text} {file : Path} {rules : List CssRule}

/-! ## The file of a class name -/

/-- A class name without the dashes in front of it. -/
def bareName (name : Text) : Text := .ofList (name.toList.dropWhile (· == '-'))

/-- A class name begins with a namespace, its leading dashes apart, and with no longer one. -/
structure IsLongestNamespace (s : OutputSettings) (name ns : Text) : Prop where
  mem : ns ∈ s.namespaces.keys
  begins : ∃ rest, bareName name = ns ++ rest
  longest : ∀ ns' ∈ s.namespaces.keys, ∀ rest, bareName name = ns' ++ rest → ns'.length ≤ ns.length

/-- The file to which the rule for a class name belongs. -/
inductive BelongsTo (s : OutputSettings) (name : Text) : Path → Prop
  | namespaced {ns fileName : Text} (longest : s.IsLongestNamespace name ns)
    (named : s.namespaces.get? ns = some fileName) : BelongsTo s name (s.dir / fileName)
  | default (free : ∀ ns ∈ s.namespaces.keys, ∀ rest, bareName name ≠ ns ++ rest) :
    BelongsTo s name s.defaultPath

theorem isLongestNamespace_iff : s.IsLongestNamespace name ns ↔
    s.namespaces.IsLongest (Text.startsWith (bareName name)) ns := by
  constructor
  · rintro ⟨hmem, hbegins, hlongest⟩
    refine ⟨hmem, Text.startsWith_iff.2 hbegins, fun ns' hns' hbegins' => ?_⟩
    obtain ⟨rest, hrest⟩ := Text.startsWith_iff.1 hbegins'
    exact hlongest ns' hns' rest hrest
  · rintro ⟨hmem, hbegins, hlongest⟩
    exact ⟨hmem, Text.startsWith_iff.1 hbegins, fun ns' hns' rest hrest =>
      hlongest ns' hns' (Text.startsWith_iff.2 ⟨rest, hrest⟩)⟩

/-- Two namespaces of one length do not begin the same class name. -/
theorem fitApart (name : Text) : OrderedMap.FitApart (Text.startsWith (bareName name)) := by
  intro ns ns' hns hns' hlength
  obtain ⟨rest, hrest⟩ := Text.startsWith_iff.1 hns
  obtain ⟨rest', hrest'⟩ := Text.startsWith_iff.1 hns'
  exact Text.eq_of_append_eq (hrest.symm.trans hrest') hlength

theorem target_eq (s : OutputSettings) (name : Text) : s.target name =
    match s.namespaces.longest? (Text.startsWith (bareName name)) with
    | some n => s.dir / n.2
    | none => s.defaultPath := rfl

/-- **A rule is written to the file to which its class name belongs.** -/
theorem belongsTo_iff : s.BelongsTo name file ↔ s.target name = file := by
  rw [target_eq]
  constructor
  · rintro (⟨hlongest, hnamed⟩ | hfree)
    · rw [(OrderedMap.longest?_eq_some_iff (fitApart name)).2
        ⟨isLongestNamespace_iff.1 hlongest, hnamed⟩]
    · rw [OrderedMap.longest?_eq_none_iff.2 fun ns hns => ?_]
      refine Bool.eq_false_iff.2 fun hbegins => ?_
      obtain ⟨rest, hrest⟩ := Text.startsWith_iff.1 hbegins
      exact hfree ns hns rest hrest
  · rintro rfl
    cases hfound : s.namespaces.longest? (Text.startsWith (bareName name)) with
    | none =>
      refine .default fun ns hns rest hrest => ?_
      have hnot := OrderedMap.longest?_eq_none_iff.1 hfound ns hns
      rw [Text.startsWith_iff.2 ⟨rest, hrest⟩] at hnot
      contradiction
    | some n =>
      obtain ⟨hlongest, hnamed⟩ :=
        (OrderedMap.longest?_eq_some_iff (fitApart name) (k := n.1) (a := n.2)).1 hfound
      exact .namespaced (isLongestNamespace_iff.2 hlongest) hnamed

/-- The order in which the namespaces were defined does not matter. -/
theorem target_congr (hdir : s'.dir = s.dir) (hfile : s'.fileName = s.fileName)
    (hnamespaces : s'.namespaces.entries.Perm s.namespaces.entries) : s'.target = s.target := by
  funext name
  rw [target_eq, target_eq, hdir, defaultPath, hdir, hfile,
    OrderedMap.longest?_congr (fitApart name) (OrderedMap.get?_eq_of_perm hnamespaces)]
  rfl

/-- Dashes in front of a class name do not matter. -/
theorem target_dashes (s : OutputSettings) {dashes : Text} (h : ∀ c ∈ dashes.toList, c = '-')
    (name : Text) : s.target (dashes ++ name) = s.target name := by
  have hbare : bareName (dashes ++ name) = bareName name := by
    rw [bareName, Text.toList_append, List.dropWhile_append_of_pos fun c hc => by simp [h c hc]]
    rfl
  rw [target_eq, target_eq, hbare]

/-! ## The groups of rules -/

theorem mem_files : file ∈ s.files ↔
    file = s.defaultPath ∨ ∃ ns fileName, s.namespaces.get? ns = some fileName ∧
      file = s.dir / fileName := by
  simp only [files, List.mem_eraseDups, List.mem_cons, List.mem_map, longestFirst,
    List.mem_mergeSort, OrderedMap.get?_eq_some_iff, Prod.exists, eq_comm (a := file)]

theorem BelongsTo.mem_files (h : s.BelongsTo name file) : file ∈ s.files := by
  rw [OutputSettings.mem_files]
  cases h with
  | namespaced _ hnamed => exact .inr ⟨_, _, hnamed, rfl⟩
  | default _ => exact .inl rfl

/-- The files of the groups are those that are written, each once. -/
theorem map_fst_group (s : OutputSettings) (rules : List CssRule) :
    (s.group rules).map Prod.fst = s.files := by
  rw [group, List.map_map]
  exact List.map_id _

/-- **The groups together are the rules**, each of them as often as it was there. -/
theorem flatMap_group_perm (s : OutputSettings) (rules : List CssRule) :
    ((s.group rules).flatMap Prod.snd).Perm rules := by
  rw [group, List.flatMap_map]
  exact flatMap_filter_perm (fun r : CssRule => s.target r.className) (nodup_eraseDups _)
    rules fun r _ =>
    (belongsTo_iff.2 rfl).mem_files

end OutputSettings

end UtilityCss
