import UtilityCss.Proofs.Repetition
import UtilityCss.Sources
/-!
# What a usage index knows

A usage index is told of scans and of removals. At any time it mirrors what it was told: it tracks
the files that were scanned since their last removal, lists them in the order of the scans that
brought them in, and knows the classes of the latest scan of each. A class is listed as long as some
tracked file has it, at its first place along the files.

What an index should know is read off the calls alone, and every call leaves the index a mirror of
the calls.
-/

namespace UtilityCss.UsageIndex

/-- What can be asked of an index. -/
inductive Call where
  | replace (path : Text) (classes : List Text)
  | remove (path : Text)

variable {u : UsageIndex} {calls : List Call} {c : Call} {p : Text}
  {classes entry : List Text} {n : Nat}

/-- The file that a call is about. -/
def Call.path : Call → Text
  | replace path _ => path
  | remove path => path

/-- One call. A removal reports whether the file was tracked. -/
def call (u : UsageIndex) : Call → Option Bool × UsageIndex
  | .replace path classes => (none, u.replace path classes)
  | .remove path => (some (u.tracks path), u.remove path)

/-- The index after some calls, of which the latest is last. -/
def after (calls : List Call) : UsageIndex := calls.foldl (fun u c => (u.call c).2) empty

theorem after_concat (calls : List Call) (c : Call) :
    after (calls ++ [c]) = ((after calls).call c).2 :=
  List.foldl_append

/-! ## What the calls say -/

/-- Some call replaces the classes of the file, such that `found` is true of the calls before it and
of its classes, and every call since then is one that `spares` the file. -/
def Replaced (calls : List Call) (p : Text) (found : List Call → List Text → Prop)
    (spares : Call → Prop) : Prop :=
  ∃ before classes since, calls = before ++ .replace p classes :: since ∧ found before classes ∧
    ∀ c ∈ since, spares c

/-- The file was replaced since its last removal. -/
def IsCurrent (calls : List Call) (p : Text) : Prop :=
  Replaced calls p (fun _ _ => True) (· ≠ .remove p)

/-- The last call about the file has replaced its classes by these. -/
def HasClasses (calls : List Call) (p : Text) (classes : List Text) : Prop :=
  Replaced calls p (fun _ classes' => classes' = classes) (·.path ≠ p)

/-- Call number `n` has brought the file in, or back: it replaced the classes of the file, which was
not current then, and since then the file was not removed. -/
def IsBroughtIn (calls : List Call) (p : Text) (n : Nat) : Prop :=
  Replaced calls p (fun before _ => before.length = n ∧ ¬IsCurrent before p) (· ≠ .remove p)

section Replaced

variable {found : List Call → List Text → Prop} {spares : Call → Prop}

theorem not_replaced_nil : ¬Replaced [] p found spares := by
  rintro ⟨before, classes, since, h, -⟩
  exact absurd h (by simp)

/-- The latest call is the one that is looked for, or it spares what was found before it. -/
theorem replaced_concat : Replaced (calls ++ [c]) p found spares ↔
    (∃ classes, c = .replace p classes ∧ found calls classes) ∨
      (spares c ∧ Replaced calls p found spares) := by
  constructor
  · rintro ⟨before, classes, since, h, hfound, hspares⟩
    cases since using List.reverseRecOn with
    | nil =>
      left
      obtain ⟨rfl, rfl⟩ := List.append_singleton_inj.1 h
      exact ⟨classes, rfl, hfound⟩
    | append_singleton since c' =>
      right
      rw [← List.cons_append, ← List.append_assoc] at h
      obtain ⟨rfl, rfl⟩ := List.append_singleton_inj.1 h
      refine ⟨hspares c (by simp), before, classes, since, rfl, hfound, ?_⟩
      intro c' hc'
      exact hspares c' (List.mem_append_left _ hc')
  · rintro (⟨classes, rfl, hfound⟩ | ⟨hc, before, classes, since, rfl, hfound, hspares⟩)
    · exact ⟨calls, classes, [], rfl, hfound, by simp⟩
    · refine ⟨before, classes, since ++ [c], by simp, hfound, ?_⟩
      intro c' hc'
      rcases List.mem_append.1 hc' with hc' | hc'
      · exact hspares c' hc'
      · rw [List.mem_singleton.1 hc']
        exact hc

end Replaced

theorem isCurrent_concat : IsCurrent (calls ++ [c]) p ↔
    (∃ classes, c = .replace p classes) ∨ (c ≠ .remove p ∧ IsCurrent calls p) := by
  rw [IsCurrent, replaced_concat]
  simp only [and_true]
  rfl

theorem hasClasses_concat : HasClasses (calls ++ [c]) p classes ↔
    c = .replace p classes ∨ (c.path ≠ p ∧ HasClasses calls p classes) := by
  rw [HasClasses, replaced_concat]
  simp only [exists_eq_right]
  rfl

theorem isBroughtIn_concat : IsBroughtIn (calls ++ [c]) p n ↔
    (∃ classes, c = .replace p classes ∧ calls.length = n ∧ ¬IsCurrent calls p) ∨
      (c ≠ .remove p ∧ IsBroughtIn calls p n) :=
  replaced_concat

/-- A file is current if the last call about it was a replacement. -/
theorem isCurrent_iff : IsCurrent calls p ↔ ∃ classes, HasClasses calls p classes := by
  induction calls using List.reverseRecOn with
  | nil => exact iff_of_false not_replaced_nil fun ⟨_, h⟩ => not_replaced_nil h
  | append_singleton calls c ih =>
    simp only [isCurrent_concat, hasClasses_concat, exists_or, exists_and_left, ← ih]
    by_cases hc : c.path = p
    · -- A call about the file decides by itself.
      cases c with
      | replace path classes =>
        obtain rfl : path = p := hc
        simp
      | remove path =>
        obtain rfl : path = p := hc
        simp [Call.path]
    · have hremove : c ≠ .remove p := fun heq => hc (heq ▸ rfl)
      simp [hc, hremove]

theorem lt_of_isBroughtIn (h : IsBroughtIn calls p n) : n < calls.length := by
  obtain ⟨before, classes, since, rfl, ⟨rfl, -⟩, -⟩ := h
  rw [List.length_append, List.length_cons]
  omega

/-- Some call has brought in a file that is current. -/
theorem exists_isBroughtIn (h : IsCurrent calls p) : ∃ n, IsBroughtIn calls p n := by
  induction calls using List.reverseRecOn with
  | nil => exact absurd h not_replaced_nil
  | append_singleton calls c ih =>
    by_cases hbefore : IsCurrent calls p
    · -- It was current before, so no removal has come in between.
      obtain ⟨n, hn⟩ := ih hbefore
      refine ⟨n, isBroughtIn_concat.2 (.inr ⟨?_, hn⟩)⟩
      rintro rfl
      rcases isCurrent_concat.1 h with ⟨classes, heq⟩ | ⟨hne, -⟩
      · cases heq
      · exact hne rfl
    · rcases isCurrent_concat.1 h with ⟨classes, heq⟩ | ⟨-, hcurrent⟩
      · exact ⟨calls.length, isBroughtIn_concat.2 (.inl ⟨classes, heq, rfl, hbefore⟩)⟩
      · exact absurd hcurrent hbefore

/-! ## What the index knows -/

/-- The entry of a file holds the distinct classes of its last replacement. -/
theorem get?_after : (after calls).files.get? p = some entry ↔
    ∃ classes, HasClasses calls p classes ∧ classes.eraseDups = entry := by
  induction calls using List.reverseRecOn with
  | nil => exact iff_of_false nofun fun ⟨_, h, _⟩ => not_replaced_nil h
  | append_singleton calls c ih =>
    rw [after_concat]
    simp only [hasClasses_concat]
    cases c with
    | replace path classes =>
      show ((after calls).files.insert path classes.eraseDups).get? p = some entry ↔ _
      rw [OrderedMap.get?_insert]
      by_cases hp : p = path
      · subst hp
        simp [Call.path]
      · simp [hp, Call.path, Ne.symm hp, ih]
    | remove path =>
      show ((after calls).files.erase path).get? p = some entry ↔ _
      rw [OrderedMap.get?_erase]
      by_cases hp : p = path
      · subst hp
        simp [Call.path]
      · simp [hp, Call.path, Ne.symm hp, ih]

theorem mem_paths_after : p ∈ (after calls).paths ↔ IsCurrent calls p := by
  rw [isCurrent_iff, paths, OrderedMap.mem_keys_iff]
  simp only [get?_after]
  constructor
  · rintro ⟨entry, classes, h, -⟩
    exact ⟨classes, h⟩
  · rintro ⟨classes, h⟩
    exact ⟨classes.eraseDups, classes, h, rfl⟩

/-- The files are in the order of the calls that brought them in. -/
theorem pairwise_paths_after (calls : List Call) : (after calls).paths.Pairwise fun p q =>
    ∀ m n, IsBroughtIn calls p m → IsBroughtIn calls q n → m < n := by
  induction calls using List.reverseRecOn with
  | nil => exact .nil
  | append_singleton calls c ih =>
    -- What was brought in before stays in its place, and a file that is brought in now comes last.
    have hkept : ∀ p m, IsCurrent calls p → IsBroughtIn (calls ++ [c]) p m →
        IsBroughtIn calls p m := by
      intro p m hp hm
      rcases isBroughtIn_concat.1 hm with ⟨_, _, _, hnew⟩ | ⟨_, hm⟩
      · exact absurd hp hnew
      · exact hm
    have hold : (after calls).paths.Pairwise fun p q =>
        ∀ m n, IsBroughtIn (calls ++ [c]) p m → IsBroughtIn (calls ++ [c]) q n → m < n := by
      refine ih.imp_of_mem ?_
      intro p q hp hq hlt m n hm hn
      exact hlt m n (hkept p m (mem_paths_after.1 hp) hm) (hkept q n (mem_paths_after.1 hq) hn)
    rw [after_concat]
    cases c with
    | replace path classes =>
      show ((after calls).files.insert path classes.eraseDups).keys.Pairwise _
      by_cases hpath : path ∈ (after calls).paths
      · rw [OrderedMap.keys_insert_of_mem _ hpath]
        exact hold
      · rw [OrderedMap.keys_insert_of_not_mem _ hpath]
        refine List.pairwise_append.2 ⟨hold, List.pairwise_singleton _ _, ?_⟩
        intro p hp q hq m n hm hn
        obtain rfl := List.mem_singleton.1 hq
        have hm' := lt_of_isBroughtIn (hkept p m (mem_paths_after.1 hp) hm)
        rcases isBroughtIn_concat.1 hn
          with ⟨_, _, rfl, _⟩ | ⟨_, before, _, _, rfl, ⟨rfl, hnew⟩, hsince⟩
        · exact hm'
        · exact absurd (mem_paths_after.2 ⟨before, _, _, rfl, trivial, hsince⟩) hpath
    | remove path =>
      show ((after calls).files.erase path).keys.Pairwise _
      rw [OrderedMap.keys_erase]
      exact hold.filter _

/-- All classes are the classes along the files, each at its first place. -/
theorem allClasses_eq (u : UsageIndex) :
    u.allClasses = (u.paths.flatMap u.classesFor).eraseDups := by
  have hvalues : u.files.values = u.paths.map u.classesFor := by
    rw [OrderedMap.values, paths, OrderedMap.keys, List.map_map]
    refine List.map_congr_left ?_
    intro e he
    rw [Function.comp_apply, classesFor, OrderedMap.get?_eq_some_iff.2 he, Option.getD_some]
  rw [allClasses, hvalues, List.flatMap]

/-- The index knows what the calls say. -/
structure Mirrors (u : UsageIndex) (calls : List Call) : Prop where
  /-- A removal would report whether the file was replaced since its last removal. -/
  reports : ∀ p, (u.call (.remove p)).1 = some true ↔ IsCurrent calls p
  /-- The classes of a file are the distinct ones of its last replacement, if it was not removed
  since. -/
  classes : ∀ p classes, HasClasses calls p classes → u.classesFor p = classes.eraseDups
  noClasses : ∀ p, ¬IsCurrent calls p → u.classesFor p = []
  /-- The paths are those of the current files, in the order of the calls that brought them in. -/
  mem_paths : ∀ p, p ∈ u.paths ↔ IsCurrent calls p
  nodup_paths : u.paths.Nodup
  broughtIn : ∀ p ∈ u.paths, ∃ n, IsBroughtIn calls p n
  paths_order : u.paths.Pairwise fun p q => ∀ m n, IsBroughtIn calls p m →
    IsBroughtIn calls q n → m < n
  /-- All classes are those of any current file, in the order in which they occur first along the
  paths. -/
  nodup_allClasses : u.allClasses.Nodup
  mem_allClasses_iff : ∀ name, name ∈ u.allClasses ↔ ∃ p, IsCurrent calls p ∧ name ∈ u.classesFor p
  allClasses_order : u.allClasses.Pairwise fun name name' =>
    (u.paths.flatMap u.classesFor).idxOf name < (u.paths.flatMap u.classesFor).idxOf name'

/-- **An index mirrors what it was told**, whatever the calls were. -/
theorem after_mirrors (calls : List Call) : Mirrors (after calls) calls where
  reports p := by
    show some ((after calls).files.contains p) = some true ↔ _
    rw [Option.some.injEq, OrderedMap.contains_iff]
    exact mem_paths_after
  classes p classes h := by
    rw [classesFor, get?_after.2 ⟨classes, h, rfl⟩, Option.getD_some]
  noClasses p h := by
    rw [← mem_paths_after, paths, ← OrderedMap.get?_eq_none_iff] at h
    rw [classesFor, h, Option.getD_none]
  mem_paths p := mem_paths_after
  nodup_paths := (after calls).files.nodup_keys
  broughtIn p hp := exists_isBroughtIn (mem_paths_after.1 hp)
  paths_order := pairwise_paths_after calls
  nodup_allClasses := nodup_eraseDups _
  mem_allClasses_iff name := by
    rw [allClasses_eq, List.mem_eraseDups, List.mem_flatMap]
    simp only [mem_paths_after]
  allClasses_order := by
    rw [allClasses_eq]
    exact pairwise_idxOf_eraseDups _

-- The class that "a" has dropped moves to its place in "b", and "c" comes back as the last file.
example :
    let u := after [.replace "c" ["q"], .replace "a" ["m", "p"], .replace "b" ["z", "m"],
      .replace "a" ["p"], .remove "c", .replace "c" []]
    u.paths = [("a" : Text), ("b" : Text), ("c" : Text)] ∧
      u.allClasses = [("p" : Text), ("z" : Text), ("m" : Text)] := by
  decide

end UtilityCss.UsageIndex
