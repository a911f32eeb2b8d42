import UtilityCss.Proofs.Disk.NormalPaths
import UtilityCss.Proofs.Repetition
import UtilityCss.Proofs.Watch.Sightings
/-!
# The first poll

A watcher that knows nothing reports every file that it finds as added. It tells files apart by the
texts of their paths, whereas the list of all matching files tells them apart by their paths; since
all of these paths are in normal form, that is the same. So the first poll of a watcher adds the
matching files in their order. It leaves out the same patterns, and is ended by the same one.
-/

namespace UtilityCss

/-! ## Files that match -/

namespace WatchList

variable {w : WatchList} {d : Disk} {pattern : Text} {paths : List Path}

/-- The directory from which a pattern is seen is in normal form. -/
theorem isNormal_resolve (hroot : w.root.IsNormal) (pattern : Text) :
    (w.resolve pattern).1.IsNormal := by
  unfold resolve
  dsimp only
  split
  · exact fun part hpart => by simp at hpart
  · exact hroot

/-- What matches a pattern are files with paths in normal form. -/
theorem of_filesOf (hd : d.WellNamed) (hroot : w.root.IsNormal)
    (h : w.filesOf d pattern = .ok paths) : ∀ p ∈ paths, p.IsNormal ∧ d.isFile p = true := by
  unfold filesOf at h
  split at h
  · contradiction
  dsimp only at h
  split at h
  · contradiction
  next found hfound =>
  intro p hp
  rw [← Except.ok.inj h] at hp
  obtain ⟨hmem, hkept⟩ := List.mem_filter.1 hp
  rw [Bool.and_eq_true] at hkept
  exact ⟨Disk.isNormal_glob hd (isNormal_resolve hroot pattern) hfound p hmem, hkept.1⟩

/-- All patterns are listed, or one of them ends the listing. -/
theorem filesOfAll_cons (w : WatchList) (d : Disk) (pattern : Text) (patterns : List Text) :
    (w.filesOfAll d (pattern :: patterns)).1 =
      match w.filesOf d pattern with
      | .ok paths => (w.filesOfAll d patterns).1.map (paths ++ ·)
      | .error e => if e.isContained then (w.filesOfAll d patterns).1 else .error e := by
  rw [filesOfAll]
  cases w.filesOf d pattern with
  | ok paths => rfl
  | error e =>
    dsimp only
    split <;> rfl

/-- A pattern ends the listing with a failure that does not leave the other patterns alone. -/
def Breaks (w : WatchList) (d : Disk) (pattern : Text) (e : Failure) : Prop :=
  w.filesOf d pattern = .error e ∧ e.isContained = false

/-- If the listing is ended, one of the patterns does that. -/
theorem breaks_of_filesOfAll {e : Failure} {patterns : List Text}
    (h : (w.filesOfAll d patterns).1 = .error e) : ∃ pattern ∈ patterns, w.Breaks d pattern e := by
  induction patterns with
  | nil => contradiction
  | cons pattern patterns ih =>
    have hlater (h : (w.filesOfAll d patterns).1 = .error e) :
        ∃ p ∈ pattern :: patterns, w.Breaks d p e := by
      obtain ⟨p, hp, hbreaks⟩ := ih h
      exact ⟨p, .tail _ hp, hbreaks⟩
    rw [filesOfAll_cons] at h
    split at h
    · cases hrest : (w.filesOfAll d patterns).1 with
      | ok more =>
        rw [hrest] at h
        contradiction
      | error e' =>
        rw [hrest] at h
        obtain rfl : e' = e := Except.error.inj h
        exact hlater hrest
    · next e' hpattern =>
      split at h
      · exact hlater h
      · next hescapes =>
        obtain rfl : e' = e := Except.error.inj h
        exact ⟨pattern, .head _, hpattern, Bool.eq_false_iff.2 hescapes⟩

/-- **All patterns are listed exactly if none of them breaks the listing.** -/
theorem exists_filesOfAll_iff {patterns : List Text} :
    (∃ paths, (w.filesOfAll d patterns).1 = .ok paths) ↔
      ∀ pattern ∈ patterns, ∀ e, ¬w.Breaks d pattern e := by
  constructor
  · -- A pattern that is passed over was listed, or its failure was contained.
    intro h
    induction patterns with
    | nil => simp
    | cons pattern patterns ih =>
      obtain ⟨paths, h⟩ := h
      rw [filesOfAll_cons] at h
      split at h
      · next found hfound =>
        cases hrest : (w.filesOfAll d patterns).1 with
        | error e =>
          rw [hrest] at h
          contradiction
        | ok more =>
          refine List.forall_mem_cons.2 ⟨fun e hbreaks => ?_, ih ⟨more, hrest⟩⟩
          rw [hbreaks.1] at hfound
          contradiction
      · next e' hpattern =>
        split at h
        · next hcontained =>
          refine List.forall_mem_cons.2 ⟨fun e hbreaks => ?_, ih ⟨paths, h⟩⟩
          obtain rfl : e' = e := Except.error.inj (hpattern.symm.trans hbreaks.1)
          exact absurd hcontained (Bool.eq_false_iff.1 hbreaks.2)
        · contradiction
  · intro h
    cases hall : (w.filesOfAll d patterns).1 with
    | ok paths => exact ⟨paths, rfl⟩
    | error e =>
      obtain ⟨pattern, hpattern, hbreaks⟩ := breaks_of_filesOfAll hall
      exact absurd hbreaks (h pattern hpattern e)

theorem breaks_of_matchingFiles {e : Failure} (h : (w.matchingFiles d).1 = .error e) :
    ∃ pattern ∈ w.patterns, w.Breaks d pattern e := by
  have hmatching : (w.matchingFiles d).1 = (w.filesOfAll d w.patterns).1.map List.eraseDups := rfl
  cases hall : (w.filesOfAll d w.patterns).1 with
  | ok paths =>
    rw [hmatching, hall] at h
    contradiction
  | error e' =>
    rw [hmatching, hall] at h
    obtain rfl : e' = e := Except.error.inj h
    exact breaks_of_filesOfAll hall

/-- **The matching files can be listed exactly if no pattern breaks the listing.** -/
theorem exists_matchingFiles_iff : (∃ found, (w.matchingFiles d).1 = .ok found) ↔
    ∀ pattern ∈ w.patterns, ∀ e, ¬w.Breaks d pattern e := by
  rw [← exists_filesOfAll_iff]
  have hmatching : (w.matchingFiles d).1 = (w.filesOfAll d w.patterns).1.map List.eraseDups := rfl
  rw [hmatching]
  cases (w.filesOfAll d w.patterns).1 with
  | ok paths => exact iff_of_true ⟨_, rfl⟩ ⟨_, rfl⟩
  | error e => exact iff_of_false nofun nofun

theorem isNormal_filesOfAll (hd : d.WellNamed) (hroot : w.root.IsNormal) {patterns : List Text}
    (h : (w.filesOfAll d patterns).1 = .ok paths) : ∀ p ∈ paths, p.IsNormal := by
  induction patterns generalizing paths with
  | nil =>
    rw [← Except.ok.inj h]
    simp
  | cons pattern patterns ih =>
    rw [filesOfAll_cons] at h
    split at h
    · next found hfound =>
      cases hrest : (w.filesOfAll d patterns).1 with
      | error e =>
        rw [hrest] at h
        contradiction
      | ok more =>
        rw [hrest] at h
        intro p hp
        rw [← Except.ok.inj h] at hp
        rcases List.mem_append.1 hp with hp | hp
        · exact (of_filesOf hd hroot hfound p hp).1
        · exact ih hrest p hp
    · split at h
      · exact ih h
      · contradiction

end WatchList

/-- The path of a file leads to it. -/
theorem Disk.of_isFile {d : Disk} {p : Path} (h : d.isFile p = true) :
    ∃ l content modified, d.locate p = .ok l ∧ d.entryAt l = some (.file content modified) := by
  unfold isFile entry? at h
  cases hlook : d.look p with
  | error e => simp [hlook] at h
  | ok entry =>
    rw [hlook] at h
    unfold look at hlook
    split at hlook
    · next l hlocate =>
      obtain rfl := Except.ok.inj hlook
      cases hentry : d.entryAt l with
      | none => simp [hentry] at h
      | some entry =>
        cases entry with
        | folder => simp [hentry, Entry.isFile] at h
        | file content modified => exact ⟨l, content, modified, hlocate, hentry⟩
    · contradiction
    · rw [← Except.ok.inj hlook] at h
      contradiction

/-- The time of modification of every file can be read. -/
def Disk.Timed (d : Disk) : Prop := ∀ p, d.isFile p = true → ∃ time, d.stamp p = .ok time

/-- Without faults the time of modification of every file can be read. -/
theorem Disk.timed_of_no_faults {d : Disk} (h : d.stampFaults = .empty) : d.Timed := by
  intro p hfile
  have hnone : d.stampFaults.get? p.text = none := by rw [h]; rfl
  obtain ⟨l, content, modified, hlocate, hentry⟩ := of_isFile hfile
  exact ⟨modified, by simp only [stamp, hnone, hlocate, hentry]⟩

namespace Watcher

/-! ## Taking in a first survey -/

namespace Intake

variable {i : Intake} {seen : List Text}

/-- The files that were taken in are those that were seen, each at its first place. -/
def Gathers (i : Intake) (seen : List Text) : Prop := i.current.keys = seen.eraseDups

theorem Gathers.file (h : i.Gathers seen) (known : OrderedMap Text Int) (path : Text) (time : Int) :
    ∃ i', i.file known path (.modified time) = .ok i' ∧ i'.Gathers (seen ++ [path]) := by
  unfold Intake.file
  by_cases hmem : path ∈ i.current.keys
  · have hseen : path ∈ seen := by rwa [← List.mem_eraseDups, ← h]
    rw [if_pos (OrderedMap.contains_iff.2 hmem)]
    exact ⟨i, rfl, by rw [Gathers, eraseDups_concat, if_pos hseen, ← h]⟩
  · have hseen : path ∉ seen := by rwa [← List.mem_eraseDups, ← h]
    rw [if_neg (mt OrderedMap.contains_iff.1 hmem)]
    refine ⟨_, rfl, ?_⟩
    rw [Gathers, eraseDups_concat, if_neg hseen, ← h]
    exact OrderedMap.keys_insert_of_not_mem time hmem

theorem Gathers.files {found : List (Text × Sighting)} (h : i.Gathers seen)
    (known : OrderedMap Text Int) (hfound : ∀ sighted ∈ found, ∃ time, sighted.2 = .modified time) :
    ∃ i', i.files known found = .ok i' ∧ i'.Gathers (seen ++ found.map Prod.fst) := by
  induction found generalizing i seen with
  | nil => exact ⟨i, rfl, by simpa using h⟩
  | cons sighted found ih =>
    obtain ⟨path, sighting⟩ := sighted
    obtain ⟨time, rfl⟩ : ∃ time, sighting = .modified time := hfound _ (.head _)
    obtain ⟨i₁, hfile, hseen⟩ := h.file known path time
    obtain ⟨i', hfiles, hall⟩ := ih hseen fun sighted hsighted => hfound sighted (.tail _ hsighted)
    rw [List.append_assoc] at hall
    exact ⟨i', by rw [Intake.files, hfile, ← hfiles], hall⟩

/-- A watcher that knows no file has nothing to go on with when a pattern fails. -/
theorem foldl_keep_empty (paths : List Text) : paths.foldl (keep .empty) i = i := by
  induction paths with
  | nil => rfl
  | cons path paths ih => exact ih

variable {w : WatchList} {d : Disk}

/-- When a pattern is listed, its files are seen. -/
theorem Gathers.listing {pattern : Text} {paths : List Path} (hd : d.WellNamed)
    (hroot : w.root.IsNormal)
    (htimed : d.Timed) (h : i.Gathers seen) (hpattern : w.filesOf d pattern = .ok paths) :
    ∃ i', i.listing .empty pattern (w.listing d pattern) = .ok i' ∧
      i'.Gathers (seen ++ paths.map Path.text) := by
  have hfiles := WatchList.of_filesOf hd hroot hpattern
  have hlisting : w.listing d pattern = .files (paths.map fun p => (p.text, .of d p)) := by
    rw [WatchList.listing, hpattern]
  have htimes : ∀ sighted ∈ paths.map fun p => (p.text, Sighting.of d p),
      ∃ time, sighted.2 = .modified time := by
    intro sighted hsighted
    obtain ⟨p, hp, rfl⟩ := List.mem_map.1 hsighted
    obtain ⟨time, htime⟩ := htimed p (hfiles p hp).2
    exact ⟨time, by rw [Sighting.of, htime]⟩
  obtain ⟨i₁, htaken, hseen⟩ := h.files .empty htimes
  have htexts : (paths.map fun p => (p.text, Sighting.of d p)).map Prod.fst =
      paths.map Path.text := by
    rw [List.map_map]
    rfl
  rw [htexts] at hseen
  refine ⟨{ i₁ with owners := i₁.owners.insert pattern (paths.map Path.text) }, ?_, hseen⟩
  rw [hlisting, Intake.listing, htaken, htexts]

/-- When a pattern fails and the failure is contained, nothing is seen. -/
theorem Gathers.listing_contained {pattern : Text} {e : Failure} (h : i.Gathers seen)
    (hpattern : w.filesOf d pattern = .error e) (hcontained : e.isContained = true) :
    ∃ i', i.listing .empty pattern (w.listing d pattern) = .ok i' ∧ i'.Gathers seen := by
  have hlisting : w.listing d pattern = .failed e.message := by
    rw [WatchList.listing, hpattern]
    exact if_pos hcontained
  rw [hlisting, Intake.listing, foldl_keep_empty]
  exact ⟨_, rfl, h⟩

/-- **The first survey and the list of all matching files**: both are ended by the same failure, or
the watcher has seen the files of the list. -/
theorem Gathers.survey (hd : d.WellNamed) (hroot : w.root.IsNormal) (htimed : d.Timed)
    (h : i.Gathers seen) (patterns : List Text) :
    match (w.filesOfAll d patterns).1 with
    | .ok paths =>
      ∃ i', i.survey .empty (patterns.map fun pattern => (pattern, w.listing d pattern)) =
        (none, i') ∧ i'.Gathers (seen ++ paths.map Path.text)
    | .error e =>
      (i.survey .empty (patterns.map fun pattern => (pattern, w.listing d pattern))).1 =
        some e := by
  -- On the patterns, for all files that were seen through the patterns before them.
  induction patterns generalizing i seen with
  | nil => exact ⟨i, rfl, by simpa using h⟩
  | cons pattern patterns ih =>
    rw [WatchList.filesOfAll_cons, List.map_cons, Intake.survey]
    cases hpattern : w.filesOf d pattern with
    | ok paths =>
      obtain ⟨i₁, hfirst, hseen⟩ := h.listing hd hroot htimed hpattern
      have hnext := ih hseen
      rw [hfirst]
      dsimp only
      cases hrest : (w.filesOfAll d patterns).1 with
      | error e =>
        rw [hrest] at hnext
        exact hnext
      | ok more =>
        rw [hrest] at hnext
        obtain ⟨i', hsurvey, hall⟩ := hnext
        refine ⟨i', hsurvey, ?_⟩
        rw [List.map_append, ← List.append_assoc]
        exact hall
    | error e =>
      by_cases hcontained : e.isContained = true
      · obtain ⟨i₁, hfirst, hseen⟩ := h.listing_contained hpattern hcontained
        rw [hfirst]
        simp only [if_pos hcontained]
        exact ih hseen
      · have hlisting : w.listing d pattern = .broken e := by
          rw [WatchList.listing, hpattern]
          exact if_neg hcontained
        rw [hlisting]
        simp only [if_neg hcontained]
        rfl

end Intake

/-! ## What the first poll tells -/

/-- To a watcher that knows no file, every file is added. -/
theorem changes_empty (current : OrderedMap Text Int) :
    changes .empty current = current.keys.map WatchEvent.added := by
  have hseen :=
    congrFun (List.filterMap_eq_map (f := fun entry : Text × Int => WatchEvent.added entry.1))
    current.entries
  rw [OrderedMap.keys, List.map_map]
  exact (List.append_nil _).trans hseen

end Watcher

namespace WatchEvent

/-- The files that were added. -/
def addedPaths (events : List WatchEvent) : List Text :=
  (events.filter fun e => e.kind = .added).map WatchEvent.path

theorem addedPaths_append (events more : List WatchEvent) :
    addedPaths (events ++ more) = addedPaths events ++ addedPaths more := by
  simp [addedPaths]

theorem addedPaths_map_added (paths : List Text) : addedPaths (paths.map added) = paths := by
  simp [addedPaths, List.filter_map, Function.comp_def, added]

theorem addedPaths_of_errors {events : List WatchEvent} (h : ∀ e ∈ events, e.kind = .error) :
    addedPaths events = [] := by
  have hnone : events.filter (fun e => e.kind = .added) = [] := by
    rw [List.filter_eq_nil_iff]
    intro e he
    simp [h e he]
  rw [addedPaths, hnone, List.map_nil]

end WatchEvent

namespace Watcher

variable {w : WatchList} {d : Disk}

/-- What a watcher tells that has seen some paths in normal form and knows none of them. It tells
the files apart by their texts, and so do their paths. -/
theorem Intake.Gathers.tells {i : Intake} {paths : List Path} (h : i.Gathers (paths.map Path.text))
    (hnormal : ∀ p ∈ paths, p.IsNormal) (herrors : ∀ e ∈ i.errors, e.kind = .error) :
    WatchEvent.addedPaths (i.errors ++ changes .empty i.current) = paths.eraseDups.map Path.text ∧
      (paths.eraseDups.map Path.text).Nodup ∧
      ∀ e ∈ i.errors ++ changes .empty i.current, e.kind = .error ∨ e.kind = .added := by
  have hapart : ∀ p ∈ paths, ∀ q ∈ paths, p.text = q.text → p = q :=
    fun p hp q hq => Path.eq_of_text_eq (hnormal p hp) (hnormal q hq)
  have hkeys : i.current.keys = paths.eraseDups.map Path.text := by
    rw [← eraseDups_map paths hapart, ← h]
  rw [changes_empty, ← hkeys]
  refine ⟨?_, i.current.nodup_keys, fun e he => ?_⟩
  · rw [WatchEvent.addedPaths_append, WatchEvent.addedPaths_of_errors herrors, List.nil_append,
      WatchEvent.addedPaths_map_added]
  · rcases List.mem_append.1 he with herror | hadded
    · exact .inl (herrors e herror)
    · obtain ⟨path, -, rfl⟩ := List.mem_map.1 hadded
      exact .inr rfl

/-- **The first poll adds the matching files in their order**: it tells of them and of errors, and
fails as the list of all matching files does. -/
theorem poll_new (hd : d.WellNamed) (hroot : w.root.IsNormal) (htimed : d.Timed) :
    match (w.matchingFiles d).1 with
    | .ok files => ∃ events w', (new w).poll d = (.ok events, w') ∧
        WatchEvent.addedPaths events = files.map Path.text ∧ (files.map Path.text).Nodup ∧
        ∀ e ∈ events, e.kind = .error ∨ e.kind = .added
    | .error e => ((new w).poll d).1 = .error e := by
  have hstart : (⟨.empty, .empty, []⟩ : Intake).Gathers [] := rfl
  have hsurvey := hstart.survey hd hroot htimed w.patterns
  have hreports := Intake.reports_survey .empty ⟨.empty, .empty, []⟩ (w.survey d)
  have hmatching : (w.matchingFiles d).1 = (w.filesOfAll d w.patterns).1.map List.eraseDups := rfl
  unfold poll observe new
  dsimp only
  rw [hmatching]
  -- The survey of a disk consists of the patterns, each with what it lists.
  change match (w.filesOfAll d w.patterns).1 with
    | .ok paths => ∃ i', Intake.survey .empty ⟨.empty, .empty, []⟩ (w.survey d) = (none, i') ∧ _
    | .error e => (Intake.survey .empty ⟨.empty, .empty, []⟩ (w.survey d)).1 = some e at hsurvey
  cases hfiles : (w.filesOfAll d w.patterns).1 with
  | error e =>
    rw [hfiles] at hsurvey
    dsimp only at hsurvey
    cases hend : Intake.survey .empty ⟨.empty, .empty, []⟩ (w.survey d) with
    | mk failure i' =>
      rw [hend] at hsurvey
      obtain rfl : failure = some e := hsurvey
      rfl
  | ok paths =>
    rw [hfiles] at hsurvey
    obtain ⟨i', hend, hseen⟩ := hsurvey
    rw [hend] at hreports ⊢
    obtain ⟨errors, herrors, hkind⟩ := hreports
    rw [List.nil_append] at herrors hseen
    exact ⟨_, _, rfl, hseen.tells (WatchList.isNormal_filesOfAll hd hroot hfiles) (herrors ▸ hkind)⟩

end Watcher

end UtilityCss
