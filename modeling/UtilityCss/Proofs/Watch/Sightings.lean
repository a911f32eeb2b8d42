import UtilityCss.Watch.Watcher
/-!
# What a watcher takes in of a survey

While a survey is taken in nothing but errors is reported. If no error is reported and no file was
gone when it was first sighted, then the watcher knows the sighted files and no others, each with
the time that it had when it was first sighted. A file that is matched by several patterns is looked
at once.
-/

namespace UtilityCss

/-- The files that were sighted for a pattern. -/
def Listing.sightings : Listing → List (Text × Sighting)
  | .files found => found
  | .failed _ | .broken _ => []

/-- All files that were sighted, one pattern after the other. A file may be sighted more than
once. -/
def Survey.sightings (s : Survey) : List (Text × Sighting) :=
  s.flatMap fun (_, found) => found.sightings

theorem Survey.sightings_cons (pattern : Text) (found : Listing) (s : Survey) :
    Survey.sightings ((pattern, found) :: s) = found.sightings ++ s.sightings := rfl

/-- The files that were sighted are those that match a pattern. -/
theorem Survey.lookup_sightings_isSome {s : Survey} {path : Text} :
    (s.sightings.lookup path).isSome = true ↔
      ∃ pattern found, (pattern, .files found) ∈ s ∧ path ∈ found.map Prod.fst := by
  simp only [List.lookup_isSome_iff, beq_iff_eq, sightings, List.mem_flatMap, Prod.exists,
    List.mem_map]
  constructor
  · rintro ⟨_, sighting, ⟨pattern, listing, hlisting, hsighting⟩, rfl⟩
    cases listing with
    | files found => exact ⟨pattern, found, hlisting, path, sighting, hsighting, rfl⟩
    | failed message => contradiction
    | broken e => contradiction
  · rintro ⟨pattern, found, hlisting, _, sighting, hsighting, rfl⟩
    exact ⟨_, sighting, ⟨pattern, .files found, hlisting, hsighting⟩, rfl⟩

namespace Watcher.Intake

variable {known : OrderedMap Text Int} {i i' : Intake} {path : Text} {sighting : Sighting}

/-! ## Errors -/

/-- Between two states of an intake nothing but errors was reported. -/
def Reports (i i' : Intake) : Prop :=
  ∃ errors, i'.errors = i.errors ++ errors ∧ ∀ e ∈ errors, e.kind = .error

theorem Reports.of_eq (h : i'.errors = i.errors) : i.Reports i' := ⟨[], by simp [h], by simp⟩

theorem Reports.error {path message : Text}
    (h : i'.errors = i.errors ++ [WatchEvent.error path message]) : i.Reports i' :=
  ⟨_, h, by simp [WatchEvent.error]⟩

theorem Reports.trans {i'' : Intake} (h : i.Reports i') (h' : i'.Reports i'') : i.Reports i'' := by
  obtain ⟨errors, herrors, hkind⟩ := h
  obtain ⟨errors', herrors', hkind'⟩ := h'
  refine ⟨errors ++ errors', by rw [herrors', herrors, List.append_assoc], ?_⟩
  intro e he
  rcases List.mem_append.1 he with he | he
  · exact hkind e he
  · exact hkind' e he

/-- An intake that has reported no error had not reported any before. -/
theorem Reports.errors_eq_nil (h : i.Reports i') (hnone : i'.errors = []) : i.errors = [] := by
  obtain ⟨errors, herrors, -⟩ := h
  rw [hnone] at herrors
  exact (List.append_eq_nil_iff.1 herrors.symm).1

@[simp]
theorem errors_keep : (i.keep known path).errors = i.errors := by
  unfold keep
  split <;> rfl

@[simp]
theorem errors_foldl_keep (paths : List Text) : (paths.foldl (keep known) i).errors = i.errors := by
  induction paths generalizing i with
  | nil => rfl
  | cons path paths ih => rw [List.foldl_cons, ih, errors_keep]

/-- All that can become of a file. -/
theorem file_cases (h : i.file known path sighting = .ok i') :
    path ∈ i.current.keys ∧ i' = i ∨
      path ∉ i.current.keys ∧
        ((∃ time, sighting = .modified time ∧
          i' = { i with current := i.current.insert path time }) ∨ (sighting = .gone ∧ i' = i) ∨
          ∃ message, sighting = .failed message ∧ i' =
            ({ i with errors := i.errors ++ [WatchEvent.error path message] } : Intake).keep
              known path) := by
  unfold file at h
  by_cases hmem : path ∈ i.current.keys
  · rw [if_pos (OrderedMap.contains_iff.2 hmem)] at h
    exact .inl ⟨hmem, (Except.ok.inj h).symm⟩
  · rw [if_neg (mt OrderedMap.contains_iff.1 hmem)] at h
    refine .inr ⟨hmem, ?_⟩
    cases sighting with
    | modified time => exact .inl ⟨time, rfl, (Except.ok.inj h).symm⟩
    | gone => exact .inr (.inl ⟨rfl, (Except.ok.inj h).symm⟩)
    | failed message => exact .inr (.inr ⟨message, rfl, (Except.ok.inj h).symm⟩)
    | broken e => contradiction

theorem reports_file (h : i.file known path sighting = .ok i') : i.Reports i' := by
  obtain ⟨-, rfl⟩ | ⟨-, ⟨time, -, rfl⟩ | ⟨-, rfl⟩ | ⟨message, -, rfl⟩⟩ := file_cases h
  · exact .of_eq rfl
  · exact .of_eq rfl
  · exact .of_eq rfl
  · exact .error (errors_keep.trans rfl)

/-- The first file is taken in, and then the others. -/
theorem files_cons {found : List (Text × Sighting)}
    (h : i.files known ((path, sighting) :: found) = .ok i') :
    ∃ i₁, i.file known path sighting = .ok i₁ ∧ i₁.files known found = .ok i' := by
  unfold files at h
  split at h
  · next i₁ hfile => exact ⟨i₁, hfile, h⟩
  · contradiction

theorem reports_files {found : List (Text × Sighting)} (h : i.files known found = .ok i') :
    i.Reports i' := by
  induction found generalizing i with
  | nil => exact .of_eq (congrArg errors (Except.ok.inj h).symm)
  | cons sighted found ih =>
    obtain ⟨path, sighting⟩ := sighted
    obtain ⟨i₁, hfile, hfiles⟩ := files_cons h
    exact (reports_file hfile).trans (ih hfiles)

/-- All that can become of a pattern: its files are taken in, or an error is reported. -/
theorem listing_cases {pattern : Text} {found : Listing}
    (h : i.listing known pattern found = .ok i') :
    (∃ paths i₁, found = .files paths ∧ i.files known paths = .ok i₁ ∧
        i' = { i₁ with owners := i₁.owners.insert pattern (paths.map Prod.fst) }) ∨
      ∃ message, found = .failed message ∧
        i'.errors = i.errors ++ [WatchEvent.error pattern (pattern ++ ": " ++ message)] := by
  cases found with
  | files paths =>
    unfold listing at h
    dsimp only at h
    split at h
    · next i₁ hfiles => exact .inl ⟨paths, i₁, rfl, hfiles, (Except.ok.inj h).symm⟩
    · contradiction
  | failed message =>
    refine .inr ⟨message, rfl, ?_⟩
    rw [← Except.ok.inj h, errors_foldl_keep]
  | broken e => contradiction

theorem reports_listing {pattern : Text} {found : Listing}
    (h : i.listing known pattern found = .ok i') : i.Reports i' := by
  obtain ⟨paths, i₁, rfl, hfiles, rfl⟩ | ⟨message, rfl, herror⟩ := listing_cases h
  · exact (reports_files hfiles).trans (.of_eq rfl)
  · exact .error herror

/-- The first pattern ends the survey, or the others follow it. -/
theorem survey_cons (known : OrderedMap Text Int) (i : Intake) (pattern : Text) (found : Listing)
    (s : Survey) :
    (∃ e, i.listing known pattern found = .error e ∧
      i.survey known ((pattern, found) :: s) = (some e, i)) ∨
    ∃ i₁, i.listing known pattern found = .ok i₁ ∧
      i.survey known ((pattern, found) :: s) = i₁.survey known s := by
  cases hlisting : i.listing known pattern found with
  | error e => exact .inl ⟨e, rfl, by simp only [survey, hlisting]⟩
  | ok i₁ => exact .inr ⟨i₁, rfl, by simp only [survey, hlisting]⟩

/-- Taking a survey in reports nothing but errors, whatever becomes of it. -/
theorem reports_survey (known : OrderedMap Text Int) (i : Intake) (s : Survey) :
    i.Reports (i.survey known s).2 := by
  induction s generalizing i with
  | nil => exact .of_eq rfl
  | cons listed s ih =>
    obtain ⟨pattern, found⟩ := listed
    obtain ⟨e, -, heq⟩ | ⟨i₁, hlisting, heq⟩ := survey_cons known i pattern found s
    · rw [heq]
      exact .of_eq rfl
    · rw [heq]
      exact (reports_listing hlisting).trans (ih i₁)

/-! ## Times of modification -/

/-- The files that were taken in are those that were sighted, each with the time of its first
sighting. -/
def Reflects (i : Intake) (seen : List (Text × Sighting)) : Prop :=
  ∀ path, seen.lookup path = (i.current.get? path).map .modified

/-- No file was gone when it was first sighted. -/
def NoneGone (seen : List (Text × Sighting)) : Prop := ∀ path, seen.lookup path ≠ some .gone

theorem NoneGone.of_append {seen more : List (Text × Sighting)} (h : NoneGone (seen ++ more)) :
    NoneGone seen := by
  intro path hgone
  refine h path ?_
  rw [List.lookup_append, hgone, Option.some_or]

theorem Reflects.file {seen : List (Text × Sighting)} (h : i.Reflects seen)
    (hfile : i.file known path sighting = .ok i') (herrors : i'.errors = [])
    (hgone : NoneGone (seen ++ [(path, sighting)])) : i'.Reflects (seen ++ [(path, sighting)]) := by
  have hother {path' : Text} (hpath : path' ≠ path) :
      (seen ++ [(path, sighting)]).lookup path' = seen.lookup path' := by
    simp [List.lookup_append, List.lookup_cons, beq_false_of_ne hpath]
  obtain ⟨hmem, rfl⟩ | ⟨hmem, hcases⟩ := file_cases hfile
  · -- The file is known from its first sighting, which stands before this one.
    intro path'
    by_cases hpath : path' = path
    · obtain ⟨time, htime⟩ := OrderedMap.mem_keys_iff.1 hmem
      rw [hpath, List.lookup_append, h path, htime]
      rfl
    · rw [hother hpath, h path']
  · have hnone : seen.lookup path = none := by
      rw [h path, OrderedMap.get?_eq_none_iff.2 hmem]
      rfl
    have hfirst : (seen ++ [(path, sighting)]).lookup path = some sighting := by
      simp [List.lookup_append, hnone]
    -- It is the first sighting of the file, so it neither was gone nor led to an error.
    obtain ⟨time, rfl, rfl⟩ | ⟨rfl, -⟩ | ⟨message, -, rfl⟩ := hcases
    · intro path'
      dsimp only
      rw [OrderedMap.get?_insert]
      by_cases hpath : path' = path
      · rw [if_pos hpath, hpath, hfirst]
        rfl
      · rw [if_neg hpath, hother hpath, h path']
    · exact absurd hfirst (hgone path)
    · rw [errors_keep] at herrors
      simp at herrors

theorem Reflects.files {seen found : List (Text × Sighting)} (h : i.Reflects seen)
    (hfiles : i.files known found = .ok i') (herrors : i'.errors = [])
    (hgone : NoneGone (seen ++ found)) :
    i'.Reflects (seen ++ found) := by
  induction found generalizing i seen with
  | nil => rwa [List.append_nil, ← Except.ok.inj hfiles]
  | cons sighted found ih =>
    obtain ⟨path, sighting⟩ := sighted
    obtain ⟨i₁, hfile, hrest⟩ := files_cons hfiles
    rw [List.append_cons] at hgone ⊢
    refine ih (h.file hfile ?_ hgone.of_append) hrest hgone
    exact (reports_files hrest).errors_eq_nil herrors

/-- If a survey is taken in without an error and no file is gone at first sight, then the watcher
knows what was sighted. -/
theorem Reflects.survey {seen : List (Text × Sighting)} {s : Survey} (h : i.Reflects seen)
    (hsurvey : i.survey known s = (none, i')) (herrors : i'.errors = [])
    (hgone : NoneGone (seen ++ s.sightings)) : i'.Reflects (seen ++ s.sightings) := by
  induction s generalizing i seen with
  | nil =>
    obtain rfl : i = i' := congrArg Prod.snd hsurvey
    simpa [Survey.sightings] using h
  | cons listed s ih =>
    obtain ⟨pattern, found⟩ := listed
    obtain ⟨e, -, heq⟩ | ⟨i₁, hlisting, heq⟩ := survey_cons known i pattern found s
    · rw [heq] at hsurvey
      exact absurd (congrArg Prod.fst hsurvey) nofun
    · rw [heq] at hsurvey
      -- Errors are never taken back, so there was none for this pattern.
      have hnone : i₁.errors = [] := by
        have hreports : i₁.Reports i' := by simpa [hsurvey] using reports_survey known i₁ s
        exact hreports.errors_eq_nil herrors
      rw [Survey.sightings_cons, ← List.append_assoc] at hgone ⊢
      refine ih ?_ hsurvey hgone
      obtain ⟨paths, i₂, rfl, hfiles, rfl⟩ | ⟨message, -, herror⟩ := listing_cases hlisting
      · have htaken : i₂.Reflects (seen ++ paths) := h.files hfiles hnone hgone.of_append
        exact htaken
      · simp [herror] at hnone

end Watcher.Intake

end UtilityCss
