import UtilityCss.Proofs.Watch.Replay
/-!
# Failed patterns and healthy ones

A pattern that cannot be listed claims the files that it owned, and the watcher goes on with what it
knew of them, even if another pattern that was listed matches the same file. So a new time of
modification is hidden exactly if a failed pattern claims the file: what the watcher knew of it
overrules what was found, whichever of the two patterns comes first. A file that was not known, or
that has not changed, is never hidden.
-/

namespace UtilityCss

/-- Whether a failed pattern claims a file: the file is among those that the pattern owned when it
failed. A pattern owns the files that it matched when it was listed last. -/
def Survey.claims (path : Text) : OrderedMap Text (List Text) → Survey → Bool
  | _, [] => false
  | owners, (pattern, .files found) :: s =>
    claims path (owners.insert pattern (found.map Prod.fst)) s
  | owners, (pattern, .failed _) :: s =>
    ((owners.get? pattern).getD []).contains path || claims path owners s
  | owners, (_, .broken _) :: s => claims path owners s

/-- No pattern and no file ends the survey. -/
structure Survey.Contained (s : Survey) : Prop where
  patterns : ∀ pattern e, (pattern, .broken e) ∉ s
  files : ∀ path e, (path, .broken e) ∉ s.sightings

namespace WatchEvent

/-- What is told about a file, errors apart. -/
def about (path : Text) (events : List WatchEvent) : List WatchEvent :=
  events.filter fun e => e.kind ≠ .error ∧ e.path = path

/-- What there is to tell about a file that is there, from what was known of it and what was
found. -/
def tidings (path : Text) (before : Option Int) (time : Int) : List WatchEvent :=
  match before with
  | none => [.added path]
  | some before => if before = time then [] else [.changed path]

variable {events : List WatchEvent} {path : Text} {e : WatchEvent}

theorem about_of_silent (h : Silent path events) : about path events = [] := by
  rw [about, List.filter_eq_nil_iff]
  intro e he
  rcases h e he with hkind | hpath
  · simp [hkind]
  · simp [hpath]

/-- If at most one event is told about each file, then it is all that is told about its file. -/
theorem AtMostOnce.about_eq (h : AtMostOnce events) (he : e ∈ events) (hkind : e.kind ≠ .error) :
    about e.path events = [e] := by
  obtain ⟨front, back, rfl⟩ := List.append_of_mem he
  obtain ⟨hfront, hback⟩ := h.silent hkind
  have hself : about e.path (e :: back) = e :: about e.path back :=
    List.filter_cons_of_pos (by simpa using hkind)
  have hsplit : about e.path (front ++ e :: back) =
      about e.path front ++ about e.path (e :: back) :=
    List.filter_append ..
  rw [hsplit, about_of_silent hfront, hself, about_of_silent hback, List.nil_append]

end WatchEvent

namespace Watcher

open WatchEvent

/-- What is told about a known file is the difference between the two times. -/
theorem Tells.about_eq {known current : OrderedMap Text Int}
    {events : List WatchEvent} {path : Text}
    {time : Int} (h : Tells known current events) (hnow : current.get? path = some time) :
    about path events = tidings path (known.get? path) time := by
  have hmem : path ∈ current.keys := OrderedMap.mem_keys_iff.2 ⟨time, hnow⟩
  cases hbefore : known.get? path with
  | none =>
    have hnews : IsNews known current (.added path) :=
      .added (OrderedMap.get?_eq_none_iff.1 hbefore) hmem
    exact h.atMostOnce.about_eq (h.news _ hnews) nofun
  | some before =>
    by_cases hsame : before = time
    · -- Nothing is new about the file, so nothing is told about it.
      have hsilent : Silent path events := by
        intro e he
        refine (h.error_or_news e he).imp_right ?_
        rintro hnews rfl
        cases hnews with
        | added hunknown => exact hunknown (OrderedMap.mem_keys_iff.2 ⟨before, hbefore⟩)
        | changed hbefore' hnow' hne =>
          have hbefore'' := hbefore'.symm.trans hbefore
          have hnow'' := hnow'.symm.trans hnow
          simp only [Option.some.injEq] at hbefore'' hnow''
          exact hne (by rw [hbefore'', hnow'', hsame])
        | removed _ hgone => exact hgone hmem
      rw [about_of_silent hsilent, tidings, if_pos hsame]
    · have hnews : IsNews known current (.changed path) := .changed hbefore hnow hsame
      have htold := h.atMostOnce.about_eq (h.news _ hnews) nofun
      rwa [tidings, if_neg hsame]

/-! ## What becomes of a file -/

namespace Intake

variable {known : OrderedMap Text Int} {i i' : Intake} {path : Text} {time : Int}

@[simp]
theorem owners_keep (path : Text) : (i.keep known path).owners = i.owners := by
  unfold keep
  split <;> rfl

@[simp]
theorem owners_foldl_keep (paths : List Text) : (paths.foldl (keep known) i).owners = i.owners := by
  induction paths generalizing i with
  | nil => rfl
  | cons path paths ih => rw [List.foldl_cons, ih, owners_keep]

theorem get?_keep (path' : Text) : (i.keep known path').current.get? path =
    if path = path' then (known.get? path).or (i.current.get? path) else i.current.get? path := by
  unfold keep
  cases hknown : known.get? path' with
  | none =>
    by_cases hpath : path = path'
    · rw [if_pos hpath, hpath, hknown, Option.none_or]
    · rw [if_neg hpath]
  | some before =>
    dsimp only
    rw [OrderedMap.get?_insert]
    by_cases hpath : path = path'
    · rw [if_pos hpath, if_pos hpath, hpath, hknown, Option.some_or]
    · rw [if_neg hpath, if_neg hpath]

/-- What a failed pattern goes on with is what was known of its files. -/
theorem get?_foldl_keep (paths : List Text) : (paths.foldl (keep known) i).current.get? path =
    if path ∈ paths then (known.get? path).or (i.current.get? path) else i.current.get? path := by
  induction paths generalizing i with
  | nil => simp
  | cons path' paths ih =>
    rw [List.foldl_cons, ih, get?_keep]
    by_cases hpath : path = path'
    · simp only [hpath, if_true, List.mem_cons, true_or]
      cases known.get? path' <;> simp
    · simp [hpath]

/-- A file that was seen already stays as it is. -/
theorem get?_file_of_seen {path' : Text} {sighting : Sighting}
    (h : i.file known path' sighting = .ok i') (hseen : i.current.get? path = some time) :
    i'.current.get? path = some time := by
  have hmem : path ∈ i.current.keys := OrderedMap.mem_keys_iff.2 ⟨time, hseen⟩
  obtain ⟨-, rfl⟩ | ⟨hnew, ⟨time', -, rfl⟩ | ⟨-, rfl⟩ | ⟨message, -, rfl⟩⟩ := file_cases h
  · exact hseen
  · have hne : path ≠ path' := fun heq => hnew (heq ▸ hmem)
    rw [OrderedMap.get?_insert, if_neg hne, hseen]
  · exact hseen
  · have hne : path ≠ path' := fun heq => hnew (heq ▸ hmem)
    rw [get?_keep, if_neg hne, hseen]

/-- Another file makes no difference. -/
theorem get?_file_of_ne {path' : Text} {sighting : Sighting}
    (h : i.file known path' sighting = .ok i')
    (hne : path ≠ path') : i'.current.get? path = i.current.get? path := by
  obtain ⟨-, rfl⟩ | ⟨-, ⟨time', -, rfl⟩ | ⟨-, rfl⟩ | ⟨message, -, rfl⟩⟩ := file_cases h
  · rfl
  · rw [OrderedMap.get?_insert, if_neg hne]
  · rfl
  · rw [get?_keep, if_neg hne]

theorem owners_file {path' : Text} {sighting : Sighting}
    (h : i.file known path' sighting = .ok i') : i'.owners = i.owners := by
  obtain ⟨-, rfl⟩ | ⟨-, ⟨time', -, rfl⟩ | ⟨-, rfl⟩ | ⟨message, -, rfl⟩⟩ := file_cases h
  · rfl
  · rfl
  · rfl
  · exact owners_keep path'

theorem owners_files {found : List (Text × Sighting)} (h : i.files known found = .ok i') :
    i'.owners = i.owners := by
  induction found generalizing i with
  | nil => rw [Except.ok.inj h]
  | cons sighted found ih =>
    obtain ⟨i₁, hfile, hrest⟩ := files_cons h
    rw [ih hrest, owners_file hfile]

/-- What is known of a file while a survey is taken in: it was seen with some time, or it was not
seen and its first sighting among those to come has that time. -/
def Expects (i : Intake) (path : Text) (time : Int) (coming : List (Text × Sighting)) : Prop :=
  i.current.get? path = some time ∨
    i.current.get? path = none ∧ coming.lookup path = some (.modified time)

theorem Expects.file {path' : Text} {sighting : Sighting} {coming : List (Text × Sighting)}
    (h : i.Expects path time ((path', sighting) :: coming))
    (hfile : i.file known path' sighting = .ok i') :
    i'.Expects path time coming := by
  rcases h with hseen | ⟨hnew, hcoming⟩
  · exact .inl (get?_file_of_seen hfile hseen)
  · by_cases hpath : path = path'
    · -- This is the first sighting of the file.
      subst hpath
      obtain rfl : sighting = .modified time := by simpa using hcoming
      left
      obtain ⟨hmem, -⟩ | ⟨-, ⟨time', htime, rfl⟩ | ⟨hgone, -⟩ | ⟨message, hfailed, -⟩⟩ :=
        file_cases hfile
      · exact absurd hmem (OrderedMap.get?_eq_none_iff.1 hnew)
      · rw [OrderedMap.get?_insert, if_pos rfl, Sighting.modified.inj htime]
      · contradiction
      · contradiction
    · right
      rw [List.lookup_cons, beq_false_of_ne hpath] at hcoming
      exact ⟨(get?_file_of_ne hfile hpath).trans hnew, hcoming⟩

theorem Expects.files {found coming : List (Text × Sighting)}
    (h : i.Expects path time (found ++ coming))
    (hfiles : i.files known found = .ok i') : i'.Expects path time coming := by
  induction found generalizing i with
  | nil => rwa [← Except.ok.inj hfiles]
  | cons sighted found ih =>
    obtain ⟨path', sighting⟩ := sighted
    obtain ⟨i₁, hfile, hrest⟩ := files_cons hfiles
    exact ih (h.file hfile) hrest

/-- A failed pattern goes on with what was known of the files that it owns, so from then on their
times are those that were known. -/
theorem Expects.failed {pattern message : Text} {coming : List (Text × Sighting)}
    (h : i.Expects path time coming)
    (hlisting : i.listing known pattern (.failed message) = .ok i') :
    i'.Expects path
      (if path ∈ (i.owners.get? pattern).getD [] then (known.get? path).getD time else time)
      coming := by
  obtain rfl := Except.ok.inj hlisting
  let reported : Intake :=
    { i with errors := i.errors ++ [WatchEvent.error pattern (pattern ++ ": " ++ message)] }
  have hget : (((i.owners.get? pattern).getD []).foldl (keep known) reported).current.get? path =
      if path ∈ (i.owners.get? pattern).getD [] then (known.get? path).or (i.current.get? path)
      else i.current.get? path := get?_foldl_keep _
  by_cases hown : path ∈ (i.owners.get? pattern).getD []
  · rw [if_pos hown] at hget ⊢
    cases hbefore : known.get? path with
    | some before =>
      rw [hbefore, Option.some_or] at hget
      exact .inl hget
    | none =>
      rw [hbefore, Option.none_or] at hget
      exact h.imp hget.trans (And.imp_left hget.trans)
  · rw [if_neg hown] at hget ⊢
    exact h.imp hget.trans (And.imp_left hget.trans)

/-- **What becomes of a sighted file.** What was known of it counts if a failed pattern claims it,
else what was found. -/
theorem get?_survey {s : Survey} (hsurvey : i.survey known s = (none, i'))
    (h : i.Expects path time s.sightings) : i'.current.get? path =
      some (if s.claims path i.owners then (known.get? path).getD time else time) := by
  -- On the survey, for all times: a failed pattern may change the time with which the file is
  -- expected.
  induction s generalizing i time with
  | nil =>
    obtain rfl : i = i' := congrArg Prod.snd hsurvey
    rcases h with hseen | ⟨-, hcoming⟩
    · simpa [Survey.claims] using hseen
    · simp [Survey.sightings] at hcoming
  | cons listed s ih =>
    obtain ⟨pattern, found⟩ := listed
    obtain ⟨e, -, heq⟩ | ⟨i₁, hlisting, heq⟩ := survey_cons known i pattern found s
    · rw [heq] at hsurvey
      cases congrArg Prod.fst hsurvey
    rw [heq] at hsurvey
    rw [Survey.sightings_cons] at h
    cases found with
    | files paths =>
      obtain ⟨paths', i₂, heq', hfiles, rfl⟩ | ⟨message, hfailed, -⟩ := listing_cases hlisting
      · obtain rfl := Listing.files.inj heq'
        have hexpects : i₂.Expects path time (Survey.sightings s) := h.files hfiles
        rw [ih hsurvey hexpects, Survey.claims, owners_files hfiles]
      · contradiction
    | failed message =>
      have howners : i₁.owners = i.owners := by
        rw [← Except.ok.inj hlisting]
        exact owners_foldl_keep _
      rw [ih hsurvey (h.failed hlisting), Survey.claims, howners]
      by_cases hown : path ∈ (i.owners.get? pattern).getD []
      · cases known.get? path <;> simp [hown]
      · simp [hown]
    | broken e => contradiction

/-! ## Surveys that are not ended -/

theorem exists_files (known : OrderedMap Text Int) {found : List (Text × Sighting)}
    (h : ∀ path e, (path, .broken e) ∉ found) (i : Intake) :
    ∃ i', i.files known found = .ok i' := by
  induction found generalizing i with
  | nil => exact ⟨i, rfl⟩
  | cons sighted found ih =>
    obtain ⟨path, sighting⟩ := sighted
    have hfile : ∃ i₁, i.file known path sighting = .ok i₁ := by
      unfold file
      split
      · exact ⟨_, rfl⟩
      · cases sighting with
        | broken e => exact absurd (.head _) (h path e)
        | modified time => exact ⟨_, rfl⟩
        | gone => exact ⟨_, rfl⟩
        | failed message => exact ⟨_, rfl⟩
    obtain ⟨i₁, hfile⟩ := hfile
    obtain ⟨i', hrest⟩ := ih (fun path e he => h path e (.tail _ he)) i₁
    exact ⟨i', by rw [files, hfile, ← hrest]⟩

theorem exists_survey (known : OrderedMap Text Int) {s : Survey} (h : s.Contained) (i : Intake) :
    ∃ i', i.survey known s = (none, i') := by
  induction s generalizing i with
  | nil => exact ⟨i, rfl⟩
  | cons listed s ih =>
    obtain ⟨pattern, found⟩ := listed
    have hrest : Survey.Contained s :=
      ⟨fun pattern e he => h.patterns pattern e (.tail _ he),
        fun path e he => h.files path e (List.mem_append_right _ he)⟩
    obtain ⟨e, hlisting, -⟩ | ⟨i₁, -, heq⟩ := survey_cons known i pattern found s
    · cases found with
      | files paths =>
        have hfiles : ∃ i₁, i.files known paths = .ok i₁ :=
          exists_files known (fun path e he => h.files path e (List.mem_append_left _ he)) i
        obtain ⟨i₁, hfiles⟩ := hfiles
        rw [listing, hfiles] at hlisting
        contradiction
      | failed message => contradiction
      | broken e => exact absurd (.head _) (h.patterns pattern e)
    · rw [heq]
      exact ih hrest i₁

end Intake

section

variable {w w' : Watcher} {s : Survey} {events : List WatchEvent} {path : Text} {time : Int}

/-- What was known of a sighted file overrules what was found: a failed pattern claims the file, and
it was known with another time. -/
def Overrules (w : Watcher) (s : Survey) (path : Text) (time : Int) : Prop :=
  s.claims path w.owners = true ∧ ∃ before, w.snapshot.get? path = some before ∧ before ≠ time

/-- A survey tells of a file and its time: the survey is not ended, afterwards the file is known
with that time, and what is told about it, errors apart, is what is new. -/
def TellsOf (w : Watcher) (s : Survey) (path : Text) (time : Int) : Prop :=
  ∃ events w', w.observe s = (.ok events, w') ∧ w'.snapshot.get? path = some time ∧
    about path events = tidings path (w.snapshot.get? path) time

theorem exists_observe (h : s.Contained) : ∃ events w', w.observe s = (.ok events, w') := by
  obtain ⟨i, hi⟩ := Intake.exists_survey w.snapshot h ⟨.empty, w.owners, []⟩
  unfold observe
  rw [hi]
  exact ⟨_, _, rfl⟩

/-- After a survey a sighted file is known with the time that was found, or with the one before if
that overrules it. -/
theorem get?_of_observe (hobserve : w.observe s = (.ok events, w'))
    (hsighted : s.sightings.lookup path = some (.modified time)) : w'.snapshot.get? path =
      some (if s.claims path w.owners then (w.snapshot.get? path).getD time else time) := by
  unfold observe at hobserve
  cases hsurvey : (⟨.empty, w.owners, []⟩ : Intake).survey w.snapshot s with
  | mk failure i =>
    rw [hsurvey] at hobserve
    cases failure with
    | some e => exact absurd (congrArg Prod.fst hobserve) nofun
    | none =>
      obtain rfl := congrArg Prod.snd hobserve
      exact Intake.get?_survey hsurvey (.inr ⟨rfl, hsighted⟩)

end

end Watcher

namespace Lookout

open WatchEvent Watcher

/-- **Healthy patterns are hidden by failed ones that claim their files.** Some pattern was listed
and matches a file, which has a time of modification when it is first sighted. After any surveys,
the next one tells of the file and its time if and only if the survey is not ended and what was
known of the file does not overrule it. If it is overruled, the file keeps the time that was known,
and nothing is told about it. A survey is not ended unless a pattern or a file ends it. -/
theorem tellsOf_iff_not_overrules (watchList : WatchList) (surveys : List Survey) (s : Survey)
    (path : Text) (time : Int) (hsighted : s.sightings.lookup path = some (.modified time)) :
    ((after watchList surveys).watcher.TellsOf s path time ↔
      (∃ events w, (after watchList surveys).watcher.observe s = (.ok events, w)) ∧
        ¬(after watchList surveys).watcher.Overrules s path time) ∧
    (∀ events w, (after watchList surveys).watcher.observe s = (.ok events, w) →
      (after watchList surveys).watcher.Overrules s path time →
      w.snapshot.get? path = (after watchList surveys).watcher.snapshot.get? path ∧
        about path events = []) ∧
    (s.Contained → ∃ events w, (after watchList surveys).watcher.observe s = (.ok events, w)) := by
  generalize (after watchList surveys).watcher = w
  refine ⟨⟨?_, ?_⟩, ?_, exists_observe⟩
  · -- A file that is overruled is known with its old time afterwards.
    rintro ⟨events, w', hobserve, hnow, -⟩
    refine ⟨⟨events, w', hobserve⟩, ?_⟩
    rintro ⟨hclaims, before, hbefore, hne⟩
    rw [get?_of_observe hobserve hsighted, if_pos hclaims, hbefore] at hnow
    exact hne (Option.some.inj hnow)
  · -- A failed pattern that claims the file does no harm if it was unknown or known with the same
    -- time.
    rintro ⟨⟨events, w', hobserve⟩, hfree⟩
    have hnow : w'.snapshot.get? path = some time := by
      rw [get?_of_observe hobserve hsighted]
      split
      · next hclaims =>
        cases hbefore : w.snapshot.get? path with
        | none => rfl
        | some before =>
          have hsame : before = time := by
            by_contra hne
            exact hfree ⟨hclaims, before, hbefore, hne⟩
          rw [hsame, Option.getD_some]
      · rfl
    exact ⟨events, w', hobserve, hnow, (tells_of_observe hobserve).1.about_eq hnow⟩
  · rintro events w' hobserve ⟨hclaims, before, hbefore, -⟩
    have hnow := get?_of_observe hobserve hsighted
    rw [if_pos hclaims, hbefore, Option.getD_some] at hnow
    refine ⟨hnow.trans hbefore.symm, ?_⟩
    rw [(tells_of_observe hobserve).1.about_eq hnow, hbefore, tidings, if_pos rfl]

/-- Two patterns that match the same file, and each of them another one. -/
def overlapping : Survey := [
  ("*.html", .files [("a.html", .modified 1), ("b.html", .modified 1)]),
  ("a*", .files [("a.html", .modified 1), ("ab.css", .modified 1)])]

/-- The pages cannot be listed, and both files that the other pattern matches have changed. -/
def quarrel : Survey := [
  ("*.html", .failed "no access"),
  ("a*", .files [("a.html", .modified 2), ("ab.css", .modified 2)])]

/-- The failed pattern does not claim the stylesheet, so its change is told. -/
theorem quarrel_tellsOf :
    (after ⟨["*.html", "a*"], ⟨.none, []⟩, true⟩ [overlapping]).watcher.TellsOf quarrel
      "ab.css" 2 := by
  refine (tellsOf_iff_not_overrules _ [overlapping] quarrel "ab.css" 2 rfl).1.2 ⟨⟨_, _, rfl⟩, ?_⟩
  rintro ⟨hclaims, -⟩
  revert hclaims
  decide +kernel

/-- **A failed pattern hides the change of a file from a healthy one**, whichever of them comes
first. -/
theorem quarrel_hides :
    quarrel.Contained ∧ quarrel.sightings.lookup (Text.ofString "a.html") = some (.modified 2) ∧
    ¬(after ⟨["*.html", "a*"], ⟨.none, []⟩, true⟩ [overlapping]).watcher.TellsOf
      quarrel "a.html" 2 ∧
    ¬(after ⟨["a*", "*.html"], ⟨.none, []⟩, true⟩ [overlapping.reverse]).watcher.TellsOf
      quarrel.reverse "a.html" 2 := by
  refine ⟨⟨?_, ?_⟩, rfl, ?_, ?_⟩
  · intro pattern e h
    simp [quarrel] at h
  · intro path e h
    simp [quarrel, Survey.sightings, Listing.sightings] at h
  · rintro ⟨events, w, hobserve, hnow, -⟩
    obtain rfl := congrArg Prod.snd hobserve
    revert hnow
    decide +kernel
  · rintro ⟨events, w, hobserve, hnow, -⟩
    obtain rfl := congrArg Prod.snd hobserve
    revert hnow
    decide +kernel

end Lookout

end UtilityCss
