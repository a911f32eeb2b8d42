import Mathlib.Data.Finset.Basic
import Mathlib.Data.Finset.Dedup
import UtilityCss.Proofs.Watch.Sightings
/-!
# Replaying the events of a watcher

Whoever follows the events of a watcher from its first survey on knows at any time which files the
watcher knows. No event is out of place: a file is added only while it is not known, and it changes
or is removed only while it is. Surveys may fail in part or as a whole, patterns may match the same
files, and files may vanish while a survey is taken; all that is lost is accuracy. After a survey
without errors in which no file has vanished, the known files are those that match a pattern.
-/

namespace UtilityCss

/-! ## Events in their order -/

namespace WatchEvent

variable {known : Finset Text} {events : List WatchEvent} {path : Text} {e : WatchEvent}

/-- The known files after an event. -/
def heed (known : Finset Text) (e : WatchEvent) : Finset Text :=
  match e.kind with
  | .added => insert e.path known
  | .removed => known.erase e.path
  | .changed | .error => known

/-- The files that are known after some events: those that were added and not removed since. -/
def replay (events : List WatchEvent) : Finset Text := events.foldl heed ∅

/-- An event is in place if its file was not known before and is added, or was known before and has
changed or is removed. An error is never out of place. -/
def Fits (known : Finset Text) (e : WatchEvent) : Prop :=
  match e.kind with
  | .added => e.path ∉ known
  | .changed | .removed => e.path ∈ known
  | .error => True

/-- Nothing but errors is told about a file. -/
def Silent (path : Text) (events : List WatchEvent) : Prop :=
  ∀ e ∈ events, e.kind = .error ∨ e.path ≠ path

/-- At most one event that is not an error is told about each file. -/
def AtMostOnce (events : List WatchEvent) : Prop :=
  ((events.filter fun e => e.kind ≠ .error).map WatchEvent.path).Nodup

theorem mem_heed_of_silent (h : e.kind = .error ∨ e.path ≠ path) :
    path ∈ heed known e ↔ path ∈ known := by
  unfold heed
  rcases h with hkind | hpath
  · rw [hkind]
  · cases e.kind with
    | added => simp [Ne.symm hpath]
    | removed => simp [Ne.symm hpath]
    | changed => rfl
    | error => rfl

/-- Whether a file is known does not depend on events that are not about it. -/
theorem Silent.mem_foldl_heed (h : Silent path events) :
    path ∈ events.foldl heed known ↔ path ∈ known := by
  induction events generalizing known with
  | nil => rfl
  | cons e events ih =>
    rw [List.foldl_cons, ih fun e' he' => h e' (.tail _ he'), mem_heed_of_silent (h e (.head _))]

theorem replay_append (events more : List WatchEvent) :
    replay (events ++ more) = more.foldl heed (replay events) :=
  List.foldl_append

/-- Beside the one event about a file the others are silent about it. -/
theorem AtMostOnce.silent {front back : List WatchEvent} (h : AtMostOnce (front ++ e :: back))
    (hkind : e.kind ≠ .error) : Silent e.path front ∧ Silent e.path back := by
  unfold AtMostOnce at h
  rw [List.filter_append, List.filter_cons_of_pos (by simpa using hkind), List.map_append,
    List.map_cons, List.nodup_append, List.nodup_cons] at h
  obtain ⟨-, ⟨hback, -⟩, hfront⟩ := h
  have hmem {es : List WatchEvent} {e' : WatchEvent} (he' : e' ∈ es) (hkind' : e'.kind ≠ .error) :
      e'.path ∈ (es.filter fun e => e.kind ≠ .error).map WatchEvent.path :=
    List.mem_map_of_mem (List.mem_filter.2 ⟨he', by simpa using hkind'⟩)
  constructor
  · intro e' he'
    by_cases hkind' : e'.kind = .error
    · exact .inl hkind'
    · exact .inr (hfront _ (hmem he' hkind') _ (.head _))
  · intro e' he'
    by_cases hkind' : e'.kind = .error
    · exact .inl hkind'
    · exact .inr fun hpath => hback (hpath ▸ hmem he' hkind')

end WatchEvent

namespace Watcher

open WatchEvent

variable {known current : OrderedMap Text Int} {path : Text} {e : WatchEvent}

/-! ## The events of one survey -/

/-- What there is to tell about a file, from what was known of it and what is known now. -/
inductive IsNews (known current : OrderedMap Text Int) : WatchEvent → Prop where
  | added {path : Text} (hbefore : path ∉ known.keys) (hnow : path ∈ current.keys) :
      IsNews known current (.added path)
  | changed {path : Text} {before now : Int} (hbefore : known.get? path = some before)
      (hnow : current.get? path = some now) (hne : before ≠ now) :
      IsNews known current (.changed path)
  | removed {path : Text} (hbefore : path ∈ known.keys) (hnow : path ∉ current.keys) :
      IsNews known current (.removed path)

theorem IsNews.kind_ne_error (h : IsNews known current e) : e.kind ≠ .error := by
  cases h <;> nofun

/-- All there is to tell is told, and nothing else. -/
theorem mem_changes : e ∈ changes known current ↔ IsNews known current e := by
  simp only [changes, List.mem_append, List.mem_filterMap, Prod.exists,
    ← OrderedMap.get?_eq_some_iff, List.mem_map, List.mem_filter, Bool.not_eq_true',
    Bool.eq_false_iff, ne_eq, OrderedMap.contains_iff]
  constructor
  · rintro (⟨path, now, hnow, he⟩ | ⟨path, ⟨hbefore, hnow⟩, rfl⟩)
    · cases hbefore : known.get? path with
      | none =>
        rw [hbefore] at he
        obtain rfl := Option.some.inj he
        exact .added (OrderedMap.get?_eq_none_iff.1 hbefore) (OrderedMap.mem_keys_iff.2 ⟨now, hnow⟩)
      | some before =>
        simp only [hbefore] at he
        split at he
        · contradiction
        · next hne =>
          obtain rfl := Option.some.inj he
          exact .changed hbefore hnow hne
    · exact .removed hbefore hnow
  · rintro (⟨hbefore, hnow⟩ | ⟨hbefore, hnow, hne⟩ | ⟨hbefore, hnow⟩)
    · obtain ⟨now, hnow⟩ := OrderedMap.mem_keys_iff.1 hnow
      exact .inl ⟨_, now, hnow, by rw [OrderedMap.get?_eq_none_iff.2 hbefore]⟩
    · exact .inl ⟨_, _, hnow, by simp only [hbefore, if_neg hne]⟩
    · exact .inr ⟨_, ⟨hbefore, hnow⟩, rfl⟩

/-- If exactly the entries with some property have an event, which is about their key, then the
events are about the keys of these entries. -/
theorem map_path_filterMap {f : Text × Int → Option WatchEvent} {p : Text × Int → Bool}
    (h : ∀ entry, (f entry).map WatchEvent.path = if p entry then some entry.1 else none)
    (entries : List (Text × Int)) :
    (entries.filterMap f).map WatchEvent.path = (entries.filter p).map Prod.fst := by
  induction entries with
  | nil => rfl
  | cons entry entries ih =>
    have hentry := h entry
    cases hf : f entry with
    | none =>
      have hp : ¬p entry = true := by
        intro hp
        simp [hf, hp] at hentry
      rw [List.filterMap_cons_none hf, List.filter_cons_of_neg hp, ih]
    | some e =>
      have hp : p entry = true := by
        by_contra hp
        simp [hf, hp] at hentry
      have hpath : e.path = entry.1 := by simpa [hf, hp] using hentry
      rw [List.filterMap_cons_some hf, List.filter_cons_of_pos hp, List.map_cons, List.map_cons, ih,
        hpath]

/-- The files that are told about: those with a new time of modification, and those that are there
no more. -/
theorem map_path_changes (known current : OrderedMap Text Int) :
    (changes known current).map WatchEvent.path =
    (current.entries.filter fun entry => known.get? entry.1 ≠ some entry.2).map Prod.fst ++
      known.keys.filter fun path => !current.contains path := by
  have hremoved (paths : List Text) : (paths.map WatchEvent.removed).map WatchEvent.path =
      paths := by
    simp [Function.comp_def, WatchEvent.removed]
  unfold changes
  rw [List.map_append, hremoved, map_path_filterMap]
  rintro ⟨path, time⟩
  cases hbefore : known.get? path with
  | none => simp [hbefore, WatchEvent.added]
  | some before =>
    by_cases hne : before = time
    · simp [hbefore, hne]
    · simp [hbefore, hne, WatchEvent.changed]

/-- No file is told about twice. -/
theorem nodup_path_changes (known current : OrderedMap Text Int) :
    ((changes known current).map WatchEvent.path).Nodup := by
  rw [map_path_changes, List.nodup_append]
  refine ⟨current.nodup_keys.sublist (List.filter_sublist.map _),
    known.nodup_keys.sublist List.filter_sublist, ?_⟩
  rintro path hseen _ hremoved rfl
  have hnow : path ∈ current.keys := (List.filter_sublist.map _).subset hseen
  simp [OrderedMap.contains_iff.2 hnow] at hremoved

/-- Some events tell what is new, once for each file, and beside that nothing but errors. -/
structure Tells (known current : OrderedMap Text Int) (events : List WatchEvent) : Prop where
  error_or_news : ∀ e ∈ events, e.kind = .error ∨ IsNews known current e
  news : ∀ e, IsNews known current e → e ∈ events
  atMostOnce : AtMostOnce events

theorem tells_append_changes {errors : List WatchEvent} (hkind : ∀ e ∈ errors, e.kind = .error) :
    Tells known current (errors ++ changes known current) where
  error_or_news := by
    intro e he
    rcases List.mem_append.1 he with herror | hchange
    · exact .inl (hkind e herror)
    · exact .inr (mem_changes.1 hchange)
  news := fun e hnews => List.mem_append_right _ (mem_changes.2 hnews)
  atMostOnce := by
    have herrors : (errors.filter fun e => e.kind ≠ .error) = [] := by
      rw [List.filter_eq_nil_iff]
      intro e he
      simp [hkind e he]
    have hchanges : ((changes known current).filter fun e => e.kind ≠ .error) =
        changes known current := by
      rw [List.filter_eq_self]
      intro e he
      simpa using (mem_changes.1 he).kind_ne_error
    rw [AtMostOnce, List.filter_append, herrors, hchanges, List.nil_append]
    exact nodup_path_changes known current

/-- The events of a survey are in place if they are told to someone who knows what the watcher
knew. -/
theorem Tells.fits {front back : List WatchEvent} (h : Tells known current (front ++ e :: back)) :
    e.Fits (front.foldl heed known.keys.toFinset) := by
  rcases h.error_or_news e (List.mem_append_right _ (.head _)) with herror | hnews
  · rw [Fits, herror]
    trivial
  · have hfront : Silent e.path front := (h.atMostOnce.silent hnews.kind_ne_error).1
    cases hnews with
    | added hbefore hnow =>
      have hunknown : _ ∉ known.keys.toFinset := mt List.mem_toFinset.1 hbefore
      exact mt hfront.mem_foldl_heed.1 hunknown
    | changed hbefore hnow hne =>
      have hknown := List.mem_toFinset.2 (OrderedMap.mem_keys_iff.2 ⟨_, hbefore⟩)
      exact hfront.mem_foldl_heed.2 hknown
    | removed hbefore hnow => exact hfront.mem_foldl_heed.2 (List.mem_toFinset.2 hbefore)

/-- Who has known what the watcher knew, and is told the events of a survey, knows what the watcher
knows. -/
theorem Tells.foldl_heed {events : List WatchEvent} (h : Tells known current events) :
    events.foldl heed known.keys.toFinset = current.keys.toFinset := by
  ext path
  rw [List.mem_toFinset]
  by_cases hnews : ∃ e, IsNews known current e ∧ e.path = path
  · -- One event is about the file. It alone decides whether the file is known in the end.
    obtain ⟨e, hnews, rfl⟩ := hnews
    obtain ⟨front, back, rfl⟩ := List.append_of_mem (h.news e hnews)
    obtain ⟨hfront, hback⟩ := h.atMostOnce.silent hnews.kind_ne_error
    rw [List.foldl_append, List.foldl_cons, hback.mem_foldl_heed]
    cases hnews with
    | added hbefore hnow => exact iff_of_true (Finset.mem_insert_self _ _) hnow
    | changed hbefore hnow hne =>
      have hknown := List.mem_toFinset.2 (OrderedMap.mem_keys_iff.2 ⟨_, hbefore⟩)
      exact iff_of_true (hfront.mem_foldl_heed.2 hknown) (OrderedMap.mem_keys_iff.2 ⟨_, hnow⟩)
    | removed hbefore hnow => exact iff_of_false (Finset.notMem_erase _ _) hnow
  · -- Nothing is told about the file, and so it is known if and only if it was known before.
    have hsilent : Silent path events := fun e he =>
      (h.error_or_news e he).imp_right fun hnews' hpath => hnews ⟨e, hnews', hpath⟩
    rw [hsilent.mem_foldl_heed, List.mem_toFinset]
    constructor
    · intro hbefore
      by_contra hnow
      exact hnews ⟨_, .removed hbefore hnow, rfl⟩
    · intro hnow
      by_contra hbefore
      exact hnews ⟨_, .added hbefore hnow, rfl⟩

section

variable {w w' : Watcher} {s : Survey} {events : List WatchEvent}

/-- A survey that is ended leaves the known files as they were. -/
theorem snapshot_of_observe_error {f : Failure} (h : w.observe s = (.error f, w')) :
    w'.snapshot = w.snapshot := by
  unfold observe at h
  split at h
  · exact (congrArg snapshot (congrArg Prod.snd h)).symm
  · exact absurd (congrArg Prod.fst h) nofun

/-- A survey that is not ended tells what is new. Without errors, and if no file was gone at first
sight, the files that are known afterwards are those that were sighted. -/
theorem tells_of_observe (h : w.observe s = (.ok events, w')) :
    Tells w.snapshot w'.snapshot events ∧
      ((∀ e ∈ events, e.kind ≠ .error) → Intake.NoneGone s.sightings →
        ∀ path, s.sightings.lookup path = (w'.snapshot.get? path).map .modified) := by
  obtain ⟨errors, herrors, hkind⟩ := Intake.reports_survey w.snapshot ⟨.empty, w.owners, []⟩ s
  unfold observe at h
  cases hsurvey : (⟨.empty, w.owners, []⟩ : Intake).survey w.snapshot s with
  | mk failure i =>
    rw [hsurvey] at h herrors
    cases failure with
    | some e => exact absurd (congrArg Prod.fst h) nofun
    | none =>
      obtain rfl : i.errors = errors := herrors
      obtain rfl : i.errors ++ changes w.snapshot i.current = events :=
        Except.ok.inj (congrArg Prod.fst h)
      have hsnapshot : i.current = w'.snapshot := congrArg snapshot (congrArg Prod.snd h)
      rw [← hsnapshot]
      refine ⟨tells_append_changes hkind, fun hnone hgone => ?_⟩
      have hnil : i.errors = [] := by
        rw [List.eq_nil_iff_forall_not_mem]
        intro e he
        exact hnone e (List.mem_append_left _ he) (hkind e he)
      have hstart : (⟨.empty, w.owners, []⟩ : Intake).Reflects [] := fun path => rfl
      exact hstart.survey hsurvey hnil hgone

end

end Watcher

/-! ## Runs -/

/-- A watcher with all the events that it has told, in their order. -/
structure Lookout where
  watcher : Watcher
  told : List WatchEvent

namespace Lookout

open WatchEvent Watcher

variable {l : Lookout} {s : Survey}

/-- Takes a survey in. A survey that is ended tells nothing. -/
def take (l : Lookout) (s : Survey) : Lookout :=
  match l.watcher.observe s with
  | (.ok events, w) => ⟨w, l.told ++ events⟩
  | (.error _, w) => ⟨w, l.told⟩

/-- A new watcher after some polls, each of which is given by what it surveys. That may be anything:
the disk may change from poll to poll, and while it is surveyed. -/
def after (watchList : WatchList) (surveys : List Survey) : Lookout :=
  surveys.foldl take ⟨.new watchList, []⟩

/-- All events were in place when they were told, and from all of them the known files can be
told. -/
structure Coherent (l : Lookout) : Prop where
  fits : ∀ front e back, l.told = front ++ e :: back → e.Fits (replay front)
  replay_told : replay l.told = l.watcher.snapshot.keys.toFinset

theorem Coherent.new (watchList : WatchList) : Coherent ⟨.new watchList, []⟩ where
  fits := by
    intro front e back h
    simp at h
  replay_told := rfl

/-- Taking a survey in keeps a lookout coherent, whatever was found. -/
theorem Coherent.take (h : l.Coherent) (s : Survey) : (l.take s).Coherent := by
  unfold Lookout.take
  split
  · next events w hobserve =>
    have htells := (tells_of_observe hobserve).1
    constructor
    · intro front e back hsplit
      -- The event was told before, or it is one of this survey.
      rcases List.append_eq_append_iff.1 hsplit with ⟨since, rfl, rfl⟩ | ⟨rest, htold, hrest⟩
      · rw [replay_append, h.replay_told]
        exact htells.fits
      · cases rest with
        | nil =>
          obtain rfl : e :: back = events := hrest
          obtain rfl : l.told = front := by simpa using htold
          have hfirst : Tells _ _ ([] ++ e :: back) := htells
          rw [h.replay_told]
          exact hfirst.fits
        | cons e' rest =>
          obtain ⟨rfl, -⟩ := List.cons.inj hrest
          exact h.fits front e rest htold
    · rw [replay_append, h.replay_told, htells.foldl_heed]
  · next hobserve =>
    have hsnapshot := snapshot_of_observe_error hobserve
    exact ⟨h.fits, by rw [h.replay_told, hsnapshot]⟩

theorem Coherent.after (watchList : WatchList) (surveys : List Survey) :
    (after watchList surveys).Coherent := by
  unfold Lookout.after
  induction surveys using List.reverseRecOn with
  | nil => exact .new watchList
  | append_singleton surveys s ih =>
    rw [List.foldl_append]
    exact ih.take s

/-- **The events of a watcher replay to what it knows.** After any surveys, every event was in place
when it was told, and the files that were added and not removed since are those that the watcher
knows. The next survey tells at most one event about each file, errors apart. If it tells no error,
and no file is gone when it is first sighted, then the known files are those that match a pattern,
each with the time of modification that it had at first sight, and every file whose time is not the
one known before was told to have changed. -/
theorem told_replays (watchList : WatchList) (surveys : List Survey) :
    (∀ front e back, (after watchList surveys).told = front ++ e :: back → e.Fits (replay front)) ∧
    replay (after watchList surveys).told =
      (after watchList surveys).watcher.snapshot.keys.toFinset ∧
    ∀ s events w, (after watchList surveys).watcher.observe s = (.ok events, w) →
      AtMostOnce events ∧
      ((∀ e ∈ events, e.kind ≠ .error) → Intake.NoneGone s.sightings →
        (∀ path, path ∈ w.snapshot.keys ↔
          ∃ pattern found, (pattern, .files found) ∈ s ∧ path ∈ found.map Prod.fst) ∧
        (∀ path time, w.snapshot.get? path = some time ↔
          s.sightings.lookup path = some (.modified time)) ∧
        ∀ path before time, (after watchList surveys).watcher.snapshot.get? path = some before →
          w.snapshot.get? path = some time → before ≠ time → .changed path ∈ events) := by
  obtain ⟨hfits, hreplay⟩ := Coherent.after watchList surveys
  refine ⟨hfits, hreplay, fun s events w hobserve => ?_⟩
  obtain ⟨htells, hsighted⟩ := tells_of_observe hobserve
  refine ⟨htells.atMostOnce, fun hnone hgone => ?_⟩
  replace hsighted := hsighted hnone hgone
  refine ⟨fun path => ?_, fun path time => ?_, ?_⟩
  · rw [OrderedMap.mem_keys_iff, ← Survey.lookup_sightings_isSome, hsighted, Option.isSome_map,
      Option.isSome_iff_exists]
  · rw [hsighted, Option.map_eq_some_iff]
    simp
  · intro path before time hbefore hnow hne
    exact htells.news _ (.changed hbefore hnow hne)

/-- Two patterns that match the same file. -/
def unrulyWatchList : WatchList := ⟨["*.html", "a*"], ⟨.none, []⟩, true⟩

/-- First both patterns match a file, then one of them cannot be listed, and at last a file vanishes
while the other one changes. -/
def unrulySurveys : List Survey := [
  [("*.html", .files [("a.html", .modified 1), ("b.html", .modified 1)]),
    ("a*", .files [("a.html", .modified 1)])],
  [("*.html", .failed "no access"), ("a*", .files [("a.html", .gone)])],
  [("*.html", .files [("b.html", .gone), ("a.html", .modified 2)]),
    ("a*", .files [("a.html", .modified 3)])]]

/-- The vanished file is there again, and the other one has changed once more. -/
def calmSurvey : Survey := [
  ("*.html", .files [("b.html", .modified 5), ("a.html", .modified 3)]),
  ("a*", .files [("a.html", .modified 3)])]

theorem unruly_replays :
    (WatchEvent.changed "a.html").Fits
      (replay [.added "a.html", .added "b.html", .error "*.html" "*.html: no access"]) ∧
    replay (after unrulyWatchList unrulySurveys).told = {("a.html" : Text)} ∧
    ∃ events w, (after unrulyWatchList unrulySurveys).watcher.observe calmSurvey = (.ok events, w) ∧
      AtMostOnce events ∧ w.snapshot.get? "b.html" = some 5 ∧ .changed "a.html" ∈ events := by
  obtain ⟨hfits, hreplay, hnext⟩ := told_replays unrulyWatchList unrulySurveys
  have htold : (after unrulyWatchList unrulySurveys).told = [.added "a.html", .added "b.html",
      .error "*.html" "*.html: no access"] ++ .changed "a.html" :: [.removed "b.html"] := by
    decide +kernel
  have hgone : Intake.NoneGone calmSurvey.sightings := by
    intro path h
    obtain ⟨front, back, hsplit, -⟩ := List.lookup_eq_some_iff.1 h
    have hmem : (path, .gone) ∈ calmSurvey.sightings := hsplit ▸ List.mem_append_right _ (.head _)
    simp [calmSurvey, Survey.sightings, Listing.sightings] at hmem
  have hsnapshot : (after unrulyWatchList unrulySurveys).watcher.snapshot.keys.toFinset =
      {("a.html" : Text)} := by decide +kernel
  refine ⟨hfits _ _ _ htold, hreplay.trans hsnapshot, _, _, rfl, ?_⟩
  obtain ⟨honce, haccurate⟩ := hnext calmSurvey _ _ rfl
  obtain ⟨-, hknown, hchanged⟩ := haccurate (by decide +kernel) hgone
  refine ⟨honce, (hknown "b.html" 5).2 rfl, hchanged "a.html" 2 3 ?_ ?_ (by decide)⟩
  · decide +kernel
  · decide +kernel

end Lookout

end UtilityCss
