import UtilityCss.Proofs.Pipeline.FromScratch
/-!
# Scanning all or nothing

The files of a scan are read at the same time, and the readings come to their ends in any order.
Nothing is taken over before the last of them has ended. Then the first failure in the order of the
paths is the answer, or else the texts are taken over in the order of the paths. So the order of the
ends does not show, but in what the readings themselves find.
-/

namespace UtilityCss

/-! ## Readings that end in any order -/

/-- A file that is being read, and what came of it once the reading has ended. -/
structure Reading where
  path : Text
  outcome : Option (Except DiskError Text)
  deriving DecidableEq

namespace Reading

variable {readings : List Reading}

/-- A reading that has not ended. -/
def started (path : Text) : Reading := ⟨path, none⟩

/-- A reading that has ended. -/
def ended (source : Text × Except DiskError Text) : Reading := ⟨source.1, some source.2⟩

theorem ended_injective : Function.Injective ended := by
  rintro ⟨path, outcome⟩ ⟨path', outcome'⟩ h
  obtain ⟨hpath, houtcome⟩ := Reading.mk.inj h
  exact Prod.ext hpath (Option.some.inj houtcome)

/-- The outcomes of readings that have all ended. -/
def outcomes? (readings : List Reading) : Option (List (Text × Except DiskError Text)) :=
  readings.mapM fun r => r.outcome.map (r.path, ·)

/-- The texts that were read, or the first failure. -/
def gather : List (Text × Except DiskError Text) → Except Failure (List (Text × Text))
  | [] => .ok []
  | (_, .error e) :: _ => .error (.disk e)
  | (path, .ok text) :: rest => (gather rest).map ((path, text) :: ·)

/-- The reading at a place has ended. -/
def EndedAt (readings : List Reading) (place : Nat) : Prop :=
  ∃ source, readings[place]? = some (.ended source)

/-- When the reading at every place has ended, each has an outcome. -/
theorem exists_ended (h : ∀ place < readings.length, EndedAt readings place) :
    ∃ sources : List (Text × Except DiskError Text), readings = sources.map .ended := by
  induction readings with
  | nil => exact ⟨[], rfl⟩
  | cons r readings ih =>
    obtain ⟨source, hsource⟩ := h 0 (Nat.zero_lt_succ _)
    obtain ⟨sources, rfl⟩ := ih fun place hlt => h (place + 1) (Nat.succ_lt_succ hlt)
    obtain rfl : r = .ended source := by simpa using hsource
    exact ⟨source :: sources, rfl⟩

end Reading

namespace Reader

/-- The reading at a place comes to its end, if it has not ended before. -/
def finish (read : Reader) (s : List Reading × Disk) (place : Nat) : List Reading × Disk :=
  match s.1[place]? with
  | some ⟨path, none⟩ =>
    let (outcome, d) := read path s.2
    (s.1.set place ⟨path, some outcome⟩, d)
  | _ => s

/-- Readings come to their ends in the order of some places. -/
def finishAll (read : Reader) (readings : List Reading) (d : Disk) (order : List Nat) :
    List Reading × Disk :=
  order.foldl read.finish (readings, d)

/-- **One end**: the paths stay, what has ended stays ended, and the reading at the place has
ended. -/
theorem finish_spec (read : Reader) (s : List Reading × Disk) (place : Nat) :
    (read.finish s place).1.map Reading.path = s.1.map Reading.path ∧
      (∀ place', Reading.EndedAt s.1 place' → Reading.EndedAt (read.finish s place).1 place') ∧
      (place < s.1.length → Reading.EndedAt (read.finish s place).1 place) := by
  unfold finish
  split
  · next path hstarted =>
    obtain ⟨hlt, hpath⟩ := List.getElem?_eq_some_iff.1 hstarted
    refine ⟨?_, fun place' hended => ?_,
      fun _ => ⟨(path, (read path s.2).1), by simp [hlt, Reading.ended]⟩⟩
    · have hlt' : place < (s.1.map Reading.path).length := by simpa using hlt
      have hsame : (s.1.map Reading.path)[place] = path := by rw [List.getElem_map, hpath]
      dsimp only
      rw [List.map_set, ← hsame, List.set_getElem_self]
    · -- What has ended is at another place, since the reading at this one has not.
      obtain ⟨source, hsource⟩ := hended
      have hne : place ≠ place' := by
        rintro rfl
        simp [hstarted, Reading.ended] at hsource
      exact ⟨source, by rw [List.getElem?_set_ne hne, hsource]⟩
  · next hother =>
    refine ⟨rfl, fun _ hended => hended, fun hlt => ?_⟩
    cases hreading : s.1[place] with
    | mk path outcome =>
      cases outcome with
      | none => exact absurd (List.getElem?_eq_some_iff.2 ⟨hlt, hreading⟩) (hother path)
      | some outcome => exact ⟨(path, outcome), List.getElem?_eq_some_iff.2 ⟨hlt, hreading⟩⟩

/-- **All ends**: the paths stay, and the reading at every place of the order has ended. -/
theorem finishAll_spec (read : Reader) (readings : List Reading) (d : Disk) (order : List Nat) :
    (read.finishAll readings d order).1.map Reading.path = readings.map Reading.path ∧
      ∀ place < readings.length, Reading.EndedAt readings place ∨ place ∈ order →
        Reading.EndedAt (read.finishAll readings d order).1 place := by
  unfold finishAll
  induction order generalizing readings d with
  | nil => exact ⟨rfl, fun place _ h => h.resolve_right List.not_mem_nil⟩
  | cons place order ih =>
    obtain ⟨hpaths, hstays, hends⟩ := finish_spec read (readings, d) place
    obtain ⟨hpaths', hends'⟩ :=
      ih (read.finish (readings, d) place).1 (read.finish (readings, d) place).2
    have hlength : (read.finish (readings, d) place).1.length = readings.length := by
      simpa using congrArg List.length hpaths
    refine ⟨hpaths'.trans hpaths, fun place' hlt h => hends' place' (hlength ▸ hlt) ?_⟩
    rcases h with hended | hmem
    · exact .inl (hstays place' hended)
    · rcases List.mem_cons.1 hmem with rfl | hmem
      · exact .inl (hends hlt)
      · exact .inr hmem

/-- When the readings end in the order of the paths, what they find is what is found one after the
other. -/
theorem finishAll_range (read : Reader) (done : List Reading) (d : Disk) (paths : List Text) :
    ∃ sources : List (Text × Except DiskError Text),
      read.finishAll (done ++ paths.map .started) d (List.range' done.length paths.length) =
        (done ++ sources.map .ended, (read.readAll d paths).2) ∧
      Reading.gather sources = (read.readAll d paths).1 := by
  -- The readings that have ended gather in front, so that the next place is their number.
  induction paths generalizing done d with
  | nil => exact ⟨[], rfl, rfl⟩
  | cons path paths ih =>
    cases hread : read path d with
    | mk outcome d' =>
      obtain ⟨sources, hfinish, hgather⟩ := ih (done ++ [.ended (path, outcome)]) d'
      have hfirst : read.finish (done ++ (path :: paths).map .started, d) done.length =
          (done ++ [.ended (path, outcome)] ++ paths.map .started, d') := by
        simp [finish, Reading.started, Reading.ended, hread]
      refine ⟨(path, outcome) :: sources, ?_, ?_⟩
      · rw [List.length_cons, List.range'_succ]
        rw [List.length_append, List.length_singleton] at hfinish
        unfold finishAll at hfinish ⊢
        rw [List.foldl_cons, hfirst, hfinish, readAll, hread]
        cases outcome <;> simp
      · rw [readAll, hread]
        cases outcome with
        | error e => rfl
        | ok text => rw [Reading.gather, hgather]

end Reader

namespace Reading

theorem outcomes?_map_ended (sources : List (Text × Except DiskError Text)) :
    outcomes? (sources.map ended) = some sources := by
  induction sources with
  | nil => rfl
  | cons source sources ih =>
    rw [outcomes?] at ih ⊢
    simp [List.mapM_cons, ih, ended]

theorem gather_of_failed {before rest : List (Text × Except DiskError Text)} {path : Text}
    {e : DiskError} (h : ∀ source ∈ before, source.2.isOk) :
    gather (before ++ (path, .error e) :: rest) = .error (.disk e) := by
  induction before with
  | nil => rfl
  | cons source before ih =>
    obtain ⟨path', outcome⟩ := source
    cases outcome with
    | error e' => simp [Except.isOk, Except.toBool] at h
    | ok text =>
      rw [List.cons_append, gather, ih fun s hs => h s (.tail _ hs)]
      rfl

theorem gather_of_ok (texts : List (Text × Text)) :
    gather (texts.map fun s => (s.1, .ok s.2)) = .ok texts := by
  induction texts with
  | nil => rfl
  | cons s texts ih =>
    rw [List.map_cons, gather, ih]
    rfl

end Reading

theorem ClassAttribute.nodup_classNames (content : Text) : (classNames content).Nodup :=
  nodup_eraseDups _

/-! ## Scans -/

namespace Workshop

variable {w : Workshop} {paths : List Text} {order : List Nat} {texts : List (Text × Text)}

/-- Reads files all at the same time. The readings come to their ends in the order of some
places. -/
def readInOrder (w : Workshop) (paths : List Text) (order : List Nat) : List Reading × Workshop :=
  w.onDisk (w.pipeline.reader.finishAll (paths.map .started) · order)

/-- Scans files whose readings come to their ends in the order of some places. There is no answer as
long as a reading has not ended. -/
def scanInOrder (w : Workshop) (paths : List Text) (order : List Nat) :
    Option (Except Failure (OrderedMap Text (List Text)) × Workshop) :=
  let (readings, w) := w.readInOrder paths order
  (Reading.outcomes? readings).map fun sources =>
    match Reading.gather sources with
    | .error e => (.error e, w)
    | .ok texts => (.ok (.ofList (texts.map Scan.ofText)), (texts.map Scan.ofText).foldl track w)

/-- Some texts were taken over, and nothing else was done. -/
structure Merged (w w' : Workshop) (texts : List (Text × Text)) : Prop where
  /-- Every text has replaced the class names of its path, one text after the other. -/
  index : w'.pipeline = { w.pipeline with index := w.pipeline.index.takeOver texts }
  /-- Known paths keep their places, and new ones come last in the order in which they first
  occur. -/
  paths : w'.pipeline.index.paths = w.pipeline.index.paths ++
    ((texts.map Prod.fst).filter (· ∉ w.pipeline.index.paths)).eraseDups
  /-- The last text of a path counts. -/
  latest : ∀ before path text after, texts = before ++ (path, text) :: after →
    path ∉ after.map Prod.fst →
    w'.pipeline.index.files.get? path = some (ClassAttribute.classNames text)
  untouched : ∀ path ∉ texts.map Prod.fst,
    w'.pipeline.index.files.get? path = w.pipeline.index.files.get? path
  /-- Every text is reported in its place, with the number of its class names. -/
  journal : w'.journal = w.journal ++ texts.map fun s =>
    .event (.fileScanned s.1 (ClassAttribute.classNames s.2).length)
  /-- The class names that are counted are the different words of the attributes. -/
  counted : ∀ s ∈ texts, (ClassAttribute.classNames s.2).Nodup ∧
    ∀ name, name ∈ ClassAttribute.classNames s.2 ↔
      ∃ value ∈ ClassAttribute.values s.2.toList, ∃ word ∈ Text.words value, Text.ofList word = name

theorem merged_foldl_track (w : Workshop) (texts : List (Text × Text)) :
    w.Merged ((texts.map Scan.ofText).foldl track w) texts := by
  rw [track_foldl]
  refine ⟨rfl, ?_, fun before path text after htexts hlast => ?_, fun path hpath => ?_, rfl,
    fun s _ => ⟨ClassAttribute.nodup_classNames s.2, fun _ => ClassAttribute.mem_classNames⟩⟩
  · dsimp only
    rw [UsageIndex.paths, UsageIndex.files_takeOver, OrderedMap.keys_insertMany,
      UsageIndex.map_fst_distinct]
    rfl
  · dsimp only
    rw [UsageIndex.files_takeOver, htexts, List.map_append, List.map_cons,
      OrderedMap.get?_insertMany_of_last (by rwa [UsageIndex.map_fst_distinct]),
      eraseDups_of_nodup (ClassAttribute.nodup_classNames text)]
  · dsimp only
    rw [UsageIndex.files_takeOver,
      OrderedMap.get?_insertMany_of_not_mem (by rwa [UsageIndex.map_fst_distinct])]

theorem Merged.congr {w₁ w' : Workshop} (h : w₁.Merged w' texts)
    (hpipeline : w₁.pipeline = w.pipeline)
    (hjournal : w₁.journal = w.journal) : w.Merged w' texts := by
  obtain ⟨index, paths, latest, untouched, journal, counted⟩ := h
  rw [hpipeline] at index paths untouched
  rw [hjournal] at journal
  exact ⟨index, paths, latest, untouched, journal, counted⟩

/-- In whatever order, all readings come to their ends, and the pipeline and the journal are as they
were. -/
theorem readInOrder_spec (horder : order.Perm (List.range paths.length)) :
    ∃ sources : List (Text × Except DiskError Text), (w.readInOrder paths order).1 =
      sources.map .ended ∧
      sources.map Prod.fst = paths ∧ (w.readInOrder paths order).2.pipeline = w.pipeline ∧
      (w.readInOrder paths order).2.journal = w.journal := by
  obtain ⟨hpaths, hends⟩ :=
    w.pipeline.reader.finishAll_spec (paths.map .started) w.toWorkbench.settle.disk order
  have hmap : (w.readInOrder paths order).1.map Reading.path = paths :=
    hpaths.trans (List.map_map.trans (List.map_id _))
  have hlength : (w.readInOrder paths order).1.length = paths.length := by
    simpa using congrArg List.length hmap
  have hended : ∀ place < (w.readInOrder paths order).1.length,
      Reading.EndedAt (w.readInOrder paths order).1 place := fun place hlt =>
    hends place (by simpa [hlength] using hlt)
      (.inr (horder.mem_iff.2 (List.mem_range.2 (hlength ▸ hlt))))
  obtain ⟨sources, hsources⟩ := Reading.exists_ended hended
  rw [hsources, List.map_map] at hmap
  exact ⟨sources, hsources, hmap, rfl, Workbench.settle_journal _⟩

/-- Files that are read one after the other are files whose readings end in the order of the
paths. -/
theorem scanInOrder_range (w : Workshop) (paths : List Text) :
    w.scanInOrder paths (List.range paths.length) = some (w.scan paths) := by
  obtain ⟨sources, hfinish, hgather⟩ :=
    w.pipeline.reader.finishAll_range [] w.toWorkbench.settle.disk paths
  have hread : w.readInOrder paths (List.range paths.length) =
      (sources.map .ended, (w.readSources paths).2) := by
    unfold readInOrder readSources onDisk Workbench.onDisk
    rw [List.range_eq_range']
    dsimp only
    rw [List.nil_append, List.length_nil] at hfinish
    rw [hfinish, List.nil_append]
  have hanswer : Reading.gather sources = (w.readSources paths).1 := hgather
  unfold scanInOrder scan
  rw [hread]
  dsimp only
  rw [Reading.outcomes?_map_ended, Option.map_some, hanswer]
  cases w.readSources paths with
  | mk answer w₁ => cases answer <;> rfl

/-- **A scan is all or nothing.** In whatever order the readings come to their ends, there is an
answer. It is the failure of the first path that could not be read, and then nothing was taken over
or reported; or all texts were read and taken over in the order of the paths. -/
theorem scan_all_or_nothing (w : Workshop) (paths : List Text) :
    w.scanInOrder paths (List.range paths.length) = some (w.scan paths) ∧
    ∀ order : List Nat, order.Perm (List.range paths.length) →
      ∃ (sources : List (Text × Except DiskError Text)) (answer :
        Except Failure (OrderedMap Text (List Text))) (w' : Workshop),
        (w.readInOrder paths order).1 = sources.map .ended ∧ sources.map Prod.fst = paths ∧
        w.scanInOrder paths order = some (answer, w') ∧
        (∀ before path e rest, sources = before ++ (path, .error e) :: rest →
          (∀ source ∈ before, source.2.isOk) →
          answer = .error (.disk e) ∧ w'.pipeline = w.pipeline ∧ w'.journal = w.journal) ∧
        ∀ texts : List (Text × Text), sources = texts.map (fun s => (s.1, .ok s.2)) →
          answer = .ok (.ofList (texts.map Scan.ofText)) ∧ w.Merged w' texts := by
  refine ⟨scanInOrder_range w paths, fun order horder => ?_⟩
  obtain ⟨sources, hsources, hpaths, hpipeline, hjournal⟩ := readInOrder_spec (w := w) horder
  have hscan : w.scanInOrder paths order = some (match Reading.gather sources with
      | .error e => (.error e, (w.readInOrder paths order).2)
      | .ok texts => (.ok (.ofList (texts.map Scan.ofText)),
          (texts.map Scan.ofText).foldl track (w.readInOrder paths order).2)) := by
    unfold scanInOrder
    dsimp only
    rw [hsources, Reading.outcomes?_map_ended, Option.map_some]
  refine ⟨sources, _, _, hsources, hpaths, hscan, fun before path e rest hfailed hbefore => ?_,
    fun texts htexts => ?_⟩
  · rw [hfailed, Reading.gather_of_failed hbefore]
    exact ⟨rfl, hpipeline, hjournal⟩
  · rw [htexts, Reading.gather_of_ok]
    exact ⟨rfl, (merged_foldl_track _ texts).congr hpipeline hjournal⟩

/-- A workshop that has scanned one of two pages, before its text changed. -/
def halfScanned : Workshop :=
  .new { Pipeline.new History.marginVocabulary History.siteOutput [] true 8 with
    index := ⟨.ofList [("side.html", ["m-2"])]⟩ } History.siteDisk

/-- The pages of the site with their texts, one page twice. -/
def pageTexts : List (Text × Text) :=
  [("page.html", "class=\"m-4\""), ("side.html", "class=\"m-8 m-4\""),
    ("page.html", "class=\"m-4\"")]

/-- What comes of the readings of a page and of two that are missing. -/
def missingPages : List (Text × Except DiskError Text) :=
  [("page.html", .ok "class=\"m-4\""),
    ("gone.html", .error (.path .notFound (Path.ofText "gone.html"))),
    ("lost.html", .error (.path .notFound (Path.ofText "lost.html")))]

/-- Of two missing pages the first one is named, also when the reading of the other one ends before;
and of pages that are all there, the known one keeps its place. -/
theorem halfScanned_scans :
    (∃ w', halfScanned.scanInOrder (missingPages.map Prod.fst) [2, 0, 1] =
        some (.error (.disk (.path .notFound (Path.ofText "gone.html"))), w') ∧
      w'.pipeline = halfScanned.pipeline ∧ w'.journal = []) ∧
    ∃ answer w', halfScanned.scanInOrder (pageTexts.map Prod.fst) [2, 1, 0] =
      some (.ok answer, w') ∧ w'.pipeline.index.paths = ["side.html", "page.html"] ∧
      w'.pipeline.index.classesFor "side.html" = ["m-8", "m-4"] ∧
      w'.journal = [.event (.fileScanned "page.html" 1), .event (.fileScanned "side.html" 2),
        .event (.fileScanned "page.html" 1)] := by
  constructor
  · obtain ⟨sources, answer, w', hread, -, hscan, hfailed, -⟩ :=
      (scan_all_or_nothing halfScanned (missingPages.map Prod.fst)).2 [2, 0, 1] (by decide)
    obtain rfl : sources = missingPages :=
      List.map_injective_iff.2 Reading.ended_injective (hread.symm.trans (by decide +kernel))
    obtain ⟨rfl, hpipeline, hjournal⟩ :=
      hfailed [("page.html", .ok "class=\"m-4\"")] _ _ _ rfl (by decide)
    exact ⟨w', hscan, hpipeline, hjournal⟩
  · obtain ⟨sources, answer, w', hread, -, hscan, -, hmerged⟩ :=
      (scan_all_or_nothing halfScanned (pageTexts.map Prod.fst)).2 [2, 1, 0] (by decide)
    obtain rfl : sources = pageTexts.map fun s => (s.1, .ok s.2) :=
      List.map_injective_iff.2 Reading.ended_injective (hread.symm.trans (by decide +kernel))
    obtain ⟨rfl, hw'⟩ := hmerged pageTexts rfl
    have hside :=
      hw'.latest [("page.html", "class=\"m-4\"")] "side.html" "class=\"m-8 m-4\"" _ rfl (by decide)
    have hcounts : pageTexts.map (fun s => (ClassAttribute.classNames s.2).length) = [1, 2, 1] := by
      decide +kernel
    refine ⟨_, w', hscan, hw'.paths.trans (by decide +kernel), ?_, hw'.journal.trans ?_⟩
    · rw [UsageIndex.classesFor, hside]
      decide +kernel
    · exact congrArg
        (List.zipWith (fun path (count : Nat) => JournalEntry.event (.fileScanned path count))
        ["page.html", "side.html", "page.html"]) hcounts

end Workshop

end UtilityCss
