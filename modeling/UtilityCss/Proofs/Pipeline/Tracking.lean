import UtilityCss.Proofs.Pipeline.Rebuild
/-!
# What a pipeline tracks

A pipeline is called again and again: to scan files, to forget them, to rebuild. Between the calls
other programs may do anything to the disk, and every call may fail. What is always true is that the
class names of each tracked file are those of the text that the file had when it was last scanned
with success. The invariant is preserved by every call, so it holds after every run.
-/

namespace UtilityCss

/-! ## Indexes that are up to date -/

namespace UsageIndex

variable {u u' : UsageIndex} {texts : OrderedMap Text Text}

/-- Every tracked file has the class names of its text. -/
def UpToDate (u : UsageIndex) (texts : OrderedMap Text Text) : Prop :=
  ∀ path classes, u.files.get? path = some classes →
    ∃ text, texts.get? path = some text ∧ classes = (ClassAttribute.classNames text).eraseDups

theorem upToDate_empty : empty.UpToDate texts := by
  intro path classes h
  simp [empty, OrderedMap.empty, OrderedMap.get?] at h

theorem UpToDate.replace (h : u.UpToDate texts) (path text : Text) :
    (u.replace path (ClassAttribute.classNames text)).UpToDate (texts.insert path text) := by
  intro path' classes hget
  rw [UsageIndex.replace, OrderedMap.get?_insert] at hget
  rw [OrderedMap.get?_insert]
  split at hget
  · next heq =>
    rw [if_pos heq]
    exact ⟨text, rfl, (Option.some.inj hget).symm⟩
  · next hne =>
    rw [if_neg hne]
    exact h path' classes hget

theorem UpToDate.remove (h : u.UpToDate texts) (path : Text) : (u.remove path).UpToDate texts := by
  intro path' classes hget
  rw [OrderedMap.get?_eq_some_iff] at hget
  exact h path' classes (OrderedMap.get?_eq_some_iff.2 (List.mem_filter.1 hget).1)

/-- The index after the class names of some texts were taken over. -/
def takeOver (u : UsageIndex) (sources : List (Text × Text)) : UsageIndex :=
  sources.foldl (fun u s => u.replace s.1 (ClassAttribute.classNames s.2)) u

theorem UpToDate.takeOver (h : u.UpToDate texts) (sources : List (Text × Text)) :
    (u.takeOver sources).UpToDate (texts.insertMany sources) := by
  unfold UsageIndex.takeOver OrderedMap.insertMany
  induction sources generalizing u texts with
  | nil => exact h
  | cons s sources ih => exact ih (h.replace s.1 s.2)

theorem files_takeOver (u : UsageIndex) (sources : List (Text × Text)) :
    (u.takeOver sources).files =
    u.files.insertMany (sources.map fun s => (s.1, (ClassAttribute.classNames s.2).eraseDups)) := by
  unfold takeOver OrderedMap.insertMany
  rw [List.foldl_map]
  induction sources generalizing u with
  | nil => rfl
  | cons s sources ih => exact ih (u.replace s.1 (ClassAttribute.classNames s.2))

theorem map_fst_distinct (sources : List (Text × Text)) :
    (sources.map fun s => (s.1, (ClassAttribute.classNames s.2).eraseDups)).map Prod.fst =
      sources.map Prod.fst := by
  rw [List.map_map]
  rfl

/-- New files come last, in their order. -/
theorem paths_takeOver {sources : List (Text × Text)}
    (h : (u.paths ++ sources.map Prod.fst).Nodup) :
    (u.takeOver sources).paths = u.paths ++ sources.map Prod.fst := by
  have hkeys := map_fst_distinct sources
  rw [paths, files_takeOver, OrderedMap.keys_insertMany_of_nodup (hkeys ▸ h), hkeys]
  rfl

/-- Nothing is left of texts that were taken over when the same files are scanned again. -/
theorem takeOver_takeOver {sources sources' : List (Text × Text)}
    (h : sources.map Prod.fst = sources'.map Prod.fst) :
    (u.takeOver sources).takeOver sources' = u.takeOver sources' := by
  have hfiles : ((u.takeOver sources).takeOver sources').files = (u.takeOver sources').files := by
    rw [files_takeOver, files_takeOver, files_takeOver, OrderedMap.insertMany_insertMany]
    rw [map_fst_distinct, map_fst_distinct, h]
  exact congrArg UsageIndex.mk hfiles

/-- The class names of an index are determined by its paths and their texts. -/
theorem UpToDate.values_eq (h : u.UpToDate texts) : u.files.values = u.paths.map fun path =>
    (ClassAttribute.classNames ((texts.get? path).getD "")).eraseDups := by
  rw [paths, OrderedMap.keys, List.map_map, OrderedMap.values]
  refine List.map_congr_left fun e he => ?_
  obtain ⟨text, htext, hclasses⟩ := h e.1 e.2 (OrderedMap.get?_eq_some_iff.2 he)
  rw [Function.comp_apply, htext, Option.getD_some, hclasses]

end UsageIndex

/-! ## Calls -/

namespace Workshop

/-- What can be asked of a pipeline. -/
inductive Call where
  | scan (paths : List Text)
  | runPass (paths : List Text)
  | forget (path : Text)
  | removeFile (path : Text)
  | rebuild

/-- A call, and what was done to the disk since the last one. -/
structure Turn where
  change : Disk → Disk
  call : Call

variable {w : Workshop} {v : Vocabulary} {output : OutputSettings} {suppress : Bool}
  {texts : OrderedMap Text Text}

/-- Answers a call. The answer is what a rebuild has done, if the call has come to one. -/
def answer (w : Workshop) : Call → Except Failure (Option RebuildResult) × Workshop
  | .scan paths =>
    let (scans, w) := w.scan paths
    (scans.map fun _ => none, w)
  | .runPass paths =>
    let (result, w) := w.runPass paths
    (result.map some, w)
  | .forget path => (.ok none, (w.forget path).2)
  | .removeFile path => w.removeFile path
  | .rebuild =>
    let (result, w) := w.rebuild
    (result.map some, w)

/-- The texts that a scan takes over: those of all files, or none if a file cannot be read. -/
def scanned (w : Workshop) (paths : List Text) : List (Text × Text) :=
  match (w.readSources paths).1 with
  | .ok sources => sources
  | .error _ => []

/-- The texts that a call takes over. -/
def taken (w : Workshop) : Call → List (Text × Text)
  | .scan paths | .runPass paths => w.scanned paths
  | .forget _ | .removeFile _ | .rebuild => []

/-- The workshop when the disk has been changed. -/
def meanwhile (w : Workshop) (t : Turn) : Workshop := { w with disk := t.change w.disk }

/-- The answer to a turn. -/
def turn (w : Workshop) (t : Turn) : Except Failure (Option RebuildResult) × Workshop :=
  (w.meanwhile t).answer t.call

/-- The workshop after some turns, and the text of each path when it was last scanned with
success. -/
def run (w : Workshop) (texts : OrderedMap Text Text) : List Turn → Workshop × OrderedMap Text Text
  | [] => (w, texts)
  | t :: ts => (w.turn t).2.run (texts.insertMany ((w.meanwhile t).taken t.call)) ts

/-! ## What a call does -/

/-- The texts that were read are those of the paths, in their order. -/
theorem map_fst_readAll {read : Reader} {d : Disk} {paths : List Text}
    {sources : List (Text × Text)}
    (h : (read.readAll d paths).1 = .ok sources) : sources.map Prod.fst = paths := by
  induction paths generalizing d sources with
  | nil =>
    obtain rfl := Except.ok.inj h
    rfl
  | cons path paths ih =>
    rw [Reader.readAll] at h
    dsimp only at h
    split at h
    · simp at h
    · cases hrest : (read.readAll (read path d).2 paths).1 with
      | error e => simp [hrest, Except.map] at h
      | ok rest =>
        rw [hrest] at h
        obtain rfl := Except.ok.inj h
        rw [List.map_cons, ih hrest]

/-- Taking over some texts reports one file after the other. -/
theorem track_foldl (w : Workshop) (sources : List (Text × Text)) :
    (sources.map Scan.ofText).foldl track w =
      { w with
        pipeline := { w.pipeline with index := w.pipeline.index.takeOver sources }
        journal := w.journal ++ sources.map fun s =>
          .event (.fileScanned s.1 (ClassAttribute.classNames s.2).length) } := by
  rw [List.foldl_map]
  unfold UsageIndex.takeOver
  induction sources generalizing w with
  | nil => simp
  | cons s sources ih =>
    rw [List.foldl_cons, ih]
    simp [track, emit, Scan.ofText]

/-- A scan takes over the texts that it reads, or nothing at all. -/
theorem scan_spec (h : w.InOrder v output suppress) (paths : List Text) :
    (w.scan paths).2.InOrder v output suppress ∧
      (w.scan paths).2.pipeline.index = w.pipeline.index.takeOver (w.scanned paths) ∧
      ∀ scans, (w.scan paths).1 = .ok scans → (w.scanned paths).map Prod.fst = paths := by
  have hread : (w.readSources paths).2.InOrder v output suppress := h.onDisk
  have hpaths : ∀ sources, (w.readSources paths).1 = .ok sources →
      sources.map Prod.fst = paths := by
    intro sources hsources
    rw [readSources, onDisk_of_log_eq_none h.log] at hsources
    exact map_fst_readAll hsources
  have hindex : (w.readSources paths).2.pipeline.index = w.pipeline.index := rfl
  unfold scan scanned
  cases hsources : w.readSources paths with
  | mk answer w₁ =>
    rw [hsources] at hread hpaths hindex
    cases answer with
    | error e => exact ⟨hread, hindex, fun scans hok => by simp at hok⟩
    | ok sources =>
      dsimp only at hindex ⊢
      rw [track_foldl, ← hindex]
      exact ⟨⟨hread.log, hread.faithful, hread.vocabulary, hread.output, hread.suppress⟩, rfl,
        fun scans _ => hpaths sources rfl⟩

theorem InOrder.forget (h : w.InOrder v output suppress) (path : Text) :
    (w.forget path).2.InOrder v output suppress :=
  ⟨h.log, h.faithful, h.vocabulary, h.output, h.suppress⟩

theorem InOrder.meanwhile (h : w.InOrder v output suppress) (t : Turn) :
    (w.meanwhile t).InOrder v output suppress :=
  ⟨h.log, h.faithful, h.vocabulary, h.output, h.suppress⟩

/-- A rebuild wrote the rules that the index of a workshop calls for. -/
def Rebuilt (w : Workshop) (output : OutputSettings) : Prop :=
  ∃ (d : Disk) (report : WriteReport),
    d.writeAll (output.render w.pipeline.rules) = (.ok report, w.disk)

/-- Every file holds the rules of the last file at its location. -/
theorem Rebuilt.holds (h : w.Rebuilt output) {file : Path} (hfile : file ∈ output.files) :
    w.disk.locate file = .ok (Disk.destination w.disk.cwd file) ∧
    ∃ q, Disk.lastAt w.disk.cwd output.files (Disk.destination w.disk.cwd file) = some q ∧
      ∃ bytes, Text.Utf8.encode (output.renderText (output.rulesOf w.pipeline.rules q)) =
        .ok bytes ∧ w.disk.content file = .ok bytes := by
  obtain ⟨d, report, hwrite⟩ := h
  rw [OutputSettings.render_eq] at hwrite
  obtain ⟨hkeeps, hfiles⟩ := Disk.writeAll_eq_ok hwrite
  obtain ⟨hlocate, q, bytes, modified, hlast, hbytes, hentry⟩ := hfiles file hfile
  rw [← hkeeps.cwd] at hlocate hlast hentry
  exact ⟨hlocate, q, hlast, bytes, hbytes, Disk.content_of_entryAt hlocate hentry⟩

theorem rebuild_keeps (h : w.InOrder v output suppress) (hindex : w.pipeline.index.UpToDate texts) :
    w.rebuild.2.InOrder v output suppress ∧ w.rebuild.2.pipeline.index.UpToDate texts ∧
      ∀ result, w.rebuild.1.map some = .ok (some result) → w.rebuild.2.Rebuilt output := by
  obtain ⟨horder, hsame, hwritten⟩ := rebuild_spec h
  refine ⟨horder, hsame ▸ hindex, fun result hresult => ?_⟩
  cases hrebuild : w.rebuild.1 with
  | error e => simp [hrebuild, Except.map] at hresult
  | ok result' => exact hwritten result' hrebuild

/-- **What a call does.** Every call keeps the workshop in order and the index up to date, and one
that comes to a successful rebuild has written the rules that the index then calls for. -/
theorem answer_spec (h : w.InOrder v output suppress)
    (hindex : w.pipeline.index.UpToDate texts) (c : Call) :
    (w.answer c).2.InOrder v output suppress ∧
      (w.answer c).2.pipeline.index.UpToDate (texts.insertMany (w.taken c)) ∧
      ∀ result, (w.answer c).1 = .ok (some result) → (w.answer c).2.Rebuilt output := by
  cases c with
  | scan paths =>
    obtain ⟨horder, htaken, -⟩ := scan_spec h paths
    refine ⟨horder, ?_, fun result hresult => ?_⟩
    · rw [answer]
      dsimp only
      rw [htaken]
      exact hindex.takeOver _
    · rw [answer] at hresult
      cases hscan : (w.scan paths).1 <;> simp [hscan, Except.map] at hresult
  | runPass paths =>
    obtain ⟨horder, htaken, -⟩ := scan_spec h paths
    have hscanned := htaken ▸ hindex.takeOver (w.scanned paths)
    -- If the scan fails, no text is taken over and there is no rebuild.
    rw [answer]
    unfold runPass
    cases hscan : w.scan paths with
    | mk scans w₁ =>
      rw [hscan] at horder hscanned
      cases scans with
      | error e => exact ⟨horder, hscanned, fun result hresult => by simp [Except.map] at hresult⟩
      | ok scans => exact rebuild_keeps horder hscanned
  | forget path =>
    exact ⟨h.forget path, hindex.remove path, fun result hresult => by simp [answer] at hresult⟩
  | removeFile path =>
    -- The path is forgotten in any case, and a rebuild follows if it was tracked.
    have horder := h.forget path
    have hremoved : (w.forget path).2.pipeline.index.UpToDate texts := hindex.remove path
    rw [answer]
    unfold removeFile
    cases hforget : w.forget path with
    | mk tracked w₁ =>
      rw [hforget] at horder hremoved
      cases tracked with
      | false => exact ⟨horder, hremoved, fun result hresult => by simp at hresult⟩
      | true => exact rebuild_keeps horder hremoved
  | rebuild => exact rebuild_keeps h hindex

/-- A pass that succeeds has scanned all its files. -/
theorem runPass_eq_ok (h : w.InOrder v output suppress) {paths : List Text} {result : RebuildResult}
    (hok : (w.runPass paths).1 = .ok result) :
    (w.runPass paths).2.pipeline.index = w.pipeline.index.takeOver (w.scanned paths) ∧
      (w.scanned paths).map Prod.fst = paths := by
  obtain ⟨horder, htaken, hpaths⟩ := scan_spec h paths
  unfold runPass at hok ⊢
  cases hscan : w.scan paths with
  | mk scans w₁ =>
    rw [hscan] at horder htaken hpaths hok
    cases scans with
    | error e => simp at hok
    | ok scans => exact ⟨(rebuild_spec horder).2.1.trans htaken, hpaths scans rfl⟩

/-- Every run keeps the workshop in order and the index up to date. -/
theorem run_spec (h : w.InOrder v output suppress) (hindex : w.pipeline.index.UpToDate texts)
    (ts : List Turn) : (w.run texts ts).1.InOrder v output suppress ∧
      (w.run texts ts).1.pipeline.index.UpToDate (w.run texts ts).2 := by
  induction ts generalizing w texts with
  | nil => exact ⟨h, hindex⟩
  | cons t ts ih =>
    obtain ⟨horder, hupdated, -⟩ := answer_spec (h.meanwhile t) hindex t.call
    exact ih horder hupdated

end Workshop

end UtilityCss
