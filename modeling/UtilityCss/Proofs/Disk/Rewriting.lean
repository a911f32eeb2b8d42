import UtilityCss.Proofs.Answers
import UtilityCss.Proofs.Disk.Writing
/-!
# Writing files again

A directory that was made can be found. So when some files were written and nothing has happened
since, the way to each of them is there, and if each of them also holds its own text, then writing
all of them again writes nothing. Each of them holds its own text exactly if no two of them with
different bytes lead to one location.
-/

namespace UtilityCss.Disk

variable {d d₁ d' : Disk} {p : Path} {l k : Location} {files : List Path} {g : Path → Text}

/-! ## Directories that were made -/

/-- The operating system takes the path. -/
def Takes (p : Path) : Prop := ∃ bytes, systemName p.text = .ok bytes ∧ bytes.length ≤ maxPathSize

theorem locate_of_takes (h : Takes p) :
    d.locate p = (d.follow (d.origin p) p.parts).mapError fun problem => .path problem p := by
  obtain ⟨bytes, hbytes, hsize⟩ := h
  simp only [locate, hbytes, if_neg (Nat.not_lt.2 hsize)]

theorem takes_of_locate_eq_ok (h : d.locate p = .ok l) : Takes p := by
  unfold locate at h
  split at h
  · contradiction
  · next bytes hbytes =>
    split at h
    · contradiction
    · next hsize => exact ⟨bytes, hbytes, Nat.not_lt.1 hsize⟩

/-- If something is missing on the way, then the operating system has taken the path. -/
theorem takes_of_isNotFound {e : DiskError} (h : d.locate p = .error e)
    (hmissing : e.isNotFound = true) : Takes p := by
  unfold locate at h
  split at h
  · next e' hencode =>
    obtain rfl := Except.error.inj h
    unfold systemName at hencode
    split at hencode
    · obtain rfl := Except.error.inj hencode
      contradiction
    · split at hencode
      · obtain rfl := Except.error.inj hencode
        contradiction
      · contradiction
  · next bytes hbytes =>
    split at h
    · obtain rfl := Except.error.inj h
      contradiction
    · next hsize => exact ⟨bytes, hbytes, Nat.not_lt.1 hsize⟩

theorem locate_eq_ok_iff (h : Takes p) :
    d.locate p = .ok l ↔ d.follow (d.origin p) p.parts = .ok l := by
  rw [locate_of_takes h, mapError_eq_ok]

theorem follow_append {parts more : List Text} (h : d.follow l parts = .ok k) :
    d.follow l (parts ++ more) = d.follow k more := by
  induction parts generalizing l with
  | nil => rw [List.nil_append, Except.ok.inj h]
  | cons part parts ih =>
    rw [List.cons_append]
    rw [follow] at h ⊢
    split at h
    · dsimp only at h ⊢
      split at h
      · contradiction
      · next hsize => rw [if_neg hsize, ih h]
    · contradiction
    · contradiction

/-- Below a directory that can be found, a path is found by its last component. -/
theorem locate_of_parent (htakes : Takes p) (hparts : p.parts ≠ [])
    (habove : d.locate p.parent = .ok k)
    (hname : d.follow k [p.name] = .ok l) : d.locate p = .ok l := by
  have hsplit : p.parts = p.parent.parts ++ [p.name] := by
    rw [Path.parent, Path.name, List.getLast?_eq_some_getLast hparts, Option.getD_some,
      List.dropLast_concat_getLast hparts]
  have hfollow := (locate_eq_ok_iff (takes_of_locate_eq_ok habove)).1 habove
  rw [locate_eq_ok_iff htakes, hsplit]
  exact (follow_append hfollow).trans hname

theorem ensureFolderAt_eq_ok (h : d.ensureFolderAt l p = .ok d') : d'.entryAt l = some .folder := by
  unfold ensureFolderAt at h
  split at h
  · next hnone =>
    obtain rfl := Except.ok.inj h
    have hroot : l.isRoot = false := not_isRoot_of_entryAt_ne (d := d) (by simp [hnone])
    rw [entryAt_place hroot, if_pos rfl]
  · next hfolder =>
    obtain rfl := Except.ok.inj h
    exact hfolder
  · contradiction

/-- The path of a directory that was made leads to it. -/
theorem ensureFoldersWithin_eq_ok {levels : Nat}
    (h : d.ensureFoldersWithin p levels = (.ok l, d')) :
    d'.locate p = .ok l ∧ d'.entryAt l = some .folder := by
  induction levels generalizing p d' l with
  | zero => simp [ensureFoldersWithin] at h
  | succ levels ih =>
    rw [ensureFoldersWithin] at h
    dsimp only at h
    split at h
    · next l' hlocate =>
      split at h
      · next d₁ hfolder =>
        obtain ⟨hl, rfl⟩ := Prod.mk.inj h
        obtain rfl := Except.ok.inj hl
        have hkeeps : Keeps d d₁ fun _ => False := keeps_ensureFolderAt hfolder
        exact ⟨hkeeps.locate hlocate, ensureFolderAt_eq_ok hfolder⟩
      · simp at h
    · next e hmissing =>
      split at h
      · next hcondition =>
        rw [Bool.and_eq_true, Bool.not_eq_true', List.isEmpty_eq_false_iff] at hcondition
        split at h
        · simp at h
        next above d₁ habove =>
        split at h
        · simp at h
        next l' hname =>
        split at h
        · next d₂ hfolder =>
          -- The directory above was found by induction, and this one is found below it.
          obtain ⟨hl, rfl⟩ := Prod.mk.inj h
          obtain rfl := Except.ok.inj hl
          have htakes : Takes p := takes_of_isNotFound hmissing hcondition.1
          have hlocate : d₁.locate p = .ok l' :=
            locate_of_parent htakes hcondition.2 (ih habove).1 hname
          have hkeeps : Keeps d₁ d₂ fun _ => False := keeps_ensureFolderAt hfolder
          exact ⟨hkeeps.locate hlocate, ensureFolderAt_eq_ok hfolder⟩
        · simp at h
      · simp at h

/-- A path leads to a directory. -/
def HasFolder (d : Disk) (p : Path) : Prop := ∃ l, d.locate p = .ok l ∧ d.entryAt l = some .folder

theorem HasFolder.keeps {changed : Location → Prop} (h : d.HasFolder p)
    (hkeeps : Keeps d d' changed) : d'.HasFolder p := by
  obtain ⟨l, hlocate, hfolder⟩ := h
  exact ⟨l, hkeeps.locate hlocate, hkeeps.folder l hfolder⟩

theorem hasFolder_of_ensureFolders (h : d.ensureFolders p = (.ok ⟨⟩, d')) : d'.HasFolder p := by
  unfold ensureFolders at h
  split at h
  · simp at h
  · next d₁ _ =>
    unfold makeFolders at h
    cases hmade : d₁.ensureFoldersWithin p maxMissingFolders with
    | mk answer d₂ =>
      rw [hmade] at h
      cases answer with
      | error e => simp [Except.map] at h
      | ok l =>
        obtain rfl : d₂ = d' := congrArg Prod.snd h
        exact ⟨l, ensureFoldersWithin_eq_ok hmade⟩

/-- When a file was written, the directory above it is there. -/
theorem hasFolder_of_writeIfChanged {text : Text} {b : Bool}
    (h : d.writeIfChanged p text = (.ok b, d')) : d'.HasFolder p.parent := by
  unfold writeIfChanged at h
  split at h
  · simp at h
  next bytes _ =>
  split at h
  · simp at h
  next d₁ hfolder =>
  split at h
  · simp at h
  next current d₂ hcurrent =>
  have hread : Keeps d₁ (d₁.currentBytes p).2 fun _ => False := keeps_currentBytes
  rw [hcurrent] at hread
  have hthere : d₂.HasFolder p.parent := (hasFolder_of_ensureFolders hfolder).keeps hread
  split at h
  · obtain ⟨-, rfl⟩ := Prod.mk.inj h
    exact hthere
  · split at h
    · simp at h
    · next d₃ hwrite =>
      obtain ⟨-, rfl⟩ := Prod.mk.inj h
      obtain ⟨l, modified, -, -, hkeeps⟩ := writeBytes_eq_ok hwrite
      exact hthere.keeps hkeeps

theorem hasFolder_of_writeAll {report : WriteReport}
    (h : d.writeAll (files.map fun f => (f, g f)) = (.ok report, d')) :
    ∀ f ∈ files, d'.HasFolder f.parent := by
  induction files generalizing d report with
  | nil => simp
  | cons f files ih =>
    rw [List.map_cons, writeAll] at h
    split at h
    · simp at h
    next b d₁ hfirst =>
    split at h
    · simp at h
    next rest d₂ hrest =>
    obtain ⟨-, rfl⟩ := Prod.mk.inj h
    obtain ⟨hkeeps, -⟩ := writeAll_eq_ok hrest
    exact List.forall_mem_cons.2 ⟨(hasFolder_of_writeIfChanged hfirst).keeps hkeeps, ih hrest⟩

/-! ## Files that hold their texts -/

/-- A file holds a text and nothing else. -/
def Holds (d : Disk) (p : Path) (text : Text) : Prop :=
  ∃ bytes, Text.Utf8.encode text = .ok bytes ∧ d.content p = .ok bytes

/-- After some files were written, each of them holds its own text if and only if all that lead to
one location have the same bytes. -/
theorem forall_holds_iff {report : WriteReport}
    (h : d.writeAll (files.map fun f => (f, g f)) = (.ok report, d')) :
    (∀ f ∈ files, d'.Holds f (g f)) ↔ ∀ f ∈ files, ∀ f' ∈ files, d'.locate f = d'.locate f' →
      Text.Utf8.encode (g f) = Text.Utf8.encode (g f') := by
  obtain ⟨-, hwritten⟩ := writeAll_eq_ok h
  constructor
  · intro hholds f hf f' hf' hsame
    obtain ⟨bytes, hbytes, hcontent⟩ := hholds f hf
    obtain ⟨bytes', hbytes', hcontent'⟩ := hholds f' hf'
    obtain ⟨l, modified, hlocate, hentry⟩ := content_eq_ok hcontent
    have hcontent'' : d'.content f' = .ok bytes := content_of_entryAt (hsame ▸ hlocate) hentry
    rw [hbytes, hbytes', Except.ok.inj (hcontent''.symm.trans hcontent')]
  · intro hsame f hf
    -- The file holds what was written last at its location, which is its own text.
    obtain ⟨hlocate, q, bytes, modified, hlast, hbytes, hentry⟩ := hwritten f hf
    obtain ⟨hq, hdestination⟩ := lastAt_eq_some hlast
    have hlocate' : d'.locate f = d'.locate q := by rw [hlocate, (hwritten q hq).1, hdestination]
    exact ⟨bytes, (hsame f hf q hq hlocate').trans hbytes, content_of_entryAt hlocate hentry⟩

theorem access_of_no_outages (h : d.outages = []) : d.access = (.ok ⟨⟩, d) := by
  simp only [access, h]

theorem ensureFolders_of_hasFolder (hcalm : d.outages = []) (h : d.HasFolder p) :
    d.ensureFolders p = (.ok ⟨⟩, d) := by
  obtain ⟨l, hlocate, hfolder⟩ := h
  have hmade : d.ensureFoldersWithin p maxMissingFolders = (.ok l, d) := by
    have hlevels : maxMissingFolders = 984 + 1 := rfl
    rw [hlevels, ensureFoldersWithin]
    simp only [hlocate, ensureFolderAt, hfolder]
  unfold ensureFolders makeFolders
  rw [access_of_no_outages hcalm]
  simp only [hmade, Except.map]

/-- A file that holds its text already is left alone. -/
theorem writeIfChanged_of_holds {text : Text} (hcalm : d.outages = [])
    (hfolder : d.HasFolder p.parent)
    (h : d.Holds p text) : d.writeIfChanged p text = (.ok false, d) := by
  obtain ⟨bytes, hbytes, hcontent⟩ := h
  have hcurrent : d.currentBytes p = (.ok (some bytes), d) := by
    simp only [currentBytes, readBytes, access_of_no_outages hcalm, hcontent]
  simp only [writeIfChanged, hbytes, ensureFolders_of_hasFolder hcalm hfolder, hcurrent, if_true]

/-- **Files that hold their texts already are left alone**, and the disk stays as it is. -/
theorem writeAll_of_holds (hcalm : d.outages = []) (hfolders : ∀ f ∈ files, d.HasFolder f.parent)
    (h : ∀ f ∈ files, d.Holds f (g f)) :
    d.writeAll (files.map fun f => (f, g f)) = (.ok ⟨[], files⟩, d) := by
  induction files with
  | nil => rfl
  | cons f files ih =>
    have hfirst := writeIfChanged_of_holds hcalm (hfolders f (.head _)) (h f (.head _))
    have hrest := ih (fun f' hf' => hfolders f' (.tail _ hf')) fun f' hf' => h f' (.tail _ hf')
    rw [List.map_cons, writeAll]
    simp only [hfirst, hrest, Bool.false_eq_true, if_false]

end UtilityCss.Disk
