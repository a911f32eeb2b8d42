import UtilityCss.Output
/-!
# The disk after files were written

Writing a file makes the directories above it, puts the file in its place, and leaves everything
else as it is. So after some files were written one after the other, each of them has the content
that was written last at its location. Several paths may lead to one location, and which do depends
on nothing but the working directory.
-/

namespace UtilityCss.Disk

variable {d d₁ d' : Disk} {p q : Path} {l k : Location} {files : List Path}

/-! ## Where a path leads -/

/-- A step along a path. -/
def stepTo (l : Location) (part : Text) : Location :=
  if part = ".." then l.parent else l.child (Text.Utf8.decodeName (Text.Utf8.nameBytes part))

/-- The location that a path leads to, if there are directories all the way. -/
def destination (cwd : Location) (p : Path) : Location :=
  p.parts.foldl stepTo (if p.isAbsolute then .root else cwd)

theorem follow_eq_ok {parts : List Text} (h : d.follow l parts = .ok k) :
    parts.foldl stepTo l = k := by
  induction parts generalizing l with
  | nil => simpa [follow] using h
  | cons part parts ih =>
    rw [follow] at h
    split at h
    · dsimp only at h
      split at h
      · contradiction
      · exact ih h
    · contradiction
    · contradiction

theorem locate_eq_ok (h : d.locate p = .ok l) : destination d.cwd p = l := by
  unfold locate at h
  split at h
  · contradiction
  · split at h
    · contradiction
    · rw [destination, ← origin]
      cases hfollow : d.follow (d.origin p) p.parts with
      | error e =>
        rw [hfollow] at h
        cases h
      | ok k =>
        rw [hfollow] at h
        rw [follow_eq_ok hfollow]
        exact Except.ok.inj h

/-! ## What stays on the disk -/

/-- A later disk has the directories of an earlier one, and its files but for some locations. -/
structure Keeps (d d' : Disk) (changed : Location → Prop) : Prop where
  cwd : d'.cwd = d.cwd
  folder : ∀ l, d.entryAt l = some .folder → d'.entryAt l = some .folder
  entry : ∀ l e, ¬changed l → d.entryAt l = some e → d'.entryAt l = some e

namespace Keeps

variable {changed changed' : Location → Prop}

theorem of_entries_eq (hentries : d'.entries = d.entries) (hcwd : d'.cwd = d.cwd) :
    Keeps d d' changed where
  cwd := hcwd
  folder := fun l h => by rw [← h, entryAt, entryAt, hentries]
  entry := fun l e _ h => by rw [← h, entryAt, entryAt, hentries]

theorem refl (d : Disk) : Keeps d d changed := of_entries_eq rfl rfl

theorem trans (h : Keeps d d₁ changed) (h' : Keeps d₁ d' changed) : Keeps d d' changed where
  cwd := h'.cwd.trans h.cwd
  folder := fun l hl => h'.folder l (h.folder l hl)
  entry := fun l e hne hl => h'.entry l e hne (h.entry l e hne hl)

theorem mono (h : Keeps d d' changed) (hsub : ∀ l, changed l → changed' l) :
    Keeps d d' changed' where
  cwd := h.cwd
  folder := h.folder
  entry := fun l e hne => h.entry l e (mt (hsub l) hne)

theorem follow {parts : List Text} (h : Keeps d d' changed) (hl : d.follow l parts = .ok k) :
    d'.follow l parts = .ok k := by
  induction parts generalizing l with
  | nil => exact hl
  | cons part parts ih =>
    rw [Disk.follow] at hl ⊢
    split at hl
    · next hfolder =>
      rw [h.folder l hfolder]
      dsimp only at hl ⊢
      split at hl
      · contradiction
      · next hsize => rw [if_neg hsize, ih hl]
    · contradiction
    · contradiction

/-- A path goes on to lead to its location. -/
theorem locate (h : Keeps d d' changed) (hl : d.locate p = .ok l) : d'.locate p = .ok l := by
  have horigin : d'.origin p = d.origin p := by rw [origin, origin, h.cwd]
  unfold Disk.locate at hl ⊢
  split at hl
  · contradiction
  · split at hl
    · contradiction
    · next hsize =>
      rw [if_neg hsize, horigin]
      cases hfollow : d.follow (d.origin p) p.parts with
      | error e =>
        rw [hfollow] at hl
        cases hl
      | ok k => rw [h.follow hfollow, ← hfollow, hl]

end Keeps

theorem keeps_access {changed : Location → Prop} : Keeps d d.access.2 changed := by
  unfold access
  split
  · exact .refl d
  · exact .of_entries_eq rfl rfl
  · exact .of_entries_eq rfl rfl

theorem entryAt_place {e : Entry} (hroot : l.isRoot = false) :
    (d.place l e).entryAt k = if k = l then some e else d.entryAt k := by
  unfold entryAt place
  split
  · next hk =>
    rw [if_neg]
    rintro rfl
    rw [hk] at hroot
    contradiction
  · exact OrderedMap.get?_insert

theorem not_isRoot_of_entryAt_ne (h : d.entryAt l ≠ some .folder) : l.isRoot = false := by
  cases hroot : l.isRoot with
  | false => rfl
  | true => exact absurd (by rw [entryAt, if_pos hroot]) h

/-- An entry may be put where there is no directory. -/
theorem keeps_place {e : Entry} (h : d.entryAt l ≠ some .folder) :
    Keeps d (d.place l e) (· = l) where
  cwd := rfl
  folder := fun k hk => by
    rw [entryAt_place (not_isRoot_of_entryAt_ne h), if_neg, hk]
    rintro rfl
    exact h hk
  entry := fun k e' hne hk => by rw [entryAt_place (not_isRoot_of_entryAt_ne h), if_neg hne, hk]

/-! ## Making directories -/

variable {changed : Location → Prop}

theorem keeps_ensureFolderAt (h : d.ensureFolderAt l p = .ok d') : Keeps d d' changed := by
  unfold ensureFolderAt at h
  split at h
  · next hnone =>
    obtain rfl := Except.ok.inj h
    have hplace : Keeps d (d.place l .folder) (· = l) := keeps_place (by simp [hnone])
    -- There was nothing at the location, so no entry is lost.
    refine ⟨hplace.cwd, hplace.folder, fun k e _ hk => hplace.entry k e ?_ hk⟩
    rintro rfl
    simp [hnone] at hk
  · obtain rfl := Except.ok.inj h
    exact .refl d
  · contradiction

/-- Making directories loses nothing, even if it fails on the way. -/
theorem keeps_ensureFoldersWithin (d : Disk) (p : Path) (levels : Nat) :
    Keeps d (d.ensureFoldersWithin p levels).2 changed := by
  induction levels generalizing p with
  | zero => exact .refl d
  | succ levels ih =>
    rw [ensureFoldersWithin]
    dsimp only
    -- Either the directory can be made at once, or those above it are made first.
    split
    · split
      · next hfolder => exact keeps_ensureFolderAt hfolder
      · exact .refl d
    · split
      · have habove := ih p.parent
        split
        · next heq => rwa [heq] at habove
        · next heq =>
          rw [heq] at habove
          split
          · exact habove
          · split
            · next hfolder => exact habove.trans (keeps_ensureFolderAt hfolder)
            · exact habove
      · exact .refl d

theorem keeps_ensureFolders (d : Disk) (p : Path) : Keeps d (d.ensureFolders p).2 changed := by
  have haccess : Keeps d d.access.2 changed := keeps_access
  unfold ensureFolders
  split
  · next heq => rwa [heq] at haccess
  · next d₁ heq =>
    rw [heq] at haccess
    exact haccess.trans (keeps_ensureFoldersWithin d₁ p maxMissingFolders)

/-! ## Writing one file -/

theorem putFile_eq_ok {content : List UInt8} {modified : Int}
    (h : d.putFile p content modified = .ok d') :
    ∃ l, d'.locate p = .ok l ∧ d'.entryAt l = some (.file content modified) ∧
      Keeps d d' (· = l) := by
  unfold putFile at h
  split at h
  · contradiction
  · next l hl =>
    split at h
    · contradiction
    · next hfolder =>
      obtain rfl := Except.ok.inj h
      have hkeeps : Keeps d (d.place l (.file content modified)) (· = l) := keeps_place hfolder
      refine ⟨l, hkeeps.locate hl, ?_, hkeeps⟩
      rw [entryAt_place (not_isRoot_of_entryAt_ne hfolder), if_pos rfl]

theorem content_eq_ok {bytes : List UInt8} (h : d.content p = .ok bytes) :
    ∃ l modified, d.locate p = .ok l ∧ d.entryAt l = some (.file bytes modified) := by
  unfold content at h
  split at h
  · contradiction
  · next l hl =>
    split at h
    · next hentry => exact ⟨l, _, hl, by rw [hentry, Except.ok.inj h]⟩
    · contradiction
    · contradiction

theorem content_of_entryAt {bytes : List UInt8} {modified : Int} (hl : d.locate p = .ok l)
    (hentry : d.entryAt l = some (.file bytes modified)) : d.content p = .ok bytes := by
  simp only [content, hl, hentry]

theorem readBytes_eq_ok {bytes : List UInt8} (h : d.readBytes p = (.ok bytes, d')) :
    d'.content p = .ok bytes := by
  unfold readBytes at h
  split at h
  · simp at h
  · obtain ⟨hcontent, rfl⟩ := Prod.mk.inj h
    exact hcontent

theorem keeps_readBytes : Keeps d (d.readBytes p).2 changed := by
  have haccess : Keeps d d.access.2 changed := keeps_access
  unfold readBytes
  split
  · next heq => rwa [heq] at haccess
  · next heq => rwa [heq] at haccess

theorem keeps_currentBytes : Keeps d (d.currentBytes p).2 changed := by
  have hread : Keeps d (d.readBytes p).2 changed := keeps_readBytes
  unfold currentBytes
  split
  · next heq => rwa [heq] at hread
  · next heq => rwa [heq] at hread

theorem currentBytes_eq_ok {bytes : List UInt8} (h : d.currentBytes p = (.ok (some bytes), d')) :
    d'.content p = .ok bytes := by
  unfold currentBytes at h
  split at h
  · next heq =>
    simp only [Prod.mk.injEq, Except.ok.injEq, Option.some.injEq] at h
    obtain ⟨rfl, rfl⟩ := h
    exact readBytes_eq_ok heq
  · obtain ⟨hcurrent, -⟩ := Prod.mk.inj h
    split at hcurrent <;> simp at hcurrent

theorem writeBytes_eq_ok {bytes : List UInt8} (h : d.writeBytes p bytes = (.ok ⟨⟩, d')) :
    ∃ l modified, d'.locate p = .ok l ∧ d'.entryAt l = some (.file bytes modified) ∧
      Keeps d d' (· = l) := by
  have haccess {l : Location} : Keeps d d.access.2 (· = l) := keeps_access
  unfold writeBytes at h
  split at h
  · simp at h
  · next d₁ heq =>
    split at h
    · next d₂ hput =>
      obtain ⟨-, rfl⟩ := Prod.mk.inj h
      obtain ⟨l, hl, hentry, hkeeps⟩ := putFile_eq_ok hput
      have hstamp : Keeps d₂ { d₂ with nextStamp := d₁.nextStamp + 1 } (· = l) :=
        .of_entries_eq rfl rfl
      rw [heq] at haccess
      exact ⟨l, _, hstamp.locate hl, hentry, (haccess.trans hkeeps).trans hstamp⟩
    · simp at h

/-- A file that was written, or had the right content already, is there, and nothing else is
lost. -/
theorem writeIfChanged_eq_ok {text : Text} {b : Bool} (h : d.writeIfChanged p text = (.ok b, d')) :
    ∃ bytes modified l, Text.Utf8.encode text = .ok bytes ∧ d'.locate p = .ok l ∧
      d'.entryAt l = some (.file bytes modified) ∧ Keeps d d' (· = l) := by
  have hfolders {l : Location} : Keeps d (d.ensureFolders p.parent).2 (· = l) :=
    keeps_ensureFolders d _
  unfold writeIfChanged at h
  split at h
  · simp at h
  next bytes hbytes =>
  split at h
  · simp at h
  next d₁ hfolder =>
  rw [hfolder] at hfolders
  split at h
  · simp at h
  next current d₂ hcurrent =>
  have hread {l : Location} : Keeps d₁ (d₁.currentBytes p).2 (· = l) := keeps_currentBytes
  rw [hcurrent] at hread
  split at h
  -- The file had the bytes already, or it has them now.
  · next hsame =>
    obtain ⟨-, rfl⟩ := Prod.mk.inj h
    rw [hsame] at hcurrent
    obtain ⟨l, modified, hl, hentry⟩ := content_eq_ok (currentBytes_eq_ok hcurrent)
    exact ⟨bytes, modified, l, hbytes, hl, hentry, hfolders.trans hread⟩
  · split at h
    · simp at h
    · next d₃ hwrite =>
      obtain ⟨-, rfl⟩ := Prod.mk.inj h
      obtain ⟨l, modified, hl, hentry, hkeeps⟩ := writeBytes_eq_ok hwrite
      exact ⟨bytes, modified, l, hbytes, hl, hentry, (hfolders.trans hread).trans hkeeps⟩

/-! ## Writing several files -/

/-- The last of some files at a location. What is written to it replaces what was written to others
there. -/
def lastAt (cwd : Location) (files : List Path) (l : Location) : Option Path :=
  files.reverse.find? fun f => destination cwd f == l

theorem lastAt_cons {cwd : Location} {f : Path} : lastAt cwd (f :: files) l =
    (lastAt cwd files l).or (if destination cwd f = l then some f else none) := by
  rw [lastAt, List.reverse_cons, List.find?_append, ← lastAt]
  by_cases h : destination cwd f = l <;> simp [h]

theorem lastAt_eq_some {cwd : Location} {f : Path} (h : lastAt cwd files l = some f) :
    f ∈ files ∧ destination cwd f = l :=
  ⟨List.mem_reverse.1 (List.mem_of_find?_eq_some h), by simpa using List.find?_some h⟩

/-- **After some files were written, each of them has the content that was written last at its
location.** -/
theorem writeAll_eq_ok {g : Path → Text} {report : WriteReport}
    (h : d.writeAll (files.map fun f => (f, g f)) = (.ok report, d')) :
    Keeps d d' (fun l => ∃ f ∈ files, destination d.cwd f = l) ∧
    ∀ f ∈ files, d'.locate f = .ok (destination d.cwd f) ∧
      ∃ q bytes modified, lastAt d.cwd files (destination d.cwd f) = some q ∧
        Text.Utf8.encode (g q) = .ok bytes ∧
        d'.entryAt (destination d.cwd f) = some (.file bytes modified) := by
  induction files generalizing d report with
  | nil =>
    obtain ⟨-, rfl⟩ := Prod.mk.inj h
    exact ⟨.refl d, by simp⟩
  | cons f files ih =>
    rw [List.map_cons, writeAll] at h
    split at h
    · simp at h
    next b d₁ hfirst =>
    split at h
    · simp at h
    next rest d₂ hrest =>
    obtain ⟨-, rfl⟩ := Prod.mk.inj h
    obtain ⟨bytes, modified, l, hbytes, hl, hentry, hkeeps⟩ := writeIfChanged_eq_ok hfirst
    obtain ⟨hkept, hfiles⟩ := ih hrest
    -- Both parts speak of the same locations, since writing does not change the working directory.
    have hl' := locate_eq_ok hl
    rw [hkeeps.cwd] at hl' hkept hfiles
    refine ⟨(hkeeps.mono ?_).trans (hkept.mono ?_),
      List.forall_mem_cons.2 ⟨⟨?_, ?_⟩, fun f' hf' => ?_⟩⟩
    · rintro k rfl
      exact ⟨f, List.mem_cons_self, hl'⟩
    · rintro k ⟨f', hf', hk⟩
      exact ⟨f', List.mem_cons_of_mem _ hf', hk⟩
    · rw [hl']
      exact hkept.locate hl
    · rw [hl', lastAt_cons, hl', if_pos rfl]
      cases hlast : lastAt d.cwd files l with
      | some q =>
        -- A later file at the location has replaced the content.
        obtain ⟨hq, hdest⟩ := lastAt_eq_some hlast
        obtain ⟨-, q', bytes', modified', hq', hbytes', hentry'⟩ := hfiles q hq
        rw [hdest, hlast] at hq'
        rw [hdest] at hentry'
        exact ⟨q', bytes', modified', by rw [← hq']; rfl, hbytes', hentry'⟩
      | none =>
        -- Nothing is written at the location later, so the entry stays.
        refine ⟨f, bytes, modified, rfl, hbytes, hkept.entry l _ ?_ hentry⟩
        rintro ⟨f', hf', hdest⟩
        have hnot := List.find?_eq_none.1 hlast f' (List.mem_reverse.2 hf')
        exact hnot (by simpa using hdest)
    · obtain ⟨hlocate, q, bytes', modified', hq, hbytes', hentry'⟩ := hfiles f' hf'
      exact ⟨hlocate, q, bytes', modified', by rw [lastAt_cons, hq]; rfl, hbytes', hentry'⟩

end UtilityCss.Disk
