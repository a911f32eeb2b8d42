import UtilityCss.Disk.Glob
import UtilityCss.Proofs.Answers
/-!
# Paths in normal form

A component of a path is a name: it is not empty, not a single dot, and it has no slash. A path all
of whose components are names can be read back from its text, so the texts of such paths tell them
apart. The paths that match a file pattern are of this kind, if the directory that is searched is
and if the entries of the disk have names.
-/

namespace UtilityCss

namespace Path

variable {p q : Path} {parts : List Text}

/-- A text can be the name of an entry. -/
def IsName (part : Text) : Prop := part ≠ "" ∧ part ≠ "." ∧ CodePoint.char '/' ∉ part.toList

instance (part : Text) : Decidable (IsName part) :=
  inferInstanceAs (Decidable (_ ∧ _ ∧ _))

/-- All components of a path are names. -/
def IsNormal (p : Path) : Prop := ∀ part ∈ p.parts, IsName part

instance (p : Path) : Decidable p.IsNormal :=
  inferInstanceAs (Decidable (∀ part ∈ p.parts, IsName part))

theorem IsNormal.child {name : Text} (h : p.IsNormal) (hname : IsName name) :
    (p.child name).IsNormal := by
  intro part hpart
  rcases List.mem_append.1 hpart with hpart | hpart
  · exact h part hpart
  · rw [List.mem_singleton.1 hpart]
    exact hname

/-- A path that is read from a text has names. -/
theorem isNormal_ofText (s : Text) : (ofText s).IsNormal := by
  intro part hpart
  obtain ⟨hpiece, hkept⟩ := List.mem_filter.1 hpart
  obtain ⟨piece, hmem, rfl⟩ := List.mem_map.1 hpiece
  rw [Bool.and_eq_true, bne_iff_ne, bne_iff_ne] at hkept
  refine ⟨hkept.1, hkept.2, fun hslash => ?_⟩
  have hnot := Text.not_of_mem_splitWhere hslash hmem
  simp at hnot

/-! ## Reading a path back -/

/-- The components that stand in a text between the slashes. -/
def components (s : Text) : List Text :=
  (Text.splitOnChar (.char '/') s).filter fun part => part != "" && part != "."

/-- A slash in front adds no component. -/
theorem components_slash (s : Text) : components ("/" ++ s) = components s := rfl

/-- Names that were joined are found again. -/
theorem components_intercalate (h : ∀ part ∈ parts, IsName part) :
    components (Text.intercalate "/" parts) = parts := by
  cases parts with
  | nil => rfl
  | cons part parts =>
    have hsplit : Text.splitOnChar (.char '/') (Text.intercalate "/" (part :: parts)) =
        part :: parts :=
      Text.splitOnChar_intercalate fun part' hpart' => (h part' hpart').2.2
    rw [components, hsplit, List.filter_eq_self]
    intro part' hpart'
    obtain ⟨hempty, hdot, -⟩ := h part' hpart'
    rw [bne_iff_ne.2 hempty, bne_iff_ne.2 hdot]
    rfl

/-- Joined names do not begin with a slash. -/
theorem takeWhile_intercalate (h : ∀ part ∈ parts, IsName part) :
    (Text.intercalate "/" parts).toList.takeWhile (· == CodePoint.char '/') = [] := by
  cases parts with
  | nil => rfl
  | cons part parts =>
    obtain ⟨hempty, -, hslash⟩ := h part (.head _)
    rw [Text.toList_intercalate_cons]
    cases hchars : part.toList with
    | nil => exact absurd (congrArg Text.ofList hchars) hempty
    | cons c cs =>
      have hc : (c == CodePoint.char '/') = false := by
        rw [beq_eq_false_iff_ne]
        rintro rfl
        exact hslash (hchars ▸ .head _)
      rw [List.cons_append, List.takeWhile_cons_of_neg (by simp [hc])]

/-- The path that a text names, by the slashes in front of it and its components. -/
theorem ofText_eq (s : Text) : ofText s =
    let slashes := (s.toList.takeWhile (· == CodePoint.char '/')).length
    ⟨if slashes = 0 then .none else if slashes = 2 then .doubleRoot else .root, components s⟩ := rfl

/-- **A path in normal form can be read back from its text.** -/
theorem ofText_text (h : p.IsNormal) : ofText p.text = p := by
  obtain ⟨anchor, parts⟩ := p
  have hparts : components (Text.intercalate "/" parts) = parts := components_intercalate h
  have hslashes : (Text.intercalate "/" parts).toList.takeWhile (· == CodePoint.char '/') = [] :=
    takeWhile_intercalate h
  -- The anchor is told from the slashes in front, of which the components have none.
  cases anchor with
  | none =>
    cases parts with
    | nil => rfl
    | cons part parts =>
      have htext : (⟨.none, part :: parts⟩ : Path).text = Text.intercalate "/" (part :: parts) :=
        rfl
      rw [htext, ofText_eq, hslashes, hparts]
      rfl
  | root =>
    have htext : (⟨.root, parts⟩ : Path).text = "/" ++ Text.intercalate "/" parts := rfl
    have htake : ("/" ++ Text.intercalate "/" parts : Text).toList.takeWhile
        (· == CodePoint.char '/') =
        [CodePoint.char '/'] := congrArg (CodePoint.char '/' :: ·) hslashes
    rw [htext, ofText_eq, htake, components_slash, hparts]
    rfl
  | doubleRoot =>
    have htext : (⟨.doubleRoot, parts⟩ : Path).text = "/" ++ ("/" ++ Text.intercalate "/" parts) :=
      rfl
    have htake : ("/" ++ ("/" ++ Text.intercalate "/" parts) : Text).toList.takeWhile
        (· == CodePoint.char '/') = [CodePoint.char '/', CodePoint.char '/'] :=
      congrArg (CodePoint.char '/' :: CodePoint.char '/' :: ·) hslashes
    rw [htext, ofText_eq, htake, components_slash, components_slash, hparts]
    rfl

/-- The texts of paths in normal form tell them apart. -/
theorem eq_of_text_eq (hp : p.IsNormal) (hq : q.IsNormal) (h : p.text = q.text) : p = q := by
  rw [← ofText_text hp, h, ofText_text hq]

end Path

/-! ## The matches of a pattern -/

namespace Disk

open UtilityCss.Path

variable {d : Disk} {p : Path} {ps found : List Path} {segment : Segment} {segs : List Segment}
  {pattern : Text}

/-- All names that lead to entries of the disk can be names. -/
def WellNamed (d : Disk) : Prop := ∀ l ∈ d.entries.keys, ∀ name ∈ l.names, IsName name

instance (d : Disk) : Decidable d.WellNamed :=
  inferInstanceAs (Decidable (∀ l ∈ d.entries.keys, ∀ name ∈ l.names, IsName name))

theorem WellNamed.names (h : d.WellNamed) {name : Text} (hname : name ∈ d.names p) :
    IsName name := by
  unfold Disk.names at hname
  split at hname
  · simp at hname
  · next l _ =>
    obtain ⟨k, hk, hin⟩ := List.mem_filterMap.1 hname
    obtain rfl := Location.nameIn?_eq_some.1 hin
    exact h _ hk name (.head _)

theorem WellNamed.foldersBelow (h : d.WellNamed) {more : List Text}
    (hmore : more ∈ d.foldersBelow p) : ∀ part ∈ more, IsName part := by
  unfold Disk.foldersBelow at hmore
  split at hmore
  · simp at hmore
  · next l _ =>
    obtain ⟨⟨k, e⟩, hentry, hbelow⟩ := List.mem_filterMap.1 hmore
    have hk : k ∈ d.entries.keys := List.mem_map.2 ⟨_, hentry, rfl⟩
    dsimp only at hbelow
    split at hbelow
    · next name rest hnames =>
      obtain rfl := Option.some.inj hbelow
      intro part hpart
      -- The names that lead from one location to another are names of the other.
      have hlist := Location.namesTo?_eq_some.1 hnames
      refine h k hk part (List.mem_reverse.1 ?_)
      rw [show k.names.reverse = k.toList from rfl, hlist]
      exact List.mem_append_right _ hpart
    · contradiction

/-- A component of a pattern that is a plain name can be a name. -/
def Segment.IsNormal : Segment → Prop
  | .name s => IsName s
  | .wildcard _ | .anywhere | .slash => True

theorem Segment.isNormal_ofPart {part : Text} (hpart : IsName part)
    (h : Segment.ofPart part = .ok segment) : segment.IsNormal := by
  unfold Segment.ofPart at h
  split at h
  · rw [← Except.ok.inj h]
    trivial
  · split at h
    · contradiction
    · split at h
      · rw [← Except.ok.inj h]
        trivial
      · rw [← Except.ok.inj h]
        exact hpart

theorem isNormal_segments (h : segments pattern = .ok segs) :
    ∀ segment ∈ segs, segment.IsNormal := by
  unfold segments at h
  split at h
  · contradiction
  dsimp only at h
  split at h
  · contradiction
  next parts hparts =>
  obtain ⟨segs', hsegs, hrest⟩ := bind_eq_ok.1 h
  have hnames : ∀ segment ∈ segs', segment.IsNormal := by
    intro segment hsegment
    obtain ⟨part, hpart, hof⟩ := (mem_of_mapM_eq_ok hsegs).1 hsegment
    have hmem : part ∈ (Path.ofText pattern).parts := List.mem_of_mem_take hpart
    exact Segment.isNormal_ofPart (isNormal_ofText pattern part hmem) hof
  -- A slash at the end adds a component that is no name.
  split at hrest <;> split at hrest
  · cases hrest
  · rw [← Except.ok.inj hrest]
    intro segment hsegment
    rcases List.mem_append.1 hsegment with hsegment | hsegment
    · exact hnames segment hsegment
    · rw [List.mem_singleton.1 hsegment]
      trivial
  · cases hrest
  · rw [← Except.ok.inj hrest]
    exact hnames

/-- **One component leads from paths in normal form to paths in normal form.** -/
theorem isNormal_advance {inner : Bool} (hd : d.WellNamed) (hp : p.IsNormal)
    (hsegment : segment.IsNormal)
    (h : d.advance inner p segment = .ok found) : ∀ q ∈ found, q.IsNormal := by
  cases segment with
  | name s =>
    obtain ⟨entry, -, hfound⟩ := bind_eq_ok.1 h
    -- Whatever the entry is, no other path is found.
    have hsub : ∀ q ∈ found, q = p.child s := by
      intro q hq
      rw [← Except.ok.inj hfound] at hq
      grind
    intro q hq
    rw [hsub q hq]
    exact hp.child hsegment
  | wildcard parts =>
    obtain rfl := Except.ok.inj h
    intro q hq
    obtain ⟨name, hname, rfl⟩ := List.mem_map.1 (List.mem_filter.1 hq).1
    exact hp.child (hd.names (List.mem_filter.1 hname).1)
  | anywhere =>
    obtain rfl := Except.ok.inj h
    intro q hq
    rcases List.mem_cons.1 hq with rfl | hq
    · exact hp
    · obtain ⟨more, hmore, rfl⟩ := List.mem_map.1 hq
      intro part hpart
      rcases List.mem_append.1 hpart with hpart | hpart
      · exact hp part hpart
      · exact hd.foldersBelow hmore part hpart
  | slash =>
    obtain rfl := Except.ok.inj h
    intro q hq
    rw [List.mem_singleton.1 hq]
    exact hp

theorem isNormal_select (hd : d.WellNamed) (hps : ∀ p ∈ ps, p.IsNormal)
    (hsegs : ∀ segment ∈ segs, segment.IsNormal)
    (h : d.select ps segs = .ok found) : ∀ q ∈ found, q.IsNormal := by
  induction segs generalizing ps with
  | nil =>
    obtain rfl := Except.ok.inj h
    exact hps
  | cons segment segs ih =>
    obtain ⟨next, hnext, hrest⟩ := bind_eq_ok.1 h
    refine ih (fun q hq => ?_) (fun segment' hsegment' => hsegs segment' (.tail _ hsegment')) hrest
    obtain ⟨qs, hqs, hq⟩ := List.mem_flatten.1 (List.mem_eraseDups.1 hq)
    obtain ⟨p, hp, hadvance⟩ := (mem_of_mapM_eq_ok hnext).1 hqs
    exact isNormal_advance hd (hps p hp) (hsegs segment (.head _)) hadvance q hq

/-- **What matches a pattern is in normal form.** -/
theorem isNormal_glob {base : Path} (hd : d.WellNamed) (hbase : base.IsNormal)
    (h : d.glob base pattern = .ok found) : ∀ q ∈ found, q.IsNormal := by
  obtain ⟨segs, hsegs, hrest⟩ := bind_eq_ok.1 h
  obtain ⟨entry, -, hrest⟩ := bind_eq_ok.1 hrest
  have hnormal := isNormal_segments (mapError_eq_ok.1 hsegs)
  split at hrest
  · obtain ⟨paths, hpaths, hsorted⟩ := bind_eq_ok.1 hrest
    intro q hq
    rw [← Except.ok.inj hsorted] at hq
    have hmem : q ∈ paths := List.mem_mergeSort.1 hq
    refine isNormal_select hd (fun p hp => ?_) hnormal (mapError_eq_ok.1 hpaths) q hmem
    rw [List.mem_singleton.1 hp]
    exact hbase
  · rw [← Except.ok.inj hrest]
    simp

end Disk

end UtilityCss
