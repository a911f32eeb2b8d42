import UtilityCss.Text.Words
/-!
# Paths and locations

A path is what an entry of the disk is asked for by; a location is where the entry is.
-/

namespace UtilityCss

/-! ## Paths

A path is a list of components, with or without a root in front. Repeated slashes, slashes at the
end and components that are a single dot leave no trace; two dots are kept, since what they mean
depends on the disk. Exactly two slashes in front are told apart from one. -/

/-- What stands in front of the components. -/
inductive Anchor where
  /-- The path is relative to the working directory. -/
  | none
  | root
  | doubleRoot
  deriving DecidableEq, Repr

/-- A path in its normal form. -/
structure Path where
  anchor : Anchor
  parts : List Text
  deriving DecidableEq, Repr

namespace Path

/-- The path that a text names. -/
def ofText (s : Text) : Path :=
  let slashes := (s.toList.takeWhile (· == .char '/')).length
  { anchor := if slashes = 0 then .none else if slashes = 2 then .doubleRoot else .root
    parts := (Text.splitOnChar '/' s).filter fun part => part != "" && part != "." }

/-- The text of a path. -/
def text (p : Path) : Text :=
  match p.anchor, p.parts with
  | .none, [] => "."
  | .none, parts => Text.intercalate "/" parts
  | .root, parts => "/" ++ Text.intercalate "/" parts
  | .doubleRoot, parts => "//" ++ Text.intercalate "/" parts

/-- Whether the path starts at a root. -/
def isAbsolute (p : Path) : Bool := p.anchor != .none

/-- The path `q` seen from `p`: an absolute path stays as it is. -/
def join (p q : Path) : Path :=
  if q.isAbsolute then q else ⟨p.anchor, p.parts ++ q.parts⟩

instance : HDiv Path Text Path := ⟨fun p s => p.join (ofText s)⟩

/-- The path of an entry in a directory. -/
def child (p : Path) (name : Text) : Path := ⟨p.anchor, p.parts ++ [name]⟩

/-- The path without its last component. -/
def parent (p : Path) : Path := ⟨p.anchor, p.parts.dropLast⟩

/-- The last component. -/
def name (p : Path) : Text := p.parts.getLast?.getD ""

/-- Order by the list of components. -/
def le (p q : Path) : Bool := !List.lex q.parts p.parts Text.lt

/-- Whether a component is hidden: it starts with a dot and is not the step to the parent. -/
def isHiddenPart (part : Text) : Bool := Text.startsWith part "." && part != "." && part != ".."

/-- Whether a component behind the first components `base` is hidden. -/
def isHiddenBelow (p base : Path) : Bool :=
  let parts := if p.anchor = base.anchor then (Text.after? base.parts p.parts).getD p.parts
    else p.parts
  parts.any isHiddenPart

end Path

/-! ## Locations

A location says where an entry is: by the names that lead to it from the root. The innermost name
comes first, so that a step down or up is a step at the head of the list, and the number of names is
kept beside them, so that locations of different depth are told apart without a look at the names.
Main statements: `toList_inj` (the names from the root tell locations apart), `namesTo?_eq_some` and
`nameIn?_eq_some` (what is below a location is what its names can be continued to). -/

/-- A place in the tree of files. -/
structure Location where
  /-- The number of names. -/
  depth : Nat
  /-- The names, the innermost first. -/
  names : List Text
  depth_eq : depth = names.length

namespace Location

/-- Whether two lists have the same names. -/
def sameNames : List Text → List Text → Bool
  | [], [] => true
  | n :: ns, m :: ms => n = m && sameNames ns ms
  | _, _ => false

theorem sameNames_iff {ns ms : List Text} : sameNames ns ms = true ↔ ns = ms := by
  induction ns generalizing ms with
  | nil => cases ms <;> simp [sameNames]
  | cons n ns ih => cases ms <;> simp [sameNames, ih]

/-- Locations are told apart by their names alone. -/
theorem eq_of_names_eq {l k : Location} (h : l.names = k.names) : l = k := by
  obtain ⟨depth, names, rfl⟩ := l
  obtain ⟨depth', names', rfl⟩ := k
  simp_all

/-- Depths are compared first. -/
instance : DecidableEq Location := fun l k =>
  decidable_of_iff ((l.depth == k.depth && sameNames l.names k.names) = true) (by
    rw [Bool.and_eq_true, sameNames_iff]
    exact ⟨fun h => eq_of_names_eq h.2, by rintro rfl; simp⟩)

/-- The root. -/
def root : Location := ⟨0, [], rfl⟩

/-- Whether a location is the root. -/
def isRoot (l : Location) : Bool := l.depth == 0

/-- A step down. -/
def child (l : Location) (name : Text) : Location where
  depth := l.depth + 1
  names := name :: l.names
  depth_eq := by simp [l.depth_eq]

/-- A step up, which stays at the root. -/
def parent (l : Location) : Location where
  depth := l.depth - 1
  names := l.names.tail
  depth_eq := by simp [l.depth_eq]

/-- The names that lead to a location from the root. -/
def toList (l : Location) : List Text := l.names.reverse

/-- The location that names lead to from the root. -/
def ofList (names : List Text) : Location := names.foldl child root

/-- The last name of a location that is one step below `l`. -/
def nameIn? (l k : Location) : Option Text :=
  match k.names with
  | [] => none
  | name :: above =>
    if k.depth = l.depth + 1 then (if above = l.names then some name else none) else none

/-- The names that lead from `l` to `k`, if `k` is `l` or below it. -/
def namesTo? (l k : Location) : Option (List Text) :=
  if l.depth ≤ k.depth then
    let more := k.depth - l.depth
    if k.names.drop more = l.names then some (k.names.take more).reverse else none
  else none

@[simp] theorem parent_child (l : Location) (name : Text) : (l.child name).parent = l :=
  eq_of_names_eq rfl

@[simp] theorem toList_child (l : Location) (name : Text) :
    (l.child name).toList = l.toList ++ [name] := by
  simp [toList, child]

/-- What leads to a location leads to no other. -/
theorem toList_inj {l k : Location} : l.toList = k.toList ↔ l = k := by
  constructor
  · intro h
    exact eq_of_names_eq (List.reverse_inj.1 h)
  · rintro rfl
    rfl

theorem toList_foldl_child (names : List Text) (l : Location) :
    (names.foldl child l).toList = l.toList ++ names := by
  induction names generalizing l with
  | nil => simp
  | cons name names ih => simp [ih]

@[simp] theorem toList_ofList (names : List Text) : (ofList names).toList = names :=
  toList_foldl_child names root

/-- The names from `l` to `k` are those that `k` has more than `l`. -/
theorem namesTo?_eq_some {l k : Location} {more : List Text} :
    l.namesTo? k = some more ↔ k.toList = l.toList ++ more := by
  unfold namesTo? toList
  constructor
  · intro h
    by_cases hd : l.depth ≤ k.depth
    · by_cases hn : k.names.drop (k.depth - l.depth) = l.names
      · simp only [hd, hn, if_true, Option.some.injEq] at h
        rw [← h, ← hn, ← List.reverse_append, List.take_append_drop]
      · simp [hn] at h
    · simp [hd] at h
  · intro h
    have hnames : k.names = more.reverse ++ l.names := by
      have hrev := congrArg List.reverse h
      simpa using hrev
    have hdepth : k.depth = more.length + l.depth := by
      rw [k.depth_eq, l.depth_eq, hnames]
      simp
    simp [hdepth, hnames]

/-- The name of `k` in `l` is the only one that `k` has more than `l`. -/
theorem nameIn?_eq_some {l k : Location} {name : Text} :
    l.nameIn? k = some name ↔ k = l.child name := by
  obtain ⟨depth, names, rfl⟩ := k
  cases names with
  | nil => simp [nameIn?, child]
  | cons n above =>
    constructor
    · intro h
      obtain ⟨_, ha, hn⟩ : above.length = l.depth ∧ above = l.names ∧ n = name := by
        simpa [nameIn?] using h
      exact eq_of_names_eq (by simp [child, ha, hn])
    · intro h
      have hnames : n :: above = name :: l.names := congrArg Location.names h
      obtain ⟨rfl, rfl⟩ := List.cons.inj hnames
      simp [nameIn?, l.depth_eq]

end Location

end UtilityCss
