import UtilityCss.Disk.Basic
import UtilityCss.Text.Words
/-!
# File patterns

File patterns are paths with wildcards. What they match depends on what is on the disk.
-/

namespace UtilityCss.Disk

/-! ## Wildcards

A wildcard describes names: a star stands for any characters, a question mark for one, and brackets
for one character of a set, which may list characters and ranges and may be negated by an
exclamation mark. An opening bracket that is not closed stands for itself. A range whose ends are in
the wrong order is empty. A name is read once from its end for every part, so that many stars cost
no more than other parts. -/

/-- A set of characters in brackets. -/
structure CharSet where
  negated : Bool
  singles : List CodePoint
  ranges : List (CodePoint × CodePoint)
  deriving DecidableEq, Repr

/-- Whether a character is in the set. -/
def CharSet.contains (s : CharSet) (c : CodePoint) : Bool :=
  (s.singles.contains c || s.ranges.any fun (low, high) => low ≤ c && c ≤ high) != s.negated

/-- One part of a wildcard. -/
inductive WildcardPart where
  | star
  | any
  | set (s : CharSet)
  | char (c : CodePoint)
  deriving DecidableEq, Repr

/-- Cuts the inside of brackets at the hyphens that make ranges. A hyphen makes a range unless it is
among the first `least` characters or the last one. -/
def chunksFrom (least : Nat) (body : List CodePoint) : List (List CodePoint) :=
  match _h : body.drop least |>.findIdx? (· == .char '-') with
  | none => [body]
  | some k =>
    let cut := least + k
    match chunksFrom 2 (body.drop (cut + 1)) with
    | [[]] => [body.take cut ++ [.char '-']]
    | chunks => body.take cut :: chunks
termination_by body.length
decreasing_by
  have := List.findIdx?_eq_some_iff_getElem.1 _h
  obtain ⟨hk, _⟩ := this
  simp only [List.length_drop] at hk ⊢
  omega

/-- Joins a chunk to those behind it where the range between them would be empty. -/
def dropEmptyRange (chunk : List CodePoint) : List (List CodePoint) → List (List CodePoint)
  | [] => [chunk]
  | next :: rest =>
    match chunk.getLast?, next.head? with
    | some low, some high =>
      if high < low then (chunk.dropLast ++ next.tail) :: rest else chunk :: next :: rest
    | _, _ => chunk :: next :: rest

/-- The ranges between consecutive chunks. -/
def rangesBetween : List (List CodePoint) → List (CodePoint × CodePoint)
  | chunk :: next :: rest =>
    match chunk.getLast?, next.head? with
    | some low, some high => (low, high) :: rangesBetween (next :: rest)
    | _, _ => rangesBetween (next :: rest)
  | _ => []

/-- The set that stands between brackets. Empty ranges are dropped before an exclamation mark in
front is looked for. With nothing between that mark and the hyphen of a range, the hyphen stands for
itself. -/
def CharSet.ofBrackets (inside : List CodePoint) : CharSet :=
  let least := if inside.head? = some (.char '!') then 2 else 1
  match (chunksFrom least inside).foldr dropEmptyRange [] with
  | [.char '!'] :: next :: rest =>
    let chunks := next :: rest
    ⟨true, '-' :: chunks.flatten, rangesBetween chunks⟩
  | (.char '!' :: first) :: rest =>
    let chunks := first :: rest
    ⟨true, chunks.flatten, rangesBetween chunks⟩
  | chunks => ⟨false, chunks.flatten, rangesBetween chunks⟩

/-- The inside of brackets from behind the opening one, and what follows the closing one. An
exclamation mark and then a closing bracket may come first without closing. -/
def brackets? (cs : List CodePoint) : Option (List CodePoint × List CodePoint) :=
  let (mark, rest) : List CodePoint × List CodePoint := match cs with
    | .char '!' :: rest => (['!'], rest)
    | rest => ([], rest)
  let (first, rest) : List CodePoint × List CodePoint := match rest with
    | .char ']' :: rest => ([']'], rest)
    | rest => ([], rest)
  match rest.dropWhile (· != .char ']') with
  | [] => none
  | _ :: behind => some (mark ++ first ++ rest.takeWhile (· != .char ']'), behind)

/-- The parts of a wildcard, at most as many as the first argument says. -/
def wildcardFrom : Nat → List CodePoint → List WildcardPart
  | 0, _ => []
  | _, [] => []
  | fuel + 1, .char '*' :: rest => .star :: wildcardFrom fuel rest
  | fuel + 1, .char '?' :: rest => .any :: wildcardFrom fuel rest
  | fuel + 1, .char '[' :: rest =>
    match brackets? rest with
    | some (inside, behind) => .set (.ofBrackets inside) :: wildcardFrom fuel behind
    | none => .char '[' :: wildcardFrom fuel rest
  | fuel + 1, c :: rest => .char c :: wildcardFrom fuel rest

/-- The parts of a wildcard. Each part takes at least one character. -/
def wildcard (cs : List CodePoint) : List WildcardPart := wildcardFrom cs.length cs

/-- Whether a part stands for a character. -/
def WildcardPart.accepts : WildcardPart → CodePoint → Bool
  | .star, _ => true
  | .any, _ => true
  | .set s, c => s.contains c
  | .char c', c => c' == c

/-- For each place of a row whether a mark stands there or behind it. -/
def markedOnward : List Bool → List Bool
  | [] => []
  | mark :: row =>
    let onward := markedOnward row
    (mark || onward.headD false) :: onward

/-- For each end of a name, from the whole name down to the empty one, whether the parts describe
it. -/
def describedEnds (name : List CodePoint) : List WildcardPart → List Bool
  | [] => name.map (fun _ => false) ++ [true]
  | .star :: parts => markedOnward (describedEnds name parts)
  | part :: parts =>
    name.zipWith (fun c rest => part.accepts c && rest) (describedEnds name parts).tail ++ [false]

/-- Whether a wildcard describes a name. -/
def wildcardMatches (parts : List WildcardPart) (name : List CodePoint) : Bool :=
  (describedEnds name parts).headD false

/-- Whether a component has to be matched and is no plain name. -/
def isWildcard (s : Text) : Bool := s.toList.any fun c => c == '*' || c == '?' || c == '['

/-! ## File patterns

A file pattern is a relative path whose components may be wildcards; the component `**` stands for
any number of directories. Wildcards describe names with a dot in front as well. All components but
the last are directories, and so are the matches of a pattern that ends with a slash or with
`**`. -/

/-- One component of a file pattern. -/
inductive Segment where
  /-- A plain name, or the step to the parent directory. -/
  | name (s : Text)
  | wildcard (parts : List WildcardPart)
  /-- Any number of directories. -/
  | anywhere
  /-- A slash at the end of the pattern. -/
  | slash
  deriving DecidableEq, Repr

/-- Why a text is no file pattern. -/
inductive PatternError where
  | empty
  /-- A component has two stars and something else. -/
  | starsInName
  /-- There is no component, as in a single dot. -/
  | noComponent
  /-- There is no component, but a slash at the end. -/
  | slashOnly
  /-- There are too many components. -/
  | tooLong
  deriving DecidableEq, Repr

/-- The text of the error. -/
def PatternError.message : PatternError → Text
  | .empty => "Unacceptable pattern: ''"
  | .starsInName => "Invalid pattern: '**' can only be an entire path component"
  | .noComponent => "tuple index out of range"
  | .slashOnly => "'_TerminatingSelector' object has no attribute 'select_from'"
  | .tooLong => "maximum recursion depth exceeded"

/-- Whether a text has two stars in a row. -/
def hasDoubleStar : List CodePoint → Bool
  | .char '*' :: .char '*' :: _ => true
  | _ :: rest => hasDoubleStar rest
  | [] => false

/-- The component of a pattern that a text writes. -/
def Segment.ofPart (part : Text) : Except PatternError Segment :=
  if part = "**" then .ok .anywhere
  else if hasDoubleStar part.toList then .error .starsInName
  else if isWildcard part then .ok (.wildcard (Disk.wildcard part.toList))
  else .ok (.name part)

/-- The components of a relative pattern. What is wrong with one of the first components goes before
their number. -/
def segments (pattern : Text) : Except PatternError (List Segment) :=
  if pattern.isEmpty then .error .empty
  else
    let slashed := pattern.toList.getLast? == some (.char '/')
    match (Path.ofText pattern).parts with
    | [] => .error (if slashed then .slashOnly else .noComponent)
    | parts => do
      let segs ← (parts.take maxSegments).mapM Segment.ofPart
      let segs := if slashed then segs ++ [.slash] else segs
      if segs.length > maxSegments || parts.length > maxSegments then throw .tooLong
      return segs

/-- The paths that one component leads to. With `inner`, more components follow, and only
directories count. -/
def advance (d : Disk) (inner : Bool) (p : Path) : Segment → Except DiskError (List Path)
  | .name s => do
    let next := p.child s
    let found ← d.look next
    return if inner then (if found = some .folder then [next] else [])
      else if found.isSome then [next] else []
  | .wildcard parts =>
    let names := (d.names p).filter fun name => wildcardMatches parts name.toList
    .ok ((names.map p.child).filter fun next => !inner || d.isFolder next)
  | .anywhere => .ok (p :: (d.foldersBelow p).map fun more => ⟨p.anchor, p.parts ++ more⟩)
  | .slash => .ok [p]

/-- The paths that components lead to from any of some paths. -/
def select (d : Disk) (ps : List Path) : List Segment → Except DiskError (List Path)
  | [] => .ok ps
  | segment :: rest => do
    let next ← ps.mapM fun p => d.advance (!rest.isEmpty) p segment
    d.select next.flatten.eraseDups rest

/-- Why the matches of a pattern cannot be listed. -/
inductive GlobError where
  | pattern (e : PatternError)
  | disk (e : DiskError)
  deriving DecidableEq

/-- What matches a relative pattern in a directory, in the order of components. -/
def glob (d : Disk) (base : Path) (pattern : Text) : Except GlobError (List Path) := do
  let segs ← (segments pattern).mapError .pattern
  if (← (d.look base).mapError .disk) = some .folder then
    let found ← (d.select [base] segs).mapError .disk
    return found.mergeSort Path.le
  else return []

end UtilityCss.Disk
