import UtilityCss.Disk.Path
import UtilityCss.Limits
import UtilityCss.OrderedMap
import UtilityCss.Text.Utf8
/-!
# The disk

A disk is a value: files with content and time of modification, directories, and a working
directory. Entries are kept by their location. Operations that can fail answer with an error, and
those that change the disk with a new disk.

Accesses to files may fail for reasons that the tree of files does not show. The disk carries such
faults as plain data: the fates of the coming accesses, patterns that cannot be listed, and files
whose time of modification cannot be read.
-/

namespace UtilityCss

/-- What can be wrong with a path. -/
inductive PathProblem where
  | notFound
  | exists
  | notADirectory
  | isADirectory
  /-- A name or the whole path has more bytes than the operating system takes. -/
  | nameTooLong
  deriving DecidableEq, Repr

/-- The number and the words for a problem. -/
def PathProblem.message : PathProblem → Text
  | .notFound => "[Errno 2] No such file or directory"
  | .exists => "[Errno 17] File exists"
  | .notADirectory => "[Errno 20] Not a directory"
  | .isADirectory => "[Errno 21] Is a directory"
  | .nameTooLong => "[Errno 36] File name too long"

/-- The kinds of faults that an access may meet. -/
inductive FaultKind where
  | os
  | value
  | notFound
  | key
  deriving DecidableEq, Repr

/-- Why an access to the disk fails. -/
inductive DiskError where
  /-- The path is the reason. -/
  | path (problem : PathProblem) (path : Path)
  /-- The path has a character that no name can have. -/
  | nullCharacter
  /-- Too many directories on the way are missing. -/
  | deepFolders
  /-- The path or the text that is to be written has no form in bytes. -/
  | encoding (e : Text.Utf8.EncodeError)
  /-- The access met a fault. -/
  | fault (kind : FaultKind) (text : Text)
  deriving DecidableEq, Repr

namespace DiskError

/-- The text of the error. -/
def message : DiskError → Text
  | path problem p => problem.message ++ ": " ++ Text.quoted p.text
  | nullCharacter => "embedded null byte"
  | deepFolders => "maximum recursion depth exceeded while calling a Python object"
  | encoding e => e.message
  | fault .key text => Text.quoted text
  | fault _ text => text

/-- Whether a file or directory is missing. -/
def isNotFound : DiskError → Bool
  | path .notFound _ => true
  | fault .notFound _ => true
  | _ => false

/-- Whether the operating system reports the error. -/
def isSystem : DiskError → Bool
  | path _ _ => true
  | nullCharacter | deepFolders | encoding _ => false
  | fault kind _ => kind == .os || kind == .notFound

/-- Whether the error is about an argument. -/
def isValue : DiskError → Bool
  | nullCharacter | encoding _ => true
  | fault kind _ => kind == .value
  | path _ _ | deepFolders => false

end DiskError

/-- The bytes of a path, if the operating system takes them. -/
def systemName (path : Text) : Except DiskError (List UInt8) :=
  match Text.Utf8.encodeName path with
  | .error e => .error (.encoding e)
  | .ok bytes => if bytes.contains 0 then .error .nullCharacter else .ok bytes

/-- A file or a directory. -/
inductive Entry where
  | file (content : List UInt8) (modified : Int)
  | folder
  deriving DecidableEq

/-- Whether the entry is a file. -/
def Entry.isFile : Entry → Bool
  | .file _ _ => true
  | .folder => false

/-- Files and directories, the homes of users, and the faults that accesses to files meet. -/
structure Disk where
  entries : OrderedMap Location Entry
  /-- The working directory. -/
  cwd : Location
  /-- The time of modification for the next file that is written. -/
  nextStamp : Int
  /-- The fates of the coming accesses to files, `none` where the access goes through. -/
  outages : List (Option DiskError)
  /-- Patterns that cannot be listed. -/
  listFaults : OrderedMap Text DiskError
  /-- Paths whose time of modification cannot be read. -/
  stampFaults : OrderedMap Text DiskError
  /-- The home directories by the names of users. The empty name is that of whoever asks. -/
  homes : OrderedMap Text Path

namespace Disk

/-- A disk with a working directory, given by the names that lead to it, and nothing else but the
directories above it. -/
def new (cwd : List Text) : Disk where
  entries := .ofList ((List.range cwd.length).map fun n => (.ofList (cwd.take (n + 1)), .folder))
  cwd := .ofList cwd
  nextStamp := 2000000000000000000
  outages := []
  listFaults := .empty
  stampFaults := .empty
  homes := .empty

/-! ## Looking -/

/-- What is at a location. The root is always a directory. -/
def entryAt (d : Disk) (l : Location) : Option Entry :=
  if l.isRoot then some .folder else d.entries.get? l

/-- The most bytes that a name may have. -/
def maxNameSize : Nat := 255

/-- The most bytes that a path may have. -/
def maxPathSize : Nat := 4095

/-- Where a path starts. -/
def origin (d : Disk) (p : Path) : Location := if p.isAbsolute then .root else d.cwd

/-- The location that is reached by following components from a location. Every location that is
passed through has to be a directory. Names with the same bytes are the same name. -/
def follow (d : Disk) (l : Location) : List Text → Except PathProblem Location
  | [] => .ok l
  | part :: parts =>
    match d.entryAt l with
    | some .folder =>
      let bytes := Text.Utf8.nameBytes part
      if bytes.length > maxNameSize then .error .nameTooLong
      else d.follow (if part = ".." then l.parent else l.child (Text.Utf8.decodeName bytes)) parts
    | some (.file _ _) => .error .notADirectory
    | none => .error .notFound

/-- The location that a path names, whether there is something or not. -/
def locate (d : Disk) (p : Path) : Except DiskError Location :=
  match systemName p.text with
  | .error e => .error e
  | .ok bytes =>
    if bytes.length > maxPathSize then .error (.path .nameTooLong p)
    else
      (d.follow (d.origin p) p.parts).mapError fun problem => .path problem p

/-- What a path names, if it names anything. A path that is too long cannot be looked at; one that
leads nowhere for another reason names nothing. -/
def look (d : Disk) (p : Path) : Except DiskError (Option Entry) :=
  match d.locate p with
  | .ok l => .ok (d.entryAt l)
  | .error (.path .nameTooLong p) => .error (.path .nameTooLong p)
  | .error _ => .ok none

/-- What a path names. -/
def entry? (d : Disk) (p : Path) : Option Entry :=
  match d.look p with
  | .ok e => e
  | .error _ => none

/-- Whether a path names a file. -/
def isFile (d : Disk) (p : Path) : Bool := (d.entry? p).any Entry.isFile

/-- Whether a path names a directory. -/
def isFolder (d : Disk) (p : Path) : Bool := d.entry? p == some .folder

/-- The names of the entries of a directory. -/
def names (d : Disk) (p : Path) : List Text :=
  match d.locate p with
  | .error _ => []
  | .ok l => d.entries.keys.filterMap l.nameIn?

/-- The directories anywhere below a directory, each as the names that lead to it. -/
def foldersBelow (d : Disk) (p : Path) : List (List Text) :=
  match d.locate p with
  | .error _ => []
  | .ok l => d.entries.entries.filterMap fun (k, e) =>
      match l.namesTo? k, e with
      | some (name :: more), .folder => some (name :: more)
      | _, _ => none

/-- The location of a path without its double dots, whether there is something or not. -/
def absoluteLocation (d : Disk) (p : Path) : Location :=
  p.parts.foldl (fun l (part : Text) => if part = ".." then l.parent else l.child part) (d.origin p)

/-- The absolute path of a path. -/
def absolutePath (d : Disk) (p : Path) : Path := ⟨.root, (d.absoluteLocation p).toList⟩

/-- The path that further components lead to, where a double dot takes one back. The operating
system has to take every path on the way. -/
def resolveFrom (p : Path) : List Text → Except DiskError Path
  | [] => .ok p
  | part :: parts =>
    if part = ".." then resolveFrom p.parent parts
    else
      match systemName (p.child part).text with
      | .error e => .error e
      | .ok _ => resolveFrom (p.child part) parts

/-- The absolute path of a path that the operating system takes. -/
def resolve (d : Disk) (p : Path) : Except DiskError Path :=
  resolveFrom ⟨.root, (d.origin p).toList⟩ p.parts

/-- The time of modification of a path. -/
def stamp (d : Disk) (p : Path) : Except DiskError Int :=
  match d.stampFaults.get? p.text with
  | some e => .error e
  | none =>
    match d.locate p with
    | .error e => .error e
    | .ok l =>
      match d.entryAt l with
      | some (.file _ modified) => .ok modified
      | some .folder => .ok 0
      | none => .error (.path .notFound p)

/-! ## Accesses -/

/-- The fate of the next access, and the disk behind it. -/
def access (d : Disk) : Except DiskError Unit × Disk :=
  match d.outages with
  | [] => (.ok ⟨⟩, d)
  | none :: rest => (.ok ⟨⟩, { d with outages := rest })
  | some e :: rest => (.error e, { d with outages := rest })

/-- The content of a file as the tree of files shows it. -/
def content (d : Disk) (p : Path) : Except DiskError (List UInt8) :=
  match d.locate p with
  | .error e => .error e
  | .ok l =>
    match d.entryAt l with
    | some (.file content _) => .ok content
    | some .folder => .error (.path .isADirectory p)
    | none => .error (.path .notFound p)

/-- Reads a file. -/
def readBytes (d : Disk) (p : Path) : Except DiskError (List UInt8) × Disk :=
  match d.access with
  | (.error e, d) => (.error e, d)
  | (.ok _, d) => (d.content p, d)

/-- Reads a file as a text, with U+FFFD for what is no text. -/
def readText (d : Disk) (p : Path) : Except DiskError Text × Disk :=
  let (bytes, d) := d.readBytes p
  (bytes.map fun bs => Text.ofFile (Text.Utf8.decodeLenient bs), d)

/-- Puts an entry at a location. -/
def place (d : Disk) (l : Location) (e : Entry) : Disk := { d with entries := d.entries.insert l e }

/-- Makes a directory at the location of a path, where one may be already. -/
def ensureFolderAt (d : Disk) (l : Location) (p : Path) : Except DiskError Disk :=
  match d.entryAt l with
  | none => .ok (d.place l .folder)
  | some .folder => .ok d
  | some (.file _ _) => .error (.path .exists p)

/-- Makes a directory and those above it, as far as they are missing, and tells its location. What
was made before an error stays; `levels` bounds how many directories may be missing. -/
def ensureFoldersWithin (d : Disk) (p : Path) : (levels : Nat) → Except DiskError Location × Disk
  | 0 => (.error .deepFolders, d)
  | levels + 1 =>
    let finish (l : Location) (d : Disk) : Except DiskError Location × Disk :=
      match d.ensureFolderAt l p with
      | .ok d => (.ok l, d)
      | .error e => (.error e, d)
    match d.locate p with
    | .ok l => finish l d
    | .error e =>
      if e.isNotFound && !p.parts.isEmpty then
        match d.ensureFoldersWithin p.parent levels with
        | (.error e, d) => (.error e, d)
        | (.ok above, d) =>
          match d.follow above [p.name] with
          | .error problem => (.error (.path problem p), d)
          | .ok l => finish l d
      else (.error e, d)

/-- Makes a directory and those above it, unless too many of them are missing. -/
def makeFolders (d : Disk) (p : Path) : Except DiskError Unit × Disk :=
  let (r, d) := d.ensureFoldersWithin p maxMissingFolders
  (r.map fun _ => ⟨⟩, d)

/-- Makes a directory and those above it in one access. -/
def ensureFolders (d : Disk) (p : Path) : Except DiskError Unit × Disk :=
  match d.access with
  | (.error e, d) => (.error e, d)
  | (.ok _, d) => d.makeFolders p

/-- Puts a file with a time of modification at a path. -/
def putFile (d : Disk) (p : Path) (content : List UInt8) (modified : Int) : Except DiskError Disk :=
  match d.locate p with
  | .error e => .error e
  | .ok l =>
    match d.entryAt l with
    | some .folder => .error (.path .isADirectory p)
    | _ => .ok (d.place l (.file content modified))

/-- Writes a file, which is then newer than every other. -/
def writeBytes (d : Disk) (p : Path) (content : List UInt8) : Except DiskError Unit × Disk :=
  match d.access with
  | (.error e, d) => (.error e, d)
  | (.ok _, d) =>
    match d.putFile p content d.nextStamp with
    | .ok d' => (.ok ⟨⟩, { d' with nextStamp := d.nextStamp + 1 })
    | .error e => (.error e, d)

/-- Adds bytes to the end of a file, which is made if it is missing. -/
def append (d : Disk) (p : Path) (more : List UInt8) : Except DiskError Unit × Disk :=
  let before := match d.content p with
    | .ok bytes => bytes
    | .error _ => []
  d.writeBytes p (before ++ more)

/-! ## Changes from outside -/

/-- The disk after somebody has put a file at a path, with the directories above it. -/
def withFile (d : Disk) (p : Path) (content : List UInt8) (modified : Int) :
    Except DiskError Unit × Disk :=
  match d.makeFolders p.parent with
  | (.error e, d) => (.error e, d)
  | (.ok _, d) =>
    match d.putFile p content modified with
    | .ok d' => (.ok ⟨⟩, d')
    | .error e => (.error e, d)

/-- The disk after somebody has made a directory, with the directories above it. -/
def withFolder (d : Disk) (p : Path) : Except DiskError Unit × Disk :=
  d.makeFolders p

/-- The disk after somebody has deleted a file, or a directory with all that is in it. -/
def without (d : Disk) (p : Path) : Except DiskError Disk :=
  match d.locate p with
  | .error e => .error e
  | .ok l =>
    match d.entryAt l with
    | none => .error (.path .notFound p)
    | some _ => .ok { d with entries := d.entries.filter fun k _ => (l.namesTo? k).isNone }

end Disk

end UtilityCss
