import UtilityCss.Compiler
import UtilityCss.Disk.Basic
/-!
# Generated stylesheets

Generated rules are written to a default file, or to the file of a namespace: a beginning of class
names that has a file of its own. A leading dash of a class name does not count, and the longest
namespace that fits wins. Every file appears in the output even if it has no rules, so that a file
whose rules are gone is emptied. A file is written only if its bytes change.
-/

namespace UtilityCss

/-- Where and how generated rules are written. -/
structure OutputSettings where
  dir : Path
  fileName : Text
  minify : Bool
  /-- A text in front of the rules. -/
  banner : Text
  /-- A text behind the rules. -/
  footer : Text
  /-- Files by the beginnings of class names. -/
  namespaces : OrderedMap Text Text

namespace OutputSettings

/-- The file of all rules that belong to no namespace. -/
def defaultPath (s : OutputSettings) : Path := s.dir / s.fileName

/-- The namespaces with the longest first, those of one length in the order of their definition. -/
def longestFirst (s : OutputSettings) : List (Text × Text) :=
  s.namespaces.entries.mergeSort fun a b => b.1.length ≤ a.1.length

/-- The file of the rule for a class name. -/
def target (s : OutputSettings) (className : Text) : Path :=
  let bare := Text.ofList (className.toList.dropWhile (· == '-'))
  match s.longestFirst.find? fun n => Text.startsWith bare n.1 with
  | some n => s.dir / n.2
  | none => s.defaultPath

/-- All files that are written, the default one first. -/
def files (s : OutputSettings) : List Path :=
  (s.defaultPath :: s.longestFirst.map fun n => s.dir / n.2).eraseDups

/-- The rules of every file, in their order. -/
def group (s : OutputSettings) (rules : List CssRule) : List (Path × List CssRule) :=
  s.files.map fun file => (file, rules.filter fun r => s.target r.className == file)

/-- The text of a file with the given rules. -/
def renderText (s : OutputSettings) (rules : List CssRule) : Text :=
  let body := Text.intercalate (if s.minify then "" else "\n\n") (rules.map (·.render s.minify))
  let parts := [s.banner, body, s.footer].filter fun part => !part.isEmpty
  Text.intercalate (if s.minify then "\n" else "\n\n") parts

/-- The text of every file. -/
def render (s : OutputSettings) (rules : List CssRule) : List (Path × Text) :=
  (s.group rules).map fun (file, group) => (file, s.renderText group)

end OutputSettings

/-- The files that were written and those whose bytes were right already. -/
structure WriteReport where
  written : List Path
  unchanged : List Path
  deriving DecidableEq

/-- What is found in a file before it is written; a missing file has no bytes. -/
def Disk.currentBytes (d : Disk) (p : Path) : Except DiskError (Option (List UInt8)) × Disk :=
  match d.readBytes p with
  | (.ok bytes, d) => (.ok (some bytes), d)
  | (.error e, d) => (if e.isNotFound then .ok none else .error e, d)

/-- Makes a file hold a text. Tells whether the file had to be written. -/
def Disk.writeIfChanged (d : Disk) (p : Path) (text : Text) : Except DiskError Bool × Disk :=
  match Text.Utf8.encode text with
  | .error e => (.error (.encoding e), d)
  | .ok bytes =>
    match d.ensureFolders p.parent with
    | (.error e, d) => (.error e, d)
    | (.ok _, d) =>
      match d.currentBytes p with
      | (.error e, d) => (.error e, d)
      | (.ok current, d) =>
        if current = some bytes then (.ok false, d)
        else
          match d.writeBytes p bytes with
          | (.error e, d) => (.error e, d)
          | (.ok _, d) => (.ok true, d)

/-- Makes files hold texts, one after the other up to the first error. -/
def Disk.writeAll (d : Disk) : List (Path × Text) → Except DiskError WriteReport × Disk
  | [] => (.ok ⟨[], []⟩, d)
  | (p, text) :: rest =>
    match d.writeIfChanged p text with
    | (.error e, d) => (.error e, d)
    | (.ok changed, d) =>
      match d.writeAll rest with
      | (.error e, d) => (.error e, d)
      | (.ok report, d) =>
        let report := if changed then { report with written := p :: report.written }
          else { report with unchanged := p :: report.unchanged }
        (.ok report, d)

end UtilityCss
