import UtilityCss.Compiler
import UtilityCss.Output
import UtilityCss.Pass
import UtilityCss.Sources
import UtilityCss.Stylesheet.Parser
import UtilityCss.Workbench
/-!
# The compilation pipeline

Source files are scanned, and what they use is compiled and written, but for the class names that
existing stylesheets define.
-/

namespace UtilityCss

/-! ## Existing classes

Stylesheets that are there already may define some class names, and no rule is generated for those.
The stylesheets are read once, when their class names are first needed. A stylesheet that cannot be
read or is not well formed is reported and left out; one that is nested too deeply ends the reading,
and so does a class name that cannot be decoded. -/

/-- The existing stylesheets, and their class names once they are known. -/
structure ExistingClasses where
  paths : List Path
  loaded : Option (List Text)

namespace ExistingClasses

/-- Stylesheets that have not been read. -/
def ofPaths (paths : List Path) : ExistingClasses := ⟨paths, none⟩

/-- Reads stylesheets one after the other. -/
def readAll (b : Workbench) : List Path → Except Failure (List Text) × Workbench
  | [] => (.ok [], b)
  | p :: ps =>
    match b.onDisk (·.readText p) with
    | (.error e, b) =>
      if e.isSystem then
        let line := "Cannot read existing stylesheet " ++ p.text ++ ": " ++ e.message
        readAll (b.record (.line ⟨.warning, line⟩)) ps
      else (.error (.disk e), b)
    | (.ok source, b) =>
      match Stylesheet.read source with
      | .error .nestedTooDeep => (.error .deepBlocks, b)
      | .error (.malformed e) =>
        let line := "Cannot parse existing stylesheet " ++ p.text ++ ": " ++ e.message
        readAll (b.record (.line ⟨.warning, line⟩)) ps
      | .ok blocks =>
        match Stylesheet.classNames blocks with
        | .error e => (.error (.selector e), b)
        | .ok names =>
          let line := s!"Loaded {names.length} existing classes from " ++ p.text
          let (more, b) := readAll (b.record (.line ⟨.info, line⟩)) ps
          (more.map (names ++ ·), b)

/-- The class names, which are read from the disk if they are not known yet. -/
def load (x : ExistingClasses) (b : Workbench) :
    Except Failure (List Text) × ExistingClasses × Workbench :=
  match x.loaded with
  | some names => (.ok names, x, b)
  | none =>
    match readAll b x.paths with
    | (.error e, b) => (.error e, x, b)
    | (.ok names, b) =>
      let names := names.eraseDups
      (.ok names, { x with loaded := some names }, b)

end ExistingClasses

/-! ## The compilation pipeline

The pipeline scans source files into the usage index and writes the stylesheets for all class names
in it. A scan is all or nothing: if any file cannot be read, the index stays as it was. A rebuild
leaves out the class names that existing stylesheets define, compiles the others, and writes those
files whose content changes. -/

/-- A way to read source files, each by its path. -/
abbrev Reader := Text → Disk → Except DiskError Text × Disk

/-- Reads source files from the disk. -/
def Reader.ofDisk : Reader := fun path d => d.readText (Path.ofText path)

/-- Reads source files one after the other, also behind one that cannot be read. The answer has the
text of each path; the first error in the order of the paths counts. -/
def Reader.readAll (read : Reader) (d : Disk) :
    List Text → Except Failure (List (Text × Text)) × Disk
  | [] => (.ok [], d)
  | path :: paths =>
    let (source, d) := read path d
    let (texts, d) := read.readAll d paths
    match source with
    | .error e => (.error (.disk e), d)
    | .ok text => (texts.map ((path, text) :: ·), d)

/-- The state of the pipeline. -/
structure Pipeline where
  compiler : Compiler
  output : OutputSettings
  existing : ExistingClasses
  /-- Whether the classes of existing stylesheets are left out. -/
  suppress : Bool
  /-- How many files may be read at a time, which shows in no result. -/
  workers : Int
  index : UsageIndex
  /-- How the source files are read. -/
  reader : Reader

namespace Pipeline

/-- A pipeline that tracks no file and reads source files from the disk. -/
def new (vocabulary : Vocabulary) (output : OutputSettings) (existing : List Path) (suppress : Bool)
    (workers : Int) : Pipeline where
  compiler := .new vocabulary
  output := output
  existing := .ofPaths existing
  suppress := suppress
  workers := max 1 workers
  index := .empty
  reader := .ofDisk

end Pipeline

/-- The class names of a source file. -/
abbrev Scan := Text × List Text

/-- The class names of a source file with a text. -/
def Scan.ofText (source : Text × Text) : Scan := (source.1, ClassAttribute.classNames source.2)

/-- A pipeline at a workbench. -/
structure Workshop extends Workbench where
  pipeline : Pipeline

namespace Workshop

/-- A pipeline with a disk, where nothing was reported. -/
def new (p : Pipeline) (d : Disk) : Workshop := { Workbench.new d with pipeline := p }

/-- Uses the disk when the log file is up to date. -/
def onDisk {α : Type} (w : Workshop) (f : Disk → α × Disk) : α × Workshop :=
  let (a, bench) := w.toWorkbench.onDisk f
  (a, { bench with pipeline := w.pipeline })

/-- Reports an event. -/
def emit (w : Workshop) (e : Event) : Workshop := { w with journal := w.journal ++ [.event e] }

/-- Takes the class names of a file into the index. -/
def track (w : Workshop) (scan : Scan) : Workshop :=
  let pipeline := { w.pipeline with index := w.pipeline.index.replace scan.1 scan.2 }
  { w with pipeline := pipeline }.emit (.fileScanned scan.1 scan.2.length)

/-- Reads source files. -/
def readSources (w : Workshop) (paths : List Text) :
    Except Failure (List (Text × Text)) × Workshop :=
  w.onDisk (w.pipeline.reader.readAll · paths)

/-- Scans files into the index. The answer has the class names of each file; of a file that is named
twice, the second reading counts. -/
def scan (w : Workshop) (paths : List Text) :
    Except Failure (OrderedMap Text (List Text)) × Workshop :=
  match w.readSources paths with
  | (.error e, w) => (.error e, w)
  | (.ok sources, w) =>
    let scans := sources.map Scan.ofText
    (.ok (.ofList scans), scans.foldl track w)

/-- The class names that existing stylesheets define, none if they are not to be left out. -/
def suppressed (w : Workshop) : Except Failure (List Text) × Workshop :=
  if w.pipeline.suppress then
    let (classes, existing, bench) := w.pipeline.existing.load w.toWorkbench
    (classes, { bench with pipeline := { w.pipeline with existing := existing } })
  else (.ok [], w)

/-- Reports what was written, and then what did not have to be. -/
def report (w : Workshop) (groups : List (Path × List CssRule)) (r : WriteReport) : Workshop :=
  let size (p : Path) : Nat := ((groups.lookup p).getD []).length
  let w := r.written.foldl (fun w p => w.emit (.stylesheetWritten p.text (size p))) w
  r.unchanged.foldl (fun w p => w.emit (.stylesheetUnchanged p.text)) w

/-- Writes the stylesheets for some rules and reports what was written. -/
def publish (w : Workshop) (rules : List CssRule) : Except DiskError WriteReport × Workshop :=
  match w.onDisk (·.writeAll (w.pipeline.output.render rules)) with
  | (.error e, w) => (.error e, w)
  | (.ok written, w) => (.ok written, w.report (w.pipeline.output.group rules) written)

/-- Writes the stylesheets for the index. -/
def rebuild (w : Workshop) : Except Failure RebuildResult × Workshop :=
  let candidates := w.pipeline.index.allClasses
  match w.suppressed with
  | (.error e, w) => (.error e, w)
  | (.ok existing, w) =>
    let kept := candidates.filter (!existing.contains ·)
    let (rules, compiler) := w.pipeline.compiler.compileMany kept
    let w := { w with pipeline := { w.pipeline with compiler := compiler } }
    match w.publish rules with
    | (.error e, w) => (.error (.disk e), w)
    | (.ok written, w) =>
      (.ok {
        candidates := candidates.length
        ruleCount := rules.length
        suppressed := candidates.length - kept.length
        written := written.written
        unchanged := written.unchanged }, w)

/-- Scans files and writes the stylesheets. -/
def runPass (w : Workshop) (paths : List Text) : Except Failure RebuildResult × Workshop :=
  match w.scan paths with
  | (.error e, w) => (.error e, w)
  | (.ok _, w) => w.rebuild

/-- Takes a file out of the index. The answer is whether it was tracked. -/
def forget (w : Workshop) (path : Text) : Bool × Workshop :=
  let tracked := w.pipeline.index.tracks path
  let pipeline := { w.pipeline with index := w.pipeline.index.remove path }
  (tracked, { w with pipeline := pipeline }.emit (.fileRemoved path tracked))

/-- Takes a file out of the index, and writes the stylesheets if it was tracked. -/
def removeFile (w : Workshop) (path : Text) : Except Failure (Option RebuildResult) × Workshop :=
  match w.forget path with
  | (false, w) => (.ok none, w)
  | (true, w) =>
    let (result, w) := w.rebuild
    (result.map some, w)

end Workshop

end UtilityCss
