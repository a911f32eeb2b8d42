import Std.Time.Format
import UtilityCss.CommandLine.Run
/-!
# The program

The program reads the files of the working directory, runs the command line on them, and writes
those that have changed. Watching goes on with a step after every wait.
-/

namespace UtilityCss.Program

open CommandLine

/-- Reads the entries of a directory at a location, with all that is below them. Entries that cannot
be read are left out. -/
partial def readEntries (d : Disk) (l : Location) (entries : Array IO.FS.DirEntry) : IO Disk :=
  entries.foldlM (fun d e => do
    let l := l.child (Text.ofString e.fileName)
    try
      let facts ← e.path.symlinkMetadata
      match facts.type with
      | .dir => readEntries (d.place l .folder) l (← e.path.readDir)
      | .file =>
        let stamp := facts.modified.sec * 1000000000 + Int.ofNat facts.modified.nsec.toNat
        return d.place l (.file (← IO.FS.readBinFile e.path).toList stamp)
      | _ => return d
    catch _ => return d) d

/-- The home directory that the environment tells, for whoever asks and for the user by name. -/
def readHomes : IO (OrderedMap Text Path) := do
  match ← IO.getEnv "HOME" with
  | none => return .empty
  | some home =>
    let home := Path.ofText home
    let user ← IO.getEnv "USER"
    return .ofList (("", home) :: (user.map fun name => (Text.ofString name, home)).toList)

/-- Reads the working directory. -/
def readDisk : IO Disk := do
  let here ← IO.currentDir
  let d := Disk.new (Path.ofText here.toString).parts
  let homes ← readHomes
  readEntries { d with homes := homes } d.cwd (← here.readDir)

/-- Writes what is new in `after`. -/
def writeDisk (before after : Disk) : IO Unit :=
  after.entries.entries.forM fun (l, entry) => do
    unless before.entries.get? l == some entry do
      let path := (⟨.root, l.toList⟩ : Path).text.display
      match entry with
      | .folder => IO.FS.createDirAll path
      | .file content _ => IO.FS.writeBinFile path (ByteArray.mk content.toArray)

/-- The time for log lines. -/
def timeText : IO Text := do
  let now ← Std.Time.PlainDateTime.now
  return .ofString (now.format "uuuu-MM-dd'T'HH:mm:ss")

/-- The clock in seconds. -/
def clock : IO Float := do return (← IO.monoMsNow).toFloat / 1000.0

/-- Prints the message of an error that ends the program. -/
def complain (message : Text) : IO UInt32 := do
  IO.eprint (complained message).display
  return 1

/-- Prints what a command line has done. -/
def finish (before : Disk) (r : Result) : IO UInt32 := do
  writeDisk before r.disk
  IO.print r.output.display
  IO.eprint r.errors.display
  match r.crash with
  | none => return r.exitCode.toUInt32
  | some e => complain e.message

/-- Polls where a poll is due, takes a step, and waits. -/
partial def watchOn (style : LogStyle) (nextPoll : Float) (s : Session Runner) : IO UInt32 := do
  let before ← readDisk
  let now ← clock
  let time ← timeText
  let log := s.work.log.map fun log => { log with time := time, written := 0 }
  let s := { s with
    now := now, journal := [], sleeps := [], work := { s.work with disk := before, log := log } }
  let due := !(now < nextPoll)
  let (polled, s) := if due then Runner.patrol.goRound s else (.ok ⟨⟩, s)
  let nextPoll := if due then now + s.work.pollInterval else nextPoll
  let (stepped, s) := Runner.step s
  let s := Runner.settle s
  writeDisk before s.work.disk
  IO.eprint (style.onConsole time s.journal).display
  match polled, stepped with
  | .ok _, .ok _ =>
    let wait := s.scheduler.timeout s.now (min Runner.idleWait (nextPoll - s.now))
    IO.sleep (max 0.0 (wait * 1000.0)).toUInt32
    watchOn style nextPoll s
  | .error e, _ => complain e.message
  | _, .error e => complain e.message

/-- Runs a command line. -/
def run (args : List String) : IO UInt32 := do
  let disk ← readDisk
  let time ← timeText
  match Request.ofArguments (args.map Text.ofString) with
  | .command .watch p _ =>
    match openWatch disk p time with
    | .error r => finish disk r
    | .ok w =>
      let start := Runner.watchingLine w.session.work.patterns
      let s := Runner.settle (w.session.record (.line start))
      writeDisk disk s.work.disk
      IO.print watchTitle.display
      (← IO.getStdout).flush
      IO.eprint (p.logStyle.onConsole time (w.journal ++ s.journal)).display
      watchOn p.logStyle 0.0 s
  | request => finish disk (request.run disk time)

end UtilityCss.Program

/-- The program. -/
def main (args : List String) : IO UInt32 := UtilityCss.Program.run args
