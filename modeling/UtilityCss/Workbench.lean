import UtilityCss.Disk.Basic
import UtilityCss.Journal
/-!
# Workbenches

The disk that is worked on, with what was reported meanwhile and the file that this is written to.
-/

namespace UtilityCss

/-! ## Log files

A log file holds the lines of a journal. It is a file on a disk, which may be read and written like
any other, so new lines are added behind whatever it holds. -/

/-- A file that a journal is written to. -/
structure LogFile where
  path : Path
  /-- Whether details are written. -/
  verbose : Bool
  /-- The time that stands in the lines. -/
  time : Text
  /-- How many entries of the journal were written, or left out. -/
  written : Nat

namespace LogFile

/-- A log file to which nothing was written. -/
def new (path : Path) (verbose : Bool) (time : Text) : LogFile := ⟨path, verbose, time, 0⟩

/-- The bytes of a journal in a log file. A line that has no form in bytes is left out. -/
def bytes (f : LogFile) (j : Journal) : List UInt8 :=
  (j.shown f.verbose).flatMap fun l =>
    match Text.Utf8.encode (l.text f.time) with
    | .ok bytes => bytes
    | .error _ => []

/-- Brings a log file up to date with a journal: adds the lines of all entries that are new to the
end of the file. -/
def follow (f : LogFile) (j : Journal) (d : Disk) : LogFile × Disk :=
  let more := f.bytes (j.drop f.written)
  ({ f with written := j.length }, if more.isEmpty then d else (d.append f.path more).2)

end LogFile

/-! ## Workbenches

A workbench holds the disk that is worked on and everything that was reported meanwhile. A log file
may be on the same disk, and then it may be one of the files that are read or written. So it is
brought up to date with the journal whenever the disk is used. -/

/-- A disk with all that was reported. -/
structure Workbench where
  disk : Disk
  journal : Journal
  /-- The file that the journal is written to, if there is one. -/
  log : Option LogFile

namespace Workbench

/-- A workbench without a log file, where nothing was reported. -/
def new (d : Disk) : Workbench := ⟨d, [], none⟩

/-- Adds an entry to the journal. -/
def record (b : Workbench) (entry : JournalEntry) : Workbench :=
  { b with journal := b.journal ++ [entry] }

/-- Brings the log file up to date. -/
def settle (b : Workbench) : Workbench :=
  match b.log with
  | none => b
  | some log =>
    let (log, disk) := log.follow b.journal b.disk
    { b with disk := disk, log := some log }

/-- Uses the disk when the log file is up to date. -/
def onDisk {α : Type} (b : Workbench) (f : Disk → α × Disk) : α × Workbench :=
  let b := b.settle
  let (a, disk) := f b.disk
  (a, { b with disk := disk })

/-- Without a log file, nothing has to be brought up to date. -/
theorem settle_of_log_eq_none {b : Workbench} (h : b.log = none) : b.settle = b := by
  simp [settle, h]

/-- Bringing the log file up to date reports nothing. -/
@[simp] theorem settle_journal (b : Workbench) : b.settle.journal = b.journal := by
  unfold settle
  split <;> rfl

end Workbench

end UtilityCss
