/-
CampusQuery/Main.lean

The command line: performs a program against the real files, streams and clocks.

`Program.perform` answers each request of a program with the operation of the same
meaning, so what a program does here is what `Program.run` says about its model.  All
decisions are in the commands; this module only carries them out.
-/
import CampusQuery.Command.Run
import CampusQuery.Decimal.Scaling
import Std.Time.Format

namespace CampusQuery

/-! ### Files -/

/-- The operating system's number of an error; some operations report it negated. -/
def errorNumber (reported : UInt32) : Nat := min reported.toNat (0 - reported).toNat

/-- The reason that the operating system gave. -/
def FileError.ofReport (e : IO.Error) : FileError :=
  match e with
  | .noFileOrDirectory .. => .notFound
  | .permissionDenied .. => .permissionDenied
  | .alreadyExists .. => .alreadyExists
  | .inappropriateType _ reported _ | .invalidArgument _ reported _ =>
    match errorNumber reported with
    | 20 => .notADirectory
    | 21 => .isADirectory
    | 36 => .nameTooLong
    | _ => .other (toString e)
  | e => .other (toString e)

/-- Performs a file operation. -/
def attempt {α : Type} (operation : IO α) : IO (Except FileError α) := do
  match ← operation.toBaseIO with
  | .ok a => return .ok a
  | .error e => return .error (.ofReport e)

/-- Changes the files. -/
def Change.perform : Change → IO Unit
  | .makeDirectories path => IO.FS.createDirAll path.text
  | .create path => IO.FS.withFile path.text .write fun _ => pure ()
  | .fill path content => IO.FS.writeBinFile path.text content
  | .rename source target => IO.FS.rename source.text target.text
  | .remove path => IO.FS.removeFile path.text

/-- Answers a question about a path. -/
def PathQuestion.perform (q : PathQuestion) (path : FilePath) : IO Bool := do
  match ← (do (← IO.FS.realPath path.text).metadata).toBaseIO with
  | .ok found =>
    return match q, found.type with
      | .present, _ | .isDirectory, .dir | .isFile, .file => true
      | _, _ => false
  | .error _ => return false

/-- The names in a directory. -/
def listDirectory (path : FilePath) : IO FoundNames := do
  let entries ← (← IO.FS.realPath path.text).readDir
  return .whole (entries.toList.map (·.fileName))

/-! ### Readings -/

/-- The time of day. -/
def currentTime : IO String := do
  let now := Std.Time.DateTime.ofTimestamp (← Std.Time.Timestamp.now) .UTC
  return now.toLeanDateTimeWithZoneString

/-- The digits of a random number, in the usual five groups. -/
def freshIdentifier : IO String := do
  let bytes ← IO.getRandomBytes 16
  let digits := bytes.toList.flatMap fun b => Json.hexByte b.toNat
  let group (start length : Nat) : String := String.ofList ((digits.drop start).take length)
  return "-".intercalate [group 0 8, group 8 4, group 12 4, group 16 4, group 20 12]

/-- Takes a reading in a process that began at `start`. -/
def Reading.perform (start : Nat) : Reading → IO String
  | .timestamp => currentTime
  | .elapsed => return toString ((← IO.monoMsNow) - start)
  | .identifier => freshIdentifier

/-! ### Programs -/

/-- Writes what a program puts out, and returns the severity below which entries are
dropped from then on. -/
def Output.perform (minimum : Severity) : Output → IO Severity
  | .entry e => do
    if e.severity.reaches minimum then
      if e.severity.reaches .error then IO.eprint e.line else IO.print e.line
    return minimum
  | .line text => do
    IO.println text
    return minimum
  | .minimum s => return s

/-- Performs a program to its end. -/
def Program.perform {α : Type} (start : Nat) : Severity → Program α → IO α
  | _, .done a => return a
  | s, .change c next => do (next (← attempt c.perform)).perform start s
  | s, .ask q path next => do (next (← q.perform path)).perform start s
  | s, .list directory next => do (next (← attempt (listDirectory directory))).perform start s
  | s, .read path next => do (next (← attempt (IO.FS.readBinFile path.text))).perform start s
  | s, .reading r next => do (next (← r.perform start)).perform start s
  | s, .input next => do (next (← (← IO.getStdin).readBinToEnd)).perform start s
  | s, .put o next => do next.perform start (← o.perform s)

/-! ### Usage -/

/-- What can be asked for. -/
def usage : String :=
  "Usage: campusdb <serve|query|list> [--config <CONFIG>]\n" ++
  "       campusdb add --id <ID> --kind <KIND> --file <FILE> [--config <CONFIG>]\n" ++
  "       campusdb remove --id <ID> [--config <CONFIG>]"

/-- What is wrong with the arguments. -/
def UsageError.message : UsageError → String
  | .help => usage
  | .version => s!"campusdb {Service.version}"
  | .commandMissing => usage
  | .unknownCommand => s!"error: unrecognized subcommand\n\n{usage}"
  | .unknownArgument => s!"error: unexpected argument found\n\n{usage}"
  | .optionMissing => s!"error: a required argument was not provided\n\n{usage}"
  | .valueMissing => s!"error: an argument lacks its value\n\n{usage}"
  | .valueUnwanted => s!"error: a value was given to an argument without one\n\n{usage}"
  | .givenTwice => s!"error: an argument was used multiple times\n\n{usage}"

end CampusQuery

open CampusQuery in
/-- Runs the command that the arguments ask for.  The service itself needs a listener,
which this program does not have. -/
def main (args : List String) : IO UInt32 := do
  match Command.ofArguments args with
  | .error e =>
    if e.exitCode = 0 then IO.println e.message else IO.eprintln e.message
    return e.exitCode.toUInt32
  | .ok command =>
    let start ← IO.monoMsNow
    match ← command.run.run.perform start .trace with
    | .ok .answered => return 0
    | .ok (.ready address _ _) =>
      IO.eprintln s!"no listener for {address}"
      return 1
    | .error e =>
      IO.eprintln e.display
      return 1
