/-
CampusQuery/Program/Basic.lean

Programs: what the database asks of its surroundings, one request after another.

A program is a tree.  Its nodes are requests (a change to the files, a question about
them, a reading of the clock, an entry for the journal), and each goes on as the
answer says.  So one program can be run against a model of its surroundings
(`Program.run`), stopped between any two requests, or performed in earnest.

Programs are a monad; the laws are proved here.  What a program does to the model is
in `CampusQuery.Program.World`.
-/
import CampusQuery.Journal.Event
import CampusQuery.Storage.Tree

namespace CampusQuery

/-- A question about a path. -/
inductive PathQuestion where
  | present
  | isDirectory
  | isFile
deriving DecidableEq

/-- What comes of listing a directory: the names that were met in it, one after the
other, and the error at which the listing broke off if it did.  A name that is no text is
met as `none`. -/
structure FoundNames where
  met : List (Option String)
  failure : Option FileError
deriving DecidableEq

namespace FoundNames

/-- All names of a directory, where each is a text. -/
def whole (names : List String) : FoundNames := ⟨names.map some, none⟩

/-- The names that are texts. -/
def texts (found : FoundNames) : List String := found.met.filterMap id

end FoundNames

/-- Something that is different at every run. -/
inductive Reading where
  /-- The time of day. -/
  | timestamp
  /-- The milliseconds that the work took so far. -/
  | elapsed
  /-- A name that nothing else has. -/
  | identifier
deriving DecidableEq

/-- Something that a program puts out. -/
inductive Output where
  /-- An entry of the journal; it is dropped if it is not serious enough. -/
  | entry (e : Journal.Entry)
  /-- A line of the answer to the caller. -/
  | line (text : String)
  /-- From here on, less serious entries are dropped. -/
  | minimum (s : Severity)
deriving DecidableEq

/-- A sequence of requests that ends in a value. -/
inductive Program (α : Type) where
  | done (value : α)
  | change (c : Change) (next : Except FileError Unit → Program α)
  | ask (q : PathQuestion) (path : FilePath) (next : Bool → Program α)
  | list (directory : FilePath) (next : Except FileError FoundNames → Program α)
  | read (path : FilePath) (next : Except FileError ByteArray → Program α)
  | reading (r : Reading) (next : String → Program α)
  | input (next : ByteArray → Program α)
  | put (o : Output) (next : Program α)

namespace Program

variable {α β γ : Type}

/-- One program after another. -/
def bind : Program α → (α → Program β) → Program β
  | .done a, f => f a
  | .change c next, f => .change c fun r => (next r).bind f
  | .ask q path next, f => .ask q path fun r => (next r).bind f
  | .list directory next, f => .list directory fun r => (next r).bind f
  | .read path next, f => .read path fun r => (next r).bind f
  | .reading k next, f => .reading k fun r => (next r).bind f
  | .input next, f => .input fun r => (next r).bind f
  | .put o next, f => .put o (next.bind f)

instance : Monad Program where
  pure := .done
  bind := bind

theorem bind_done (p : Program α) : p.bind .done = p := by
  induction p with
  | done _ => rfl
  | put _ _ ih => exact congrArg _ ih
  | _ => rename_i ih; exact congrArg _ (funext ih)

theorem bind_assoc (p : Program α) (f : α → Program β) (g : β → Program γ) :
    (p.bind f).bind g = p.bind fun a => (f a).bind g := by
  induction p with
  | done _ => rfl
  | put _ _ ih => exact congrArg _ ih
  | _ => rename_i ih; exact congrArg _ (funext ih)

instance : LawfulMonad Program :=
  LawfulMonad.mk' Program
    (fun p => bind_done p)
    (fun _ _ => rfl)
    (fun p f g => bind_assoc p f g)

/-! ### Single requests -/

/-- Changes the files. -/
def changing (c : Change) : Program (Except FileError Unit) := .change c .done

/-- Asks about a path. -/
def asking (q : PathQuestion) (path : FilePath) : Program Bool := .ask q path .done

/-- Lists a directory. -/
def listing (directory : FilePath) : Program (Except FileError FoundNames) := .list directory .done

/-- Reads a file. -/
def reads (path : FilePath) : Program (Except FileError ByteArray) := .read path .done

/-- Takes a reading. -/
def take (r : Reading) : Program String := .reading r .done

/-- Reads all that the caller sends. -/
def request : Program ByteArray := .input .done

/-- Writes an entry to the journal. -/
def log (e : Journal.Entry) : Program Unit := .put (.entry e) (.done ())

/-- Writes the entry about an event. -/
def report (e : Journal.Event) (fields : Journal.Fields) : Program Unit := log (e.entry fields)

/-- Answers the caller with a line. -/
def reply (text : String) : Program Unit := .put (.line text) (.done ())

/-- Drops entries that are less serious from here on. -/
def setMinimum (s : Severity) : Program Unit := .put (.minimum s) (.done ())

end Program

/-- A program that may fail. -/
abbrev Action (ε α : Type) := ExceptT ε Program α

namespace Action

variable {ε ε' α : Type}

/-- Goes on if a request succeeded, and fails with `wrap` of its error if not. -/
def orFail (wrap : ε → ε') (p : Program (Except ε α)) : Action ε' α :=
  ExceptT.mk do
    match ← p with
    | .ok a => return .ok a
    | .error e => return .error (wrap e)

end Action

end CampusQuery
