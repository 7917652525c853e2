/-
CampusQuery/Program/World.lean

A model of a program's surroundings, and how a program runs in it.

The world holds the files, what the caller sends, the answers of the clock, and what
was put out so far.  Journal entries that are serious enough go to one of two
channels: from errors on to the channel for errors, all others to the one on which
callers are answered.
-/
import CampusQuery.Program.Basic

namespace CampusQuery

/-- The surroundings of a program. -/
structure World where
  files : FileTree
  input : ByteArray
  /-- The answers to the readings, by their number. -/
  readings : Nat → Reading → String
  /-- The number of readings taken. -/
  taken : Nat
  /-- Entries less serious than this are dropped. -/
  minimum : Severity
  out : List String
  err : List String

namespace World

/-- The world after an entry was written. -/
def log (w : World) (e : Journal.Entry) : World :=
  if !e.severity.reaches w.minimum then w
  else if e.severity.reaches .error then { w with err := w.err ++ [e.text] }
  else { w with out := w.out ++ [e.text] }

/-- The world after something was put out. -/
def put (w : World) : Output → World
  | .entry e => w.log e
  | .line text => { w with out := w.out ++ [text] }
  | .minimum s => { w with minimum := s }

/-- The answer to a question about a path. -/
def answer (w : World) (path : FilePath) : PathQuestion → Bool
  | .present => w.files.present path
  | .isDirectory => w.files.isDirectory path
  | .isFile => w.files.isFile path

end World

namespace Program

variable {α β : Type}

/-- Runs a program to its end. -/
def run : Program α → World → α × World
  | .done a, w => (a, w)
  | .change c next, w =>
    match w.files.apply c with
    | .ok files => (next (.ok ())).run { w with files }
    | .error e => (next (.error e)).run w
  | .ask q path next, w => (next (w.answer path q)).run w
  | .list directory next, w => (next ((w.files.list directory).map .whole)).run w
  | .read path next, w => (next (w.files.read path)).run w
  | .reading r next, w => (next (w.readings w.taken r)).run { w with taken := w.taken + 1 }
  | .input next, w => (next w.input).run w
  | .put o next, w => next.run (w.put o)

/-- A run of two programs is a run of the first and then one of the second. -/
theorem run_bind (p : Program α) (f : α → Program β) (w : World) :
    (p >>= f).run w = (f (p.run w).1).run (p.run w).2 := by
  show (p.bind f).run w = _
  induction p generalizing w with
  | done _ => rfl
  | change c next ih =>
    simp only [bind, run]
    split <;> exact ih _ _
  | put _ _ ih => exact ih _
  | _ => rename_i ih; exact ih _ _

@[simp] theorem run_pure (a : α) (w : World) : (pure a : Program α).run w = (a, w) := rfl

end Program

end CampusQuery
