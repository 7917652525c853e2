/-
CampusQuery/Json/Typed.lean

Reading trees as values of a fixed shape: strings, numbers of a given width, lists,
and records with named fields.

A reader reports the first thing that is wrong, in the order of the text: a value of
the wrong type, an integer out of range, a field given twice, and only at the end of
a record a field that is missing, in the order in which the record declares its
fields.  A record may also be given as an array of its fields in that order.
-/
import CampusQuery.Json.Tree
import CampusQuery.Json.Write
import CampusQuery.Text.Visible

namespace CampusQuery.Json

/-! ### What can be wrong -/

/-- What was found where something else was expected. -/
inductive Found where
  | null
  | bool (value : Bool)
  | number (value : Number)
  | text (value : String)
  | sequence
  | map
deriving DecidableEq

/-- How a message names what was found. -/
def Found.describe : Found → String
  | .null => "null"
  | .bool b => s!"boolean `{b}`"
  | .number (.integer i) => s!"integer `{i}`"
  | .number (.float x) => "floating point `" ++ String.ofList x.documentText ++ "`"
  | .text s => "string " ++ Text.quotation s
  | .sequence => "sequence"
  | .map => "map"

/-- A value that does not have the expected shape. -/
inductive Misfit where
  | wrongType (found : Found) (expected : String)
  | outOfRange (found : Int) (expected : String)
  | wrongLength (length : Nat) (expected : String)
  | unknownVariant (found : String) (known : List String)
  | duplicateField (name : String)
  | missingField (name : String)
deriving DecidableEq

/-- The names of variants as a message lists them. -/
def listNames : List String → String
  | [] => "nothing"
  | [a] => s!"`{a}`"
  | [a, b] => s!"`{a}` or `{b}`"
  | names => "one of " ++ String.intercalate ", " (names.map fun n => s!"`{n}`")

/-- The wording of a misfit. -/
def Misfit.message : Misfit → String
  | .wrongType found expected => s!"invalid type: {found.describe}, expected {expected}"
  | .outOfRange found expected => s!"invalid value: integer `{found}`, expected {expected}"
  | .wrongLength length expected => s!"invalid length {length}, expected {expected}"
  | .unknownVariant found known => s!"unknown variant `{found}`, expected {listNames known}"
  | .duplicateField name => s!"duplicate field `{name}`"
  | .missingField name => s!"missing field `{name}`"

/-- Why a document could not be read. -/
inductive Fault where
  | malformed
  | misfit (cause : Misfit)
deriving DecidableEq

/-- The message for a text that is not JSON. -/
def malformedMessage : String := "not a well-formed JSON document"

/-- The wording of a fault. -/
def Fault.message : Fault → String
  | .malformed => malformedMessage
  | .misfit cause => cause.message

/-! ### Single values -/

namespace Tree

/-- What a message says was found; `none` for what is not a value. -/
def found? : Tree → Option Found
  | .fault => none
  | .null => some .null
  | .bool b => some (.bool b)
  | .number n => n.map .number
  | .text s => s.map .text
  | .array _ => some .sequence
  | .object _ => some .map

/-- The fault of a tree that is not what was expected. -/
def unexpected (t : Tree) (expected : String) : Fault :=
  match t.found? with
  | some found => .misfit (.wrongType found expected)
  | none => .malformed

/-- A string. -/
def readText : Tree → Except Fault String
  | .text (some s) => .ok s
  | t => .error (t.unexpected "a string")

/-- A number of either kind as floating point. -/
def readBinary64 : Tree → Except Fault Binary64
  | .number (some n) => .ok n.toBinary64
  | t => .error (t.unexpected "f64")

/-- An integer from `least` to `greatest`, a range that goes by `name`. -/
def readInteger (name : String) (least greatest : Int) : Tree → Except Fault Int
  | .number (some (.integer i)) =>
    if least ≤ i ∧ i ≤ greatest then .ok i else .error (.misfit (.outOfRange i name))
  | t => .error (t.unexpected name)

/-- An integer of 64 bits with sign. -/
def readInt64 : Tree → Except Fault Int :=
  readInteger "i64" Binary64.minInt64 Binary64.maxInt64

/-- A natural number below `2 ^ bits`, in a range that goes by `name`. -/
def readNat (name : String) (bits : Nat) (t : Tree) : Except Fault Nat :=
  (readInteger name 0 ((Nat.pow 2 bits : Nat) - 1) t).map Int.toNat

/-- A value of any shape, brackets at most `depth` deep. -/
def readAny (depth : Nat) (t : Tree) : Except Fault Json :=
  match t.toJson? depth with
  | some v => .ok v
  | none => .error .malformed

/-- A list of values that `readItem` reads. -/
def readList {α : Type} (readItem : Tree → Except Fault α) : Tree → Except Fault (List α)
  | .array items => items.mapM readItem
  | t => .error (t.unexpected "a sequence")

/-- The variant of a name. -/
def pickVariant {α : Type} (variants : List (String × α)) (name : String) : Except Fault α :=
  match variants.find? (·.1 == name) with
  | some (_, a) => .ok a
  | none => .error (.misfit (.unknownVariant name (variants.map (·.1))))

/-- One of several names, in a text document.  The name may stand as the key of a
single member whose value is null. -/
def readVariant {α : Type} (variants : List (String × α)) : Tree → Except Fault α
  | .text (some s) => pickVariant variants s
  | .object ((some key, value) :: rest) => do
    let chosen ← pickVariant variants key
    match value with
    | .null => if rest.isEmpty then .ok chosen else .error .malformed
    | t => .error (t.unexpected "unit")
  | _ => .error .malformed

end Tree

/-! ### Records -/

/-- A named field of a record under construction: whether it may be left out, and how
a tree sets it. -/
structure Slot (σ : Type) where
  name : String
  optional : Bool
  read : Tree → Except Fault (σ → σ)

/-- A field that must be there. -/
def Slot.required {σ α : Type} (name : String) (read : Tree → Except Fault α)
    (set : α → σ → σ) : Slot σ :=
  ⟨name, false, fun t => (read t).map set⟩

/-- A field that keeps its initial value when it is left out. -/
def Slot.defaulted {σ α : Type} (name : String) (read : Tree → Except Fault α)
    (set : α → σ → σ) : Slot σ :=
  ⟨name, true, fun t => (read t).map set⟩

/-- Where a document comes from: a text, or a value that was read before. -/
inductive Origin where
  | text
  | value
deriving DecidableEq

namespace Tree

variable {σ : Type}

/-- Reads the members in their order; `seen` holds the names of the fields set so
far.  Members that are no fields need a key, and their values only have to follow the
grammar. -/
def readMembers (slots : List (Slot σ)) : List (Option String × Tree) → List String → σ →
    Except Fault σ
  | [], seen, record =>
    match slots.find? fun s => !s.optional && !seen.contains s.name with
    | some s => .error (.misfit (.missingField s.name))
    | none => .ok record
  | (none, _) :: _, _, _ => .error .malformed
  | (some key, t) :: rest, seen, record =>
    match slots.find? (·.name == key) with
    | none => if t.hasFault then .error .malformed else readMembers slots rest seen record
    | some s =>
      if seen.contains key then .error (.misfit (.duplicateField key))
      else do
        let set ← s.read t
        readMembers slots rest (key :: seen) (set record)

/-- Reads the items as the fields in their order.  `length` is the number of items
before these, and `expected` describes the whole record. -/
def readPositions (expected : String) (whole : Nat) (origin : Origin) : List (Slot σ) → List Tree →
    (length : Nat) → σ → Except Fault σ
  | [], [], _, record => .ok record
  | [], _ :: _, _, _ =>
    match origin with
    | .text => .error .malformed
    | .value => .error (.misfit (.wrongLength whole "fewer elements in array"))
  | s :: slots, [], length, record =>
    if s.optional then readPositions expected whole origin slots [] (length + 1) record
    else .error (.misfit (.wrongLength length expected))
  | s :: slots, t :: rest, length, record => do
    let set ← s.read t
    readPositions expected whole origin slots rest (length + 1) (set record)

/-- Reads a record called `name`, starting from `blank`. -/
def readRecord (origin : Origin) (name : String) (slots : List (Slot σ)) (blank : σ) :
    Tree → Except Fault σ
  | .object members => readMembers slots members [] blank
  | .array items =>
    readPositions s!"struct {name} with {slots.length} elements" items.length origin slots items 0
      blank
  | t => .error (t.unexpected s!"struct {name}")

end Tree

/-- Reads a whole text with `read`; nothing but blanks may follow the document. -/
def readText [FloatReader] {α : Type} (read : Tree → Except Fault α) (source : Text.Source) :
    Except Fault α := do
  let (t, complete) := Tree.read source
  let a ← read t
  if complete then return a else throw .malformed

end CampusQuery.Json
