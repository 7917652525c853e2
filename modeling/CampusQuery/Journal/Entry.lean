/-
CampusQuery/Journal/Entry.lean

Journal entries and the lines that they are written as.

An entry is one line of JSON: the name of its event first, its severity second, then
its fields in the order of their keys.  All values are strings, and every control
character in them is escaped, so an entry can break out neither of its strings nor
of its line.
-/
import CampusQuery.Json.Write

namespace CampusQuery

/-- How serious an entry is. -/
inductive Severity where
  | trace
  | info
  | warn
  | error
  | fatal
deriving DecidableEq

namespace Severity

/-- All severities, the least first. -/
def all : List Severity := [.trace, .info, .warn, .error, .fatal]

/-- The name of a severity. -/
def name : Severity → String
  | .trace => "TRACE"
  | .info => "INFO"
  | .warn => "WARN"
  | .error => "ERROR"
  | .fatal => "FATAL"

/-- The severity with a name. -/
def ofName? (s : String) : Option Severity := all.find? (·.name == s)

/-- The place of a severity in their order. -/
def rank : Severity → Nat
  | .trace => 0
  | .info => 1
  | .warn => 2
  | .error => 3
  | .fatal => 4

/-- The severity is at least `least`. -/
def reaches (s least : Severity) : Bool := least.rank ≤ s.rank

end Severity

namespace Journal

/-- The keys and values that an entry reports. -/
abbrev Fields := List (String × String)

/-- An entry of the journal. -/
structure Entry where
  severity : Severity
  event : String
  fields : Fields
deriving DecidableEq

/-- The character has the Unicode category Cc. -/
def isControl (c : Char) : Bool := c.toNat < 0x20 || (0x7F ≤ c.toNat && c.toNat ≤ 0x9F)

/-- A character inside a quoted string. -/
def escape (c : Char) : List Char :=
  match c with
  | '"' => ['\\', '"']
  | '\\' => ['\\', '\\']
  | '\n' => ['\\', 'n']
  | '\r' => ['\\', 'r']
  | '\t' => ['\\', 't']
  | c => if isControl c then ['\\', 'u', '0', '0'] ++ Json.hexByte c.toNat else [c]

/-- A quoted string. -/
def quote (s : String) : List Char := '"' :: s.toList.flatMap escape ++ ['"']

/-- A field, set off from what comes before it. -/
def fieldChars (field : String × String) : List Char :=
  ',' :: quote field.1 ++ ':' :: quote field.2

/-- The fields in the order of their keys; those with one key keep their order. -/
def sortFields (fields : Fields) : Fields := fields.mergeSort fun a b => a.1 ≤ b.1

namespace Entry

/-- The characters of an entry. -/
def chars (e : Entry) : List Char :=
  '\x7b' :: quote "event" ++ ':' :: quote e.event ++
    fieldChars ("severity", e.severity.name) ++
    (sortFields e.fields).flatMap fieldChars ++ ['\x7d']

/-- The text of an entry, without the end of its line. -/
def text (e : Entry) : String := String.ofList e.chars

/-- The line that an entry is written as. -/
def line (e : Entry) : String := String.ofList (e.chars ++ ['\n'])

end Entry

end Journal

end CampusQuery
