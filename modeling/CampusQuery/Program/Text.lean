/-
CampusQuery/Program/Text.lean

Requests whose answers are texts in UTF-8.
-/
import CampusQuery.Program.Basic

namespace CampusQuery.Program

/-- Bytes as a text. -/
def decodeText (bytes : ByteArray) : Except FileError String :=
  match String.fromUTF8? bytes with
  | some text => .ok text
  | none => .error .notUtf8

/-- Reads a file as a text. -/
def readsText (path : FilePath) : Program (Except FileError String) := do
  return (← reads path).bind decodeText

/-- Reads what the caller sends as a text. -/
def requestText : Program (Except FileError String) := do
  return decodeText (← request)

end CampusQuery.Program
