/-
CampusQuery/Text/Source.lean

Texts on their way in.  Files and request bodies arrive as bytes that are meant to be
UTF-8.  A `Source` has a place for each character that the bytes spell and one for
each byte that belongs to no character, so that a reader may pass over such a byte
where nothing depends on it.
-/

namespace CampusQuery.Text

/-- A text to be read; `none` stands for a byte that belongs to no character. -/
abbrev Source := List (Option Char)

namespace Source

/-- Characters as a source. -/
def ofChars (cs : List Char) : Source := cs.map some

/-- A text as a source. -/
def ofText (s : String) : Source := ofChars s.toList

/-- What the bytes from position `i` on spell, at most `fuel` places of it, after the
places in `acc`, which are in reverse. -/
def decodeFrom (bytes : ByteArray) : Nat → Nat → Source → Source
  | 0, _, acc => acc.reverse
  | fuel + 1, i, acc =>
    if i < bytes.size then
      match bytes.utf8DecodeChar? i with
      | some c => decodeFrom bytes fuel (i + c.utf8Size) (some c :: acc)
      | none => decodeFrom bytes fuel (i + 1) (none :: acc)
    else acc.reverse

/-- What bytes spell in UTF-8. -/
def ofBytes (bytes : ByteArray) : Source :=
  match String.fromUTF8? bytes with
  | some s => ofText s
  | none => decodeFrom bytes bytes.size 0 []

/-- The characters at the start for which `p` holds, and what follows them. -/
def spanChars (p : Char → Bool) : Source → List Char × Source
  | some c :: rest =>
    if p c then
      let (cs, rest) := spanChars p rest
      (c :: cs, rest)
    else ([], some c :: rest)
  | s => ([], s)

end Source

end CampusQuery.Text
