/-
CampusQuery/Json/Tree.lean

What a text says as JSON, up to its first fault.

`Tree.read` follows the grammar and never fails: where the text breaks it, the tree
ends in a `fault`.  A tree keeps the members of an object in the order of the text,
repeated keys included, so a reader that expects certain members can report what is
wrong with a member before it meets a fault further on.  Strings and keys that spell
no text, because of an escape or a byte that stands for no character, and numbers
beyond the range of floating point are kept as such; they are faults only for a reader
that wants their value.  Which number a literal with a fraction or an exponent gives is
up to the `FloatReader`.

`Tree.toJson?` turns a tree into a value, and fails on any fault.
-/
import CampusQuery.Json.Basic
import CampusQuery.Decimal.Reader
import CampusQuery.Text.Source

namespace CampusQuery.Json

open Text (Source)

/-- A JSON text read as far as it follows the grammar.  A member has no key where its
key spells no text, and where the text breaks off before a key. -/
inductive Tree where
  | fault
  | null
  | bool (value : Bool)
  | number (value : Option Number)
  | text (value : Option String)
  | array (items : List Tree)
  | object (members : List (Option String × Tree))

/-! ### Strings -/

/-- A piece of a string: a character as it stands, a code written as an escape, or a
byte that belongs to no character. -/
inductive Piece where
  | char (c : Char)
  | code (n : Nat)
  | stray

/-- The value of a hexadecimal digit. -/
def hexDigit? (c : Char) : Option Nat :=
  if c.isDigit then some (c.toNat - '0'.toNat)
  else if 'a' ≤ c ∧ c ≤ 'f' then some (c.toNat - 'a'.toNat + 10)
  else if 'A' ≤ c ∧ c ≤ 'F' then some (c.toNat - 'A'.toNat + 10)
  else none

/-- The value of four hexadecimal digits. -/
def hexCode? (a b c d : Char) : Option Nat := do
  return ((← hexDigit? a) * 16 + (← hexDigit? b)) * 256 +
    ((← hexDigit? c) * 16 + (← hexDigit? d))

/-- The character of a one-letter escape. -/
def shortEscape? : Char → Option Char
  | '"' => some '"'
  | '\\' => some '\\'
  | '/' => some '/'
  | 'b' => some '\x08'
  | 'f' => some '\x0c'
  | 'n' => some '\n'
  | 'r' => some '\r'
  | 't' => some '\t'
  | _ => none

/-- The pieces up to the closing quote, in reverse before `acc`, and what follows the
quote. -/
def scanPieces (acc : List Piece) : Source → Option (List Piece × Source)
  | [] => none
  | some '"' :: rest => some (acc.reverse, rest)
  | some '\\' :: some 'u' :: some a :: some b :: some c :: some d :: rest =>
    match hexCode? a b c d with
    | some n => scanPieces (.code n :: acc) rest
    | none => none
  | some '\\' :: some e :: rest =>
    match shortEscape? e with
    | some c => scanPieces (.char c :: acc) rest
    | none => none
  | some c :: rest => if c < ' ' ∨ c = '\\' then none else scanPieces (.char c :: acc) rest
  | none :: rest => scanPieces (.stray :: acc) rest

/-- The characters that the pieces spell.  Two codes that are the halves of a
surrogate pair spell one character; a half alone spells none, and neither does a byte
that belongs to no character. -/
def spell : List Piece → Option (List Char)
  | [] => some []
  | .stray :: _ => none
  | .char c :: rest => (spell rest).map (c :: ·)
  | .code hi :: .code lo :: rest =>
    if 0xD800 ≤ hi ∧ hi < 0xDC00 then
      if 0xDC00 ≤ lo ∧ lo < 0xE000 then
        (spell rest).map (Char.ofNat (0x10000 + (hi - 0xD800) * 0x400 + (lo - 0xDC00)) :: ·)
      else none
    else if 0xDC00 ≤ hi ∧ hi < 0xE000 then none
    else (spell (.code lo :: rest)).map (Char.ofNat hi :: ·)
  | .code n :: rest =>
    if 0xD800 ≤ n ∧ n < 0xE000 then none else (spell rest).map (Char.ofNat n :: ·)

/-- The string whose opening quote was just read, and what follows its closing
quote. -/
def scanString (s : Source) : Option (Option String × Source) :=
  (scanPieces [] s).map fun (pieces, rest) => ((spell pieces).map String.ofList, rest)

/-! ### Numbers -/

/-- The character can stand in a number. -/
def isNumeralChar (c : Char) : Bool := c.isDigit || ['-', '+', '.', 'e', 'E'].contains c

/-- The number of a literal: an integer of 64 bits, with sign or without, stays an
integer, except for a zero with a minus; any other literal is floating point.  `none`
beyond its range. -/
def Number.ofNumeral? [FloatReader] (literal : List Char) (n : Numeral) : Option Number :=
  let i : Int := if n.negative then -n.digits else n.digits
  if n.bare && !(n.negative && n.digits == 0) && Binary64.minInt64 ≤ i && i < Nat.pow 2 64 then
    some (.integer i)
  else
    let x := FloatReader.read literal
    if x.isFinite then some (.float x) else none

/-- The number at the start, and what follows it. -/
def scanNumber [FloatReader] (s : Source) : Option (Option Number × Source) :=
  let (cs, rest) := s.spanChars isNumeralChar
  (Numeral.scan cs).map fun (n, left) =>
    (Number.ofNumeral? (cs.take (cs.length - left.length)) n, .ofChars left ++ rest)

/-! ### Values -/

namespace Tree

/-- The blanks between the parts of a document. -/
def isSpace (c : Char) : Bool := c == ' ' || c == '\n' || c == '\t' || c == '\r'

/-- The source after the blanks at its start. -/
def skip (s : Source) : Source := s.dropWhile fun c => c.any isSpace

theorem skip_skip (s : Source) : skip (skip s) = skip s := by
  induction s with
  | nil => rfl
  | cons c s ih =>
    by_cases h : c.any isSpace = true
    · have hstep : skip (c :: s) = skip s := List.dropWhile_cons_of_pos h
      rw [hstep, ih]
    · have hstay : skip (c :: s) = c :: s := List.dropWhile_cons_of_neg h
      rw [hstay, hstay]

section Scan

variable [FloatReader]

mutual

/-- The value at the start of a source, after blanks, and what follows it; nothing
follows a fault. -/
def scan : Nat → Source → Tree × Option Source
  | 0, _ => (.fault, none)
  | fuel + 1, s =>
    match skip s with
    | some 'n' :: some 'u' :: some 'l' :: some 'l' :: rest => (.null, some rest)
    | some 't' :: some 'r' :: some 'u' :: some 'e' :: rest => (.bool true, some rest)
    | some 'f' :: some 'a' :: some 'l' :: some 's' :: some 'e' :: rest =>
      (.bool false, some rest)
    | some '"' :: rest =>
      match scanString rest with
      | some (spelled, rest) => (.text spelled, some rest)
      | none => (.fault, none)
    | some '[' :: rest =>
      match skip rest with
      | some ']' :: rest => (.array [], some rest)
      | rest =>
        let (items, rest) := scanItems fuel rest
        (.array items, rest)
    | some '\x7b' :: rest =>
      match skip rest with
      | some '\x7d' :: rest => (.object [], some rest)
      | rest =>
        let (members, rest) := scanMembers fuel rest
        (.object members, rest)
    | rest =>
      match scanNumber rest with
      | some (n, rest) => (.number n, some rest)
      | none => (.fault, none)

/-- The items from the first one to the closing bracket. -/
def scanItems : Nat → Source → List Tree × Option Source
  | 0, _ => ([.fault], none)
  | fuel + 1, s =>
    match scan fuel s with
    | (item, none) => ([item], none)
    | (item, some rest) =>
      match skip rest with
      | some ']' :: rest => ([item], some rest)
      | some ',' :: rest =>
        let (items, rest) := scanItems fuel rest
        (item :: items, rest)
      | _ => ([item, .fault], none)

/-- The members from the first key to the closing brace. -/
def scanMembers : Nat → Source → List (Option String × Tree) × Option Source
  | 0, _ => ([(none, .fault)], none)
  | fuel + 1, s =>
    match skip s with
    | some '"' :: rest =>
      match scanString rest with
      | some (key, rest) =>
        match skip rest with
        | some ':' :: rest =>
          match scan fuel rest with
          | (value, none) => ([(key, value)], none)
          | (value, some rest) =>
            match skip rest with
            | some '\x7d' :: rest => ([(key, value)], some rest)
            | some ',' :: rest =>
              let (members, rest) := scanMembers fuel rest
              ((key, value) :: members, rest)
            | _ => ([(key, value), (none, .fault)], none)
        | _ => ([(key, .fault)], none)
      | none => ([(none, .fault)], none)
    | _ => ([(none, .fault)], none)

end

/-- Blanks before a value do not count. -/
theorem scan_skip (fuel : Nat) (s : Source) : scan fuel (skip s) = scan fuel s := by
  cases fuel with
  | zero => rfl
  | succ fuel => rw [scan, scan, skip_skip]

theorem scanItems_skip (fuel : Nat) (s : Source) : scanItems fuel (skip s) = scanItems fuel s := by
  cases fuel with
  | zero => rfl
  | succ fuel => rw [scanItems, scanItems, scan_skip]

theorem scanMembers_skip (fuel : Nat) (s : Source) :
    scanMembers fuel (skip s) = scanMembers fuel s := by
  cases fuel with
  | zero => rfl
  | succ fuel => rw [scanMembers, scanMembers, skip_skip]

/-- The document that a source is, and whether the source ends with it; blanks may
follow. -/
def read (s : Source) : Tree × Bool :=
  match scan (2 * s.length + 2) s with
  | (t, some rest) => (t, (skip rest).isEmpty)
  | (t, none) => (t, false)

end Scan

mutual

/-- There is a fault in the grammar somewhere. -/
def hasFault : Tree → Bool
  | .fault => true
  | .array items => hasFaultItems items
  | .object members => hasFaultMembers members
  | _ => false

/-- There is a fault in one of the items. -/
def hasFaultItems : List Tree → Bool
  | [] => false
  | t :: rest => hasFault t || hasFaultItems rest

/-- There is a fault in the value of one of the members. -/
def hasFaultMembers : List (Option String × Tree) → Bool
  | [] => false
  | (_, t) :: rest => hasFault t || hasFaultMembers rest

end

mutual

/-- The value of a tree without faults whose brackets are at most `depth` deep.  The
last of several members with one key counts. -/
def toJson? (depth : Nat) : Tree → Option Json
  | .fault => none
  | .null => some .null
  | .bool b => some (.bool b)
  | .number n => n.map .number
  | .text s => s.map .text
  | .array items =>
    match depth with
    | 0 => none
    | depth + 1 => (itemsToJson? depth items).map .array
  | .object members =>
    match depth with
    | 0 => none
    | depth + 1 => (membersToJson? depth members).map fun ms => .object (sortMembers ms)

/-- The values of items. -/
def itemsToJson? (depth : Nat) : List Tree → Option (List Json)
  | [] => some []
  | t :: rest =>
    match toJson? depth t with
    | some v => (itemsToJson? depth rest).map (v :: ·)
    | none => none

/-- The values of members, which all have keys. -/
def membersToJson? (depth : Nat) : List (Option String × Tree) → Option (List (String × Json))
  | [] => some []
  | (none, _) :: _ => none
  | (some k, t) :: rest =>
    match toJson? depth t with
    | some v => (membersToJson? depth rest).map ((k, v) :: ·)
    | none => none

end

mutual

/-- The tree of a value. -/
def ofJson : Json → Tree
  | .null => .null
  | .bool b => .bool b
  | .number n => .number (some n)
  | .text s => .text (some s)
  | .array items => .array (ofItems items)
  | .object members => .object (ofMembers members)

/-- The trees of items. -/
def ofItems : List Json → List Tree
  | [] => []
  | v :: rest => ofJson v :: ofItems rest

/-- The trees of members. -/
def ofMembers : List (String × Json) → List (Option String × Tree)
  | [] => []
  | (k, v) :: rest => (some k, ofJson v) :: ofMembers rest

end

end Tree

/-! ### Documents -/

/-- Brackets may nest this deep in a document. -/
def maxDepth : Nat := 127

/-- The value that a text is, if it is one. -/
def read? [FloatReader] (cs : List Char) : Option Json :=
  match Tree.read (.ofChars cs) with
  | (t, true) => t.toJson? maxDepth
  | (_, false) => none

end CampusQuery.Json
