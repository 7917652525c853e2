/-
CampusQuery/Filter/Wildcard.lean

Patterns of texts.  A pattern may have an asterisk as its first and as its last
character; each stands for any text, and everything between must be there as it is.
-/

namespace CampusQuery

/-- A pattern: its core, and on which sides more may stand. -/
structure Wildcard where
  openStart : Bool
  core : List Char
  openEnd : Bool
deriving DecidableEq

namespace Wildcard

/-- The pattern a text denotes; `none` when an asterisk stands in between. -/
def ofText? (pattern : String) : Option Wildcard :=
  let cs := pattern.toList
  let openStart := cs.head? == some '*'
  let rest := if openStart then cs.tail else cs
  let openEnd := rest.getLast? == some '*'
  let core := if openEnd then rest.dropLast else rest
  if core.contains '*' then none else some ⟨openStart, core, openEnd⟩

/-- The core occurs somewhere in the text. -/
def occursIn (core : List Char) : List Char → Bool
  | [] => core.isEmpty
  | c :: cs => core.isPrefixOf (c :: cs) || occursIn core cs

/-- The text fits the pattern. -/
def fits (w : Wildcard) (text : String) : Bool :=
  let cs := text.toList
  match w.openStart, w.openEnd with
  | false, false => cs == w.core
  | false, true => w.core.isPrefixOf cs
  | true, false => w.core.isSuffixOf cs
  | true, true => occursIn w.core cs

end Wildcard

end CampusQuery
