/-
CampusQuery/Proofs/Answer/Documents.lean

An answer is the same document for the caller of the command and for the one of the service.

The service sends an answer as an object whose rows are written as they stand, with the keys in the
order of the columns and as often as these name them.  The command sorts the rows first, and keeps
one member of each key.  Both write `null` for a number that is not finite.  A reader gets the same
rows from both (`Answer.read?_body_and_line`): those of `Answer.value`, in which whole numbers below
the bound are integers and other numbers are not.
-/
import CampusQuery.Command.Run
import CampusQuery.Proofs.Answer.PrimaryKey
import CampusQuery.Proofs.Dataset.Literals
import CampusQuery.Proofs.Json.Printed

namespace CampusQuery

open Json (Printable)

variable {depth : Nat}

/-! ### Values of answers -/

/-- The value of a cell: a whole number below the bound is an integer, another finite number is a
float, and no number if it is not finite. -/
def Scalar.value : Scalar → Json
  | .number x =>
    match x.whole? with
    | some i => if i.natAbs < integerBound then .ofInt i else .number (.float x)
    | none => if x.isFinite then .number (.float x) else .null
  | .text s => .text s

/-- The value of a row: its keys in order, each once, with the last of its cells. -/
def Row.value (row : Row) : Json :=
  .object (Json.sortMembers (row.entries.map fun cell => (cell.1, cell.2.value)))

/-- The value of an answer: those of its rows. -/
def Answer.value (a : Answer) : Json := .array (a.rows.map Row.value)

/-! ### What is written for them -/

theorem Scalar.printable_toJson (v : Scalar) : Printable depth v.toJson := by
  rcases v with x | s
  · rw [toJson]
    split
    · split
      · rename_i i _ hbound
        exact .integer (IsExact.isInt64 (Int.ofNat_lt.mp hbound)).storable
      · exact .float x
    · exact .float x
  · exact .text s

/-- Only finite numbers are whole. -/
theorem Binary64.isFinite_of_whole? {x : Binary64} {i : Int} (h : x.whole? = some i) :
    x.isFinite = true := by
  rcases x with - | negative | ⟨negative, size⟩
  · cases h
  · cases h
  · rfl

theorem Scalar.nulled_toJson (v : Scalar) : v.toJson.nulled = v.value := by
  rcases v with x | s
  · rcases hwhole : x.whole? with - | i
    · simp only [toJson, value, hwhole]
      rfl
    · simp only [toJson, value, hwhole]
      split
      · rfl
      · exact if_pos (Binary64.isFinite_of_whole? hwhole)
  · rfl

theorem Row.printable_toJson (row : Row) : Printable (depth + 1) row.toJson := by
  refine .object fun m hm => ?_
  obtain ⟨cell, -, rfl⟩ := List.mem_map.mp hm
  exact cell.2.printable_toJson

/-- Cells have no members to sort. -/
theorem Scalar.sorted_value (v : Scalar) : v.value.sorted = v.value := by
  rw [← nulled_toJson]
  rcases v with x | s
  · rw [nulled_toJson, value]
    split
    · split <;> rfl
    · split <;> rfl
  · rfl

theorem Row.nulled_sorted_toJson (row : Row) : row.toJson.nulled.sorted = row.value := by
  rw [toJson, Json.nulled, Json.sorted, Json.nulledMembers_eq_map, Json.sortedMembers_eq_map,
    List.map_map, List.map_map, value]
  refine congrArg (Json.object ∘ Json.sortMembers) (List.map_congr_left fun cell _ => ?_)
  show (cell.1, cell.2.toJson.nulled.sorted) = _
  rw [Scalar.nulled_toJson, Scalar.sorted_value]

namespace Answer

theorem printable_rowsJson (a : Answer) : Printable (depth + 2) a.rowsJson := by
  refine .array fun v hv => ?_
  obtain ⟨row, -, rfl⟩ := List.mem_map.mp hv
  exact row.printable_toJson

theorem nulled_sorted_rowsJson (a : Answer) : a.rowsJson.nulled.sorted = a.value := by
  rw [rowsJson, Json.nulled, Json.sorted, Json.nulledItems_eq_map, sortedItems_eq_map,
    List.map_map, List.map_map, value]
  exact congrArg Json.array (List.map_congr_left fun row _ => row.nulled_sorted_toJson)

end Answer

/-! ### What is read off it -/

/-- The last of several members with one key counts. -/
theorem Json.get?_sortMembers (members : List (String × Json)) (key : String) :
    (Json.object (sortMembers members)).get? key =
      (members.reverse.find? (·.1 == key)).map Prod.snd := by
  have hfold : ∀ acc : List (String × Json),
      (Json.object (members.foldl (fun sorted m => insertMember m.1 m.2 sorted) acc)).get? key =
        ((members.reverse.find? (·.1 == key)).map Prod.snd).or ((Json.object acc).get? key) := by
    induction members with
    | nil => exact fun _ => rfl
    | cons m members ih =>
      intro acc
      rw [List.foldl_cons, ih, get?_insertMember, List.reverse_cons, List.find?_append,
        Option.map_or, Option.or_assoc]
      by_cases hkey : m.1 = key <;> simp [hkey]
  rw [sortMembers, hfold]
  exact Option.or_none

theorem Row.get?_value (row : Row) (key : String) :
    row.value.get? key = (row.entries.reverse.find? (·.1 == key)).map (·.2.value) := by
  rw [value, Json.get?_sortMembers, ← List.map_reverse, List.find?_map, Option.map_map]
  rfl

namespace Command

variable {data : Json}

/-- The line with some data says the data, in sorted order and with its nulls. -/
theorem denotes_successLine (h : Printable 126 data) : Json.Denotes (successLine data).toList
    (.object [("data", data.nulled.sorted), ("status", .text "ok")]) := by
  refine Json.denotes_write_object (fun m hm => ?_)
    (Json.increasing_of_keys (show ["data", "status"].Pairwise (· < ·) by decide) rfl)
  rcases List.mem_pair.mp hm with rfl | rfl
  · exact h
  · exact .text _

/-- Data that was sorted is written as it is with its nulls. -/
theorem successLine_sorted (h : Printable depth data) :
    successLine data.sorted = successLine data.nulled.sorted := by
  have hchars : data.sorted.chars = data.nulled.sorted.chars := by
    rw [Json.sorted_nulled h, Json.chars_nulled (Json.printable_sorted h)]
  unfold successLine Json.write Json.chars Json.charsMembers
  rw [hchars]

end Command

/-- **Both callers get the same answer.**  An exact reader takes the text that the service sends for
an object with the one member `result`, and the line of the command for one with the member `data`,
and these two are the same value.  It has a member for each key of a row, the value of the last cell
under the key. -/
theorem Answer.read?_body_and_line [FloatReader] [FloatReader.Exact] (a : Answer) :
    Json.read? a.toJson.write.toList = some (.object [("result", a.value)]) ∧
      Command.successLine a.rowsJson.sorted = Command.successLine a.value ∧
      Json.read? (Command.successLine a.rowsJson.sorted).toList =
        some (.object [("data", a.value), ("status", .text "ok")]) ∧
      ∀ row ∈ a.rows, ∀ key, row.value.get? key =
        (row.entries.reverse.find? (·.1 == key)).map (·.2.value) := by
  have hvalue := a.nulled_sorted_rowsJson
  have hrows : Printable 2 a.rowsJson := a.printable_rowsJson
  refine ⟨?_, ?_, ?_, fun row _ key => row.get?_value key⟩
  · rw [← hvalue]
    refine Json.denotes_write_object (fun m hm => ?_) (List.pairwise_singleton _ _)
    rw [List.mem_singleton.mp hm]
    exact a.printable_rowsJson
  · rw [Command.successLine_sorted hrows, hvalue]
  · rw [Command.denotes_successLine (Json.printable_sorted a.printable_rowsJson),
      Json.sorted_nulled_sorted hrows, hvalue]

section Sample

attribute [local instance] FloatReader.nearest

/-- A sum beyond all numbers, a column that stands twice, and a fraction. -/
def Answer.sample : Answer where
  dataset := "ubc"
  rows := [⟨[("sum", .number .top), ("dept", .text "cpsc"), ("dept", .text "math")]⟩,
    ⟨[("sum", .number (.ofInt 7)), ("avg", .number (.ofScientific false 855 (-1)))]⟩]

/-- Its rows as a reader has them. -/
def Answer.sampleValue : Json :=
  .array [.object [("dept", .text "math"), ("sum", .null)],
    .object [("avg", .number (.float (.ofScientific false 855 (-1)))), ("sum", .ofInt 7)]]

theorem Answer.value_sample : sample.value = sampleValue := by
  have hseven : (Scalar.number (.ofInt 7)).value = .ofInt 7 := by
    have hwhole : (Binary64.ofInt 7).whole? = some 7 := by decide +kernel
    simp [Scalar.value, hwhole, Scalar.integerBound]
  have hfraction : (Scalar.number (.ofScientific false 855 (-1))).value =
      .number (.float (.ofScientific false 855 (-1))) := by
    have hwhole : (Binary64.ofScientific false 855 (-1)).whole? = none := by decide +kernel
    have hfinite : (Binary64.ofScientific false 855 (-1)).isFinite := by decide +kernel
    simp [Scalar.value, hwhole, hfinite]
  simp only [value, sample, List.map_cons, List.map_nil, Row.value, hseven, hfraction]
  rfl

theorem Answer.read?_body_and_line_sample :
    Json.read? sample.toJson.write.toList = some (.object [("result", sampleValue)]) ∧
      Json.read? (Command.successLine sample.rowsJson.sorted).toList =
        some (.object [("data", sampleValue), ("status", .text "ok")]) := by
  obtain ⟨hbody, -, hline, -⟩ := Answer.read?_body_and_line sample
  rw [value_sample] at hbody hline
  exact ⟨hbody, hline⟩

end Sample

end CampusQuery
