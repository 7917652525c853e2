/-
CampusQuery/Proofs/Dataset/Offerings.lean

What the sections of a course document report.

An entry describes an offering if all its members are there in the right types (`Describes`); such
entries have a section, and no others do (`section?_eq_some_iff`).  The section has the texts of the
entry, and its numbers as far as binary numbers hold them (`Reports`).  So a document has as many
sections as entries that describe something, in their order, whatever number the reader of the
document takes a fraction for (`sectionsOfText_reports`).

Not all numbers of a document are held by binary numbers, and a year that is a text need not be
finite (`sections_unfaithful`).
-/
import CampusQuery.Decimal.Scaling
import CampusQuery.Proofs.Dataset.Ingested
import CampusQuery.Proofs.Decimal.Truncation
import CampusQuery.Proofs.Json.Printed

namespace CampusQuery.CourseDocument

open Json (Number)

/-! ### Entries -/

/-- What an entry says. -/
structure Offering where
  subject : String
  course : String
  professor : String
  title : String
  label : String
  avg : Number
  pass : Number
  fail : Number
  audit : Number
  id : Number
  year : Number

variable {entry : Json} {o o' : Offering} {s s' : Section} {i j : ℤ}

/-- The member says the year, as a number or as a text that reads as one. -/
inductive IsYear : Json → Number → Prop where
  | number (n : Number) : IsYear (.number n) n
  | text {s : String} {x : Binary64} (h : Binary64.ofLiberalText? (Text.trim s.toList) = some x) :
    IsYear (.text s) (.float x)

/-- The entry has all the members of an offering, in the right types. -/
structure Describes (entry : Json) (o : Offering) : Prop where
  subject : entry.get? "Subject" = some (.text o.subject)
  course : entry.get? "Course" = some (.text o.course)
  professor : entry.get? "Professor" = some (.text o.professor)
  title : entry.get? "Title" = some (.text o.title)
  label : entry.get? "Section" = some (.text o.label)
  avg : entry.get? "Avg" = some (.number o.avg)
  pass : entry.get? "Pass" = some (.number o.pass)
  fail : entry.get? "Fail" = some (.number o.fail)
  audit : entry.get? "Audit" = some (.number o.audit)
  id : entry.get? "id" = some (.number o.id)
  year : ∃ v, entry.get? "Year" = some v ∧ IsYear v o.year

/-- The entry describes an offering. -/
def IsOffering (entry : Json) : Prop := ∃ o, Describes entry o

/-! ### Reading members -/

theorem text?_eq_some_iff {v : Json} {text : String} : v.text? = some text ↔ v = .text text := by
  cases v <;> simp [Json.text?]

theorem binary64?_eq_some_iff {v : Json} {x : Binary64} :
    v.binary64? = some x ↔ ∃ n, v = .number n ∧ n.toBinary64 = x := by
  cases v <;> simp [Json.binary64?]

/-- The text of a number that is an id. -/
def uuidOf (n : Number) : String :=
  match n.toInt64? with
  | some i => toString i
  | none => String.ofList n.toBinary64.plainText

theorem uuid?_eq_some_iff {v : Json} {uuid : String} :
    uuid? v = some uuid ↔ ∃ n, v = .number n ∧ uuidOf n = uuid := by
  cases v with
  | number n =>
    have huuid : uuid? (.number n) = some (uuidOf n) := by
      rcases hn : n.toInt64? with - | i
      all_goals simp only [uuid?, uuidOf, hn]
    simp [huuid]
  | _ => simp [uuid?]

theorem year?_eq_some_iff {v : Json} {year : ℤ} :
    year? v = some year ↔ ∃ n, IsYear v n ∧ n.toBinary64.truncate = year := by
  constructor
  · intro h
    cases v with
    | number n => exact ⟨n, .number n, Option.some.inj h⟩
    | text s =>
      obtain ⟨x, hx, rfl⟩ := Option.map_eq_some_iff.mp h
      exact ⟨.float x, .text hx, rfl⟩
    | _ => cases h
  · rintro ⟨n, hn, rfl⟩
    cases hn with
    | number n => rfl
    | text h => exact Option.map_eq_some_iff.mpr ⟨_, h, rfl⟩

/-- The section that an offering becomes. -/
def Offering.toSection (o : Offering) : Section where
  dept := o.subject
  course := o.course
  instructor := o.professor
  title := o.title
  avg := o.avg.toBinary64
  pass := o.pass.toBinary64.truncate
  fail := o.fail.toBinary64.truncate
  audit := o.audit.toBinary64.truncate
  uuid := uuidOf o.id
  year := if isOverall o.label then overallYear else o.year.toBinary64.truncate

/-- **An entry has a section just if it describes an offering**, and then that of the offering. -/
theorem section?_eq_some_iff : section? entry = some s ↔
    ∃ o, Describes entry o ∧ o.toSection = s := by
  unfold section?
  simp only [Option.bind_eq_bind, Option.bind_eq_some_iff, Option.pure_def, Option.some.injEq,
    text?_eq_some_iff, binary64?_eq_some_iff, uuid?_eq_some_iff, year?_eq_some_iff]
  constructor
  · rintro ⟨-, ⟨-, hid, id, rfl, rfl⟩, -, ⟨v, hv, year, hyear, rfl⟩, label, ⟨-, hlabel, rfl⟩,
      subject, ⟨-, hsubject, rfl⟩, course, ⟨-, hcourse, rfl⟩, professor, ⟨-, hprofessor, rfl⟩,
      title, ⟨-, htitle, rfl⟩, -, ⟨-, havg, avg, rfl, rfl⟩, -, ⟨-, hpass, pass, rfl, rfl⟩,
      -, ⟨-, hfail, fail, rfl, rfl⟩, -, ⟨-, haudit, audit, rfl, rfl⟩, rfl⟩
    exact ⟨⟨subject, course, professor, title, label, avg, pass, fail, audit, id, year⟩,
      ⟨hsubject, hcourse, hprofessor, htitle, hlabel, havg, hpass, hfail, haudit, hid, v, hv,
        hyear⟩, rfl⟩
  · rintro ⟨o, h, rfl⟩
    obtain ⟨v, hv, hyear⟩ := h.year
    exact ⟨_, ⟨_, h.id, _, rfl, rfl⟩, _, ⟨v, hv, _, hyear, rfl⟩, _, ⟨_, h.label, rfl⟩,
      _, ⟨_, h.subject, rfl⟩, _, ⟨_, h.course, rfl⟩, _, ⟨_, h.professor, rfl⟩,
      _, ⟨_, h.title, rfl⟩, _, ⟨_, h.avg, _, rfl, rfl⟩, _, ⟨_, h.pass, _, rfl, rfl⟩,
      _, ⟨_, h.fail, _, rfl, rfl⟩, _, ⟨_, h.audit, _, rfl, rfl⟩, rfl⟩

theorem isSome_section?_iff : (section? entry).isSome = true ↔ IsOffering entry := by
  rw [Option.isSome_iff_exists]
  constructor
  · rintro ⟨s, hs⟩
    obtain ⟨o, ho, -⟩ := section?_eq_some_iff.mp hs
    exact ⟨o, ho⟩
  · rintro ⟨o, ho⟩
    exact ⟨_, section?_eq_some_iff.mpr ⟨o, ho, rfl⟩⟩

instance : DecidablePred IsOffering := fun _ => decidable_of_iff _ isSome_section?_iff

/-! ### Sections -/

/-- What a section has from an offering.  The id is a text, which is that of the integer where the
id is an integer of 64 bits with sign, or a whole number that is small enough. -/
structure Reports (o : Offering) (s : Section) : Prop where
  dept : s.dept = o.subject
  course : s.course = o.course
  instructor : s.instructor = o.professor
  title : s.title = o.title
  avg : s.avg.IsNearest o.avg.value
  pass : o.pass.Truncates s.pass
  fail : o.fail.Truncates s.fail
  audit : o.audit.Truncates s.audit
  uuid : ∀ i, o.id = .integer i → IsInt64 i → s.uuid = toString i
  uuidWhole : ∀ x i, o.id = .float x → x.value = (i : ℤ) → i.natAbs < 2 ^ 53 →
    x ≠ .finite true 0 → s.uuid = toString i
  uuidOther : (∀ i, o.id = .integer i → ¬ IsInt64 i) →
    ∃ x : Binary64, x.IsNearest o.id.value ∧ s.uuid = String.ofList x.plainText
  overall : o.label.toLower = "overall" → s.year = 1900
  year : o.label.toLower ≠ "overall" → o.year.Truncates s.year

theorem toInt64?_eq_some_iff {n : Number} : n.toInt64? = some i ↔ n = .integer i ∧ IsInt64 i := by
  cases n with
  | integer k =>
    rw [Number.toInt64?, Option.ite_none_right_eq_some, Option.some.injEq, Number.integer.injEq,
      and_comm]
    exact and_congr_right fun h => by rw [h]; rfl
  | float x => exact ⟨nofun, fun h => nomatch h.1⟩

theorem isOverall_iff {label : String} : isOverall label = true ↔ label.toLower = "overall" := by
  have hlower : label.toLower.toList = label.toList.map Char.toLower := String.toList_map
  rw [isOverall, beq_iff_eq, ← String.toList_inj, hlower]

/-- The numbers of an entry that was read can be held by a document. -/
theorem reports_toSection (hentry : entry.Storable) (h : Describes entry o) :
    Reports o o.toSection := by
  have hnumber : ∀ {key n}, entry.get? key = some (.number n) → n.Storable := by
    intro key n hn
    cases hentry.get? hn with
    | number h => exact h
  have hyear : o.year.Truncates o.year.toBinary64.truncate := by
    -- a year that is a text may be any binary number, also one that no document holds
    obtain ⟨v, hv, hyear⟩ := h.year
    generalize o.year = year at hyear
    cases hyear with
    | number n => exact Number.truncates_of_storable (hnumber hv)
    | text _ => exact Number.truncates_float _
  refine
    { dept := rfl, course := rfl, instructor := rfl, title := rfl
      avg := Number.isNearest_toBinary64 (hnumber h.avg)
      pass := Number.truncates_of_storable (hnumber h.pass)
      fail := Number.truncates_of_storable (hnumber h.fail)
      audit := Number.truncates_of_storable (hnumber h.audit)
      uuid := fun i hid hi => ?_
      uuidWhole := fun x i hid hvalue hi hzero => ?_
      uuidOther := fun hid => ⟨_, Number.isNearest_toBinary64 (hnumber h.id), ?_⟩
      overall := fun hlabel => if_pos (isOverall_iff.mpr hlabel)
      year := fun hlabel => ?_ }
  · show uuidOf o.id = _
    rw [uuidOf, toInt64?_eq_some_iff.mpr ⟨hid, hi⟩]
  · have hx : (Number.float x).Storable := hnumber (hid ▸ h.id)
    show uuidOf o.id = _
    rw [hid, ← String.toList_inj, Number.toList_toString, Number.write,
      ← Binary64.plainText_eq hx hvalue hi hzero]
    exact String.toList_ofList
  · have hnone : o.id.toInt64? = none := by
      rw [Option.eq_none_iff_forall_ne_some]
      intro i hi
      obtain ⟨hid', hint⟩ := toInt64?_eq_some_iff.mp hi
      exact hid i hid' hint
    show uuidOf o.id = _
    rw [uuidOf, hnone]
  · have hother : o.toSection.year = o.year.toBinary64.truncate :=
      if_neg (mt isOverall_iff.mp hlabel)
    rw [hother]
    exact hyear

/-- **Different integers of 64 bits are different ids.** -/
theorem Reports.id_inj (h : Reports o s) (h' : Reports o' s') (hi : o.id = .integer i)
    (hj : o'.id = .integer j) (hint : IsInt64 i) (hint' : IsInt64 j) (heq : s.uuid = s'.uuid) :
    i = j := by
  rw [h.uuid i hi hint, h'.uuid j hj hint', ← String.toList_inj, Number.toList_toString,
    Number.toList_toString] at heq
  exact Number.integer.inj (Number.write_inj hint.storable hint'.storable heq)

/-! ### Documents -/

theorem forall₂_filterMap {α β : Type} {f : α → Option β} {p : α → Prop} [DecidablePred p]
    {R : α → β → Prop} {l : List α} (hp : ∀ a, (f a).isSome = true ↔ p a)
    (hR : ∀ a ∈ l, ∀ b, f a = some b → R a b) :
    List.Forall₂ R (l.filter p) (l.filterMap f) := by
  induction l with
  | nil => exact .nil
  | cons a l ih =>
    obtain ⟨ha, hl⟩ := List.forall_mem_cons.mp hR
    rcases hfa : f a with - | b
    · have hnot : ¬ p a := fun hpa => by simpa [hfa] using (hp a).mpr hpa
      rw [List.filter_cons_of_neg (by simpa using hnot), List.filterMap_cons_none hfa]
      exact ih hl
    · have hpa : p a := (hp a).mp (by rw [hfa]; rfl)
      rw [List.filter_cons_of_pos (by simpa using hpa), List.filterMap_cons_some hfa]
      exact .cons (ha b hfa) (ih hl)

/-- **The sections of a document** are those of its entries that describe offerings, in their
order, for every reader of fractions.  Where there are no entries there are no sections, and the ids
of sections are different where the entries have different integers of 64 bits. -/
theorem sectionsOfText_reports [FloatReader] (text : String) :
    ((∃ document entries, Json.read? text.toList = some document ∧
        document.get? "result" = some (.array entries) ∧
        List.Forall₂ (fun entry s => ∃ o, Describes entry o ∧ Reports o s)
          (entries.filter IsOffering) (sectionsOfText text)) ∨
      (∀ document entries, Json.read? text.toList = some document →
          document.get? "result" ≠ some (.array entries)) ∧
        sectionsOfText text = []) ∧
      ∀ o o' s s' i j, Reports o s → Reports o' s' → o.id = .integer i → o'.id = .integer j →
        IsInt64 i → IsInt64 j → s.uuid = s'.uuid → i = j := by
  refine ⟨?_, fun o o' s s' i j h h' => h.id_inj h'⟩
  rcases hread : Json.read? text.toList with - | document
  · refine .inr ⟨nofun, ?_⟩
    rw [sectionsOfText, hread]
  · have hsections : sectionsOfText text = sections document := by rw [sectionsOfText, hread]
    by_cases hresult : ∃ entries, document.get? "result" = some (.array entries)
    · obtain ⟨entries, hentries⟩ := hresult
      refine .inl ⟨document, entries, rfl, hentries, ?_⟩
      have hstorable : ∀ entry ∈ entries, entry.Storable := by
        cases (Json.storable_of_read? hread).get? hentries with
        | array h => exact h
      rw [hsections, sections, hentries]
      refine forall₂_filterMap (fun _ => isSome_section?_iff) fun entry hentry s hs => ?_
      obtain ⟨o, ho, rfl⟩ := section?_eq_some_iff.mp hs
      exact ⟨o, ho, reports_toSection (hstorable entry hentry) ho⟩
    · rw [not_exists] at hresult
      refine .inr ⟨?_, ?_⟩
      · rintro _ entries h
        cases h
        exact hresult entries
      · rw [hsections, sections]
        split
        · rename_i entries hentries
          exact absurd hentries (hresult entries)
        · rfl

/-- An entry with the given id, the count that passed and the year. -/
def sampleEntry (id pass : ℤ) (year : Json) : Json :=
  .object [("id", .number (.integer id)), ("Subject", .text "cpsc"), ("Course", .text "310"),
    ("Professor", .text ""), ("Title", .text ""), ("Avg", .number (.integer 85)),
    ("Pass", .number (.integer pass)), ("Fail", .number (.integer 0)),
    ("Audit", .number (.integer 0)), ("Year", year), ("Section", .text "101")]

theorem printable_sampleEntry {depth : ℕ} {id pass : ℤ} {year : Json}
    (hid : (Number.integer id).Storable) (hpass : (Number.integer pass).Storable)
    (hyear : Json.Printable depth year) :
    Json.Printable (depth + 1) (sampleEntry id pass year) := by
  have hscore : (Number.integer 85).Storable := ⟨by decide, by decide⟩
  have hzero : (Number.integer 0).Storable := ⟨by decide, by decide⟩
  refine .object ?_
  simp only [List.forall_mem_cons, List.not_mem_nil, false_implies, implies_true, and_true]
  exact ⟨.integer hid, .text _, .text _, .text _, .text _, .integer hscore, .integer hpass,
    .integer hzero, .integer hzero, hyear, .text _⟩

/-- All numbers of the entry are integers, which every reader takes back. -/
theorem readsBack_sampleEntry [FloatReader] {id pass : ℤ} {year : Json}
    (hid : (Number.integer id).Storable) (hpass : (Number.integer pass).Storable)
    (hyear : year.nulled.ReadsBack) : (sampleEntry id pass year).nulled.ReadsBack := by
  have hinteger {i : ℤ} (hi : (Number.integer i).Storable) : (Json.ofInt i).ReadsBack :=
    .number (Number.readsBack_integer hi)
  have hscore : (Number.integer 85).Storable := ⟨by decide, by decide⟩
  have hzero : (Number.integer 0).Storable := ⟨by decide, by decide⟩
  refine .object ?_
  simp only [Json.nulledMembers_eq_map, List.map_cons, List.map_nil, List.forall_mem_cons,
    List.not_mem_nil, false_implies, implies_true, and_true]
  exact ⟨hinteger hid, .text _, .text _, .text _, .text _, hinteger hscore, hinteger hpass,
    hinteger hzero, hinteger hzero, hyear, .text _⟩

/-- Two entries that a faithful reading would take otherwise. -/
def sampleDocument : Json :=
  .object [("result", .array
    [sampleEntry 18446744073709551615 9007199254740993 (.number (.integer 2015)),
      sampleEntry 18446744073709551614 1 (.text "NaN")])]

/-- Integers beyond those of 64 bits with sign are taken as binary numbers, so two of them are one
id; so is the count that passed, beyond the integers that binary numbers hold; and a text that reads
as no number is a year. -/
theorem sections_unfaithful :
    sectionsOfText sampleDocument.write =
      [⟨"cpsc", "310", "", "", .ofInt 85, 9007199254740992, 0, 0, "18446744073709552000", 2015⟩,
        ⟨"cpsc", "310", "", "", .ofInt 85, 1, 0, 0, "18446744073709552000", 0⟩] := by
  have hentries : Json.Printable Json.maxDepth sampleDocument := by
    refine .object (List.forall_mem_singleton.mpr (.array ?_))
    refine List.forall_mem_cons.mpr ⟨?_, List.forall_mem_singleton.mpr ?_⟩
    · exact printable_sampleEntry ⟨by decide, by decide⟩ ⟨by decide, by decide⟩
        (.integer ⟨by decide, by decide⟩)
    · exact printable_sampleEntry ⟨by decide, by decide⟩ ⟨by decide, by decide⟩ (.text _)
  have hback : sampleDocument.nulled.ReadsBack := by
    refine .object (List.forall_mem_singleton.mpr (.array ?_))
    refine List.forall_mem_cons.mpr ⟨?_, List.forall_mem_singleton.mpr ?_⟩
    · exact readsBack_sampleEntry ⟨by decide, by decide⟩ ⟨by decide, by decide⟩
        (.number (Number.readsBack_integer ⟨by decide, by decide⟩))
    · exact readsBack_sampleEntry ⟨by decide, by decide⟩ ⟨by decide, by decide⟩ (.text _)
  -- the text is read by the general theorem, and only the values are evaluated
  have hread : Json.read? sampleDocument.write.toList = some sampleDocument.nulled.sorted := by
    rw [Json.write, String.toList_ofList]
    exact Json.read?_chars_of_printable hentries hback
  rw [sectionsOfText, hread]
  decide +kernel

end CampusQuery.CourseDocument
