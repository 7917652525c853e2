/-
CampusQuery/Proofs/Dataset/Literals.lean

Scalars are written without loss.

A finite number is written as the integer that it is, if that is exact, and else with a point or an
exponent (`toJson_cases`).  Either text is the literal of a number that is read as the one that was
written, up to the sign of zero (`Numeral.Spells`): an exact integer is a binary number itself, and
the shortest digits of any other number are read back.

So both branches are read as `Binary64.foldZero` of the number (`exists_toJson_eq`).  That makes
them injective together, as what is folded alike is the same value.
-/
import CampusQuery.Proofs.Decimal.Truncation
import CampusQuery.Proofs.Json.Members

namespace CampusQuery

open Magnitude (unitsPerOne unitsPerOne_pos cast_unitsPerOne_pos)

variable {x y : Binary64} {i : ℤ} {n : Numeral}

/-! ### Numerals -/

theorem Magnitude.ofScientific?_zero (c : ℕ) :
    ofScientific? c 0 = nearest? (c * unitsPerOne) 1 := by
  have hscale := ofScientific?_neg c 0
  rwa [Nat.cast_zero, neg_zero, pow_zero] at hscale

theorem Binary64.ofScientific_natAbs (i : ℤ) : ofScientific (i < 0) i.natAbs 0 = ofInt i := by
  rw [ofScientific, Magnitude.ofScientific?_zero]
  generalize hunits : i.natAbs * unitsPerOne = units
  rcases hsize : Magnitude.nearest? units 1 with - | size
  · rw [ofInt, hunits, nearest_eq_infinite hsize]
  · rw [ofInt, hunits, nearest_eq_finite hsize]

namespace Numeral

/-- The number that a numeral denotes. -/
def value (n : Numeral) : ℚ :=
  if n.negative then -(n.digits * 10 ^ n.exponent) else n.digits * 10 ^ n.exponent

/-- A numeral is read as the nearest number, if it is in the range of the format. -/
theorem isNearest_toBinary64 (h : n.toBinary64.isFinite = true) :
    n.toBinary64.IsNearest n.value := by
  obtain ⟨negative, digits, exponent, bare⟩ := n
  rw [toBinary64, Binary64.ofScientific] at h ⊢
  rcases hsize : Magnitude.ofScientific? digits exponent with - | size
  · rw [hsize] at h
    cases h
  · have hread : size.isReadFrom (digits, exponent) = true := beq_iff_eq.mpr hsize
    have hnearest := (Magnitude.isReadFrom_iff.mp hread).isNearest
    cases negative with
    | false => exact hnearest
    | true => exact hnearest.neg

/-- The literal of an integer. -/
def ofInt (i : ℤ) : Numeral := ⟨i < 0, i.natAbs, 0, true⟩

theorem value_ofInt (i : ℤ) : (ofInt i).value = i := by
  have hnatAbs : (ofInt i).digits * (10 : ℚ) ^ (ofInt i).exponent = (i.natAbs : ℤ) := by
    rw [Int.cast_natCast]
    exact mul_one _
  rw [value, hnatAbs, ofInt]
  rcases lt_or_ge i 0 with hi | hi
  · rw [if_pos (decide_eq_true hi), Int.ofNat_natAbs_of_nonpos hi.le, Int.cast_neg, neg_neg]
  · rw [if_neg (by simpa using hi), Int.natAbs_of_nonneg hi]

/-- The literal of an integer is read as integers are taken. -/
theorem toBinary64_ofInt (i : ℤ) : (ofInt i).toBinary64 = .ofInt i := by
  rw [ofInt, toBinary64, Binary64.ofScientific_natAbs]

end Numeral

/-! ### Whole numbers -/

/-- Exact integers are integers of 64 bits. -/
theorem IsExact.isInt64 (hi : IsExact i) : IsInt64 i := by
  have hbound : i.natAbs < 2 ^ 53 := hi
  have hmin : Binary64.minInt64 = -(2 ^ 63 : ℕ) := rfl
  have hmax : Binary64.maxInt64 = (2 ^ 63 : ℕ) - 1 := rfl
  rw [IsInt64]
  omega

namespace Binary64

theorem signedUnits_finite (negative : Bool) (size : Magnitude) :
    (finite negative size).signedUnits = if negative then -(size.units : ℤ) else size.units := rfl

/-- A number is whole if its value is an integer. -/
theorem whole?_eq_some_iff (hx : x.isFinite = true) : x.whole? = some i ↔ x.value = i := by
  obtain ⟨negative, size, rfl⟩ := exists_eq_finite hx
  have hunits : (finite negative size).value = i ↔
      (if negative then -(size.units : ℤ) else size.units) = i * unitsPerOne := by
    rw [value, div_eq_iff cast_unitsPerOne_pos.ne', signedUnits_finite]
    exact_mod_cast Iff.rfl
  have hpos : (0 : ℤ) < unitsPerOne := Nat.cast_pos.mpr unitsPerOne_pos
  rw [hunits, whole?]
  generalize unitsPerOne = unit at hpos ⊢
  split
  · rename_i hdvd
    obtain ⟨k, hk⟩ := Nat.dvd_of_mod_eq_zero hdvd
    have hunit : 0 < unit := Nat.cast_pos.mp hpos
    rw [Option.some.injEq, hk, Nat.mul_div_cancel_left k hunit, Nat.cast_mul, mul_comm (unit : ℤ)]
    cases negative with
    | false => exact (mul_left_inj' hpos.ne').symm
    | true =>
      rw [if_pos rfl, if_pos rfl, ← neg_mul]
      exact (mul_left_inj' hpos.ne').symm
  · rename_i hdvd
    refine ⟨fun h => absurd h.symm (Option.some_ne_none i), fun h => absurd ?_ hdvd⟩
    have hmultiple : (unit : ℤ) ∣ size.units := by
      cases negative with
      | false => exact Dvd.intro_left i h.symm
      | true => exact (dvd_neg (a := (unit : ℤ))).mp (Dvd.intro_left i h.symm)
    exact Nat.mod_eq_zero_of_dvd (Int.natCast_dvd_natCast.mp hmultiple)

/-! ### Zero without a sign -/

theorem isFinite_foldZero (x : Binary64) : x.foldZero.isFinite = x.isFinite := by
  rcases x with - | - | - <;> rfl

theorem foldZero_foldZero (x : Binary64) : x.foldZero.foldZero = x.foldZero := by
  rcases x with - | - | ⟨negative, size⟩
  · rfl
  · rfl
  · rw [foldZero, foldZero, Bool.and_assoc, Bool.and_self]

theorem ne_notANumber (hx : x.isFinite = true) : x ≠ .notANumber := by
  rintro rfl
  cases hx

/-- Finite numbers of one value differ in the sign of zero only. -/
theorem foldZero_eq_iff_value (hx : x.isFinite = true) (hy : y.isFinite = true) :
    x.foldZero = y.foldZero ↔ x.value = y.value :=
  (foldZero_eq_iff (ne_notANumber hx) (ne_notANumber hy)).trans (eq_iff_value hx hy)

theorem value_foldZero (hx : x.isFinite = true) : x.foldZero.value = x.value :=
  (foldZero_eq_iff_value ((isFinite_foldZero x).trans hx) hx).mp (foldZero_foldZero x)

/-- Numbers other than zero keep their sign. -/
theorem foldZero_eq_self (hvalue : x.value ≠ 0) : x.foldZero = x := by
  rcases x with - | - | ⟨negative, size⟩
  · rfl
  · rfl
  · have hsize : (size.significand != 0) = true := by
      refine bne_iff_ne.mpr fun hzero => hvalue ?_
      rw [← abs_eq_zero, abs_value_finite, Magnitude.value, Magnitude.units_eq_zero_iff.mpr hzero,
        Nat.cast_zero, zero_div]
    rw [foldZero, hsize, Bool.and_true]

/-- An integer is taken as a number of its value, and as a zero without a sign. -/
theorem value_ofInt (hi : IsExact i) : (ofInt i).value = i :=
  (isNearest_ofInt (hi.le.trans (by decide))).value_eq_of_exists (exists_value_eq hi.le)

theorem foldZero_ofInt (hi : IsExact i) : (ofInt i).foldZero = ofInt i := by
  by_cases hneg : i < 0
  · refine foldZero_eq_self ?_
    rw [value_ofInt hi]
    exact Int.cast_ne_zero.mpr hneg.ne
  · obtain ⟨size, hsize, -⟩ := exists_ofInt_eq hi
    rw [hsize, decide_eq_false hneg]
    rfl

/-- A number that is an exact integer is what that integer is taken as. -/
theorem ofInt_eq_foldZero (hx : x.isFinite = true) (hi : IsExact i) (hvalue : x.value = i) :
    ofInt i = x.foldZero := by
  have hfinite : (ofInt i).isFinite = true := isFinite_ofInt_of_le (hi.le.trans (by decide))
  rw [← foldZero_ofInt hi, foldZero_eq_iff_value hfinite hx, value_ofInt hi, hvalue]

/-- Cutting a number that is an exact integer changes nothing. -/
theorem truncate_eq_of_isExact (hx : x.isFinite = true) (hi : IsExact i) (hvalue : x.value = i) :
    x.truncate = i := by
  rw [truncate_eq hx, hvalue, towardZero_intCast, clampInt64_of_natAbs_le hi.le]

end Binary64

/-! ### What is written -/

/-- The value is a number or a text. -/
def Json.IsScalar : Json → Prop
  | .number _ => True
  | .text _ => True
  | _ => False

namespace Scalar

/-- The scalar can be written: a text, or a finite number. -/
def Writable (v : Scalar) : Prop := ∀ x, v = .number x → x.isFinite = true

theorem writable_number : (number x).Writable ↔ x.isFinite = true :=
  ⟨fun h => h x rfl, fun h y hy => by cases hy; exact h⟩

theorem writable_text (s : String) : (text s).Writable := nofun

/-- A finite number is written as the integer that it is, if that is exact, and else as it is. -/
theorem toJson_cases (hx : x.isFinite = true) :
    (∃ i : ℤ, x.value = i ∧ IsExact i ∧ (number x).toJson = .ofInt i) ∨
      (∀ i : ℤ, x.value = i → ¬ IsExact i) ∧ (number x).toJson = .number (.float x) := by
  rw [toJson]
  split
  · rename_i i hwhole
    have hvalue : x.value = i := (Binary64.whole?_eq_some_iff hx).mp hwhole
    split
    · rename_i hbound
      exact .inl ⟨i, hvalue, Int.ofNat_lt.mp hbound, rfl⟩
    · rename_i hbound
      refine .inr ⟨fun j hj hexact => hbound ?_, rfl⟩
      obtain rfl : j = i := Int.cast_injective (hj.symm.trans hvalue)
      exact Int.ofNat_lt.mpr hexact
  · rename_i hnone
    refine .inr ⟨fun j hj _ => ?_, rfl⟩
    rw [(Binary64.whole?_eq_some_iff hx).mpr hj] at hnone
    cases hnone

theorem storable_toJson {v : Scalar} (h : v.Writable) :
    v.toJson.Storable ∧ Json.Canonical Json.maxDepth v.toJson ∧ v.toJson.IsScalar := by
  rcases v with x | s
  · have hx : x.isFinite = true := writable_number.mp h
    rcases toJson_cases hx with ⟨i, -, hi, heq⟩ | ⟨-, heq⟩
    · rw [heq]
      exact ⟨storable_ofInt hi.isInt64, .number _, trivial⟩
    · rw [heq]
      exact ⟨.number hx, .number _, trivial⟩
  · exact ⟨.text s, .text s, trivial⟩

/-- A number that is not finite is written as `null`. -/
theorem chars_toJson_of_not_finite (h : x.isFinite ≠ true) :
    (number x).toJson.chars = ['n', 'u', 'l', 'l'] := by
  rcases x with - | negative | ⟨negative, size⟩
  · rfl
  · rfl
  · exact absurd rfl h

/-- **A scalar is written as a number or a text exactly if it is writable**, and else as `null`. -/
theorem denotes_chars_toJson (v : Scalar) :
    ∃ w, Json.Denotes v.toJson.chars w ∧ (v.Writable → w.IsScalar) ∧
      (¬ v.Writable → w = .null) := by
  by_cases h : v.Writable
  · obtain ⟨hstorable, hcanonical, hscalar⟩ := storable_toJson h
    exact ⟨_, Json.denotes_chars hstorable hcanonical, fun _ => hscalar, fun hn => absurd h hn⟩
  · refine ⟨.null, ?_, fun hw => absurd hw h, fun _ => rfl⟩
    unfold Writable at h
    simp only [not_forall] at h
    obtain ⟨x, rfl, hx⟩ := h
    rw [chars_toJson_of_not_finite hx]
    exact Json.denotes_chars .null .null

/-- Zero is an exact integer, so other numbers keep their sign. -/
theorem foldZero_eq_self_of_not_isExact (h : ∀ i : ℤ, x.value = i → ¬ IsExact i) :
    x.foldZero = x :=
  Binary64.foldZero_eq_self fun hzero => h 0 (hzero.trans Int.cast_zero.symm) (by decide)

/-- **Both forms of a number are read as the number**, but for the sign of zero. -/
theorem exists_toJson_eq (hx : x.isFinite = true) :
    ∃ m : Json.Number, (number x).toJson = .number m ∧ m.toBinary64 = x.foldZero := by
  rcases toJson_cases hx with ⟨i, hvalue, hi, heq⟩ | ⟨hinexact, heq⟩
  · exact ⟨_, heq, Binary64.ofInt_eq_foldZero hx hi hvalue⟩
  · exact ⟨_, heq, (foldZero_eq_self_of_not_isExact hinexact).symm⟩

/-- Numbers are written alike if they are the same value. -/
theorem toJson_number_inj (hx : x.isFinite = true) (hy : y.isFinite = true) :
    (number x).toJson = (number y).toJson ↔ x.eq y = true := by
  have hfold : x.foldZero = y.foldZero ↔ x.eq y = true :=
    Binary64.foldZero_eq_iff (Binary64.ne_notANumber hx) (Binary64.ne_notANumber hy)
  constructor
  · intro h
    obtain ⟨m, hm, hread⟩ := exists_toJson_eq hx
    obtain ⟨m', hm', hread'⟩ := exists_toJson_eq hy
    obtain rfl : m = m' := Json.number.inj (hm.symm.trans (h.trans hm'))
    exact hfold.mp (hread.symm.trans hread')
  · intro h
    have hvalue : x.value = y.value := (Binary64.eq_iff_value hx hy).mp h
    -- the two forms do not meet, as only one of them is that of exact integers
    rcases toJson_cases hx with ⟨i, hi, hexact, heq⟩ | ⟨hinexact, heq⟩ <;>
      rcases toJson_cases hy with ⟨j, hj, hexact', heq'⟩ | ⟨hinexact', heq'⟩
    · obtain rfl : i = j := Int.cast_injective (hi.symm.trans (hvalue.trans hj))
      rw [heq, heq']
    · exact absurd hexact (hinexact' i (hvalue.symm.trans hi))
    · exact absurd hexact' (hinexact j (hvalue.trans hj))
    · have hsame := hfold.mpr h
      rw [foldZero_eq_self_of_not_isExact hinexact,
        foldZero_eq_self_of_not_isExact hinexact'] at hsame
      rw [heq, heq', hsame]

end Scalar

/-! ### What is read -/

/-- The text is the literal that a finite number is written as. -/
structure Numeral.Spells [FloatReader] (n : Numeral) (text : String) (x : Binary64) : Prop where
  /-- The text is that of the numeral, and of nothing more. -/
  writes : n.Writes text.toList
  /-- The reader of documents takes it for a number. -/
  document : ∃ m, Json.read? text.toList = some (.number m) ∧ m.toBinary64 = n.toBinary64
  /-- It is read as the number that was written, or as zero without a sign. -/
  reads : n.toBinary64 = x.foldZero
  eq : n.toBinary64.eq x = true
  /-- No other binary number is nearer to what is denoted. -/
  isNearest : x.IsNearest n.value
  /-- It is an integer literal for the whole numbers below the bound. -/
  bare_iff : n.bare = true ↔ ∃ i : ℤ, x.value = i ∧ i.natAbs < 2 ^ 53
  /-- Then it denotes the number, and so does the integer of 64 bits that the number is cut to. -/
  exact : n.bare = true → n.value = x.value ∧ (x.truncate : ℚ) = x.value ∧
    text = toString x.truncate

namespace Scalar

/-- The numeral of a text is the literal of the number, if it is read as the number and is that of
an integer for the exact integers only. -/
theorem spells_of_writes [FloatReader] [FloatReader.Exact] (hx : x.isFinite = true)
    {m : Json.Number} (hm : (number x).toJson = .number m) (hwrites : n.Writes m.write)
    (hreads : n.toBinary64 = x.foldZero)
    (hbare : n.bare = true ↔ ∃ i : ℤ, x.value = i ∧ IsExact i)
    (hinteger : ∀ i : ℤ, x.value = i → IsExact i → n.value = i ∧ m = .integer i) :
    n.Spells (number x).toJson.write x := by
  have htext : (number x).toJson.write.toList = m.write := by
    rw [hm, Json.write, String.toList_ofList, Json.chars]
  have hfinite : n.toBinary64.isFinite = true := by rw [hreads, Binary64.isFinite_foldZero, hx]
  have hvalue : n.toBinary64.value = x.value := by rw [hreads, Binary64.value_foldZero hx]
  obtain ⟨hstorable, hcanonical, -⟩ := storable_toJson (writable_number.mpr hx)
  refine ⟨htext ▸ hwrites, ⟨m, ?_, ?_⟩, hreads, (Binary64.eq_iff_value hfinite hx).mpr hvalue,
    (Numeral.isNearest_toBinary64 hfinite).congr hx hvalue.symm, hbare, fun h => ?_⟩
  · rw [Json.write, String.toList_ofList, Json.denotes_chars hstorable hcanonical, hm]
  · obtain ⟨m', hm', hfold⟩ := exists_toJson_eq hx
    obtain rfl : m = m' := Json.number.inj (hm.symm.trans hm')
    rw [hfold, hreads]
  · obtain ⟨i, hi, hexact⟩ := hbare.mp h
    obtain ⟨hn, rfl⟩ := hinteger i hi hexact
    rw [Binary64.truncate_eq_of_isExact hx hexact hi]
    refine ⟨hn.trans hi.symm, hi.symm, ?_⟩
    rw [← String.toList_inj, htext, Json.Number.toList_toString]

/-- **A finite number is written as a literal that an exact reader takes for the number.** -/
theorem exists_spells [FloatReader] [FloatReader.Exact] (hx : x.isFinite = true) :
    ∃ n : Numeral, n.Spells (number x).toJson.write x := by
  rcases toJson_cases hx with ⟨i, hvalue, hi, heq⟩ | ⟨hinexact, heq⟩
  · refine ⟨.ofInt i, spells_of_writes hx heq (Numeral.writes_integer _ _) ?_ ?_ ?_⟩
    · rw [Numeral.toBinary64_ofInt, Binary64.ofInt_eq_foldZero hx hi hvalue]
    · exact ⟨fun _ => ⟨i, hvalue, hi⟩, fun _ => rfl⟩
    · intro j hj _
      obtain rfl : i = j := Int.cast_injective (hvalue.symm.trans hj)
      exact ⟨Numeral.value_ofInt i, rfl⟩
  · obtain ⟨n, hwrites, hbare, hreads⟩ := Binary64.exists_writes_documentText hx
    refine ⟨n, spells_of_writes hx heq hwrites ?_ ?_ ?_⟩
    · rw [hreads, foldZero_eq_self_of_not_isExact hinexact]
    · rw [hbare]
      exact ⟨nofun, fun ⟨i, hi, hexact⟩ => absurd hexact (hinexact i hi)⟩
    · exact fun i hi hexact => absurd hexact (hinexact i hi)

/-- **Scalars that are the same have one text**, and no others do. -/
theorem write_eq_iff {a b : Scalar} (ha : a.Writable) (hb : b.Writable) :
    a.toJson.write = b.toJson.write ↔ a.Same b := by
  obtain ⟨hstorable, hcanonical, -⟩ := storable_toJson ha
  obtain ⟨hstorable', hcanonical', -⟩ := storable_toJson hb
  have hwrite : a.toJson.write = b.toJson.write ↔ a.toJson = b.toJson :=
    ⟨Json.write_inj hstorable hstorable' hcanonical hcanonical', congrArg Json.write⟩
  rw [hwrite]
  rcases a with x | s <;> rcases b with y | t
  · exact toJson_number_inj (writable_number.mp ha) (writable_number.mp hb)
  · obtain ⟨m, hm, -⟩ := exists_toJson_eq (writable_number.mp ha)
    rw [hm]
    exact ⟨nofun, nofun⟩
  · obtain ⟨m, hm, -⟩ := exists_toJson_eq (writable_number.mp hb)
    rw [hm]
    exact ⟨nofun, nofun⟩
  · exact ⟨Json.text.inj, congrArg Json.text⟩

/-- **Scalars are written without loss.**  A finite number is written as a literal that an exact
reader takes for a number numerically equal to it; the literal is that of an integer just for the
whole numbers below the bound, and these are integers of 64 bits.  Scalars that can be written have
one text if and only if they are numbers of one value, or the same text. -/
theorem written_without_loss [FloatReader] [FloatReader.Exact] :
    (∀ x : Binary64, x.isFinite = true → ∃ n : Numeral, n.Spells (number x).toJson.write x) ∧
      ∀ a b : Scalar, a.Writable → b.Writable →
        (a.toJson.write = b.toJson.write ↔ a.Same b) :=
  ⟨fun _ => exists_spells, fun _ _ => write_eq_iff⟩

section Sample

attribute [local instance] FloatReader.nearest

/-- The literals change at the bound, the two zeros are written alike, and a text is never written
as a number is. -/
theorem written_without_loss_sample :
    (∃ n : Numeral, n.Spells (number (.ofInt (2 ^ 53 - 1))).toJson.write (.ofInt (2 ^ 53 - 1)) ∧
        n.bare = true) ∧
      (∃ n : Numeral, n.Spells (number (.ofInt (2 ^ 53))).toJson.write (.ofInt (2 ^ 53)) ∧
        n.bare = false) ∧
      (number (.finite true 0)).toJson.write = (number 0).toJson.write ∧
      (text "0").toJson.write ≠ (number 0).toJson.write := by
  have hzero : (number 0).Writable := writable_number.mpr rfl
  refine ⟨?_, ?_, ?_, ?_⟩
  · obtain ⟨n, hn⟩ := written_without_loss.1 (.ofInt (2 ^ 53 - 1))
      (Binary64.isFinite_ofInt_of_le (by decide))
    exact ⟨n, hn, hn.bare_iff.mpr ⟨_, Binary64.value_ofInt (by decide), by decide⟩⟩
  · obtain ⟨n, hn⟩ := written_without_loss.1 (.ofInt (2 ^ 53))
      (Binary64.isFinite_ofInt_of_le (by decide))
    refine ⟨n, hn, Bool.eq_false_iff.mpr fun hbare => ?_⟩
    obtain ⟨i, hi, hbound⟩ := hn.bare_iff.mp hbare
    have hvalue : (Binary64.ofInt (2 ^ 53)).value = (2 ^ 53 : ℕ) :=
      Binary64.value_ofInt_natCast le_rfl
    rw [hvalue, ← Int.cast_natCast] at hi
    obtain rfl := Int.cast_injective hi
    exact absurd hbound (by decide)
  · exact (written_without_loss.2 _ _ (writable_number.mpr rfl) hzero).mpr rfl
  · exact mt (written_without_loss.2 _ _ (writable_text "0") hzero).mp id

end Sample

end Scalar

end CampusQuery
