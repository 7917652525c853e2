/-
CampusQuery/Proofs/Json/Numbers.lean

Numbers in a document are read as they were written.

The text of a number is a run of digits, perhaps a point and more digits, perhaps an
exponent, with a sign before all that.  `Numeral.scan` takes such a text apart
(`writes_signed`); each layout of the shortest digits is an instance, and its numeral
has the value of these digits.  Together with what the shortest digits are read as, a
finite number is read back, the sign of zero included (`exists_writes_documentText`):
the nearest reader is exact (`exact_nearest`).  Other readers need not be, so what depends
on reading back assumes an exact one.
-/
import CampusQuery.Decimal.Layout
import CampusQuery.Json.Tree
import CampusQuery.Json.Write
import CampusQuery.Proofs.Decimal.Reading

namespace CampusQuery

open Json (isNumeralChar)

namespace Numeral

/-! ### Digits -/

/-- A run of digits that a number may start with. -/
structure Whole (ds : List Char) : Prop where
  digits : ∀ c ∈ ds, c.isDigit = true
  ne_nil : ds ≠ []
  zero : ∀ rest, ds = '0' :: rest → rest = []

/-- The text does not go on with a digit. -/
def Stops (cs : List Char) : Prop := ∀ c ∈ cs.head?, c.isDigit = false

theorem takeDigits_append {ds cs : List Char} (hds : ∀ c ∈ ds, c.isDigit = true) (hcs : Stops cs) :
    takeDigits (ds ++ cs) = (ds, cs) := by
  have htake : cs.takeWhile Char.isDigit = [] := by
    rcases cs with - | ⟨c, cs⟩
    · rfl
    · exact List.takeWhile_cons_of_neg (by simp [hcs c rfl])
  have hdrop : cs.dropWhile Char.isDigit = cs := by
    rcases cs with - | ⟨c, cs⟩
    · rfl
    · exact List.dropWhile_cons_of_neg (by simp [hcs c rfl])
  rw [takeDigits, List.takeWhile_append_of_pos hds, List.dropWhile_append_of_pos hds, htake, hdrop,
    List.append_nil]

theorem takeDigits_self {ds : List Char} (hds : ∀ c ∈ ds, c.isDigit = true) :
    takeDigits ds = (ds, []) := by
  have hnil : Stops [] := by simp [Stops]
  have h := takeDigits_append hds hnil
  rwa [List.append_nil] at h

theorem takeWhole_append {ds cs : List Char} (hds : Whole ds) (hcs : Stops cs) :
    takeWhole (ds ++ cs) = some (ds, cs) := by
  rw [takeWhole, takeDigits_append hds.digits hcs]
  split
  · rename_i h
    exact absurd (congrArg Prod.fst h) hds.ne_nil
  · rename_i h
    exact absurd (hds.zero _ (congrArg Prod.fst h)) (by simp)
  · rename_i h
    exact congrArg some h.symm

theorem takeFraction_point {ds cs : List Char} (hds : ∀ c ∈ ds, c.isDigit = true) (hne : ds ≠ [])
    (hcs : Stops cs) : takeFraction ('.' :: (ds ++ cs)) = some (some ds, cs) := by
  have hempty : ds.isEmpty = false := by simpa using hne
  rw [takeFraction, takeDigits_append hds hcs]
  simp [hempty]

/-! ### Texts of numerals -/

/-- The text is that of a numeral, and of nothing more. -/
structure Writes (text : List Char) (n : Numeral) : Prop where
  scan : Numeral.scan text = some (n, [])
  chars : ∀ c ∈ text, isNumeralChar c = true
  ne_nil : text ≠ []

theorem isNumeralChar_of_isDigit {c : Char} (h : c.isDigit = true) : isNumeralChar c = true := by
  rw [isNumeralChar, h, Bool.true_or]

/-- **A text in its parts**: sign, digits, and what follows them. -/
theorem writes_signed (negative : Bool) {whole tail rest : List Char}
    {fraction : Option (List Char)} {exponent : Option Int} (hwhole : Whole whole)
    (hstops : Stops tail) (hfraction : takeFraction tail = some (fraction, rest))
    (hexponent : takeExponent rest = some (exponent, []))
    (hchars : ∀ c ∈ tail, isNumeralChar c = true) :
    Writes (signed negative (whole ++ tail))
      ⟨negative, valueOf (whole ++ fraction.getD []), exponent.getD 0 - (fraction.getD []).length,
        fraction.isNone && exponent.isNone⟩ := by
  obtain ⟨c, ds, rfl⟩ := List.exists_cons_of_ne_nil hwhole.ne_nil
  have hc : c.isDigit = true := hwhole.digits c List.mem_cons_self
  refine ⟨?_, ?_, ?_⟩
  · have htake := takeWhole_append hwhole hstops
    unfold scan
    split
    rename_i sign body hsplit
    -- a text without a sign starts with a digit
    have hparts : (negative, (c :: ds) ++ tail) = (sign, body) := by
      cases negative
      · have hminus : c ≠ '-' := by
          rintro rfl
          cases hc
        rw [← hsplit, signed, if_neg Bool.false_ne_true]
        split
        · rename_i e
          exact absurd (List.cons.inj e).1 hminus
        · rfl
      · exact hsplit
    cases hparts
    rw [htake]
    simp [hfraction, hexponent]
  · intro x hx
    have hbody : ∀ x ∈ (c :: ds) ++ tail, isNumeralChar x = true := by
      intro x hx
      rcases List.mem_append.mp hx with hx | hx
      · exact isNumeralChar_of_isDigit (hwhole.digits x hx)
      · exact hchars x hx
    cases negative
    · exact hbody x hx
    · rcases List.mem_cons.mp hx with rfl | hx
      · rfl
      · exact hbody x hx
  · cases negative <;> simp [signed]

/-! ### Digits of a number -/

theorem head_toDigits {n : Nat} (hn : n ≠ 0) (rest : List Char) :
    Nat.toDigits 10 n ≠ '0' :: rest := by
  induction n using Nat.strongRecOn generalizing rest with
  | _ n ih =>
    by_cases hlt : n < 10
    · rw [Nat.toDigits_of_lt_base hlt]
      intro e
      have hdigit : ∀ m < 10, m ≠ 0 → Nat.digitChar m ≠ '0' := by decide
      exact hdigit n hlt hn (List.cons.inj e).1
    · rw [Nat.toDigits_of_base_le (by omega) (by omega)]
      -- the first digit is also the first one of a tenth of the number
      obtain ⟨c, ds, hds⟩ :=
        List.exists_cons_of_ne_nil (Nat.toDigits_ne_nil (n := n / 10) (b := 10))
      rw [hds, List.cons_append]
      intro e
      refine ih (n / 10) (by omega) (by omega) ds ?_
      rw [hds, (List.cons.inj e).1]

theorem whole_toDigits (n : Nat) : Whole (Nat.toDigits 10 n) where
  digits _ hc := Nat.isDigit_of_mem_toDigits (by decide) (by decide) hc
  ne_nil := Nat.toDigits_ne_nil
  zero rest h := by
    by_cases hn : n = 0
    · rw [hn, Nat.toDigits_zero] at h
      exact (List.cons.inj h).2.symm
    · exact absurd h (head_toDigits hn rest)

theorem valueOf_toDigits (n : Nat) : valueOf (Nat.toDigits 10 n) = n :=
  Nat.ofDigitChars_ten_toDigits

theorem valueOf_zero_cons (ds : List Char) : valueOf ('0' :: ds) = valueOf ds := by
  rw [valueOf, Nat.ofDigitChars_cons]
  rfl

theorem valueOf_zeros_append (k : Nat) (ds : List Char) :
    valueOf (List.replicate k '0' ++ ds) = valueOf ds := by
  rw [valueOf, Nat.ofDigitChars_append, Nat.ofDigitChars_replicate_zero, Nat.mul_zero]
  rfl

theorem valueOf_append_zeros (k : Nat) (ds : List Char) :
    valueOf (ds ++ List.replicate k '0') = valueOf ds * 10 ^ k := by
  rw [valueOf, Nat.ofDigitChars_append, Nat.ofDigitChars_replicate_zero, Nat.mul_comm]
  rfl

theorem takeExponent_letter (e : Int) :
    takeExponent ('e' :: (if e < 0 then '-' else '+') :: Nat.toDigits 10 e.natAbs) =
      some (some e, []) := by
  have htake := takeDigits_self (whole_toDigits e.natAbs).digits
  have hempty : (Nat.toDigits 10 e.natAbs).isEmpty = false := by
    simp
  have hneg : e < 0 → -((e.natAbs : Nat) : Int) = e := by omega
  have hpos : ¬ e < 0 → ((e.natAbs : Nat) : Int) = e := by omega
  generalize e.natAbs = n at *
  by_cases he : e < 0
  · simp [takeExponent, takeSign, he, htake, hempty, valueOf_toDigits, hneg he]
  · simp [takeExponent, takeSign, he, htake, hempty, valueOf_toDigits, hpos he]

/-- The text of an integer. -/
theorem writes_integer (negative : Bool) (n : Nat) :
    Writes (signed negative (Nat.toDigits 10 n)) ⟨negative, n, 0, true⟩ := by
  have hstops : Stops [] := by simp [Stops]
  have h := writes_signed negative (whole_toDigits n) hstops rfl rfl (by simp)
  simpa [valueOf_toDigits] using h

/-! ### Layouts of the shortest digits -/

section Layout

variable {d : Digits} {negative : Bool}

/-- The text is that of a numeral with a point or an exponent that has the value of the
digits. -/
def WritesDigits (text : List Char) (negative : Bool) (d : Digits) : Prop :=
  ∃ digits exponent, Writes text ⟨negative, digits, exponent, false⟩ ∧
    Magnitude.ofScientific? digits exponent = Magnitude.ofScientific? d.digits d.exponent

theorem stops_point (cs : List Char) : Stops ('.' :: cs) := by
  simp [Stops]

theorem stops_letter (cs : List Char) : Stops ('e' :: cs) := by
  simp [Stops]

theorem chars_point {ds : List Char} (hds : ∀ c ∈ ds, c.isDigit = true) :
    ∀ c ∈ '.' :: ds, isNumeralChar c = true :=
  List.forall_mem_cons.mpr ⟨rfl, fun c hc => isNumeralChar_of_isDigit (hds c hc)⟩

/-- Digits on both sides of a point. -/
theorem writes_fraction (negative : Bool) {whole places : List Char} (hwhole : Whole whole)
    (hplaces : ∀ c ∈ places, c.isDigit = true) (hne : places ≠ []) :
    Writes (signed negative (whole ++ '.' :: places))
      ⟨negative, valueOf (whole ++ places), -(places.length : Int), false⟩ := by
  have hnil : Stops [] := by simp [Stops]
  have hfraction := takeFraction_point hplaces hne hnil
  rw [List.append_nil] at hfraction
  have h := writes_signed negative hwhole (stops_point places) hfraction rfl
    (chars_point hplaces)
  simpa using h

theorem whole_chars (d : Digits) : Whole d.chars := whole_toDigits d.digits

theorem valueOf_chars (d : Digits) : valueOf d.chars = d.digits := valueOf_toDigits d.digits

/-- No zero stands before the digits. -/
theorem Whole.of_head? {ds : List Char} (hd : d.digits ≠ 0)
    (hds : ∀ c ∈ ds, c.isDigit = true) (hhead : ds.head? = d.chars.head?) : Whole ds where
  digits := hds
  ne_nil hnil := by
    rw [hnil, List.head?_nil] at hhead
    exact (whole_chars d).ne_nil (List.head?_eq_none_iff.mp hhead.symm)
  zero rest hzero := by
    rw [hzero, List.head?_cons] at hhead
    obtain ⟨ds', hchars⟩ := List.head?_eq_some_iff.mp hhead.symm
    exact absurd hchars (head_toDigits hd ds')

theorem isDigit_zeros (k : Nat) : ∀ c ∈ List.replicate k '0', c.isDigit = true := by
  intro c hc
  rw [List.eq_of_mem_replicate hc]
  rfl

theorem whole_zero : Whole ['0'] := ⟨isDigit_zeros 1, by decide, by simp⟩

/-- The digits stand behind the point, after zeros. -/
theorem writesDigits_behind (k : Nat) (hpoint : d.point = -(k : Int)) :
    WritesDigits (signed negative ('0' :: '.' :: (List.replicate k '0' ++ d.chars)))
      negative d := by
  have hplaces : ∀ c ∈ List.replicate k '0' ++ d.chars, c.isDigit = true :=
    List.forall_mem_append.mpr ⟨isDigit_zeros k, (whole_chars d).digits⟩
  have htext := writes_fraction negative whole_zero hplaces (by simp [(whole_chars d).ne_nil])
  rw [List.singleton_append, List.singleton_append, valueOf_zero_cons, valueOf_zeros_append,
    valueOf_chars] at htext
  refine ⟨_, _, htext, ?_⟩
  congr 1
  rw [Digits.point] at hpoint
  rw [List.length_append, List.length_replicate]
  omega

/-- The digits stand before the point; the zeros that fill up the number move into its digits. -/
theorem writesDigits_before (hd : d.digits ≠ 0) (k : Nat)
    (hpoint : d.point = (d.chars.length + k : Nat)) :
    WritesDigits (signed negative (d.chars ++ List.replicate k '0' ++ ['.', '0'])) negative d := by
  have hhead : (d.chars ++ List.replicate k '0').head? = d.chars.head? := by
    rw [List.head?_append, Option.or_of_isSome (List.isSome_head?.mpr (whole_chars d).ne_nil)]
  have hwhole : Whole (d.chars ++ List.replicate k '0') :=
    .of_head? hd (List.forall_mem_append.mpr ⟨(whole_chars d).digits, isDigit_zeros k⟩) hhead
  have htext := writes_fraction negative hwhole (isDigit_zeros 1) (by decide)
  have hdigits : valueOf (d.chars ++ List.replicate k '0' ++ List.replicate 1 '0') =
      d.digits * 10 ^ (k + 1) := by
    rw [List.append_assoc, List.replicate_append_replicate, valueOf_append_zeros, valueOf_chars]
  rw [hdigits] at htext
  refine ⟨_, _, htext, ?_⟩
  rw [Magnitude.ofScientific?_mul_pow]
  congr 1
  rw [Digits.point] at hpoint
  rw [List.length_replicate]
  omega

/-- The point divides the digits. -/
theorem writesDigits_around (hd : d.digits ≠ 0) {k : Nat} (hk : k ≠ 0) (hlt : k < d.chars.length)
    (hpoint : d.point = (k : Int)) :
    WritesDigits (signed negative (d.chars.take k ++ '.' :: d.chars.drop k)) negative d := by
  have hwhole : Whole (d.chars.take k) :=
    .of_head? hd (fun c hc => (whole_chars d).digits c (List.mem_of_mem_take hc))
      (by rw [List.head?_take, if_neg hk])
  have htext := writes_fraction negative hwhole
    (fun c hc => (whole_chars d).digits c (List.mem_of_mem_drop hc)) (by simpa using hlt)
  rw [List.take_append_drop, valueOf_chars, List.length_drop] at htext
  refine ⟨_, _, htext, ?_⟩
  congr 1
  rw [Digits.point] at hpoint
  omega

theorem writesDigits_spread (hd : d.digits ≠ 0) :
    WritesDigits (signed negative (d.spread ['.', '0'])) negative d := by
  simp only [Digits.spread]
  split
  · rename_i hpoint
    exact writesDigits_behind 0 hpoint
  · rename_i k hk hpoint
    split
    · rename_i hle
      obtain ⟨i, rfl⟩ := Nat.exists_eq_add_of_le hle
      rw [Nat.add_sub_cancel_left]
      exact writesDigits_before hd i hpoint
    · rename_i hlt
      exact writesDigits_around hd hk (Nat.not_le.mp hlt) hpoint
  · rename_i k hpoint
    exact writesDigits_behind (k + 1) hpoint

theorem chars_letter (e : Int) :
    ∀ c ∈ 'e' :: (if e < 0 then '-' else '+') :: Nat.toDigits 10 e.natAbs,
      isNumeralChar c = true := by
  intro c hc
  rcases List.mem_cons.mp hc with rfl | hc
  · rfl
  · rcases List.mem_cons.mp hc with rfl | hc
    · by_cases he : e < 0
      · rw [if_pos he]
        rfl
      · rw [if_neg he]
        rfl
    · exact isNumeralChar_of_isDigit ((whole_toDigits e.natAbs).digits c hc)

theorem writesDigits_scientific : WritesDigits (signed negative d.scientific) negative d := by
  have hwhole := whole_chars d
  have hvalue := valueOf_chars d
  have hpoint : d.point = d.chars.length + d.exponent := rfl
  simp only [Digits.scientific]
  split
  · rename_i hnil
    exact absurd hnil hwhole.ne_nil
  · -- a single digit is followed by its exponent
    rename_i c hone
    rw [hone] at hwhole hvalue hpoint
    have htext := writes_signed negative hwhole (stops_letter _) rfl
      (takeExponent_letter (d.point - 1)) (chars_letter _)
    rw [Option.getD_none, List.append_nil, hvalue] at htext
    refine ⟨_, _, htext, ?_⟩
    congr 1
    simp only [List.length_singleton] at hpoint
    simp only [Option.getD_some, List.length_nil]
    omega
  · -- the first digit stands before the point
    rename_i c rest hne hmore
    rw [hmore] at hwhole hvalue hpoint
    have hfirst : Whole [c] := by
      refine ⟨fun x hx => hwhole.digits x ?_, by simp, fun rest' e => (List.cons.inj e).2.symm⟩
      rw [List.mem_singleton.mp hx]
      exact List.mem_cons_self
    have hrest : ∀ x ∈ rest, x.isDigit = true := fun x hx =>
      hwhole.digits x (List.mem_cons_of_mem _ hx)
    have hnil : rest ≠ [] := by
      rintro rfl
      exact hne rfl
    have htext := writes_signed negative hfirst (stops_point _)
      (takeFraction_point hrest hnil (stops_letter _)) (takeExponent_letter (d.point - 1)) (by
        intro x hx
        rw [← List.cons_append] at hx
        rcases List.mem_append.mp hx with hx | hx
        · exact chars_point hrest x hx
        · exact chars_letter _ x hx)
    rw [Option.getD_some, List.singleton_append, List.singleton_append, hvalue] at htext
    refine ⟨_, _, htext, ?_⟩
    congr 1
    simp only [List.length_cons, Nat.cast_add, Nat.cast_one] at hpoint
    rw [Option.getD_some]
    omega

end Layout

end Numeral

/-! ### Numbers -/

namespace Binary64

/-- **A finite number is read back** from its text in a document. -/
theorem exists_writes_documentText {x : Binary64} (hx : x.isFinite = true) :
    ∃ n, Numeral.Writes x.documentText n ∧ n.bare = false ∧ n.toBinary64 = x := by
  rcases x with - | m | ⟨negative, size⟩
  · cases hx
  · cases hx
  · simp only [documentText]
    by_cases hzero : size.significand = 0
    · rw [if_pos hzero]
      have hsize : size = 0 := by
        by_contra hne
        exact Magnitude.significand_ne_zero hne hzero
      refine ⟨_, Numeral.writes_fraction negative Numeral.whole_zero (Numeral.isDigit_zeros 1)
        (by decide), rfl, ?_⟩
      rw [hsize]
      rfl
    · rw [if_neg hzero]
      have hread := Magnitude.ofScientific?_shortest size
      have hdigits : size.shortest.digits ≠ 0 := by
        intro h
        rw [h] at hread
        have hsize : size = 0 := (Option.some.inj hread).symm
        exact hzero (congrArg Magnitude.significand hsize)
      have hwrites : Numeral.WritesDigits
          (signed negative (if -4 ≤ size.shortest.point ∧ size.shortest.point ≤ 16 then
            size.shortest.spread ['.', '0'] else size.shortest.scientific))
          negative size.shortest := by
        split
        · exact Numeral.writesDigits_spread hdigits
        · exact Numeral.writesDigits_scientific
      obtain ⟨digits, exponent, hwrites, heq⟩ := hwrites
      refine ⟨_, hwrites, rfl, ?_⟩
      rw [Numeral.toBinary64, ofScientific, heq, hread]

end Binary64

namespace FloatReader

/-- **The nearest reader is exact.** -/
instance exact_nearest : @Exact nearest :=
  @Exact.mk nearest fun x hx => by
    obtain ⟨numeral, hwrites, -, hvalue⟩ := Binary64.exists_writes_documentText hx
    show (match Numeral.scan x.documentText with
      | some (n, _) => n.toBinary64
      | none => .notANumber) = x
    rw [hwrites.scan]
    exact hvalue

end FloatReader

namespace Json

/-- The number is one that a document can hold: an integer of 64 bits, with sign or
without, or a finite number. -/
def Number.Storable : Number → Prop
  | .integer i => Binary64.minInt64 ≤ i ∧ i < (Nat.pow 2 64 : Nat)
  | .float x => x.isFinite = true

/-- The number is read back from its text. -/
def Number.ReadsBack [FloatReader] (n : Number) : Prop :=
  ∃ numeral, Numeral.Writes n.write numeral ∧ Number.ofNumeral? n.write numeral = some n

/-- **An integer is read back** by every reader. -/
theorem Number.readsBack_integer [FloatReader] {i : Int} (h : (Number.integer i).Storable) :
    (Number.integer i).ReadsBack := by
  refine ⟨_, Numeral.writes_integer (i < 0) i.natAbs, ?_⟩
  have hsigned : (if decide (i < 0) = true then -((i.natAbs : Nat) : Int) else i.natAbs) = i := by
    by_cases hi : i < 0
    · rw [if_pos (decide_eq_true hi)]
      omega
    · rw [if_neg (by simpa using hi)]
      omega
  -- an integer is not written as a zero with a sign, which would be a float
  have hzero : (decide (i < 0) && i.natAbs == 0) = false := by
    by_cases hi : i < 0
    · have hne : i.natAbs ≠ 0 := by omega
      simp [hne]
    · simp [hi]
  obtain ⟨hleast, hgreatest⟩ := h
  simp only [Number.ofNumeral?, hsigned, hzero, Bool.not_false, Bool.and_true, Bool.true_and]
  rw [if_pos]
  exact Bool.and_eq_true_iff.mpr ⟨decide_eq_true hleast, decide_eq_true hgreatest⟩

/-- **A number is read back** by an exact reader. -/
theorem Number.Storable.readsBack [FloatReader] [FloatReader.Exact] {n : Number}
    (h : n.Storable) : n.ReadsBack := by
  rcases n with i | x
  · exact readsBack_integer h
  · obtain ⟨numeral, hwrites, hbare, -⟩ := Binary64.exists_writes_documentText h
    refine ⟨numeral, hwrites, ?_⟩
    have hfinite : x.isFinite = true := h
    have hvalue : FloatReader.read (Number.float x).write = x :=
      FloatReader.Exact.read_documentText x hfinite
    simp only [Number.ofNumeral?, hbare, hvalue, hfinite, Bool.false_and, if_false, if_true,
      Bool.false_eq_true]

theorem Number.exists_writes {n : Number} (h : n.Storable) :
    ∃ numeral, Numeral.Writes n.write numeral := by
  let _ := FloatReader.nearest
  obtain ⟨numeral, hwrites, -⟩ := h.readsBack
  exact ⟨numeral, hwrites⟩

/-- **Different numbers have different texts.** -/
theorem Number.write_inj {n m : Number} (hn : n.Storable) (hm : m.Storable)
    (h : n.write = m.write) : n = m := by
  let _ := FloatReader.nearest
  obtain ⟨numeral, hwrites, hread⟩ := hn.readsBack
  obtain ⟨numeral', hwrites', hread'⟩ := hm.readsBack
  have hscan := hwrites.scan
  rw [h, hwrites'.scan] at hscan
  cases hscan
  rw [h] at hread
  exact Option.some.inj (hread.symm.trans hread')

/-- The text of an integer is the one that it has in a document. -/
theorem Number.toList_toString (i : Int) : (toString i).toList = (Number.integer i).write := by
  rw [Int.toString_eq_repr, write]
  cases i with
  | ofNat m =>
    show (Nat.repr m).toList = _
    rw [Nat.repr_eq_ofList_toDigits, String.toList_ofList]
    rfl
  | negSucc m =>
    show ("-" ++ Nat.repr (m + 1)).toList = _
    simp only [String.toList_append, Nat.repr_eq_ofList_toDigits, String.toList_ofList,
      decide_eq_true (Int.negSucc_lt_zero m)]
    rfl

end Json

end CampusQuery
