/-
CampusQuery/Proofs/Dataset/Stores.lean

Which lists of records make a store.

Both facts about a store, that its records are of its kind and that their keys are different, are
checked in one pass, with the keys seen so far in a set.  The invariant of the pass is that the set
holds the keys of the records before, and that none of these is faulty; so the record where it stops
is the first faulty one of the whole list (`firstFault?_eq_some_iff`).  The order of the two checks
decides what is reported of a record that has both faults.
-/
import CampusQuery.Dataset.Store

namespace CampusQuery.RecordStore

variable {kind : Kind} {records earlier rest : List Record} {seen : Std.HashSet String}
variable {r : Record} {store : RecordStore} {e : DatasetError} {i : Nat}

/-! ### Faulty records -/

/-- The record at the place is of another kind, or it has the key of a record before it. -/
def FaultyAt (kind : Kind) (records : List Record) (i : Nat) : Prop :=
  ∃ r, records[i]? = some r ∧
    (r.kind ≠ kind ∨ ∃ x ∈ records.take i, x.primaryKey = r.primaryKey)

/-- What is reported of a faulty record: its kind if that is another one, and else its key. -/
def faultOf (kind : Kind) (r : Record) : DatasetError :=
  if r.kind ≠ kind then .kindMismatch kind r.kind else .duplicateKey r.primaryKey

/-- The first faulty record of the list, and what is reported of it. -/
structure IsFirstFault (kind : Kind) (records : List Record) (i : Nat) (e : DatasetError) :
    Prop where
  faulty : FaultyAt kind records i
  first : ∀ j < i, ¬ FaultyAt kind records j
  error : ∃ r, records[i]? = some r ∧ e = faultOf kind r

theorem IsFirstFault.error_unique {j : Nat} {e' : DatasetError}
    (h : IsFirstFault kind records i e) (h' : IsFirstFault kind records j e') : e = e' := by
  obtain rfl : i = j := by
    rcases Nat.lt_trichotomy i j with hlt | heq | hgt
    · exact absurd h.faulty (h'.first i hlt)
    · exact heq
    · exact absurd h'.faulty (h.first j hgt)
  obtain ⟨r, hr, rfl⟩ := h.error
  obtain ⟨x, hx, rfl⟩ := h'.error
  rw [hr, Option.some.injEq] at hx
  rw [hx]

/-- A record is at fault for the records before it. -/
theorem faultyAt_length : FaultyAt kind (earlier ++ r :: rest) earlier.length ↔
    r.kind ≠ kind ∨ ∃ x ∈ earlier, x.primaryKey = r.primaryKey := by
  simp [FaultyAt]

/-! ### The pass -/

/-- The set holds the keys of the records. -/
def Holds (seen : Std.HashSet String) (earlier : List Record) : Prop :=
  ∀ key, key ∈ seen ↔ ∃ x ∈ earlier, x.primaryKey = key

theorem holds_empty : Holds ∅ [] := by
  simp [Holds]

theorem Holds.insert (h : Holds seen earlier) (r : Record) :
    Holds (seen.insert r.primaryKey) (earlier ++ [r]) := by
  intro key
  rw [Std.HashSet.mem_insert, h key, beq_iff_eq]
  simp [or_and_right, exists_or, or_comm]

/-- The pass stops at a faulty record with what is to be reported of it. -/
theorem firstFault?_cons_of_faulty (hseen : Holds seen earlier)
    (h : FaultyAt kind (earlier ++ r :: rest) earlier.length) :
    firstFault? kind seen (r :: rest) = some (faultOf kind r) := by
  rw [firstFault?, faultOf]
  split
  · rfl
  · rename_i hkind
    have hkey : r.primaryKey ∈ seen :=
      (hseen _).mpr ((faultyAt_length.mp h).resolve_left hkind)
    rw [if_pos (Std.HashSet.contains_iff_mem.mpr hkey)]

/-- It goes on at any other record. -/
theorem firstFault?_cons_of_not_faulty (hseen : Holds seen earlier)
    (h : ¬ FaultyAt kind (earlier ++ r :: rest) earlier.length) :
    firstFault? kind seen (r :: rest) = firstFault? kind (seen.insert r.primaryKey) rest := by
  rw [faultyAt_length, not_or] at h
  have hkey : r.primaryKey ∉ seen := fun hmem => h.2 ((hseen _).mp hmem)
  rw [firstFault?, if_neg h.1, if_neg (by simpa using hkey)]

/-- **The pass stops at the first faulty record**, wherever it has come to without stopping. -/
theorem firstFault?_eq_some_iff_of_holds (hseen : Holds seen earlier)
    (hearlier : ∀ j < earlier.length, ¬ FaultyAt kind (earlier ++ rest) j) :
    firstFault? kind seen rest = some e ↔ ∃ i, IsFirstFault kind (earlier ++ rest) i e := by
  induction rest generalizing seen earlier with
  | nil =>
    constructor
    · nofun
    · rintro ⟨i, h⟩
      obtain ⟨r, hr, -⟩ := h.faulty
      have hi : i < (earlier ++ []).length := (List.getElem?_eq_some_iff.mp hr).1
      rw [List.append_nil] at hi
      exact absurd h.faulty (hearlier i hi)
  | cons r rest ih =>
    by_cases hfaulty : FaultyAt kind (earlier ++ r :: rest) earlier.length
    · have hfirst : IsFirstFault kind (earlier ++ r :: rest) earlier.length (faultOf kind r) :=
        ⟨hfaulty, hearlier, r, by simp, rfl⟩
      rw [firstFault?_cons_of_faulty hseen hfaulty, Option.some.injEq]
      constructor
      · rintro rfl
        exact ⟨_, hfirst⟩
      · rintro ⟨i, h⟩
        exact hfirst.error_unique h
    · rw [firstFault?_cons_of_not_faulty hseen hfaulty, List.append_cons earlier r rest]
      rw [List.append_cons earlier r rest] at hearlier hfaulty
      refine ih (hseen.insert r) fun j hj => ?_
      rw [List.length_append, List.length_singleton, Nat.lt_add_one_iff_lt_or_eq] at hj
      rcases hj with hj | rfl
      · exact hearlier j hj
      · exact hfaulty

theorem firstFault?_eq_some_iff :
    firstFault? kind ∅ records = some e ↔ ∃ i, IsFirstFault kind records i e :=
  firstFault?_eq_some_iff_of_holds holds_empty nofun

/-! ### Stores -/

/-- The kind and the records make up a store. -/
theorem ext {s s' : RecordStore} (hkind : s.kind = s'.kind)
    (hrecords : s.records.toList = s'.records.toList) : s = s' := by
  rcases s with ⟨kind, ⟨records⟩, ofKind, distinct⟩
  rcases s' with ⟨kind', ⟨records'⟩, ofKind', distinct'⟩
  cases hkind
  cases hrecords
  rfl

/-- Records of one kind with different keys are not faulty. -/
theorem not_faultyAt (hkind : ∀ r ∈ records, r.kind = kind)
    (hdistinct : (records.map Record.primaryKey).Nodup) (i : Nat) : ¬ FaultyAt kind records i := by
  rintro ⟨r, hr, hother | ⟨x, hx, hkey⟩⟩
  · exact hother (hkind r (List.mem_of_getElem? hr))
  · have hrest : r ∈ records.drop i := List.mem_of_getElem? (i := 0) (by simpa using hr)
    rw [← List.take_append_drop i records, List.map_append, List.nodup_append] at hdistinct
    exact hdistinct.2.2 _ (List.mem_map_of_mem hx) _ (List.mem_map_of_mem hrest) hkey

theorem eq_of_ofRecords (h : ofRecords kind records = .ok store) :
    store.kind = kind ∧ store.records.toList = records := by
  unfold ofRecords at h
  split at h
  · cases h
  · cases h
    exact ⟨rfl, rfl⟩

theorem ofRecords_eq_error_iff :
    ofRecords kind records = .error e ↔ ∃ i, IsFirstFault kind records i e := by
  rw [← firstFault?_eq_some_iff]
  unfold ofRecords
  split
  · rename_i e' he
    rw [he, Except.error.injEq, Option.some.injEq]
  · rename_i hnone
    exact ⟨nofun, fun h => nomatch hnone.symm.trans h⟩

/-- A store is the store of its records. -/
theorem ofRecords_records (s : RecordStore) : ofRecords s.kind s.records.toList = .ok s := by
  rcases h : ofRecords s.kind s.records.toList with e | store
  · obtain ⟨i, hfirst⟩ := ofRecords_eq_error_iff.mp h
    exact absurd hfirst.faulty (not_faultyAt s.ofKind s.distinct i)
  · obtain ⟨hkind, hrecords⟩ := eq_of_ofRecords h
    rw [RecordStore.ext hkind hrecords]

/-- **A list makes a store just if its records are of the kind and their keys are different.**  The
store has the records in their order.  Any other list has a first faulty record, and the error is
that of its kind or, if this is the right one, that of its key. -/
theorem ofRecords_outcome (kind : Kind) (records : List Record) :
    ((∃ store, ofRecords kind records = .ok store) ↔
        (∀ r ∈ records, r.kind = kind) ∧
          records.Pairwise fun x y => x.primaryKey ≠ y.primaryKey) ∧
      (∀ store, ofRecords kind records = .ok store →
        store.kind = kind ∧ store.records.toList = records ∧ ∀ i, store.get? i = records[i]?) ∧
      ∀ e, ofRecords kind records = .error e ↔ ∃ i, IsFirstFault kind records i e := by
  refine ⟨⟨?_, ?_⟩, fun store h => ?_, fun e => ofRecords_eq_error_iff⟩
  · rintro ⟨store, h⟩
    obtain ⟨rfl, rfl⟩ := eq_of_ofRecords h
    exact ⟨store.ofKind, List.pairwise_map.mp store.distinct⟩
  · rintro ⟨hkind, hdistinct⟩
    exact ⟨_, ofRecords_records ⟨kind, records.toArray, hkind, List.pairwise_map.mpr hdistinct⟩⟩
  · obtain ⟨hkind, hrecords⟩ := eq_of_ofRecords h
    refine ⟨hkind, hrecords, fun i => ?_⟩
    rw [get?, ← hrecords, Array.getElem?_toList]

/-- A room and a section under one key, and the room again. -/
def sampleMixed : List Record :=
  [.room { Room.blank with name := "A" }, .course { Section.blank with uuid := "A" },
    .room { Room.blank with name := "A" }]

/-- The section has both faults, and its kind is reported.  Where the rooms come first, the second
of them is faulty before it. -/
theorem ofRecords_outcome_sample :
    ofRecords .rooms sampleMixed = .error (.kindMismatch .rooms .courses) ∧
      ofRecords .rooms (sampleMixed.eraseIdx 1 ++ sampleMixed) = .error (.duplicateKey "A") ∧
      ∃ store, ofRecords .rooms [sampleMixed[0]] = .ok store := by
  refine ⟨?_, ?_, ?_⟩
  · refine ((ofRecords_outcome .rooms sampleMixed).2.2 _).mpr ⟨1, ?_, ?_, ?_⟩
    · exact ⟨_, rfl, .inl (by decide)⟩
    · simp [FaultyAt, sampleMixed, Record.kind]
    · exact ⟨_, rfl, rfl⟩
  · refine ((ofRecords_outcome .rooms _).2.2 _).mpr ⟨1, ?_, ?_, ?_⟩
    · exact ⟨_, rfl, .inr ⟨_, List.mem_cons_self, rfl⟩⟩
    · simp [FaultyAt, sampleMixed, Record.kind]
    · exact ⟨_, rfl, rfl⟩
  · exact (ofRecords_outcome .rooms _).1.mpr ⟨by simp [sampleMixed, Record.kind], by simp⟩

end CampusQuery.RecordStore
