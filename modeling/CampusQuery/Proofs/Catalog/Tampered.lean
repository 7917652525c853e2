/-
CampusQuery/Proofs/Catalog/Tampered.lean

What a dataset file says after somebody else wrote it.

A content that still says what was written, in whatever way it puts it, is read as the dataset that
was stored.  A content with other rows is refused, unless it brings a checksum of its own or its
rows have the same checksum as the rows that were written (`writeDataset_tamper_evident`).  The
checksum is one of the compact text of the rows, so both rest on this text: it is the same for all
ways to write the same rows, and rows with the same text are the same rows.
-/
import CampusQuery.Proofs.Catalog.Reading
import CampusQuery.Proofs.Catalog.Session
import CampusQuery.Proofs.Json.Members

namespace CampusQuery

open Program (Runs)
open Json (Tree Canonical Spells)

variable {d : DataDirectory} {x y : Dataset} {entry : Listing} {content : ByteArray} {w : World}

/-! ### Paths of dataset files -/

/-- The last part of a text goes on as the text does. -/
theorem Text.exists_split_append {separator : Char} {ending : List Char} (h : separator ∉ ending)
    (cs : List Char) :
    ∃ before last, split separator (cs ++ ending) = before ++ [last ++ ending] := by
  induction cs with
  | nil => exact ⟨[], [], split_of_not_mem h⟩
  | cons c cs ih =>
    obtain ⟨before, last, hsplit⟩ := ih
    rw [List.cons_append, split, hsplit]
    split
    · exact ⟨[] :: before, last, rfl⟩
    · rcases before with - | ⟨first, before⟩
      · exact ⟨[], c :: last, rfl⟩
      · exact ⟨(c :: first) :: before, last, rfl⟩

/-- A path with an ending of some length cannot mean a directory. -/
theorem FilePath.asDirectory_of_append {p : FilePath} {stem ending : String}
    (hp : p.text = stem ++ ending) (hslash : '/' ∉ ending.toList) (hlong : 1 < ending.length) :
    p.asDirectory = false := by
  obtain ⟨before, last, hsplit⟩ := Text.exists_split_append hslash stem.toList
  have hlast : p.segments.getLast? = some (String.ofList (last ++ ending.toList)) := by
    rw [segments, hp, String.toList_append, hsplit, List.map_append, List.map_singleton,
      List.getLast?_append]
    rfl
  have hlength : 1 < (String.ofList (last ++ ending.toList)).length := by
    rw [String.length_ofList, List.length_append, String.length_toList]
    omega
  rw [asDirectory, hlast]
  simp only [Bool.or_eq_false_iff, beq_eq_false_iff_ne]
  constructor
  all_goals
    intro h
    rw [h] at hlength
    revert hlength
    decide

namespace DataDirectory

/-- The path of a dataset file means a file, whatever the id is. -/
theorem asDirectory_datasetPath (d : DataDirectory) (id : String) :
    (d.datasetPath id).asDirectory = false := by
  obtain ⟨stem, hstem⟩ : ∃ stem, (d.datasetPath id).text = stem ++ ".json" := by
    rw [datasetPath, fileName, FilePath.join]
    split
    · exact ⟨id, rfl⟩
    · split
      · exact ⟨d.datasetsPath.text ++ id, (String.append_assoc ..).symm⟩
      · exact ⟨d.datasetsPath.text ++ "/" ++ id, (String.append_assoc ..).symm⟩
  exact FilePath.asDirectory_of_append hstem (by decide) (by decide)

/-- A dataset is read by decoding its file and opening what it holds. -/
theorem run_readDataset [FloatReader] (d : DataDirectory) (entry : Listing)
    (hread : w.files.read (d.datasetPath entry.id) = .ok content) :
    ((d.readDataset entry).run.run w).1 = .ok y ↔
      ∃ e, Envelope.ofBytes content = .ok e ∧ e.open? (d.datasetPath entry.id) entry = .ok y := by
  obtain ⟨result, hrun, hresult⟩ := d.runIn_readDataset .nothing entry w
  rw [Action.runIn, Program.runIn_nothing] at hrun
  rw [hrun]
  refine (hresult y).trans ⟨?_, ?_⟩
  · rintro ⟨content', e, hread', he⟩
    obtain rfl := Except.ok.inj (hread.symm.trans hread')
    exact ⟨e, he⟩
  · rintro ⟨e, he⟩
    exact ⟨content, e, hread, he⟩

end DataDirectory

/-! ### What an envelope takes from its document -/

theorem Json.ofNat_inj {m n : Nat} (h : Json.ofNat m = Json.ofNat n) : m = n := by
  rw [Json.ofNat, Json.ofNat, Json.number.injEq, Json.Number.integer.injEq] at h
  exact Int.ofNat_inj.mp h

namespace Json.Tree

theorem eq_text_of_readText {t : Tree} {s : String} (h : readText t = .ok s) :
    t = .text (some s) := by
  unfold readText at h
  split at h
  · cases h
    rfl
  · cases h

/-- A number that was read is in its range. -/
theorem eq_ofNat_of_readNat {name : String} {bits n : Nat} {t : Tree}
    (h : readNat name bits t = .ok n) : t = ofJson (.ofNat n) ∧ n < 2 ^ bits := by
  obtain ⟨i, hi, rfl⟩ := map_eq_ok_iff.mp h
  unfold readInteger at hi
  split at hi
  · split at hi
    · rename_i hrange
      obtain rfl := Except.ok.inj hi
      obtain ⟨n, rfl⟩ := Int.eq_ofNat_of_zero_le hrange.1
      refine ⟨rfl, ?_⟩
      have hpow : (Nat.pow 2 bits : Nat) = 2 ^ bits := rfl
      have hlt := hrange.2
      rw [hpow] at hlt
      rw [Int.toNat_natCast]
      omega
    · cases hi
  · cases hi

end Json.Tree

namespace Envelope

variable {e : Envelope} {spelled : List (String × Json)}

theorem slots_id : ∀ s ∈ slots, s.Sets "id" (fun t i => t = .text (some i)) Envelope.id := by
  simp only [slots, List.forall_mem_cons, List.not_mem_nil, false_implies, implies_true, and_true]
  exact ⟨.required fun t i hi _ => Tree.eq_text_of_readText hi,
    .required_of_ne (by decide) fun _ _ => rfl, .required_of_ne (by decide) fun _ _ => rfl,
    .required_of_ne (by decide) fun _ _ => rfl, .required_of_ne (by decide) fun _ _ => rfl⟩

theorem slots_kind : ∀ s ∈ slots, s.Sets "kind"
    (fun t k => Tree.readVariant Kind.variants t = .ok k) Envelope.kind := by
  simp only [slots, List.forall_mem_cons, List.not_mem_nil, false_implies, implies_true, and_true]
  exact ⟨.required_of_ne (by decide) fun _ _ => rfl, .required fun t k hk _ => hk,
    .required_of_ne (by decide) fun _ _ => rfl, .required_of_ne (by decide) fun _ _ => rfl,
    .required_of_ne (by decide) fun _ _ => rfl⟩

theorem slots_checksum : ∀ s ∈ slots, s.Sets "checksum"
    (fun t c => t = Tree.ofJson (.ofNat c.toNat)) Envelope.checksum := by
  simp only [slots, List.forall_mem_cons, List.not_mem_nil, false_implies, implies_true, and_true]
  refine ⟨.required_of_ne (by decide) fun _ _ => rfl, .required_of_ne (by decide) fun _ _ => rfl,
    .required_of_ne (by decide) fun _ _ => rfl, .required fun t n hn e => ?_,
    .required_of_ne (by decide) fun _ _ => rfl⟩
  obtain ⟨rfl, hlt⟩ := Tree.eq_ofNat_of_readNat hn
  show Tree.ofJson (.ofNat n) = Tree.ofJson (.ofNat (UInt32.ofNat n).toNat)
  rw [UInt32.toNat_ofNat_of_lt' hlt]

theorem slots_rows : ∀ s ∈ slots, s.Sets "rows"
    (fun t v => t.toJson? (Json.maxDepth - 1) = some v) Envelope.rows := by
  simp only [slots, List.forall_mem_cons, List.not_mem_nil, false_implies, implies_true, and_true]
  exact ⟨.required_of_ne (by decide) fun _ _ => rfl, .required_of_ne (by decide) fun _ _ => rfl,
    .required_of_ne (by decide) fun _ _ => rfl, .required_of_ne (by decide) fun _ _ => rfl,
    .required fun t v hv _ => Tree.readAny_eq_ok_iff.mp hv⟩

/-! ### Documents of envelopes -/

/-- The members of the document that an envelope is written as. -/
def members (e : Envelope) : List (String × Json) :=
  [("id", .text e.id), ("kind", .text e.kind.name), ("written_at", .text e.writtenAt),
    ("checksum", .ofNat e.checksum.toNat), ("rows", e.rows)]

variable [FloatReader]

/-- The file of a dataset spells the members of its envelope. -/
theorem spells_toBytes [FloatReader.Exact] (hx : x.store.Storable) (writtenAt : String) :
    Spells (ofDataset x writtenAt).toBytes (ofDataset x writtenAt).members := by
  refine Spells.write (storable_toJson hx writtenAt).readsBack ?_
  simp only [List.forall_mem_cons, List.not_mem_nil, false_implies, implies_true, and_true]
  exact ⟨.text _, .text _, .text _, .number _, (canonical_rowsOf x.store).mono (by decide)⟩

/-- The id, the checksum and the rows of a document are those of its envelope. -/
theorem mem_iff_of_ofBytes (hspells : Spells content spelled) (h : ofBytes content = .ok e) :
    (∀ v, ("id", v) ∈ spelled ↔ v = .text e.id) ∧
      (∀ v, ("checksum", v) ∈ spelled ↔ v = .ofNat e.checksum.toNat) ∧
      ∀ v, ("rows", v) ∈ spelled ↔ v = e.rows := by
  refine ⟨fun v => hspells.mem_iff h slots_id ⟨slots[0], List.getElem_mem _, rfl, rfl⟩ .text ?_,
    fun v => hspells.mem_iff h slots_checksum ⟨slots[3], List.getElem_mem _, rfl, rfl⟩
      (fun c => .ofNat c.toNat) ?_,
    fun v => hspells.mem_iff h slots_rows ⟨slots[4], List.getElem_mem _, rfl, rfl⟩
      (fun rows => rows) ?_⟩
  · rintro _ i v rfl hv
    exact (Option.some.inj hv).symm
  · rintro _ c v rfl hv
    exact (Option.some.inj hv).symm
  · intro t a v ht hv
    exact Option.some.inj (hv.symm.trans ht)

/-- The kind of a document is that of its envelope. -/
theorem kind_of_ofBytes (hspells : Spells content spelled) (h : ofBytes content = .ok e)
    {k : Kind} (hk : ("kind", .text k.name) ∈ spelled) : e.kind = k := by
  obtain ⟨t, ht, hread⟩ := hspells.field h slots_kind ⟨slots[1], List.getElem_mem _, rfl⟩ hk
  obtain rfl := Tree.eq_text_of_toJson? ht
  exact (Except.ok.inj (hread.symm.trans k.readVariant_name))

/-- Rows that were read can be written and read again. -/
def RowsFit (e : Envelope) : Prop := Canonical (Json.maxDepth - 1) e.rows ∧ e.rows.Storable

theorem rowsFit_of_ofBytes (h : ofBytes content = .ok e) : e.RowsFit := by
  refine Tree.readRecord_keeps ?_ (Tree.storable_read _) (Json.readText_eq_ok h) ⟨.null, .null⟩
  simp only [slots, List.forall_mem_cons, List.not_mem_nil, false_implies, implies_true, and_true]
  refine ⟨?id, ?kind, ?writtenAt, ?checksum, ?rows⟩
  all_goals refine Json.Slot.keeps_required fun t v ht hv e he => ?_
  case rows =>
    have hvalue := Tree.readAny_eq_ok_iff.mp hv
    exact ⟨Tree.canonical_of_toJson? hvalue, Tree.storable_of_toJson? ht hvalue⟩
  -- the other fields leave the rows as they are
  all_goals exact he

/-- A document that has the members of an envelope, but for the time, is read as this envelope, but
for the time. -/
theorem exists_ofBytes_eq (hspells : Spells content spelled) (hnodup : (spelled.map Prod.fst).Nodup)
    (hmembers : ∀ m ∈ e.members, m.1 ≠ "written_at" → m ∈ spelled) {time : String}
    (htime : ("written_at", .text time) ∈ spelled) :
    ∃ writtenAt, ofBytes content = .ok { e with writtenAt } := by
  have hid : ("id", .text e.id) ∈ spelled := hmembers _ (by simp [members]) (by simp)
  have hkind : ("kind", .text e.kind.name) ∈ spelled := hmembers _ (by simp [members]) (by simp)
  have hsum : ("checksum", .ofNat e.checksum.toNat) ∈ spelled :=
    hmembers _ (by simp [members]) (by simp)
  have hrows : ("rows", e.rows) ∈ spelled := hmembers _ (by simp [members]) (by simp)
  obtain ⟨e', he'⟩ : ∃ e', ofBytes content = .ok e' := by
    refine hspells.exists_record hnodup ?_
    simp only [slots, List.forall_mem_cons, List.not_mem_nil, false_implies, implies_true, and_true]
    refine ⟨⟨_, hid, fun t ht => ?_⟩, ⟨_, hkind, fun t ht => ?_⟩, ⟨_, htime, fun t ht => ?_⟩,
      ⟨_, hsum, fun t ht => ?_⟩, ⟨_, hrows, fun t ht => ?_⟩⟩
    · obtain rfl := Tree.eq_text_of_toJson? ht
      exact ⟨_, rfl⟩
    · obtain rfl := Tree.eq_text_of_toJson? ht
      exact ⟨_, map_eq_ok_iff.mpr ⟨_, e.kind.readVariant_name, rfl⟩⟩
    · obtain rfl := Tree.eq_text_of_toJson? ht
      exact ⟨_, rfl⟩
    · obtain rfl := Tree.eq_number_of_toJson? ht
      exact ⟨_, map_eq_ok_iff.mpr ⟨_, readNat_ofNat (UInt32.toNat_lt _), rfl⟩⟩
    · exact ⟨_, map_eq_ok_iff.mpr ⟨_, Tree.readAny_eq_ok_iff.mpr ht, rfl⟩⟩
  refine ⟨e'.writtenAt, he'.trans (congrArg Except.ok ?_)⟩
  -- what was read has the parts that were written
  obtain ⟨hids, hsums, hrowss⟩ := mem_iff_of_ofBytes hspells he'
  obtain ⟨id, kind, writtenAt, checksum, rows⟩ := e'
  obtain rfl : e.id = id := Json.text.inj ((hids _).mp hid)
  obtain rfl : kind = e.kind := kind_of_ofBytes hspells he' hkind
  obtain rfl : e.checksum = checksum := UInt32.toNat.inj (Json.ofNat_inj ((hsums _).mp hsum))
  obtain rfl : e.rows = rows := (hrowss _).mp hrows
  rfl

end Envelope

/-! ### Files that were changed -/

/-- Texts whose beginnings lead to the same state have the same checksum. -/
theorem Checksum.ofText_append_congr {a b : String}
    (h : a.toUTF8.data.foldl addByte 0xFFFFFFFF = b.toUTF8.data.foldl addByte 0xFFFFFFFF)
    (ending : String) : ofText (b ++ ending) = ofText (a ++ ending) := by
  simp only [ofText, crc32, String.toUTF8_eq_toByteArray, String.toByteArray_append,
    ByteArray.data_append, Array.foldl_append] at h ⊢
  rw [h]

namespace DataDirectory

section Changed

variable [FloatReader]

/-- What is read under the checksum that was written is the dataset, or other rows that have this
checksum as well. -/
theorem eq_or_collision (hx : x.store.Storable) {e : Envelope} {path : FilePath}
    (he : Envelope.ofBytes content = .ok e)
    (hsum : e.checksum = Envelope.checksumOf (Envelope.rowsOf x.store))
    (hopen : e.open? path x.listing = .ok y) :
    y = x ∨ (Envelope.rowsOf x.store).write ≠ e.rows.write ∧
      Checksum.ofText (Envelope.rowsOf x.store).write = Checksum.ofText e.rows.write := by
  obtain ⟨hid, hkind, hchecksum, records, store, hread, -, hstore, rfl⟩ :=
    Envelope.open?_eq_ok_iff.mp hopen
  by_cases hwrite : (Envelope.rowsOf x.store).write = e.rows.write
  · -- rows with the same text are the same rows, and hold the same records
    obtain ⟨hcanonical, hstorable⟩ := Envelope.rowsFit_of_ofBytes he
    have hrows : Envelope.rowsOf x.store = e.rows :=
      Json.write_inj (Envelope.storable_rowsOf hx) hstorable
        ((Envelope.canonical_rowsOf x.store).mono (by decide)) (hcanonical.mono (by decide)) hwrite
    have hkind' : e.kind = x.store.kind := hkind
    rw [← hrows, hkind', Envelope.readRows_rowsOf hx] at hread
    obtain rfl := Except.ok.inj hread
    rw [hkind', RecordStore.ofRecords_records] at hstore
    obtain rfl := Except.ok.inj hstore
    exact .inl (congrArg (Dataset.mk · x.store) hid)
  · exact .inr ⟨hwrite, (hchecksum.trans hsum).symm⟩

/-- **Dataset files are tamper-evident.**  An exact reader finds in the file of a dataset what was
written.  Whatever stands there later, and however fractions are read: if it is a document with the
members that were written, but for the time, in any order and with any others beside them, the
dataset is read; and if something is read although the checksum is the one that was written, then it
is the dataset, or the text of its rows is another text with the same checksum. -/
theorem writeDataset_tamper_evident {t u : FileTree} (hx : x.store.Storable)
    (hrun : Runs .any (d.writeDataset x).run t (.ok ()) u) :
    ∃ writtenAt, u.read (d.datasetPath x.id) = .ok (Envelope.ofDataset x writtenAt).toBytes ∧
      (∀ [FloatReader.Exact],
        Spells (Envelope.ofDataset x writtenAt).toBytes (Envelope.ofDataset x writtenAt).members) ∧
      ∀ (w : World) (content : ByteArray), w.files.read (d.datasetPath x.id) = .ok content →
        (∀ spelled, Spells content spelled → (spelled.map Prod.fst).Nodup →
          (∀ m ∈ (Envelope.ofDataset x writtenAt).members, m.1 ≠ "written_at" → m ∈ spelled) →
          (∃ time, ("written_at", .text time) ∈ spelled) →
          ((d.readDataset x.listing).run.run w).1 = .ok x) ∧
        ∀ y, ((d.readDataset x.listing).run.run w).1 = .ok y →
          ∃ e, Envelope.ofBytes content = .ok e ∧
            (∀ spelled, Spells content spelled →
              (∀ v, ("checksum", v) ∈ spelled ↔ v = .ofNat e.checksum.toNat) ∧
              ∀ v, ("rows", v) ∈ spelled ↔ v = e.rows) ∧
            (e.checksum = (Envelope.ofDataset x writtenAt).checksum → y = x ∨
              (Envelope.rowsOf x.store).write ≠ e.rows.write ∧
                Checksum.ofText (Envelope.rowsOf x.store).write =
                  Checksum.ofText e.rows.write) := by
  obtain ⟨writtenAt, hreplace⟩ := Action.runs_silent_bind (Program.silent_take _) hrun
  have hfile : u.read (d.datasetPath x.id) = .ok (Envelope.ofDataset x writtenAt).toBytes := by
    rcases runs_replace (d.asDirectory_datasetPath x.id) hreplace with ⟨-, -, h⟩ | ⟨⟨e, he, -⟩, -⟩
    · exact h
    · cases he
  refine ⟨writtenAt, hfile, Envelope.spells_toBytes hx writtenAt, fun w content hread =>
    ⟨fun spelled hspells hnodup hmembers htime => ?_, fun y hy => ?_⟩⟩
  · obtain ⟨time, htime⟩ := htime
    obtain ⟨writtenAt', he⟩ := Envelope.exists_ofBytes_eq hspells hnodup hmembers htime
    exact (run_readDataset d x.listing hread).mpr
      ⟨Envelope.ofDataset x writtenAt', he, Envelope.open?_ofDataset hx writtenAt' _⟩
  · obtain ⟨e, he, hopen⟩ := (run_readDataset d x.listing hread).mp hy
    exact ⟨e, he, fun spelled hspells => (Envelope.mem_iff_of_ofBytes hspells he).2,
      fun hsum => eq_or_collision hx he hsum hopen⟩

end Changed

section Sample

attribute [local instance] FloatReader.nearest

/-- The dataset of one room. -/
def sampleDataset : Dataset := ⟨"rooms", Session.sampleStore⟩

theorem storable_sampleDataset : sampleDataset.store.Storable := Session.storable_sampleEdit.1

/-- The dataset with another address, which is chosen so that its rows have the same checksum. -/
def sampleForged : Dataset where
  id := "rooms"
  store :=
    { kind := .rooms
      records := #[.room ⟨"Orchard Commons", "ORCH", "1001", "ORCH_1001", "1 Forged Way mxysfhj",
        .ofInt 49, .ofInt (-123), 72, "Open Design", "Tables", ""⟩]
      ofKind := by decide
      distinct := by decide }

theorem storable_sampleForged : sampleForged.store.Storable := by
  intro x hx
  obtain rfl := List.mem_singleton.mp hx
  exact ⟨by decide +kernel, by decide +kernel, by decide +kernel, by decide +kernel⟩

/-- What follows the address. -/
def sampleEnding : String :=
  "\",\"fullname\":\"Orchard Commons\",\"furniture\":\"Tables\",\"href\":\"\",\"lat\":49.0," ++
    "\"lon\":-123.0,\"name\":\"ORCH_1001\",\"number\":\"1001\",\"seats\":72," ++
    "\"shortname\":\"ORCH\",\"type\":\"Open Design\"\x7d]"

theorem checksum_sampleForged : Envelope.checksumOf (Envelope.rowsOf sampleForged.store) =
    Envelope.checksumOf (Envelope.rowsOf sampleDataset.store) := by
  have hrows : (Envelope.rowsOf sampleDataset.store).write =
      "[\x7b\"address\":\"6363 Agronomy Road" ++ sampleEnding := by decide +kernel
  have hforged : (Envelope.rowsOf sampleForged.store).write =
      "[\x7b\"address\":\"1 Forged Way mxysfhj" ++ sampleEnding := by decide +kernel
  rw [Envelope.checksumOf, Envelope.checksumOf, hrows, hforged]
  exact Checksum.ofText_append_congr (by decide +kernel) sampleEnding

/-- The members of the file in another order, with a remark and the time of somebody else. -/
def sampleRearranged : List (String × Json) :=
  [("remark", .null), ("rows", Envelope.rowsOf sampleDataset.store),
    ("checksum", .ofNat (Envelope.ofDataset sampleDataset "").checksum.toNat),
    ("written_at", .text "never"), ("kind", .text "rooms"), ("id", .text "rooms")]

theorem spells_sampleRearranged :
    Spells (Json.object sampleRearranged).write.toUTF8 sampleRearranged := by
  have hsum := UInt32.toNat_lt (Envelope.ofDataset sampleDataset "").checksum
  have hstorable : (Json.object sampleRearranged).Storable := by
    refine .object ?_
    simp only [sampleRearranged, List.forall_mem_cons, List.not_mem_nil, false_imp_iff,
      implies_true, and_true]
    exact ⟨.null, Envelope.storable_rowsOf storable_sampleDataset, storable_ofNat (by omega),
      .text _, .text _, .text _⟩
  refine Spells.write hstorable.readsBack ?_
  simp only [sampleRearranged, List.forall_mem_cons, List.not_mem_nil, false_imp_iff,
    implies_true, and_true]
  exact ⟨.null, (Envelope.canonical_rowsOf _).mono (by decide), .number _, .text _, .text _,
    .text _⟩

/-- A world in which somebody has written the file of the dataset. -/
def sampleChanged (content : ByteArray) : World :=
  { Session.sampleWorld with
    files := ⟨[(["data"], .directory), (["data", "datasets"], .directory),
      (["data", "datasets", "rooms.json"], .file content)]⟩ }

theorem read_sampleChanged (content : ByteArray) :
    (sampleChanged content).files.read (Session.sampleDirectory.datasetPath "rooms") =
      .ok content := by
  rfl

/-- Two changed files: one says the same in another way, and one was made to have the checksum. -/
theorem writeDataset_tamper_evident_sample :
    ∃ u, sampleDataset.store.Storable ∧
      Runs .any (Session.sampleDirectory.writeDataset sampleDataset).run Session.sampleOpened.files
        (.ok ()) u ∧
      ((Session.sampleDirectory.readDataset sampleDataset.listing).run.run
        (sampleChanged (Json.object sampleRearranged).write.toUTF8)).1 = .ok sampleDataset ∧
      ((Session.sampleDirectory.readDataset sampleDataset.listing).run.run
        (sampleChanged (Envelope.ofDataset sampleForged "").toBytes)).1 = .ok sampleForged ∧
      (Envelope.rowsOf sampleDataset.store).write ≠ (Envelope.rowsOf sampleForged.store).write ∧
      Checksum.ofText (Envelope.rowsOf sampleDataset.store).write =
        Checksum.ofText (Envelope.rowsOf sampleForged.store).write := by
  have hwriting := Program.runs_run (Session.sampleDirectory.writeDataset sampleDataset).run
    Session.sampleOpened
  obtain ⟨⟨⟩, hok⟩ := exists_of_isOk (x := ((Session.sampleDirectory.writeDataset
    sampleDataset).run.run Session.sampleOpened).1) (by decide +kernel)
  rw [hok] at hwriting
  have hany : ∀ t a e, Faults.genuine t a e → Faults.any t a e := fun _ _ _ _ => trivial
  have hrun := hwriting.mono hany
  obtain ⟨writtenAt, -, -, hread⟩ := writeDataset_tamper_evident storable_sampleDataset hrun
  have hsame := (hread _ _ (read_sampleChanged _)).1 _ spells_sampleRearranged
    (by simp [sampleRearranged]) (fun m hm hne => ?_) ⟨"never", by simp [sampleRearranged]⟩
  · -- what was forged is read, so it collides
    have hforged := Envelope.ofBytes_toBytes storable_sampleForged ""
    have hopens := (run_readDataset Session.sampleDirectory sampleDataset.listing
      (read_sampleChanged _)).mpr ⟨_, hforged, Envelope.open?_ofDataset storable_sampleForged "" _⟩
    obtain ⟨e, he, -, hcollides⟩ := (hread _ _ (read_sampleChanged _)).2 _ hopens
    obtain rfl := Except.ok.inj (hforged.symm.trans he)
    rcases hcollides checksum_sampleForged with heq | ⟨hne, hsum⟩
    · exact absurd (congrArg (fun x => x.store.records) heq) (by decide +kernel)
    · exact ⟨_, storable_sampleDataset, hrun, hsame, hopens, hne, hsum⟩
  · simp only [Envelope.members, List.mem_cons, List.not_mem_nil, or_false] at hm
    rcases hm with rfl | rfl | rfl | rfl | rfl
    · simp [sampleRearranged, Envelope.ofDataset, sampleDataset]
    · simp [sampleRearranged, Envelope.ofDataset, sampleDataset, Session.sampleStore, Kind.name]
    · exact absurd rfl hne
    · simp [sampleRearranged, Envelope.ofDataset]
    · simp [sampleRearranged, Envelope.ofDataset]

end Sample

end DataDirectory

end CampusQuery
