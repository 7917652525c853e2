/-
CampusQuery/Proofs/Command/Channels.lean

What commands leave on the channel on which callers are answered.

Journal entries and answers share this channel, so a caller can read the answer only if no entry is
written there.  A command that answers drops all entries below errors before anything else is put
out (`puts_boot`): what comes before is quiet, and what the catalog does after only writes entries
(`Program.Logs`).  The last thing is one line, a document that the caller can read back
(`Command.IsReply`).  So each trace of such a command has one of three shapes (`Command.Outputs`),
and in each of them the channels stay clean (`run_clean`).  Nothing is assumed of the files and the
request; for the list of datasets this takes that a catalog that was opened has numbers of rows that
a document can hold (`Catalog.numRows_lt_of_openAt`).
-/
import CampusQuery.Proofs.Answer.Documents
import CampusQuery.Proofs.Catalog.Counters
import CampusQuery.Proofs.Catalog.Reopened
import CampusQuery.Proofs.Catalog.Tampered
import CampusQuery.Proofs.Program.Traces

namespace CampusQuery

open Journal (Entry)
open Json (Printable Tree)
open Program (Ends Logs Puts Quiet)

variable {c : Catalog} {d : DataDirectory} {id : String} {w w' : World} {os : List Output}

/-! ### Calls on the catalog only write entries -/

namespace Catalog

theorem logs_reportOrphans (ids : List String) : (reportOrphans ids).Logs := by
  induction ids with
  | nil => exact Program.logs_pure _
  | cons id ids ih => exact (Program.logs_log _).bind fun _ => ih

theorem logs_restore [FloatReader] (d : DataDirectory) : (restore d).run.Logs :=
  Action.logs_bind d.quiet_prepare.logs fun _ =>
    Action.logs_bind d.quiet_readMap.logs fun entries =>
      Action.logs_bind (d.quiet_readAll entries _).logs fun _ =>
        Action.logs_bind (d.quiet_sweep _).logs fun stuck =>
          Action.logs_bind (Action.logs_lift (logs_reportOrphans stuck)) fun _ =>
            Program.logs_pure _

theorem logs_openAt [FloatReader] (d : DataDirectory) : (openAt d).run.Logs := by
  refine (Program.logs_log _).bind fun _ => (logs_restore d).bind fun result => ?_
  rcases result with failure | c
  · exact (Program.logs_log _).bind fun _ => Program.logs_pure _
  · exact (Program.quiet_take _).logs.bind fun _ => (Program.logs_log _).bind fun _ =>
      (Program.logs_log _).bind fun _ => Program.logs_pure _

theorem logs_add (c : Catalog) (id : String) (kind : Kind) (records : List Record) :
    (c.add id kind records).Logs := by
  unfold add
  split
  · exact Program.logs_pure _
  · refine (quiet_storeAdded _ _ _).logs.bind fun stored => ?_
    rcases stored with failure | _
    · exact Program.logs_pure _
    · exact (Program.logs_log _).bind fun _ => Program.logs_pure _

theorem logs_storeRemoved (id : String) (entries : List Listing)
    (directory : Option DataDirectory) : (storeRemoved id entries directory).run.Logs := by
  rcases directory with - | d
  · exact Program.logs_pure _
  · exact Action.logs_bind (d.quiet_writeMap entries).logs fun _ =>
      Action.logs_bind (Action.logs_lift (d.quiet_removeDataset id).logs) fun _ =>
        Action.logs_lift (logs_reportOrphans _)

theorem logs_remove (c : Catalog) (id : String) : (c.remove id).Logs := by
  unfold remove
  split
  · exact Program.logs_pure _
  · refine (logs_storeRemoved _ _ _).bind fun stored => ?_
    rcases stored with failure | _
    · exact Program.logs_pure _
    · exact (Program.logs_log _).bind fun _ => Program.logs_pure _

theorem logs_query (c : Catalog) (document : Json) : (c.query document).Logs :=
  Logs.bind ((Program.quiet_take _).logs.bind fun _ => (Program.quiet_take _).logs.bind fun _ =>
    (Program.logs_log _).bind fun _ => Program.logs_pure _) fun _ => Program.logs_pure _

end Catalog

/-! ### Quiet preparations -/

namespace Program

theorem quiet_request : request.Quiet := fun _ _ _ ⟨_, h⟩ => h.2

theorem quiet_readsText (path : FilePath) : (readsText path).Quiet :=
  (quiet_reads path).bind fun _ => quiet_pure _

theorem quiet_requestText : requestText.Quiet := quiet_request.bind fun _ => quiet_pure _

end Program

namespace CourseDirectory

theorem quiet_keepFiles (directory : FilePath) (names : List String) :
    (keepFiles directory names).Quiet := by
  induction names with
  | nil => exact Program.quiet_pure _
  | cons name names ih =>
    exact (Program.quiet_asking _ _).bind fun _ => ih.bind fun _ => Program.quiet_pure _

theorem quiet_readFiles [FloatReader] (directory : FilePath) (names : List String) :
    (readFiles directory names).run.Quiet := by
  induction names with
  | nil => exact Program.quiet_pure _
  | cons name names ih =>
    exact Action.quiet_bind (Program.quiet_readsText _) fun _ =>
      Action.quiet_bind ih fun _ => Program.quiet_pure _

theorem quiet_read [FloatReader] (directory : FilePath) : (read directory).run.Quiet := by
  refine Action.quiet_bind (Program.quiet_listing _) fun found => ?_
  refine Action.quiet_bind (Action.quiet_lift (quiet_keepFiles _ _)) fun files => ?_
  split
  · exact Program.quiet_pure _
  · exact quiet_readFiles _ _

end CourseDirectory

theorem Config.quiet_load [FloatReader] (path : FilePath) : (load path).run.Quiet := by
  refine Action.quiet_bind (Action.quiet_orFail (Program.quiet_readsText _)) fun text => ?_
  split
  · exact Program.quiet_pure _
  · split
    · exact Program.quiet_pure _
    · exact Program.quiet_pure _

namespace Command

variable [FloatReader]

theorem quiet_readRequest : readRequest.run.Quiet := by
  refine Action.quiet_bind (Action.quiet_orFail Program.quiet_requestText) fun text => ?_
  -- the document is read after the text was found not to be blank
  split
  all_goals
    dsimp only
    split
    · exact Action.quiet_bind (Program.quiet_pure _) fun _ => Program.quiet_pure _
    · exact Program.quiet_pure _

theorem quiet_readRows (kind : Kind) (path : FilePath) : (readRows kind path).run.Quiet := by
  refine Action.quiet_bind (Action.quiet_orFail (Program.quiet_readsText _)) fun text => ?_
  split
  · exact Program.quiet_pure _
  · split
    · exact Program.quiet_pure _
    · exact Program.quiet_pure _

theorem quiet_readRecords (kind : Kind) (path : FilePath) :
    (readRecords kind path).run.Quiet := by
  refine Action.quiet_bind (Action.quiet_lift (Program.quiet_asking _ _)) fun isDirectory => ?_
  split
  · split
    · exact Action.quiet_bind (Action.quiet_orFail (CourseDirectory.quiet_read path)) fun _ =>
        Program.quiet_pure _
    · exact Program.quiet_pure _
  · exact quiet_readRows kind path

theorem logs_openCatalog (config : Config) : (openCatalog config).run.Logs :=
  Action.logs_bind (Action.logs_lift (Program.logs_log _)) fun _ =>
    Action.logs_bind (Action.logs_lift (Program.logs_log _)) fun _ =>
      Action.logs_bind (Action.logs_orFail (Catalog.logs_openAt _)) fun _ =>
        Action.logs_bind (Action.logs_lift (Program.logs_log _)) fun _ => Program.logs_pure _

end Command

/-! ### What can be listed -/

/-- An entry of a map has a number of 64 bits. -/
theorem Listing.numRows_lt_of_ofTree {t : Tree} (ht : t.Storable) {l : Listing}
    (h : ofTree t = .ok l) : l.numRows < 2 ^ 64 := by
  have hslots : ∀ s ∈ slots, s.Keeps fun l : Listing => l.numRows < 2 ^ 64 := by
    simp only [slots, List.forall_mem_cons, List.not_mem_nil, false_implies, implies_true, and_true]
    exact ⟨Json.Slot.keeps_required fun _ _ _ _ _ hl => hl,
      Json.Slot.keeps_required fun _ _ _ _ _ hl => hl,
      Json.Slot.keeps_required fun _ _ _ hn _ _ => (Tree.eq_ofNat_of_readNat hn).2⟩
  exact Tree.readRecord_keeps hslots ht h (by decide)

theorem CatalogMap.numRows_lt_of_ofBytes [FloatReader] {bytes : ByteArray} {m : CatalogMap}
    (h : ofBytes bytes = .ok m) : ∀ l ∈ m.datasets, l.numRows < 2 ^ 64 := by
  have hslots : ∀ s ∈ slots,
      s.Keeps fun m : CatalogMap => ∀ l ∈ m.datasets, l.numRows < 2 ^ 64 := by
    simp only [slots, List.forall_mem_cons, List.not_mem_nil, false_implies, implies_true, and_true]
    refine ⟨Json.Slot.keeps_required fun _ _ _ _ _ hm => hm,
      Json.Slot.keeps_required fun t entries ht hentries _ _ l hl => ?_⟩
    cases ht with
    | array hitems =>
      obtain ⟨item, hitem, hread⟩ := exists_of_mem_mapM hentries hl
      exact Listing.numRows_lt_of_ofTree (hitems item hitem) hread
    | _ => cases hentries
  exact Tree.readRecord_keeps hslots (Tree.storable_read _) (Json.readText_eq_ok h)
    (List.forall_mem_nil _)

namespace DataDirectory

variable [FloatReader]

theorem numRows_lt_of_readMap {entries : List Listing}
    (h : d.readMap.run.Ends w (.ok entries) w') : ∀ l ∈ entries, l.numRows < 2 ^ 64 := by
  obtain ⟨present, w₁, -, h⟩ := Action.ends_lift_bind h
  split at h
  · rcases Action.ends_bind h with ⟨bytes, w₂, -, h⟩ | ⟨_, -, he⟩
    · split at h
      · rename_i m hm
        cases (Program.ends_pure h).1
        exact CatalogMap.numRows_lt_of_ofBytes hm
      · cases (Program.ends_pure h).1
    · cases he
  · cases (Program.ends_pure h).1
    exact List.forall_mem_nil _

theorem listing_of_readDataset {entry : Listing} {x : Dataset}
    (h : (d.readDataset entry).run.Ends w (.ok x) w') : x.listing = entry := by
  rcases Action.ends_bind h with ⟨bytes, w₁, -, h⟩ | ⟨_, -, he⟩
  · split at h
    · cases (Program.ends_pure h).1
    · split at h
      · rename_i hopen
        cases (Program.ends_pure h).1
        exact Envelope.listing_of_open? hopen
      · cases (Program.ends_pure h).1
  · cases he

theorem numRows_lt_of_readAll {entries : List Listing} {r r' : Registry}
    (hentries : ∀ l ∈ entries, l.numRows < 2 ^ 64) (hr : ∀ l ∈ r.listings, l.numRows < 2 ^ 64)
    (h : (Catalog.readAll d entries r).run.Ends w (.ok r') w') :
    ∀ l ∈ r'.listings, l.numRows < 2 ^ 64 := by
  induction entries generalizing r w with
  | nil =>
    cases (Program.ends_pure h).1
    exact hr
  | cons entry entries ih =>
    obtain ⟨hentry, hentries⟩ := List.forall_mem_cons.mp hentries
    rcases Action.ends_bind h with ⟨x, w₁, hread, h⟩ | ⟨_, -, he⟩
    · refine ih hentries (fun l hl => ?_) h
      obtain ⟨y, hy, rfl⟩ := Registry.mem_listings.mp hl
      rcases Registry.mem_of_mem_insertInto hy with rfl | hy
      · rwa [listing_of_readDataset hread]
      · exact hr _ (Registry.mem_listings.mpr ⟨y, hy, rfl⟩)
    · cases he

end DataDirectory

/-- The registry of a catalog that was restored lists entries of the map. -/
theorem Catalog.numRows_lt_of_restore [FloatReader] (h : (restore d).run.Ends w (.ok c) w') :
    ∀ l ∈ c.registry.listings, l.numRows < 2 ^ 64 := by
  rcases Action.ends_bind h with ⟨_, w₁, -, h⟩ | ⟨_, -, he⟩
  · rcases Action.ends_bind h with ⟨entries, w₂, hmap, h⟩ | ⟨_, -, he⟩
    · rcases Action.ends_bind h with ⟨registry, w₃, hread, h⟩ | ⟨_, -, he⟩
      · rcases Action.ends_bind h with ⟨stuck, w₄, -, h⟩ | ⟨_, -, he⟩
        · obtain ⟨_, w₅, -, hreturn⟩ := Action.ends_lift_bind h
          cases (Program.ends_pure hreturn).1
          exact d.numRows_lt_of_readAll (DataDirectory.numRows_lt_of_readMap hmap)
            (Registry.listings_empty ▸ List.forall_mem_nil _) hread
        · cases he
      · cases he
    · cases he
  · cases he

/-- **The datasets of a catalog that was opened** have numbers of rows of 64 bits. -/
theorem Catalog.numRows_lt_of_openAt [FloatReader] (h : (openAt d).run.Ends w (.ok c) w') :
    ∀ l ∈ c.registry.listings, l.numRows < 2 ^ 64 := by
  obtain ⟨_, w₁, -, h⟩ := Program.ends_bind h
  obtain ⟨result, w₂, hrestore, h⟩ := Program.ends_bind h
  rcases result with failure | c₁
  · obtain ⟨_, w₃, -, hreturn⟩ := Program.ends_bind h
    cases (Program.ends_pure hreturn).1
  · obtain ⟨_, w₃, -, h⟩ := Program.ends_bind h
    obtain ⟨_, w₄, -, h⟩ := Program.ends_bind h
    obtain ⟨_, w₅, -, hreturn⟩ := Program.ends_bind h
    cases (Program.ends_pure hreturn).1
    exact numRows_lt_of_restore hrestore

/-! ### Replies -/

theorem Listing.printable_toJson {depth : Nat} {l : Listing} (h : l.numRows < 2 ^ 64) :
    Printable (depth + 1) l.toJson := by
  refine .object ?_
  simp only [List.forall_mem_cons, List.not_mem_nil, false_implies, implies_true, and_true]
  have hmin : Binary64.minInt64 = -(2 ^ 63 : Nat) := rfl
  have hmax : Nat.pow 2 64 = 2 ^ 64 := rfl
  exact ⟨.text _, .text _, .integer ⟨by omega, by omega⟩⟩

theorem Listing.nulled_sorted_toJson (l : Listing) : l.toJson.nulled.sorted = l.toJson :=
  congrArg Json.object <| Json.sortMembers_of_increasing <|
    Json.increasing_of_keys (show ["id", "kind", "numRows"].Pairwise (· < ·) by decide) rfl

namespace Command

/-- A query is answered by the registry. -/
theorem eq_answer_of_puts {document : Json} {answered : Except QueryFailure Answer × Catalog}
    (h : (liftM (c.query document) : Action CommandError _).run.Puts os (.ok answered)) :
    c.registry.view.answer document = answered.1 := by
  obtain ⟨_, hquery, heq⟩ := Action.puts_lift h
  cases heq
  exact (Catalog.ends_query (hquery.ends (.blank .error))).1.symm

section Commands

variable [FloatReader]
variable {command : Command} {result : Except CommandError Outcome}

/-- A quiet start with the configuration can open the catalog. -/
def Boots (path : String) (c : Catalog) : Prop :=
  ∃ config os, (boot path true).run.Puts os (.ok (config, c))

/-- The documents that a command answers with: what the catalog that it opened has to say. -/
inductive Replies : Command → Json → Prop
  | answered {config : String} {c : Catalog} {document : Json} {a : Answer} (hc : Boots config c)
    (h : c.registry.view.answer document = .ok a) :
    Replies (.query config) (.object [("data", a.value), ("status", .text "ok")])
  | refused {config : String} {c : Catalog} {document : Json} {f : QueryFailure}
    (hc : Boots config c) (h : c.registry.view.answer document = .error f) :
    Replies (.query config)
      (.object [("code", .text f.code), ("message", .text f.message), ("status", .text "error")])
  | added {config id name file : String} {kind : Kind} {c : Catalog} {records : List Record}
    {x : Dataset} (hkind : Kind.ofName? name = some kind) (hc : Boots config c)
    (h : Catalog.checkAddition c.registry id kind records = .ok x) :
    Replies (.add config id name file)
      (.object [("data", .array ((c.registry.insert x).ids.map .text)), ("status", .text "ok")])
  | removed {config id : String} {c : Catalog} (hc : Boots config c)
    (h : Catalog.checkRemoval c.registry id = .ok ()) :
    Replies (.remove config id) (.object [("data", .text id), ("status", .text "ok")])
  | listed {config : String} {c : Catalog} (hc : Boots config c) :
    Replies (.list config)
      (.object [("data", Listing.listToJson c.registry.listings), ("status", .text "ok")])

/-- The line is one of the answers of the command. -/
structure IsReply (command : Command) (line : String) : Prop where
  newline : '\n' ∉ line.toList
  reads : ∃ v, Json.Denotes line.toList v ∧ command.Replies v

/-- The text of an object is an answer if the command may say its members. -/
theorem IsReply.of_object {members : List (String × Json)} (h : ∀ m ∈ members, Printable 126 m.2)
    (hincreasing : Json.Increasing members)
    (hreplies : command.Replies (.object (members.map fun m => (m.1, m.2.nulled.sorted)))) :
    command.IsReply (Json.object members).write where
  newline := by
    rw [Json.write, String.toList_ofList]
    exact Json.newline_not_mem_chars (.object h)
  reads := ⟨_, Json.denotes_write_object h hincreasing, hreplies⟩

theorem isReply_successLine {data v : Json} (h : Printable 126 data) (hv : data.nulled.sorted = v)
    (hreplies : command.Replies (.object [("data", v), ("status", .text "ok")])) :
    command.IsReply (successLine data) := by
  refine .of_object (fun m hm => ?_)
    (Json.increasing_of_keys (show ["data", "status"].Pairwise (· < ·) by decide) rfl) ?_
  · rcases List.mem_pair.mp hm with rfl | rfl
    · exact h
    · exact .text _
  · rw [← hv] at hreplies
    exact hreplies

theorem isReply_answer {config : String} {document : Json} {a : Answer} (hc : Boots config c)
    (h : c.registry.view.answer document = .ok a) :
    (Command.query config).IsReply (successLine a.rowsJson.sorted) := by
  have hrows : Printable 2 a.rowsJson := a.printable_rowsJson
  exact isReply_successLine (Json.printable_sorted a.printable_rowsJson)
    ((Json.sorted_nulled_sorted hrows).trans a.nulled_sorted_rowsJson) (.answered hc h)

theorem isReply_failure {config : String} {document : Json} {f : QueryFailure}
    (hc : Boots config c) (h : c.registry.view.answer document = .error f) :
    (Command.query config).IsReply (failureLine f) := by
  refine .of_object ?_
    (Json.increasing_of_keys (show ["code", "message", "status"].Pairwise (· < ·) by decide) rfl)
    (.refused hc h)
  simp only [List.forall_mem_cons, List.not_mem_nil, false_implies, implies_true, and_true]
  exact ⟨.text _, .text _, .text _⟩

/-- Texts have no members to sort. -/
theorem isReply_texts {texts : List String}
    (h : command.Replies (.object [("data", .array (texts.map .text)), ("status", .text "ok")])) :
    command.IsReply (successLine (.array (texts.map .text))) := by
  refine isReply_successLine (.array fun v hv => ?_) ?_ h
  · obtain ⟨s, -, rfl⟩ := List.mem_map.mp hv
    exact .text s
  · rw [Json.nulled, Json.sorted, Json.nulledItems_eq_map, sortedItems_eq_map, List.map_map,
      List.map_map]
    rfl

/-- Entries have their members in order. -/
theorem isReply_listing {entries : List Listing} (hentries : ∀ l ∈ entries, l.numRows < 2 ^ 64)
    (h : command.Replies
      (.object [("data", Listing.listToJson entries), ("status", .text "ok")])) :
    command.IsReply (successLine (Listing.listToJson entries)) := by
  refine isReply_successLine (.array fun v hv => ?_) ?_ h
  · obtain ⟨l, hl, rfl⟩ := List.mem_map.mp hv
    exact Listing.printable_toJson (hentries l hl)
  · rw [Listing.listToJson, Json.nulled, Json.sorted, Json.nulledItems_eq_map, sortedItems_eq_map,
      List.map_map, List.map_map]
    exact congrArg Json.array (List.map_congr_left fun l _ => l.nulled_sorted_toJson)

/-! ### Traces of commands -/

/-- What a command puts out that answers its caller, and how it ends. -/
inductive Outputs (command : Command) : List Output → Except CommandError Outcome → Prop
  /-- It fails before it opens the catalog. -/
  | nothing (e : CommandError) : Outputs command [] (.error e)
  /-- It fails later. -/
  | failed (entries : List Entry) (e : CommandError) :
    Outputs command (.minimum .error :: entries.map .entry) (.error e)
  /-- It answers at the end. -/
  | answered (entries : List Entry) (line : String) (h : command.IsReply line) :
    Outputs command (.minimum .error :: (entries.map .entry ++ [.line line])) (.ok .answered)

/-- The action writes entries and fails, or writes entries and an answer at last. -/
def Answers (command : Command) (x : Action CommandError Outcome) : Prop :=
  ∀ (os : List Output) (result : Except CommandError Outcome), x.run.Puts os result →
    (∃ (entries : List Entry) (e : CommandError),
      os = entries.map .entry ∧ result = .error e) ∨
    ∃ (entries : List Entry) (line : String),
      os = entries.map .entry ++ [.line line] ∧ result = .ok .answered ∧ command.IsReply line

theorem answers_reply {line : String} (h : command.IsReply line) :
    command.Answers (do Program.reply line; return .answered) := by
  intro os result hputs
  obtain ⟨_, os₁, os₂, hline, hreturn, rfl⟩ := Action.puts_lift_bind hputs
  obtain ⟨rfl, rfl⟩ := Program.puts_pure hreturn
  obtain rfl := Program.puts_put hline
  exact .inr ⟨[], line, rfl, rfl, h⟩

theorem answers_bind {α : Type} {x : Action CommandError α} {f : α → Action CommandError Outcome}
    (hx : x.run.Logs) (hf : ∀ a os, x.run.Puts os (.ok a) → command.Answers (f a)) :
    command.Answers (x >>= f) := by
  intro os result h
  rcases Action.puts_bind h with ⟨a, os₁, os₂, hfirst, hsecond, rfl⟩ | ⟨e, hfirst, rfl⟩
  · obtain ⟨entries, rfl⟩ := hx _ _ hfirst
    rcases hf a _ hfirst os₂ result hsecond with ⟨rest, e, rfl, rfl⟩ | ⟨rest, line, rfl, rfl, hline⟩
    · exact .inl ⟨entries ++ rest, e, List.map_append.symm, rfl⟩
    · refine .inr ⟨entries ++ rest, line, ?_, rfl, hline⟩
      rw [List.map_append, List.append_assoc]
  · obtain ⟨entries, rfl⟩ := hx _ _ hfirst
    exact .inl ⟨entries, e, rfl, rfl⟩

theorem numRows_lt_of_openCatalog {config : Config}
    (h : (openCatalog config).run.Puts os (.ok c)) :
    ∀ l ∈ c.registry.listings, l.numRows < 2 ^ 64 := by
  obtain ⟨_, _, os₁, -, h, -⟩ := Action.puts_lift_bind h
  obtain ⟨_, _, os₂, -, h, -⟩ := Action.puts_lift_bind h
  rcases Action.puts_bind h with ⟨c', os₃, os₄, hopen, hreport, -⟩ | ⟨_, -, he⟩
  · obtain ⟨_, _, os₅, -, hreturn, -⟩ := Action.puts_lift_bind hreport
    cases (Program.puts_pure hreturn).1
    exact Catalog.numRows_lt_of_openAt ((Action.puts_orFail hopen).ends (.blank .error))
  · cases he

theorem numRows_lt_of_boots {path : String} (h : Boots path c) :
    ∀ l ∈ c.registry.listings, l.numRows < 2 ^ 64 := by
  obtain ⟨config, os, h⟩ := h
  rcases Action.puts_bind h with ⟨⟨config', level⟩, _, _, -, hrest, -⟩ | ⟨_, -, he⟩
  · obtain ⟨_, _, _, -, hopening, -⟩ := Action.puts_lift_bind hrest
    rcases Action.puts_bind hopening with ⟨c', _, _, hopen, hreturn, -⟩ | ⟨_, -, he⟩
    · cases (Program.puts_pure hreturn).1
      exact numRows_lt_of_openCatalog hopen
    · cases he
  · cases he

/-- A quiet start puts out nothing if the configuration cannot be read, and else only entries after
all below errors are dropped. -/
theorem puts_boot {path : String} {result : Except CommandError (Config × Catalog)}
    (h : (boot path true).run.Puts os result) :
    (os = [] ∧ ∃ e, result = .error e) ∨
      ∃ entries : List Entry, os = .minimum .error :: entries.map .entry := by
  rcases Action.puts_bind h with ⟨⟨config, level⟩, os₁, os₂, hload, hrest, rfl⟩ | ⟨e, hload, rfl⟩
  · obtain rfl := (Config.quiet_load _).eq_nil hload
    obtain ⟨_, os₁, os₃, hminimum, hopening, rfl⟩ := Action.puts_lift_bind hrest
    obtain rfl := Program.puts_put hminimum
    have hlogs := Action.logs_bind (logs_openCatalog config) fun c =>
      Program.logs_pure (Except.ok (config, c) : Except CommandError _)
    obtain ⟨entries, rfl⟩ := hlogs _ _ hopening
    exact .inr ⟨entries, rfl⟩
  · exact .inl ⟨(Config.quiet_load _).eq_nil hload, e, rfl⟩

/-- After a quiet start, only errors are written. -/
theorem outputs_of_boot {path : String} {f : Config × Catalog → Action CommandError Outcome}
    (hf : ∀ config c, Boots path c → command.Answers (f (config, c)))
    (h : (boot path true >>= f).run.Puts os result) : command.Outputs os result := by
  rcases Action.puts_bind h with ⟨⟨config, c⟩, os₁, os₂, hboot, hrest, rfl⟩ | ⟨e, hboot, rfl⟩
  · have hboots : Boots path c := ⟨config, os₁, hboot⟩
    rcases puts_boot hboot with ⟨-, e, he⟩ | ⟨entries, rfl⟩
    · cases he
    · rcases hf config c hboots os₂ result hrest with
        ⟨rest, e, rfl, rfl⟩ | ⟨rest, line, rfl, rfl, hline⟩
      · rw [List.cons_append, ← List.map_append]
        exact .failed _ e
      · rw [List.cons_append, ← List.append_assoc, ← List.map_append]
        exact .answered _ line hline
  · rcases puts_boot hboot with ⟨rfl, -⟩ | ⟨entries, rfl⟩
    · exact .nothing e
    · exact .failed entries e

theorem outputs_runQuery {config : String} (h : (runQuery config).run.Puts os result) :
    (Command.query config).Outputs os result := by
  refine outputs_of_boot (fun _ c hc => ?_) h
  refine answers_bind quiet_readRequest.logs fun document _ _ =>
    answers_bind (Action.logs_lift (c.logs_query document)) fun (result, after) os hquery => ?_
  rcases result with f | a
  · exact answers_reply (isReply_failure hc (eq_answer_of_puts hquery))
  · exact answers_reply (isReply_answer hc (eq_answer_of_puts hquery))

theorem outputs_runAdd {config id name file : String}
    (h : (runAdd config id name file).run.Puts os result) :
    (Command.add config id name file).Outputs os result := by
  unfold runAdd at h
  split at h
  · obtain ⟨rfl, rfl⟩ := Program.puts_pure h
    exact .nothing _
  · rename_i kind hkind
    -- the records are read before the catalog is opened
    have hquiet := quiet_readRecords kind ⟨file⟩
    rcases Action.puts_bind h with ⟨records, os₁, os₂, hread, hrest, rfl⟩ | ⟨e, hread, rfl⟩
    · obtain rfl := hquiet.eq_nil hread
      refine outputs_of_boot (fun _ c hc => ?_) hrest
      refine answers_bind (Action.logs_orFail (c.logs_add id kind records).map)
        fun ids os hadd => ?_
      obtain ⟨⟨added, after⟩, hadd, rfl⟩ := Program.puts_map (Action.puts_orFail hadd)
      rcases Catalog.ends_add (hadd.ends (.blank .error)) with
        ⟨_, he, -⟩ | ⟨x, _, hcheck, hids, rfl, -⟩
      · cases he
      · cases hids
        exact answers_reply (isReply_texts (.added hkind hc hcheck))
    · obtain rfl := hquiet.eq_nil hread
      exact .nothing e

theorem outputs_runRemove {config id : String} (h : (runRemove config id).run.Puts os result) :
    (Command.remove config id).Outputs os result := by
  refine outputs_of_boot (fun _ c hc => ?_) h
  refine answers_bind (Action.logs_orFail (c.logs_remove id).map) fun id' os hremove => ?_
  obtain ⟨⟨removed, after⟩, hremove, rfl⟩ := Program.puts_map (Action.puts_orFail hremove)
  obtain ⟨_, ⟨_, he, -⟩ | ⟨hcheck, hid, -⟩⟩ := Catalog.ends_remove (hremove.ends (.blank .error))
  · cases he
  · cases hid
    exact answers_reply (isReply_successLine (.text id) rfl (.removed hc hcheck))

theorem outputs_runList {config : String} (h : (runList config).run.Puts os result) :
    (Command.list config).Outputs os result :=
  outputs_of_boot (fun _ _ hc =>
    answers_reply (isReply_listing (numRows_lt_of_boots hc) (.listed hc))) h

/-- **The trace of a command** that is not the one to serve. -/
theorem outputs_run (hserve : ∀ config, command ≠ .serve config)
    (h : command.run.run.Puts os result) : command.Outputs os result := by
  cases command with
  | serve config => exact absurd rfl (hserve config)
  | query config => exact outputs_runQuery h
  | add config id kind file => exact outputs_runAdd h
  | remove config id => exact outputs_runRemove h
  | list config => exact outputs_runList h

/-! ### Channels -/

/-- What a run of a command leaves on the two channels. -/
structure Clean (command : Command) (result : Except CommandError Outcome) (os : List Output)
    (w w' : World) : Prop where
  /-- A command that fails leaves the channel for callers as it is. -/
  failed : ∀ e, result = .error e → w'.out = w.out
  /-- Any other puts one line there, its answer. -/
  answered : ∀ outcome, result = .ok outcome →
    ∃ line, w'.out = w.out ++ [line] ∧ command.IsReply line
  /-- Of the entries, those about errors are written on the channel for errors. -/
  errors : w'.err = w.err ++
    ((os.filterMap Output.entry?).filter (·.severity.reaches .error)).map Entry.text

/-- **Commands that answer keep the channel for callers clean.**  Whatever the configuration, the
files, the arguments and the request are, and wherever accesses fail: a command that fails leaves
nothing there, and any other exactly one line, which is a document with its answer.  Of the entries
for the journal those about errors go to the channel for errors, and no other is written. -/
theorem run_clean (hserve : ∀ config, command ≠ .serve config)
    (h : command.run.run.Ends w result w') :
    ∃ os, command.run.run.Puts os result ∧ command.Clean result os w w' := by
  obtain ⟨os, hputs, hjournal⟩ := Program.exists_puts h
  refine ⟨os, hputs, ?_⟩
  simp only [World.journal, Prod.mk.injEq] at hjournal
  obtain ⟨-, hout, herr⟩ := hjournal
  cases outputs_run hserve hputs with
  | nothing e =>
    refine ⟨fun _ _ => hout, ?_, ?_⟩
    · rintro _ ⟨⟩
    · rw [herr]
      exact (List.append_nil _).symm
  | failed entries e =>
    have hentries : (Output.minimum .error :: entries.map .entry).filterMap Output.entry? =
        entries := Output.filterMap_entry? entries
    rw [World.foldl_put_quiet] at hout herr
    refine ⟨fun _ _ => hout, ?_, ?_⟩
    · rintro _ ⟨⟩
    · rw [herr, hentries]
  | answered entries line hline =>
    have hentries : (Output.minimum .error :: (entries.map .entry ++ [.line line])).filterMap
        Output.entry? = entries := by
      show (entries.map Output.entry ++ [Output.line line]).filterMap Output.entry? = entries
      rw [List.filterMap_append, Output.filterMap_entry?]
      exact List.append_nil entries
    rw [← List.cons_append, List.foldl_append, World.foldl_put_quiet] at hout herr
    refine ⟨?_, fun _ _ => ⟨line, hout, hline⟩, ?_⟩
    · rintro _ ⟨⟩
    · rw [herr, hentries]
      rfl

end Commands

section Sample

attribute [local instance] FloatReader.nearest

/-- A world with a configuration, one dataset, and files beside it that no dataset is stored in. -/
def sampleWorld : World := { World.blank .trace with files := Catalog.sampleOrphans }

/-- The configuration of this world. -/
def sampleConfig : Config := ⟨"data", .initial, "INFO"⟩

theorem load_sampleWorld : (Config.load ⟨"campus.json"⟩).runIn Catalog.sampleRefusals sampleWorld =
    (.ok (sampleConfig, .info), sampleWorld) := by
  have hread : Catalog.sampleRefusals.read sampleWorld.files ⟨"campus.json"⟩ =
      .ok (Json.object [("data_dir", .text "data")]).write.toUTF8 := by
    exact FileTree.read_eq_ok_iff.mpr ⟨["campus.json"], by decide +kernel, rfl, by decide +kernel⟩
  have hdecode : Program.decodeText (Json.object [("data_dir", .text "data")]).write.toUTF8 =
      .ok (Json.object [("data_dir", .text "data")]).write := by decide +kernel
  have hconfig : Config.ofText (Json.object [("data_dir", .text "data")]).write =
      .ok sampleConfig := by decide +kernel
  have hrun : (Program.readsText ⟨"campus.json"⟩).runIn Catalog.sampleRefusals sampleWorld =
      (.ok (Json.object [("data_dir", .text "data")]).write, sampleWorld) := by
    show ((Catalog.sampleRefusals.read sampleWorld.files ⟨"campus.json"⟩).bind Program.decodeText,
      sampleWorld) = _
    rw [hread]
    exact congrArg (·, sampleWorld) hdecode
  rw [Config.load, Action.runIn_bind, Action.runIn_orFail, hrun]
  simp only [Except.mapError, hconfig]
  rfl

theorem openCatalog_sampleWorld (hfiles : w.files = Catalog.sampleOrphans) :
    ∃ w', (openCatalog sampleConfig).runIn Catalog.sampleRefusals w =
      (.ok Catalog.sampleOrphansCatalog, w') := by
  have hreported : ((w.log (Journal.Event.bootStart.entry [])).log
      (Journal.Event.configLoaded.entry [("data_dir", "data")])).files = Catalog.sampleOrphans := by
    rw [World.files_log, World.files_log, hfiles]
  obtain ⟨w', h⟩ := Catalog.sampleOrphans_opens hreported
  have hopen : (Action.orFail CommandError.notOpened
      (Catalog.openAt Session.sampleDirectory).run).runIn Catalog.sampleRefusals _ = (_, w') :=
    (Action.runIn_orFail _ _).trans (by rw [← Action.runIn, h])
  rw [openCatalog, Action.runIn_lift_bind, Action.runIn_lift_bind]
  exact ⟨_, Action.runIn_bind_eq_ok_iff.mpr ⟨_, _, hopen, rfl⟩⟩

theorem boot_sampleWorld : ∃ w',
    (boot "campus.json" true).runIn Catalog.sampleRefusals sampleWorld =
      (.ok (sampleConfig, Catalog.sampleOrphansCatalog), w') := by
  obtain ⟨w', h⟩ := openCatalog_sampleWorld (w := sampleWorld.put (.minimum .error)) rfl
  simp only [boot, Action.runIn_bind_eq_ok_iff, Action.runIn_lift_bind]
  exact ⟨w', _, _, load_sampleWorld, _, _, h, rfl⟩

/-- One of the other files cannot be removed, and the command answers all the same. -/
theorem ends_sampleWorld : ∃ middle : World,
    (list "campus.json").run.run.Ends sampleWorld (.ok .answered)
      (middle.put (.line (successLine (Listing.listToJson [⟨"rooms", .rooms, 1⟩])))) := by
  obtain ⟨w', h⟩ := boot_sampleWorld
  have hlistings : Catalog.sampleOrphansCatalog.registry.listings = [⟨"rooms", .rooms, 1⟩] := by
    decide +kernel
  have hrun : (list "campus.json").run.run.runIn Catalog.sampleRefusals sampleWorld =
      (.ok .answered,
        w'.put (.line (successLine (Listing.listToJson [⟨"rooms", .rooms, 1⟩])))) := by
    refine Action.runIn_bind_eq_ok_iff.mpr ⟨_, _, h, ?_⟩
    rw [← hlistings]
    rfl
  refine ⟨w', ?_⟩
  have hend : (list "campus.json").run.run.Ends sampleWorld
      ((list "campus.json").run.run.runIn Catalog.sampleRefusals sampleWorld).1 _ :=
    Program.ends_runIn _ _
  rwa [hrun] at hend

theorem run_clean_sample : ∃ w' os,
    (list "campus.json").run.run.Ends sampleWorld (.ok .answered) w' ∧
      w'.out = [successLine (Listing.listToJson [⟨"rooms", .rooms, 1⟩])] ∧
      (list "campus.json").run.run.Puts os (.ok .answered) ∧
      (list "campus.json").Clean (.ok .answered) os sampleWorld w' := by
  obtain ⟨middle, hend⟩ := ends_sampleWorld
  obtain ⟨os, hputs, hclean⟩ := run_clean (fun _ he => by cases he) hend
  refine ⟨_, os, hend, ?_, hputs, hclean⟩
  -- there is one line, so it is the last
  obtain ⟨line, hout, -⟩ := hclean.answered _ rfl
  have hline : middle.out ++ [_] = [] ++ [line] := hout
  obtain ⟨hnil, -⟩ := List.append_inj' hline rfl
  show middle.out ++ [_] = _
  rw [hnil]
  rfl

end Sample

end Command

end CampusQuery
