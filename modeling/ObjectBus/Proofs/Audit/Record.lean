import ObjectBus.Audit.Record
import ObjectBus.Proofs.Json.Reading
import ObjectBus.Proofs.Json.Written
import ObjectBus.Proofs.SortedMap

/-!
# Audit records are read back

A record whose fields are texts, integers and truth values stands on one line, and is read back from
it as it was: columns that were left out are missing again, and no text in it ends the line.

* `Json.Tree.placeMembers_optional`: a column is found whether or not it was written;
* `AuditRecord.HasPlainFields`: the records that this is about;
* `AuditRecord.tree?_toJson`, `AuditRecord.fields?_members`: what is written of a record, and how
  its columns are told from that;
* `AuditRecord.ofLine?_line`: a record is read back;
* `AuditRecord.ofLine?_append_return`, `AuditRecord.lineFeed_not_mem_line`: where its line ends.
-/

namespace ObjectBus

namespace Json.Tree

section Place

variable {names : List String} {places : List (Option Tree)} {key : String}

/-- A field of a record is put into its place. -/
theorem placeMembers_cons (hname : key ∈ names) (hfree : places[names.idxOf key]? = some none)
    (t : Tree) (rest : List (Option String × Tree)) :
    placeMembers names places ((some key, t) :: rest) =
      placeMembers names (places.set (names.idxOf key) (some t)) rest := by
  simp [placeMembers, List.idxOf_lt_length_of_mem hname, hfree]

/-- So is a field that may be missing. -/
theorem placeMembers_optional (hname : key ∈ names) (hfree : places[names.idxOf key]? = some none)
    (t : Option Tree) (rest : List (Option String × Tree)) :
    placeMembers names places ((t.map fun t => (some key, t)).toList ++ rest) =
      placeMembers names (places.set (names.idxOf key) t) rest := by
  cases t with
  | none =>
    obtain ⟨hlt, hnone⟩ := List.getElem?_eq_some_iff.1 hfree
    have hset := List.set_getElem_self hlt
    rw [hnone] at hset
    rw [hset]
    rfl
  | some t => exact placeMembers_cons hname hfree t rest

end Place

theorem uint64?_natural (n : UInt64) :
    uint64? (.number (.ofInteger false n.toNat)) = some n := by
  have hlt := n.toNat_lt
  have hbounds : (0 : Int) ≤ n.toNat ∧ (n.toNat : Int) ≤ (UInt64.size : Int) - 1 := by
    simp only [UInt64.size]
    omega
  simp only [uint64?, integerIn?, integer?, Numeral.toInt?_ofInteger, Option.bind_some,
    if_pos hbounds, Option.map_some, Int.toNat_natCast, UInt64.ofNat_toNat]

end Json.Tree

namespace AuditRecord

variable {r : AuditRecord}

open Json (Tree)

/-- Whether all fields without a column are texts, integers and truth values. -/
def HasPlainFields (r : AuditRecord) : Prop := ∀ m ∈ r.fields.toList, m.2.IsPlain

instance : DecidablePred HasPlainFields := fun r => by
  unfold HasPlainFields
  infer_instance

/-- The names under which the parts of a record are written. -/
def columnNames : List String :=
  ["ts", "level", "broker", "target", "msg", "peer", "group", "fields"]

/-- What is written of the parts of a record, of which the last three may be missing. -/
def columns (r : AuditRecord) (peer group fields : Option Tree) : List (Option Tree) :=
  [some (.string (some r.time)), some (.string (some r.level)), some (.string (some r.broker)),
    some (.string (some r.target)), some (.string (some r.message)), peer, group, fields]

/-- The tree of the column for the peer. -/
def peerTree (r : AuditRecord) : Option Tree :=
  r.peer.map fun n => .number (.ofInteger false n.toNat)

/-- The tree of the column for the group. -/
def groupTree (r : AuditRecord) : Option Tree := r.group.map fun s => .string (some s)

/-- The tree of the column for the fields, whose members are told. -/
def fieldsTree (r : AuditRecord) (members : List (Option String × Tree)) : Option Tree :=
  if r.fields.isEmpty then none else some (.object members)

/-- The members of the object that a record is written as. -/
def members (r : AuditRecord) (fields : List (Option String × Tree)) :
    List (Option String × Tree) :=
  [(some "ts", .string (some r.time)), (some "level", .string (some r.level)),
    (some "broker", .string (some r.broker)), (some "target", .string (some r.target)),
    (some "msg", .string (some r.message))] ++
    (r.peerTree.map fun t => (some "peer", t)).toList ++
    (r.groupTree.map fun t => (some "group", t)).toList ++
    ((r.fieldsTree fields).map fun t => (some "fields", t)).toList

theorem tree?_toJson {fields : List (Option String × Tree)}
    (h : Json.pairs? r.fields.toList = some fields) :
    r.toJson.tree? = some (.object (r.members fields)) := by
  have hpeer : Json.pairs? (r.peer.map fun n => ("peer", Json.ofUInt64 n)).toList =
      some (r.peerTree.map fun t => (some "peer", t)).toList := by
    rw [peerTree]
    cases r.peer <;> rfl
  have hgroup : Json.pairs? (r.group.map fun s => ("group", Json.string s)).toList =
      some (r.groupTree.map fun t => (some "group", t)).toList := by
    rw [groupTree]
    cases r.group <;> rfl
  have hfields : Json.pairs? (if r.fields.isEmpty then []
      else [("fields", .object r.fields.toList)]) =
      some ((r.fieldsTree fields).map fun t => (some "fields", t)).toList := by
    rw [fieldsTree]
    split
    · rfl
    · simp [Json.pairs?, Json.tree?, h]
  -- The five columns that are always there come first.
  exact congrArg (Option.map Tree.object) (Json.pairs?_append_eq_some
    (Json.pairs?_append_eq_some (Json.pairs?_append_eq_some rfl hpeer) hgroup) hfields)

/-- From the object that a record is written as its columns are told, also those left out. -/
theorem fields?_members (fields : List (Option String × Tree)) :
    Tree.fields? columnNames (.object (r.members fields)) =
      some (r.columns r.peerTree r.groupTree (r.fieldsTree fields)) := by
  rw [Tree.fields?, members, List.append_assoc, List.append_assoc,
    ← List.append_nil ((r.fieldsTree fields).map _).toList]
  simp only [List.cons_append, List.nil_append]
  -- The five columns that are always there come first.
  iterate 5 rw [Tree.placeMembers_cons (by decide) rfl]
  iterate 3 rw [Tree.placeMembers_optional (by decide) rfl]
  rfl

theorem optional_peerTree : Tree.optional (column? Tree.uint64?) none r.peerTree = some r.peer := by
  rw [peerTree]
  cases r.peer with
  | none => rfl
  | some n =>
    simp only [Option.map_some, Tree.optional, column?, Tree.isNull, Tree.uint64?_natural]
    rfl

theorem optional_groupTree :
    Tree.optional (column? Tree.text?) none r.groupTree = some r.group := by
  rw [groupTree]
  cases r.group <;> rfl

theorem optional_fieldsTree {fields : List (Option String × Tree)}
    (h : Json.ofPairs? (Tree.depthLimit - 2) fields = some r.fields.toList) :
    Tree.optional fieldsOfTree? .empty (r.fieldsTree fields) = some r.fields := by
  rw [fieldsTree]
  split
  · rename_i hempty
    -- Fields that were left out are none.
    have hnone : r.fields = .empty := by
      rw [← SortedMap.ofList_toList r.fields, List.isEmpty_iff.1 hempty]
      rfl
    rw [hnone]
    rfl
  · simp [Tree.optional, fieldsOfTree?, h, SortedMap.ofList_toList]

/-- **A record is read back** from its line. -/
theorem ofLine?_line (h : r.HasPlainFields) : ofLine? r.line = some r := by
  obtain ⟨fields, htrees, hback⟩ := Json.exists_pairs_of_isPlain h (Tree.depthLimit - 2)
  have hcolumns := fields?_members (r := r) fields
  rw [columnNames] at hcolumns
  rw [ofLine?, line, Json.ofText?_text (tree?_toJson htrees), Option.bind_some, ofTree?, hcolumns]
  simp only [columns, Option.bind_eq_bind, Option.bind_some, optional_peerTree, optional_groupTree,
    optional_fieldsTree hback]
  rfl

/-- A carriage return at the end of a line does not matter. -/
theorem ofLine?_append_return (s : String) : ofLine? (s ++ "\r") = ofLine? s := by
  rw [ofLine?, ofLine?, Tree.ofText?_append_return]

/-- A record stands on one line. -/
theorem lineFeed_not_mem_line (h : r.HasPlainFields) : '\n' ∉ r.line.toList := by
  obtain ⟨fields, htrees, -⟩ := Json.exists_pairs_of_isPlain h (Tree.depthLimit - 2)
  rw [line, Json.text, String.toList_ofList]
  exact fun hmem =>
    absurd (Json.le_toNat_of_mem_compact (tree?_toJson htrees) hmem) (by decide)

end AuditRecord

end ObjectBus
