import Mathlib.Data.List.DropRight
import ObjectBus.Cache.Container
import ObjectBus.Proofs.Schema.Conformance

/-!
# Containers after any calls

A container is used through two calls, one that writes an object and one that takes it out.
The statements here say what one call does to the entry of each key, and what any sequence of
calls leaves behind:

* `find?_perform`: a call changes nothing but the entry of its own key;
* `CacheCall.standing`: the writes to a key that no later removal has undone;
* `Entry.IsMergeOf`: an entry described by the writes that it was merged from, without the order
  of computation of the container;
* `entries_merge_standing_writes`: whatever the calls were, the entry of a key is the merge of
  its standing writes, and there is none exactly when no write stands.
-/

namespace ObjectBus

/-! ## Calls -/

/-- One call on a container. -/
structure CacheCall where
  /-- Whether the object is to be taken out, and not to be written. -/
  removal : Bool
  /-- The header of the object. -/
  header : Header
  /-- The object. -/
  object : Object
  /-- When the call is made. -/
  now : Instant

namespace CacheCall

/-- Whether the object of a call has the given key. -/
def concerns (schema : StructSchema) (key : ObjectKey) (call : CacheCall) : Bool :=
  match schema.keyOf call.object with
  | .ok k => k = key
  | .error _ => false

/-- Whether a call writes to the given key. -/
def inserts (schema : StructSchema) (key : ObjectKey) (call : CacheCall) : Bool :=
  !call.removal && call.concerns schema key

/-- Whether a call takes out the object of the given key. -/
def removes (schema : StructSchema) (key : ObjectKey) (call : CacheCall) : Bool :=
  call.removal && call.concerns schema key

/-- The writes to a key after its last removal, in order. -/
def standing (schema : StructSchema) (key : ObjectKey) (calls : List CacheCall) :
    List CacheCall :=
  (calls.rtakeWhile fun call => !call.removes schema key).filter (·.inserts schema key)

/-- What a property holds according to some writes: the state that the latest of those that
include it gives to it. -/
def latestValue (writes : List CacheCall) (tag : Tag) : Option Value :=
  (writes.filter (·.header.attributes.contains tag)).getLast?.bind (·.object.get? tag)

variable {schema : StructSchema} {key key' : ObjectKey} {call : CacheCall} {calls : List CacheCall}

theorem concerns_of_keyOf (h : schema.keyOf call.object = .ok key) :
    call.concerns schema key' = decide (key = key') := by
  simp [concerns, h]

theorem concerns_eq_true_iff : call.concerns schema key = true ↔
    schema.keyOf call.object = .ok key := by
  unfold concerns
  split
  · rename_i k hk
    simp [hk]
  · rename_i e he
    simp [he]

@[simp]
theorem standing_nil : standing schema key [] = [] := by
  simp [standing]

/-- One more call: a removal of the key undoes all writes to it, a write to the key stands, and
any other call changes nothing. -/
theorem standing_concat : standing schema key (calls ++ [call]) =
    if call.removes schema key then []
    else if call.inserts schema key then standing schema key calls ++ [call]
    else standing schema key calls := by
  unfold standing
  rw [List.rtakeWhile_concat]
  by_cases hremoves : call.removes schema key = true
  · simp [hremoves]
  · by_cases hinserts : call.inserts schema key = true <;> simp [hremoves, hinserts]

/-- The last element of a list that is cut in two before some element is that element, or the
last of those behind it. -/
private theorem concat_eq_append_cons {α : Type} {l l₁ l₂ : List α} {a b : α}
    (h : l ++ [a] = l₁ ++ b :: l₂) :
    l₂ = [] ∧ l = l₁ ∧ a = b ∨ ∃ l₃, l₂ = l₃ ++ [a] ∧ l = l₁ ++ b :: l₃ := by
  rcases List.eq_nil_or_concat l₂ with rfl | ⟨l₃, c, rfl⟩
  · obtain ⟨hl, ha⟩ := List.append_inj' h rfl
    exact .inl ⟨rfl, hl, List.cons.inj ha |>.1⟩
  · rw [List.concat_eq_append, ← List.cons_append, ← List.append_assoc] at h
    obtain ⟨hl, ha⟩ := List.append_inj' h rfl
    refine .inr ⟨l₃, ?_, hl⟩
    rw [List.concat_eq_append, ha]

/-- Some write to a key stands exactly when a write to it came after its last removal. -/
theorem standing_ne_nil_iff : standing schema key calls ≠ [] ↔
    ∃ earlier write later, calls = earlier ++ write :: later ∧
      write.inserts schema key = true ∧ ∀ call ∈ later, call.removes schema key = false := by
  induction calls using List.reverseRecOn with
  | nil => simp
  | append_singleton calls call ih =>
    constructor
    · -- A write that stands is the last call, or stood before it if it is no removal.
      intro hne
      rw [standing_concat] at hne
      split at hne
      · exact absurd rfl hne
      · rename_i hremoves
        split at hne
        · rename_i hinserts
          exact ⟨calls, call, [], rfl, hinserts, by simp⟩
        · obtain ⟨earlier, write, later, rfl, hwrite, hlater⟩ := ih.1 hne
          refine ⟨earlier, write, later ++ [call], by simp, hwrite, fun x hx => ?_⟩
          rcases List.mem_append.1 hx with hx | hx
          · exact hlater x hx
          · rw [List.mem_singleton.1 hx]
            exact Bool.eq_false_iff.2 hremoves
    · rintro ⟨earlier, write, later, heq, hwrite, hlater⟩
      rw [standing_concat]
      rcases concat_eq_append_cons heq with ⟨rfl, rfl, rfl⟩ | ⟨later, rfl, rfl⟩
      · -- The last call is the write itself, so it is no removal.
        have hkind : call.removes schema key = false := by
          have := (Bool.and_eq_true _ _ ▸ hwrite).1
          simpa [removes] using fun h => absurd h (by simpa using this)
        simp [hkind, hwrite]
      · have hkind := hlater call (by simp)
        have hne := ih.2 ⟨earlier, write, later, rfl, hwrite, fun x hx => hlater x (by simp [hx])⟩
        rw [hkind]
        split
        · contradiction
        · split
          · simp
          · exact hne

@[simp]
theorem latestValue_nil (tag : Tag) : latestValue [] tag = none := rfl

/-- The latest write decides about the properties that it includes, and the earlier ones about
all others. -/
theorem latestValue_concat (writes : List CacheCall) (tag : Tag) :
    latestValue (writes ++ [call]) tag =
      if call.header.attributes.contains tag then call.object.get? tag
      else latestValue writes tag := by
  unfold latestValue
  by_cases h : call.header.attributes.contains tag = true <;> simp [h]

end CacheCall

/-! ## One call -/

namespace Container

variable {schema : StructSchema} {c : Container} {key key' : ObjectKey} {call : CacheCall}

/-- Make a call: the container that is left behind and the entry that is given back. A call
that fails leaves the container as it was. -/
def perform (c : Container) (call : CacheCall) : Container × Outcome (Option Entry) :=
  if call.removal then
    match c.remove call.header call.object call.now with
    | .ok (c', entry) => (c', .ok entry)
    | .error e => (c, .error e)
  else
    match c.insert call.header call.object call.now with
    | .ok (c', entry) => (c', .ok (some entry))
    | .error e => (c, .error e)

/-- The container after some calls. -/
def after (c : Container) (calls : List CacheCall) : Container :=
  calls.foldl (fun c call => (c.perform call).1) c

/-- The entry that a write to its key leaves behind. -/
def afterWrite (c : Container) (call : CacheCall) : Option Entry → Entry
  | none => c.createdEntry call.header call.object call.now
  | some e => c.writtenEntry e .update call.header call.object call.now

@[simp]
theorem find?_empty (schema : StructSchema) (key : ObjectKey) :
    (empty schema).find? key = none := rfl

/-- A call for an object without key fails with the error of its key and changes nothing. -/
theorem perform_of_keyOf_error {e : BrokerError}
    (h : c.schema.keyOf call.object = .error e) : c.perform call = (c, .error e) := by
  unfold perform
  split
  · simp [remove, h]
  · simp [insert, h]

/-- A write changes the entry of its key and gives it back. -/
theorem perform_write (hkind : call.removal = false)
    (hkey : c.schema.keyOf call.object = .ok key) :
    c.perform call =
      ({ c with entries := c.entries.insert key (c.afterWrite call (c.find? key)) },
        .ok (some (c.afterWrite call (c.find? key)))) := by
  unfold perform
  simp only [hkind, Bool.false_eq_true, if_false, insert, hkey]
  cases c.find? key <;> rfl

/-- A removal of what is not there changes nothing and gives nothing back. -/
theorem perform_removal_of_none (hkind : call.removal = true)
    (hkey : c.schema.keyOf call.object = .ok key) (hfind : c.find? key = none) :
    c.perform call = (c, .ok none) := by
  unfold perform
  simp [hkind, remove, hkey, hfind]

/-- A removal takes the entry of its key out and gives it back as it was written last. -/
theorem perform_removal_of_some {e : Entry} (hkind : call.removal = true)
    (hkey : c.schema.keyOf call.object = .ok key) (hfind : c.find? key = some e) :
    c.perform call = ({ c with entries := c.entries.erase key },
      .ok (some (c.writtenEntry e .remove call.header call.object call.now))) := by
  unfold perform
  simp [hkind, remove, hkey, hfind]

/-- A call that fails leaves the container as it was. -/
theorem perform_of_error {e : BrokerError} (h : (c.perform call).2 = .error e) :
    (c.perform call).1 = c := by
  cases hkey : c.schema.keyOf call.object with
  | error e' => rw [perform_of_keyOf_error hkey]
  | ok key =>
    cases hkind : call.removal with
    | false =>
      rw [perform_write hkind hkey] at h
      cases h
    | true =>
      cases hfind : c.find? key with
      | none => rw [perform_removal_of_none hkind hkey hfind]
      | some e' =>
        rw [perform_removal_of_some hkind hkey hfind] at h
        cases h

/-- No call changes the type of a container. -/
@[simp]
theorem schema_perform (c : Container) (call : CacheCall) :
    (c.perform call).1.schema = c.schema := by
  cases hkey : c.schema.keyOf call.object with
  | error e => rw [perform_of_keyOf_error hkey]
  | ok key =>
    cases hkind : call.removal with
    | false => rw [perform_write hkind hkey]
    | true =>
      cases hfind : c.find? key with
      | none => rw [perform_removal_of_none hkind hkey hfind]
      | some e => rw [perform_removal_of_some hkind hkey hfind]

/-- What a call does to the entry of each key: a removal takes the one of its key away, a write
creates or updates the one of its key, and all others stay. -/
theorem find?_perform (c : Container) (call : CacheCall) (key : ObjectKey) :
    (c.perform call).1.find? key =
      if call.removes c.schema key then none
      else if call.inserts c.schema key then some (c.afterWrite call (c.find? key))
      else c.find? key := by
  cases hcall : c.schema.keyOf call.object with
  | error e =>
    have hconcerns : call.concerns c.schema key = false := by simp [CacheCall.concerns, hcall]
    simp [perform_of_keyOf_error hcall, CacheCall.removes, CacheCall.inserts, hconcerns]
  | ok key' =>
    have hconcerns : call.concerns c.schema key = decide (key' = key) :=
      CacheCall.concerns_of_keyOf hcall
    simp only [CacheCall.removes, CacheCall.inserts, hconcerns]
    by_cases hsame : key' = key
    · subst hsame
      cases hkind : call.removal with
      | false =>
        rw [perform_write hkind hcall]
        simp [find?]
      | true =>
        cases hfind : c.find? key' with
        | none => rw [perform_removal_of_none hkind hcall hfind, hfind]; simp
        | some e =>
          rw [perform_removal_of_some hkind hcall hfind]
          simp [find?]
    · -- A call for another key leaves this one alone.
      have hne : key ≠ key' := Ne.symm hsame
      simp only [hsame, decide_false, Bool.and_false, Bool.false_eq_true, if_false]
      cases hkind : call.removal with
      | false =>
        rw [perform_write hkind hcall]
        simp [find?, hne]
      | true =>
        cases hfind : c.find? key' with
        | none => rw [perform_removal_of_none hkind hcall hfind]
        | some e =>
          rw [perform_removal_of_some hkind hcall hfind]
          simp [find?, hne]

@[simp]
theorem after_nil (c : Container) : c.after [] = c := rfl

theorem after_concat (c : Container) (calls : List CacheCall) (call : CacheCall) :
    c.after (calls ++ [call]) = ((c.after calls).perform call).1 := by
  simp [after, List.foldl_append]

@[simp]
theorem schema_after (c : Container) (calls : List CacheCall) :
    (c.after calls).schema = c.schema := by
  induction calls using List.reverseRecOn with
  | nil => rfl
  | append_singleton calls call ih => rw [after_concat, schema_perform, ih]

end Container

/-! ## What any calls leave behind -/

/-- An entry is the merge of some writes to one key: the first created it, and each property is
as the latest write that includes it left it, except that those of the key are as created. -/
structure Entry.IsMergeOf (schema : StructSchema) (writes : List CacheCall)
    (first last : CacheCall) (e : Entry) : Prop where
  /-- The creating write is the first one. -/
  head : writes.head? = some first
  /-- The latest write is the last one. -/
  latest : writes.getLast? = some last
  /-- The type is that of the object that was created. -/
  typeName : e.object.typeName = first.object.typeName
  /-- The key is that of the object that was created. -/
  keyTags : ∀ tag, schema.keyProperties.contains tag = true →
    e.object.get? tag = first.object.get? tag
  /-- Any other property is as the latest write that includes it left it. -/
  otherTags : ∀ tag, PropertySet.InRange tag → schema.keyProperties.contains tag = false →
    e.object.get? tag = CacheCall.latestValue writes tag
  /-- There is nothing under tags that no property can have. -/
  outOfRange : ∀ tag, ¬PropertySet.InRange tag → e.object.get? tag = none
  /-- Who created the object, the host unless the header tells. -/
  createdFrom : e.provenance.createdFrom = first.header.sender.getD hostId
  /-- When the creating write was sent, when it was made unless the header tells. -/
  created : e.provenance.created = first.header.sentTime.getD first.now
  /-- Who wrote last, the host unless the header tells. -/
  lastUpdateFrom : e.provenance.lastUpdateFrom = last.header.sender.getD hostId
  /-- When the last write was sent, when it was made unless the header tells. -/
  modified : e.provenance.modified = last.header.sentTime.getD last.now
  /-- When the last write was made. -/
  localUpdateTime : e.provenance.localUpdateTime = last.now
  /-- The object counts as created as long as there is only the creating write. -/
  lastOperation : e.provenance.lastOperation = if writes.length = 1 then .create else .update

namespace Container

variable {schema : StructSchema} {c : Container} {key : ObjectKey} {call first last : CacheCall}
variable {writes : List CacheCall} {e : Entry}

/-- A created entry is the merge of the write that creates it. -/
theorem isMergeOf_createdEntry (c : Container) (call : CacheCall) :
    (c.createdEntry call.header call.object call.now).IsMergeOf c.schema [call] call call where
  head := rfl
  latest := rfl
  typeName := rfl
  keyTags tag htag := by
    simp [createdEntry, htag]
  otherTags tag _ hkey := by
    rw [← List.nil_append [call], CacheCall.latestValue_concat]
    simp [createdEntry, hkey]
  outOfRange tag hrange := by
    have hnot : (call.header.attributes ∪ c.schema.keyProperties).contains tag = false :=
      Bool.eq_false_iff.2 fun h => hrange (PropertySet.inRange_of_contains h)
    rw [createdEntry, Object.get?_restrict, hnot]
    rfl
  createdFrom := rfl
  created := rfl
  lastUpdateFrom := rfl
  modified := rfl
  localUpdateTime := rfl
  lastOperation := rfl

/-- An updated entry is the merge of the earlier writes and the one that updates it. -/
theorem isMergeOf_writtenEntry (call : CacheCall)
    (h : e.IsMergeOf c.schema writes first last) :
    (c.writtenEntry e .update call.header call.object call.now).IsMergeOf c.schema
      (writes ++ [call]) first call where
  head := by simp [h.head]
  latest := by simp
  typeName := by rw [writtenEntry, Object.typeName_merge, h.typeName]
  keyTags tag htag := by
    simp [writtenEntry, htag, h.keyTags]
  otherTags tag hrange hkey := by
    rw [CacheCall.latestValue_concat, ← h.otherTags tag hrange hkey]
    simp [writtenEntry, hkey]
  outOfRange tag hrange := by
    have hnot : (call.header.attributes \ c.schema.keyProperties).contains tag = false :=
      Bool.eq_false_iff.2 fun h => hrange (PropertySet.inRange_of_contains h)
    simp [writtenEntry, hnot, h.outOfRange tag hrange]
  createdFrom := h.createdFrom
  created := h.created
  lastUpdateFrom := rfl
  modified := rfl
  localUpdateTime := rfl
  lastOperation := by
    have hne : writes ≠ [] := by
      rintro rfl
      simpa using h.head
    simp [writtenEntry, Provenance.next, hne]

/-- The entry of a key after any calls is the merge of its standing writes. -/
theorem isMergeOf_standing (schema : StructSchema) (key : ObjectKey) (calls : List CacheCall) :
    match ((empty schema).after calls).find? key with
    | none => CacheCall.standing schema key calls = []
    | some e => ∃ first last, e.IsMergeOf schema (CacheCall.standing schema key calls) first last
    := by
  induction calls using List.reverseRecOn with
  | nil => simp
  | append_singleton calls call ih =>
    have hschema : ((empty schema).after calls).schema = schema := schema_after _ _
    rw [after_concat, find?_perform, CacheCall.standing_concat, hschema]
    by_cases hremoves : call.removes schema key = true
    · simp [hremoves]
    · by_cases hinserts : call.inserts schema key = true
      · simp only [hremoves, Bool.false_eq_true, if_false, hinserts, if_true]
        split at ih
        · -- No entry: nothing stood, and this write is the first.
          rename_i hfind
          refine ⟨call, call, ?_⟩
          have hmerge := isMergeOf_createdEntry ((empty schema).after calls) call
          rw [hschema] at hmerge
          rw [hfind, ih]
          exact hmerge
        · -- An entry: it merges what stood, and this write comes on top.
          rename_i e hfind
          obtain ⟨first, last, hmerge⟩ := ih
          rw [← hschema] at hmerge
          have hmerge' := isMergeOf_writtenEntry call hmerge
          rw [hschema] at hmerge'
          rw [hfind]
          exact ⟨first, call, hmerge'⟩
      · simpa only [hremoves, hinserts, Bool.false_eq_true, if_false] using ih

/-- What the next call answers when every property of the key is set: a removal gives an entry
back exactly when there is one, and a write gives back the entry that it leaves behind. -/
theorem perform_of_keyOf_ok (hkey : c.schema.keyOf call.object = .ok key) :
    ∃ answer, (c.perform call).2 = .ok answer ∧
      (call.removal = true → (answer = none ↔ c.find? key = none)) ∧
      (call.removal = false → answer ≠ none ∧ answer = (c.perform call).1.find? key) := by
  cases hkind : call.removal with
  | false =>
    rw [perform_write hkind hkey]
    refine ⟨_, rfl, by simp, fun _ => ⟨Option.some_ne_none _, ?_⟩⟩
    simp [find?]
  | true =>
    cases hfind : c.find? key with
    | none =>
      rw [perform_removal_of_none hkind hkey hfind]
      exact ⟨none, rfl, by simp, by simp⟩
    | some e =>
      rw [perform_removal_of_some hkind hkey hfind]
      exact ⟨_, rfl, by simp, by simp⟩

/-- After any calls on a container that was empty, whatever their headers and objects:

* a call whose object lacks a property of the key fails for such a property and changes nothing;
* any other call succeeds, a removal answering with nothing exactly when there was no entry and
  a write with the entry that it leaves behind;
* a key has an entry exactly when some write to it came after its last removal;
* that entry is the merge of the writes to the key since then. -/
theorem entries_merge_standing_writes (schema : StructSchema) (calls : List CacheCall) :
    (∀ call, (∃ tag, schema.keyProperties.contains tag = true ∧ call.object.get? tag = none) →
      ∃ tag, schema.keyProperties.contains tag = true ∧ call.object.get? tag = none ∧
        ((empty schema).after calls).perform call =
          ((empty schema).after calls, .error (.protocol (.missingKey schema.name tag)))) ∧
    (∀ call, (∀ tag, schema.keyProperties.contains tag = true → call.object.get? tag ≠ none) →
      ∃ key answer, schema.keyOf call.object = .ok key ∧
        (((empty schema).after calls).perform call).2 = .ok answer ∧
        (call.removal = true → (answer = none ↔ ((empty schema).after calls).find? key = none)) ∧
        (call.removal = false → answer ≠ none ∧
          answer = (((empty schema).after calls).perform call).1.find? key)) ∧
    ∀ key,
      (((empty schema).after calls).find? key ≠ none ↔
        ∃ earlier write later, calls = earlier ++ write :: later ∧
          write.inserts schema key = true ∧
          ∀ call ∈ later, call.removes schema key = false) ∧
      ∀ e, ((empty schema).after calls).find? key = some e →
        ∃ first last, e.IsMergeOf schema (CacheCall.standing schema key calls) first last := by
  have hschema : ((empty schema).after calls).schema = schema := schema_after _ _
  refine ⟨?_, ?_, fun key => ⟨?_, ?_⟩⟩
  · rintro call ⟨tag, htag, hnone⟩
    cases hkey : schema.keyOf call.object with
    | ok key => exact absurd hnone (StructSchema.exists_keyOf_eq_ok_iff.1 ⟨key, hkey⟩ tag htag)
    | error e =>
      obtain ⟨tag', htag', hnone', rfl⟩ := StructSchema.exists_missing_of_keyOf_eq_error hkey
      refine ⟨tag', htag', hnone', perform_of_keyOf_error ?_⟩
      rw [hschema, hkey]
  · intro call hset
    obtain ⟨key, hkey⟩ := StructSchema.exists_keyOf_eq_ok_iff.2 hset
    obtain ⟨answer, hanswer, hremoval, hwrite⟩ :=
      perform_of_keyOf_ok (c := (empty schema).after calls) (hschema.symm ▸ hkey)
    exact ⟨key, answer, hkey, hanswer, hremoval, hwrite⟩
  · have hmerge := isMergeOf_standing schema key calls
    rw [← CacheCall.standing_ne_nil_iff]
    split at hmerge
    · rename_i hfind
      simp [hfind, hmerge]
    · rename_i e hfind
      obtain ⟨first, last, hmerge⟩ := hmerge
      have hne : CacheCall.standing schema key calls ≠ [] := by
        intro hnil
        simpa [hnil] using hmerge.head
      simp [hfind, hne]
  · intro e he
    have hmerge := isMergeOf_standing schema key calls
    rwa [he] at hmerge

/-! ## Valid containers -/

/-- Every entry conforms to the type and has the key under which it is kept. -/
def Valid (c : Container) : Prop :=
  ∀ key e, c.find? key = some e →
    c.schema.validate e.object = .ok () ∧ c.schema.keyOf e.object = .ok key

theorem valid_empty (schema : StructSchema) : (empty schema).Valid := by
  intro key e he
  rw [find?_empty] at he
  cases he

/-- A write of a conforming object leaves a conforming object with the same key behind. -/
theorem valid_afterWrite (hvalid : c.Valid)
    (hconforms : c.schema.validate call.object = .ok ())
    (hkey : c.schema.keyOf call.object = .ok key) :
    c.schema.validate (c.afterWrite call (c.find? key)).object = .ok () ∧
      c.schema.keyOf (c.afterWrite call (c.find? key)).object = .ok key := by
  cases hfind : c.find? key with
  | none =>
    refine ⟨StructSchema.validate_restrict _ hconforms, StructSchema.keyOf_congr ?_ hkey⟩
    intro tag htag
    simp [afterWrite, createdEntry, htag]
  -- The key is taken from the entry, which a write does not change.
  | some e =>
    obtain ⟨he, hekey⟩ := hvalid key e hfind
    refine ⟨StructSchema.validate_merge _ he hconforms, StructSchema.keyOf_congr ?_ hekey⟩
    intro tag htag
    simp [afterWrite, writtenEntry, htag]

/-- A call with a conforming object keeps a container valid. -/
theorem Valid.perform (hvalid : c.Valid) (hconforms : c.schema.validate call.object = .ok ()) :
    (c.perform call).1.Valid := by
  intro key e he
  rw [schema_perform]
  rw [find?_perform] at he
  split at he
  · cases he
  · split at he
    · rename_i hinserts
      obtain rfl := Option.some.inj he
      have hconcerns := (Bool.and_eq_true _ _ ▸ hinserts).2
      exact valid_afterWrite hvalid hconforms (CacheCall.concerns_eq_true_iff.1 hconcerns)
    · exact hvalid key e he

/-- Calls with conforming objects keep a container valid. -/
theorem Valid.after (hvalid : c.Valid) {calls : List CacheCall}
    (hconform : ∀ call ∈ calls, c.schema.validate call.object = .ok ()) :
    (c.after calls).Valid := by
  induction calls using List.reverseRecOn with
  | nil => exact hvalid
  | append_singleton calls call ih =>
    rw [after_concat]
    refine (ih fun x hx => hconform x (by simp [hx])).perform ?_
    rw [schema_after]
    exact hconform call (by simp)

/-! ## Replays -/

/-- Every frame of a replay carries an entry under the name of its last writer. -/
theorem exists_of_mem_replayOf {entries : List Entry} {now : Instant} {t : Transmission}
    (ht : t ∈ c.replayOf now entries) :
    ∃ e ∈ entries, ∃ left, t = .ofObject (c.replayHeader e left now) e.object := by
  induction entries with
  | nil => cases ht
  | cons e rest ih =>
    rcases List.mem_cons.1 ht with rfl | ht
    · exact ⟨e, List.mem_cons_self, rest.length, rfl⟩
    · obtain ⟨e', he', left, rfl⟩ := ih ht
      exact ⟨e', List.mem_cons_of_mem _ he', left, rfl⟩

end Container

end ObjectBus
