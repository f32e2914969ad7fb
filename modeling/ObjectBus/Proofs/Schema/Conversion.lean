import Mathlib.Data.List.Forall2
import ObjectBus.Proofs.Json.Finite
import ObjectBus.Proofs.Schema.Conformance
import ObjectBus.Proofs.SortedMap
import ObjectBus.Proofs.Time.Reader

/-!
# Objects as JSON and back

An object that was read from JSON conforms to its type, and what it is written as is read back as
the same object, as long as its times lie in the years that their text can tell. Members are looked
up by name when an object is read and named by tag when it is written: of properties with one name
only the first is ever set, and two tags never share a property.

* `Value.times`: the times in a value;
* `ValueKind.accepts_of_valueOfJson?`, `ValueKind.valueOfJson?_toJson`: single values, by the kind;
* `StructSchema.Setting`, `StructSchema.objectOfJson_eq_ok_iff`: an object is read member by member;
* `StructSchema.object_survives_json`: whole objects.
-/

namespace ObjectBus

/-! ## Times -/

namespace Value

mutual

/-- The points in time that stand in a value, in nested lists too. -/
def times : Value → List Instant
  | time t => [t]
  | list items => timesOfItems items
  | bool _ | int _ | uint _ | float _ | str _ | bytes _ | enumerator _ => []

/-- The points in time that stand in the items of a list. -/
def timesOfItems : List Value → List Instant
  | [] => []
  | v :: rest => v.times ++ timesOfItems rest

end

theorem mem_timesOfItems_iff {items : List Value} {t : Instant} :
    t ∈ timesOfItems items ↔ ∃ v ∈ items, t ∈ v.times := by
  induction items with
  | nil => simp [timesOfItems]
  | cons v rest ih => simp [timesOfItems, ih]

theorem toJsons_eq_map (items : List Value) : toJsons items = items.map toJson := by
  induction items with
  | nil => rfl
  | cons v rest ih => rw [toJsons, ih, List.map_cons]

end Value

/-- Whether the year of an instant has four digits at most and no sign. -/
def Instant.HasPlainYear (t : Instant) : Prop := 0 ≤ t.date.year ∧ t.date.year ≤ 9999

/-! ## Values -/

/-- A list is read item by item. -/
theorem mapM_eq_some_iff {α β : Type} {f : α → Option β} {as : List α} {bs : List β} :
    as.mapM f = some bs ↔ as.map f = bs.map some := by
  induction as generalizing bs with
  | nil => cases bs <;> simp
  | cons a as ih =>
    rw [List.mapM_cons, List.map_cons]
    cases ha : f a with
    | none => cases bs <;> simp
    | some b =>
      cases bs with
      | nil => cases hrest : as.mapM f <;> simp
      | cons b' bs =>
        rw [List.map_cons, List.cons.injEq, ← ih]
        cases hrest : as.mapM f <;> simp

/-- In two related lists every element of the second is related to one of the first. -/
theorem exists_of_mem_of_forall₂ {α β : Type} {r : α → β → Prop} {as : List α} {bs : List β}
    (h : List.Forall₂ r as bs) {b : β} (hb : b ∈ bs) : ∃ a ∈ as, r a b := by
  induction h with
  | nil => cases hb
  | cons hhead _ ih =>
    rcases List.mem_cons.1 hb with rfl | hrest
    · exact ⟨_, List.mem_cons_self, hhead⟩
    · obtain ⟨a, ha, hr⟩ := ih hrest
      exact ⟨a, List.mem_cons_of_mem _ ha, hr⟩

/-- Where every element is related to something, the list is related to a list of such. -/
theorem exists_forall₂ {α β : Type} {r : α → β → Prop} {as : List α}
    (h : ∀ a ∈ as, ∃ b, r a b) : ∃ bs, List.Forall₂ r as bs := by
  induction as with
  | nil => exact ⟨[], .nil⟩
  | cons a rest ih =>
    obtain ⟨b, hb⟩ := h a List.mem_cons_self
    obtain ⟨bs, hbs⟩ := ih fun a' ha' => h a' (List.mem_cons_of_mem _ ha')
    exact ⟨b :: bs, .cons hb hbs⟩

namespace ValueKind

variable {kind : ValueKind} {j : Json} {v : Value}

/-- What is read for a kind is of this kind. -/
theorem accepts_of_valueOfJson? (h : kind.valueOfJson? j = some v) : kind.accepts v = true := by
  induction kind generalizing j v with
  | list item ih =>
    obtain ⟨values, hvalues, rfl⟩ := Option.map_eq_some_iff.1 h
    obtain ⟨items, -, hitems⟩ := Option.bind_eq_some_iff.1 hvalues
    rw [accepts, List.all_eq_true]
    intro value hvalue
    have hmem : some value ∈ items.map item.valueOfJson? := by
      rw [mapM_eq_some_iff.1 hitems]
      exact List.mem_map_of_mem hvalue
    obtain ⟨j', -, hread⟩ := List.mem_map.1 hmem
    exact ih hread
  | bool | int | uint | float | string | bytes | time | enumerator =>
    obtain ⟨_, -, rfl⟩ := Option.map_eq_some_iff.1 h
    rfl

/-- A signed integer is read back. -/
theorem asInt64?_ofInt64 (n : Int64) : (Json.ofInt64 n).asInt64? = some n := by
  rw [Json.ofInt64, JsonNumber.ofInt64]
  split
  · rename_i hnonneg
    have hsmall : n.toUInt64.toNat < Nat.pow 2 63 := by
      rw [Int64.toNat_toUInt64_of_le hnonneg]
      have hhigh := n.toInt_lt
      show n.toInt.toNat < 2 ^ 63
      omega
    rw [Json.asInt64?, JsonNumber.asInt64?, if_pos hsmall, Int64.toInt64_toUInt64]
  · rfl

/-- The number of an enumerator is read back. -/
theorem enumeratorOfJson?_ofInt64 (n : Int32) :
    enumeratorOfJson? (Json.ofInt64 n.toInt64) = some n := by
  have hlow := n.le_toInt
  have hhigh := n.toInt_lt
  rw [enumeratorOfJson?, asInt64?_ofInt64, Option.bind_some, Int32.toInt_toInt64, if_pos,
    Int32.toInt32_toInt64]
  simp only [Int32.toInt_minValue, Int32.toInt_maxValue]
  omega

/-- A byte is read back. -/
theorem byteOfJson?_ofNat (b : UInt8) : byteOfJson? (Json.ofNat b.toNat) = some b := by
  have hsmall := b.toNat_lt
  have hnumber : (UInt64.ofNat b.toNat).toNat = b.toNat := by
    rw [UInt64.toNat_ofNat']
    omega
  have hbyte : (UInt64.ofNat b.toNat).toUInt8 = b := by
    rw [← UInt8.toNat_inj, UInt64.toNat_toUInt8, hnumber]
    omega
  show (if (UInt64.ofNat b.toNat).toNat < 256 then _ else _) = some b
  rw [hnumber, if_pos hsmall, hbyte]

/-- A value that was read for a kind is read back for this kind. -/
theorem valueOfJson?_toJson (h : kind.valueOfJson? j = some v) (hfinite : j.isFinite = true)
    (htimes : ∀ t ∈ v.times, t.HasPlainYear) : kind.valueOfJson? v.toJson = some v := by
  induction kind generalizing j v with
  | bool | uint | string =>
    obtain ⟨_, -, rfl⟩ := Option.map_eq_some_iff.1 h
    rfl
  | int =>
    obtain ⟨n, -, rfl⟩ := Option.map_eq_some_iff.1 h
    rw [Value.toJson, valueOfJson?, asInt64?_ofInt64, Option.map_some]
  | float =>
    obtain ⟨x, hx, rfl⟩ := Option.map_eq_some_iff.1 h
    -- Only numbers are read as doubles, and all of them are finite.
    have hnumber : x.isFinite = true := by
      cases j with
      | number n =>
        obtain rfl := Option.some.inj hx
        exact JsonNumber.isFinite_asBinary64 hfinite
      | _ => cases hx
    rw [Value.toJson, Json.ofBinary64, if_pos hnumber]
    rfl
  | bytes =>
    obtain ⟨bs, -, rfl⟩ := Option.map_eq_some_iff.1 h
    have hbytes : (bs.map fun b => Json.ofNat b.toNat).mapM byteOfJson? = some bs := by
      rw [mapM_eq_some_iff, List.map_map]
      exact List.map_congr_left fun b _ => byteOfJson?_ofNat b
    rw [Value.toJson, valueOfJson?]
    simp only [Json.asArray?, Option.bind_some, hbytes, Option.map_some]
  | time =>
    obtain ⟨t, -, rfl⟩ := Option.map_eq_some_iff.1 h
    have hyear := htimes t (by simp [Value.times])
    rw [Value.toJson, valueOfJson?]
    simp only [Json.asString?, Option.bind_some, Instant.ofText?_text hyear, Option.map_some]
  | enumerator =>
    obtain ⟨n, -, rfl⟩ := Option.map_eq_some_iff.1 h
    rw [Value.toJson, valueOfJson?, enumeratorOfJson?_ofInt64, Option.map_some]
  | list item ih =>
    obtain ⟨values, hvalues, rfl⟩ := Option.map_eq_some_iff.1 h
    obtain ⟨items, harray, hitems⟩ := Option.bind_eq_some_iff.1 hvalues
    have hjson : Json.allFinite items = true := by
      cases j with
      | array items' =>
        obtain rfl := Option.some.inj harray
        exact hfinite
      | _ => cases harray
    have hback : (Value.toJsons values).mapM item.valueOfJson? = some values := by
      rw [Value.toJsons_eq_map, mapM_eq_some_iff, List.map_map]
      refine List.map_congr_left fun value hvalue => ?_
      have hmem : some value ∈ items.map item.valueOfJson? := by
        rw [mapM_eq_some_iff.1 hitems]
        exact List.mem_map_of_mem hvalue
      obtain ⟨j', hj', hread⟩ := List.mem_map.1 hmem
      refine ih hread (Json.allFinite_iff.1 hjson j' hj') fun t ht => htimes t ?_
      rw [Value.times]
      exact Value.mem_timesOfItems_iff.2 ⟨value, hvalue, ht⟩
    rw [Value.toJson, valueOfJson?]
    simp only [Json.asArray?, Option.bind_some, hback, Option.map_some]

end ValueKind

/-! ## Objects -/

/-- The points in time that stand in an object. -/
def Object.times (o : Object) : List Instant := o.values.values.flatMap Value.times

theorem Object.mem_times_of_get? {o : Object} {tag : Tag} {value : Value} {t : Instant}
    (hvalue : o.get? tag = some value) (ht : t ∈ value.times) : t ∈ o.times :=
  List.mem_flatMap.2 ⟨value, SortedMap.mem_values_iff.2 ⟨tag, hvalue⟩, ht⟩

namespace StructSchema

variable {s : StructSchema} {o o' : Object} {j : Json} {m : String × Json} {b b' : Tag × Value}
variable {members : List (String × Json)} {p : PropertySchema}

/-! ### Reading members -/

/-- A member of a JSON object sets the first property of its name, to a value of its kind. -/
structure Sets (s : StructSchema) (p : PropertySchema) (m : String × Json) (b : Tag × Value) :
    Prop where
  /-- The property is the first of this name. -/
  property : s.findPropertyNamed? m.1 = some p
  /-- It has the tag. -/
  tag : b.1 = p.tag
  /-- The value is read for its kind. -/
  value : p.kind.valueOfJson? m.2 = some b.2

theorem setFromMember_eq_ok_iff :
    s.setFromMember o m = .ok o' ↔ ∃ p b, s.Sets p m b ∧ o' = o.set b.1 b.2 := by
  unfold setFromMember
  constructor
  · intro h
    split at h
    · cases h
    · rename_i p hp
      split at h
      · cases h
      · rename_i value hvalue
        exact ⟨p, (p.tag, value), ⟨hp, rfl, hvalue⟩, (Except.ok.inj h).symm⟩
  · rintro ⟨p, ⟨tag, value⟩, ⟨hp, rfl, hvalue⟩, rfl⟩
    simp only [hp, hvalue]

/-- Members are read one after the other, each of which sets a property. -/
theorem foldlM_setFromMember_eq_ok_iff : members.foldlM s.setFromMember o = .ok o' ↔
    ∃ bs, List.Forall₂ (fun m b => ∃ p, s.Sets p m b) members bs ∧
      o' = bs.foldl (fun o b => o.set b.1 b.2) o := by
  induction members generalizing o with
  | nil =>
    constructor
    · intro h
      exact ⟨[], .nil, (Except.ok.inj h).symm⟩
    · rintro ⟨bs, hbs, rfl⟩
      cases hbs
      rfl
  | cons m rest ih =>
    rw [List.foldlM_cons]
    constructor
    · intro h
      cases hm : s.setFromMember o m with
      | error e =>
        rw [hm] at h
        cases h
      | ok o₁ =>
        rw [hm] at h
        obtain ⟨p, b, hset, rfl⟩ := setFromMember_eq_ok_iff.1 hm
        obtain ⟨bs, hbs, rfl⟩ := ih.1 h
        exact ⟨b :: bs, .cons ⟨p, hset⟩ hbs, rfl⟩
    · rintro ⟨bs, hbs, rfl⟩
      obtain _ | ⟨⟨p, hset⟩, hrest⟩ := hbs
      rw [setFromMember_eq_ok_iff.2 ⟨p, _, hset, rfl⟩]
      exact ih.2 ⟨_, hrest, rfl⟩

/-- An object is read from a JSON object when each of its members sets a property. -/
theorem objectOfJson_eq_ok_iff : s.objectOfJson (.object members) = .ok o ↔
    ∃ bs, List.Forall₂ (fun m b => ∃ p, s.Sets p m b) members bs ∧ o = ⟨s.name, .ofList bs⟩ := by
  -- Setting properties one after the other inserts their values into the map of the object.
  have hfold : ∀ (bs : List (Tag × Value)) (o : Object),
      bs.foldl (fun o b => o.set b.1 b.2) o =
        ⟨o.typeName, bs.foldl (fun values b => values.insert b.1 b.2) o.values⟩ := by
    intro bs
    induction bs with
    | nil => exact fun o => rfl
    | cons b rest ih => exact fun o => ih (o.set b.1 b.2)
  show members.foldlM s.setFromMember (.empty s.name) = .ok o ↔ _
  simp only [foldlM_setFromMember_eq_ok_iff, hfold]
  rfl

/-- What an object holds that was read from JSON was set by a member. -/
theorem exists_sets_of_objectOfJson (h : s.objectOfJson j = .ok o) :
    o.typeName = s.name ∧ ∀ tag value, o.get? tag = some value →
      ∃ p m, s.Sets p m (tag, value) ∧ (j.isFinite = true → m.2.isFinite = true) := by
  cases j with
  | object members =>
    obtain ⟨bs, hbs, rfl⟩ := objectOfJson_eq_ok_iff.1 h
    refine ⟨rfl, fun tag value hvalue => ?_⟩
    have hmem : (tag, value) ∈ bs := SortedMap.mem_of_find?_ofList hvalue
    obtain ⟨m, hm, p, hset⟩ := exists_of_mem_of_forall₂ hbs hmem
    exact ⟨p, m, hset, fun hfinite => Json.membersFinite_iff.1 hfinite m hm⟩
  | _ => cases h

/-! ### Properties by tag and by name -/

theorem nodup_tags_of_checkProperties {typeName : String} {seen : PropertySet}
    {properties : List PropertySchema} (h : checkProperties typeName seen properties = .ok ()) :
    (properties.map (·.tag)).Nodup ∧ ∀ p ∈ properties, seen.contains p.tag = false := by
  induction properties generalizing seen with
  | nil => simp
  | cons p rest ih =>
    unfold checkProperties at h
    split at h
    · cases h
    · rename_i hrange
      split at h
      · cases h
      · rename_i hseen
        obtain ⟨hnodup, hrest⟩ := ih h
        -- What comes later is checked against this tag too.
        have hlater : ∀ p' ∈ rest, seen.contains p'.tag = false ∧ p'.tag ≠ p.tag := by
          intro p' hp'
          have hnone := hrest p' hp'
          rw [PropertySet.contains_insert, Bool.or_eq_false_iff, decide_eq_false_iff_not] at hnone
          exact ⟨hnone.1, fun htag => hnone.2 ⟨not_not.1 hrange, htag⟩⟩
        refine ⟨?_, ?_⟩
        · rw [List.map_cons, List.nodup_cons]
          refine ⟨fun hmem => ?_, hnodup⟩
          obtain ⟨p', hp', htag⟩ := List.mem_map.1 hmem
          exact (hlater p' hp').2 htag
        · rw [List.forall_mem_cons]
          exact ⟨by simpa using hseen, fun p' hp' => (hlater p' hp').1⟩

/-- In a type whose definition is accepted, a property is the only one of its tag. -/
theorem findProperty?_of_mem (hs : s.checkDefinition = .ok ()) (hp : p ∈ s.properties) :
    s.findProperty? p.tag = some p := by
  obtain ⟨hnodup, -⟩ := nodup_tags_of_checkProperties hs
  cases hfound : s.findProperty? p.tag with
  | none =>
    have hnone := List.find?_eq_none.1 hfound p hp
    simp at hnone
  | some p' =>
    have htag : p'.tag = p.tag := by simpa using List.find?_some hfound
    exact congrArg some
      (List.inj_on_of_nodup_map hnodup (List.mem_of_find?_eq_some hfound) hp htag)

namespace Sets

/-- A property that a member sets is found by its tag. -/
theorem findProperty? (h : s.Sets p m b) (hs : s.checkDefinition = .ok ()) :
    s.findProperty? b.1 = some p := by
  rw [h.tag]
  exact findProperty?_of_mem hs (List.mem_of_find?_eq_some h.property)

/-- A property that a member sets is named in JSON as this member is. -/
theorem memberName (h : s.Sets p m b) (hs : s.checkDefinition = .ok ()) :
    s.memberName b.1 = m.1 := by
  have hname : p.name = m.1 := by simpa using List.find?_some h.property
  rw [StructSchema.memberName, h.findProperty? hs]
  exact hname

/-- Members of one name set the same property. -/
theorem tag_eq {m' : String × Json} {p' : PropertySchema} (h : s.Sets p m b)
    (h' : s.Sets p' m' b') (hname : m.1 = m'.1) : b.1 = b'.1 := by
  have hproperty := h.property
  rw [hname, h'.property] at hproperty
  rw [h.tag, h'.tag, Option.some.inj hproperty]

/-- What is written of a property that a member has set, sets the property to the same. -/
theorem written (h : s.Sets p m b) (hs : s.checkDefinition = .ok ())
    (hfinite : m.2.isFinite = true) (htimes : ∀ t ∈ b.2.times, t.HasPlainYear) :
    s.Sets p (s.memberName b.1, b.2.toJson) b where
  property := by
    rw [h.memberName hs]
    exact h.property
  tag := h.tag
  value := ValueKind.valueOfJson?_toJson h.value hfinite htimes

end Sets

/-! ### Whole objects -/

/-- What is read from JSON conforms. -/
theorem validate_of_objectOfJson (hs : s.checkDefinition = .ok ())
    (h : s.objectOfJson j = .ok o) : s.validate o = .ok () := by
  obtain ⟨htype, hsets⟩ := exists_sets_of_objectOfJson h
  refine validate_eq_ok_iff.2 ⟨htype, fun tag value hvalue => ?_⟩
  obtain ⟨p, m, hset, -⟩ := hsets tag value hvalue
  have haccepts := ValueKind.accepts_of_valueOfJson? hset.value
  simp only [validateValue, hset.findProperty? hs, haccepts, if_true]

/-- An object that holds nothing but what members of finite JSON set is read back from what it is
written as. -/
theorem objectOfJson_objectToJson (hs : s.checkDefinition = .ok ()) (htype : o.typeName = s.name)
    (hsets : ∀ tag value, o.get? tag = some value →
      ∃ p m, s.Sets p m (tag, value) ∧ m.2.isFinite = true)
    (htimes : ∀ t ∈ o.times, t.HasPlainYear) : s.objectOfJson (s.objectToJson o) = .ok o := by
  -- Each binding is written as a member that sets it again.
  have hwritten : ∀ b ∈ o.values.toList, ∃ p, s.Sets p (s.memberName b.1, b.2.toJson) b := by
    rintro ⟨tag, value⟩ hb
    have hvalue := Object.mem_toList_iff.1 hb
    obtain ⟨p, m, hset, hfinite⟩ := hsets tag value hvalue
    exact ⟨p, hset.written hs hfinite fun t ht => htimes t (Object.mem_times_of_get? hvalue ht)⟩
  let written := o.values.toList.map fun b => (s.memberName b.1, b.2.toJson)
  -- So does each member of the whole, in the order of their names.
  have hmembers : ∀ m ∈ (SortedMap.ofList written).toList,
      ∃ b, (∃ p, s.Sets p m b) ∧ b ∈ o.values.toList := by
    intro m hm
    have hmem : m ∈ written := SortedMap.mem_of_find?_ofList (SortedMap.find?_eq_some_iff.2 hm)
    obtain ⟨b, hb, rfl⟩ := List.mem_map.1 hmem
    exact ⟨b, hwritten b hb, hb⟩
  obtain ⟨bs, hbs⟩ := exists_forall₂ hmembers
  rw [objectToJson, Json.ofMembers_eq]
  refine objectOfJson_eq_ok_iff.2 ⟨bs, hbs.imp fun _ _ h => h.1, ?_⟩
  refine Object.ext_get? htype fun tag => ?_
  show o.get? tag = (SortedMap.ofList bs).find? tag
  have hnothingNew : ∀ value, (SortedMap.ofList bs).find? tag = some value →
      o.get? tag = some value := by
    intro value hvalue
    obtain ⟨m, -, -, hb⟩ := exists_of_mem_of_forall₂ hbs (SortedMap.mem_of_find?_ofList hvalue)
    exact Object.mem_toList_iff.1 hb
  have hall : ∀ value, o.get? tag = some value → (SortedMap.ofList bs).find? tag ≠ none := by
    intro value hvalue
    have hb := Object.mem_toList_iff.2 hvalue
    obtain ⟨p, hset⟩ := hwritten _ hb
    have hname : (SortedMap.ofList written).find? (s.memberName tag) ≠ none :=
      SortedMap.find?_ofList_ne_none (List.mem_map_of_mem hb)
    obtain ⟨j, hj⟩ := Option.ne_none_iff_exists'.1 hname
    -- The member of this name may come from another binding, but it sets the same property.
    obtain ⟨b, hb, ⟨p', hset'⟩, -⟩ :=
      exists_of_mem_of_forall₂ hbs.flip (SortedMap.find?_eq_some_iff.1 hj)
    have htag : tag = b.1 := hset.tag_eq hset' rfl
    rw [htag]
    exact SortedMap.find?_ofList_ne_none hb
  cases hread : (SortedMap.ofList bs).find? tag with
  | some value => exact hnothingNew value hread
  | none =>
    cases hvalue : o.get? tag with
    | none => rfl
    | some value => exact absurd hread (hall value hvalue)

/-- **JSON conversion.** Whatever is read from JSON for a type whose definition is accepted conforms
to the type, also when property names are repeated. If all its times lie in the years from 0 to 9999
in universal time, then what it is written as is read back as the same object, doubles bit by
bit. -/
theorem object_survives_json (hs : s.checkDefinition = .ok ()) (h : s.objectOfJson j = .ok o) :
    s.validate o = .ok () ∧
      (j.isFinite = true → (∀ t ∈ o.times, t.HasPlainYear) →
        s.objectOfJson (s.objectToJson o) = .ok o) := by
  refine ⟨validate_of_objectOfJson hs h, fun hfinite htimes => ?_⟩
  obtain ⟨htype, hsets⟩ := exists_sets_of_objectOfJson h
  refine objectOfJson_objectToJson hs htype (fun tag value hvalue => ?_) htimes
  obtain ⟨p, m, hset, hm⟩ := hsets tag value hvalue
  exact ⟨p, m, hset, hm hfinite⟩

/-! ### Watches of a lighthouse -/

/-- A type of watches whose two last properties have one name. -/
def watchSchema : StructSchema where
  name := "Watch"
  properties := [
    { name := "rounds", tag := 1, kind := .list (.list .time) },
    { name := "light", tag := 4, kind := .enumerator "Light" },
    { name := "wind", tag := 3, kind := .float },
    { name := "wind", tag := 2, kind := .string }]

/-- A watch with a round in a leap second and one that another clock shows in the next year. -/
def watchJson : Json := .object [
  ("rounds", .array [
    .array [.string "2016-12-31T23:59:60.25Z"], .array [],
    .array [.string "2017-01-01T01:30:00.000001+02:00"]]),
  ("wind", .number (.natural 9007199254740993)), ("light", .number (.negative (-7)))]

/-- What is read of the watch. -/
def watch : Object := (watchSchema.objectOfJson watchJson).toOption.getD default

/-- The watch is read, conforms, and is read back. -/
theorem watch_survives_json : watchSchema.checkDefinition = .ok () ∧
    watchSchema.objectOfJson watchJson = .ok watch ∧ watch.times.length = 2 ∧
    watchSchema.validate watch = .ok () ∧
    watchSchema.objectOfJson (watchSchema.objectToJson watch) = .ok watch := by
  have hok : (watchSchema.objectOfJson watchJson).isOk = true := by decide +kernel
  have hlength : watch.times.length = 2 := by decide +kernel
  have hyears : ∀ t ∈ watch.times, 0 ≤ t.date.year ∧ t.date.year ≤ 9999 := by decide +kernel
  have hread : watchSchema.objectOfJson watchJson = .ok watch := by
    unfold watch
    cases hresult : watchSchema.objectOfJson watchJson with
    | ok o => rfl
    | error e =>
      rw [hresult] at hok
      cases hok
  obtain ⟨hvalid, hback⟩ := object_survives_json (s := watchSchema) rfl hread
  exact ⟨rfl, hread, hlength, hvalid, hback rfl hyears⟩

/-- A time that universal time puts into the year 10000 is written with a sign, and is not read
back. -/
example : (Instant.ofText? "9999-12-31T23:30:00-01:00").map (fun t => Instant.ofText? t.text) =
    some none := by decide +kernel

end StructSchema

end ObjectBus
