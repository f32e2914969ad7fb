import ObjectBus.Proofs.Broker.Catalogue

/-!
# The announcements of types

Every struct type that becomes known gets a number and is announced under it, by an event and by an
object that the broker publishes and caches. A type may come with the registry around which the
broker is started, be registered, or be imported by a guest; it is made known in the same way each
time.

* `KnownAs`: the number under which a type is known, which is its place in the order;
* `cached?_publishAsHost_of_new`: what publishing an object under a new key leaves behind;
* `Announced`: the types that are known so far, their numbers and their announcements;
* `Announced.onNewType`: making one more type known;
* `Announced.kept`: nothing else changes anything about them.
-/

namespace ObjectBus

/-- An object that conforms to its type is kept as it is when all that is set in it is written. -/
theorem StructSchema.restrict_validProperties {s : StructSchema} {o : Object}
    (hcheck : s.checkDefinition = .ok ()) (hvalid : s.validate o = .ok ()) :
    o.restrict (s.validProperties o ∪ s.keyProperties ∪ s.keyProperties) = o := by
  refine Object.restrict_eq_self fun tag hset => ?_
  have hlisted := contains_validProperties_of_validate hcheck hvalid hset
  simp [hlisted]

/-- Different types have different keys. -/
theorem TypeAnnounce.recordKey_inj {id id' : UInt32} :
    ([.uint id.toUInt64] : ObjectKey) = [.uint id'.toUInt64] ↔ id = id' :=
  PeerState.recordKey_inj

/-- A type is known under a number: of the types that are known, in the order in which they became
known, it is the one at that place, counted from one. -/
def KnownAs (known : List StructSchema) (id : UInt32) (s : StructSchema) : Prop :=
  ∃ i, known[i]? = some s ∧ id = UInt32.ofNat (i + 1)

namespace KnownAs

variable {known : List StructSchema} {s t : StructSchema} {id : UInt32}

theorem append_singleton_iff :
    KnownAs (known ++ [t]) id s ↔
      KnownAs known id s ∨ s = t ∧ id = UInt32.ofNat (known.length + 1) := by
  have hplace : ∀ i, (known ++ [t])[i]? = some s ↔
      known[i]? = some s ∨ s = t ∧ i = known.length := by
    intro i
    rcases Nat.lt_trichotomy i known.length with hlt | rfl | hgt
    · rw [List.getElem?_append_left hlt]
      simp [hlt.ne]
    · simp [eq_comm]
    · have hlonger : (known ++ [t]).length ≤ i := by simpa using Nat.succ_le_of_lt hgt
      rw [List.getElem?_eq_none hlonger, List.getElem?_eq_none hgt.le]
      simp [hgt.ne']
  simp only [KnownAs, hplace]
  constructor
  · rintro ⟨i, hs | ⟨rfl, rfl⟩, hid⟩
    · exact .inl ⟨i, hs, hid⟩
    · exact .inr ⟨rfl, hid⟩
  · rintro (⟨i, hs, hid⟩ | ⟨rfl, hid⟩)
    · exact ⟨i, .inl hs, hid⟩
    · exact ⟨_, .inr ⟨rfl, rfl⟩, hid⟩

theorem mem (h : KnownAs known id s) : s ∈ known := by
  obtain ⟨i, hs, -⟩ := h
  exact List.mem_of_getElem? hs

/-- Until they run out, the numbers are those up to the number of types. -/
theorem toNat (h : KnownAs known id s) (hroom : known.length < UInt32.size) :
    1 ≤ id.toNat ∧ known[id.toNat - 1]? = some s := by
  obtain ⟨i, hs, rfl⟩ := h
  have hi : i < known.length := (List.getElem?_eq_some_iff.1 hs).1
  have hnat : (UInt32.ofNat (i + 1)).toNat = i + 1 := UInt32.toNat_ofNat_of_lt' (by omega)
  rw [hnat]
  exact ⟨by omega, hs⟩

theorem toNat_le (h : KnownAs known id s) (hroom : known.length < UInt32.size) :
    id.toNat ≤ known.length := by
  have hplace := (List.getElem?_eq_some_iff.1 (h.toNat hroom).2).1
  omega

/-- Until the numbers run out, no two types have the same one. -/
theorem unique (h : KnownAs known id s) (h' : KnownAs known id t)
    (hroom : known.length < UInt32.size) : s = t :=
  Option.some.inj ((h.toNat hroom).2.symm.trans (h'.toNat hroom).2)

end KnownAs

namespace Broker

variable {call : BrokerCall} {now : Instant} {b b' : Broker} {o : Object} {schema : StructSchema}
variable {known : List StructSchema} {key : ObjectKey}

/-! ## Publishing an object -/

/-- An object of a cached type that the host publishes under a new key is cached as it is. -/
theorem cached?_publishAsHost_of_new (hb : b.Sound)
    (hs : b.registry.findStruct? schema.name = some schema) (hcached : schema.flags.cached = true)
    (hvalid : schema.validate o = .ok ()) (hkey : schema.keyOf o = .ok key)
    (hnew : b.cached? schema.name key = none) (now : Instant) :
    (b.publishAsHost o none false now).value.1.cached? schema.name key = some o := by
  have hname : o.typeName = schema.name := (StructSchema.validate_eq_ok_iff.1 hvalid).1
  have hpublish : (b.publishAsHost o none false now).value =
      (b.dispatch schema (hostHeader schema o none false now) o now).value := by
    unfold publishAsHost Registry.resolve
    rw [hname, hs]
    simp only [hvalid]
  have hconcerns : (Dispatcher.callOf (hostHeader schema o none false now) o now).concerns schema
      key = true := CacheCall.concerns_eq_true_iff.2 hkey
  have hwrite : (hostHeader schema o none false now).remove = false := rfl
  have hnone : b.cachedAt? schema.name key = none := Option.map_eq_none_iff.1 hnew
  have hcache : (b.cacheOf schema).schema = schema := (hb.cacheOf hs).1
  rw [cached?, hpublish, cachedAt?_dispatch_eq hb hs, if_pos ⟨⟨hcached, rfl⟩, hconcerns⟩, hwrite,
    if_neg Bool.false_ne_true, Option.map_some, hnone]
  congr 1
  show o.restrict ((hostHeader schema o none false now).attributes ∪
    (b.cacheOf schema).schema.keyProperties) = o
  rw [hcache]
  exact StructSchema.restrict_validProperties (hb.registry _ _ hs).2 hvalid

/-- Publishing an object concerns no other one. -/
theorem cached?_publishAsHost_of_ne (hb : b.Sound)
    (hs : b.registry.findStruct? o.typeName = some schema) {key' : ObjectKey}
    (hkey : schema.keyOf o = .ok key) (hne : key' ≠ key) (included : Option PropertySet)
    (remove : Bool) (now : Instant) (typeName : String) :
    (b.publishAsHost o included remove now).value.1.cached? typeName key' =
      b.cached? typeName key' := by
  have heffects : Effects (fun p => p.schema = schema ∧ p.object = o) (fun _ _ => True) b
      (b.publishAsHost o included remove now).value.1 := by
    refine effects_publishAsHost hb o included remove now fun s hs' => ?_
    exact ⟨Option.some.inj (hs'.symm.trans hs), rfl⟩
  have hsame : (b.publishAsHost o included remove now).value.1.cachedAt? typeName key' =
      b.cachedAt? typeName key' := by
    refine heffects.spares ?_
    rintro ⟨s, h, o'⟩ ⟨rfl, rfl⟩ - - hkey'
    exact hne (Except.ok.inj (hkey'.symm.trans hkey))
  rw [cached?, hsame, cached?]

/-! ## The types that are known -/

/-- The types that are known so far, in the order in which they became known: their numbers, what
observers were told of them and their announcements. -/
structure Announced (known : List StructSchema) (b : Broker) : Prop where
  /-- The type of the announcements is known. -/
  builtin : b.KnowsBuiltin
  /-- No two types have the same name. -/
  distinct : (known.map (·.name)).Nodup
  /-- Each type has its number. -/
  numbered : ∀ name id, b.typeId? name = some id ↔ ∃ s, KnownAs known id s ∧ s.name = name
  /-- The next type gets the next number. -/
  next : b.nextTypeId = UInt32.ofNat (known.length + 1)
  /-- Observers were told of each type in turn. -/
  told : b.catalogue.told = known.mapIdx fun i s => (UInt32.ofNat (i + 1), s.name)
  /-- The announcements of the types are cached, and nothing else of their type is, unless the
  numbers have run out. -/
  announcements : known.length < UInt32.size → ∀ key o,
    b.cached? typeAnnounceType key = some o ↔
      ∃ id s, KnownAs known id s ∧ key = [.uint id.toUInt64] ∧ o = TypeAnnounce.record id s

namespace Announced

/-- Where no type becomes known and no announcement changes, all is as before. -/
theorem kept (h : Announced known b) (hkeeps : Keeps b b')
    (hcache : ∀ key, b'.cached? typeAnnounceType key = b.cached? typeAnnounceType key) :
    Announced known b' where
  builtin s hs := by
    have hstructs : b'.registry.structs = b.registry.structs := hkeeps.structs
    have hfind := h.builtin s hs
    rw [Registry.findStruct?] at hfind ⊢
    rwa [hstructs]
  distinct := h.distinct
  numbered name id := by
    rw [typeId?, hkeeps.typeIds]
    exact h.numbered name id
  next := hkeeps.nextTypeId.trans h.next
  told := hkeeps.told.trans h.told
  announcements hroom key o := by
    rw [hcache]
    exact h.announcements hroom key o

end Announced

/-- A broker that has given a type its number and told observers of it, but has not published its
announcement yet. -/
def enlisted (b : Broker) (schema : StructSchema) : Broker :=
  (b.adoptType schema).emit (.typeAnnounced b.nextTypeId schema.name)

theorem value_onNewType (b : Broker) (schema : StructSchema) (now : Instant) :
    (b.onNewType schema now).value =
      ((b.enlisted schema).publishAsHost (TypeAnnounce.record b.nextTypeId schema) none false
        now).value.1 := by
  unfold onNewType enlisted
  simp only [Noted.value_bind, value_publishOrNote]

/-- Giving a type its number writes no announcement. -/
theorem cached?_enlisted (b : Broker) (schema : StructSchema) (typeName : String)
    (key : ObjectKey) : (b.enlisted schema).cached? typeName key = b.cached? typeName key := by
  show ((b.adoptType schema).cachedAt? typeName key).map _ = _
  rw [cachedAt?_adoptType]
  rfl

theorem told_enlisted (b : Broker) (schema : StructSchema) :
    (b.enlisted schema).catalogue.told =
      b.catalogue.told ++ [(b.nextTypeId, schema.name)] := by
  simp [catalogue, enlisted, emit, BrokerEvent.newType?, adoptType]

/-- Publishing the announcement changes nothing else about the types. -/
theorem catalogue_onNewType (b : Broker) (schema : StructSchema) (now : Instant) :
    (b.onNewType schema now).value.catalogue = (b.enlisted schema).catalogue := by
  rw [value_onNewType]
  exact catalogue_publishAsHost _ _ none false now

namespace Announced

/-- The name of a type that none of the others has. -/
theorem distinct_append (h : Announced known b) (hfresh : schema.name ∉ known.map (·.name)) :
    ((known ++ [schema]).map (·.name)).Nodup := by
  rw [List.map_append, List.map_singleton, List.nodup_append]
  refine ⟨h.distinct, List.nodup_singleton _, fun name hname name' hname' heq => ?_⟩
  obtain rfl := List.mem_singleton.1 hname'
  exact hfresh (heq ▸ hname)

/-- Until the numbers run out, the next one is that of no other type. -/
theorem not_knownAs_next (h : Announced known b) (hroom : known.length + 1 < UInt32.size)
    (s : StructSchema) : ¬KnownAs known b.nextTypeId s := by
  intro hs
  have hle := hs.toNat_le (by omega)
  rw [h.next, UInt32.toNat_ofNat_of_lt' hroom] at hle
  omega

/-- The new type has the next number, and the others keep theirs. -/
theorem numbered_insert (h : Announced known b) (hfresh : schema.name ∉ known.map (·.name))
    (name : String) (id : UInt32) :
    (b.typeIds.insert schema.name b.nextTypeId).find? name = some id ↔
      ∃ s, KnownAs (known ++ [schema]) id s ∧ s.name = name := by
  have hold : (∃ s, KnownAs known id s ∧ s.name = name) → name ≠ schema.name := by
    rintro ⟨s, hs, rfl⟩ heq
    exact hfresh (heq ▸ List.mem_map_of_mem hs.mem)
  rw [SortedMap.find?_insert]
  simp only [KnownAs.append_singleton_iff, or_and_right, exists_or]
  by_cases hname : name = schema.name
  · have hnone : ¬∃ s, KnownAs known id s ∧ s.name = name := fun hs => hold hs hname
    rw [if_pos hname, or_iff_right hnone, h.next]
    simp [hname, eq_comm]
  · have hnot : ¬∃ s, (s = schema ∧ id = UInt32.ofNat (known.length + 1)) ∧ s.name = name := by
      rintro ⟨s, ⟨rfl, -⟩, heq⟩
      exact hname heq.symm
    rw [if_neg hname, or_iff_left hnot]
    exact h.numbered name id

/-- The announcement of the new type is cached under its number. -/
theorem cached?_onNewType_eq (h : Announced known b) (hsound : (b.enlisted schema).Sound)
    (hroom : known.length + 1 < UInt32.size) (now : Instant) :
    (b.onNewType schema now).value.cached? typeAnnounceType [.uint b.nextTypeId.toUInt64] =
      some (TypeAnnounce.record b.nextTypeId schema) := by
  have hbuiltin : (b.enlisted schema).registry.findStruct? typeAnnounceType =
      some TypeAnnounce.schema := h.builtin TypeAnnounce.schema (by simp [builtinStructs])
  -- There is no announcement under the new number yet.
  have hnew : (b.enlisted schema).cached? typeAnnounceType [.uint b.nextTypeId.toUInt64] =
      none := by
    rw [cached?_enlisted, Option.eq_none_iff_forall_ne_some]
    intro o ho
    obtain ⟨id, s, hs, hid, -⟩ := (h.announcements (by omega) _ o).1 ho
    rw [TypeAnnounce.recordKey_inj] at hid
    exact h.not_knownAs_next hroom s (hid ▸ hs)
  rw [value_onNewType]
  exact cached?_publishAsHost_of_new hsound hbuiltin rfl rfl
    (TypeAnnounce.keyOf_record b.nextTypeId schema) hnew now

/-- The announcements of the others stay as they are. -/
theorem cached?_onNewType_of_ne (h : Announced known b) (hsound : (b.enlisted schema).Sound)
    (hne : key ≠ [.uint b.nextTypeId.toUInt64]) (now : Instant) :
    (b.onNewType schema now).value.cached? typeAnnounceType key =
      b.cached? typeAnnounceType key := by
  have hbuiltin : (b.enlisted schema).registry.findStruct? typeAnnounceType =
      some TypeAnnounce.schema := h.builtin TypeAnnounce.schema (by simp [builtinStructs])
  have hkey := TypeAnnounce.keyOf_record b.nextTypeId schema
  rw [value_onNewType,
    cached?_publishAsHost_of_ne hsound hbuiltin hkey hne none false now typeAnnounceType,
    cached?_enlisted]

/-- The announcements that are cached are those of the others and that of the new type. -/
theorem announcements_onNewType (h : Announced known b) (hsound : (b.enlisted schema).Sound)
    (hroom : known.length + 1 < UInt32.size) (now : Instant) (key : ObjectKey) (o : Object) :
    (b.onNewType schema now).value.cached? typeAnnounceType key = some o ↔
      ∃ id s, KnownAs (known ++ [schema]) id s ∧ key = [.uint id.toUInt64] ∧
        o = TypeAnnounce.record id s := by
  by_cases hthis : key = [.uint b.nextTypeId.toUInt64]
  · rw [hthis, h.cached?_onNewType_eq hsound hroom now, Option.some.injEq]
    constructor
    · rintro rfl
      have hplace : KnownAs (known ++ [schema]) b.nextTypeId schema :=
        KnownAs.append_singleton_iff.2 (.inr ⟨rfl, h.next⟩)
      exact ⟨b.nextTypeId, schema, hplace, rfl, rfl⟩
    · rintro ⟨id, s, hs, hid, rfl⟩
      obtain rfl := TypeAnnounce.recordKey_inj.1 hid
      rcases KnownAs.append_singleton_iff.1 hs with hs | ⟨rfl, -⟩
      · exact absurd hs (h.not_knownAs_next hroom s)
      · rfl
  · rw [h.cached?_onNewType_of_ne hsound hthis now, h.announcements (by omega)]
    constructor
    · rintro ⟨id, s, hs, hrest⟩
      exact ⟨id, s, KnownAs.append_singleton_iff.2 (.inl hs), hrest⟩
    · rintro ⟨id, s, hs, rfl, ho⟩
      rcases KnownAs.append_singleton_iff.1 hs with hs | ⟨-, hid⟩
      · exact ⟨id, s, hs, rfl, ho⟩
      · exact absurd (by rw [hid, h.next]) hthis

/-- Making one more type known, under a name that none of the others has. -/
theorem onNewType (h : Announced known b) (hsound : (b.enlisted schema).Sound)
    (hfresh : schema.name ∉ known.map (·.name)) (now : Instant) :
    Announced (known ++ [schema]) (b.onNewType schema now).value := by
  have hcatalogue := catalogue_onNewType b schema now
  have hnext : (b.onNewType schema now).value.nextTypeId = b.nextTypeId + 1 :=
    congrArg (·.nextTypeId) hcatalogue
  have hids : (b.onNewType schema now).value.typeIds =
      b.typeIds.insert schema.name b.nextTypeId := congrArg (·.typeIds) hcatalogue
  refine ⟨fun s hs => ?_, h.distinct_append hfresh, fun name id => ?_, ?_, ?_,
    fun hroom key o => ?_⟩
  · rw [value_onNewType, registry_publishAsHost]
    exact h.builtin s hs
  · rw [typeId?, hids]
    exact h.numbered_insert hfresh name id
  · rw [hnext, h.next, List.length_append, List.length_singleton, ← UInt32.ofNat_one,
      ← UInt32.ofNat_add]
  · rw [hcatalogue, told_enlisted, h.told, h.next]
    simp
  · rw [List.length_append, List.length_singleton] at hroom
    exact h.announcements_onNewType hsound hroom now key o

end Announced

end Broker

end ObjectBus
