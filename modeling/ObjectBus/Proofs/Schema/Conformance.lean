import ObjectBus.Proofs.Object.Merge
import ObjectBus.Schema.Basic

/-!
# Conforming objects and their keys

An object has a key exactly when all properties of the key are set, and the key is read off
those properties alone (`keyOf_eq_ok_iff`, `keyOf_congr`). What conforms to a type goes on
conforming when it is restricted or when conforming objects are merged (`validate_restrict`,
`validate_merge`).
-/

namespace ObjectBus.StructSchema

variable {s : StructSchema} {o o' : Object} {key : ObjectKey} {tag : Tag}

/-! ## Declared properties -/

/-- A tag in range is declared when some property has it. -/
theorem contains_allProperties_iff :
    s.allProperties.contains tag = true ↔
      PropertySet.InRange tag ∧ ∃ p ∈ s.properties, p.tag = tag := by
  rw [allProperties, PropertySet.contains_ofTags_iff, List.mem_map]

/-! ## Keys -/

theorem mapM_keyPart_eq_ok_iff {tags : List Tag} :
    tags.mapM (s.keyPart o) = .ok key ↔ tags.map o.get? = key.map some := by
  induction tags generalizing key with
  | nil => cases key <;> simp [pure, Except.pure]
  | cons tag rest ih =>
    rw [List.mapM_cons]
    cases hget : o.get? tag with
    | none =>
      simp only [keyPart, hget, bind, Except.bind, reduceCtorEq, List.map_cons, false_iff]
      cases key <;> simp
    | some value =>
      simp only [keyPart, hget, bind, Except.bind, List.map_cons]
      cases hrest : rest.mapM (s.keyPart o) with
      | error e =>
        simp only [reduceCtorEq, false_iff]
        intro h
        cases key with
        | nil => simp at h
        | cons v vs =>
          rw [List.map_cons, List.cons.injEq] at h
          rw [ih.2 h.2] at hrest
          cases hrest
      | ok vs =>
        simp only [pure, Except.pure, Except.ok.injEq]
        rw [ih.1 hrest]
        cases key with
        | nil => simp
        | cons v ws =>
          simp only [List.cons.injEq, List.map_cons, Option.some.injEq]
          rw [List.map_inj_right fun _ _ => Option.some.inj]

/-- The key of an object lists what it holds under the tags of the key, all of which are
set. -/
theorem keyOf_eq_ok_iff :
    s.keyOf o = .ok key ↔ s.keyProperties.tags.map o.get? = key.map some :=
  mapM_keyPart_eq_ok_iff

/-- The key depends on nothing but the properties of the key. -/
theorem keyOf_congr (h : ∀ tag, s.keyProperties.contains tag = true → o.get? tag = o'.get? tag)
    (hkey : s.keyOf o = .ok key) : s.keyOf o' = .ok key := by
  rw [keyOf_eq_ok_iff] at hkey ⊢
  rw [← hkey]
  refine List.map_congr_left fun tag htag => ?_
  exact (h tag (PropertySet.mem_tags_iff.1 htag)).symm

/-- An object has a key exactly when every property of the key is set. -/
theorem exists_keyOf_eq_ok_iff :
    (∃ key, s.keyOf o = .ok key) ↔
      ∀ tag, s.keyProperties.contains tag = true → o.get? tag ≠ none := by
  constructor
  · rintro ⟨key, hkey⟩ tag htag hnone
    rw [keyOf_eq_ok_iff] at hkey
    have hmem : o.get? tag ∈ key.map some :=
      hkey ▸ List.mem_map_of_mem (PropertySet.mem_tags_iff.2 htag)
    simp [hnone] at hmem
  · intro h
    refine ⟨s.keyProperties.tags.filterMap o.get?, keyOf_eq_ok_iff.2 ?_⟩
    have hset : ∀ tag ∈ s.keyProperties.tags, o.get? tag ≠ none :=
      fun tag htag => h tag (PropertySet.mem_tags_iff.1 htag)
    revert hset
    induction s.keyProperties.tags with
    | nil => simp
    | cons tag rest ih =>
      intro hset
      obtain ⟨value, hvalue⟩ := Option.ne_none_iff_exists'.1 (hset tag List.mem_cons_self)
      simp only [List.map_cons, hvalue, List.filterMap_cons]
      rw [ih fun tag' htag' => hset tag' (List.mem_cons_of_mem _ htag')]

theorem exists_missing_of_mapM_keyPart {e : BrokerError} {tags : List Tag}
    (h : tags.mapM (s.keyPart o) = .error e) :
    ∃ tag ∈ tags, o.get? tag = none ∧ e = .protocol (.missingKey s.name tag) := by
  induction tags with
  | nil => cases h
  | cons tag rest ih =>
    rw [List.mapM_cons] at h
    cases hget : o.get? tag with
    | none =>
      simp only [keyPart, hget, bind, Except.bind, Except.error.injEq] at h
      exact ⟨tag, List.mem_cons_self, hget, h.symm⟩
    | some value =>
      simp only [keyPart, hget, bind, Except.bind] at h
      cases hrest : rest.mapM (s.keyPart o) with
      | ok vs =>
        rw [hrest] at h
        cases h
      | error e' =>
        rw [hrest] at h
        cases h
        obtain ⟨tag', htag', hnone, he⟩ := ih hrest
        exact ⟨tag', List.mem_cons_of_mem _ htag', hnone, he⟩

/-- An object without a key is refused for a property of the key that is not set. -/
theorem exists_missing_of_keyOf_eq_error {e : BrokerError} (h : s.keyOf o = .error e) :
    ∃ tag, s.keyProperties.contains tag = true ∧ o.get? tag = none ∧
      e = .protocol (.missingKey s.name tag) := by
  obtain ⟨tag, htag, hnone, he⟩ := exists_missing_of_mapM_keyPart h
  exact ⟨tag, PropertySet.mem_tags_iff.1 htag, hnone, he⟩

/-! ## Conforming objects -/

theorem forM_eq_ok_iff {α ε : Type} {f : α → Except ε Unit} {l : List α} :
    l.forM f = .ok () ↔ ∀ a ∈ l, f a = .ok () := by
  induction l with
  | nil => simp [pure, Except.pure]
  | cons a rest ih =>
    rw [List.forM_eq_forM] at ih ⊢
    rw [List.forM_cons]
    cases h : f a with
    | error e => simp [bind, Except.bind, h]
    | ok u => simp [bind, Except.bind, h, ih]

/-- An object conforms when it names the type and each property that is set holds a value that
the type admits there. -/
theorem validate_eq_ok_iff :
    s.validate o = .ok () ↔ o.typeName = s.name ∧
      ∀ tag value, o.get? tag = some value → s.validateValue tag value = .ok () := by
  unfold validate
  by_cases htype : o.typeName = s.name
  · simp only [htype, ne_eq, not_true_eq_false, if_false, true_and, forM_eq_ok_iff, Prod.forall,
      Object.mem_toList_iff]
  · simp [htype]

/-- A conforming object holds nothing under a tag that the type does not declare. -/
theorem exists_property_of_validate (h : s.validate o = .ok ()) (hset : o.get? tag ≠ none) :
    ∃ p ∈ s.properties, p.tag = tag := by
  obtain ⟨value, hvalue⟩ := Option.ne_none_iff_exists'.1 hset
  have hok := (validate_eq_ok_iff.1 h).2 tag value hvalue
  unfold validateValue at hok
  split at hok
  · cases hok
  · rename_i p hp
    exact ⟨p, List.mem_of_find?_eq_some hp, by simpa using List.find?_some hp⟩

/-- Leaving properties out keeps an object conforming. -/
theorem validate_restrict (properties : PropertySet) (h : s.validate o = .ok ()) :
    s.validate (o.restrict properties) = .ok () := by
  rw [validate_eq_ok_iff] at h ⊢
  refine ⟨h.1, fun tag value hvalue => h.2 tag value ?_⟩
  rw [Object.get?_restrict] at hvalue
  split at hvalue
  · exact hvalue
  · cases hvalue

/-- Merging conforming objects gives a conforming object. -/
theorem validate_merge (properties : PropertySet) (h : s.validate o = .ok ())
    (h' : s.validate o' = .ok ()) : s.validate (o.merge o' properties) = .ok () := by
  rw [validate_eq_ok_iff] at h h' ⊢
  refine ⟨by rw [Object.typeName_merge, h.1], fun tag value hvalue => ?_⟩
  rw [Object.get?_merge] at hvalue
  split at hvalue
  · exact h'.2 tag value hvalue
  · exact h.2 tag value hvalue

/-! ## Accepted definitions -/

theorem inRange_of_checkProperties {typeName : String} {seen : PropertySet}
    {properties : List PropertySchema} (h : checkProperties typeName seen properties = .ok ()) :
    ∀ p ∈ properties, PropertySet.InRange p.tag := by
  induction properties generalizing seen with
  | nil => simp
  | cons p rest ih =>
    unfold checkProperties at h
    split at h
    · cases h
    · rename_i hrange
      split at h
      · cases h
      · intro p' hp'
        rcases List.mem_cons.1 hp' with rfl | hp'
        · exact not_not.1 hrange
        · exact ih h p' hp'

/-- In a type whose definition is accepted, a conforming object holds only declared properties
that a property set can name. -/
theorem contains_validProperties_of_validate (hcheck : s.checkDefinition = .ok ())
    (h : s.validate o = .ok ()) (hset : o.get? tag ≠ none) :
    (s.validProperties o).contains tag = true := by
  obtain ⟨p, hp, htag⟩ := exists_property_of_validate h hset
  have hrange : PropertySet.InRange tag := htag ▸ inRange_of_checkProperties hcheck p hp
  rw [validProperties, PropertySet.contains_inter, Bool.and_eq_true]
  exact ⟨Object.contains_setProperties_iff.2 ⟨hrange, hset⟩,
    contains_allProperties_iff.2 ⟨hrange, p, hp, htag⟩⟩

end ObjectBus.StructSchema
