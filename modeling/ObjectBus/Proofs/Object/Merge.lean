import ObjectBus.Object
import ObjectBus.Proofs.PropertySet

/-!
# Merging objects

An object is determined by the name of its type and by what it holds under each tag
(`ext_get?`), and a merge is described tag by tag: the listed properties are those of the other
object, set or unset, and all others stay (`get?_merge`). Two merges after one another are a single
one (`merge_merge`), which settles when their order matters and when the second adds nothing
(`merges_compose`).
-/

namespace ObjectBus.Object

/-- Objects of one type that hold the same under every tag are equal. -/
theorem ext_get? {o o' : Object} (htype : o.typeName = o'.typeName)
    (hget : ∀ tag, o.get? tag = o'.get? tag) : o = o' := by
  cases o
  cases o'
  obtain rfl := htype
  congr 1
  exact SortedMap.ext hget

/-- The bindings of an object are what it holds. -/
theorem mem_toList_iff {o : Object} {tag : Tag} {value : Value} :
    (tag, value) ∈ o.values.toList ↔ o.get? tag = some value :=
  SortedMap.find?_eq_some_iff.symm

/-- The properties that are set, as far as tags are in range. -/
theorem contains_setProperties_iff {o : Object} {tag : Tag} :
    o.setProperties.contains tag = true ↔ PropertySet.InRange tag ∧ o.get? tag ≠ none := by
  rw [setProperties, PropertySet.contains_ofTags_iff]
  refine and_congr_right fun _ => ?_
  rw [SortedMap.keys, List.mem_map]
  constructor
  · rintro ⟨⟨tag', value⟩, hmem, rfl⟩
    rw [mem_toList_iff.1 hmem]
    exact Option.some_ne_none value
  · intro hne
    obtain ⟨value, hvalue⟩ := Option.ne_none_iff_exists'.1 hne
    exact ⟨(tag, value), mem_toList_iff.2 hvalue, rfl⟩

/-- Merging one tag gives that tag the state it has in the other object. -/
@[simp]
theorem get?_mergeTag (other o : Object) (tag tag' : Tag) :
    (mergeTag other o tag).get? tag' = if tag' = tag then other.get? tag' else o.get? tag' := by
  unfold mergeTag
  split
  · rename_i value hvalue
    by_cases h : tag' = tag
    · simp [h, hvalue]
    · simp [h]
  · rename_i hnone
    by_cases h : tag' = tag
    · simp [h, hnone]
    · simp [h]

@[simp]
theorem typeName_mergeTag (other o : Object) (tag : Tag) :
    (mergeTag other o tag).typeName = o.typeName := by
  unfold mergeTag
  split <;> rfl

private theorem get?_foldl_mergeTag (other : Object) (tags : List Tag) (o : Object) (tag : Tag) :
    (tags.foldl (mergeTag other) o).get? tag =
      if tag ∈ tags then other.get? tag else o.get? tag := by
  induction tags generalizing o with
  | nil => simp
  | cons a rest ih =>
    rw [List.foldl_cons, ih]
    by_cases hrest : tag ∈ rest
    · simp [hrest]
    · by_cases ha : tag = a <;> simp [hrest, ha]

/-- A merge gives the listed properties the state they have in the other object and leaves all
others as they are. -/
@[simp]
theorem get?_merge (o other : Object) (properties : PropertySet) (tag : Tag) :
    (o.merge other properties).get? tag =
      if properties.contains tag then other.get? tag else o.get? tag := by
  rw [merge, get?_foldl_mergeTag]
  simp only [PropertySet.mem_tags_iff]

/-- A merge never changes the type. -/
@[simp]
theorem typeName_merge (o other : Object) (properties : PropertySet) :
    (o.merge other properties).typeName = o.typeName := by
  unfold merge
  induction properties.tags generalizing o with
  | nil => rfl
  | cons a rest ih => rw [List.foldl_cons, ih, typeName_mergeTag]

/-- Merging an object into itself changes nothing, whichever properties are listed. -/
theorem merge_self (o : Object) (properties : PropertySet) : o.merge o properties = o :=
  ext_get? (typeName_merge _ _ _) fun tag => by simp

/-- An object without properties outside a set is its own restriction to that set. -/
theorem restrict_eq_self {o : Object} {properties : PropertySet}
    (h : ∀ tag, o.get? tag ≠ none → properties.contains tag = true) :
    o.restrict properties = o := by
  refine ext_get? rfl fun tag => ?_
  rw [get?_restrict]
  split
  · rfl
  · rename_i hnot
    by_contra hne
    exact hnot (h tag (Ne.symm hne))

/-! ## Merges after one another -/

section Compose

variable (x a b : Object) (s t : PropertySet)

/-- Two merges are one: what the second lists is merged into the object of the first, and then the
properties that either of them lists are merged at once. -/
theorem merge_merge : (x.merge a s).merge b t = x.merge (a.merge b t) (s ∪ t) := by
  refine ext_get? (by simp only [typeName_merge]) fun tag => ?_
  simp only [get?_merge, PropertySet.contains_union, Bool.or_eq_true]
  -- The second merge decides what it lists; for all else it is out of the way.
  by_cases ht : t.contains tag = true
  · simp [ht]
  · simp [ht]

/-- Merging an object twice merges what is listed either time. -/
theorem merge_merge_self : (x.merge a s).merge a t = x.merge a (s ∪ t) := by
  rw [merge_merge, merge_self]

variable {s t}

/-- Merges that list no property in common can change places. -/
theorem merge_comm_of_disjoint (h : s ∩ t = .none) :
    (x.merge a s).merge b t = (x.merge b t).merge a s := by
  refine ext_get? (by simp only [typeName_merge]) fun tag => ?_
  simp only [get?_merge]
  by_cases hs : s.contains tag = true
  · have ht : t.contains tag = false := PropertySet.contains_eq_false_of_disjoint h hs
    simp [hs, ht]
  · simp [hs]

variable {x}

/-- What neither merge lists is left as it is. -/
theorem get?_merge_merge_of_not_contains {tag : Tag} (hs : s.contains tag = false)
    (ht : t.contains tag = false) : ((x.merge a s).merge b t).get? tag = x.get? tag := by
  simp [hs, ht]

end Compose

/-- **Merges compose.** Merging the properties `s` of `a` and then the properties `t` of `b` into an
object is merging once, with either set, the object that `a` becomes by merging the properties `t`
of `b`. So merges of disjoint sets commute, a merge that is repeated changes nothing, and what
stands outside both sets stays as it is, among it every tag above 32, which no set can list, and the
name of the type. -/
theorem merges_compose (x a b : Object) (s t : PropertySet) :
    (x.merge a s).merge b t = x.merge (a.merge b t) (s ∪ t) ∧
    (s ∩ t = .none → (x.merge a s).merge b t = (x.merge b t).merge a s) ∧
    (x.merge a s).merge a s = x.merge a s ∧
    (∀ tag, s.contains tag = false → t.contains tag = false →
      ((x.merge a s).merge b t).get? tag = x.get? tag) ∧
    (∀ tag : Tag, maxTag < tag.toNat → ((x.merge a s).merge b t).get? tag = x.get? tag) ∧
    ((x.merge a s).merge b t).typeName = x.typeName := by
  refine ⟨merge_merge x a b s t, merge_comm_of_disjoint x a b, ?_,
    fun tag => get?_merge_merge_of_not_contains a b, fun tag htag => ?_, ?_⟩
  · rw [merge_merge_self, PropertySet.union_self]
  · exact get?_merge_merge_of_not_contains a b (PropertySet.contains_eq_false_of_lt htag)
      (PropertySet.contains_eq_false_of_lt htag)
  · rw [typeName_merge, typeName_merge]

/-- A buoy as it is charted, with a mark under a tag that no set can list. -/
def chartedBuoy : Object :=
  (((empty "Buoy").set 1 (.uint 7)).set 2 (.str "red")).set 3 (.str "flashing")
    |>.set 40 (.bool true)

/-- A report of a buoy that tells its colour. -/
def paintedBuoy : Object := (empty "Buoy").set 2 (.str "green")

/-- A report of a buoy that tells its depth and shows no light. -/
def darkBuoy : Object := ((empty "Buoy").set 4 (.int (-12))).set 40 (.bool false)

/-- The colour is taken from one report, light and depth from the other, in either order. The number
of the buoy and its mark stay, although one report has another mark. -/
theorem merges_of_buoy : PropertySet.ofTags [2] ∩ PropertySet.ofTags [3, 4, 40] = .none ∧
    (chartedBuoy.merge paintedBuoy (.ofTags [2])).merge darkBuoy (.ofTags [3, 4, 40]) =
      (chartedBuoy.merge darkBuoy (.ofTags [3, 4, 40])).merge paintedBuoy (.ofTags [2]) ∧
    ((chartedBuoy.merge paintedBuoy (.ofTags [2])).merge darkBuoy (.ofTags [3, 4, 40])).get? 40 =
      some (.bool true) ∧
    ((chartedBuoy.merge paintedBuoy (.ofTags [2])).merge darkBuoy (.ofTags [3, 4, 40])).get? 1 =
      some (.uint 7) := by
  have hdisjoint : PropertySet.ofTags [2] ∩ PropertySet.ofTags [3, 4, 40] = .none := by decide
  obtain ⟨-, hcomm, -, houtside, hhigh, -⟩ :=
    merges_compose chartedBuoy paintedBuoy darkBuoy (.ofTags [2]) (.ofTags [3, 4, 40])
  exact ⟨hdisjoint, hcomm hdisjoint, hhigh 40 (by decide), houtside 1 (by decide) (by decide)⟩

end ObjectBus.Object
