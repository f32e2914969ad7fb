import Mathlib.Data.List.Nodup
import Mathlib.Data.List.Range
import ObjectBus.PropertySet

/-!
# Membership in property sets

A property set is a word of bits, and everything else about it follows from which tags it
contains. The statements here turn the remaining operations into `contains`:

* `mem_tags_iff` and `nodup_tags`: walking a set visits each member once;
* `contains_ofTags_iff`: a set built from tags has those of them that are in range;
* `ext_contains`: sets with the same members are equal.
-/

namespace ObjectBus.PropertySet

/-- A tag in range is one of the tags that are walked over, and there are no others. -/
theorem mem_allTags_iff {tag : Tag} : tag ∈ allTags ↔ InRange tag := by
  simp only [allTags, List.mem_map, List.mem_range, InRange]
  constructor
  · rintro ⟨i, hi, rfl⟩
    have hsmall : i + 1 < 2 ^ 32 := by
      simp only [maxTag] at hi
      omega
    rw [UInt32.toNat_ofNat_of_lt' hsmall]
    omega
  · rintro ⟨hlow, hhigh⟩
    refine ⟨tag.toNat - 1, by omega, ?_⟩
    rw [Nat.sub_add_cancel hlow]
    exact UInt32.ofNat_toNat

/-- Walking over a set visits exactly its members. -/
@[simp]
theorem mem_tags_iff {s : PropertySet} {tag : Tag} : tag ∈ s.tags ↔ s.contains tag = true := by
  rw [tags, List.mem_filter, mem_allTags_iff]
  exact ⟨And.right, fun h => ⟨inRange_of_contains h, h⟩⟩

theorem nodup_allTags : allTags.Nodup := by
  refine List.Nodup.map_on ?_ List.nodup_range
  intro i hi j hj hij
  simp only [List.mem_range, maxTag] at hi hj
  have h := congrArg UInt32.toNat hij
  rw [UInt32.toNat_ofNat_of_lt' (show i + 1 < 2 ^ 32 by omega),
    UInt32.toNat_ofNat_of_lt' (show j + 1 < 2 ^ 32 by omega)] at h
  omega

/-- Walking over a set visits no member twice. -/
theorem nodup_tags (s : PropertySet) : s.tags.Nodup := nodup_allTags.filter _

/-- The only member of a singleton is its tag. -/
theorem contains_single {tag tag' : Tag} (h : InRange tag) :
    (single tag).contains tag' = decide (tag' = tag) := by
  by_cases h' : InRange tag'
  · have hlt := lt_of_inRange h'
    have hlt' := lt_of_inRange h
    have hbit : (1#32 <<< (tag.toNat - 1)).getLsbD (tag'.toNat - 1)
        = decide (tag'.toNat - 1 = tag.toNat - 1) := by
      rw [BitVec.getLsbD_shiftLeft, BitVec.getLsbD_one]
      by_cases hlow : tag'.toNat - 1 < tag.toNat - 1
      · simp [hlow, hlow.ne]
      · have : tag'.toNat - 1 - (tag.toNat - 1) = 0 ↔ tag'.toNat - 1 = tag.toNat - 1 := by omega
        simp [hlt, hlow, this]
    have hiff : tag'.toNat - 1 = tag.toNat - 1 ↔ tag' = tag := by
      rw [← UInt32.toNat_inj]
      have := h.1
      have := h'.1
      omega
    simp [contains, single, h', hbit, hiff]
  · have hne : tag' ≠ tag := fun he => h' (he ▸ h)
    simp [contains, h', hne]

/-- Adding a tag adds it if it is in range, and nothing else. -/
@[simp]
theorem contains_insert (s : PropertySet) (tag tag' : Tag) :
    (s.insert tag).contains tag' =
      (s.contains tag' || decide (InRange tag ∧ tag' = tag)) := by
  unfold insert
  split
  · rename_i h
    simp [contains_single h, h]
  · rename_i h
    simp [h]

/-- A set built from tags has those of them that are in range. -/
theorem contains_ofTags_iff {l : List Tag} {tag : Tag} :
    (ofTags l).contains tag = true ↔ InRange tag ∧ tag ∈ l := by
  have hfold : ∀ s : PropertySet, (l.foldl insert s).contains tag = true ↔
      s.contains tag = true ∨ InRange tag ∧ tag ∈ l := by
    induction l with
    | nil => simp
    | cons a rest ih =>
      intro s
      rw [List.foldl_cons, ih]
      simp only [contains_insert, Bool.or_eq_true, decide_eq_true_eq, List.mem_cons]
      constructor
      · rintro ((h | ⟨h, rfl⟩) | ⟨h, hm⟩)
        · exact .inl h
        · exact .inr ⟨h, .inl rfl⟩
        · exact .inr ⟨h, .inr hm⟩
      · rintro (h | ⟨h, rfl | hm⟩)
        · exact .inl (.inl h)
        · exact .inl (.inr ⟨h, rfl⟩)
        · exact .inr ⟨h, hm⟩
  simpa [ofTags] using hfold none

/-- Sets with the same members are equal. -/
theorem ext_contains {s t : PropertySet} (h : ∀ tag, s.contains tag = t.contains tag) : s = t := by
  cases s with
  | mk a =>
    cases t with
    | mk b =>
      congr 1
      refine BitVec.eq_of_getLsbD_eq fun i hi => ?_
      have hsmall : i + 1 < 2 ^ 32 := by omega
      have hnat : (UInt32.ofNat (i + 1)).toNat = i + 1 := UInt32.toNat_ofNat_of_lt' hsmall
      have hrange : InRange (UInt32.ofNat (i + 1)) := by
        simp only [InRange, hnat, maxTag]
        omega
      have htag := h (UInt32.ofNat (i + 1))
      simp only [contains, hnat, Nat.add_sub_cancel, decide_eq_true hrange, Bool.true_and] at htag
      exact htag

/-- A tag above the highest is in no set. -/
theorem contains_eq_false_of_lt {s : PropertySet} {tag : Tag} (h : maxTag < tag.toNat) :
    s.contains tag = false :=
  Bool.eq_false_iff.2 fun hmem => absurd (inRange_of_contains hmem).2 (Nat.not_le.2 h)

/-- What is in one of two disjoint sets is not in the other. -/
theorem contains_eq_false_of_disjoint {s t : PropertySet} {tag : Tag} (h : s ∩ t = none)
    (hs : s.contains tag = true) : t.contains tag = false := by
  have hboth : (s ∩ t).contains tag = false := by rw [h, contains_none]
  rwa [contains_inter, hs, Bool.true_and] at hboth

theorem union_self (s : PropertySet) : s ∪ s = s :=
  ext_contains fun tag => by rw [contains_union, Bool.or_self]

end ObjectBus.PropertySet
