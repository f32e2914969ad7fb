/-!
# Property sets

A property of an object is known by its tag. Types number their properties from 1 to 32, so a
set of properties is a word of thirty-two bits, bit `tag - 1` for each member.

The view of a set is `contains`, which the set operations turn into the connectives.
-/

namespace ObjectBus

/-- The number of a property within its type. -/
abbrev Tag := UInt32

/-- The highest tag a type may give to a property. -/
def maxTag : Nat := 32

/-- A set of tags from 1 to 32. -/
structure PropertySet where
  /-- Bit `tag - 1` is set for each member. -/
  bits : BitVec 32
deriving DecidableEq

namespace PropertySet

/-- The set without members. -/
def none : PropertySet := ⟨0#32⟩

/-- The set of all thirty-two tags. -/
def all : PropertySet := ⟨BitVec.allOnes 32⟩

instance : Inhabited PropertySet := ⟨none⟩

/-- Whether a tag can be a member at all. -/
def InRange (tag : Tag) : Prop := 1 ≤ tag.toNat ∧ tag.toNat ≤ maxTag

instance (tag : Tag) : Decidable (InRange tag) := by
  unfold InRange
  infer_instance

/-- The set whose only member is the given tag, which is in range. -/
def single (tag : Tag) : PropertySet := ⟨1#32 <<< (tag.toNat - 1)⟩

/-- Whether a tag is a member. -/
def contains (s : PropertySet) (tag : Tag) : Bool :=
  decide (InRange tag) && s.bits.getLsbD (tag.toNat - 1)

/-- The members of either set. -/
def union (s t : PropertySet) : PropertySet := ⟨s.bits ||| t.bits⟩

/-- The members of both sets. -/
def inter (s t : PropertySet) : PropertySet := ⟨s.bits &&& t.bits⟩

/-- The members of the first set that are not in the second. -/
def diff (s t : PropertySet) : PropertySet := ⟨s.bits &&& ~~~t.bits⟩

instance : Union PropertySet := ⟨union⟩

instance : Inter PropertySet := ⟨inter⟩

instance : SDiff PropertySet := ⟨diff⟩

/-- Add a tag; a tag out of range changes nothing. -/
def insert (s : PropertySet) (tag : Tag) : PropertySet :=
  if InRange tag then s ∪ single tag else s

/-- Take a tag out. -/
def erase (s : PropertySet) (tag : Tag) : PropertySet :=
  if InRange tag then s \ single tag else s

/-- The set of those of the given tags that are in range. -/
def ofTags (tags : List Tag) : PropertySet := tags.foldl insert none

/-- Whether the set has no members. -/
def isEmpty (s : PropertySet) : Bool := s.bits = 0#32

/-- Whether every member is also a member of `t`. -/
def isSubsetOf (s t : PropertySet) : Bool := (s \ t).isEmpty

/-- All tags that can be members, in ascending order. -/
def allTags : List Tag := (List.range maxTag).map fun i => UInt32.ofNat (i + 1)

/-- The members in ascending order. -/
def tags (s : PropertySet) : List Tag := allTags.filter s.contains

/-- How many members the set has. -/
def size (s : PropertySet) : Nat := s.tags.length

/-- The members between braces, for people. -/
def text (s : PropertySet) : String :=
  "\x7b" ++ ",".intercalate (s.tags.map fun tag => toString tag.toNat) ++ "\x7d"

/-! ## The view of each operation -/

@[simp]
theorem contains_none (tag : Tag) : none.contains tag = false := by
  simp [contains, none]

@[simp]
theorem contains_union (s t : PropertySet) (tag : Tag) :
    (s ∪ t).contains tag = (s.contains tag || t.contains tag) := by
  change (union s t).contains tag = _
  simp [contains, union, Bool.and_or_distrib_left]

@[simp]
theorem contains_inter (s t : PropertySet) (tag : Tag) :
    (s ∩ t).contains tag = (s.contains tag && t.contains tag) := by
  change (inter s t).contains tag = _
  simp only [contains, inter, BitVec.getLsbD_and]
  cases decide (InRange tag) <;> simp

theorem lt_of_inRange {tag : Tag} (h : InRange tag) : tag.toNat - 1 < 32 := by
  have := h.2
  have := h.1
  simp only [maxTag] at *
  omega

@[simp]
theorem contains_diff (s t : PropertySet) (tag : Tag) :
    (s \ t).contains tag = (s.contains tag && !t.contains tag) := by
  change (diff s t).contains tag = _
  by_cases h : InRange tag
  · simp [contains, diff, h, lt_of_inRange h]
  · simp [contains, h]

/-- Only tags in range are members. -/
theorem inRange_of_contains {s : PropertySet} {tag : Tag} (h : s.contains tag = true) :
    InRange tag := by
  simp only [contains, Bool.and_eq_true, decide_eq_true_eq] at h
  exact h.1

end PropertySet

end ObjectBus
