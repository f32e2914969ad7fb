/-!
# Sorted maps

A finite map kept as the list of its bindings in strictly ascending key order. Because the
order is part of the type, two maps with the same bindings are the same value, and walking a
map always visits its keys in ascending order.

The view of a map is `find?`: each operation has one lemma that says what it does to `find?`,
and `ext` says that this view determines the map.
-/

namespace ObjectBus

/-- The laws that make the `<` of a type fit for the keys of a sorted map: a strict linear
order. -/
class SortKey (κ : Type) [LT κ] : Prop where
  /-- No key is below itself. -/
  lt_irrefl : ∀ a : κ, ¬a < a
  /-- The order is transitive. -/
  lt_trans : ∀ {a b c : κ}, a < b → b < c → a < c
  /-- Two keys that are not ordered either way are equal. -/
  eq_of_not_lt : ∀ {a b : κ}, ¬a < b → ¬b < a → a = b

instance : SortKey UInt32 where
  lt_irrefl _ := Std.lt_irrefl
  lt_trans := Std.lt_trans
  eq_of_not_lt h₁ h₂ := Std.le_antisymm (Std.not_lt.1 h₂) (Std.not_lt.1 h₁)

instance : SortKey String where
  lt_irrefl _ := Std.lt_irrefl
  lt_trans := Std.lt_trans
  eq_of_not_lt h₁ h₂ := Std.le_antisymm (Std.not_lt.1 h₂) (Std.not_lt.1 h₁)

/-- A finite map from `κ` to `α` with its bindings in ascending key order. -/
structure SortedMap (κ α : Type) [LT κ] where
  /-- The bindings, in ascending key order. -/
  toList : List (κ × α)
  /-- Keys ascend strictly, so none occurs twice. -/
  sorted : toList.Pairwise (fun x y => x.1 < y.1)
deriving DecidableEq

namespace SortedMap

variable {κ α β : Type}

/-! ## Ascending lists of bindings -/

section Find

variable [DecidableEq κ]

/-- The value that the first binding of `k` holds. -/
def findBinding (k : κ) : List (κ × α) → Option α
  | [] => none
  | b :: rest => if k = b.1 then some b.2 else findBinding k rest

theorem findBinding_filter (p : κ → Bool) (k : κ) (l : List (κ × α)) :
    findBinding k (l.filter (fun b => p b.1)) = if p k then findBinding k l else none := by
  induction l with
  | nil => simp [findBinding]
  | cons b rest ih =>
    by_cases hp : p b.1 = true
    · simp only [List.filter_cons, hp, if_true, findBinding, ih]
      by_cases h : k = b.1 <;> simp [h, hp]
    · simp only [List.filter_cons, hp, Bool.false_eq_true, if_false, findBinding, ih]
      by_cases h : k = b.1 <;> simp [h, hp]

theorem findBinding_map (f : κ → α → β) (k : κ) (l : List (κ × α)) :
    findBinding k (l.map (fun b => (b.1, f b.1 b.2))) = (findBinding k l).map (f k) := by
  induction l with
  | nil => simp [findBinding]
  | cons b rest ih =>
    by_cases h : k = b.1
    · subst h
      simp [findBinding]
    · simp [findBinding, h, ih]

variable [LT κ] [SortKey κ]

theorem findBinding_eq_none_of_forall_lt {k : κ} {l : List (κ × α)}
    (h : ∀ x ∈ l, k < x.1) : findBinding k l = none := by
  induction l with
  | nil => rfl
  | cons b rest ih =>
    have hne : k ≠ b.1 := by
      intro he
      have := h b List.mem_cons_self
      rw [he] at this
      exact SortKey.lt_irrefl _ this
    simp [findBinding, hne, ih fun x hx => h x (List.mem_cons_of_mem _ hx)]

theorem findBinding_eq_some_iff {l : List (κ × α)}
    (h : l.Pairwise (fun x y => x.1 < y.1)) {k : κ} {a : α} :
    findBinding k l = some a ↔ (k, a) ∈ l := by
  induction l with
  | nil => simp [findBinding]
  | cons b rest ih =>
    have hb := List.pairwise_cons.1 h
    by_cases he : k = b.1
    · subst he
      simp only [findBinding, if_true, Option.some.injEq, List.mem_cons]
      constructor
      · rintro rfl
        exact .inl rfl
      · rintro (hx | hx)
        · rw [← hx]
        · exact absurd (hb.1 _ hx) (SortKey.lt_irrefl _)
    · simp only [findBinding, he, if_false, List.mem_cons, ih hb.2]
      constructor
      · exact .inr
      · rintro (hx | hx)
        · exact absurd (by rw [← hx]) he
        · exact hx

theorem ext_bindings {l₁ l₂ : List (κ × α)}
    (h₁ : l₁.Pairwise (fun x y => x.1 < y.1)) (h₂ : l₂.Pairwise (fun x y => x.1 < y.1))
    (h : ∀ k, findBinding k l₁ = findBinding k l₂) : l₁ = l₂ := by
  induction l₁ generalizing l₂ with
  | nil =>
    cases l₂ with
    | nil => rfl
    | cons c rest =>
      have := h c.1
      simp [findBinding] at this
  | cons b rest₁ ih =>
    cases l₂ with
    | nil =>
      have := h b.1
      simp [findBinding] at this
    | cons c rest₂ =>
      have hb := List.pairwise_cons.1 h₁
      have hc := List.pairwise_cons.1 h₂
      have hkey : b.1 = c.1 := by
        have memb : (b.1, b.2) ∈ c :: rest₂ :=
          (findBinding_eq_some_iff h₂).1 (by rw [← h b.1]; simp [findBinding])
        have memc : (c.1, c.2) ∈ b :: rest₁ :=
          (findBinding_eq_some_iff h₁).1 (by rw [h c.1]; simp [findBinding])
        rcases List.mem_cons.1 memb with hx | hx
        · exact congrArg Prod.fst hx
        · rcases List.mem_cons.1 memc with hy | hy
          · exact (congrArg Prod.fst hy).symm
          · exact absurd (SortKey.lt_trans (hb.1 _ hy) (hc.1 _ hx)) (SortKey.lt_irrefl _)
      have hval : b.2 = c.2 := by
        have := h b.1
        simpa [findBinding, hkey] using this
      have hrest : rest₁ = rest₂ := by
        refine ih hb.2 hc.2 fun k => ?_
        by_cases hk : k = b.1
        · subst hk
          rw [findBinding_eq_none_of_forall_lt hb.1,
            findBinding_eq_none_of_forall_lt (hkey ▸ hc.1)]
        · have := h k
          simpa [findBinding, hk, hkey ▸ hk] using this
      rw [hrest, show b = c from Prod.ext hkey hval]

end Find

section Insert

variable [LT κ] [DecidableLT κ] [DecidableEq κ]

/-- Bind `k` to `a` in an ascending list, replacing an older binding of `k`. -/
def insertBinding (k : κ) (a : α) : List (κ × α) → List (κ × α)
  | [] => [(k, a)]
  | b :: rest =>
    if k < b.1 then (k, a) :: b :: rest
    else if k = b.1 then (k, a) :: rest
    else b :: insertBinding k a rest

theorem mem_insertBinding {k : κ} {a : α} {l : List (κ × α)} {x : κ × α}
    (h : x ∈ insertBinding k a l) : x = (k, a) ∨ x ∈ l := by
  induction l with
  | nil => simpa [insertBinding] using h
  | cons b rest ih =>
    unfold insertBinding at h
    split at h
    · simpa using h
    · split at h
      · rcases List.mem_cons.1 h with h | h
        · exact .inl h
        · exact .inr (List.mem_cons_of_mem _ h)
      · rcases List.mem_cons.1 h with h | h
        · exact .inr (h ▸ List.mem_cons_self)
        · rcases ih h with h | h
          · exact .inl h
          · exact .inr (List.mem_cons_of_mem _ h)

theorem pairwise_insertBinding [SortKey κ] (k : κ) (a : α) {l : List (κ × α)}
    (h : l.Pairwise (fun x y => x.1 < y.1)) :
    (insertBinding k a l).Pairwise (fun x y => x.1 < y.1) := by
  induction l with
  | nil => simp [insertBinding]
  | cons b rest ih =>
    have hb := List.pairwise_cons.1 h
    unfold insertBinding
    split
    · rename_i hk
      refine List.pairwise_cons.2 ⟨fun x hx => ?_, h⟩
      rcases List.mem_cons.1 hx with rfl | hx
      · exact hk
      · exact SortKey.lt_trans hk (hb.1 x hx)
    · rename_i hk
      split
      · rename_i he
        exact List.pairwise_cons.2 ⟨fun x hx => he ▸ hb.1 x hx, hb.2⟩
      · rename_i he
        refine List.pairwise_cons.2 ⟨fun x hx => ?_, ih hb.2⟩
        rcases mem_insertBinding hx with rfl | hx
        · by_cases hlt : b.1 < k
          · exact hlt
          · exact absurd (SortKey.eq_of_not_lt hk hlt) he
        · exact hb.1 x hx

theorem findBinding_insertBinding (k k' : κ) (a : α) (l : List (κ × α)) :
    findBinding k' (insertBinding k a l) = if k' = k then some a else findBinding k' l := by
  induction l with
  | nil => simp [insertBinding, findBinding]
  | cons b rest ih =>
    unfold insertBinding
    split
    · simp [findBinding]
    · split
      · rename_i he
        subst he
        by_cases h : k' = b.1 <;> simp [findBinding, h]
      · rename_i he
        by_cases h : k' = b.1
        · subst h
          simp [findBinding, Ne.symm he]
        · simp [findBinding, h, ih]

end Insert

/-! ## The map type -/

section Operations

variable [LT κ]

/-- The map without bindings. -/
def empty : SortedMap κ α := ⟨[], .nil⟩

instance : EmptyCollection (SortedMap κ α) := ⟨empty⟩

instance : Inhabited (SortedMap κ α) := ⟨empty⟩

/-- The keys in ascending order. -/
def keys (m : SortedMap κ α) : List κ := m.toList.map (·.1)

/-- The values in the order of their keys. -/
def values (m : SortedMap κ α) : List α := m.toList.map (·.2)

/-- How many keys are bound. -/
def size (m : SortedMap κ α) : Nat := m.toList.length

/-- Whether no key is bound. -/
def isEmpty (m : SortedMap κ α) : Bool := m.toList.isEmpty

/-- Keep the bindings whose key satisfies `p`. -/
def filterKeys (m : SortedMap κ α) (p : κ → Bool) : SortedMap κ α :=
  ⟨m.toList.filter (fun b => p b.1), m.sorted.filter _⟩

/-- Apply `f` to every value, with its key. -/
def map (m : SortedMap κ α) (f : κ → α → β) : SortedMap κ β :=
  ⟨m.toList.map (fun b => (b.1, f b.1 b.2)), by
    simpa [List.pairwise_map] using m.sorted⟩

variable [DecidableEq κ]

/-- The value bound to `k`, if any. -/
def find? (m : SortedMap κ α) (k : κ) : Option α := findBinding k m.toList

/-- Whether `k` is bound. -/
def contains (m : SortedMap κ α) (k : κ) : Bool := (m.find? k).isSome

/-- Remove the binding of `k`. -/
def erase (m : SortedMap κ α) (k : κ) : SortedMap κ α := m.filterKeys (fun x => decide (x ≠ k))

/-- Change the value bound to `k`, if there is one. -/
def modify (m : SortedMap κ α) (k : κ) (f : α → α) : SortedMap κ α :=
  m.map (fun x a => if x = k then f a else a)

section Insert

variable [DecidableLT κ] [SortKey κ]

/-- Bind `k` to `a`, replacing an older binding of `k`. -/
def insert (m : SortedMap κ α) (k : κ) (a : α) : SortedMap κ α :=
  ⟨insertBinding k a m.toList, pairwise_insertBinding k a m.sorted⟩

/-- The map with the given bindings; of two bindings of one key the later one counts. -/
def ofList (l : List (κ × α)) : SortedMap κ α :=
  l.foldl (fun m b => m.insert b.1 b.2) empty

end Insert

/-! ## The view of each operation -/

/-- Maps that answer every look-up alike are equal. -/
theorem ext [SortKey κ] {m₁ m₂ : SortedMap κ α} (h : ∀ k, m₁.find? k = m₂.find? k) : m₁ = m₂ := by
  cases m₁ with
  | mk l₁ h₁ =>
    cases m₂ with
    | mk l₂ h₂ =>
      have : l₁ = l₂ := ext_bindings h₁ h₂ h
      subst this
      rfl

/-- A look-up succeeds exactly on the bindings of the map. -/
theorem find?_eq_some_iff [SortKey κ] {m : SortedMap κ α} {k : κ} {a : α} :
    m.find? k = some a ↔ (k, a) ∈ m.toList :=
  findBinding_eq_some_iff m.sorted

@[simp]
theorem find?_empty (k : κ) : (empty : SortedMap κ α).find? k = none := rfl

@[simp]
theorem find?_insert [DecidableLT κ] [SortKey κ] (m : SortedMap κ α) (k k' : κ) (a : α) :
    (m.insert k a).find? k' = if k' = k then some a else m.find? k' :=
  findBinding_insertBinding k k' a m.toList

@[simp]
theorem find?_filterKeys (m : SortedMap κ α) (p : κ → Bool) (k : κ) :
    (m.filterKeys p).find? k = if p k then m.find? k else none :=
  findBinding_filter p k m.toList

@[simp]
theorem find?_erase (m : SortedMap κ α) (k k' : κ) :
    (m.erase k).find? k' = if k' = k then none else m.find? k' := by
  by_cases h : k' = k <;> simp [erase, h]

@[simp]
theorem find?_map (m : SortedMap κ α) (f : κ → α → β) (k : κ) :
    (m.map f).find? k = (m.find? k).map (f k) :=
  findBinding_map f k m.toList

@[simp]
theorem find?_modify (m : SortedMap κ α) (k k' : κ) (f : α → α) :
    (m.modify k f).find? k' = if k' = k then (m.find? k').map f else m.find? k' := by
  by_cases h : k' = k
  · subst h
    simp [modify]
  · simp [modify, h]

end Operations

end SortedMap

end ObjectBus
