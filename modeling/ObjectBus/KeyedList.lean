/-!
# Keyed lists

A finite map for keys that can be compared for equality but have no order of their own, such
as the key of a cached object. The bindings stand in the order in which their keys were first
bound; nothing else depends on that order.

The view of a keyed list is `find?`, with one lemma for each operation.
-/

namespace ObjectBus

/-- A finite map from `κ` to `α` as a list of bindings in which no key occurs twice. -/
structure KeyedList (κ α : Type) where
  /-- The bindings, the longest bound key first. -/
  toList : List (κ × α)
  /-- No key is bound twice. -/
  nodup : (toList.map (·.1)).Nodup

namespace KeyedList

variable {κ α : Type} [DecidableEq κ]

/-- The value that the first binding of `k` in a list holds. -/
def lookup (k : κ) : List (κ × α) → Option α
  | [] => none
  | b :: rest => if k = b.1 then some b.2 else lookup k rest

/-- Bind `k` to `a` in a list, in the place of an older binding or else at the end. -/
def assign (k : κ) (a : α) : List (κ × α) → List (κ × α)
  | [] => [(k, a)]
  | b :: rest => if k = b.1 then (k, a) :: rest else b :: assign k a rest

theorem map_fst_assign (k : κ) (a : α) (l : List (κ × α)) :
    (assign k a l).map (·.1) = if k ∈ l.map (·.1) then l.map (·.1) else l.map (·.1) ++ [k] := by
  induction l with
  | nil => simp [assign]
  | cons b rest ih =>
    by_cases h : k = b.1
    · subst h
      simp [assign]
    · have hiff : k ∈ (b :: rest).map (·.1) ↔ k ∈ rest.map (·.1) := by simp [h]
      simp only [assign, h, if_false, List.map_cons, ih]
      by_cases hm : k ∈ rest.map (·.1)
      · rw [if_pos hm, if_pos (by simpa using Or.inr (by simpa using hm))]
      · rw [if_neg hm, if_neg (by simpa [h] using hm)]
        rfl

theorem nodup_assign (k : κ) (a : α) {l : List (κ × α)} (h : (l.map (·.1)).Nodup) :
    ((assign k a l).map (·.1)).Nodup := by
  rw [map_fst_assign]
  split
  · exact h
  · rename_i hk
    exact List.nodup_append.2 ⟨h, by simp, by
      intro x hx y hy
      rw [List.mem_singleton.1 hy]
      rintro rfl
      exact hk hx⟩

theorem lookup_assign (k k' : κ) (a : α) (l : List (κ × α)) :
    lookup k' (assign k a l) = if k' = k then some a else lookup k' l := by
  induction l with
  | nil => simp [assign, lookup]
  | cons b rest ih =>
    by_cases h : k = b.1
    · subst h
      by_cases h' : k' = b.1 <;> simp [assign, lookup, h']
    · by_cases h' : k' = b.1
      · subst h'
        simp [assign, lookup, h, Ne.symm h]
      · simp [assign, lookup, h, h', ih]

theorem lookup_filter_ne (k k' : κ) (l : List (κ × α)) :
    lookup k' (l.filter (fun b => decide (b.1 ≠ k))) = if k' = k then none else lookup k' l := by
  induction l with
  | nil => simp [lookup]
  | cons b rest ih =>
    by_cases hb : b.1 = k
    · simp only [hb, ne_eq, not_true_eq_false, decide_false, Bool.false_eq_true, not_false_iff,
        List.filter_cons_of_neg, ih, lookup]
      by_cases h : k' = k <;> simp [h]
    · simp only [ne_eq, hb, not_false_eq_true, decide_true, List.filter_cons_of_pos, lookup, ih]
      by_cases h : k' = k
      · subst h
        simp [Ne.symm hb]
      · simp [h]

theorem lookup_eq_some_iff {l : List (κ × α)} (h : (l.map (·.1)).Nodup) {k : κ} {a : α} :
    lookup k l = some a ↔ (k, a) ∈ l := by
  induction l with
  | nil => simp [lookup]
  | cons b rest ih =>
    have hb := List.nodup_cons.1 (List.map_cons ▸ h)
    by_cases he : k = b.1
    · subst he
      simp only [lookup, if_true, Option.some.injEq, List.mem_cons]
      constructor
      · rintro rfl
        exact .inl rfl
      · rintro (hx | hx)
        · rw [← hx]
        · exact absurd (List.mem_map.2 ⟨_, hx, rfl⟩) hb.1
    · simp only [lookup, he, if_false, List.mem_cons, ih hb.2]
      constructor
      · exact .inr
      · rintro (hx | hx)
        · exact absurd (by rw [← hx]) he
        · exact hx

/-- The keyed list without bindings. -/
def empty : KeyedList κ α := ⟨[], by simp⟩

instance : Inhabited (KeyedList κ α) := ⟨empty⟩

/-- The value bound to `k`, if any. -/
def find? (m : KeyedList κ α) (k : κ) : Option α := lookup k m.toList

/-- Bind `k` to `a`, replacing an older binding of `k`. -/
def insert (m : KeyedList κ α) (k : κ) (a : α) : KeyedList κ α :=
  ⟨assign k a m.toList, nodup_assign k a m.nodup⟩

/-- Remove the binding of `k`. -/
def erase (m : KeyedList κ α) (k : κ) : KeyedList κ α :=
  ⟨m.toList.filter (fun b => decide (b.1 ≠ k)),
    m.nodup.sublist (List.filter_sublist.map _)⟩

/-- The keys, the longest bound first. -/
def keys (m : KeyedList κ α) : List κ := m.toList.map (·.1)

/-- The values, that of the longest bound key first. -/
def values (m : KeyedList κ α) : List α := m.toList.map (·.2)

/-- How many keys are bound. -/
def size (m : KeyedList κ α) : Nat := m.toList.length

/-- Whether no key is bound. -/
def isEmpty (m : KeyedList κ α) : Bool := m.toList.isEmpty

/-- A look-up succeeds exactly on the bindings of the list. -/
theorem find?_eq_some_iff {m : KeyedList κ α} {k : κ} {a : α} :
    m.find? k = some a ↔ (k, a) ∈ m.toList :=
  lookup_eq_some_iff m.nodup

@[simp]
theorem find?_empty (k : κ) : (empty : KeyedList κ α).find? k = none := rfl

@[simp]
theorem find?_insert (m : KeyedList κ α) (k k' : κ) (a : α) :
    (m.insert k a).find? k' = if k' = k then some a else m.find? k' :=
  lookup_assign k k' a m.toList

@[simp]
theorem find?_erase (m : KeyedList κ α) (k k' : κ) :
    (m.erase k).find? k' = if k' = k then none else m.find? k' :=
  lookup_filter_ne k k' m.toList

/-- A key has at most one binding. -/
theorem filter_key (m : KeyedList κ α) (k : κ) :
    m.toList.filter (fun b => decide (b.1 = k)) = ((m.find? k).map (k, ·)).toList := by
  have hlist : ∀ l : List (κ × α), (l.map (·.1)).Nodup →
      l.filter (fun b => decide (b.1 = k)) = ((lookup k l).map (k, ·)).toList := by
    intro l hl
    induction l with
    | nil => rfl
    | cons b rest ih =>
      have hb := List.nodup_cons.1 (List.map_cons ▸ hl)
      by_cases he : k = b.1
      · -- The key is not bound again.
        have hnone : rest.filter (fun b => decide (b.1 = k)) = [] := by
          refine List.filter_eq_nil_iff.2 fun x hx => ?_
          rw [decide_eq_true_iff]
          rintro rfl
          exact hb.1 (he ▸ List.mem_map_of_mem hx)
        subst he
        simp [lookup, hnone]
      · simp [lookup, he, Ne.symm he, ih hb.2]
  exact hlist m.toList m.nodup

end KeyedList

end ObjectBus
