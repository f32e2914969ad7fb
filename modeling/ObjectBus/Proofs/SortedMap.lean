import ObjectBus.SortedMap

/-!
# Keys and values of sorted maps

The keys of a map are those that are bound, each once, and its values are what they are bound
to.
-/

namespace ObjectBus.SortedMap

variable {κ α : Type} [LT κ] [DecidableEq κ] [SortKey κ] {m : SortedMap κ α} {k : κ} {a : α}

/-- The keys of a map are those that are bound. -/
theorem mem_keys_iff : k ∈ m.keys ↔ ∃ a, m.find? k = some a := by
  simp only [keys, List.mem_map, find?_eq_some_iff]
  constructor
  · rintro ⟨⟨k, a⟩, hmem, rfl⟩
    exact ⟨a, hmem⟩
  · rintro ⟨a, hmem⟩
    exact ⟨(k, a), hmem, rfl⟩

omit [DecidableEq κ] in
/-- No key occurs twice. -/
theorem nodup_keys (m : SortedMap κ α) : m.keys.Nodup := by
  rw [keys, List.Nodup, List.pairwise_map]
  refine m.sorted.imp fun {x y} hlt heq => ?_
  rw [heq] at hlt
  exact SortKey.lt_irrefl _ hlt

/-- The values of a map are what its keys are bound to. -/
theorem mem_values_iff : a ∈ m.values ↔ ∃ k, m.find? k = some a := by
  simp only [values, List.mem_map, find?_eq_some_iff]
  constructor
  · rintro ⟨⟨k, a⟩, hmem, rfl⟩
    exact ⟨k, hmem⟩
  · rintro ⟨k, hmem⟩
    exact ⟨(k, a), hmem, rfl⟩

omit [SortKey κ] in
theorem contains_eq_true_iff : m.contains k = true ↔ ∃ a, m.find? k = some a := by
  rw [contains, Option.isSome_iff_exists]

/-- Inserting some bindings binds their keys and no others. -/
theorem find?_foldl_insert_ne_none_iff {β : Type} [DecidableLT κ] {f : β → κ} {g : β → α}
    {l : List β} : (l.foldl (fun m x => m.insert (f x) (g x)) m).find? k ≠ none ↔
      m.find? k ≠ none ∨ ∃ x ∈ l, f x = k := by
  induction l generalizing m with
  | nil => simp
  | cons x rest ih =>
    rw [List.foldl_cons, ih, find?_insert]
    by_cases hx : k = f x
    · simp [hx]
    · simp [hx, Ne.symm hx]

/-- After inserting some bindings every key is bound to what one of them says or to what it was
bound to before. -/
theorem mem_or_find?_of_foldl_insert [DecidableLT κ] {l : List (κ × α)}
    (h : (l.foldl (fun m b => m.insert b.1 b.2) m).find? k = some a) :
    (k, a) ∈ l ∨ m.find? k = some a := by
  induction l generalizing m with
  | nil => exact .inr h
  | cons b rest ih =>
    rcases ih h with hrest | hfirst
    · exact .inl (List.mem_cons_of_mem _ hrest)
    · rw [find?_insert] at hfirst
      split at hfirst
      · rename_i hk
        obtain rfl := Option.some.inj hfirst
        exact .inl (hk ▸ List.mem_cons_self)
      · exact .inr hfirst

/-- The bindings of a map that was made from some are among them. -/
theorem mem_of_find?_ofList [DecidableLT κ] {l : List (κ × α)}
    (h : (ofList l).find? k = some a) : (k, a) ∈ l := by
  rcases mem_or_find?_of_foldl_insert h with hmem | hnone
  · exact hmem
  · cases hnone

/-- Every key of the bindings from which a map was made is bound. -/
theorem find?_ofList_ne_none [DecidableLT κ] {l : List (κ × α)} (h : (k, a) ∈ l) :
    (ofList l).find? k ≠ none :=
  find?_foldl_insert_ne_none_iff.2 (.inr ⟨(k, a), h, rfl⟩)

/-- Inserting the bindings of a map, each changed in the same way, puts them in the place of what
was bound before. -/
theorem find?_foldl_insert_toList {β : Type} [DecidableLT κ] (m : SortedMap κ α) (f : α → β)
    (m₀ : SortedMap κ β) (k : κ) :
    (m.toList.foldl (fun m' x => m'.insert x.1 (f x.2)) m₀).find? k =
      ((m.find? k).map f <|> m₀.find? k) := by
  -- The keys are distinct, so none of the bindings replaces another.
  have hfold : ∀ (l : List (κ × α)) (m₀ : SortedMap κ β), l.Pairwise (fun x y => x.1 < y.1) →
      (l.foldl (fun m' x => m'.insert x.1 (f x.2)) m₀).find? k =
        ((findBinding k l).map f <|> m₀.find? k) := by
    intro l
    induction l with
    | nil => exact fun m₀ _ => rfl
    | cons x rest ih =>
      intro m₀ hsorted
      obtain ⟨hhead, hrest⟩ := List.pairwise_cons.1 hsorted
      rw [List.foldl_cons, ih _ hrest, find?_insert, findBinding]
      by_cases hk : k = x.1
      · have hnone : findBinding k rest = none :=
          findBinding_eq_none_of_forall_lt (hk ▸ hhead)
        simp [hk, hk ▸ hnone]
      · simp [hk]
  exact hfold m.toList m₀ m.sorted

/-- The bindings of a map, put in one after the other, make the map. -/
theorem ofList_toList [DecidableLT κ] (m : SortedMap κ α) : ofList m.toList = m := by
  refine ext fun k => ?_
  have h := find?_foldl_insert_toList m id empty k
  rw [find?_empty] at h
  simpa [ofList] using h

end ObjectBus.SortedMap
