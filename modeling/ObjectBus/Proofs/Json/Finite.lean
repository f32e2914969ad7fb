import ObjectBus.Json.Tree
import ObjectBus.Proofs.Number.Binary64
import ObjectBus.Proofs.SortedMap

/-!
# JSON has finite numbers only

A JSON text has no way to write an infinity or what is no number, and a number that is too large for
a double is refused. So all numbers in what is read are finite.

* `JsonNumber.isFinite`, `Json.isFinite`: the numbers and the values that JSON has;
* `Numeral.isFinite_of_scaled?`: a whole number times a power of ten, as the reader computes it;
* `Numeral.isFinite_of_toNumber?`: every number that is read;
* `Json.isFinite_of_ofText?`: every value that is read.
-/

namespace ObjectBus

/-- Whether JSON has the number. It has no infinities and nothing that is no number. -/
def JsonNumber.isFinite : JsonNumber → Bool
  | natural _ => true
  | negative _ => true
  | float x => x.isFinite

/-- Every number stands for a finite double. -/
theorem JsonNumber.isFinite_asBinary64 {n : JsonNumber} (h : n.isFinite = true) :
    n.asBinary64.isFinite = true := by
  cases n with
  | natural n => exact Binary64.isFinite_ofWord false n.toNat_lt
  | negative n =>
    have hlow := n.le_toInt
    have hhigh := n.toInt_lt
    exact Binary64.isFinite_ofWord true (by omega)
  | float x => exact h

namespace Json

mutual

/-- Whether JSON has the value: all numbers in it are finite. -/
def isFinite : Json → Bool
  | null => true
  | bool _ => true
  | number n => n.isFinite
  | string _ => true
  | array items => allFinite items
  | object members => membersFinite members

/-- Whether JSON has the items of an array. -/
def allFinite : List Json → Bool
  | [] => true
  | j :: rest => j.isFinite && allFinite rest

/-- Whether JSON has the members of an object. -/
def membersFinite : List (String × Json) → Bool
  | [] => true
  | (_, j) :: rest => j.isFinite && membersFinite rest

end

theorem allFinite_iff {items : List Json} :
    allFinite items = true ↔ ∀ j ∈ items, j.isFinite = true := by
  induction items with
  | nil => simp [allFinite]
  | cons j rest ih => simp [allFinite, ih]

theorem membersFinite_iff {members : List (String × Json)} :
    membersFinite members = true ↔ ∀ m ∈ members, m.2.isFinite = true := by
  induction members with
  | nil => simp [membersFinite]
  | cons m rest ih => simp [membersFinite, ih]

/-- The members of an object that this library builds are the bindings of a sorted map. -/
theorem ofMembers_eq (members : List (String × Json)) :
    ofMembers members = .object (SortedMap.ofList members).toList := by
  have hfold : ∀ m : SortedMap String Json,
      members.foldl (fun l b => SortedMap.insertBinding b.1 b.2 l) m.toList =
        (members.foldl (fun m b => m.insert b.1 b.2) m).toList := by
    induction members with
    | nil => exact fun m => rfl
    | cons b rest ih => exact fun m => ih (m.insert b.1 b.2)
  exact congrArg object (hfold .empty)

/-- It has no other members than it was given. -/
theorem isFinite_ofMembers {members : List (String × Json)}
    (h : membersFinite members = true) : (ofMembers members).isFinite = true := by
  rw [ofMembers_eq, isFinite, membersFinite_iff]
  rintro ⟨name, j⟩ hm
  have hfind := SortedMap.find?_eq_some_iff.2 hm
  exact membersFinite_iff.1 h _ (SortedMap.mem_of_find?_ofList hfind)

end Json

/-! ## Numbers -/

namespace Numeral

variable {n e : Nat} {x : Binary64}

/-- What is absorbed fits a word. -/
theorem absorb_lt (hn : n < 2 ^ 64) (digits : List Nat) : (absorb n digits).1 < 2 ^ 64 := by
  induction digits generalizing n with
  | nil => exact hn
  | cons d rest ih =>
    unfold absorb
    split
    · rename_i hfits
      exact ih hfits
    · exact hn

theorem isFinite_div_tens (hx : x.isFinite = true) (he : 0 < e) :
    (x.div (Binary64.ofNat (Nat.pow 10 e))).isFinite = true := by
  have htwo : 2 ≤ Nat.pow 10 e :=
    calc 2 ≤ 10 ^ 1 := by decide
      _ ≤ 10 ^ e := Nat.pow_le_pow_right (by decide) he
  exact Binary64.isFinite_div hx (Binary64.two_le_toRatio (Binary64.le_exponentBits_ofNat htwo))

theorem isFinite_divideByTens (hx : x.isFinite = true) (he : 0 < e) :
    (divideByTens x e).isFinite = true := by
  fun_induction divideByTens x e with
  | case1 x e hsmall => exact isFinite_div_tens hx he
  | case2 => exact hx
  | case3 x e hlarge hnonzero ih =>
    refine ih ?_ (by omega)
    generalize hstep : 308 = step
    exact isFinite_div_tens hx (by omega)

theorem isFinite_of_scaled? (hn : n < 2 ^ 64) {e : Int} (h : scaled? n e = some x) :
    x.isFinite = true := by
  have hwhole : (Binary64.ofNat n).isFinite = true := Binary64.isFinite_ofWord false hn
  unfold scaled? at h
  simp only at h
  split at h
  · split at h
    · split at h
      · obtain rfl := Option.some.inj h
        exact hwhole
      · cases h
    · split at h
      · cases h
      · rename_i hnot
        obtain rfl := Option.some.inj h
        exact Binary64.isFinite_ofRatio_of_not_isInfinite (Bool.eq_false_iff.2 hnot)
  · obtain rfl := Option.some.inj h
    exact isFinite_divideByTens hwhole (by omega)

/-- Whatever is read of a numeral is finite. -/
theorem isFinite_of_toNumber? {m : Numeral} {number : JsonNumber}
    (h : m.toNumber? = some number) : number.isFinite = true := by
  have hwhole : (absorb 0 m.whole).1 < 2 ^ 64 := absorb_lt (by decide) _
  -- What is computed with doubles is finite before it is given its sign.
  have hfloat : ∀ {significand : Nat} {e : Int}, significand < 2 ^ 64 →
      (scaled? significand e).map (fun x => JsonNumber.float (if m.negative then x.neg else x)) =
        some number → number.isFinite = true := by
    intro significand e hsignificand hscaled
    obtain ⟨x, hx, rfl⟩ := Option.map_eq_some_iff.1 hscaled
    have hfinite := isFinite_of_scaled? hsignificand hx
    show (if m.negative then x.neg else x).isFinite = true
    split
    · rwa [Binary64.isFinite_neg]
    · exact hfinite
  unfold toNumber? at h
  simp only at h
  split at h
  · split at h
    · exact hfloat hwhole h
    · split at h
      · obtain rfl := Option.some.inj h
        rfl
      · split at h
        · obtain rfl := Option.some.inj h
          show (Binary64.neg _).isFinite = true
          rw [Binary64.isFinite_neg]
          exact Binary64.isFinite_ofWord false hwhole
        · obtain rfl := Option.some.inj h
          rfl
  · split at h
    · exact hfloat (absorb_lt hwhole _) h
    · split at h
      · exact hfloat (absorb_lt hwhole _) h
      · split at h
        · cases h
        · obtain rfl := Option.some.inj h
          exact Binary64.isFinite_ofMagnitude _ (by decide)

end Numeral

/-! ## Values -/

namespace Json

mutual

/-- Whatever is read of a tree is finite. -/
theorem isFinite_of_ofTree? {depth : Nat} {t : Tree} {j : Json} (h : ofTree? depth t = some j) :
    j.isFinite = true := by
  cases t with
  | null | bool =>
    obtain rfl := Option.some.inj h
    rfl
  | number n =>
    obtain ⟨number, hnumber, rfl⟩ := Option.map_eq_some_iff.1 h
    exact Numeral.isFinite_of_toNumber? hnumber
  | string s =>
    obtain ⟨text, -, rfl⟩ := Option.map_eq_some_iff.1 h
    rfl
  | array items =>
    rw [ofTree?] at h
    split at h
    · cases h
    · obtain ⟨values, hvalues, rfl⟩ := Option.map_eq_some_iff.1 h
      exact allFinite_of_ofTrees? hvalues
  | object members =>
    rw [ofTree?] at h
    split at h
    · cases h
    · obtain ⟨pairs, hpairs, rfl⟩ := Option.map_eq_some_iff.1 h
      exact isFinite_ofMembers (membersFinite_of_ofPairs? hpairs)

theorem allFinite_of_ofTrees? {depth : Nat} {items : List Tree} {values : List Json}
    (h : ofTrees? depth items = some values) : allFinite values = true := by
  cases items with
  | nil =>
    obtain rfl := Option.some.inj h
    rfl
  | cons t rest =>
    rw [ofTrees?] at h
    split at h
    · cases h
    · rename_i j hj
      obtain ⟨others, hothers, rfl⟩ := Option.map_eq_some_iff.1 h
      rw [allFinite, isFinite_of_ofTree? hj, allFinite_of_ofTrees? hothers, Bool.and_true]

theorem membersFinite_of_ofPairs? {depth : Nat} {members : List (Option String × Tree)}
    {pairs : List (String × Json)} (h : ofPairs? depth members = some pairs) :
    membersFinite pairs = true := by
  cases members with
  | nil =>
    obtain rfl := Option.some.inj h
    rfl
  | cons member rest =>
    obtain ⟨key, t⟩ := member
    unfold ofPairs? at h
    split at h
    · rename_i name j hj
      obtain ⟨others, hothers, rfl⟩ := Option.map_eq_some_iff.1 h
      rw [membersFinite, isFinite_of_ofTree? hj, membersFinite_of_ofPairs? hothers, Bool.and_true]
    · cases h

end

/-- Whatever is read of a text is finite. -/
theorem isFinite_of_ofText? {text : String} {j : Json} (h : ofText? text = some j) :
    j.isFinite = true := by
  obtain ⟨t, -, hj⟩ := Option.bind_eq_some_iff.1 h
  exact isFinite_of_ofTree? hj

end Json

end ObjectBus
