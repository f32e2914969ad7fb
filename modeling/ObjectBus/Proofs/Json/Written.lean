import ObjectBus.Json.Text
import ObjectBus.Json.Tree

/-!
# JSON texts are read back

What is written of a value is read as the tree that says the same, whatever follows it. Values with
doubles in them are left out: the digits of a double are rounded when they are read.

* `Numeral.ofInteger`, `Json.tree?`: the numeral of an integer, and the tree of a value;
* `Numeral.toNumber?_natural`, `Numeral.toNumber?_negative`: numerals stand for their integers;
* `Json.Tree.readUnits_escapedChar`, `Json.Tree.readNumeral_toDigits`: texts and integers are read
  back character by character and up to the last digit;
* `Json.readValue_compact`, `Json.ofText?_text`: values are read back, nested ones too;
* `Json.le_toNat_of_mem_compact`: what is written has no control characters, so it is one line;
* `Json.IsPlain`: the values for which the tree stands in turn.
-/

namespace ObjectBus

namespace Numeral

/-! ## Integers -/

/-- The decimal digits of a number, the most significant first. -/
def digitsOf (n : Nat) : List Nat := (Nat.toDigits 10 n).map fun c => c.toNat - '0'.toNat

theorem foldl_digitsOf (n : Nat) : (digitsOf n).foldl (fun n d => 10 * n + d) 0 = n := by
  rw [digitsOf, List.foldl_map, ← Nat.ofDigitChars_eq_foldl, Nat.ofDigitChars_ten_toDigits]

theorem digitsOf_ne_nil (n : Nat) : digitsOf n ≠ [] := by
  simp [digitsOf, Nat.toDigits_ne_nil]

/-- Only zero is written with a zero in front. -/
theorem eq_zero_of_head?_digitsOf {n : Nat} (h : (digitsOf n).head? = some 0) : n = 0 := by
  induction n using Nat.strongRecOn with
  | ind n ih =>
    by_cases hsmall : n < 10
    · rw [digitsOf, Nat.toDigits_of_lt_base hsmall] at h
      simpa [Nat.toNat_digitChar_sub_48_of_lt_ten hsmall] using h
    · -- A longer number starts with the digits of its tenth.
      have hhead : (digitsOf n).head? = (digitsOf (n / 10)).head? := by
        rw [digitsOf, Nat.toDigits_of_base_le (by decide) (by omega), List.map_append, ← digitsOf,
          List.head?_append, Option.or_of_isSome (List.isSome_head?.2 (digitsOf_ne_nil _))]
      have := ih (n / 10) (by omega) (hhead ▸ h)
      omega

/-- The numeral of an integer, which has neither point nor exponent. -/
def ofInteger (negative : Bool) (n : Nat) : Numeral := ⟨negative, digitsOf n, none, none⟩

/-- Digits are absorbed for as long as what they stand for fits a word. -/
theorem absorb_eq {n : Nat} {ds : List Nat}
    (h : ds.foldl (fun n d => 10 * n + d) n < UInt64.size) :
    absorb n ds = (ds.foldl (fun n d => 10 * n + d) n, 0) := by
  have hle : ∀ (ds : List Nat) (n : Nat), n ≤ ds.foldl (fun n d => 10 * n + d) n := by
    intro ds
    induction ds with
    | nil => exact fun n => Nat.le_refl n
    | cons d rest ih => exact fun n => Nat.le_trans (by omega) (ih (10 * n + d))
  induction ds generalizing n with
  | nil => rfl
  | cons d rest ih =>
    have hfits : n * 10 + d < UInt64.size := by
      rw [Nat.mul_comm]
      exact Nat.lt_of_le_of_lt (hle rest (10 * n + d)) h
    rw [absorb, if_pos hfits, Nat.mul_comm, ih h, List.foldl_cons]

theorem toInt?_ofInteger (n : Nat) : (ofInteger false n).toInt? = some (n : Int) := by
  simp only [ofInteger, toInt?, foldl_digitsOf]
  rfl

theorem absorb_digitsOf {n : Nat} (h : n < UInt64.size) : absorb 0 (digitsOf n) = (n, 0) := by
  rw [absorb_eq (by rwa [foldl_digitsOf]), foldl_digitsOf]

theorem toNumber?_natural (n : UInt64) :
    (ofInteger false n.toNat).toNumber? = some (.natural n) := by
  simp [ofInteger, toNumber?, absorb_digitsOf n.toNat_lt]

theorem toNumber?_negative {n : Int64} (h : n < 0) :
    (ofInteger true n.toInt.natAbs).toNumber? = some (.negative n) := by
  have hneg : n.toInt < 0 := Int64.lt_iff_toInt_lt.1 h
  have hlow := n.le_toInt
  have hbound : n.toInt.natAbs ≤ 2 ^ 63 := by omega
  have habsorb := absorb_digitsOf (Nat.lt_of_le_of_lt hbound (by decide))
  have hback : -(n.toInt.natAbs : Int) = n.toInt := by omega
  have hrange : ¬(n.toInt.natAbs = 0 ∨ Nat.pow 2 63 < n.toInt.natAbs) := by
    rintro (hzero | hlarge)
    · omega
    · exact absurd hlarge (Nat.not_lt.2 hbound)
  simp only [ofInteger, toNumber?, habsorb, ne_eq, not_true_eq_false, if_false, Bool.not_true,
    Bool.false_eq_true, if_neg hrange, hback, Int64.ofInt_toInt]

end Numeral

/-- The numeral as which a number is written, unless it is a double. -/
def JsonNumber.numeral? : JsonNumber → Option Numeral
  | natural n => some (.ofInteger false n.toNat)
  | negative n => some (.ofInteger true n.toInt.natAbs)
  | float _ => none

namespace Json

open Numeral Json.Tree

mutual

/-- The tree of what is written of a value, unless there is a double in it. -/
def tree? : Json → Option Tree
  | null => some .null
  | bool b => some (.bool b)
  | number n => n.numeral?.map .number
  | string s => some (.string (some s))
  | array items => (trees? items).map .array
  | object members => (pairs? members).map .object

/-- The trees of the items of an array. -/
def trees? : List Json → Option (List Tree)
  | [] => some []
  | j :: rest =>
    match tree? j, trees? rest with
    | some t, some ts => some (t :: ts)
    | _, _ => none

/-- The trees of the members of an object, under their keys. -/
def pairs? : List (String × Json) → Option (List (Option String × Tree))
  | [] => some []
  | (key, j) :: rest =>
    match tree? j, pairs? rest with
    | some t, some ps => some ((some key, t) :: ps)
    | _, _ => none

end

theorem trees?_cons_eq_some_iff {j : Json} {rest : List Json} {ts : List Tree} :
    trees? (j :: rest) = some ts ↔
      ∃ t ts', tree? j = some t ∧ trees? rest = some ts' ∧ ts = t :: ts' := by
  rw [trees?]
  cases tree? j <;> cases trees? rest <;> simp [eq_comm]

theorem pairs?_cons_eq_some_iff {key : String} {j : Json} {rest : List (String × Json)}
    {ps : List (Option String × Tree)} :
    pairs? ((key, j) :: rest) = some ps ↔
      ∃ t ps', tree? j = some t ∧ pairs? rest = some ps' ∧ ps = (some key, t) :: ps' := by
  rw [pairs?]
  cases tree? j <;> cases pairs? rest <;> simp [eq_comm]

theorem pairs?_append_eq_some {l l' : List (String × Json)} {ps ps' : List (Option String × Tree)}
    (h : pairs? l = some ps) (h' : pairs? l' = some ps') : pairs? (l ++ l') = some (ps ++ ps') := by
  induction l generalizing ps with
  | nil =>
    obtain rfl := Option.some.inj h
    exact h'
  | cons m rest ih =>
    obtain ⟨key, j⟩ := m
    obtain ⟨t, others, ht, hothers, rfl⟩ := pairs?_cons_eq_some_iff.1 h
    exact pairs?_cons_eq_some_iff.2 ⟨t, others ++ ps', ht, ih hothers, rfl⟩

/-! ## Texts -/

namespace Tree

theorem hexValue_digitChar {n : Nat} (h : n < 16) : hexValue (Nat.digitChar n) = some n := by
  have hall : ∀ n, n < 16 → hexValue (Nat.digitChar n) = some n := by decide
  exact hall n h

/-- A character that needs no escape stands for itself. -/
theorem readUnits_of_plain {done : List Nat} {c : Char} {rest : List Char} (hquote : c ≠ '"')
    (hslash : c ≠ '\\') (hcontrol : 0x20 ≤ c.toNat) :
    readUnits done (c :: rest) = readUnits (c.toNat :: done) rest := by
  have hread : ¬(c.toNat < 0x20 ∨ c = '\\') := by
    rintro (hlow | hc)
    · omega
    · exact hslash hc
  rw [readUnits, if_neg hread]
  · exact hquote
  · exact fun _ _ _ _ _ hc => absurd hc hslash
  · exact fun _ _ hc => absurd hc hslash

/-- Each character is read back from the way it is written. -/
theorem readUnits_escapedChar (done : List Nat) (c : Char) (rest : List Char) :
    readUnits done (escapedChar c ++ rest) = readUnits (c.toNat :: done) rest := by
  unfold escapedChar
  -- Seven characters have a letter for their escape, the other controls a number.
  iterate 7
    split
    · subst_vars
      simp [readUnits, simpleEscape]
  split
  · rename_i hcontrol
    have hhigh := hexValue_digitChar (n := c.toNat / 16 % 16) (by omega)
    have hlow := hexValue_digitChar (n := c.toNat % 16) (by omega)
    have hzero : hexValue '0' = some 0 := by decide
    have hvalue : ((0 * 16 + 0) * 16 + c.toNat / 16 % 16) * 16 + c.toNat % 16 = c.toNat := by omega
    simp only [hexPair, List.cons_append, List.nil_append, readUnits, hzero, hhigh, hlow, hvalue]
  · rename_i hquote hslash _ _ _ _ _ hplain
    exact readUnits_of_plain hquote hslash (Nat.not_lt.1 hplain)

theorem readUnits_textOfString (done : List Nat) (cs rest : List Char) :
    readUnits done (cs.flatMap escapedChar ++ '"' :: rest) =
      some (done.reverse ++ cs.map Char.toNat, rest) := by
  induction cs generalizing done with
  | nil => simp [readUnits]
  | cons c cs ih =>
    rw [List.flatMap_cons, List.append_assoc, readUnits_escapedChar, ih]
    simp

/-- No character is half of a surrogate pair. -/
theorem joinUnits_map_toNat (done cs : List Char) :
    joinUnits done (cs.map Char.toNat) = some (done.reverse ++ cs) := by
  induction cs generalizing done with
  | nil => simp [joinUnits]
  | cons c cs ih =>
    have hvalid : c.toNat < 0xD800 ∨ 0xDFFF < c.toNat ∧ c.toNat < 0x110000 := c.valid
    rw [List.map_cons, joinUnits.eq_def]
    simp only
    rw [if_neg (by omega), if_neg (by omega), Char.ofNat_toNat, ih]
    simp

theorem readString_textOfString (s : String) (rest : List Char) :
    readString (s.toList.flatMap escapedChar ++ '"' :: rest) = some (some s, rest) := by
  simp [readString, readUnits_textOfString, joinUnits_map_toNat]

/-! ## Numbers -/

/-- Whether a number ends in front of a text, because nothing there can belong to it. -/
def EndsNumber (rest : List Char) : Prop :=
  ∀ c ∈ rest.head?, c.isDigit = false ∧ c ≠ '.' ∧ c ≠ 'e' ∧ c ≠ 'E'

theorem readDigits_toDigits {rest : List Char} (hrest : ∀ c ∈ rest.head?, c.isDigit = false)
    (n : Nat) : readDigits (Nat.toDigits 10 n ++ rest) = some (digitsOf n, rest) := by
  have hstop : rest.takeWhile Char.isDigit = [] := by
    cases rest with
    | nil => rfl
    | cons c _ => simp [hrest c rfl]
  have htaken : leadingDigits (Nat.toDigits 10 n ++ rest) = digitsOf n := by
    have hdigits : ∀ c ∈ Nat.toDigits 10 n, c.isDigit = true :=
      fun _ => Nat.isDigit_of_mem_toDigits (by decide) (by decide)
    rw [leadingDigits, List.takeWhile_append_of_pos hdigits, hstop, List.append_nil, digitsOf]
  have hlength : (digitsOf n).length = (Nat.toDigits 10 n).length := List.length_map _
  simp only [readDigits, htaken, List.isEmpty_iff, digitsOf_ne_nil, if_false, hlength,
    List.drop_left]

theorem readExponent_of_endsNumber {rest : List Char} (h : EndsNumber rest) :
    readExponent rest = some (none, rest) := by
  cases rest with
  | nil => rfl
  | cons c rest =>
    obtain ⟨-, -, hlower, hupper⟩ := h c rfl
    simp [readExponent, hlower, hupper]

/-- An integer is read back in front of what cannot belong to it. -/
theorem readNumeral_toDigits (negative : Bool) (n : Nat) {rest : List Char} (h : EndsNumber rest) :
    readNumeral negative (Nat.toDigits 10 n ++ rest) = some (.ofInteger negative n, rest) := by
  have hdigits := readDigits_toDigits (fun c hc => (h c hc).1) n
  -- Only zero is written with a zero in front, and it has no other digit.
  have hlead : ¬((digitsOf n).head? = some 0 ∧ 1 < (digitsOf n).length) := by
    rintro ⟨hzero, hlong⟩
    rw [eq_zero_of_head?_digitsOf hzero] at hlong
    exact absurd hlong (by decide)
  have hpoint : ∀ cs, rest ≠ '.' :: cs := by
    rintro cs rfl
    exact (h '.' rfl).2.1 rfl
  rw [readNumeral, hdigits]
  simp only [Option.bind_eq_bind, Option.bind_some, if_neg hlead]
  rw [readExponent_of_endsNumber h]
  rfl

/-! ## Values -/

/-- Nothing is skipped in front of a character that is no blank. -/
theorem skipBlanks_cons_of_visible {c : Char} (h : 0x20 < c.toNat) (cs : List Char) :
    skipBlanks (c :: cs) = c :: cs := by
  have hblank : ∀ b : Char, b.toNat ≤ 0x20 → c ≠ b := by
    rintro b hb rfl
    omega
  rw [skipBlanks, List.dropWhile_cons_of_neg]
  simp [hblank ' ' (by decide), hblank '\n' (by decide), hblank '\t' (by decide),
    hblank '\r' (by decide)]

theorem lt_toNat_of_isDigit {c : Char} (h : c.isDigit = true) : 0x20 < c.toNat := by
  simp only [Char.isDigit, Bool.and_eq_true, decide_eq_true_eq, ge_iff_le,
    UInt32.le_iff_toNat_le] at h
  exact Nat.lt_of_lt_of_le (by decide) h.1

/-- What starts with a digit is a number. -/
theorem readValue_of_isDigit {fuel : Nat} {c : Char} {cs : List Char} (h : c.isDigit = true) :
    readValue (fuel + 1) (c :: cs) =
      (readNumeral false (c :: cs)).map fun r => (.number r.1, r.2) := by
  have hother : ∀ d : Char, d.isDigit = false → c ≠ d := by
    rintro d hd rfl
    exact absurd h (Bool.eq_false_iff.1 hd)
  simp [readValue, skipBlanks_cons_of_visible (lt_toNat_of_isDigit h), hother 'n' (by decide),
    hother 't' (by decide), hother 'f' (by decide), hother '"' (by decide), hother '-' (by decide),
    hother '[' (by decide), hother '{' (by decide)]

theorem readValue_bracket {fuel : Nat} {c : Char} {cs : List Char} (hvisible : 0x20 < c.toNat)
    (hc : c ≠ ']') :
    readValue (fuel + 1) ('[' :: c :: cs) =
      (readItems fuel (c :: cs)).map fun r => (.array r.1, r.2) := by
  simp [readValue, skipBlanks_cons_of_visible (show 0x20 < '['.toNat by decide),
    skipBlanks_cons_of_visible hvisible, hc]

theorem readValue_brace (fuel : Nat) (cs : List Char) :
    readValue (fuel + 1) ('{' :: '"' :: cs) =
      (readMembers fuel ('"' :: cs)).map fun r => (.object r.1, r.2) := by
  simp [readValue, skipBlanks_cons_of_visible (show 0x20 < '{'.toNat by decide),
    skipBlanks_cons_of_visible (show 0x20 < '"'.toNat by decide)]

/-- A member in front of the closing brace is the last one. -/
theorem readMembers_last {fuel : Nat} {cs rest : List Char} {t : Tree}
    (h : readValue fuel cs = some (t, '}' :: rest)) (key : String) :
    readMembers (fuel + 1) (textOfString key ++ ':' :: cs) = some ([(some key, t)], rest) := by
  rw [textOfString, List.cons_append, List.cons_append, List.append_assoc, List.singleton_append,
    readMembers, skipBlanks_cons_of_visible (by decide)]
  simp only [readString_textOfString]
  rw [skipBlanks_cons_of_visible (by decide)]
  simp only [h]
  rw [skipBlanks_cons_of_visible (by decide)]
  rfl

/-- A member in front of a comma is followed by others. -/
theorem readMembers_more {fuel : Nat} {cs others rest : List Char} {t : Tree}
    {ps : List (Option String × Tree)} (h : readValue fuel cs = some (t, ',' :: others))
    (hothers : readMembers fuel others = some (ps, rest)) (key : String) :
    readMembers (fuel + 1) (textOfString key ++ ':' :: cs) = some ((some key, t) :: ps, rest) := by
  rw [textOfString, List.cons_append, List.cons_append, List.append_assoc, List.singleton_append,
    readMembers, skipBlanks_cons_of_visible (by decide)]
  simp only [readString_textOfString]
  rw [skipBlanks_cons_of_visible (by decide)]
  simp only [h]
  rw [skipBlanks_cons_of_visible (by decide)]
  simp only [hothers, Option.map_some]

theorem endsNumber_of_mem {c : Char} (h : c ∈ [',', ']', '}']) (rest : List Char) :
    EndsNumber (c :: rest) := by
  rintro d hd
  obtain rfl := Option.some.inj hd
  simp only [List.mem_cons, List.not_mem_nil, or_false] at h
  rcases h with rfl | rfl | rfl <;> decide

end Tree

/-- What is written of a value starts neither with a blank nor with a closing bracket. -/
theorem exists_compact_eq_cons {j : Json} {t : Tree} (h : j.tree? = some t) :
    ∃ c cs, compact j = c :: cs ∧ 0x20 < c.toNat ∧ c ≠ ']' := by
  cases j with
  | null => exact ⟨_, _, rfl, by decide, by decide⟩
  | bool b => cases b <;> exact ⟨_, _, rfl, by decide, by decide⟩
  | string s => exact ⟨_, _, rfl, by decide, by decide⟩
  | array items => exact ⟨_, _, rfl, by decide, by decide⟩
  | object members => exact ⟨_, _, rfl, by decide, by decide⟩
  | number n =>
    cases n with
    | natural n =>
      obtain ⟨c, cs, hcons⟩ :=
        List.exists_cons_of_ne_nil (show Nat.toDigits 10 n.toNat ≠ [] from Nat.toDigits_ne_nil)
      have hdigit : c.isDigit = true :=
        Nat.isDigit_of_mem_toDigits (by decide) (by decide) (hcons ▸ List.mem_cons_self)
      refine ⟨c, cs, hcons, lt_toNat_of_isDigit hdigit, ?_⟩
      rintro rfl
      exact absurd hdigit (by decide)
    | negative n => exact ⟨_, _, rfl, by decide, by decide⟩
    | float x => cases h

theorem exists_compactItems_eq_cons {items : List Json} {ts : List Tree} (hne : items ≠ [])
    (h : trees? items = some ts) :
    ∃ c cs, compactItems items = c :: cs ∧ 0x20 < c.toNat ∧ c ≠ ']' := by
  obtain ⟨j, rest, rfl⟩ := List.exists_cons_of_ne_nil hne
  obtain ⟨t, -, ht, -, -⟩ := trees?_cons_eq_some_iff.1 h
  obtain ⟨c, cs, hcons, hc⟩ := exists_compact_eq_cons ht
  cases rest with
  | nil => exact ⟨c, _, by rw [compactItems, hcons, List.cons_append], hc⟩
  | cons => exact ⟨c, _, by rw [compactItems, hcons, List.cons_append], hc⟩

theorem exists_compactMembers_eq_cons {members : List (String × Json)} (hne : members ≠ []) :
    ∃ cs, compactMembers members = '"' :: cs := by
  obtain ⟨⟨key, j⟩, rest, rfl⟩ := List.exists_cons_of_ne_nil hne
  cases rest with
  | nil => exact ⟨_, rfl⟩
  | cons => exact ⟨_, rfl⟩

mutual

/-- **A value is read back** from what is written of it, whatever follows, as the tree that says the
same. -/
theorem readValue_compact {j : Json} {t : Tree} (h : j.tree? = some t) {rest : List Char}
    (hrest : EndsNumber rest) {fuel : Nat} (hfuel : (compact j).length ≤ fuel) :
    readValue fuel (compact j ++ rest) = some (t, rest) := by
  obtain ⟨c, cs, hcons, hvisible, -⟩ := exists_compact_eq_cons h
  have hpos : 0 < (compact j).length := by rw [hcons, List.length_cons]; omega
  obtain ⟨fuel, rfl⟩ := Nat.exists_eq_add_one.2 (show 0 < fuel by omega)
  cases j with
  | null =>
    obtain rfl := Option.some.inj h
    rfl
  | bool b =>
    obtain rfl := Option.some.inj h
    cases b <;> rfl
  | string s =>
    obtain rfl := Option.some.inj h
    rw [compact, textOfString, List.cons_append, List.cons_append, List.append_assoc, readValue,
      skipBlanks_cons_of_visible (by decide)]
    simp [readString_textOfString]
  | number n =>
    obtain ⟨m, hm, rfl⟩ := Option.map_eq_some_iff.1 h
    cases n with
    | natural n =>
      obtain rfl := Option.some.inj hm
      have hread := readNumeral_toDigits false n.toNat hrest
      -- Its first digit tells it from everything else.
      have hdigits : Nat.toDigits 10 n.toNat = c :: cs := hcons
      have hdigit : c.isDigit = true :=
        Nat.isDigit_of_mem_toDigits (by decide) (by decide) (hdigits ▸ List.mem_cons_self)
      rw [hcons, List.cons_append, readValue_of_isDigit hdigit, ← List.cons_append, ← hdigits,
        hread]
      rfl
    | negative n =>
      obtain rfl := Option.some.inj hm
      have hread := readNumeral_toDigits true n.toInt.natAbs hrest
      rw [compact, textOfNumber, List.cons_append, readValue,
        skipBlanks_cons_of_visible (by decide)]
      simp [hread]
    | float x => cases hm
  | array items =>
    obtain ⟨ts, hts, rfl⟩ := Option.map_eq_some_iff.1 h
    cases items with
    | nil =>
      obtain rfl := Option.some.inj hts
      rfl
    | cons j items =>
      obtain ⟨d, ds, hitems, hd, hclose⟩ := exists_compactItems_eq_cons (List.cons_ne_nil _ _) hts
      rw [compact, List.length_cons] at hfuel
      have hread : readItems fuel (compactItems (j :: items) ++ rest) = some (ts, rest) :=
        readItems_compactItems (List.cons_ne_nil j items) hts (by omega)
      rw [compact, hitems, List.cons_append, List.cons_append, readValue_bracket hd hclose,
        ← List.cons_append, ← hitems, hread]
      rfl
  | object members =>
    obtain ⟨ps, hps, rfl⟩ := Option.map_eq_some_iff.1 h
    cases members with
    | nil =>
      obtain rfl := Option.some.inj hps
      rfl
    | cons m members =>
      obtain ⟨ds, hmembers⟩ := exists_compactMembers_eq_cons (List.cons_ne_nil m members)
      rw [compact, List.length_cons] at hfuel
      have hread : readMembers fuel (compactMembers (m :: members) ++ rest) = some (ps, rest) :=
        readMembers_compactMembers (List.cons_ne_nil m members) hps (by omega)
      rw [compact, hmembers, List.cons_append, List.cons_append, readValue_brace,
        ← List.cons_append, ← hmembers, hread]
      rfl

/-- The items of an array are read back with its closing bracket. -/
theorem readItems_compactItems {items : List Json} (hne : items ≠ []) {ts : List Tree}
    (h : trees? items = some ts) {rest : List Char} {fuel : Nat}
    (hfuel : (compactItems items).length ≤ fuel) :
    readItems fuel (compactItems items ++ rest) = some (ts, rest) := by
  cases items with
  | nil => exact absurd rfl hne
  | cons j others =>
    obtain ⟨t, ts', ht, hts', rfl⟩ := trees?_cons_eq_some_iff.1 h
    cases others with
    | nil =>
      obtain rfl := Option.some.inj hts'
      rw [compactItems, List.length_append, List.length_singleton] at hfuel
      obtain ⟨fuel, rfl⟩ := Nat.exists_eq_add_one.2 (show 0 < fuel by omega)
      have hread : readValue fuel (compact j ++ ']' :: rest) = some (t, ']' :: rest) :=
        readValue_compact ht (endsNumber_of_mem (by simp) rest) (by omega)
      rw [compactItems, List.append_assoc, List.singleton_append, readItems, hread]
      simp [skipBlanks_cons_of_visible (show 0x20 < ']'.toNat by decide)]
    | cons k others =>
      rw [compactItems, List.length_append, List.length_cons] at hfuel
      obtain ⟨fuel, rfl⟩ := Nat.exists_eq_add_one.2 (show 0 < fuel by omega)
      have hread : readValue fuel (compact j ++ ',' :: (compactItems (k :: others) ++ rest)) =
          some (t, ',' :: (compactItems (k :: others) ++ rest)) :=
        readValue_compact ht (endsNumber_of_mem (by simp) _) (by omega)
      have hothers : readItems fuel (compactItems (k :: others) ++ rest) = some (ts', rest) :=
        readItems_compactItems (List.cons_ne_nil k others) hts' (by omega)
      rw [compactItems, List.append_assoc, List.cons_append, readItems, hread]
      simp [skipBlanks_cons_of_visible (show 0x20 < ','.toNat by decide), hothers]

/-- The members of an object are read back with its closing brace. -/
theorem readMembers_compactMembers {members : List (String × Json)} (hne : members ≠ [])
    {ps : List (Option String × Tree)} (h : pairs? members = some ps) {rest : List Char}
    {fuel : Nat} (hfuel : (compactMembers members).length ≤ fuel) :
    readMembers fuel (compactMembers members ++ rest) = some (ps, rest) := by
  cases members with
  | nil => exact absurd rfl hne
  | cons m others =>
    obtain ⟨key, j⟩ := m
    obtain ⟨t, ps', ht, hps', rfl⟩ := pairs?_cons_eq_some_iff.1 h
    cases others with
    | nil =>
      obtain rfl := Option.some.inj hps'
      simp only [compactMembers, List.length_append, List.length_cons] at hfuel
      obtain ⟨fuel, rfl⟩ := Nat.exists_eq_add_one.2 (show 0 < fuel by omega)
      have hread : readValue fuel (compact j ++ '}' :: rest) = some (t, '}' :: rest) :=
        readValue_compact ht (endsNumber_of_mem (by simp) rest) (by omega)
      rw [compactMembers, List.append_assoc, List.append_assoc, List.singleton_append,
        List.cons_append, readMembers_last hread]
    | cons m others =>
      simp only [compactMembers, List.length_append, List.length_cons] at hfuel
      obtain ⟨fuel, rfl⟩ := Nat.exists_eq_add_one.2 (show 0 < fuel by omega)
      have hread : readValue fuel (compact j ++ ',' :: (compactMembers (m :: others) ++ rest)) =
          some (t, ',' :: (compactMembers (m :: others) ++ rest)) :=
        readValue_compact ht (endsNumber_of_mem (by simp) _) (by omega)
      have hothers : readMembers fuel (compactMembers (m :: others) ++ rest) = some (ps', rest) :=
        readMembers_compactMembers (List.cons_ne_nil m others) hps' (by omega)
      rw [compactMembers, List.append_assoc, List.append_assoc, List.cons_append, List.cons_append,
        readMembers_more hread hothers]

end

/-- The text of a value says what the value says. -/
theorem ofText?_text {j : Json} {t : Tree} (h : j.tree? = some t) :
    Tree.ofText? j.text = some t := by
  have hread : readValue ((compact j).length + 1) (compact j ++ []) = some (t, []) :=
    readValue_compact h (by rintro c ⟨⟩) (Nat.le_succ _)
  rw [List.append_nil] at hread
  simp only [Tree.ofText?, text, String.toList_ofList, hread]
  rfl

/-! ## Lines -/

theorem le_toNat_of_all {cs : List Char} (h : cs.all (0x20 ≤ ·.toNat) = true) {c : Char}
    (hc : c ∈ cs) : 0x20 ≤ c.toNat :=
  of_decide_eq_true (List.all_eq_true.1 h c hc)

theorem le_toNat_of_mem_escapedChar {c d : Char} (h : d ∈ escapedChar c) : 0x20 ≤ d.toNat := by
  unfold escapedChar at h
  iterate 7
    split at h
    · simp only [List.mem_cons, List.not_mem_nil, or_false] at h
      rcases h with rfl | rfl <;> decide
  split at h
  · have hdigit : ∀ n, n < 16 → 0x20 ≤ (Nat.digitChar n).toNat := by decide
    rcases List.mem_append.1 h with hd | hd
    · exact le_toNat_of_all (by decide) hd
    · simp only [hexPair, List.mem_cons, List.not_mem_nil, or_false] at hd
      rcases hd with rfl | rfl
      · exact hdigit _ (Nat.mod_lt _ (by decide))
      · exact hdigit _ (Nat.mod_lt _ (by decide))
  · rename_i hplain
    rw [List.mem_singleton.1 h]
    exact Nat.not_lt.1 hplain

theorem le_toNat_of_mem_textOfString {s : String} {c : Char} (h : c ∈ textOfString s) :
    0x20 ≤ c.toNat := by
  simp only [textOfString, List.cons_append, List.mem_cons, List.mem_append, List.mem_flatMap,
    List.not_mem_nil, or_false] at h
  rcases h with rfl | ⟨d, -, hd⟩ | rfl
  · decide
  · exact le_toNat_of_mem_escapedChar hd
  · decide

theorem le_toNat_of_mem_toDigits {n : Nat} {c : Char} (h : c ∈ Nat.toDigits 10 n) :
    0x20 ≤ c.toNat :=
  Nat.le_of_lt (lt_toNat_of_isDigit (Nat.isDigit_of_mem_toDigits (by decide) (by decide) h))

mutual

/-- No control character stands in what is written of a value, so it is on a single line. -/
theorem le_toNat_of_mem_compact {j : Json} {t : Tree} (h : j.tree? = some t) {c : Char}
    (hc : c ∈ compact j) : 0x20 ≤ c.toNat := by
  cases j with
  | null => exact le_toNat_of_all (by decide) hc
  | bool b => cases b <;> exact le_toNat_of_all (by decide) hc
  | string s => exact le_toNat_of_mem_textOfString hc
  | number n =>
    cases n with
    | natural n => exact le_toNat_of_mem_toDigits hc
    | negative n =>
      rcases List.mem_cons.1 hc with rfl | hdigit
      · decide
      · exact le_toNat_of_mem_toDigits hdigit
    | float x => cases h
  | array items =>
    obtain ⟨ts, hts, -⟩ := Option.map_eq_some_iff.1 h
    rcases List.mem_cons.1 hc with rfl | hitem
    · decide
    · exact le_toNat_of_mem_compactItems hts hitem
  | object members =>
    obtain ⟨ps, hps, -⟩ := Option.map_eq_some_iff.1 h
    rcases List.mem_cons.1 hc with rfl | hmember
    · decide
    · exact le_toNat_of_mem_compactMembers hps hmember

theorem le_toNat_of_mem_compactItems {items : List Json} {ts : List Tree}
    (h : trees? items = some ts) {c : Char} (hc : c ∈ compactItems items) : 0x20 ≤ c.toNat := by
  cases items with
  | nil =>
    rw [List.mem_singleton.1 hc]
    decide
  | cons j others =>
    obtain ⟨t, ts', ht, hts', -⟩ := trees?_cons_eq_some_iff.1 h
    cases others with
    | nil =>
      rcases List.mem_append.1 hc with hvalue | hclose
      · exact le_toNat_of_mem_compact ht hvalue
      · rw [List.mem_singleton.1 hclose]
        decide
    | cons k others =>
      rcases List.mem_append.1 hc with hvalue | hrest
      · exact le_toNat_of_mem_compact ht hvalue
      · rcases List.mem_cons.1 hrest with rfl | hothers
        · decide
        · exact le_toNat_of_mem_compactItems hts' hothers

theorem le_toNat_of_mem_compactMembers {members : List (String × Json)}
    {ps : List (Option String × Tree)} (h : pairs? members = some ps) {c : Char}
    (hc : c ∈ compactMembers members) : 0x20 ≤ c.toNat := by
  cases members with
  | nil =>
    rw [List.mem_singleton.1 hc]
    decide
  | cons m others =>
    obtain ⟨key, j⟩ := m
    obtain ⟨t, ps', ht, hps', -⟩ := pairs?_cons_eq_some_iff.1 h
    cases others with
    | nil =>
      simp only [compactMembers, List.mem_append, List.mem_cons, List.not_mem_nil, or_false] at hc
      rcases hc with (hkey | rfl | hvalue) | rfl
      · exact le_toNat_of_mem_textOfString hkey
      · decide
      · exact le_toNat_of_mem_compact ht hvalue
      · decide
    | cons m others =>
      simp only [compactMembers, List.mem_append, List.mem_cons] at hc
      rcases hc with (hkey | rfl | hvalue) | rfl | hothers
      · exact le_toNat_of_mem_textOfString hkey
      · decide
      · exact le_toNat_of_mem_compact ht hvalue
      · decide
      · exact le_toNat_of_mem_compactMembers hps' hothers

end

/-! ## Plain values -/

/-- Whether a value is a text, an integer or a truth value. -/
def IsPlain : Json → Prop
  | string _ | bool _ | number (.natural _) => True
  | number (.negative n) => n < 0
  | null | number (.float _) | array _ | object _ => False

instance : DecidablePred IsPlain
  | string _ | bool _ | number (.natural _) => isTrue trivial
  | number (.negative n) => inferInstanceAs (Decidable (n < 0))
  | null | number (.float _) | array _ | object _ => isFalse id

/-- A plain value is written as a tree that stands for it. -/
theorem exists_tree_of_isPlain {j : Json} (h : j.IsPlain) :
    ∃ t, j.tree? = some t ∧ ∀ depth, ofTree? depth t = some j := by
  cases j with
  | null | array | object => cases h
  | bool b => exact ⟨_, rfl, fun _ => rfl⟩
  | string s => exact ⟨_, rfl, fun _ => rfl⟩
  | number n =>
    cases n with
    | natural n => exact ⟨_, rfl, fun _ => by rw [ofTree?, toNumber?_natural, Option.map_some]⟩
    | negative n => exact ⟨_, rfl, fun _ => by rw [ofTree?, toNumber?_negative h, Option.map_some]⟩
    | float x => cases h

/-- So are members with plain values. -/
theorem exists_pairs_of_isPlain {members : List (String × Json)}
    (h : ∀ m ∈ members, m.2.IsPlain) (depth : Nat) :
    ∃ ps, pairs? members = some ps ∧ ofPairs? depth ps = some members := by
  induction members with
  | nil => exact ⟨[], rfl, rfl⟩
  | cons m rest ih =>
    obtain ⟨key, j⟩ := m
    obtain ⟨t, ht, hj⟩ := exists_tree_of_isPlain (h _ List.mem_cons_self)
    obtain ⟨ps, hps, hrest⟩ := ih fun m hm => h m (List.mem_cons_of_mem _ hm)
    refine ⟨_, pairs?_cons_eq_some_iff.2 ⟨t, ps, ht, hps, rfl⟩, ?_⟩
    simp only [ofPairs?, hj, hrest, Option.map_some]

end Json

end ObjectBus
