import Mathlib.Algebra.Group.Nat.Defs
import ObjectBus.Time.Reader

/-!
# Instants read back from their texts

The relaxed reader takes many forms of a time. The form that travels between peers is one of
them, and the reader finds in it the instant that was written. The strict reader does so with the
form that is put into JSON, in the years that this form can tell.

* `readNumber_append`: a number of enough digits is read up to its last digit;
* `readYear_yearText`, `readFraction_fractionText`: the parts whose width depends on the value;
* `assemble_parts`: the parts of an instant make that instant, a leap second included;
* `ofWireText?_wireText`: what was written is read back;
* `ofText?_text`: so it is from the form in JSON by the strict reader.
-/

namespace ObjectBus

/-! ## Padded numbers -/

theorem isDigit_of_mem_padded {width n : Nat} {c : Char} (h : c ∈ padded width n) :
    c.isDigit = true := by
  rcases List.mem_append.1 h with hzero | hdigit
  · rw [List.eq_of_mem_replicate hzero]
    decide
  · exact Nat.isDigit_of_mem_toDigits (by decide) (by decide) hdigit

theorem padded_ne_nil (width n : Nat) : padded width n ≠ [] := by
  simp [padded, Nat.toDigits_ne_nil]

/-- A number that fits the width takes exactly the width. -/
theorem length_padded {width n : Nat} (hwidth : 0 < width) (h : n < 10 ^ width) :
    (padded width n).length = width := by
  have hle : (Nat.toDigits 10 n).length ≤ width :=
    (Nat.length_toDigits_le_iff (by decide) hwidth).2 h
  simp only [padded, List.length_append, List.length_replicate]
  omega

namespace Instant

open Text

/-- Zeros in front do not change what digits stand for. -/
@[simp]
theorem digitsValue_padded (width n : Nat) : digitsValue (padded width n) = n := by
  have hfold : ∀ ds, digitsValue ds = Nat.ofDigitChars 10 ds 0 := fun ds =>
    Nat.ofDigitChars_eq_foldl.symm
  rw [hfold, padded, Nat.ofDigitChars_append, Nat.ofDigitChars_replicate_zero, Nat.mul_zero,
    Nat.ofDigitChars_ten_toDigits]

/-! ## The readers of single parts -/

theorem isBlank_of_isDigit {c : Char} (h : c.isDigit = true) : isBlank c = false := by
  have hrange : 48 ≤ c.toNat ∧ c.toNat ≤ 57 := by
    simp only [Char.isDigit, Bool.and_eq_true, decide_eq_true_eq, ge_iff_le,
      UInt32.le_iff_toNat_le] at h
    exact h
  refine Bool.eq_false_iff.2 fun hblank => ?_
  simp only [isBlank, Bool.or_eq_true, Bool.and_eq_true, decide_eq_true_eq, beq_iff_eq] at hblank
  omega

/-- No blanks stand in front of a padded number. -/
@[simp]
theorem dropBlanks_padded (width n : Nat) (cs : List Char) :
    dropBlanks (padded width n ++ cs) = padded width n ++ cs := by
  obtain ⟨c, rest, hcons⟩ := List.exists_cons_of_ne_nil (padded_ne_nil width n)
  have hmem : c ∈ padded width n := hcons ▸ List.mem_cons_self
  have hdigit : c.isDigit = true := isDigit_of_mem_padded hmem
  rw [hcons, List.cons_append, dropBlanks,
    List.dropWhile_cons_of_neg (by simp [isBlank_of_isDigit hdigit])]

/-- Digits are read as long as the reader wants more of them, up to the first character that
is none. -/
theorem readNumber_append {least most : Nat} {ds cs : List Char}
    (hdigits : ∀ c ∈ ds, c.isDigit = true) (hleast : least ≤ ds.length)
    (hmost : ds.length ≤ most)
    (hstop : ds.length = most ∨ ∀ c ∈ cs.head?, c.isDigit = false) :
    readNumber least most (ds ++ cs) = some (digitsValue ds, cs) := by
  -- Behind the digits either the reader has enough or no digit stands.
  have hrest : (cs.take (most - ds.length)).takeWhile Char.isDigit = [] := by
    rcases hstop with hfull | hhead
    · simp [hfull]
    · cases cs with
      | nil => simp
      | cons c rest =>
        cases most - ds.length with
        | zero => simp
        | succ k => simp [hhead c rfl]
  have htaken : ((ds ++ cs).take most).takeWhile Char.isDigit = ds := by
    rw [List.take_append, List.take_of_length_le hmost, List.takeWhile_append_of_pos hdigits,
      hrest, List.append_nil]
  simp only [readNumber, htaken, if_neg (Nat.not_lt.2 hleast), List.drop_left]

/-- A number that fits the width is read back whatever follows it. -/
theorem readNumber_padded {least width n : Nat} (cs : List Char) (hleast : least ≤ width)
    (hwidth : 0 < width) (h : n < 10 ^ width) :
    readNumber least width (padded width n ++ cs) = some (n, cs) := by
  have hlength := length_padded hwidth h
  rw [readNumber_append (fun _ => isDigit_of_mem_padded) (by omega) (by omega) (.inl hlength),
    digitsValue_padded]

/-- A number of any size is read back when no digit follows it. -/
theorem readNumber_padded_of_stop {most width n : Nat} {cs : List Char}
    (hmost : (padded width n).length ≤ most) (hstop : ∀ c ∈ cs.head?, c.isDigit = false) :
    readNumber 1 most (padded width n ++ cs) = some (n, cs) := by
  have hpos := List.length_pos_iff.2 (padded_ne_nil width n)
  rw [readNumber_append (fun _ => isDigit_of_mem_padded) (by omega) hmost (.inr hstop),
    digitsValue_padded]

theorem readYear_of_isDigit {c : Char} {cs : List Char} (h : c.isDigit = true) :
    readYear (c :: cs) = (readNumber 1 4 (c :: cs)).map fun r => ((r.1 : Int), r.2) := by
  unfold readYear
  split
  · exact absurd h (by simp_all)
  · exact absurd h (by simp_all)
  · rfl

/-- A year is read back, with and without a sign. -/
theorem readYear_yearText (year : Int) (cs : List Char) :
    readYear (dropBlanks (Date.yearText year ++ '-' :: cs)) = some (year, '-' :: cs) := by
  have hstop : ∀ c ∈ ('-' :: cs).head?, c.isDigit = false := by
    simp
  unfold Date.yearText
  split
  · rename_i hplain
    rw [dropBlanks_padded]
    obtain ⟨c, rest, hcons⟩ := List.exists_cons_of_ne_nil (padded_ne_nil 4 year.natAbs)
    have hmem : c ∈ padded 4 year.natAbs := hcons ▸ List.mem_cons_self
    have hdigit : c.isDigit = true := isDigit_of_mem_padded hmem
    have hread : readNumber 1 4 (padded 4 year.natAbs ++ '-' :: cs) =
        some (year.natAbs, '-' :: cs) :=
      readNumber_padded _ (by decide) (by decide) (by omega)
    rw [hcons, List.cons_append] at hread ⊢
    rw [readYear_of_isDigit hdigit, hread, Option.map_some]
    simp [Int.natAbs_of_nonneg hplain.1]
  · -- A sign is no blank, and behind it any number of digits is read.
    have hread : readNumber 1 (padded 4 year.natAbs ++ '-' :: cs).length
        (padded 4 year.natAbs ++ '-' :: cs) = some (year.natAbs, '-' :: cs) :=
      readNumber_padded_of_stop (by simp) hstop
    split
    · rename_i hneg
      have habs : -(year.natAbs : Int) = year := by omega
      rw [List.cons_append, dropBlanks, List.dropWhile_cons_of_neg (by decide), readYear, hread,
        Option.map_some, habs]
    · rename_i hnonneg
      have habs : (year.natAbs : Int) = year := by omega
      rw [List.cons_append, dropBlanks, List.dropWhile_cons_of_neg (by decide), readYear, hread,
        Option.map_some, habs]

/-- A fraction of up to nine digits is scaled to nanoseconds. -/
theorem readFraction_padded {width n : Nat} {cs : List Char} (hpos : 0 < width)
    (hwidth : width ≤ 9) (h : n < 10 ^ width) (hstop : ∀ c ∈ cs.head?, c.isDigit = false) :
    readFraction ('.' :: (padded width n ++ cs)) = some (n * Nat.pow 10 (9 - width), cs) := by
  have hlength := length_padded hpos h
  have hrest : (cs.take (9 - width)).takeWhile Char.isDigit = [] ∧
      cs.dropWhile Char.isDigit = cs := by
    cases cs with
    | nil => simp
    | cons c rest =>
      refine ⟨?_, List.dropWhile_cons_of_neg (by simp [hstop c rfl])⟩
      cases 9 - width with
      | zero => simp
      | succ k => simp [hstop c rfl]
  have htaken : ((padded width n ++ cs).take 9).takeWhile Char.isDigit = padded width n := by
    rw [List.take_append, List.take_of_length_le (by omega),
      List.takeWhile_append_of_pos (fun _ => isDigit_of_mem_padded), hlength, hrest.1,
      List.append_nil]
  have hafter : (padded width n ++ cs).drop width = cs := List.drop_left' hlength
  simp only [readFraction, htaken, List.isEmpty_iff, padded_ne_nil, if_false, hafter, hrest.2,
    digitsValue_padded, hlength]

/-- The nanoseconds of a fraction are read back in each of its widths. -/
theorem readFraction_fractionText {nano : Nat} {c : Char} {cs : List Char}
    (h : nano < nanosPerSecond) (hdot : c ≠ '.') (hdigit : c.isDigit = false) :
    readFraction (fractionText nano ++ c :: cs) = some (nano, c :: cs) := by
  have hstop : ∀ d ∈ (c :: cs).head?, d.isDigit = false := by
    simpa using hdigit
  simp only [nanosPerSecond] at h
  unfold fractionText
  -- No digits are written, or three, six or nine, whichever tell all.
  split
  · rename_i hzero
    rw [List.nil_append, hzero]
    unfold readFraction
    split
    · rename_i rest heq
      exact absurd (List.cons.inj heq).1 hdot
    · rfl
  · split
    · rename_i hmilli
      rw [List.cons_append, readFraction_padded (by decide) (by decide) (by omega) hstop]
      have : nano / 1000000 * Nat.pow 10 (9 - 3) = nano := by
        show nano / 1000000 * 1000000 = nano
        omega
      rw [this]
    · split
      · rename_i hmicro
        rw [List.cons_append, readFraction_padded (by decide) (by decide) (by omega) hstop]
        have : nano / 1000 * Nat.pow 10 (9 - 6) = nano := by
          show nano / 1000 * 1000 = nano
          omega
        rw [this]
      · rw [List.cons_append, readFraction_padded (by decide) (by decide) (by omega) hstop]
        simp

/-! ## The whole instant -/

/-- The parts of an instant make that instant again. -/
theorem assemble_parts (t : Instant) :
    assemble t.date.year t.date.month t.date.day (t.second / 3600) (t.second / 60 % 60)
      t.secondOfMinute t.subsecond 0 = some t := by
  have hdate : Date.of? t.date.year t.date.month t.date.day = some t.date := by
    simp [Date.of?, t.date.valid]
  obtain ⟨hsecond, hnano, hleap⟩ := t.valid
  simp only [secondsPerDay, nanosPerSecond] at hsecond hnano hleap
  have hof : of? t.date t.second t.nano = some t := by
    simp [of?, t.valid]
  have hlocal : ofLocal? t.date t.second t.nano 0 = some t := by
    simp only [ofLocal?, secondsPerDay, Int.sub_zero, Int.toNat_natCast, hof]
    rw [if_neg (by omega), if_pos (by omega)]
  have hsplit : t.second / 3600 * 3600 + t.second / 60 % 60 * 60 + t.second % 60 = t.second := by
    omega
  have hshown : t.secondOfMinute ≤ 60 := by
    unfold secondOfMinute
    split <;> omega
  rw [assemble, hdate]
  simp only [Option.bind_eq_bind, Option.bind_some]
  rw [if_pos ⟨by omega, by omega, hshown, by decide⟩]
  by_cases hlate : nanosPerSecond ≤ t.nano
  · -- In a leap second the sixtieth second is shown, and a second of the nanoseconds with it.
    have hlast := hleap hlate
    have hsixty : t.secondOfMinute = 60 := by
      simp [secondOfMinute, isLeapSecond, hlate, hlast]
    have hnanos : nanosPerSecond + t.subsecond = t.nano := by
      simp only [subsecond, nanosPerSecond] at hlate ⊢
      omega
    have hseconds : t.second / 3600 * 3600 + t.second / 60 % 60 * 60 + 59 = t.second := by
      omega
    rw [if_pos hsixty, hnanos, hseconds, hlocal]
  · have hplain : t.secondOfMinute = t.second % 60 := by
      simp [secondOfMinute, isLeapSecond, hlate]
    have hnanos : t.subsecond = t.nano := Nat.mod_eq_of_lt (Nat.not_le.1 hlate)
    rw [hplain, if_neg (by omega), hnanos, hsplit, hlocal]

/-- All parts of an instant but its year are written with two digits. -/
theorem parts_lt (t : Instant) : t.date.month < 10 ^ 2 ∧ t.date.day < 10 ^ 2 ∧
    t.second / 3600 < 10 ^ 2 ∧ t.second / 60 % 60 < 10 ^ 2 ∧ t.secondOfMinute < 10 ^ 2 := by
  obtain ⟨-, -, hmonthLow, hmonthHigh, hdayLow, hdayHigh⟩ := t.date.valid
  have hday : t.date.day ≤ 31 := by
    unfold daysInMonth at hdayHigh
    split at hdayHigh
    · split at hdayHigh <;> omega
    · split at hdayHigh <;> omega
  obtain ⟨hsecond, -, -⟩ := t.valid
  simp only [secondsPerDay] at hsecond
  have hshown : t.secondOfMinute < 10 ^ 2 := by
    unfold secondOfMinute
    split <;> omega
  omega

/-- An instant is read back from the form that travels between peers, with its nanoseconds,
in a leap second and in every year of the calendar. -/
theorem ofWireText?_wireText (t : Instant) : ofWireText? t.wireText = some t := by
  obtain ⟨hmonth, hday, hhour, hminute, hshown⟩ := parts_lt t
  have hsub : t.subsecond < nanosPerSecond := Nat.mod_lt _ (by decide)
  have htwo : ∀ n cs, n < 10 ^ 2 → readNumber 1 2 (padded 2 n ++ cs) = some (n, cs) :=
    fun n cs h => readNumber_padded cs (by decide) (by decide) h
  have hdash : ∀ cs, readChar '-' (dropBlanks ('-' :: cs)) = some cs := fun _ => rfl
  have hcolon : ∀ cs, readChar ':' (dropBlanks (':' :: cs)) = some cs := fun _ => rfl
  have hmark : ∀ cs, readSeparator ('T' :: cs) = some cs := fun _ => rfl
  have hzone : readRelaxedZone (dropBlanks ['Z']) = some (0, []) := rfl
  have hfraction : readFraction (fractionText t.subsecond ++ ['Z']) = some (t.subsecond, ['Z']) :=
    readFraction_fractionText hsub (by decide) (by decide)
  -- Each part is read back in front of those that follow it.
  simp only [ofWireText?, wireText, localText, secondsText, Date.text, String.toList_ofList,
    List.append_assoc, List.cons_append, readYear_yearText, hdash, hcolon, hmark, hfraction,
    hzone, dropBlanks_padded, Option.bind_eq_bind, Option.bind_some, htwo _ _ hmonth,
    htwo _ _ hday, htwo _ _ hhour, htwo _ _ hminute, htwo _ _ hshown]
  exact assemble_parts t

/-- An instant of a year with four digits is read back by the strict reader from the form that is
shown to people and put into JSON. -/
theorem ofText?_text {t : Instant} (hyear : 0 ≤ t.date.year ∧ t.date.year ≤ 9999) :
    ofText? t.text = some t := by
  obtain ⟨hmonth, hday, hhour, hminute, hshown⟩ := parts_lt t
  have hsub : t.subsecond < nanosPerSecond := Nat.mod_lt _ (by decide)
  have hfour : ∀ cs, readNumber 4 4 (Date.yearText t.date.year ++ cs) =
      some (t.date.year.natAbs, cs) := by
    intro cs
    rw [Date.yearText, if_pos hyear]
    exact readNumber_padded cs (by decide) (by decide) (by omega)
  have htwo : ∀ n cs, n < 10 ^ 2 → readNumber 2 2 (padded 2 n ++ cs) = some (n, cs) :=
    fun n cs h => readNumber_padded cs (by decide) (by decide) h
  have hdash : ∀ cs, readChar '-' ('-' :: cs) = some cs := fun _ => rfl
  have hcolon : ∀ cs, readChar ':' (':' :: cs) = some cs := fun _ => rfl
  have hmark : ∀ cs, readSeparator ('T' :: cs) = some cs := fun _ => rfl
  have hzone : readZone (readChar ':') ['+', '0', '0', ':', '0', '0'] = some (0, []) := rfl
  have hfraction : readFraction (fractionText t.subsecond ++ ['+', '0', '0', ':', '0', '0']) =
      some (t.subsecond, ['+', '0', '0', ':', '0', '0']) :=
    readFraction_fractionText hsub (by decide) (by decide)
  have habs : (t.date.year.natAbs : Int) = t.date.year := by omega
  simp only [ofText?, text, localText, secondsText, Date.text, String.toList_ofList,
    List.append_assoc, List.cons_append, hfour, hdash, hcolon, hmark, hfraction, hzone,
    Option.bind_eq_bind, Option.bind_some, habs, htwo _ _ hmonth, htwo _ _ hday, htwo _ _ hhour,
    htwo _ _ hminute, htwo _ _ hshown]
  exact assemble_parts t

end Instant

end ObjectBus
