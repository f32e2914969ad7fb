import Mathlib.Algebra.Order.Field.Power
import Mathlib.Data.Nat.Cast.Order.Field
import Mathlib.Data.Rat.Cast.Order
import Mathlib.Tactic.Linarith
import Mathlib.Tactic.NormNum
import Mathlib.Tactic.Positivity
import Mathlib.Tactic.Ring
import ObjectBus.Number.Binary64

/-!
# When rounding gives a finite double

A quotient of whole numbers is rounded to fifty-three bits. What is below the largest power of two
that a double can reach is rounded to a finite double.

* `floorLog2_le`, `lt_floorLog2`, `floorLog2_lt`: the exponent that is chosen;
* `le_significand`, `significand_le`: the bits that are left;
* `isFinite_ofMagnitude`: the bits of a finite double;
* `isFinite_ofRatio`: rounding a quotient;
* `isFinite_div`: dividing a finite double by two or more.
-/

namespace ObjectBus.Binary64

variable {num den : Nat}

/-- Rounding goes up to the next whole number at most. -/
theorem roundToEven_le {q : Nat} (h : num < den * q) : roundToEven num den ≤ q := by
  have hq : num / den < q := Nat.div_lt_of_lt_mul h
  unfold roundToEven
  simp only
  split
  · omega
  · split
    · omega
    · split <;> omega

/-- Rounding does not go below a whole number that is reached. -/
theorem le_roundToEven {q : Nat} (hden : 0 < den) (h : den * q ≤ num) :
    q ≤ roundToEven num den := by
  have hq : q ≤ num / den := (Nat.le_div_iff_mul_le hden).2 (by rwa [Nat.mul_comm])
  unfold roundToEven
  simp only
  split
  · exact hq
  · split
    · omega
    · split <;> omega

/-- A comparison with a power of two, on the side on which its exponent is not negative. -/
theorem reached_iff (guess : Int) :
    (if 0 ≤ guess then decide (den * Nat.pow 2 guess.toNat ≤ num)
      else decide (den ≤ num * Nat.pow 2 (-guess).toNat)) = true ↔
      (den : ℚ) * 2 ^ guess ≤ num := by
  split
  · rename_i hguess
    obtain ⟨k, rfl⟩ := Int.eq_ofNat_of_zero_le hguess
    rw [decide_eq_true_iff, Int.toNat_natCast, zpow_natCast]
    exact_mod_cast Iff.rfl
  · rename_i hguess
    obtain ⟨k, hk⟩ := Int.eq_ofNat_of_zero_le (show 0 ≤ -guess by omega)
    obtain rfl : guess = -(k : Int) := by omega
    rw [decide_eq_true_iff, neg_neg, Int.toNat_natCast, zpow_neg, zpow_natCast,
      ← div_eq_mul_inv, div_le_iff₀ (by positivity)]
    exact_mod_cast Iff.rfl

/-- A quotient is below the power of two next to the chosen one. -/
theorem lt_floorLog2 (hden : den ≠ 0) :
    (num : ℚ) < den * 2 ^ (floorLog2 num den + 1) := by
  have hnumLog : (num : ℚ) < 2 ^ ((num.log2 : Int) + 1) := by
    exact_mod_cast Nat.lt_log2_self (n := num)
  have hdenLog : (2 : ℚ) ^ (den.log2 : Int) ≤ den := by
    exact_mod_cast Nat.log2_self_le hden
  unfold floorLog2
  simp only
  by_cases hreached : (den : ℚ) * 2 ^ ((num.log2 : Int) - den.log2) ≤ num
  · rw [if_pos ((reached_iff _).2 hreached)]
    calc (num : ℚ) < 2 ^ ((num.log2 : Int) + 1) := hnumLog
      _ = 2 ^ (den.log2 : Int) * 2 ^ ((num.log2 : Int) - den.log2 + 1) := by
        rw [← zpow_add₀ (by norm_num)]
        congr 1
        omega
      _ ≤ den * 2 ^ ((num.log2 : Int) - den.log2 + 1) := by gcongr
  · rw [if_neg (fun h => hreached ((reached_iff _).1 h)), Int.sub_add_cancel]
    exact not_le.1 hreached

/-- A quotient reaches the chosen power of two. -/
theorem floorLog2_le (hnum : num ≠ 0) : (den : ℚ) * 2 ^ floorLog2 num den ≤ num := by
  have hnumLog : (2 : ℚ) ^ (num.log2 : Int) ≤ num := by
    exact_mod_cast Nat.log2_self_le hnum
  have hdenLog : (den : ℚ) ≤ 2 ^ ((den.log2 : Int) + 1) := by
    exact_mod_cast (Nat.lt_log2_self (n := den)).le
  unfold floorLog2
  simp only
  by_cases hreached : (den : ℚ) * 2 ^ ((num.log2 : Int) - den.log2) ≤ num
  · rwa [if_pos ((reached_iff _).2 hreached)]
  · rw [if_neg (fun h => hreached ((reached_iff _).1 h))]
    calc (den : ℚ) * 2 ^ ((num.log2 : Int) - den.log2 - 1)
        ≤ 2 ^ ((den.log2 : Int) + 1) * 2 ^ ((num.log2 : Int) - den.log2 - 1) := by gcongr
      _ = 2 ^ (num.log2 : Int) := by
        rw [← zpow_add₀ (by norm_num)]
        congr 1
        omega
      _ ≤ num := hnumLog

/-- The chosen power of two is smaller than what the quotient does not reach. -/
theorem floorLog2_lt {k : Nat} (hnum : num ≠ 0) (h : num < den * 2 ^ k) :
    floorLog2 num den < k := by
  have hden : den ≠ 0 := by
    rintro rfl
    simp at h
  unfold floorLog2
  simp only
  by_cases hreached : (den : ℚ) * 2 ^ ((num.log2 : Int) - den.log2) ≤ num
  · rw [if_pos ((reached_iff _).2 hreached)]
    have hlt : (den : ℚ) * 2 ^ ((num.log2 : Int) - den.log2) < den * 2 ^ (k : Int) := by
      refine hreached.trans_lt ?_
      exact_mod_cast h
    have hpos : (0 : ℚ) < den := by exact_mod_cast Nat.pos_of_ne_zero hden
    exact (zpow_lt_zpow_iff_right₀ (by norm_num)).1 (lt_of_mul_lt_mul_left hlt hpos.le)
  · rw [if_neg (fun h => hreached ((reached_iff _).1 h))]
    have hlog : num.log2 < den.log2 + 1 + k := by
      refine (Nat.log2_lt hnum).2 (h.trans_le ?_)
      rw [Nat.pow_add]
      exact Nat.mul_le_mul_right _ Nat.lt_log2_self.le
    omega

/-- A magnitude below that of infinity is finite with either sign. -/
theorem isFinite_ofMagnitude (negative : Bool) {magnitude : Nat} (h : magnitude < infinityBits) :
    (ofMagnitude negative magnitude).isFinite = true := by
  simp only [infinityBits, show Nat.pow 2 52 = 4503599627370496 from rfl] at h
  simp only [isFinite, exponentBits, ofMagnitude, decide_eq_true_eq, UInt64.toNat_ofNat',
    show Nat.pow 2 52 = 4503599627370496 from rfl, show Nat.pow 2 11 = 2048 from rfl,
    show Nat.pow 2 63 = 9223372036854775808 from rfl]
  cases negative <;> simp <;> omega

/-- As many bits as a double holds are left of a quotient, when the last of them is worth enough. -/
theorem significand_le {e : Int} (h : (num : ℚ) < den * 2 ^ (e + 53)) :
    (if 0 ≤ e then roundToEven num (den * Nat.pow 2 e.toNat)
      else roundToEven (num * Nat.pow 2 (-e).toNat) den) ≤ 2 ^ 53 := by
  split
  · rename_i he
    obtain ⟨k, rfl⟩ := Int.eq_ofNat_of_zero_le he
    refine roundToEven_le ?_
    rw [Int.toNat_natCast, Nat.mul_assoc]
    rw [zpow_add₀ (by norm_num), zpow_natCast] at h
    exact_mod_cast h
  · rename_i he
    obtain ⟨k, hk⟩ := Int.eq_ofNat_of_zero_le (show 0 ≤ -e by omega)
    obtain rfl : e = -(k : Int) := by omega
    refine roundToEven_le ?_
    rw [neg_neg, Int.toNat_natCast]
    rw [zpow_add₀ (by norm_num), zpow_neg, zpow_natCast, ← mul_assoc, ← div_eq_mul_inv,
      div_mul_eq_mul_div, lt_div_iff₀ (by positivity)] at h
    exact_mod_cast h

/-- And no fewer, when it is worth no more than that. -/
theorem le_significand {e : Int} (hden : den ≠ 0) (h : (den : ℚ) * 2 ^ (e + 52) ≤ num) :
    2 ^ 52 ≤ if 0 ≤ e then roundToEven num (den * Nat.pow 2 e.toNat)
      else roundToEven (num * Nat.pow 2 (-e).toNat) den := by
  have hpos := Nat.pos_of_ne_zero hden
  split
  · rename_i he
    obtain ⟨k, rfl⟩ := Int.eq_ofNat_of_zero_le he
    refine le_roundToEven (Nat.mul_pos hpos (Nat.pow_pos (by decide))) ?_
    rw [Int.toNat_natCast, Nat.mul_assoc]
    rw [zpow_add₀ (by norm_num), zpow_natCast] at h
    exact_mod_cast h
  · rename_i he
    obtain ⟨k, hk⟩ := Int.eq_ofNat_of_zero_le (show 0 ≤ -e by omega)
    obtain rfl : e = -(k : Int) := by omega
    refine le_roundToEven hpos ?_
    rw [neg_neg, Int.toNat_natCast]
    rw [zpow_add₀ (by norm_num), zpow_neg, zpow_natCast, mul_comm (_⁻¹), ← mul_assoc,
      ← div_eq_mul_inv, div_le_iff₀ (by positivity)] at h
    exact_mod_cast h

/-- What is below the largest power of two that a double can reach is rounded to a finite double. -/
theorem isFinite_ofRatio (negative : Bool) {k : Nat} (hk : k ≤ 1023) (h : num < den * 2 ^ k) :
    (ofRatio negative num den).isFinite = true := by
  unfold ofRatio
  split
  · exact isFinite_ofMagnitude negative (by decide)
  · rename_i hnum
    have hden : den ≠ 0 := by
      rintro rfl
      simp at h
    have hlog := floorLog2_lt hnum h
    have hlt : (num : ℚ) < den * 2 ^ (floorLog2 num den + 1) := lt_floorLog2 hden
    simp only
    -- The last bit is worth no less than is needed, also where doubles become subnormal.
    generalize he : max (floorLog2 num den - 52) (-1074) = e
    have hbits : (num : ℚ) < den * 2 ^ (e + 53) := by
      have hpow : (2 : ℚ) ^ (floorLog2 num den + 1) ≤ 2 ^ (e + 53) :=
        zpow_le_zpow_right₀ (by norm_num) (by omega)
      exact hlt.trans_le (mul_le_mul_of_nonneg_left hpow (by positivity))
    have hsignificand := significand_le hbits
    refine isFinite_ofMagnitude negative (lt_of_le_of_lt (min_le_left _ _) ?_)
    simp only [infinityBits, show Nat.pow 2 52 = 4503599627370496 from rfl]
    omega

/-- What is rounded is finite or infinite, and never undefined. -/
theorem isFinite_ofRatio_of_not_isInfinite {negative : Bool}
    (h : (ofRatio negative num den).isInfinite = false) :
    (ofRatio negative num den).isFinite = true := by
  unfold ofRatio at h ⊢
  split
  · exact isFinite_ofMagnitude negative (by decide)
  · rename_i hnum
    rw [if_neg hnum] at h
    simp only at h ⊢
    generalize hmagnitude : min _ infinityBits = magnitude at h ⊢
    have hle : magnitude ≤ infinityBits := hmagnitude ▸ min_le_right _ _
    rcases hle.lt_or_eq with hlt | rfl
    · exact isFinite_ofMagnitude negative hlt
    · cases negative <;> cases h

/-- A number with the other sign is as finite. -/
theorem isFinite_neg (x : Binary64) : x.neg.isFinite = x.isFinite := by
  have hsize := x.bits.toNat_lt
  unfold isFinite neg ofMagnitude exponentBits
  simp only [UInt64.toNat_ofNat', show Nat.pow 2 52 = 4503599627370496 from rfl,
    show Nat.pow 2 11 = 2048 from rfl, show Nat.pow 2 63 = 9223372036854775808 from rfl]
  cases x.isNegative <;> simp <;> omega

/-- A whole number of sixty-four bits is rounded to a finite double. -/
theorem isFinite_ofWord (negative : Bool) {n : Nat} (h : n < 2 ^ 64) :
    (ofRatio negative n 1).isFinite = true :=
  isFinite_ofRatio negative (show 64 ≤ 1023 by decide) (by rwa [Nat.one_mul])

/-! ## Quotients of doubles -/

variable {x y : Binary64}

theorem significand_lt (x : Binary64) : x.significand < 2 ^ 53 := by
  have hfraction : x.fractionBits < 2 ^ 52 := Nat.mod_lt _ (by decide)
  unfold significand
  split
  · omega
  · show x.fractionBits + 2 ^ 52 < 2 ^ 53
    omega

theorem toRatio_snd_pos (x : Binary64) : 0 < x.toRatio.2 := by
  unfold toRatio
  split
  · exact Nat.one_pos
  · exact Nat.pow_pos (by decide)

/-- A finite double is below all powers of two that none reaches. -/
theorem toRatio_lt (hx : x.isFinite = true) {k : Nat} (hk : 1024 ≤ k) :
    x.toRatio.1 < x.toRatio.2 * 2 ^ k := by
  have hsignificand := x.significand_lt
  have hexponent : x.exponentBits < 2047 := by
    have hlt : x.exponentBits < 2048 := Nat.mod_lt _ (by decide)
    have hne : x.exponentBits ≠ 2047 := by simpa [isFinite] using hx
    omega
  unfold toRatio
  split
  · have hscale : 53 + x.scale.toNat ≤ k := by
      unfold scale
      omega
    calc x.significand * 2 ^ x.scale.toNat
        < 2 ^ 53 * 2 ^ x.scale.toNat := Nat.mul_lt_mul_of_pos_right hsignificand (by positivity)
      _ = 2 ^ (53 + x.scale.toNat) := (Nat.pow_add 2 53 _).symm
      _ ≤ 2 ^ k := Nat.pow_le_pow_right (by decide) hscale
      _ = 1 * 2 ^ k := (Nat.one_mul _).symm
  · calc x.significand < 2 ^ 53 := hsignificand
      _ ≤ 2 ^ k := Nat.pow_le_pow_right (by decide) (by omega)
      _ ≤ Nat.pow 2 (-x.scale).toNat * 2 ^ k :=
        Nat.le_mul_of_pos_left _ (Nat.pow_pos (by decide))

/-- The exponent bits of two and more. -/
theorem le_exponentBits_ofNat {n : Nat} (hn : 2 ≤ n) : 1024 ≤ (ofNat n).exponentBits := by
  have hlog : 1 ≤ floorLog2 n 1 := by
    have hlt : (n : ℚ) < (1 : ℕ) * 2 ^ (floorLog2 n 1 + 1) := lt_floorLog2 one_ne_zero
    have htwo : (2 : ℚ) ^ (1 : Int) < 2 ^ (floorLog2 n 1 + 1) := by
      rw [Nat.cast_one, one_mul] at hlt
      refine lt_of_le_of_lt ?_ hlt
      exact_mod_cast hn
    have hexponent := (zpow_lt_zpow_iff_right₀ (by norm_num)).1 htwo
    omega
  have hreached : (1 : ℕ) * (2 : ℚ) ^ floorLog2 n 1 ≤ n := floorLog2_le (by omega)
  unfold ofNat ofRatio
  rw [if_neg (by omega)]
  simp only
  generalize he : max (floorLog2 n 1 - 52) (-1074) = e
  have hsignificand := le_significand (e := e) one_ne_zero
    (by rwa [show e + 52 = floorLog2 n 1 by omega])
  generalize (if 0 ≤ e then _ else _) = q at hsignificand ⊢
  -- The leading bit of the significand counts as one more in the exponent bits.
  have hbits : 1024 * 2 ^ 52 ≤ min ((e + 1074).toNat * Nat.pow 2 52 + q) infinityBits := by
    refine le_min ?_ (by decide)
    show 1024 * 2 ^ 52 ≤ (e + 1074).toNat * 2 ^ 52 + q
    omega
  have hmax : min ((e + 1074).toNat * Nat.pow 2 52 + q) infinityBits ≤ infinityBits :=
    min_le_right _ _
  generalize min ((e + 1074).toNat * Nat.pow 2 52 + q) infinityBits = magnitude at hbits hmax ⊢
  simp only [infinityBits, show Nat.pow 2 52 = 4503599627370496 from rfl] at hmax
  simp only [exponentBits, ofMagnitude, UInt64.toNat_ofNat',
    show Nat.pow 2 52 = 4503599627370496 from rfl, show Nat.pow 2 11 = 2048 from rfl]
  simp
  omega

theorem two_le_toRatio (hx : 1024 ≤ x.exponentBits) : 2 * x.toRatio.2 ≤ x.toRatio.1 := by
  have hsignificand : 2 ^ 52 ≤ x.significand := by
    unfold significand
    rw [if_neg (by omega)]
    exact Nat.le_add_left _ _
  unfold toRatio
  split
  · calc 2 * 1 ≤ 2 ^ 52 * 1 := by norm_num
      _ ≤ x.significand * Nat.pow 2 x.scale.toNat :=
        Nat.mul_le_mul hsignificand (Nat.pow_pos (by decide))
  · have hscale : (-x.scale).toNat + 1 ≤ 52 := by
      unfold scale
      omega
    calc 2 * 2 ^ (-x.scale).toNat = 2 ^ ((-x.scale).toNat + 1) := (Nat.pow_succ').symm
      _ ≤ 2 ^ 52 := Nat.pow_le_pow_right (by decide) hscale
      _ ≤ x.significand := hsignificand

/-- Dividing by two or more keeps a double finite. -/
theorem isFinite_div (hx : x.isFinite = true) (hy : 2 * y.toRatio.2 ≤ y.toRatio.1) :
    (x.div y).isFinite = true := by
  obtain ⟨k, hk⟩ : ∃ k, k = 1023 := ⟨_, rfl⟩
  have hpos : 0 < y.toRatio.1 := by
    have hden := y.toRatio_snd_pos
    omega
  have hlt : x.toRatio.1 < x.toRatio.2 * 2 ^ (k + 1) := toRatio_lt hx (by omega)
  refine isFinite_ofRatio false hk.le ?_
  have hdouble : 2 * (x.toRatio.1 * y.toRatio.2) < 2 * (x.toRatio.2 * y.toRatio.1 * 2 ^ k) :=
    calc 2 * (x.toRatio.1 * y.toRatio.2) = x.toRatio.1 * (2 * y.toRatio.2) := by ring
      _ ≤ x.toRatio.1 * y.toRatio.1 := Nat.mul_le_mul_left _ hy
      _ < x.toRatio.2 * 2 ^ (k + 1) * y.toRatio.1 := Nat.mul_lt_mul_of_pos_right hlt hpos
      _ = 2 * (x.toRatio.2 * y.toRatio.1 * 2 ^ k) := by ring
  exact Nat.lt_of_mul_lt_mul_left hdouble

end ObjectBus.Binary64
