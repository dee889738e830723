import Mathlib.Algebra.Order.Field.Power
import Mathlib.Algebra.Order.Round
import Mathlib.Data.Rat.Floor
import Mathlib.Tactic.Linarith
import Mathlib.Tactic.Positivity
import Mathlib.Tactic.Ring
import Portability.Number.Binary64

namespace Portability.Binary64

def Fits (m : Nat) (e : Int) : Prop := m < 2 ^ 53 ∧ -1074 ≤ e ∧ e ≤ 971

def IsNearest (x : Binary64) (q : ℚ) : Prop :=
  ∃ m e, x = .finite false m e ∧ Fits m e ∧
    ∀ m' e', Fits m' e' → |(m : ℚ) * 2 ^ e - q| ≤ |(m' : ℚ) * 2 ^ e' - q|

variable {num den n d m : Nat} {e k : Int} {q : ℚ}

lemma scale_snd_pos (h : 0 < den) : 0 < (scale 2 num den e).2 := by
  rw [scale]
  split
  · exact h
  · exact Nat.mul_pos h (Nat.two_pow_pos _)

lemma scale_ratio (num den : Nat) (e : Int) :
    ((scale 2 num den e).1 : ℚ) / (scale 2 num den e).2 = num / den * 2 ^ e := by
  rw [scale]
  split
  · next he =>
    obtain ⟨k, rfl⟩ := Int.eq_ofNat_of_zero_le he
    rw [Int.toNat_natCast, zpow_natCast, Nat.pow_eq]
    push_cast
    ring
  · next he =>
    obtain ⟨k, rfl⟩ := Int.exists_eq_neg_ofNat (Int.le_of_lt (Int.not_le.mp he))
    rw [neg_neg, Int.toNat_natCast, zpow_neg, zpow_natCast, Nat.pow_eq]
    push_cast
    rw [div_mul_eq_div_div, div_eq_mul_inv _ ((2 : ℚ) ^ k)]

lemma le_ratio_and_ratio_lt (hn : 0 < num) (hd : 0 < den) :
    (2 : ℚ) ^ ((num.log2 : Int) - den.log2 - 1) ≤ num / den ∧
      (num / den : ℚ) < 2 ^ ((num.log2 : Int) - den.log2 + 1) := by
  have hpow (k : Nat) : ((2 ^ k : Nat) : ℚ) = 2 ^ (k : Int) := by simp
  have hnum : (2 : ℚ) ^ (num.log2 : Int) ≤ num ∧ (num : ℚ) < 2 ^ ((num.log2 : Int) + 1) := by
    rw [← Nat.cast_succ, ← hpow, ← hpow, Nat.cast_le, Nat.cast_lt]
    exact ⟨Nat.log2_self_le hn.ne', Nat.lt_log2_self⟩
  have hden : (2 : ℚ) ^ (den.log2 : Int) ≤ den ∧ (den : ℚ) < 2 ^ ((den.log2 : Int) + 1) := by
    rw [← Nat.cast_succ, ← hpow, ← hpow, Nat.cast_le, Nat.cast_lt]
    exact ⟨Nat.log2_self_le hd.ne', Nat.lt_log2_self⟩
  have hpos : (0 : ℚ) < den := Nat.cast_pos.mpr hd
  constructor
  · rw [Int.sub_sub, zpow_sub₀ two_ne_zero]
    exact div_le_div₀ (Nat.cast_nonneg _) hnum.1 hpos hden.2.le
  · rw [sub_add_eq_add_sub, zpow_sub₀ two_ne_zero]
    exact div_lt_div₀ hnum.2 hden.1 (by positivity) (by positivity)

lemma floorLog2_spec (hn : 0 < num) (hd : 0 < den) :
    (2 : ℚ) ^ floorLog2 num den ≤ num / den ∧ (num / den : ℚ) < 2 ^ (floorLog2 num den + 1) := by
  obtain ⟨hlow, hhigh⟩ := le_ratio_and_ratio_lt hn hd
  let k := (num.log2 : Int) - den.log2
  have hfloor : floorLog2 num den =
      if (scale 2 num den (-k)).2 ≤ (scale 2 num den (-k)).1 then k else k - 1 := rfl
  have hle : (scale 2 num den (-k)).2 ≤ (scale 2 num den (-k)).1 ↔ (2 : ℚ) ^ k ≤ num / den := by
    have hpos : (0 : ℚ) < (scale 2 num den (-k)).2 := Nat.cast_pos.mpr (scale_snd_pos hd)
    rw [← Nat.cast_le (α := ℚ), ← one_le_div hpos, scale_ratio, zpow_neg, ← div_eq_mul_inv,
      one_le_div (by positivity)]
  rw [hfloor]
  by_cases h : (2 : ℚ) ^ k ≤ num / den
  · rw [if_pos (hle.mpr h)]
    exact ⟨h, hhigh⟩
  · rw [if_neg (mt hle.mp h), Int.sub_add_cancel]
    exact ⟨hlow, not_le.mp h⟩

lemma divNearest_bounds (hd : 0 < d) :
    2 * n ≤ 2 * (divNearest n d * d) + d ∧ 2 * (divNearest n d * d) ≤ 2 * n + d := by
  have hdivision : n / d * d + n % d = n := Nat.div_add_mod' n d
  have hlt : n % d < d := Nat.mod_lt n hd
  rw [divNearest]
  split
  · rw [Nat.add_mul]
    omega
  · omega

lemma divNearest_le (hd : 0 < d) (h : n ≤ m * d) : divNearest n d ≤ m := by
  have hhigh := (divNearest_bounds (n := n) hd).2
  have hdouble : 2 * divNearest n d * d < (2 * m + 2) * d := by
    rw [Nat.add_mul, Nat.mul_assoc, Nat.mul_assoc]
    omega
  have := Nat.lt_of_mul_lt_mul_right hdouble
  omega

lemma divNearest_scale_le (hd : 0 < den) (h : (num / den : ℚ) ≤ m * 2 ^ e) :
    divNearest (scale 2 num den (-e)).1 (scale 2 num den (-e)).2 ≤ m := by
  have hpos : (0 : ℚ) < (scale 2 num den (-e)).2 := Nat.cast_pos.mpr (scale_snd_pos hd)
  refine divNearest_le (scale_snd_pos hd) ?_
  rw [← Nat.cast_le (α := ℚ), Nat.cast_mul, ← div_le_iff₀ hpos, scale_ratio, zpow_neg,
    ← div_eq_mul_inv, div_le_iff₀ (by positivity)]
  exact h

lemma abs_divNearest_sub_le (hd : 0 < d) (z : Int) :
    |(divNearest n d : ℚ) - n / d| ≤ |(z : ℚ) - n / d| := by
  have hpos : (0 : ℚ) < d := Nat.cast_pos.mpr hd
  have hhalf : |(divNearest n d : ℚ) - n / d| ≤ 1 / 2 := by
    obtain ⟨hlow, hhigh⟩ := divNearest_bounds (n := n) hd
    have hlow : (2 * n : ℚ) ≤ 2 * (divNearest n d * d) + d := by exact_mod_cast hlow
    have hhigh : (2 * (divNearest n d * d) : ℚ) ≤ 2 * n + d := by exact_mod_cast hhigh
    rw [abs_le, neg_le_sub_iff_le_add, sub_le_iff_le_add', div_le_iff₀ hpos, ← sub_le_iff_le_add,
      le_div_iff₀ hpos]
    constructor <;> linarith
  by_cases hz : z = divNearest n d
  · rw [hz, Int.cast_natCast]
  · have hapart : (1 : ℚ) ≤ |(z : ℚ) - (divNearest n d : ℤ)| := by
      rw [← Int.cast_sub, ← Int.cast_abs, ← Int.cast_one, Int.cast_le]
      exact Int.one_le_abs (sub_ne_zero.mpr hz)
    have htriangle := abs_sub_le (z : ℚ) (n / d) (divNearest n d : ℤ)
    rw [abs_sub_comm (n / d : ℚ), Int.cast_natCast] at htriangle
    rw [Int.cast_natCast] at hapart
    linarith

lemma abs_sub_le_of_fits (hm : ∀ z : Int, |(m : ℚ) - q * 2 ^ (-e)| ≤ |(z : ℚ) - q * 2 ^ (-e)|)
    (he : e = -1074 ∨ (2 : ℚ) ^ (e + 52) ≤ q) {m' : Nat} {e' : Int} (h : Fits m' e') :
    |(m : ℚ) * 2 ^ e - q| ≤ |(m' : ℚ) * 2 ^ e' - q| := by
  have hstep : (0 : ℚ) < 2 ^ e := by positivity
  have hscaled (x : ℚ) : |x - q * 2 ^ (-e)| * 2 ^ e = |x * 2 ^ e - q| := by
    rw [← abs_of_pos hstep, ← abs_mul, abs_of_pos hstep, sub_mul, mul_assoc q,
      ← zpow_add₀ two_ne_zero, neg_add_cancel, zpow_zero, mul_one]
  have hgrid (z : Int) : |(m : ℚ) * 2 ^ e - q| ≤ |(z : ℚ) * 2 ^ e - q| := by
    rw [← hscaled, ← hscaled]
    exact mul_le_mul_of_nonneg_right (hm z) hstep.le
  by_cases hee : e ≤ e'
  · -- A coarser number is one of the multiples.
    obtain ⟨k, rfl⟩ := Int.le.dest hee
    have hmultiple : ((m' * 2 ^ k : Nat) : Int) * (2 : ℚ) ^ e = m' * 2 ^ (e + k) := by
      rw [zpow_add₀ two_ne_zero, zpow_natCast]
      push_cast
      ring
    rw [← hmultiple]
    exact hgrid _
  · -- Between a finer number and `q` there is the multiple `2 ^ (e + 52)`.
    have hlow : (2 : ℚ) ^ (e + 52) ≤ q := he.resolve_left (by have := h.2.1; omega)
    have hbelow : (m' : ℚ) * 2 ^ e' ≤ 2 ^ (e + 52) := by
      have hmantissa : (m' : ℚ) ≤ 2 ^ (53 : Int) := by exact_mod_cast h.1.le
      have hexponent : (2 : ℚ) ^ e' ≤ 2 ^ (e - 1) := zpow_le_zpow_right₀ one_le_two (by omega)
      calc (m' : ℚ) * 2 ^ e' ≤ 2 ^ (53 : Int) * 2 ^ (e - 1) := by gcongr
        _ = 2 ^ (e + 52) := by rw [← zpow_add₀ two_ne_zero]; congr 1; omega
    have hbetween := hgrid (2 ^ 52)
    have hpower : ((2 ^ 52 : Int) : ℚ) * 2 ^ e = 2 ^ (e + 52) := by
      rw [zpow_add₀ two_ne_zero, mul_comm]
      norm_num
    rw [hpower, abs_sub_comm _ q, abs_sub_comm _ q, abs_of_nonneg (sub_nonneg.mpr hlow)] at hbetween
    rw [abs_sub_comm _ q, abs_sub_comm _ q, abs_of_nonneg (a := q - m' * 2 ^ e') (by linarith)]
    linarith

lemma ofQuotient_eq (hn : 0 < num) (hd : 0 < den) (he : max (floorLog2 num den - 52) (-1074) = e)
    (hm : divNearest (scale 2 num den (-e)).1 (scale 2 num den (-e)).2 = m) (hsmall : e < 971) :
    ofQuotient false num den =
      if m = 2 ^ 53 then .finite false (2 ^ 52) (e + 1) else .finite false m e := by
  rw [ofQuotient, if_neg (by omega)]
  simp only [he, hm, Nat.pow_eq]
  by_cases hcarry : m = 2 ^ 53
  · simp only [if_pos hcarry]
    rw [if_neg (by omega)]
  · simp only [if_neg hcarry]
    rw [if_neg (by omega)]

lemma isNearest_zero (den : Nat) : IsNearest (ofQuotient false 0 den) ((0 : Nat) / den) := by
  refine ⟨0, 0, by simp [ofQuotient], by simp [Fits], fun m' e' _ => ?_⟩
  have hnonneg : (0 : ℚ) ≤ m' * 2 ^ e' := by positivity
  simpa using hnonneg

lemma floorLog2_nonpos (hn : 0 < num) (hd : 0 < den) (hle : num ≤ den) : floorLog2 num den ≤ 0 := by
  have hone : (num / den : ℚ) ≤ 1 := (div_le_one (Nat.cast_pos.mpr hd)).mpr (Nat.cast_le.mpr hle)
  rw [← zpow_le_zpow_iff_right₀ one_lt_two (a := (2 : ℚ)), zpow_zero]
  exact (floorLog2_spec hn hd).1.trans hone

lemma isNearest_ofQuotient (hd : 0 < den) (hle : num ≤ den) :
    IsNearest (ofQuotient false num den) (num / den) := by
  obtain rfl | hn := Nat.eq_zero_or_pos num
  · exact isNearest_zero den
  obtain ⟨hlow, hhigh⟩ := floorLog2_spec hn hd
  obtain ⟨e, he⟩ : ∃ e, max (floorLog2 num den - 52) (-1074) = e := ⟨_, rfl⟩
  obtain ⟨m, hm⟩ : ∃ m, divNearest (scale 2 num den (-e)).1 (scale 2 num den (-e)).2 = m := ⟨_, rfl⟩
  have hsmall : e ≤ -52 := by
    have hfloor := floorLog2_nonpos hn hd hle
    omega
  have hnearest (z : Int) : |(m : ℚ) - num / den * 2 ^ (-e)| ≤ |(z : ℚ) - num / den * 2 ^ (-e)| := by
    rw [← scale_ratio, ← hm]
    exact abs_divNearest_sub_le (scale_snd_pos hd) z
  have hfits {m' : Nat} {e' : Int} (h : Fits m' e') :
      |(m : ℚ) * 2 ^ e - num / den| ≤ |(m' : ℚ) * 2 ^ e' - num / den| := by
    refine abs_sub_le_of_fits hnearest ?_ h
    by_cases hleast : e = -1074
    · exact .inl hleast
    · refine .inr (hlow.trans' (zpow_le_zpow_right₀ one_le_two ?_))
      omega
  have hbound : m ≤ 2 ^ 53 := by
    rw [← hm]
    refine divNearest_scale_le hd ?_
    have hbelow : (num / den : ℚ) ≤ 2 ^ 53 * 2 ^ e := by
      rw [← zpow_natCast, ← zpow_add₀ two_ne_zero]
      exact hhigh.le.trans (zpow_le_zpow_right₀ one_le_two (by omega))
    exact_mod_cast hbelow
  rw [ofQuotient_eq hn hd he hm (by omega)]
  split
  · next hcarry =>
    refine ⟨_, _, rfl, ⟨by norm_num, by omega, by omega⟩, fun m' e' h => ?_⟩
    have hsame : ((2 ^ 52 : Nat) : ℚ) * 2 ^ (e + 1) = m * 2 ^ e := by
      rw [hcarry, zpow_add_one₀ two_ne_zero]
      push_cast
      ring
    rw [hsame]
    exact hfits h
  · next hcarry =>
    exact ⟨m, e, rfl, ⟨by omega, by omega, by omega⟩, fun m' e' h => hfits h⟩

end Portability.Binary64
