import Mathlib
import BearerToken.Binary64.Shortest
import BearerToken.Proofs.Binary64.Rounding
import BearerToken.Proofs.Numeral

/-!
# The shortest decimal reads back

The search for the shortest decimal of a number ends with a decimal that is read as that number: with
seventeen digits the nearest decimal is nearer to the number than to the middle between it and its
neighbours.
-/

namespace BearerToken.Binary64

/-- The value of a decimal. -/
def decimal (digits : Nat) (exponent : Int) : ℚ := digits * 10 ^ exponent

theorem quotient_decimal (digits : Nat) (exponent : Int) :
    quotient (timesPower 10 digits 1 exponent) = decimal digits exponent := by
  rw [quotient_timesPower (by decide), decimal]
  norm_num

/-- The place of a decimal's first digit bounds it from both sides. -/
theorem decimal_bounds {digits : Nat} (positive : 0 < digits) (exponent : Int) :
    (10 : ℚ) ^ (exponent + (Numeral.digits digits).length - 1) ≤ decimal digits exponent ∧
      decimal digits exponent < 10 ^ (exponent + (Numeral.digits digits).length) := by
  have power : (0 : ℚ) < 10 ^ exponent := by positivity
  obtain ⟨lower, upper⟩ := Numeral.length_digits_bounds positive
  constructor
  · rw [add_sub_assoc, zpow_add₀ (by norm_num), decimal, mul_comm]
    apply mul_le_mul_of_nonneg_right _ power.le
    have length : 0 < (Numeral.digits digits).length :=
      List.length_pos_iff.mpr (Numeral.digits_ne_nil digits)
    rw [show ((Numeral.digits digits).length : Int) - 1 =
      (((Numeral.digits digits).length - 1 : Nat) : Int) by omega, zpow_natCast]
    exact_mod_cast lower
  · rw [zpow_add₀ (by norm_num), decimal, mul_comm, zpow_natCast]
    apply mul_lt_mul_of_pos_left _ power
    exact_mod_cast upper

/-- What is near to a number lies between the least and the greatest magnitude. -/
theorem IsNear.bounds {x : ℚ} {m : Nat} {e : Int} (canonical : IsCanonical m e)
    (positive : 0 < m) (near : IsNear x m e) :
    (2 : ℚ) ^ (-1075 : Int) < x ∧ x < 2 ^ (1024 : Int) := by
  obtain ⟨small, least, greatest, -⟩ := canonical
  have within := abs_lt.mp near.within
  have power : (0 : ℚ) < 2 ^ e := by positivity
  have one : (1 : ℚ) ≤ m := by exact_mod_cast positive
  have most := cast_le_of_lt small
  have low : 2 ^ e ≤ magnitude m e := le_mul_of_one_le_left power.le one
  have high : magnitude m e ≤ (2 ^ 53 - 1) * 2 ^ e := mul_le_mul_of_nonneg_right most power.le
  have powLow : (2 : ℚ) ^ (-1074 : Int) ≤ 2 ^ e := zpow_le_zpow_right₀ (by norm_num) least
  have powHigh : (2 : ℚ) ^ e ≤ 2 ^ (971 : Int) := zpow_le_zpow_right₀ (by norm_num) greatest
  have half : (2 : ℚ) ^ (-1074 : Int) = 2 * 2 ^ (-1075 : Int) := by
    rw [← zpow_one_add₀ (by norm_num)]
    norm_num
  have top : (2 : ℚ) ^ (1024 : Int) = 2 ^ 53 * 2 ^ (971 : Int) := by
    rw [← zpow_natCast, ← zpow_add₀ (by norm_num)]
    norm_num
  rw [top]
  constructor
  · linarith only [within.1, low, powLow, half]
  · calc x < magnitude m e + 2 ^ e / 2 := by linarith only [within.2]
      _ ≤ 2 ^ 53 * 2 ^ e := by linarith only [high, power]
      _ ≤ 2 ^ 53 * 2 ^ (971 : Int) := mul_le_mul_of_nonneg_left powHigh (by norm_num)

theorem huge_lt {a b : Nat} (h : 2 ^ b < 10 ^ a) : (2 : ℚ) ^ (b : Int) < 10 ^ (a : Int) := by
  exact_mod_cast h

theorem tiny_lt {a b : Nat} (h : 2 ^ b < 10 ^ a) : (10 : ℚ) ^ (-(a : Int)) < 2 ^ (-(b : Int)) := by
  rw [zpow_neg, zpow_neg, inv_lt_inv₀ (by positivity) (by positivity)]
  exact huge_lt h

/-- A decimal that is nearest to a number is read as that number. -/
theorem ofDecimal_eq (negative : Bool) {digits : Nat} {exponent : Int} {m : Nat} {e : Int}
    (canonical : IsCanonical m e) (positive : 0 < m)
    (near : IsNear (decimal digits exponent) m e) :
    ofDecimal negative digits exponent = .finite negative m e canonical := by
  obtain ⟨above, below⟩ := near.bounds canonical positive
  have nonzero : digits ≠ 0 := by
    rintro rfl
    have zero : decimal 0 exponent = 0 := by simp [decimal]
    have least : (0 : ℚ) < 2 ^ (-1075 : Int) := by positivity
    linarith
  have pos := Nat.pos_of_ne_zero nonzero
  obtain ⟨lower, upper⟩ := decimal_bounds pos exponent
  have notTiny : ¬exponent + ((Numeral.digits digits).length : Int) < -330 := by
    intro tiny
    have bound : decimal digits exponent < 10 ^ (-330 : Int) :=
      lt_of_lt_of_le upper (zpow_le_zpow_right₀ (by norm_num) tiny.le)
    exact absurd (above.trans bound) (not_lt.mpr (tiny_lt (by decide +kernel)).le)
  have notHuge : ¬exponent + ((Numeral.digits digits).length : Int) > 330 := by
    intro huge
    have bound : (10 : ℚ) ^ (330 : Int) ≤ decimal digits exponent :=
      le_trans (zpow_le_zpow_right₀ (by norm_num) (by omega)) lower
    exact absurd (bound.trans_lt below) (not_lt.mpr (huge_lt (by decide +kernel)).le)
  have value := quotient_decimal digits exponent
  rw [quotient] at value
  simp only [ofDecimal, nonzero, notTiny, notHuge, decide_false, Bool.or_false, Bool.false_eq_true,
    if_false]
  apply ofRatio_eq negative canonical
  · exact timesPower_num_pos (by decide) pos 1 exponent
  · exact timesPower_den_pos (by decide) (by decide) digits exponent
  · rw [value]
    exact near

/-- Zeros moved from the exponent into the digits change nothing. -/
theorem ofDecimal_shift (negative : Bool) (digits k : Nat) (exponent : Int) :
    ofDecimal negative (digits * 10 ^ k) (exponent - k) = ofDecimal negative digits exponent := by
  by_cases zero : digits = 0
  · subst zero
    simp [ofDecimal]
  · have zero' : digits * 10 ^ k ≠ 0 := by positivity
    have front : exponent - k + ((Numeral.digits (digits * 10 ^ k)).length : Int) =
        exponent + (Numeral.digits digits).length := by
      rw [Numeral.length_digits_mul zero]
      push_cast
      ring
    have same : ofRatio negative (timesPower 10 (digits * 10 ^ k) 1 (exponent - k)).1
          (timesPower 10 (digits * 10 ^ k) 1 (exponent - k)).2 =
        ofRatio negative (timesPower 10 digits 1 exponent).1
          (timesPower 10 digits 1 exponent).2 := by
      have pos := timesPower_den_pos (show 0 < 10 by decide) Nat.one_pos
        (digits * 10 ^ k) (exponent - k)
      have pos' := timesPower_den_pos (show 0 < 10 by decide) Nat.one_pos
        digits exponent
      apply ofRatio_congr negative pos pos'
      have values : quotient (timesPower 10 (digits * 10 ^ k) 1 (exponent - k)) =
          quotient (timesPower 10 digits 1 exponent) := by
        rw [quotient_decimal, quotient_decimal, decimal, decimal, zpow_sub₀ (by norm_num),
          zpow_natCast]
        push_cast
        field_simp
      rw [quotient, quotient, div_eq_div_iff (by exact_mod_cast pos.ne')
        (by exact_mod_cast pos'.ne')] at values
      exact_mod_cast values
    simp only [ofDecimal, front, zero, zero', same]

theorem normalised_sign (negative : Bool) {m m' : Nat} {e e' : Int} {canonical : IsCanonical m' e'}
    (h : normalised false m e = .finite false m' e' canonical) :
    normalised negative m e = .finite negative m' e' canonical := by
  simp only [normalised] at h ⊢
  split_ifs at h ⊢ <;> simp_all

theorem ofRatio_sign (negative : Bool) {num den m : Nat} {e : Int} {canonical : IsCanonical m e}
    (h : ofRatio false num den = .finite false m e canonical) :
    ofRatio negative num den = .finite negative m e canonical := by
  rw [ofRatio] at h ⊢
  split_ifs at h ⊢
  · simp_all [zero]
  · exact normalised_sign negative h

/-- Reading a decimal behind a minus sign changes the sign alone. -/
theorem ofDecimal_sign (negative : Bool) {digits m : Nat} {exponent e : Int}
    {canonical : IsCanonical m e}
    (h : ofDecimal false digits exponent = .finite false m e canonical) :
    ofDecimal negative digits exponent = .finite negative m e canonical := by
  simp only [ofDecimal] at h ⊢
  split_ifs at h ⊢
  · simp_all [zero]
  · exact ofRatio_sign negative h

section Exponent

/-- Two convergents of the logarithm, one from each side, compare the powers of two and ten that the
estimate of the decimal exponent relates. -/
theorem ten_zpow_le {k j : Int} (range : -1100 ≤ j ∧ j ≤ 1100)
    (estimate : 100000 * k + 69897 ≤ 30103 * j) : (10 : ℚ) ^ k ≤ 2 ^ j := by
  obtain negative | positive := lt_or_ge k 0
  · obtain below | above := lt_or_ge j 0
    · obtain ⟨a, rfl⟩ := Int.exists_eq_neg_ofNat negative.le
      obtain ⟨b, rfl⟩ := Int.exists_eq_neg_ofNat below.le
      have powers : (2 ^ b) ^ 93 ≤ (10 ^ a) ^ 93 := by
        calc (2 ^ b) ^ 93 = (2 ^ 93) ^ b := by rw [← Nat.pow_mul, ← Nat.pow_mul, Nat.mul_comm]
          _ ≤ (10 ^ 28) ^ b := Nat.pow_le_pow_left (by decide) b
          _ = 10 ^ (28 * b) := by rw [← Nat.pow_mul]
          _ ≤ 10 ^ (93 * a) := Nat.pow_le_pow_right (by decide) (by omega)
          _ = (10 ^ a) ^ 93 := by rw [← Nat.pow_mul, Nat.mul_comm]
      have power : 2 ^ b ≤ 10 ^ a := (Nat.pow_le_pow_iff_left (by decide)).mp powers
      rw [zpow_neg, zpow_neg, zpow_natCast, zpow_natCast,
        inv_le_inv₀ (by positivity) (by positivity)]
      exact_mod_cast power
    · calc (10 : ℚ) ^ k ≤ 1 := zpow_le_one_of_nonpos₀ (by norm_num) negative.le
        _ ≤ 2 ^ j := one_le_zpow₀ (by norm_num) above
  · obtain ⟨a, rfl⟩ := Int.eq_ofNat_of_zero_le positive
    obtain ⟨b, rfl⟩ := Int.eq_ofNat_of_zero_le (show 0 ≤ j by omega)
    have powers : (10 ^ a) ^ 59 ≤ (2 ^ b) ^ 59 := by
      calc (10 ^ a) ^ 59 = (10 ^ 59) ^ a := by rw [← Nat.pow_mul, ← Nat.pow_mul, Nat.mul_comm]
        _ ≤ (2 ^ 196) ^ a := Nat.pow_le_pow_left (by decide) a
        _ = 2 ^ (196 * a) := by rw [← Nat.pow_mul]
        _ ≤ 2 ^ (59 * b) := Nat.pow_le_pow_right (by decide) (by omega)
        _ = (2 ^ b) ^ 59 := by rw [← Nat.pow_mul, Nat.mul_comm]
    have power : 10 ^ a ≤ 2 ^ b := (Nat.pow_le_pow_iff_left (by decide)).mp powers
    rw [zpow_natCast, zpow_natCast]
    exact_mod_cast power

variable {num den : Nat}

theorem below_iff (hd : 0 < den) (k : Int) :
    (timesPower 10 num den (-k)).1 < (timesPower 10 num den (-k)).2 ↔
      (num : ℚ) / den < 10 ^ k := by
  have pos := timesPower_den_pos (show 0 < 10 by decide) hd num (-k)
  have value := quotient_timesPower (show 0 < 10 by decide) num den (-k)
  have power : (0 : ℚ) < 10 ^ k := by positivity
  have unit : (timesPower 10 num den (-k)).1 < (timesPower 10 num den (-k)).2 ↔
      quotient (timesPower 10 num den (-k)) < 1 := by
    rw [quotient, div_lt_one (by exact_mod_cast pos)]
    exact_mod_cast Iff.rfl
  rw [unit, value, zpow_neg, ← div_eq_mul_inv, Nat.cast_ofNat, div_lt_one power]

/-- The first digit of a ratio does not stand above its decimal exponent. -/
theorem decimalExponent_le (hn : 0 < num) (hd : 0 < den)
    (range : (2 : ℚ) ^ (-1075 : Int) < num / den ∧ (num : ℚ) / den < 2 ^ (1024 : Int)) :
    (10 : ℚ) ^ decimalExponent num den ≤ num / den := by
  obtain ⟨lower, upper⟩ := log2_bounds hn hd
  have least := lt_of_zpow_lt (range.1.trans upper)
  have greatest := lt_of_zpow_lt (lower.trans range.2)
  simp only [decimalExponent, decide_eq_true_eq, below_iff hd]
  split_ifs with first second
  · refine le_trans (ten_zpow_le ?_ ?_) lower.le <;> omega
  · exact not_lt.mp first
  · exact not_lt.mp second

end Exponent

section Search

/-- The number of a place's grid that is nearest to a ratio. -/
def nearest (num den : Nat) (place : Int) : Nat :=
  roundHalfEven (timesPower 10 num den (-place)).1 (timesPower 10 num den (-place)).2

theorem nearest_near {den : Nat} (num : Nat) (hd : 0 < den) (place : Int) :
    |(num : ℚ) / den - decimal (nearest num den place) place| ≤ 10 ^ place / 2 := by
  have pos := timesPower_den_pos (show 0 < 10 by decide) hd num (-place)
  have value := quotient_timesPower (show 0 < 10 by decide) num den (-place)
  have power : (0 : ℚ) < 10 ^ place := by positivity
  have close := roundHalfEven_near (timesPower 10 num den (-place)).1 pos
  rw [quotient, zpow_neg, ← div_eq_mul_inv, Nat.cast_ofNat] at value
  rw [value] at close
  have scaled_up : (num : ℚ) / den - decimal (nearest num den place) place =
      ((num : ℚ) / den / 10 ^ place - nearest num den place) * 10 ^ place := by
    rw [sub_mul, div_mul_cancel₀ _ power.ne', decimal]
  rw [scaled_up, abs_mul, abs_of_pos power, div_eq_mul_one_div (10 ^ place) 2, mul_comm]
  exact mul_le_mul_of_nonneg_left close power.le

variable {target : Binary64} {num den : Nat} {top : Int}

theorem roundHalfEven_cases (num den : Nat) :
    roundHalfEven num den = num / den ∨ roundHalfEven num den = num / den + 1 := by
  simp only [roundHalfEven]
  split_ifs
  · exact .inl rfl
  · obtain even | odd := Nat.mod_two_eq_zero_or_one (num / den)
    · exact .inl (by rw [even, Nat.add_zero])
    · exact .inr (by rw [odd])
  · exact .inr rfl

/-- One step of the search tries the nearest decimal of its place, and then another. -/
theorem searchDigits_succ (target : Binary64) (num den : Nat) (top : Int) (fuel count : Nat) :
    ∃ second, searchDigits target num den top (fuel + 1) count =
      if ofDecimal false (nearest num den (top + 1 - count)) (top + 1 - count) = target then
        (nearest num den (top + 1 - count), top + 1 - count)
      else if ofDecimal false second (top + 1 - count) = target then (second, top + 1 - count)
      else searchDigits target num den top fuel (count + 1) := by
  set n := (timesPower 10 num den (-(top + 1 - (count : Int)))).1 with n_def
  set d := (timesPower 10 num den (-(top + 1 - (count : Int)))).2 with d_def
  have closest : nearest num den (top + 1 - count) = roundHalfEven n d := rfl
  rw [searchDigits, closest]
  simp only [neighbour, ← n_def, ← d_def]
  by_cases low : roundHalfEven n d = n / d
  · refine ⟨n / d + 1, ?_⟩
    simp [low]
  · have high := (roundHalfEven_cases n d).resolve_left low
    refine ⟨n / d, ?_⟩
    simp [high]

/-- The search finds a decimal that is read as the target if the nearest decimal of seventeen digits
is one. -/
theorem searchDigits_reads
    (last : ofDecimal false (nearest num den (top + 1 - 17)) (top + 1 - 17) = target) :
    ∀ fuel count : Nat, count ≤ 17 → 17 < count + fuel →
      ofDecimal false (searchDigits target num den top fuel count).1
        (searchDigits target num den top fuel count).2 = target := by
  intro fuel
  induction fuel with
  | zero =>
      intro count most enough
      omega
  | succ fuel ih =>
      intro count most enough
      obtain ⟨second, step⟩ := searchDigits_succ target num den top fuel count
      rw [step]
      by_cases final : count = 17
      · subst final
        have hit : ofDecimal false (nearest num den (top + 1 - (17 : Nat))) (top + 1 - (17 : Nat)) =
            target := last
        rw [if_pos hit]
        exact hit
      · split_ifs with found found'
        · exact found
        · exact found'
        · exact ih (count + 1) (by omega) (by omega)

theorem isNear_self (m : Nat) (e : Int) : IsNear (magnitude m e) m e := by
  have power : (0 : ℚ) < 2 ^ e := by positivity
  constructor
  · rw [sub_self, abs_zero]
    positivity
  · intro _
    rw [sub_self]
    positivity

/-- Seventeen digits leave an error of at most `10 ^ -16 / 2` of the number. -/
theorem isNear_nearest {m : Nat} {e : Int} (canonical : IsCanonical m e) (hd : 0 < den)
    (value : (num : ℚ) / den = magnitude m e) (first : (10 : ℚ) ^ top ≤ magnitude m e) :
    IsNear (decimal (nearest num den (top + 1 - 17)) (top + 1 - 17)) m e := by
  have power : (0 : ℚ) < 2 ^ e := by positivity
  have grid : (10 : ℚ) ^ (top + 1 - 17) ≤ magnitude m e / 10 ^ 16 := by
    rw [show top + 1 - 17 = top - (16 : Nat) by push_cast; ring, zpow_sub₀ (by norm_num),
      zpow_natCast]
    gcongr
  have size : magnitude m e < 2 ^ 53 * 2 ^ e := by
    have small : (m : ℚ) < 2 ^ 53 := by exact_mod_cast canonical.1
    exact mul_lt_mul_of_pos_right small power
  have error := nearest_near num hd (top + 1 - 17)
  rw [value, abs_le] at error
  constructor
  · rw [abs_lt]
    constructor <;> linarith
  · intro least
    have size' : magnitude m e = 2 ^ 52 * 2 ^ e := by
      rw [magnitude, least]
      norm_num
    linarith

/-- The shortest decimal of a number is read as that number. -/
theorem ofDecimal_shortest {m : Nat} {e : Int} (canonical : IsCanonical m e)
    (positive : 0 < m) :
    ofDecimal false (shortest m e canonical).1 (shortest m e canonical).2 =
      .finite false m e canonical := by
  have hn : 0 < (ratio m e).1 := timesPower_num_pos (by decide) positive 1 e
  have hd : 0 < (ratio m e).2 := timesPower_den_pos (by decide) (by decide) m e
  have value : ((ratio m e).1 : ℚ) / (ratio m e).2 = magnitude m e := by
    have scaled_value := quotient_timesPower (show 0 < 2 by decide) m 1 e
    rw [Nat.cast_one, div_one, Nat.cast_ofNat] at scaled_value
    exact scaled_value
  have first := decimalExponent_le hn hd (value ▸ (isNear_self m e).bounds canonical positive)
  rw [value] at first
  have last := ofDecimal_eq false canonical positive (isNear_nearest canonical hd value first)
  rw [shortest]
  exact searchDigits_reads last 17 1 (by decide) (by decide)

end Search

end BearerToken.Binary64
