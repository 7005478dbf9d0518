import Mathlib
import BearerToken.Binary64

/-!
# Rounding to binary numbers

The number that a ratio is rounded to depends on the value of the ratio alone. A ratio that is nearer
to a representable number than half its distance to the next one is rounded to that number.
-/

namespace BearerToken

/-- The value of a ratio. -/
def quotient (r : Nat × Nat) : ℚ := r.1 / r.2

theorem quotient_timesPower {base : Nat} (positive : 0 < base) (num den : Nat) (exponent : Int) :
    quotient (timesPower base num den exponent) = num / den * base ^ exponent := by
  have nonzero : (base : ℚ) ≠ 0 := by exact_mod_cast positive.ne'
  cases exponent with
  | ofNat k =>
      simp only [quotient, timesPower, Nat.pow_eq, Int.ofNat_eq_natCast, zpow_natCast]
      push_cast
      ring
  | negSucc k =>
      simp only [quotient, timesPower, Nat.pow_eq, zpow_negSucc]
      push_cast
      rw [div_mul_eq_div_div, div_eq_mul_inv (_ / _)]

theorem timesPower_den_pos {base den : Nat} (positive : 0 < base) (h : 0 < den) (num : Nat)
    (exponent : Int) : 0 < (timesPower base num den exponent).2 := by
  cases exponent with
  | ofNat k => exact h
  | negSucc k => exact Nat.mul_pos h (Nat.pow_pos positive)

theorem timesPower_num_pos {base num : Nat} (positive : 0 < base) (h : 0 < num) (den : Nat)
    (exponent : Int) : 0 < (timesPower base num den exponent).1 := by
  cases exponent with
  | ofNat k => exact Nat.mul_pos h (Nat.pow_pos positive)
  | negSucc k => exact h

section Nearest

variable {num den : Nat}

/-- A ratio is its whole part and a part of one. -/
theorem div_eq_whole_add (positive : 0 < den) :
    (num : ℚ) / den = (num / den : Nat) + (num % den : Nat) / (den : ℚ) := by
  have nonzero : (den : ℚ) ≠ 0 := by exact_mod_cast positive.ne'
  have whole : (num : ℚ) = den * (num / den : Nat) + (num % den : Nat) := by
    exact_mod_cast (Nat.div_add_mod num den).symm
  rw [div_eq_iff nonzero, add_mul, div_mul_cancel₀ _ nonzero, mul_comm _ (den : ℚ)]
  exact whole

theorem roundHalfEven_near (num : Nat) (positive : 0 < den) :
    |(num : ℚ) / den - roundHalfEven num den| ≤ 1 / 2 := by
  have pos : (0 : ℚ) < den := by exact_mod_cast positive
  have nonneg : (0 : ℚ) ≤ (num % den : Nat) / (den : ℚ) := by positivity
  have small : ((num % den : Nat) : ℚ) / den < 1 := by
    rw [div_lt_one pos]
    exact_mod_cast Nat.mod_lt num positive
  have half (r : Nat) : (r : ℚ) / den ≤ 1 / 2 ↔ 2 * r ≤ den := by
    rw [div_le_div_iff₀ pos (by norm_num), one_mul, mul_comm]
    exact_mod_cast Iff.rfl
  have half' (r : Nat) : 1 / 2 ≤ (r : ℚ) / den ↔ den ≤ 2 * r := by
    rw [div_le_div_iff₀ (by norm_num) pos, one_mul, mul_comm (r : ℚ)]
    exact_mod_cast Iff.rfl
  rw [div_eq_whole_add positive, abs_le]
  simp only [roundHalfEven]
  split_ifs with below tie
  · have low := (half _).mpr below.le
    constructor <;> linarith
  · have low := (half _).mpr tie.le
    have high := (half' _).mpr tie.ge
    obtain even | odd := Nat.mod_two_eq_zero_or_one (num / den)
    · rw [even]
      push_cast
      constructor <;> linarith
    · rw [odd]
      push_cast
      constructor <;> linarith
  · have high := (half' (num % den)).mpr (by omega)
    push_cast
    constructor <;> linarith

/-- What is nearer to a number than one half is rounded to it. -/
theorem roundHalfEven_eq (positive : 0 < den) {r : Nat} (near : |(num : ℚ) / den - r| < 1 / 2) :
    roundHalfEven num den = r := by
  have close := roundHalfEven_near num positive
  have apart : |(roundHalfEven num den : ℚ) - r| < 1 := by
    rw [abs_lt] at near ⊢
    rw [abs_le] at close
    constructor <;> linarith
  have equal : ((roundHalfEven num den : Int) - r) = 0 := by
    apply Int.abs_lt_one_iff.mp
    exact_mod_cast apart
  omega

/-- Rounding sees the value of a ratio only. -/
theorem roundHalfEven_congr {num' den' : Nat} (h : 0 < den) (h' : 0 < den')
    (same : num * den' = num' * den) : roundHalfEven num den = roundHalfEven num' den' := by
  have whole : num / den = num' / den' := by
    rw [← Nat.mul_div_mul_right num den h', same, Nat.mul_comm den den',
      Nat.mul_div_mul_right num' den' h]
  have part : num % den * den' = num' % den' * den := by
    rw [← Nat.mul_mod_mul_right, same, Nat.mul_comm den den', Nat.mul_mod_mul_right]
  have below : 2 * (num % den) < den ↔ 2 * (num' % den') < den' := by
    rw [← Nat.mul_lt_mul_right h', Nat.mul_assoc, part, ← Nat.mul_assoc, Nat.mul_comm den den',
      Nat.mul_lt_mul_right h]
  have tie : 2 * (num % den) = den ↔ 2 * (num' % den') = den' := by
    rw [← Nat.mul_left_inj h'.ne', Nat.mul_assoc, part, ← Nat.mul_assoc, Nat.mul_comm den den',
      Nat.mul_left_inj h.ne']
  simp only [roundHalfEven, whole, below, tie]

end Nearest

namespace Binary64

section Exponent

variable {num den : Nat} {e : Int}

/-- The exponent at which a value has a mantissa of 53 bits, or the least exponent. -/
def Fits (x : ℚ) (e : Int) : Prop :=
  leastExponent ≤ e ∧ x < 2 ^ 53 * (2 : ℚ) ^ e ∧ (e = leastExponent ∨ 2 ^ 52 * (2 : ℚ) ^ e ≤ x)

theorem lt_of_zpow_lt {a b : Int} (h : (2 : ℚ) ^ a < 2 ^ b) : a < b :=
  (zpow_lt_zpow_iff_right₀ (by norm_num)).mp h

theorem zpow_eq_two_mul (e : Int) : (2 : ℚ) ^ e = 2 * 2 ^ (e - 1) := by
  rw [zpow_sub₀ (by norm_num), zpow_one]
  ring

theorem Fits.unique {x : ℚ} {e e' : Int} (fits : Fits x e) (fits' : Fits x e') : e = e' := by
  obtain ⟨least, upper, lower⟩ := fits
  obtain ⟨least', upper', lower'⟩ := fits'
  have bound {a b : Int} (low : 2 ^ 52 * (2 : ℚ) ^ a ≤ x) (high : x < 2 ^ 53 * (2 : ℚ) ^ b) :
      a ≤ b := by
    have powers : (2 : ℚ) ^ a < 2 ^ (b + 1) := by
      rw [zpow_add₀ (by norm_num), zpow_one]
      linarith
    have strict := lt_of_zpow_lt powers
    omega
  obtain rfl | lower := lower
  · obtain rfl | lower' := lower'
    · rfl
    · exact Int.le_antisymm least' (bound lower' upper)
  · obtain rfl | lower' := lower'
    · exact Int.le_antisymm (bound lower upper') least
    · exact Int.le_antisymm (bound lower upper') (bound lower' upper)

/-- The two logarithms fix the magnitude of a ratio up to a factor of four. -/
theorem log2_bounds (hn : 0 < num) (hd : 0 < den) :
    (2 : ℚ) ^ ((num.log2 : Int) - den.log2 - 1) < num / den ∧
      (num : ℚ) / den < 2 ^ ((num.log2 : Int) - den.log2 + 1) := by
  have pos : (0 : ℚ) < den := by exact_mod_cast hd
  have numLow : (2 : ℚ) ^ (num.log2 : Int) ≤ num := by
    rw [zpow_natCast]
    exact_mod_cast Nat.log2_self_le hn.ne'
  have numHigh : (num : ℚ) < 2 ^ ((num.log2 : Int) + 1) := by
    exact_mod_cast Nat.lt_log2_self (n := num)
  have denLow : (2 : ℚ) ^ (den.log2 : Int) ≤ den := by
    rw [zpow_natCast]
    exact_mod_cast Nat.log2_self_le hd.ne'
  have denHigh : (den : ℚ) < 2 ^ ((den.log2 : Int) + 1) := by
    exact_mod_cast Nat.lt_log2_self (n := den)
  constructor
  · rw [lt_div_iff₀ pos]
    calc (2 : ℚ) ^ ((num.log2 : Int) - den.log2 - 1) * den
        < 2 ^ ((num.log2 : Int) - den.log2 - 1) * 2 ^ ((den.log2 : Int) + 1) := by gcongr
      _ = 2 ^ (num.log2 : Int) := by
        rw [← zpow_add₀ (by norm_num)]
        congr 1
        ring
      _ ≤ num := numLow
  · rw [div_lt_iff₀ pos]
    calc (num : ℚ) < 2 ^ ((num.log2 : Int) + 1) := numHigh
      _ = 2 ^ ((num.log2 : Int) - den.log2 + 1) * 2 ^ (den.log2 : Int) := by
        rw [← zpow_add₀ (by norm_num)]
        congr 1
        ring
      _ ≤ 2 ^ ((num.log2 : Int) - den.log2 + 1) * den := by gcongr

theorem quotient_scaled (num den : Nat) (e : Int) :
    quotient (scaled num den e) = num / den / 2 ^ e := by
  rw [scaled, quotient_timesPower (by decide), zpow_neg, div_eq_mul_inv _ ((2 : ℚ) ^ e)]
  norm_num

theorem scaled_den_pos (hd : 0 < den) (num : Nat) (e : Int) : 0 < (scaled num den e).2 :=
  timesPower_den_pos (by decide) hd num (-e)

/-- The whole part of a scaled ratio is small exactly if the ratio is. -/
theorem div_scaled_lt (hd : 0 < den) :
    (scaled num den e).1 / (scaled num den e).2 < 2 ^ 53 ↔ (num : ℚ) / den < 2 ^ 53 * 2 ^ e := by
  have pos : (0 : ℚ) < (scaled num den e).2 := by exact_mod_cast scaled_den_pos hd num e
  have power : (0 : ℚ) < 2 ^ e := by positivity
  rw [Nat.div_lt_iff_lt_mul (scaled_den_pos hd num e), ← div_lt_iff₀ power, ← quotient_scaled,
    quotient, div_lt_iff₀ pos]
  exact_mod_cast Iff.rfl

theorem fits_exponentFor (hn : 0 < num) (hd : 0 < den) :
    Fits (num / den) (exponentFor num den) := by
  obtain ⟨lower, upper⟩ := log2_bounds hn hd
  set low : Int := (num.log2 : Int) - den.log2 - 53 with low_def
  -- The exponent before it is raised to the least one.
  obtain ⟨t, chosen, below, above⟩ : ∃ t : Int, exponentFor num den = max leastExponent t ∧
      (num : ℚ) / den < 2 ^ 53 * 2 ^ t ∧ 2 ^ 52 * (2 : ℚ) ^ t ≤ num / den := by
    have powers (a b : Int) : (2 : ℚ) ^ a * 2 ^ b = 2 ^ (a + b) := (zpow_add₀ (by norm_num) a b).symm
    by_cases small : (scaled num den low).1 / (scaled num den low).2 < 2 ^ 53
    · refine ⟨low, by simp only [exponentFor, ← low_def, small, if_true], (div_scaled_lt hd).mp small, ?_⟩
      have exponent : (2 : ℚ) ^ 52 * 2 ^ low = 2 ^ ((num.log2 : Int) - den.log2 - 1) := by
        rw [show (2 : ℚ) ^ 52 = 2 ^ (52 : Int) by norm_num, powers]
        congr 1
        omega
      rw [exponent]
      exact lower.le
    · have large := not_lt.mp (mt (div_scaled_lt hd).mpr small)
      refine ⟨low + 1, by simp only [exponentFor, ← low_def, small, if_false], ?_, ?_⟩
      · have exponent : (2 : ℚ) ^ 53 * 2 ^ (low + 1) = 2 ^ ((num.log2 : Int) - den.log2 + 1) := by
          rw [show (2 : ℚ) ^ 53 = 2 ^ (53 : Int) by norm_num, powers]
          congr 1
          omega
        rw [exponent]
        exact upper
      · rw [zpow_add₀ (by norm_num), zpow_one]
        linarith
  rw [chosen]
  obtain high | low := le_total leastExponent t
  · rw [max_eq_right high]
    exact ⟨high, below, .inr above⟩
  · rw [max_eq_left low]
    refine ⟨le_rfl, lt_of_lt_of_le below ?_, .inl rfl⟩
    gcongr
    norm_num

theorem exponentFor_eq (hn : 0 < num) (hd : 0 < den) (fits : Fits (num / den) e) :
    exponentFor num den = e :=
  (fits_exponentFor hn hd).unique fits

end Exponent

theorem ofRatio_congr (negative : Bool) {a b c d : Nat} (hb : 0 < b) (hd : 0 < d)
    (same : a * d = c * b) : ofRatio negative a b = ofRatio negative c d := by
  by_cases zero : a = 0
  · subst zero
    have zero' : c = 0 := by
      rw [Nat.zero_mul] at same
      exact (Nat.mul_eq_zero.mp same.symm).resolve_right hb.ne'
    rw [zero', ofRatio, ofRatio, if_pos rfl, if_pos rfl]
  · have zero' : c ≠ 0 := by
      rintro rfl
      rw [Nat.zero_mul] at same
      exact zero ((Nat.mul_eq_zero.mp same).resolve_right hd.ne')
    have value : (a : ℚ) / b = c / d := by
      rw [div_eq_div_iff (by exact_mod_cast hb.ne') (by exact_mod_cast hd.ne')]
      exact_mod_cast same
    have exponent : exponentFor a b = exponentFor c d := by
      apply exponentFor_eq (Nat.pos_of_ne_zero zero) hb
      rw [value]
      exact fits_exponentFor (Nat.pos_of_ne_zero zero') hd
    have rounded (e : Int) : roundHalfEven (scaled a b e).1 (scaled a b e).2 =
        roundHalfEven (scaled c d e).1 (scaled c d e).2 := by
      have pos := scaled_den_pos hb a e
      have pos' := scaled_den_pos hd c e
      apply roundHalfEven_congr pos pos'
      have values : quotient (scaled a b e) = quotient (scaled c d e) := by
        rw [quotient_scaled, quotient_scaled, value]
      rw [quotient, quotient, div_eq_div_iff (by exact_mod_cast pos.ne') (by exact_mod_cast pos'.ne')]
        at values
      exact_mod_cast values
    simp only [ofRatio, if_neg zero, if_neg zero', exponent, rounded]

/-- Carrying keeps what is in range representable. -/
theorem normalised_finite (negative : Bool) {m : Nat} {e : Int} (most : m ≤ 2 ^ 53)
    (least : leastExponent ≤ e) (carry : m = 2 ^ 53 → e < greatestExponent)
    (range : e ≤ greatestExponent) (normal : m < 2 ^ 52 → e = leastExponent) :
    ∃ m' e' canonical, normalised negative m e = .finite negative m' e' canonical := by
  rw [normalised]
  by_cases carried : m = 2 ^ 53
  · have step := carry carried
    have canonical : IsCanonical (2 ^ 52) (e + 1) :=
      ⟨by decide, by omega, by omega, fun small => absurd small (lt_irrefl _)⟩
    exact ⟨_, _, canonical, by simp only [if_pos carried, dif_pos canonical]⟩
  · have canonical : IsCanonical m e := ⟨lt_of_le_of_ne most carried, least, range, normal⟩
    exact ⟨_, _, canonical, by simp only [if_neg carried, dif_pos canonical]⟩

/-- A value that is rounded to 53 bits or more at an exponent bounds the exponent. -/
theorem lt_greatestExponent {x : ℚ} {k : Int} (below : x < (2 ^ 53 - 1 / 2) * 2 ^ greatestExponent)
    (large : (2 ^ 53 - 1 / 2) * 2 ^ k ≤ x) : k < greatestExponent := by
  apply lt_of_zpow_lt
  exact lt_of_mul_lt_mul_left (large.trans_lt below) (by norm_num)

/-- A value is rounded to a number unless it lies beyond the middle between the greatest number and
the next power of two: what rounding gives has a representation where its exponent is in range. -/
theorem ofRatio_of_lt (negative : Bool) {num den : Nat} (hn : 0 < num) (hd : 0 < den)
    (below : (num : ℚ) / den < (2 ^ 53 - 1 / 2) * 2 ^ greatestExponent) :
    ∃ m e canonical, ofRatio negative num den = .finite negative m e canonical := by
  obtain ⟨least, upper, lower⟩ := fits_exponentFor hn hd
  have value := quotient_scaled num den (exponentFor num den)
  have near := roundHalfEven_near (scaled num den (exponentFor num den)).1
    (scaled_den_pos hd num (exponentFor num den))
  rw [ofRatio, if_neg hn.ne']
  generalize exponentFor num den = e at least upper lower value near ⊢
  dsimp only
  generalize roundHalfEven (scaled num den e).1 (scaled num den e).2 = m at near ⊢
  rw [quotient] at value
  rw [value, abs_le] at near
  have power : (0 : ℚ) < 2 ^ e := by positivity
  have mantissa : (num : ℚ) / den / 2 ^ e < 2 ^ 53 := by rwa [div_lt_iff₀ power]
  apply normalised_finite negative _ least
  · rintro rfl
    apply lt_greatestExponent below
    rw [← le_div_iff₀ power]
    push_cast at near
    linarith
  · by_contra high
    have large := lower.resolve_left (by unfold leastExponent greatestExponent at *; omega)
    have before : e - 1 < greatestExponent := by
      apply lt_greatestExponent below
      have pos : (0 : ℚ) < 2 ^ (e - 1) := by positivity
      rw [zpow_eq_two_mul e] at large
      linarith
    omega
  · intro small
    refine lower.resolve_right ?_
    intro large
    rw [← le_div_iff₀ power] at large
    have whole : m + 1 ≤ 2 ^ 52 := small
    have cast : (m : ℚ) + 1 ≤ 2 ^ 52 := by exact_mod_cast whole
    linarith
  · have bound : (m : ℚ) < 2 ^ 53 + 1 := by linarith
    have whole : m < 2 ^ 53 + 1 := by exact_mod_cast bound
    omega

/-- The magnitude of a finite number. -/
def magnitude (m : Nat) (e : Int) : ℚ := m * 2 ^ e

/-- A value is nearer to a number than to the middle between it and its neighbours. Below a power of
two the neighbour is nearer by half. -/
structure IsNear (x : ℚ) (m : Nat) (e : Int) : Prop where
  within : |x - magnitude m e| < 2 ^ e / 2
  below : m = 2 ^ 52 → magnitude m e - x < 2 ^ e / 4

theorem cast_le_of_lt {m : Nat} (small : m < 2 ^ 53) : (m : ℚ) ≤ 2 ^ 53 - 1 := by
  have whole : m + 1 ≤ 2 ^ 53 := small
  have cast : (m : ℚ) + 1 ≤ 2 ^ 53 := by exact_mod_cast whole
  linarith

/-- The quotient by the power of an exponent is as near to a mantissa as the value is to the number. -/
theorem roundHalfEven_scaled {num den r : Nat} {k : Int} (hd : 0 < den)
    (close : |(num : ℚ) / den - r * 2 ^ k| < 2 ^ k / 2) :
    roundHalfEven (scaled num den k).1 (scaled num den k).2 = r := by
  apply roundHalfEven_eq (scaled_den_pos hd num k)
  have pos : (0 : ℚ) < 2 ^ k := by positivity
  have value := quotient_scaled num den k
  rw [quotient] at value
  rw [value, show (num : ℚ) / den / 2 ^ k - r = (num / den - r * 2 ^ k) / 2 ^ k by field_simp,
    abs_div, abs_of_pos pos, div_lt_iff₀ pos]
  linarith

/-- Only a power of two is near to a value below the mantissas of its exponent. -/
theorem IsNear.eq_of_lt {x : ℚ} {m : Nat} {e : Int} (near : IsNear x m e) (least : 2 ^ 52 ≤ m)
    (under : x < 2 ^ 52 * 2 ^ e) : m = 2 ^ 52 := by
  have power : (0 : ℚ) < 2 ^ e := by positivity
  have within := abs_lt.mp near.within
  have most : (m : ℚ) < 2 ^ 52 + 1 := by
    by_contra large
    have product : ((2 : ℚ) ^ 52 + 1) * 2 ^ e ≤ magnitude m e :=
      mul_le_mul_of_nonneg_right (not_lt.mp large) power.le
    linarith
  have whole : m < 2 ^ 52 + 1 := by exact_mod_cast most
  omega

/-- What is nearest to a number is rounded to it. -/
theorem ofRatio_eq (negative : Bool) {num den m : Nat} {e : Int}
    (canonical : IsCanonical m e) (hn : 0 < num) (hd : 0 < den)
    (near : IsNear (num / den) m e) : ofRatio negative num den = .finite negative m e canonical := by
  have small : m < 2 ^ 53 := canonical.1
  have least : leastExponent ≤ e := canonical.2.1
  have normal : m < 2 ^ 52 → e = leastExponent := canonical.2.2.2
  set x : ℚ := (num : ℚ) / den
  have power : (0 : ℚ) < 2 ^ e := by positivity
  have within := abs_lt.mp near.within
  have upper : x < 2 ^ 53 * 2 ^ e := by
    have scaled_bound : magnitude m e ≤ (2 ^ 53 - 1) * 2 ^ e :=
      mul_le_mul_of_nonneg_right (cast_le_of_lt small) power.le
    linarith
  have nonzero : num ≠ 0 := hn.ne'
  by_cases aligned : e = leastExponent ∨ 2 ^ 52 * (2 : ℚ) ^ e ≤ x
  · have exponent : exponentFor num den = e := exponentFor_eq hn hd ⟨least, upper, aligned⟩
    simp only [ofRatio, if_neg nonzero, exponent, roundHalfEven_scaled hd near.within, normalised,
      if_neg small.ne, dif_pos canonical]
  · -- The value lies just below a power of two, where the exponent is one less.
    obtain ⟨above, under⟩ := not_or.mp aligned
    rw [not_le] at under
    have top : m = 2 ^ 52 := near.eq_of_lt (not_lt.mp (mt normal above)) under
    have below := near.below top
    have magnitude_eq : magnitude m e = 2 ^ 52 * 2 ^ e := by
      rw [magnitude, top]
      norm_num
    rw [magnitude_eq, zpow_eq_two_mul e] at below
    rw [zpow_eq_two_mul e] at under
    have power' : (0 : ℚ) < 2 ^ (e - 1) := by positivity
    have exponent : exponentFor num den = e - 1 :=
      exponentFor_eq hn hd ⟨by omega, by linarith, .inr (by linarith)⟩
    have close : |x - (2 ^ 53 : Nat) * 2 ^ (e - 1)| < 2 ^ (e - 1) / 2 := by
      rw [abs_lt]
      push_cast
      constructor <;> linarith
    simp only [ofRatio, if_neg nonzero, exponent, roundHalfEven_scaled hd close, normalised, if_true,
      sub_add_cancel, top]
    exact dif_pos (top ▸ canonical)

end Binary64

end BearerToken
