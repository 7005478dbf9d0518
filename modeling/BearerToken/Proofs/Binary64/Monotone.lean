import Mathlib
import BearerToken.Proofs.Binary64.Rounding

/-!
# Rounding keeps the order

A ratio that is not greater than another is not rounded to a greater number. Within one exponent
this is the order of the mantissas. Across two exponents the mantissas say nothing, but a number of
the lower exponent is no greater than the least one of the higher.
-/

namespace BearerToken

section Integers

variable {num den num' den' r : Nat}

theorem roundHalfEven_mono (h : 0 < den) (h' : 0 < den') (le : (num : ℚ) / den ≤ num' / den') :
    roundHalfEven num den ≤ roundHalfEven num' den' := by
  by_contra above
  have pos : (den : ℚ) ≠ 0 := by exact_mod_cast h.ne'
  have pos' : (den' : ℚ) ≠ 0 := by exact_mod_cast h'.ne'
  have near := abs_le.mp (roundHalfEven_near num h)
  have near' := abs_le.mp (roundHalfEven_near num' h')
  have apart : (roundHalfEven num' den' : ℚ) + 1 ≤ roundHalfEven num den := by
    exact_mod_cast not_le.mp above
  -- Only a tie could be rounded both ways, and then the two ratios are the same.
  have same : (num : ℚ) / den = num' / den' := le_antisymm le (by linarith [near.1, near'.2])
  rw [div_eq_div_iff pos pos'] at same
  exact above (roundHalfEven_congr h h' (by exact_mod_cast same)).le

theorem roundHalfEven_one (r : Nat) : roundHalfEven r 1 = r := by
  simp [roundHalfEven, Nat.mod_one]

theorem roundHalfEven_le (h : 0 < den) (le : (num : ℚ) / den ≤ r) : roundHalfEven num den ≤ r := by
  have whole : (num : ℚ) / den ≤ r / (1 : Nat) := by rwa [Nat.cast_one, div_one]
  have bound := roundHalfEven_mono h one_pos whole
  rwa [roundHalfEven_one] at bound

theorem le_roundHalfEven (h : 0 < den) (le : (r : ℚ) ≤ num / den) : r ≤ roundHalfEven num den := by
  have whole : (r : ℚ) / (1 : Nat) ≤ num / den := by rwa [Nat.cast_one, div_one]
  have bound := roundHalfEven_mono one_pos h whole
  rwa [roundHalfEven_one] at bound

end Integers

namespace Binary64

variable {num den num' den' : Nat}

/-- The mantissa that a ratio is rounded to at its exponent, before any carry. -/
def mantissaFor (num den : Nat) : Nat :=
  roundHalfEven (scaled num den (exponentFor num den)).1 (scaled num den (exponentFor num den)).2

/-- The value that a ratio is rounded to if no number is too great. -/
def rounded (num den : Nat) : ℚ := magnitude (mantissaFor num den) (exponentFor num den)

/-- The numbers of an exponent are no greater than the least one of a higher exponent. -/
theorem power_le_power {e e' : Int} (less : e < e') :
    (2 : ℚ) ^ 53 * 2 ^ e ≤ 2 ^ 52 * 2 ^ e' := by
  have step : (2 : ℚ) ^ e ≤ 2 ^ (e' - 1) := zpow_le_zpow_right₀ (by norm_num) (by omega)
  rw [zpow_eq_two_mul e']
  linarith

theorem exponentFor_mono (hn : 0 < num) (hd : 0 < den) (hn' : 0 < num') (hd' : 0 < den')
    (le : (num : ℚ) / den ≤ num' / den') : exponentFor num den ≤ exponentFor num' den' := by
  obtain ⟨-, -, lower⟩ := fits_exponentFor hn hd
  obtain ⟨least', upper', -⟩ := fits_exponentFor hn' hd'
  generalize exponentFor num den = e at lower ⊢
  generalize exponentFor num' den' = e' at least' upper' ⊢
  by_contra above
  have large := lower.resolve_left (by omega)
  have step := power_le_power (not_le.mp above)
  linarith

theorem mantissaFor_le (hn : 0 < num) (hd : 0 < den) : mantissaFor num den ≤ 2 ^ 53 := by
  obtain ⟨-, upper, -⟩ := fits_exponentFor hn hd
  apply roundHalfEven_le (scaled_den_pos hd num _)
  rw [← quotient, quotient_scaled, div_le_iff₀ (by positivity)]
  exact_mod_cast upper.le

theorem le_mantissaFor (hn : 0 < num) (hd : 0 < den)
    (above : leastExponent < exponentFor num den) : 2 ^ 52 ≤ mantissaFor num den := by
  obtain ⟨-, -, lower⟩ := fits_exponentFor hn hd
  have large := lower.resolve_left above.ne'
  apply le_roundHalfEven (scaled_den_pos hd num _)
  rw [← quotient, quotient_scaled, le_div_iff₀ (by positivity)]
  exact_mod_cast large

theorem rounded_zero (hd : 0 < den) : rounded 0 den = 0 := by
  have none : mantissaFor 0 den ≤ 0 := by
    apply roundHalfEven_le (scaled_den_pos hd 0 _)
    rw [← quotient, quotient_scaled]
    simp
  rw [rounded, magnitude, Nat.le_zero.mp none]
  simp

theorem rounded_nonneg (num den : Nat) : 0 ≤ rounded num den := by
  unfold rounded magnitude
  positivity

/-- Rounding keeps the order. -/
theorem rounded_mono (hd : 0 < den) (hd' : 0 < den') (le : (num : ℚ) / den ≤ num' / den') :
    rounded num den ≤ rounded num' den' := by
  obtain rfl | hn := Nat.eq_zero_or_pos num
  · rw [rounded_zero hd]
    exact rounded_nonneg num' den'
  have hn' : 0 < num' := by
    have pos : (0 : ℚ) < num / den := by positivity
    by_contra zero
    rw [Nat.eq_zero_of_not_pos zero, Nat.cast_zero, zero_div] at le
    linarith
  obtain less | same := (exponentFor_mono hn hd hn' hd' le).lt_or_eq
  · have above : leastExponent < exponentFor num' den' :=
      lt_of_le_of_lt (fits_exponentFor hn hd).1 less
    have most : (mantissaFor num den : ℚ) ≤ 2 ^ 53 := by exact_mod_cast mantissaFor_le hn hd
    have least : (2 : ℚ) ^ 52 ≤ mantissaFor num' den' := by
      exact_mod_cast le_mantissaFor hn' hd' above
    calc rounded num den
        ≤ 2 ^ 53 * 2 ^ exponentFor num den := by
          unfold rounded magnitude
          gcongr
      _ ≤ 2 ^ 52 * 2 ^ exponentFor num' den' := power_le_power less
      _ ≤ rounded num' den' := by
          unfold rounded magnitude
          gcongr
  · have mantissas : mantissaFor num den ≤ mantissaFor num' den' := by
      apply roundHalfEven_mono (scaled_den_pos hd num _) (scaled_den_pos hd' num' _)
      rw [← quotient, ← quotient, quotient_scaled, quotient_scaled, same]
      gcongr
    rw [rounded, rounded, same]
    unfold magnitude
    gcongr

/-- Carrying does not change the value. -/
theorem magnitude_of_normalised {negative negative' : Bool} {m m' : Nat} {e e' : Int}
    {canonical : IsCanonical m' e'}
    (carries : normalised negative m e = .finite negative' m' e' canonical) :
    negative' = negative ∧ magnitude m' e' = magnitude m e := by
  rw [normalised] at carries
  by_cases full : m = 2 ^ 53
  · simp only [if_pos full] at carries
    split at carries
    · cases carries
      refine ⟨rfl, ?_⟩
      rw [full, magnitude, magnitude, zpow_add₀ (by norm_num)]
      push_cast
      ring
    · cases carries
  · simp only [if_neg full] at carries
    split at carries
    · cases carries
      exact ⟨rfl, rfl⟩
    · cases carries

/-- What a number has of the ratio that it is the nearest to: the sign and the rounded value. -/
theorem magnitude_of_ofRatio {negative negative' : Bool} {m : Nat} {e : Int}
    {canonical : IsCanonical m e} (hd : 0 < den)
    (rounds : ofRatio negative num den = .finite negative' m e canonical) :
    negative' = negative ∧ magnitude m e = rounded num den := by
  rw [ofRatio] at rounds
  split at rounds
  · next zero =>
    cases rounds
    rw [zero, rounded_zero hd]
    exact ⟨rfl, by simp [magnitude]⟩
  · rw [rounded]
    change normalised negative (mantissaFor num den) (exponentFor num den) = _ at rounds
    generalize mantissaFor num den = m₀ at rounds ⊢
    generalize exponentFor num den = e₀ at rounds ⊢
    exact magnitude_of_normalised rounds

theorem exists_ofRatio {num den : Nat} (negative : Bool) (hd : 0 < den)
    (below : (num : ℚ) / den < (2 ^ 53 - 1 / 2) * 2 ^ greatestExponent) :
    ∃ m e canonical, ofRatio negative num den = .finite negative m e canonical := by
  obtain rfl | hn := Nat.eq_zero_or_pos num
  · exact ⟨_, _, _, by rw [ofRatio, if_pos rfl, zero]⟩
  · exact ofRatio_of_lt negative hn hd below

end Binary64

end BearerToken
