import Mathlib
import BearerToken.Calendar
import BearerToken.Proofs.Binary64.Monotone

/-!
# Which times have a date

A time in epoch milliseconds has a date exactly from the first instant of the year 1 to the last one
of the year 9999, whatever the division by one thousand rounds. Rounding keeps the order of times,
so it is enough to know what it does to the first and the last of them and to their neighbours. The
years are counted from March within eras, and only the sixty days at the end of an era and the
306 at its start have to be told from the others.
-/

namespace BearerToken

/-- The time lies in the years 1 to 9999. -/
def InCalendar (ms : Int) : Prop := -62135596800000 ≤ ms ∧ ms < 253402300800000

instance (ms : Int) : Decidable (InCalendar ms) := inferInstanceAs (Decidable (_ ∧ _))

namespace Moment

section Years

/-- The whole years, from March on, before a day of an era. -/
def marchYears (day : Nat) : Nat := (day - day / 1460 + day / 36524 - day / 146096) / 365

/-- The month, from March on, of a day of an era. -/
def marchMonth (day : Nat) : Nat :=
  (5 * (day - (365 * marchYears day + marchYears day / 4 - marchYears day / 100)) + 2) / 153

/-- How many years have begun by a day of an era: the eleventh month from March is January. -/
def yearOfEra (day : Nat) : Nat := marchYears day + if 10 ≤ marchMonth day then 1 else 0

variable {day : Nat} (inside : day < 146097)

include inside

theorem marchMonth_le : marchMonth day ≤ 11 := by
  unfold marchMonth marchYears
  omega

theorem marchYears_facts :
    marchYears day ≤ 399 ∧ (marchYears day = 399 ↔ 145731 ≤ day) ∧
      (marchYears day = 0 ↔ day < 365) := by
  unfold marchYears
  omega

theorem yearOfEra_facts :
    yearOfEra day ≤ 400 ∧ (yearOfEra day = 400 ↔ 146037 ≤ day) ∧
      (yearOfEra day = 0 ↔ day < 306) := by
  obtain ⟨most, last, first⟩ := marchYears_facts inside
  -- The month matters in the first and the last year only, where its days are linear in the day.
  have lastYear : marchYears day = 399 → (10 ≤ marchMonth day ↔ 146037 ≤ day) := by
    intro year
    rw [marchMonth, year]
    omega
  have firstYear : marchYears day = 0 → (10 ≤ marchMonth day ↔ 306 ≤ day) := by
    intro year
    rw [marchMonth, year]
    omega
  rw [yearOfEra]
  split <;> omega

omit inside

theorem year_civil (days : Int) :
    (civil days).1 =
      (days + 719468) / 146097 * 400 + (yearOfEra ((days + 719468) % 146097).toNat : Int) := by
  have inside : ((days + 719468) % 146097).toNat < 146097 := by omega
  rw [yearOfEra, Nat.cast_add, ← add_assoc]
  generalize named : ((days + 719468) % 146097).toNat = day at inside ⊢
  have most := marchMonth_le inside
  have year : (civil days).1 = (days + 719468) / 146097 * 400 + (marchYears day : Int) +
      if (if marchMonth day < 10 then marchMonth day + 3 else marchMonth day - 9) ≤ 2
        then 1 else 0 := by
    rw [← named]
    rfl
  rw [year]
  generalize marchMonth day = month at most ⊢
  split_ifs <;> first | rfl | omega

theorem one_le_year_iff (days : Int) : 1 ≤ (civil days).1 ↔ -719162 ≤ days := by
  have inside : ((days + 719468) % 146097).toNat < 146097 := by omega
  obtain ⟨most, -, first⟩ := yearOfEra_facts inside
  rw [year_civil]
  omega

theorem year_le_iff (days : Int) : (civil days).1 ≤ 9999 ↔ days < 2932897 := by
  have inside : ((days + 719468) % 146097).toNat < 146097 := by omega
  obtain ⟨most, last, -⟩ := yearOfEra_facts inside
  rw [year_civil]
  omega

end Years

section Instants

open Binary64

/-- The whole number next to a binary number. -/
def wholeOf : Binary64 → Nat
  | .finite _ m e _ => roundHalfEven (ratio m e).1 (ratio m e).2
  | _ => 0

/-- The whole number next to a ratio, after the ratio is rounded to a binary number. -/
def nearest (num den : Nat) : Nat := wholeOf (ofRatio false num den)

/-- So many parts of a second, in a number of seconds. -/
def partsOf (scale num den : Nat) : Nat :=
  num / den * scale + nearest (num % den * scale) den

/-- The microseconds that so many milliseconds, of either sign, are taken for. -/
def micros? (negative : Bool) (ms : Nat) : Option Nat :=
  match ofRatio negative ms 1000 with
  | .finite _ m e _ => some (partsOf 1000000 (ratio m e).1 (ratio m e).2)
  | _ => none

theorem ratio_den_pos (m : Nat) (e : Int) : 0 < (ratio m e).2 :=
  timesPower_den_pos (by decide) one_pos m e

theorem quotient_ratio (m : Nat) (e : Int) :
    ((ratio m e).1 : ℚ) / (ratio m e).2 = magnitude m e := by
  rw [← quotient, ratio, quotient_timesPower (by decide), magnitude, Nat.cast_one, div_one]
  rfl

theorem power_le_greatest : (2 : ℚ) ^ 64 ≤ (2 ^ 53 - 1 / 2) * 2 ^ greatestExponent := by
  have power : (2 : ℚ) ^ (64 : Int) ≤ 2 ^ greatestExponent :=
    zpow_le_zpow_right₀ (by norm_num) (by decide)
  exact le_trans power (le_mul_of_one_le_left (by positivity) (by norm_num))

/-- The microseconds of a second are a number. -/
theorem rounded_second : rounded 1000000 1 = 1000000 := by
  have number : ofRatio false 1000000 1 =
      .finite false (1000000 * 2 ^ 33) (-33) (by decide) := by decide +kernel
  rw [← (magnitude_of_ofRatio one_pos number).2, magnitude]
  norm_num

section Parts

variable {num den num' den' : Nat} (part : num < den)

include part

theorem exists_nearest : ∃ m e, magnitude m e = rounded (num * 1000000) den ∧
    nearest (num * 1000000) den = roundHalfEven (ratio m e).1 (ratio m e).2 := by
  have positive : 0 < den := by omega
  have below : ((num * 1000000 : Nat) : ℚ) / den < (2 ^ 53 - 1 / 2) * 2 ^ greatestExponent := by
    have small : ((num * 1000000 : Nat) : ℚ) / den < 1000000 := by
      rw [div_lt_iff₀ (by exact_mod_cast positive)]
      exact_mod_cast (by omega : num * 1000000 < 1000000 * den)
    exact lt_of_lt_of_le (small.trans (by norm_num)) power_le_greatest
  obtain ⟨m, e, canonical, rounds⟩ := exists_ofRatio false positive below
  exact ⟨m, e, (magnitude_of_ofRatio positive rounds).2,
    by rw [nearest, rounds, wholeOf]⟩

theorem rounded_part_le : rounded (num * 1000000) den ≤ 1000000 := by
  have positive : 0 < den := by omega
  rw [← rounded_second]
  apply rounded_mono positive one_pos
  rw [div_le_iff₀ (by exact_mod_cast positive), Nat.cast_one, div_one]
  exact_mod_cast (by omega : num * 1000000 ≤ 1000000 * den)

/-- A part of a second comes to a second at most. -/
theorem nearest_le : nearest (num * 1000000) den ≤ 1000000 := by
  obtain ⟨m, e, value, taken⟩ := exists_nearest part
  rw [taken]
  apply roundHalfEven_le (ratio_den_pos m e)
  rw [quotient_ratio, value]
  exact_mod_cast rounded_part_le part

theorem nearest_mono (part' : num' < den') (le : (num : ℚ) / den ≤ num' / den') :
    nearest (num * 1000000) den ≤ nearest (num' * 1000000) den' := by
  obtain ⟨m, e, value, taken⟩ := exists_nearest part
  obtain ⟨m', e', value', taken'⟩ := exists_nearest part'
  rw [taken, taken']
  apply roundHalfEven_mono (ratio_den_pos m e) (ratio_den_pos m' e')
  rw [quotient_ratio, quotient_ratio, value, value']
  apply rounded_mono (by omega) (by omega)
  push_cast
  rw [mul_div_right_comm, mul_div_right_comm]
  gcongr

end Parts

theorem partsOf_mono {num den num' den' : Nat} (h : 0 < den) (h' : 0 < den')
    (le : (num : ℚ) / den ≤ num' / den') :
    partsOf 1000000 num den ≤ partsOf 1000000 num' den' := by
  have part := Nat.mod_lt num h
  have part' := Nat.mod_lt num' h'
  have cross : num * den' ≤ num' * den := by
    rw [div_le_div_iff₀ (by exact_mod_cast h) (by exact_mod_cast h')] at le
    exact_mod_cast le
  have wholes : num / den ≤ num' / den' := by
    rw [Nat.le_div_iff_mul_le h']
    have low := Nat.div_mul_le_self num den
    nlinarith
  obtain less | same := wholes.lt_or_eq
  · have most := nearest_le part
    rw [partsOf, partsOf]
    omega
  · have parts : nearest (num % den * 1000000) den ≤ nearest (num' % den' * 1000000) den' := by
      apply nearest_mono part part'
      rw [div_eq_whole_add h, div_eq_whole_add h', same] at le
      linarith
    rw [partsOf, partsOf, same]
    omega

/-- Later times are taken for no earlier ones. -/
theorem micros?_mono {negative negative' : Bool} {ms ms' taken taken' : Nat} (le : ms ≤ ms')
    (takes : micros? negative ms = some taken) (takes' : micros? negative' ms' = some taken') :
    taken ≤ taken' := by
  rw [micros?] at takes takes'
  split at takes
  · next rounds =>
    split at takes'
    · next rounds' =>
      cases takes
      cases takes'
      apply partsOf_mono (ratio_den_pos _ _) (ratio_den_pos _ _)
      rw [quotient_ratio, quotient_ratio, (magnitude_of_ofRatio (by decide) rounds).2,
        (magnitude_of_ofRatio (by decide) rounds').2]
      apply rounded_mono (by decide) (by decide)
      gcongr
    · cases takes'
  · cases takes

theorem exists_micros? (negative : Bool) {ms : Nat} (below : ms < 2 ^ 64) :
    ∃ taken, micros? negative ms = some taken := by
  have small : (ms : ℚ) / (1000 : Nat) < (2 ^ 53 - 1 / 2) * 2 ^ greatestExponent := by
    have bound : (ms : ℚ) < 2 ^ 64 := by exact_mod_cast below
    have less : (ms : ℚ) / (1000 : Nat) ≤ ms := div_le_self (by positivity) (by norm_num)
    exact lt_of_lt_of_le (less.trans_lt bound) power_le_greatest
  obtain ⟨m, e, canonical, rounds⟩ := exists_ofRatio negative (by decide) small
  exact ⟨_, by rw [micros?, rounds]⟩

/-- Whole seconds are those of the microseconds, rounded down. -/
theorem split_eq (ms : Int) :
    split ms = match micros? (ms < 0) ms.natAbs with
      | some taken =>
        let total : Int := if ms < 0 then -(taken : Int) else taken
        .ok (total / 1000000, (total % 1000000).toNat)
      | none => .error .tooLarge := by
  have total (whole part : Nat) :
      (if ms < 0 then -(whole : Int) else whole) * 1000000 +
          (if ms < 0 then -(part : Int) else part) =
        if ms < 0 then -((whole * 1000000 + part : Nat) : Int)
          else (whole * 1000000 + part : Nat) := by
    split <;> push_cast <;> ring
  -- Rounding is made opaque: else it is computed when the two sides are compared.
  obtain ⟨round, opaquely⟩ : ∃ round, round = ofRatio := ⟨ofRatio, rfl⟩
  rw [split, micros?, ← opaquely]
  cases rounds : round (decide (ms < 0)) ms.natAbs 1000 with
  | finite negative m e canonical =>
      obtain ⟨rfl, -⟩ := magnitude_of_ofRatio (by decide) (opaquely ▸ rounds)
      simp only [decide_eq_true_eq]
      have taken (num den : Nat) : partsOf 1000000 num den =
          num / den * 1000000 + wholeOf (round false (num % den * 1000000) den) := by
        rw [partsOf, nearest, opaquely]
      rw [taken, ← total]
      cases round false ((ratio m e).1 % (ratio m e).2 * 1000000) (ratio m e).2 <;> rfl
  | infinite negative => rfl
  | nan => rfl

/-- What the first and the last times of the calendar, and their neighbours, are taken for. -/
theorem micros?_ends :
    micros? false 253402300799999 = some 253402300799998993 ∧
      micros? false 253402300800000 = some 253402300800000000 ∧
      micros? true 62135596800000 = some 62135596800000000 ∧
      micros? true 62135596800001 = some 62135596800000999 := by
  decide +kernel

/-- The seconds of a time lie in the calendar exactly if the time does. -/
theorem seconds_iff {ms seconds : Int} {microsecond : Nat}
    (parts : split ms = .ok (seconds, microsecond)) :
    -62135596800 ≤ seconds ∧ seconds < 253402300800 ↔ InCalendar ms := by
  obtain ⟨last, next, first, before⟩ := micros?_ends
  rw [split_eq] at parts
  cases takes : micros? (decide (ms < 0)) ms.natAbs with
  | none =>
      rw [takes] at parts
      cases parts
  | some taken =>
      rw [takes] at parts
      obtain ⟨rfl, -⟩ := Prod.mk.inj (Except.ok.inj parts)
      rw [InCalendar]
      by_cases early : ms < 0
      · have low : 62135596800001 ≤ ms.natAbs → 62135596800000999 ≤ taken := fun le =>
          micros?_mono le before takes
        have high : ms.natAbs ≤ 62135596800000 → taken ≤ 62135596800000000 := fun le =>
          micros?_mono le takes first
        simp only [if_pos early]
        omega
      · have low : 253402300800000 ≤ ms.natAbs → 253402300800000000 ≤ taken := fun le =>
          micros?_mono le next takes
        have high : ms.natAbs ≤ 253402300799999 → taken ≤ 253402300799998993 := fun le =>
          micros?_mono le takes last
        simp only [if_neg early]
        omega

end Instants

/-- A year of a date is kept, and no other year is taken for one. -/
theorem keptYear_iff (year : Int) :
    (∃ kept, keptYear year = .ok kept ∧ ¬ (kept < 1 ∨ 9999 < kept)) ↔ 1 ≤ year ∧ year ≤ 9999 := by
  rw [keptYear, Int.bmod_def]
  split
  · next wide =>
    simp only [Bool.or_eq_true, decide_eq_true_eq] at wide
    refine iff_of_false nofun ?_
    omega
  · next narrow =>
    simp only [Bool.or_eq_true, decide_eq_true_eq] at narrow
    simp only [Except.ok.injEq, exists_eq_left']
    split <;> omega

theorem isOk_ofMillis_of_split {ms seconds : Int} {microsecond : Nat}
    (parts : split ms = .ok (seconds, microsecond)) :
    (ofMillis ms).isOk = true ↔ -62135596800 ≤ seconds ∧ seconds < 253402300800 := by
  have years : 1 ≤ (civil (seconds / 86400)).1 ∧ (civil (seconds / 86400)).1 ≤ 9999 ↔
      -62135596800 ≤ seconds ∧ seconds < 253402300800 := by
    rw [one_le_year_iff, year_le_iff]
    omega
  rw [ofMillis, parts]
  simp only [bind, Except.bind]
  by_cases far : 2 ^ 63 < seconds.natAbs
  · rw [if_pos far]
    refine iff_of_false Bool.false_ne_true ?_
    omega
  · rw [if_neg far, ← years, ← keptYear_iff]
    cases keptYear (civil (seconds / 86400)).1 with
    | error e => exact iff_of_false Bool.false_ne_true nofun
    | ok year =>
        simp only [Except.ok.injEq, exists_eq_left', Bool.or_eq_true, decide_eq_true_eq]
        split
        · next outside => exact iff_of_false Bool.false_ne_true (not_not_intro outside)
        · next inside => exact iff_of_true rfl inside

/-- Dates are given exactly for the times of the calendar. -/
theorem isOk_ofMillis_iff (ms : Int) : (ofMillis ms).isOk = true ↔ InCalendar ms := by
  cases parts : split ms with
  | ok p => rw [isOk_ofMillis_of_split parts, seconds_iff parts]
  | error e =>
      refine iff_of_false ?_ fun inside => ?_
      · rw [ofMillis, parts]
        exact Bool.false_ne_true
      · rw [InCalendar] at inside
        have small : ms.natAbs < 2 ^ 64 := by omega
        obtain ⟨taken, takes⟩ := exists_micros? (decide (ms < 0)) small
        rw [split_eq, takes] at parts
        cases parts

end Moment

end BearerToken
