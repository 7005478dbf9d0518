import Mathlib
import BearerToken.Proofs.Binary64.Shortest
import BearerToken.Proofs.Json.Number

/-!
# Binary numbers in JSON

The decimal of a binary number is read as that number. The two layouts differ in where the point
stands and in whether an exponent follows; in both of them the digits and their place denote the
shortest decimal.
-/

namespace BearerToken.Json

open Numeral (symbols IsPast digitRun_symbols ofDigits_symbols value value_append)

section Parts

variable {ws fs es : List Nat} {rest : Text}

theorem isPast_of_ne {c : Char} {t : Text} (mark : ¬('0'.toNat ≤ c.toNat ∧ c.toNat ≤ '9'.toNat)) :
    IsPast (.char c :: t) := by
  rintro _ ⟨⟩
  exact mark

theorem symbols_append (ds es : List Nat) : symbols (ds ++ es) = symbols ds ++ symbols es := by
  simp [symbols]

theorem length_symbols (ds : List Nat) : (symbols ds).length = ds.length := by
  simp [symbols, Text.ofChars]

theorem fractionPart_symbols (nonempty : fs ≠ []) (below : ∀ d ∈ fs, d < 10) (past : IsPast rest) :
    fractionPart (.char '.' :: (symbols fs ++ rest)) = some (symbols fs, rest) := by
  have run := digitRun_symbols below past
  simp only [fractionPart, run]
  obtain ⟨d, ds, rfl⟩ := List.exists_cons_of_ne_nil nonempty
  rfl

theorem exponentPart_symbols (nonempty : es ≠ []) (below : ∀ d ∈ es, d < 10) (past : IsPast rest)
    (negative : Bool) :
    exponentPart (.char 'e' :: .char (if negative then '-' else '+') :: (symbols es ++ rest)) =
      some (if negative then -(value 10 es : Int) else value 10 es, rest) := by
  have run := digitRun_symbols below past
  have denotes := ofDigits_symbols below
  obtain ⟨d, ds, rfl⟩ := List.exists_cons_of_ne_nil nonempty
  have spelled : symbols (d :: ds) = .char (Text.hexDigit d) :: symbols ds := rfl
  rw [spelled] at run denotes ⊢
  rw [List.cons_append] at run ⊢
  cases negative <;> simp [exponentPart, run, denotes]

/-- Digits with a point between them. -/
theorem readMagnitude_fraction [Limits] (negative : Bool) (whole : IsWhole ws) (nonempty : fs ≠ [])
    (below : ∀ d ∈ fs, d < 10) (ends : Ends rest) :
    readMagnitude negative (symbols ws ++ .char '.' :: (symbols fs ++ rest)) =
      .ok (.number (.ofDecimal negative (value 10 (ws ++ fs)) (-fs.length)), rest) := by
  have digits : ∀ d ∈ ws ++ fs, d < 10 := by
    intro d member
    exact (List.mem_append.mp member).elim (whole.below d) (below d)
  rw [readMagnitude, wholePart_symbols whole (isPast_of_ne (by decide))]
  simp only [Except.bind, bind, fractionPart_symbols nonempty below ends.isPast, Option.getD_some,
    ends.exponentPart, Option.getD_none, ← symbols_append, ofDigits_symbols digits, length_symbols]
  simp

/-- Digits with an exponent behind them. -/
theorem readMagnitude_exponent [Limits] (negative below? : Bool) (whole : IsWhole ws)
    (belowF : ∀ d ∈ fs, d < 10) (nonempty : es ≠ []) (belowE : ∀ d ∈ es, d < 10)
    (ends : Ends rest) :
    readMagnitude negative (symbols ws ++ ((if fs = [] then [] else .char '.' :: symbols fs) ++
        .char 'e' :: .char (if below? then '-' else '+') :: (symbols es ++ rest))) =
      .ok (.number (.ofDecimal negative (value 10 (ws ++ fs))
        ((if below? then -(value 10 es : Int) else value 10 es) - fs.length)), rest) := by
  have digits : ∀ d ∈ ws ++ fs, d < 10 := by
    intro d member
    exact (List.mem_append.mp member).elim (whole.below d) (belowF d)
  have mark (t : Text) : IsPast (.char 'e' :: t) := isPast_of_ne (by decide)
  have exponent := exponentPart_symbols nonempty belowE ends.isPast below?
  by_cases integral : fs = []
  · subst integral
    rw [if_pos rfl, List.nil_append, readMagnitude, wholePart_symbols whole (mark _)]
    have none : fractionPart (.char 'e' :: .char (if below? then '-' else '+') ::
        (symbols es ++ rest)) = none := rfl
    simp only [Except.bind, bind, none, Option.getD_none, exponent, Option.getD_some,
      List.append_nil, ofDigits_symbols whole.below]
    simp
  · rw [if_neg integral, List.cons_append, readMagnitude,
      wholePart_symbols whole (isPast_of_ne (by decide))]
    simp only [Except.bind, bind, fractionPart_symbols integral belowF (mark _), Option.getD_some,
      exponent, ← symbols_append, ofDigits_symbols digits, length_symbols]
    simp

end Parts

section Layout

theorem value_zeros (k : Nat) (ds : List Nat) :
    value 10 (List.replicate k 0 ++ ds) = value 10 ds ∧
      value 10 (ds ++ List.replicate k 0) = value 10 ds * 10 ^ k := by
  have zero : value 10 (List.replicate k 0) = 0 := by
    induction k with
    | zero => rfl
    | succ k ih => rw [List.replicate_succ', Numeral.value_concat, ih]
  simp [value_append, zero]

theorem zeros_below (k : Nat) : ∀ d ∈ List.replicate k 0, d < 10 := by
  intro d member
  rw [(List.mem_replicate.mp member).2]
  decide

theorem map_zeros (k : Nat) :
    List.replicate k '0' = (List.replicate k 0).map Text.hexDigit := by
  rw [List.map_replicate]
  rfl

theorem exists_stripped {ws : List Nat} (below : ∀ d ∈ ws, d < 10) :
    ∃ ds zeros, ws = ds ++ List.replicate zeros 0 ∧
      ((ws.map Text.hexDigit).reverse.dropWhile (· = '0')).reverse = ds.map Text.hexDigit := by
  induction ws using List.reverseRecOn with
  | nil => exact ⟨[], 0, rfl, rfl⟩
  | append_singleton ws d ih =>
      by_cases zero : d = 0
      · subst zero
        obtain ⟨ds, zeros, rfl, stripped⟩ := ih fun d inside => below d (by simp [inside])
        refine ⟨ds, zeros + 1, by rw [List.append_assoc, ← List.replicate_succ'], ?_⟩
        rw [List.map_append, List.reverse_append]
        exact stripped
      · have symbol : ∀ d < 10, d ≠ 0 → Text.hexDigit d ≠ '0' := by decide
        have other := symbol d (below d (by simp)) zero
        refine ⟨ws ++ [d], 0, by simp, ?_⟩
        simp [other]

/-- The digits of a decimal, without the zeros at its end. -/
structure Trimmed (n : Nat) (ds : List Nat) (zeros : Nat) : Prop where
  written : Numeral.digits n = (ds ++ List.replicate zeros 0).map Text.hexDigit
  kept : ((Numeral.digits n).reverse.dropWhile (· = '0')).reverse = ds.map Text.hexDigit
  nonempty : ds ≠ []
  below : ∀ d ∈ ds, d < 10
  leads : ds.head? ≠ some 0
  denotes : value 10 ds * 10 ^ zeros = n

theorem exists_trimmed {n : Nat} (positive : n ≠ 0) : ∃ ds zeros, Trimmed n ds zeros := by
  obtain ⟨ws, written, whole, denotes⟩ := isWhole_digits n
  obtain ⟨ds, zeros, rfl, stripped⟩ := exists_stripped whole.below
  have leads : (ds ++ List.replicate zeros 0).head? ≠ some 0 := by
    refine whole.leads.resolve_left ?_
    intro single
    rw [single] at denotes
    exact positive denotes.symm
  have nonempty : ds ≠ [] := by
    rintro rfl
    cases zeros with
    | zero => exact whole.nonempty rfl
    | succ zeros => exact leads rfl
  refine ⟨ds, zeros, written, written ▸ stripped, nonempty, ?_, ?_, ?_⟩
  · intro d inside
    exact whole.below d (List.mem_append_left _ inside)
  · rwa [List.head?_append_of_ne_nil _ nonempty] at leads
  · rw [← denotes, (value_zeros zeros ds).2]

variable {ds : List Nat} {place : Int} {rest : Text}

/-- The digits of a whole number stand before a point and a zero. -/
theorem readMagnitude_integral [Limits] (negative : Bool) (nonempty : ds ≠ [])
    (below : ∀ d ∈ ds, d < 10) (leads : ds.head? ≠ some 0) (k : Nat) (ends : Ends rest) :
    readMagnitude negative
        (Text.ofChars (plainDecimal (ds.map Text.hexDigit) (.ofNat k)) ++ rest) =
      .ok (.number (.ofDecimal negative (value 10 ds) k), rest) := by
  have whole : IsWhole (ds ++ List.replicate k 0) := by
    refine ⟨by simp [nonempty], ?_, .inr ?_⟩
    · intro d member
      exact (List.mem_append.mp member).elim (below d) (zeros_below k d)
    · rwa [List.head?_append_of_ne_nil _ nonempty]
  have spelled : Text.ofChars (plainDecimal (ds.map Text.hexDigit) (.ofNat k)) ++ rest =
      symbols (ds ++ List.replicate k 0) ++ .char '.' :: (symbols [0] ++ rest) := by
    rw [plainDecimal, map_zeros, ← List.map_append]
    simp [symbols, Text.hexDigit]
  have digits : value 10 (ds ++ List.replicate k 0 ++ [0]) = value 10 ds * 10 ^ (k + 1) := by
    rw [List.append_assoc, ← List.replicate_succ', (value_zeros _ ds).2]
  have shifted := Binary64.ofDecimal_shift negative (value 10 ds) (k + 1) k
  rw [show (k : Int) - ((k + 1 : Nat) : Int) = -(1 : Nat) by push_cast; ring] at shifted
  rw [spelled, readMagnitude_fraction negative whole (by simp) (by simp) ends, digits]
  exact congrArg (fun x => Except.ok (Value.number x, rest)) shifted

/-- A point stands among the digits. -/
theorem readMagnitude_inside [Limits] (negative : Bool) (nonempty : ds ≠ [])
    (below : ∀ d ∈ ds, d < 10) (leads : ds.head? ≠ some 0) {k : Nat} (inside : k + 1 < ds.length) (ends : Ends rest) :
    readMagnitude negative
        (Text.ofChars (plainDecimal (ds.map Text.hexDigit) (.negSucc k)) ++ rest) =
      .ok (.number (.ofDecimal negative (value 10 ds) (.negSucc k)), rest) := by
  have whole : IsWhole (ds.take (ds.length - (k + 1))) := by
    have some_digit : ds.length - (k + 1) ≠ 0 := by omega
    refine ⟨by simp [nonempty, some_digit], ?_, .inr ?_⟩
    · intro d member
      exact below d (List.mem_of_mem_take member)
    · rwa [List.head?_take, if_neg some_digit]
  have back : ds.drop (ds.length - (k + 1)) ≠ [] := by
    simp
    omega
  have length : (ds.drop (ds.length - (k + 1))).length = k + 1 := by
    rw [List.length_drop]
    omega
  have spelled : Text.ofChars (plainDecimal (ds.map Text.hexDigit) (.negSucc k)) ++ rest =
      symbols (ds.take (ds.length - (k + 1))) ++
        .char '.' :: (symbols (ds.drop (ds.length - (k + 1))) ++ rest) := by
    simp [plainDecimal, inside, symbols, List.map_take, List.map_drop]
  rw [spelled, readMagnitude_fraction negative whole back
    (fun d member => below d (List.mem_of_mem_drop member)) ends, List.take_append_drop, length]
  rfl

/-- All digits stand behind a zero and a point. -/
theorem readMagnitude_behind [Limits] (negative : Bool) (nonempty : ds ≠ [])
    (below : ∀ d ∈ ds, d < 10) {k : Nat} (behind : ¬k + 1 < ds.length) (ends : Ends rest) :
    readMagnitude negative
        (Text.ofChars (plainDecimal (ds.map Text.hexDigit) (.negSucc k)) ++ rest) =
      .ok (.number (.ofDecimal negative (value 10 ds) (.negSucc k)), rest) := by
  have zero : IsWhole [0] := ⟨by simp, by simp, .inl rfl⟩
  have digits : ∀ d ∈ List.replicate (k + 1 - ds.length) 0 ++ ds, d < 10 := by
    intro d member
    exact (List.mem_append.mp member).elim (zeros_below _ d) (below d)
  have length : (List.replicate (k + 1 - ds.length) 0 ++ ds).length = k + 1 := by
    rw [List.length_append, List.length_replicate]
    omega
  have spelled : Text.ofChars (plainDecimal (ds.map Text.hexDigit) (.negSucc k)) ++ rest =
      symbols [0] ++ .char '.' ::
        (symbols (List.replicate (k + 1 - ds.length) 0 ++ ds) ++ rest) := by
    simp [plainDecimal, behind, symbols, Text.hexDigit]
  rw [spelled, readMagnitude_fraction negative zero (by simp [nonempty]) digits ends, length,
    ← List.append_assoc, show [0] ++ List.replicate (k + 1 - ds.length) 0 =
      List.replicate (k + 1 - ds.length + 1) 0 from rfl, (value_zeros _ ds).1]
  rfl

/-- The layout without an exponent. -/
theorem readMagnitude_plain [Limits] (negative : Bool) (nonempty : ds ≠ [])
    (below : ∀ d ∈ ds, d < 10) (leads : ds.head? ≠ some 0) (ends : Ends rest) :
    readMagnitude negative
        (Text.ofChars (plainDecimal (ds.map Text.hexDigit) place) ++ rest) =
      .ok (.number (.ofDecimal negative (value 10 ds) place), rest) := by
  cases place with
  | ofNat k => exact readMagnitude_integral negative nonempty below leads k ends
  | negSucc k =>
      by_cases inside : k + 1 < ds.length
      · exact readMagnitude_inside negative nonempty below leads inside ends
      · exact readMagnitude_behind negative nonempty below inside ends

/-- The layout with an exponent. -/
theorem readMagnitude_scientific [Limits] (negative : Bool) (nonempty : ds ≠ [])
    (below : ∀ d ∈ ds, d < 10) (leads : ds.head? ≠ some 0) (top : Int) (ends : Ends rest) :
    readMagnitude negative
        (Text.ofChars (exponentDecimal (ds.map Text.hexDigit) top) ++ rest) =
      .ok (.number (.ofDecimal negative (value 10 ds) (top - (ds.length - 1))), rest) := by
  obtain ⟨d, fs, rfl⟩ := List.exists_cons_of_ne_nil nonempty
  have whole : IsWhole [d] := ⟨by simp, by simpa using below d List.mem_cons_self, .inr leads⟩
  obtain ⟨es, written, some_digit, belowE, denotes⟩ := Numeral.exists_digits top.natAbs
  have spelled : Text.ofChars (exponentDecimal ((d :: fs).map Text.hexDigit) top) ++ rest =
      symbols [d] ++ ((if fs = [] then [] else .char '.' :: symbols fs) ++
        .char 'e' :: .char (if decide (top < 0) then '-' else '+') ::
          (symbols (List.replicate (2 - es.length) 0 ++ es) ++ rest)) := by
    rw [exponentDecimal, Numeral.padded, written]
    cases fs <;> simp [symbols, Text.hexDigit]
  have digits : ∀ e ∈ List.replicate (2 - es.length) 0 ++ es, e < 10 := by
    intro e member
    exact (List.mem_append.mp member).elim (zeros_below _ e) (belowE e)
  rw [spelled, readMagnitude_exponent negative _ whole
    (fun f inside => below f (List.mem_cons_of_mem _ inside)) (by simp [some_digit]) digits ends,
    (value_zeros _ es).1, denotes]
  have exponent : (if decide (top < 0) = true then -(top.natAbs : Int) else top.natAbs) - fs.length =
      top - ((d :: fs).length - 1) := by
    rw [List.length_cons]
    by_cases negative : top < 0
    · rw [if_pos (decide_eq_true negative)]
      omega
    · rw [if_neg (by simpa using negative)]
      omega
  rw [exponent]
  rfl

/-- A text that starts with a digit. -/
def DigitFirst (t : Text) : Prop := ∃ d < 10, ∃ behind, t = .char (Text.hexDigit d) :: behind

theorem digitFirst_plain (nonempty : ds ≠ []) (below : ∀ d ∈ ds, d < 10) :
    DigitFirst (Text.ofChars (plainDecimal (ds.map Text.hexDigit) place)) := by
  obtain ⟨d, fs, rfl⟩ := List.exists_cons_of_ne_nil nonempty
  have first := below d List.mem_cons_self
  cases place with
  | ofNat k => exact ⟨d, first, _, rfl⟩
  | negSucc k =>
      rw [plainDecimal]
      split
      · next inside =>
        obtain ⟨n, whole⟩ : ∃ n, ((d :: fs).map Text.hexDigit).length - (k + 1) = n + 1 :=
          ⟨_, (Nat.succ_pred_eq_of_pos (by omega)).symm⟩
        rw [whole]
        exact ⟨d, first, _, rfl⟩
      · exact ⟨0, by decide, _, rfl⟩

theorem digitFirst_scientific (nonempty : ds ≠ []) (below : ∀ d ∈ ds, d < 10) (top : Int) :
    DigitFirst (Text.ofChars (exponentDecimal (ds.map Text.hexDigit) top)) := by
  obtain ⟨d, fs, rfl⟩ := List.exists_cons_of_ne_nil nonempty
  exact ⟨d, below d List.mem_cons_self, _, rfl⟩

end Layout

section Number

variable {negative : Bool} {m : Nat} {e : Int} {rest : Text}

/-- The decimal of a positive number is its digits at their place, in one of the two layouts. -/
theorem readMagnitude_positive [Limits] (canonical : Binary64.IsCanonical m e) (positive : 0 < m) :
    DigitFirst (Text.ofChars (positiveDecimal m e canonical)) ∧
      ∀ rest, Ends rest →
        readMagnitude negative (Text.ofChars (positiveDecimal m e canonical) ++ rest) =
          .ok (.number (.finite negative m e canonical), rest) := by
  have reads := Binary64.ofDecimal_sign negative
    (Binary64.ofDecimal_shortest canonical positive)
  set n := (Binary64.shortest m e canonical).1 with n_def
  set place := (Binary64.shortest m e canonical).2 with place_def
  have nonzero : n ≠ 0 := by
    intro zero
    rw [zero] at reads
    simp only [Binary64.ofDecimal, Binary64.zero, decide_true, Bool.true_or, if_true,
      Binary64.finite.injEq] at reads
    omega
  obtain ⟨ds, zeros, trimmed⟩ := exists_trimmed nonzero
  have shifted := Binary64.ofDecimal_shift negative (value 10 ds) zeros (place + zeros)
  rw [trimmed.denotes, add_sub_cancel_right, reads] at shifted
  have length : (Numeral.digits n).length - ds.length = zeros := by
    rw [trimmed.written]
    simp
  have written : positiveDecimal m e canonical =
      if plainRange.1 ≤ place + zeros + ds.length - 1 && place + zeros + ds.length - 1 ≤ plainRange.2
      then plainDecimal (ds.map Text.hexDigit) (place + zeros)
      else exponentDecimal (ds.map Text.hexDigit) (place + zeros + ds.length - 1) := by
    simp only [positiveDecimal, ← n_def, ← place_def, trimmed.kept, List.length_map, length]
  rw [written]
  split
  · refine ⟨digitFirst_plain trimmed.nonempty trimmed.below, ?_⟩
    intro rest ends
    rw [readMagnitude_plain negative trimmed.nonempty trimmed.below trimmed.leads ends, ← shifted]
  · refine ⟨digitFirst_scientific trimmed.nonempty trimmed.below _, ?_⟩
    intro rest ends
    rw [readMagnitude_scientific negative trimmed.nonempty trimmed.below trimmed.leads _ ends,
      show place + zeros + ds.length - 1 - ((ds.length : Int) - 1) = place + zeros by ring, ← shifted]

/-- The decimal of a number without its sign. -/
def body (m : Nat) (e : Int) (canonical : Binary64.IsCanonical m e) : Text :=
  Text.ofChars (if m = 0 then ['0', '.', '0'] else positiveDecimal m e canonical)

theorem readMagnitude_body [Limits] (negative : Bool) (canonical : Binary64.IsCanonical m e) :
    DigitFirst (body m e canonical) ∧ ∀ rest, Ends rest →
      readMagnitude negative (body m e canonical ++ rest) =
        .ok (.number (.finite negative m e canonical), rest) := by
  by_cases zero : m = 0
  · subst zero
    have least : e = Binary64.leastExponent := canonical.2.2.2 (by decide)
    subst least
    refine ⟨⟨0, by decide, _, rfl⟩, ?_⟩
    intro rest ends
    have whole : IsWhole [0] := ⟨by simp, by simp, .inl rfl⟩
    have fraction : ∀ d ∈ [0], d < 10 := by simp
    exact readMagnitude_fraction negative whole (List.cons_ne_nil _ _) fraction ends
  · rw [body, if_neg zero]
    exact readMagnitude_positive canonical (Nat.pos_of_ne_zero zero)

/-- A written number is read as that number. -/
theorem readPlain_number [Limits] (x : Binary64) (ends : Ends rest) :
    readPlain (Text.ofChars (writeNumber x) ++ rest) = .ok (.number x, rest) := by
  cases x with
  | nan => rfl
  | infinite negative => cases negative <;> rfl
  | finite negative m e canonical =>
      obtain ⟨⟨d, below, behind, spelled⟩, reads⟩ := readMagnitude_body negative canonical
      have whole := reads rest ends
      obtain ⟨plain, signed⟩ := readPlain_digit below (behind ++ rest)
      rw [spelled, List.cons_append] at whole
      cases negative with
      | false =>
          have text : Text.ofChars (writeNumber (.finite false m e canonical)) =
              body m e canonical := rfl
          rw [text, spelled, List.cons_append, plain, whole]
      | true =>
          have text : Text.ofChars (writeNumber (.finite true m e canonical)) =
              .char '-' :: body m e canonical := rfl
          rw [text, spelled, List.cons_append, List.cons_append, signed, whole]

end Number

end BearerToken.Json
