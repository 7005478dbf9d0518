import Mathlib
import BearerToken.Log.Template
import BearerToken.Proofs.Json.Reading

/-!
# Filling templates

Every placeholder that is filled takes up a part of its template, so the fuel never runs out and
does not matter. A text whose percent signs are doubled is a template for itself, on its own or in
front of any other, and around a plain placeholder it frames the argument.
-/

namespace BearerToken.Log.Template

open Json (Value)

section Suffix

variable {t rest : Text} {pending after : Pending}

theorem suffix_digits (t : Text) : (Numeral.digitRun t).2 <:+ t := List.dropWhile_suffix _

theorem suffix_readName {depth : Nat} {name : Text} (reads : readName depth t = some (name, rest)) :
    rest <:+ t := by
  induction t generalizing depth name with
  | nil => cases depth <;> cases reads
  | cons c t ih =>
      rw [readName.eq_def] at reads
      split at reads
      · cases reads
      · next same =>
        cases same
        cases reads
        exact List.suffix_cons _ _
      · next same =>
        cases same
        obtain ⟨⟨name', rest'⟩, more, heads⟩ := Option.map_eq_some_iff.mp reads
        cases heads
        exact (ih more).trans (List.suffix_cons _ _)

theorem suffix_readMember {argument : Value}
    (reads : readMember argument t pending = .ok (after, rest)) : rest <:+ t := by
  rw [readMember.eq_def] at reads
  split at reads
  · cases reads
  · split at reads
    · cases reads
    · next name =>
      obtain ⟨v, -, same⟩ := exists_of_bind_eq_ok reads
      cases same
      exact (suffix_readName name).trans (List.suffix_cons _ _)
  · cases reads
    exact List.suffix_rfl

theorem suffix_readFlags (l : Layout) (t : Text) : (l.readFlags t).2 <:+ t := by
  fun_induction Layout.readFlags l t with
  | case1 l rest ih | case2 l rest ih | case3 l rest ih | case4 l rest ih | case5 l rest ih =>
      exact ih.trans (List.suffix_cons _ _)
  | case6 => exact List.suffix_rfl

theorem suffix_readNumber {bound : Nat} {tooBig : TemplateError} {n : Int}
    (reads : readNumber bound tooBig t pending = .ok (n, rest, after)) : rest <:+ t := by
  rw [readNumber.eq_def] at reads
  split at reads
  · obtain ⟨v, -, reads⟩ := exists_of_bind_eq_ok reads
    obtain ⟨n, -, reads⟩ := exists_of_bind_eq_ok reads
    split at reads
    · cases reads
    · cases reads
      exact List.suffix_cons _ _
  · dsimp only at reads
    split at reads
    · cases reads
    · cases reads
      exact suffix_digits t

theorem suffix_readWidth {l l' : Layout} (reads : readWidth l t pending = .ok (l', rest, after)) :
    rest <:+ t := by
  obtain ⟨⟨n, rest', pending'⟩, number, same⟩ := exists_of_bind_eq_ok reads
  cases same
  exact suffix_readNumber number

theorem suffix_readPrecision {l l' : Layout}
    (reads : readPrecision l t pending = .ok (l', rest, after)) : rest <:+ t := by
  rw [readPrecision.eq_def] at reads
  split at reads
  · obtain ⟨⟨n, rest', pending'⟩, number, same⟩ := exists_of_bind_eq_ok reads
    cases same
    exact (suffix_readNumber number).trans (List.suffix_cons _ _)
  · cases reads
    exact List.suffix_rfl

theorem suffix_skipSize (t : Text) : skipSize t <:+ t := by
  rw [skipSize.eq_def]
  split
  · exact List.suffix_cons _ _
  · exact List.suffix_cons _ _
  · exact List.suffix_cons _ _
  · exact List.suffix_rfl

/-- A placeholder takes up its letter at least. -/
theorem length_lt_of_fillPlaceholder {size : Nat} {argument : Value} {filled : Text}
    (fills : fillPlaceholder size argument t pending = .ok (filled, rest)) :
    rest.length < t.length := by
  obtain ⟨⟨p₁, t₁⟩, member, fills⟩ := exists_of_bind_eq_ok fills
  obtain ⟨⟨l₂, t₂, p₂⟩, width, fills⟩ := exists_of_bind_eq_ok fills
  obtain ⟨⟨l₃, t₃, p₃⟩, precision, fills⟩ := exists_of_bind_eq_ok fills
  have behind := (suffix_readPrecision precision).trans ((suffix_readWidth width).trans
    ((suffix_readFlags {} t₁).trans (suffix_readMember member)))
  have sized := (suffix_skipSize t₃).trans behind
  dsimp only at fills
  split at fills
  · cases fills
  · next letter rest' heads =>
    obtain ⟨v, -, fills⟩ := exists_of_bind_eq_ok fills
    obtain ⟨shown, -, same⟩ := exists_of_bind_eq_ok fills
    cases same
    rw [heads] at sized
    exact sized.length_le

end Suffix

/-- Fuel beyond the length of the text makes no difference. -/
theorem fillFrom_of_enough {size fuel fuel' : Nat} {argument : Value} {t : Text}
    {pending : Pending} (enough : t.length < fuel) (enough' : t.length < fuel') :
    fillFrom size argument fuel t pending = fillFrom size argument fuel' t pending := by
  obtain ⟨spare, rfl⟩ := Nat.exists_eq_add_of_lt enough'
  generalize more : t.length + spare = f
  replace enough' : t.length ≤ f := by omega
  clear more
  fun_induction fillFrom size argument fuel t pending generalizing f with
  | case1 => cases enough
  | case2 fuel pending left _ =>
      rw [fillFrom, if_pos left]
      exact Nat.succ_ne_zero f
  | case3 fuel pending left _ =>
      rw [fillFrom, if_neg left]
      exact Nat.succ_ne_zero f
  | case4 fuel rest pending ih =>
      simp only [List.length_cons] at enough enough'
      obtain ⟨f, rfl⟩ := Nat.exists_eq_succ_of_ne_zero (show f ≠ 0 by omega)
      rw [fillFrom, ih (by omega) f (by omega)]
  | case5 fuel rest pending single ih =>
      simp only [List.length_cons] at enough enough'
      rw [fillFrom]
      · cases fills : fillPlaceholder size argument rest pending with
        | error cause => rfl
        | ok filled =>
            obtain ⟨filled, behind⟩ := filled
            have shorter := length_lt_of_fillPlaceholder fills
            obtain ⟨f, rfl⟩ := Nat.exists_eq_succ_of_ne_zero (show f ≠ 0 by omega)
            simp only [bind, Except.bind]
            rw [ih behind (by omega) f (by omega)]
      · exact single
  | case6 fuel c rest pending double single ih =>
      simp only [List.length_cons] at enough enough'
      obtain ⟨f, rfl⟩ := Nat.exists_eq_succ_of_ne_zero (show f ≠ 0 by omega)
      rw [fillFrom, ih (by omega) f (by omega)]
      · exact double
      · exact single

/-- A code point as it stands for itself in a template. -/
def doubledPoint (c : CodePoint) : Text := if c = .char '%' then [.char '%', .char '%'] else [c]

/-- A text with its percent signs doubled. -/
def doubled (t : Text) : Text := t.flatMap doubledPoint

section Doubled

variable {size fuel : Nat} {argument : Value} {rest : Text} {pending : Pending}

theorem fillFrom_doubledPoint (c : CodePoint) :
    fillFrom size argument (fuel + 1) (doubledPoint c ++ rest) pending =
      (fillFrom size argument fuel rest pending).map (c :: ·) := by
  rw [doubledPoint]
  split
  · next sign =>
    subst sign
    exact fillFrom.eq_3 ..
  · next other =>
    rw [List.singleton_append, fillFrom]
    · rfl
    · exact fun _ sign _ => other sign
    · exact other

/-- Doubled signs in front of a template stand for single ones. -/
theorem fillFrom_doubled (t : Text) (enough : (doubled t ++ rest).length < fuel) :
    fillFrom size argument fuel (doubled t ++ rest) pending =
      (fillFrom size argument fuel rest pending).map (t ++ ·) := by
  induction t generalizing fuel with
  | nil =>
      cases fills : fillFrom size argument fuel rest pending <;> exact fills
  | cons c t ih =>
      obtain ⟨fuel, rfl⟩ := Nat.exists_eq_succ_of_ne_zero (Nat.ne_zero_of_lt enough)
      have cons : doubled (c :: t) ++ rest = doubledPoint c ++ (doubled t ++ rest) := by
        rw [doubled, List.flatMap_cons, List.append_assoc, doubled]
      have positive : 0 < (doubledPoint c).length := by
        rw [doubledPoint]
        split <;> exact Nat.succ_pos _
      rw [cons, List.length_append] at enough
      have inside : (doubled t ++ rest).length < fuel := by omega
      have short : rest.length < fuel := by
        rw [List.length_append] at inside
        omega
      rw [cons, fillFrom_doubledPoint, ih inside,
        fillFrom_of_enough short (Nat.lt_succ_of_lt short)]
      cases fillFrom size argument (fuel + 1) rest pending <;> rfl

end Doubled

/-- A text whose percent signs are doubled takes nothing from an argument, and is given back unless
the argument has to be taken. -/
theorem fill_doubled (t : Text) (argument : Value) :
    fill (doubled t) argument = if mayBeLeft argument then .ok t else .error .leftOver := by
  have whole := List.append_nil (doubled t)
  rw [fill, ← whole, fillFrom_doubled t (by rw [whole]; exact Nat.lt_succ_self _), fillFrom]
  · cases mayBeLeft argument with
    | true => exact congrArg Except.ok (List.append_nil t)
    | false => rfl
  · nofun

/-- A plain placeholder takes the argument as it is shown. -/
theorem fillPlaceholder_shown (size : Nat) (argument : Value) (rest : Text) :
    fillPlaceholder size argument (.char 's' :: rest) (some argument) =
      .ok (argument.display, rest) := by
  have member : readMember argument (.char 's' :: rest) (some argument) =
      .ok (some argument, .char 's' :: rest) := by
    cases argument <;> rfl
  have unfilled : Layout.text {} argument.display = argument.display := by
    simp [Layout.text, Layout.fill]
  rw [fillPlaceholder, member]
  exact congrArg (fun shown => Except.ok (shown, rest)) unfilled

/-- A template with one plain placeholder frames the argument, as it is shown. -/
theorem fill_shown (before behind : Text) (argument : Value) :
    fill (doubled before ++ .char '%' :: .char 's' :: doubled behind) argument =
      .ok (before ++ argument.display ++ behind) := by
  have last {fuel size : Nat} (enough : (doubled behind).length < fuel) :
      fillFrom size argument fuel (doubled behind) none = .ok behind := by
    obtain ⟨fuel, rfl⟩ := Nat.exists_eq_succ_of_ne_zero (Nat.ne_zero_of_lt enough)
    have whole := List.append_nil (doubled behind)
    rw [← whole, fillFrom_doubled behind (by rwa [whole]), fillFrom]
    · exact congrArg Except.ok (List.append_nil behind)
    · nofun
  rw [fill, fillFrom_doubled before (Nat.lt_succ_self _), fillFrom, fillPlaceholder_shown]
  · simp only [bind, Except.bind]
    rw [last]
    · exact congrArg Except.ok (List.append_assoc ..).symm
    · rw [List.length_append]
      simp only [List.length_cons]
      omega
  · nofun

end BearerToken.Log.Template
