import Mathlib
import BearerToken.Json.Reader
import BearerToken.Proofs.Table

/-!
# What holds of what is read

A property of values is one of all that is read if each form passes it on: the strings and the
plain values have it, and so does a container whose elements have it. It can depend on the room that
is left, and on a property of the text that passes to every end of the text. The induction is on the
fuel of the reader, and what it shows holds of a value, of the items of a list and of the members of
an object, and of the text that is left.
-/

namespace BearerToken

section Results

variable {α β ε : Type} {r : Except ε α} {y : β}

theorem exists_of_map_eq_ok {f : α → β} (done : r.map f = .ok y) : ∃ x, r = .ok x ∧ f x = y := by
  cases r with
  | error e => cases done
  | ok x => exact ⟨x, rfl, Except.ok.inj done⟩

theorem exists_of_bind_eq_ok {f : α → Except ε β} (done : r >>= f = .ok y) :
    ∃ x, r = .ok x ∧ f x = .ok y := by
  cases r with
  | error e => cases done
  | ok x => exact ⟨x, rfl, done⟩

theorem exists_of_mapM_eq_ok {f : α → Except ε β} {xs : List α} {ys : List β}
    (done : xs.mapM f = .ok ys) : ∀ x ∈ xs, ∃ y, f x = .ok y := by
  induction xs generalizing ys with
  | nil => nofun
  | cons x rest ih =>
      rw [List.mapM_cons] at done
      obtain ⟨y, first, done⟩ := exists_of_bind_eq_ok done
      obtain ⟨ys', more, _⟩ := exists_of_bind_eq_ok done
      exact List.forall_mem_cons.mpr ⟨⟨y, first⟩, ih more⟩

end Results

namespace Json

open Text (ofPair? ofUnit)

/-- How a string is read, up to its closing quote. -/
inductive StringRead : Text → Text → Text → Prop
  | close (rest : Text) : StringRead (.char '"' :: rest) [] rest
  | pair {a b c d a' b' c' d' : CodePoint} {u v : Nat} {joined : Char} {t s rest : Text}
      (high : hexUnit? a b c d = some u) (low : hexUnit? a' b' c' d' = some v)
      (pair : ofPair? u v = some joined) (more : StringRead t s rest) :
      StringRead (.char '\\' :: .char 'u' :: a :: b :: c :: d ::
        .char '\\' :: .char 'u' :: a' :: b' :: c' :: d' :: t) (.char joined :: s) rest
  | unit {a b c d : CodePoint} {u : Nat} {t s rest : Text} (unit : hexUnit? a b c d = some u)
      (alone : ∀ a b c d behind, t = .char '\\' :: .char 'u' :: a :: b :: c :: d :: behind →
        (hexUnit? a b c d).bind (ofPair? u) = none) (more : StringRead t s rest) :
      StringRead (.char '\\' :: .char 'u' :: a :: b :: c :: d :: t) (ofUnit u :: s) rest
  | short {letter : CodePoint} {c : Char} {t s rest : Text} (short : shortEscape? letter = some c)
      (more : StringRead t s rest) : StringRead (.char '\\' :: letter :: t) (.char c :: s) rest
  | plain {c : CodePoint} {t s rest : Text} (more : StringRead t s rest) :
      StringRead (c :: t) (c :: s) rest

section Strings

variable {t s rest : Text}

theorem exists_of_map_prepend {c : CodePoint} {r : Option (Text × Text)}
    (reads : r.map (prepend c) = some (s, rest)) : ∃ s', r = some (s', rest) ∧ s = c :: s' := by
  obtain ⟨⟨s', rest'⟩, same, prepended⟩ := Option.map_eq_some_iff.mp reads
  cases prepended
  exact ⟨s', same, rfl⟩

theorem stringRead_of_readText (reads : readText t = some (s, rest)) : StringRead t s rest := by
  induction t using readText.induct generalizing s with
  | case1 => cases reads
  | case2 rest =>
      cases reads
      exact .close _
  | case3 a b c d t ih =>
      rw [readText] at reads
      obtain ⟨u, unit, reads⟩ := Option.bind_eq_some_iff.mp reads
      split at reads
      · next a' b' c' d' behind =>
        split at reads
        · next joined same =>
          obtain ⟨v, low, pair⟩ := Option.bind_eq_some_iff.mp same
          obtain ⟨s', more, rfl⟩ := exists_of_map_prepend reads
          exact .pair unit low pair (ih.1 more)
        · next alone =>
          obtain ⟨s', more, rfl⟩ := exists_of_map_prepend reads
          refine .unit unit ?_ (ih.2 more)
          rintro _ _ _ _ _ ⟨⟩
          exact alone
      · next other =>
        obtain ⟨s', more, rfl⟩ := exists_of_map_prepend reads
        refine .unit unit ?_ ?_
        · intro a b c d behind same
          exact (other a b c d behind same).elim
        · split at ih
          · exact (other _ _ _ _ _ rfl).elim
          · exact ih more
  | case4 letter t other ih =>
      rw [readText] at reads
      · obtain ⟨c, short, reads⟩ := Option.bind_eq_some_iff.mp reads
        obtain ⟨s', more, rfl⟩ := exists_of_map_prepend reads
        exact .short short (ih more)
      · exact other
  | case5 c t quote unit short low =>
      rw [readText, if_pos low] at reads
      · cases reads
      · exact quote
      · exact unit
      · exact short
  | case6 c t quote unit short low ih =>
      rw [readText, if_neg low] at reads
      · obtain ⟨s', more, rfl⟩ := exists_of_map_prepend reads
        exact .plain (ih more)
      · exact quote
      · exact unit
      · exact short

theorem StringRead.suffix (read : StringRead t s rest) : rest <:+ t := by
  induction read with
  | close rest => exact List.suffix_cons _ _
  | pair _ _ _ _ ih => exact ih.trans ⟨[_, _, _, _, _, _, _, _, _, _, _, _], rfl⟩
  | unit _ _ _ ih => exact ih.trans ⟨[_, _, _, _, _, _], rfl⟩
  | short _ _ ih => exact ih.trans ⟨[_, _], rfl⟩
  | plain _ ih => exact ih.trans (List.suffix_cons _ _)

end Strings

section Suffix

variable {t rest : Text} {v : Value}

theorem suffix_skipSpace (t : Text) : skipSpace t <:+ t := List.dropWhile_suffix _

theorem suffix_digitRun {ds : Text} (run : Numeral.digitRun t = (ds, rest)) : rest <:+ t := by
  cases run
  exact List.dropWhile_suffix _

theorem suffix_wholePart {left : Nat} {whole : Text}
    (reads : wholePart left t = .ok (whole, rest)) : rest <:+ t := by
  rw [wholePart.eq_def] at reads
  split at reads
  · cases reads
    exact List.suffix_cons _ _
  · split at reads
    · cases reads
    · exact suffix_digitRun (Except.ok.inj reads)

theorem suffix_fractionPart (t : Text) : ((fractionPart t).getD ([], t)).2 <:+ t := by
  rw [fractionPart.eq_def]
  split
  · next digits =>
    split
    · exact List.suffix_rfl
    · exact List.IsSuffix.trans (suffix_digitRun rfl) (List.suffix_cons _ _)
  · exact List.suffix_rfl

theorem suffix_exponentPart (t : Text) : ((exponentPart t).getD (0, t)).2 <:+ t := by
  rw [exponentPart.eq_def]
  split
  · next e signed =>
    split
    · dsimp only
      split
      · exact List.suffix_rfl
      · next ds rest _ run =>
        refine (suffix_digitRun run).trans (List.IsSuffix.trans ?_ (List.suffix_cons e signed))
        split
        · exact List.suffix_cons _ _
        · exact List.suffix_cons _ _
        · exact List.suffix_rfl
    · exact List.suffix_rfl
  · exact List.suffix_rfl

theorem suffix_readMagnitude [Limits] {negative : Bool}
    (reads : readMagnitude negative t = .ok (v, rest)) : rest <:+ t := by
  rw [readMagnitude] at reads
  obtain ⟨⟨whole, behind⟩, part, reads⟩ := exists_of_bind_eq_ok reads
  have first := suffix_wholePart part
  have second := suffix_fractionPart behind
  have third := suffix_exponentPart ((fractionPart behind).getD ([], behind)).2
  have all := third.trans (second.trans first)
  dsimp only at reads
  split at reads
  · cases reads
    exact all
  · split at reads
    · cases reads
    · cases reads
      exact all

theorem suffix_readPlain [Limits] (reads : readPlain t = .ok (v, rest)) : rest <:+ t := by
  rw [readPlain.eq_def] at reads
  split at reads
  · next r word =>
    cases reads
    obtain ⟨w, -, found⟩ := List.exists_of_findSome?_eq_some word
    obtain ⟨behind, stands, same⟩ := Option.map_eq_some_iff.mp found
    cases same
    rw [behind?] at stands
    split at stands
    · cases stands
      exact List.drop_suffix _ _
    · cases stands
  · exact (suffix_readMagnitude reads).trans (List.suffix_cons _ _)
  · exact suffix_readMagnitude reads

end Suffix

/-- The property `V` of values, each with the room it was read in, is one of all that is read from
texts with the property `q`. The strings and keys in them have the property `p`. -/
structure ReadRule [Limits] (q p : Text → Prop) (V : Nat → Value → Prop) : Prop where
  behind : ∀ {t rest}, rest <:+ t → q t → q rest
  string : ∀ {t s rest}, q t → StringRead t s rest → p s
  text : ∀ {room s}, p s → V room (.text s)
  plain : ∀ {room t v rest}, readPlain t = .ok (v, rest) → V room v
  list : ∀ {room items}, (∀ v ∈ items, V room v) → V (room + 1) (.list items)
  object : ∀ {room members}, (∀ m ∈ members, p m.1 ∧ V room m.2) →
    V (room + 1) (.object (Table.ofList members).entries)

/-- What is read with so much fuel, and the text that is left, have the properties of the rule. -/
structure ReadSound [Limits] (q p : Text → Prop) (V : Nat → Value → Prop) (fuel : Nat) :
    Prop where
  value : ∀ {room : Nat} {t rest : Text} {v : Value}, q t →
    readValue fuel room t = .ok (v, rest) → V room v ∧ q rest
  items : ∀ {room : Nat} {t rest : Text} {items : List Value}, q t →
    readItems fuel room t = .ok (items, rest) → (∀ v ∈ items, V room v) ∧ q rest
  members : ∀ {room : Nat} {t rest : Text} {members : List (Text × Value)}, q t →
    readMembers fuel room t = .ok (members, rest) → (∀ m ∈ members, p m.1 ∧ V room m.2) ∧ q rest

section Rule

variable [Limits] {q p : Text → Prop} {V : Nat → Value → Prop} {fuel room : Nat} {t rest : Text}
  (rule : ReadRule q p V)
include rule

theorem ReadRule.tail {c : CodePoint} (holds : q (c :: t)) : q t :=
  rule.behind (List.suffix_cons c t) holds

theorem ReadRule.space (holds : q t) : q (skipSpace t) := rule.behind (suffix_skipSpace t) holds

theorem ReadRule.of_readString {s : Text} (holds : q t) (reads : readString t = .ok (s, rest)) :
    p s ∧ q rest := by
  have read := stringRead_of_readText (readString_eq_ok_iff.mp reads)
  exact ⟨rule.string holds read, rule.behind read.suffix holds⟩

theorem ReadRule.of_readPlain {v : Value} (holds : q t) (reads : readPlain t = .ok (v, rest)) :
    V room v ∧ q rest :=
  ⟨rule.plain reads, rule.behind (suffix_readPlain reads) holds⟩

/-- Without fuel no container is read that holds anything. -/
theorem readSound_zero : ReadSound q p V 0 where
  value holds reads := by
    rw [readValue.eq_def] at reads
    split at reads
    · obtain ⟨⟨s, rest⟩, string, same⟩ := exists_of_map_eq_ok reads
      cases same
      obtain ⟨here, left⟩ := rule.of_readString (rule.tail holds) string
      exact ⟨rule.text here, left⟩
    · cases reads
    · cases reads
    · next none => cases none
    · next none => cases none
    · exact rule.of_readPlain holds reads
  items holds reads := by
    rw [readItems] at reads
    cases reads
  members holds reads := by
    rw [readMembers] at reads
    · cases reads
    · nofun

theorem ReadSound.succ_items (sound : ReadSound q p V fuel) {items : List Value} (holds : q t)
    (reads : readItems (fuel + 1) room t = .ok (items, rest)) :
    (∀ v ∈ items, V room v) ∧ q rest := by
  rw [readItems] at reads
  obtain ⟨⟨v, behind⟩, first, reads⟩ := exists_of_bind_eq_ok reads
  obtain ⟨here, left⟩ := sound.value holds first
  have left := rule.space left
  dsimp only at reads
  split at reads
  · next bracket =>
    cases reads
    rw [bracket] at left
    exact ⟨by simpa using here, rule.tail left⟩
  · next comma =>
    obtain ⟨⟨items', behind'⟩, more, reads⟩ := exists_of_bind_eq_ok reads
    cases reads
    rw [comma] at left
    obtain ⟨there, left⟩ := sound.items (rule.space (rule.tail left)) more
    exact ⟨List.forall_mem_cons.mpr ⟨here, there⟩, left⟩
  · cases reads

theorem ReadSound.succ_members (sound : ReadSound q p V fuel) {members : List (Text × Value)}
    (holds : q t) (reads : readMembers (fuel + 1) room t = .ok (members, rest)) :
    (∀ m ∈ members, p m.1 ∧ V room m.2) ∧ q rest := by
  rw [readMembers.eq_def] at reads
  split at reads
  · next same =>
    cases same
    obtain ⟨⟨key, behind⟩, string, reads⟩ := exists_of_bind_eq_ok reads
    obtain ⟨named, left⟩ := rule.of_readString (rule.tail holds) string
    have left := rule.space left
    dsimp only at reads
    split at reads
    · next colon =>
      rw [colon] at left
      obtain ⟨⟨v, behind'⟩, first, reads⟩ := exists_of_bind_eq_ok reads
      obtain ⟨here, left⟩ := sound.value (rule.space (rule.tail left)) first
      have left := rule.space left
      dsimp only at reads
      split at reads
      · next brace =>
        cases reads
        rw [brace] at left
        exact ⟨by simpa using ⟨named, here⟩, rule.tail left⟩
      · next comma =>
        obtain ⟨⟨members', behind''⟩, more, reads⟩ := exists_of_bind_eq_ok reads
        cases reads
        rw [comma] at left
        obtain ⟨there, left⟩ := sound.members (rule.space (rule.tail left)) more
        exact ⟨List.forall_mem_cons.mpr ⟨⟨named, here⟩, there⟩, left⟩
      · cases reads
    · cases reads
  · cases reads

/-- A value that starts with no bracket takes no fuel. -/
theorem ReadSound.succ_value (sound : ReadSound q p V fuel) {v : Value} (holds : q t)
    (reads : readValue (fuel + 1) room t = .ok (v, rest)) : V room v ∧ q rest := by
  rw [readValue.eq_def] at reads
  split at reads
  · obtain ⟨⟨s, rest⟩, string, same⟩ := exists_of_map_eq_ok reads
    cases same
    obtain ⟨here, left⟩ := rule.of_readString (rule.tail holds) string
    exact ⟨rule.text here, left⟩
  · cases reads
  · cases reads
  · next same =>
    cases same
    have inner := rule.space (rule.tail holds)
    split at reads
    · next bracket =>
      cases reads
      rw [bracket] at inner
      exact ⟨rule.list nofun, rule.tail inner⟩
    · obtain ⟨⟨items, rest⟩, read, same⟩ := exists_of_map_eq_ok reads
      cases same
      obtain ⟨each, left⟩ := sound.items inner read
      exact ⟨rule.list each, left⟩
  · next same =>
    cases same
    have inner := rule.space (rule.tail holds)
    split at reads
    · next brace =>
      cases reads
      rw [brace] at inner
      have empty (room) : V (room + 1) (.object (Table.ofList []).entries) :=
        rule.object (by simp)
      exact ⟨empty _, rule.tail inner⟩
    · obtain ⟨⟨members, rest⟩, read, same⟩ := exists_of_map_eq_ok reads
      cases same
      obtain ⟨each, left⟩ := sound.members inner read
      exact ⟨rule.object each, left⟩
  · exact rule.of_readPlain holds reads

theorem ReadRule.sound (fuel : Nat) : ReadSound q p V fuel := by
  induction fuel with
  | zero => exact readSound_zero rule
  | succ fuel ih => exact ⟨ih.succ_value rule, ih.succ_items rule, ih.succ_members rule⟩

theorem ReadRule.of_read {v : Value} (holds : q t) (reads : read t = .ok v) :
    V Limits.depth v := by
  obtain ⟨⟨v', rest⟩, value, reads⟩ := exists_of_bind_eq_ok reads
  dsimp only at reads
  split at reads
  · cases reads
    exact ((rule.sound _).value (rule.space holds) value).1
  · cases reads

end Rule

end Json

end BearerToken
