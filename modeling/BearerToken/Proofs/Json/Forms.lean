import Mathlib
import BearerToken.Proofs.Json.Reading
import BearerToken.Proofs.Json.Spelling

/-!
# The forms of what is read

A value that is read has no leaves but those that JSON has a form for, and no key of an object
stands twice. Its texts can hold both halves of a pair side by side, but two escapes that name them
are read as one character: a half must have stood in the text that is read. So what is read from a
text of characters is tidy.
-/

namespace BearerToken

namespace Text

/-- The text holds characters only. -/
def IsPlain (t : Text) : Prop := ∀ c ∈ t, ∃ a : Char, c = .char a

theorem IsPlain.of_suffix {t rest : Text} (plain : t.IsPlain) (behind : rest <:+ t) :
    rest.IsPlain :=
  fun c member => plain c (behind.subset member)

theorem isPlain_ofString (s : String) : IsPlain s := by
  intro c member
  obtain ⟨a, -, same⟩ := List.mem_map.mp member
  exact ⟨a, same.symm⟩

/-- Where nothing in a text is to be joined, nothing is with a code point in front that makes no
pair with the first one. -/
theorem joined_cons {c : CodePoint} {t : Text} (fixed : t.joined = t)
    (alone : ∀ a b rest, c = .surrogate a → t = .surrogate b :: rest →
      ofPair? (0xd800 + a.val) (0xd800 + b.val) = none) :
    joined (c :: t) = c :: t := by
  cases c with
  | char c => rw [joined, fixed]; rintro _ _ _ ⟨⟩
  | surrogate a =>
      obtain _ | ⟨char | b, rest⟩ := t
      · rfl
      · rw [joined, fixed]; rintro _ _ _ ⟨⟩ ⟨⟩
      · rw [joined, alone a b rest rfl rfl, fixed]

end Text

namespace Json

section Strings

open Text (ofUnit)

variable {t s rest : Text}

theorem unit_of_surrogate {u : Nat} {n : Fin 0x800} (half : ofUnit u = .surrogate n) :
    u = 0xd800 + n.val := by
  rw [ofUnit] at half
  split at half
  · have value := congrArg Fin.val (CodePoint.surrogate.inj half)
    simp only at value
    omega
  · cases half

/-- In a text of characters a half of a pair is read from an escape. -/
theorem StringRead.escaped {n : Fin 0x800} (read : StringRead t (.surrogate n :: s) rest)
    (plain : t.IsPlain) :
    ∃ a b c d behind, t = .char '\\' :: .char 'u' :: a :: b :: c :: d :: behind ∧
      hexUnit? a b c d = some (0xd800 + n.val) := by
  generalize same : CodePoint.surrogate n :: s = s' at read
  cases read with
  | close rest => cases same
  | pair _ _ _ _ => cases same
  | @unit a b c d u t _ _ unit alone more =>
      have half := unit_of_surrogate (List.cons.inj same).1.symm
      exact ⟨a, b, c, d, t, rfl, half ▸ unit⟩
  | short _ _ => cases same
  | plain more =>
      cases same
      obtain ⟨c, same⟩ := plain _ List.mem_cons_self
      cases same

theorem StringRead.joined_eq (read : StringRead t s rest) (plain : t.IsPlain) : s.joined = s := by
  induction read with
  | close rest => rfl
  | pair _ _ _ more ih =>
      have inner := plain.of_suffix ⟨[_, _, _, _, _, _, _, _, _, _, _, _], rfl⟩
      exact Text.joined_cons (ih inner) nofun
  | @unit a b c d u t s rest unit alone more ih =>
      have inner : t.IsPlain := plain.of_suffix ⟨[_, _, _, _, _, _], rfl⟩
      refine Text.joined_cons (ih inner) ?_
      rintro m n s' half rfl
      obtain ⟨a', b', c', d', behind, same, low⟩ := more.escaped inner
      have joins := alone a' b' c' d' behind same
      rw [low, unit_of_surrogate half] at joins
      exact joins
  | short _ more ih => exact Text.joined_cons (ih (plain.of_suffix ⟨[_, _], rfl⟩)) nofun
  | @plain c t s rest more ih =>
      refine Text.joined_cons (ih (plain.of_suffix ⟨[_], rfl⟩)) ?_
      rintro a b s' rfl
      obtain ⟨c, same⟩ := plain _ List.mem_cons_self
      cases same

end Strings

/-- A value in a form of JSON. Its texts and keys pass a test, and no key of an object stands
twice. -/
inductive Value.Literal (p : Text → Prop) : Value → Prop
  | null : Literal p .null
  | bool (b : Bool) : Literal p (.bool b)
  | int (n : Int) : Literal p (.int n)
  | number (x : Binary64) : Literal p (.number x)
  | text {t : Text} (passes : p t) : Literal p (.text t)
  | list {items : List Value} (each : ∀ v ∈ items, Literal p v) : Literal p (.list items)
  | object {members : List (Text × Value)} (nodup : (members.map Prod.fst).Nodup)
      (keys : ∀ m ∈ members, p m.1) (each : ∀ m ∈ members, Literal p m.2) :
      Literal p (.object members)

namespace Value

variable {p : Text → Prop} {v w : Value}

/-- What differs from a tidy value at most in the order of members is tidy. -/
theorem Rearranged.tidy (same : Rearranged v w) (tidy : w.Tidy) : v.Tidy := by
  induction same with
  | refl v => exact tidy
  | list pairs each ih =>
      cases tidy with | list tidy => ?_
      refine .list ?_
      intro v member
      obtain ⟨pair, inside, rfl⟩ := List.mem_map.mp member
      exact ih pair inside (tidy _ (List.mem_map_of_mem inside))
  | @object pairs each members moved ih =>
      cases tidy with | object nodup joined tidy => ?_
      have stands {triple : Text × Value × Value} (inside : triple ∈ pairs) :
          (triple.1, triple.2.2) ∈ members :=
        moved.subset (List.mem_map_of_mem (f := fun p => (p.1, p.2.2)) inside)
      have keys : (pairs.map fun p => (p.1, p.2.1)).map Prod.fst =
          (pairs.map fun p => (p.1, p.2.2)).map Prod.fst := by
        simp only [List.map_map, Function.comp_def]
      refine .object ?_ ?_ ?_
      · rw [keys]
        exact (moved.map Prod.fst).nodup_iff.mpr nodup
      · intro m member
        obtain ⟨triple, inside, rfl⟩ := List.mem_map.mp member
        exact joined (triple.1, triple.2.2) (stands inside)
      · intro m member
        obtain ⟨triple, inside, rfl⟩ := List.mem_map.mp member
        exact ih triple inside (tidy _ (stands inside))

theorem Rearranged.eq_emptyObject (same : Rearranged v .emptyObject) : v = .emptyObject := by
  generalize empty : emptyObject = w at same ⊢
  cases same with
  | refl v => rfl
  | list pairs each => cases empty
  | object pairs each moved =>
      cases empty
      rw [List.map_eq_nil_iff.mp moved.eq_nil, List.map_nil]

/-- A value in a form of JSON has nothing to spell out. -/
theorem Literal.spelled_eq (literal : Literal p v) : v.spelled = v := by
  induction literal with
  | null => rfl
  | bool b => rfl
  | int n => rfl
  | number x => rfl
  | text passes => rfl
  | list each ih =>
      rw [spelled, spelledItems_eq]
      exact congrArg Value.list ((List.map_congr_left ih).trans (List.map_id _))
  | object nodup keys each ih =>
      rw [spelled, spelledMembers_eq]
      refine congrArg Value.object ((List.map_congr_left ?_).trans (List.map_id _))
      intro m inside
      exact congrArg (Prod.mk m.1) (ih m inside)

theorem Literal.tidy (literal : Literal (fun t => t.joined = t) v) : v.Tidy := by
  induction literal with
  | null => exact .null
  | bool b => exact .bool b
  | int n => exact .int n
  | number x => exact .number x
  | text joined => exact .text joined
  | list each ih => exact .list ih
  | object nodup keys each ih => exact .object nodup keys ih

end Value

section Read

variable [Limits] {q p : Text → Prop} {t rest : Text} {v : Value}

theorem literal_of_readMagnitude {negative : Bool}
    (reads : readMagnitude negative t = .ok (v, rest)) : v.Literal p := by
  rw [readMagnitude] at reads
  obtain ⟨_, part, reads⟩ := exists_of_bind_eq_ok reads
  dsimp only at reads
  split at reads
  · cases reads
    exact .number _
  · split at reads
    · cases reads
    · cases reads
      exact .int _

theorem literal_of_readPlain (reads : readPlain t = .ok (v, rest)) : v.Literal p := by
  rw [readPlain.eq_def] at reads
  split at reads
  · next r word =>
    cases reads
    obtain ⟨w, listed, found⟩ := List.exists_of_findSome?_eq_some word
    obtain ⟨_, stands, same⟩ := Option.map_eq_some_iff.mp found
    cases same
    have each : ∀ w ∈ words, w.2.Literal p := by
      simp [words, Value.Literal.null, Value.Literal.bool, Value.Literal.number]
    exact each w listed
  · exact literal_of_readMagnitude reads
  · exact literal_of_readMagnitude reads

/-- Every form passes it on that a value is in a form of JSON. -/
theorem readRule_literal (behind : ∀ {t rest}, rest <:+ t → q t → q rest)
    (string : ∀ {t s rest}, q t → StringRead t s rest → p s) :
    ReadRule q p fun _ v => v.Literal p where
  behind := behind
  string := string
  text := .text
  plain := literal_of_readPlain
  list := .list
  object {_ members} each :=
    have kept (m) (inside : m ∈ (Table.ofList members).entries) :=
      each m (Table.mem_of_mem_ofList inside)
    .object (Table.nodup_ofList members) (fun m inside => (kept m inside).1)
      fun m inside => (kept m inside).2

theorem literal_of_read (reads : read t = .ok v) : v.Literal fun _ => True :=
  (readRule_literal (q := fun _ => True) (fun _ _ => trivial) fun _ _ => trivial).of_read trivial
    reads

/-- What is read from characters is tidy. -/
theorem tidy_of_read (plain : t.IsPlain) (reads : read t = .ok v) : v.Tidy :=
  ((readRule_literal (fun behind plain => plain.of_suffix behind)
    fun plain read => read.joined_eq plain).of_read plain reads).tidy

end Read

end Json

end BearerToken
