import Mathlib
import BearerToken.Proofs.Bytes
import BearerToken.Text.Utf8

/-!
# Where UTF-8 goes wrong

A text without a UTF-8 form, and bytes that are none, are told their first fault: what stands in
front of it has a form, or is one, and at the fault nothing can go on.
-/

namespace BearerToken

namespace Text

theorem isSome_toString?_iff (t : Text) :
    t.toString?.isSome ↔ ∀ c ∈ t, EncodeFault.isCharacter c = true := by
  rw [toString?, Option.isSome_map]
  induction t with
  | nil => exact iff_of_true rfl (List.forall_mem_nil _)
  | cons c t ih =>
      rw [List.forall_mem_cons, ← ih, chars?, List.mapM_cons]
      cases c with
      | surrogate distance => simp [CodePoint.char?, EncodeFault.isCharacter]
      | char c =>
          simp only [CodePoint.char?, EncodeFault.isCharacter, Option.isSome_some, true_and]
          cases more : List.mapM CodePoint.char? t <;> simp [more, chars?]

/-- The bytes of the character in front. -/
theorem toString?_take_of_leading? {bs : Bytes} {c : Char} {count : Nat}
    (leads : leading? bs = some (c, count)) :
    0 < count ∧ Bytes.toString? (bs.take count) = some (String.ofList [c]) := by
  obtain ⟨m, listed, found⟩ := List.exists_of_findSome?_eq_some leads
  split at found
  · next c' alone =>
    cases found
    obtain ⟨s, reads, same⟩ := Option.map_eq_some_iff.mp alone
    have positive : ∀ m ∈ [1, 2, 3, 4], 0 < m := by decide
    refine ⟨positive count listed, ?_⟩
    rw [reads, ← same, String.ofList_toList]
  · cases found

end Text

/-- The first surrogates of a text, and what stands around them. -/
theorem EncodeFault.parts_of {t : Text} (without : t.toString? = none) :
    ∃ front behind s, t = front ++ ((of t).surrogates ++ behind) ∧ front.toString? = some s ∧
      (of t).position = front.length ∧ (of t).surrogates ≠ [] ∧
      ∀ c ∈ (of t).surrogates, c.char? = none := by
  let front := t.takeWhile isCharacter
  let rest := t.dropWhile isCharacter
  have whole : ∀ c ∈ front, isCharacter c = true := fun c => List.mem_takeWhile_imp
  obtain ⟨s, reads⟩ := Option.isSome_iff_exists.mp ((Text.isSome_toString?_iff front).mpr whole)
  refine ⟨front, rest.dropWhile (!isCharacter ·), s, ?_, reads, rfl, ?_, ?_⟩
  · rw [of, List.takeWhile_append_dropWhile, List.takeWhile_append_dropWhile]
  · intro none
    have left : rest ≠ [] := by
      intro empty
      have all : front = t := by
        simpa [empty, rest, front] using List.takeWhile_append_dropWhile (p := isCharacter) (l := t)
      rw [all, without] at reads
      cases reads
    have first := List.head_dropWhile_not isCharacter left
    obtain ⟨c, behind, same⟩ := List.exists_cons_of_ne_nil left
    have surrogates : rest.takeWhile (!isCharacter ·) = [] := none
    have stands : isCharacter c = false := by simpa [rest, same] using first
    simp [same, stands] at surrogates
  · intro c member
    have stands := List.mem_takeWhile_imp member
    simpa [isCharacter] using stands

namespace DecodeFault

theorem parts_ofStart (n : Nat) (first : UInt8) (rest : Bytes) :
    ∃ behind, first :: rest = (ofStart n first rest).bytes ++ behind ∧
      (ofStart n first rest).position = n ∧ (ofStart n first rest).bytes ≠ [] := by
  rw [ofStart]
  split
  · exact ⟨rest, rfl, rfl, nofun⟩
  · exact ⟨rest.drop _, congrArg _ (List.take_append_drop _ rest).symm, rfl, nofun⟩

/-- The first bytes that are no character, and what stands around them. -/
theorem parts_of {n : Nat} {bs : Bytes} (without : Bytes.toString? bs = none) :
    ∃ front behind s, bs = front ++ ((of n bs).bytes ++ behind) ∧
      Bytes.toString? front = some s ∧ (of n bs).position = n + front.length ∧
      (of n bs).bytes ≠ [] ∧ Text.leading? ((of n bs).bytes ++ behind) = none := by
  fun_induction of n bs with
  | case1 =>
      have empty : Bytes.toString? [] = some "" := Bytes.toString?_ofString ""
      rw [empty] at without
      cases without
  | case2 n b rest c count leads ih =>
      obtain ⟨positive, reads⟩ := Text.toString?_take_of_leading? leads
      have halves := List.take_append_drop count (b :: rest)
      obtain ⟨k, rfl⟩ := Nat.exists_eq_succ_of_ne_zero positive.ne'
      rw [List.drop_succ_cons] at halves
      have without' : Bytes.toString? (rest.drop k) = none := by
        rw [Option.eq_none_iff_forall_ne_some]
        intro s more
        rw [← halves, Bytes.eq_ofString_of_toString? reads, Bytes.eq_ofString_of_toString? more,
          ← Bytes.ofString_append, Bytes.toString?_ofString] at without
        cases without
      -- The bytes of the character are all there, or nothing would be left to be at fault.
      have enough : k < rest.length := by
        by_contra short
        rw [List.drop_of_length_le (Nat.le_of_not_lt short)] at without'
        exact absurd without' (by decide +kernel)
      obtain ⟨front, behind, s, same, before, position, nonempty, stuck⟩ := ih without'
      refine ⟨(b :: rest).take (k + 1) ++ front, behind, String.ofList [c] ++ s, ?_, ?_, ?_,
        nonempty, stuck⟩
      · rw [List.append_assoc, ← same]
        exact halves.symm
      · rw [Bytes.eq_ofString_of_toString? reads, Bytes.eq_ofString_of_toString? before,
          ← Bytes.ofString_append, Bytes.toString?_ofString]
      · rw [position, List.length_append, List.length_take, List.length_cons]
        omega
  | case3 n b rest none =>
      obtain ⟨behind, same, position, nonempty⟩ := parts_ofStart n b rest
      refine ⟨[], behind, "", same, Bytes.toString?_ofString "", position, nonempty, ?_⟩
      rwa [← same]

end DecodeFault

end BearerToken
