import Mathlib
import BearerToken.Proofs.Json.Canonical
import BearerToken.Proofs.Json.Forms

/-!
# Values that mean the same

Values that differ at most in the order of members are equal for JSON. That is an equivalence, and
what stands in it has one normal form. Since the text of a value is the text of its normal form,
equal values have one text. The normal form of a tidy value is read back from its text, so tidy
values that are not equal have other texts.
-/

namespace BearerToken.Json

variable {α : Type}

namespace Value

variable {u v w : Value}

/-- Members with the same key and with values that differ at most in the order of members. -/
def SameMember (m n : Text × Value) : Prop := m.1 = n.1 ∧ Rearranged m.2 n.2

namespace Rearranged

theorem of_items {xs ys : List Value} (each : List.Forall₂ Rearranged xs ys) :
    Rearranged (.list xs) (.list ys) := by
  obtain ⟨length, pairs⟩ := List.forall₂_iff_zip.mp each
  have same := Rearranged.list (xs.zip ys) fun p member => pairs member
  rwa [List.map_fst_zip length.le, List.map_snd_zip length.ge] at same

theorem items {xs : List Value} (same : Rearranged (.list xs) w) :
    ∃ ys, w = .list ys ∧ List.Forall₂ Rearranged xs ys := by
  generalize whole : Value.list xs = v at same
  cases same with
  | refl v => exact ⟨xs, whole.symm, List.forall₂_same.mpr fun v _ => .refl v⟩
  | list pairs each =>
      cases whole
      refine ⟨_, rfl, ?_⟩
      rw [List.forall₂_map_left_iff, List.forall₂_map_right_iff]
      exact List.forall₂_same.mpr each
  | object pairs each moved => cases whole

theorem of_members {ms ns others : List (Text × Value)} (each : List.Forall₂ SameMember ms ns)
    (moved : ns.Perm others) : Rearranged (.object ms) (.object others) := by
  obtain ⟨length, pairs⟩ := List.forall₂_iff_zip.mp each
  let triples := (ms.zip ns).map fun p => (p.1.1, p.1.2, p.2.2)
  have left : triples.map (fun p => (p.1, p.2.1)) = ms := by
    rw [List.map_map]
    exact List.map_fst_zip length.le
  have right : triples.map (fun p => (p.1, p.2.2)) = ns := by
    rw [List.map_map]
    refine Eq.trans (List.map_congr_left ?_) (List.map_snd_zip length.ge)
    intro p member
    exact Prod.ext (pairs member).1 rfl
  have values : ∀ p ∈ triples, Rearranged p.2.1 p.2.2 := by
    intro p member
    obtain ⟨q, inside, rfl⟩ := List.mem_map.mp member
    exact (pairs inside).2
  have same := Rearranged.object triples values (right.symm ▸ moved)
  rwa [left] at same

theorem members {ms : List (Text × Value)} (same : Rearranged (.object ms) w) :
    ∃ ns others, w = .object others ∧ List.Forall₂ SameMember ms ns ∧ ns.Perm others := by
  generalize whole : Value.object ms = v at same
  cases same with
  | refl v =>
      exact ⟨ms, ms, whole.symm, List.forall₂_same.mpr fun m _ => ⟨rfl, .refl m.2⟩, .refl ms⟩
  | list pairs each => cases whole
  | object pairs each moved =>
      cases whole
      refine ⟨_, _, rfl, ?_, moved⟩
      rw [List.forall₂_map_left_iff, List.forall₂_map_right_iff]
      exact List.forall₂_same.mpr fun p member => ⟨rfl, each p member⟩

theorem symm (same : Rearranged v w) : Rearranged w v := by
  induction same with
  | refl v => exact .refl v
  | list pairs each ih =>
      apply of_items
      rw [List.forall₂_map_left_iff, List.forall₂_map_right_iff]
      exact List.forall₂_same.mpr ih
  | @object pairs each others moved ih =>
      have back : List.Forall₂ SameMember (pairs.map fun p => (p.1, p.2.2))
          (pairs.map fun p => (p.1, p.2.1)) := by
        rw [List.forall₂_map_left_iff, List.forall₂_map_right_iff]
        exact List.forall₂_same.mpr fun p member => ⟨rfl, ih p member⟩
      obtain ⟨ms, each, moved⟩ := List.perm_comp_forall₂ moved.symm back
      exact of_members each moved

theorem trans (first : Rearranged u v) (second : Rearranged v w) : Rearranged u w := by
  induction first generalizing w with
  | refl v => exact second
  | list pairs each ih =>
      obtain ⟨ys, rfl, each'⟩ := second.items
      rw [List.forall₂_map_left_iff, List.forall₂_iff_zip] at each'
      apply of_items
      rw [List.forall₂_map_left_iff, List.forall₂_iff_zip]
      refine ⟨each'.1, fun {p y} member => ?_⟩
      exact ih p (List.of_mem_zip member).1 (each'.2 member)
  | object pairs each moved ih =>
      obtain ⟨ns, others, rfl, each', moved'⟩ := second.members
      obtain ⟨ms, each', further⟩ := List.perm_comp_forall₂ moved each'
      rw [List.forall₂_map_left_iff, List.forall₂_iff_zip] at each'
      refine of_members ?_ (further.trans moved')
      rw [List.forall₂_map_left_iff, List.forall₂_iff_zip]
      refine ⟨each'.1, fun {p m} member => ?_⟩
      obtain ⟨key, value⟩ := each'.2 member
      exact ⟨key, ih p (List.of_mem_zip member).1 value⟩

end Rearranged

/-- A value comes back as it was, with its leaves that JSON has no form for spelled out, just if it
is tidy. -/
theorem rearranged_reread_iff : Rearranged v.spelled v.reread ↔ v.Tidy := by
  constructor
  · intro same
    exact tidy_of_spelled (same.tidy (tidy_reread v))
  · intro tidy
    rw [tidy.reread_eq]
    exact tidy.rearranged

end Value

open Value

/-- The halves of a pair, side by side, are written as the character is. Only tidy texts, which are
texts of JSON in that they have the character there, are told from one another. -/
example : write (.text [.surrogate 0, .surrogate 0x400]) = write (.string "𐀀") := by decide +kernel

end BearerToken.Json
