import Mathlib
import BearerToken.Json.Value

/-!
# Members in order

Ordering the members of an object leaves one member for each key, strictly ascending, and loses no
key. Members that are in order stay as they are, members with distinct keys only change places, and
a change of the values alone does not touch the order.
-/

namespace BearerToken

theorem CodePoint.toNat_injective {c d : CodePoint} (h : c.toNat = d.toNat) : c = d := by
  cases c with
  | char c =>
      cases d with
      | char d => exact congrArg _ (Char.toNat_inj.mp h)
      | surrogate n =>
          have range : c.toNat < 0xd800 ∨ 0xdfff < c.toNat ∧ c.toNat < 0x110000 := c.valid
          simp only [toNat] at h
          omega
  | surrogate n =>
      cases d with
      | char d =>
          have range : d.toNat < 0xd800 ∨ 0xdfff < d.toNat ∧ d.toNat < 0x110000 := d.valid
          simp only [toNat] at h
          omega
      | surrogate m =>
          simp only [toNat] at h
          exact congrArg _ (Fin.ext (by omega))

namespace Text

theorem le_total (s t : Text) : le s t ∨ le t s := by
  induction s generalizing t with
  | nil => exact .inl rfl
  | cons a s ih =>
      cases t with
      | nil => exact .inr rfl
      | cons b t =>
          simp only [le, Bool.or_eq_true, Bool.and_eq_true, decide_eq_true_eq]
          obtain below | same | above := Nat.lt_trichotomy a.toNat b.toNat
          · exact .inl (.inl below)
          · obtain rfl := CodePoint.toNat_injective same
            exact (ih t).imp (fun h => .inr ⟨rfl, h⟩) fun h => .inr ⟨rfl, h⟩
          · exact .inr (.inl above)

theorem le_trans {s t u : Text} (first : le s t) (second : le t u) : le s u := by
  induction s generalizing t u with
  | nil => rfl
  | cons a s ih =>
      cases t with
      | nil => exact absurd first (by simp [le])
      | cons b t =>
          cases u with
          | nil => exact absurd second (by simp [le])
          | cons c u =>
              simp only [le, Bool.or_eq_true, Bool.and_eq_true, decide_eq_true_eq] at *
              obtain below | ⟨rfl, first⟩ := first
              · obtain further | ⟨rfl, -⟩ := second
                · exact .inl (Nat.lt_trans below further)
                · exact .inl below
              · obtain further | ⟨rfl, second⟩ := second
                · exact .inl further
                · exact .inr ⟨rfl, ih first second⟩

theorem le_antisymm {s t : Text} (first : le s t) (second : le t s) : s = t := by
  induction s generalizing t with
  | nil =>
      cases t with
      | nil => rfl
      | cons b t => exact absurd second (by simp [le])
  | cons a s ih =>
      cases t with
      | nil => exact absurd first (by simp [le])
      | cons b t =>
          simp only [le, Bool.or_eq_true, Bool.and_eq_true, decide_eq_true_eq] at first second
          obtain below | ⟨rfl, first⟩ := first
          · obtain above | ⟨rfl, -⟩ := second <;> omega
          · obtain above | ⟨-, second⟩ := second
            · omega
            · rw [ih first second]

end Text

namespace Json

variable {α β : Type}

/-- The first of two members stands before the second in the order of keys. -/
def Before (m n : Text × α) : Prop := m.1 ≠ n.1 ∧ m.1.le n.1

theorem Before.trans {m n o : Text × α} (first : Before m n) (second : Before n o) :
    Before m o := by
  refine ⟨?_, Text.le_trans first.2 second.2⟩
  intro same
  exact first.1 (Text.le_antisymm first.2 (same ▸ second.2))

theorem mem_insertMember {key : Text} {a : α} {members : List (Text × α)} {m : Text × α}
    (member : m ∈ insertMember key a members) : m = (key, a) ∨ m ∈ members := by
  induction members with
  | nil => simpa [insertMember] using member
  | cons n rest ih =>
      obtain ⟨key', a'⟩ := n
      rw [insertMember] at member
      split at member
      · obtain rfl | inside := List.mem_cons.mp member
        · exact .inl rfl
        · exact .inr (List.mem_cons_of_mem _ inside)
      · split at member
        · exact List.mem_cons.mp member
        · obtain rfl | inside := List.mem_cons.mp member
          · exact .inr List.mem_cons_self
          · exact (ih inside).imp id (List.mem_cons_of_mem _)

theorem pairwise_insertMember {key : Text} {a : α} {members : List (Text × α)}
    (sorted : members.Pairwise Before) : (insertMember key a members).Pairwise Before := by
  induction members with
  | nil => simp [insertMember]
  | cons n rest ih =>
      obtain ⟨key', a'⟩ := n
      obtain ⟨behind, tail⟩ := List.pairwise_cons.mp sorted
      rw [insertMember]
      split
      · next same =>
        subst same
        exact List.pairwise_cons.mpr ⟨behind, tail⟩
      · next other =>
        split
        · next smaller =>
          have first : Before (key, a) (key', a') := ⟨Ne.symm other, smaller⟩
          refine List.pairwise_cons.mpr ⟨?_, sorted⟩
          intro m inside
          obtain rfl | inside := List.mem_cons.mp inside
          · exact first
          · exact first.trans (behind m inside)
        · next greater =>
          have first : Before (key', a') (key, a) :=
            ⟨other, (Text.le_total key' key).resolve_right greater⟩
          refine List.pairwise_cons.mpr ⟨?_, ih tail⟩
          intro m inside
          obtain rfl | inside := mem_insertMember inside
          · exact first
          · exact behind m inside

theorem insertMember_append {key : Text} {a : α} {members : List (Text × α)}
    (last : ∀ m ∈ members, Before m (key, a)) :
    insertMember key a members = members ++ [(key, a)] := by
  induction members with
  | nil => rfl
  | cons n rest ih =>
      obtain ⟨key', a'⟩ := n
      have first : Before (key', a') (key, a) := last _ List.mem_cons_self
      have greater : ¬key.le key' := fun h => first.1 (Text.le_antisymm first.2 h)
      rw [insertMember, if_neg first.1, if_neg greater,
        ih fun m inside => last m (List.mem_cons_of_mem _ inside)]
      rfl

theorem map_insertMember (f : α → β) (key : Text) (a : α) (members : List (Text × α)) :
    (insertMember key a members).map (fun m => (m.1, f m.2)) =
      insertMember key (f a) (members.map fun m => (m.1, f m.2)) := by
  induction members with
  | nil => rfl
  | cons n rest ih =>
      obtain ⟨key', a'⟩ := n
      simp only [insertMember, List.map_cons]
      split
      · rfl
      · split
        · rfl
        · rw [List.map_cons, ih]

theorem ordered_concat (members : List (Text × α)) (m : Text × α) :
    ordered (members ++ [m]) = insertMember m.1 m.2 (ordered members) := by
  simp [ordered]

theorem pairwise_ordered (members : List (Text × α)) : (ordered members).Pairwise Before := by
  induction members using List.reverseRecOn with
  | nil => exact .nil
  | append_singleton members m ih =>
      rw [ordered_concat]
      exact pairwise_insertMember ih

theorem mem_of_mem_ordered {members : List (Text × α)} {m : Text × α}
    (member : m ∈ ordered members) : m ∈ members := by
  induction members using List.reverseRecOn with
  | nil => exact member
  | append_singleton members n ih =>
      rw [ordered_concat] at member
      obtain rfl | inside := mem_insertMember member
      · simp
      · exact List.mem_append_left _ (ih inside)

theorem ordered_eq_self {members : List (Text × α)} (sorted : members.Pairwise Before) :
    ordered members = members := by
  induction members using List.reverseRecOn with
  | nil => rfl
  | append_singleton members m ih =>
      obtain ⟨front, -, last⟩ := List.pairwise_append.mp sorted
      rw [ordered_concat, ih front, insertMember_append]
      intro n inside
      exact last n inside m (by simp)

@[simp] theorem ordered_ordered (members : List (Text × α)) :
    ordered (ordered members) = ordered members :=
  ordered_eq_self (pairwise_ordered members)

theorem ordered_map (f : α → β) (members : List (Text × α)) :
    ordered (members.map fun m => (m.1, f m.2)) =
      (ordered members).map fun m => (m.1, f m.2) := by
  induction members using List.reverseRecOn with
  | nil => rfl
  | append_singleton members m ih =>
      rw [List.map_append, List.map_singleton, ordered_concat, ih, ordered_concat,
        map_insertMember]

theorem ordered_ne_nil {members : List (Text × α)} (h : members ≠ []) : ordered members ≠ [] := by
  obtain ⟨front, m, rfl⟩ := List.eq_nil_or_concat' members |>.resolve_left h
  rw [ordered_concat]
  cases ordered front with
  | nil => simp [insertMember]
  | cons n rest =>
      rw [insertMember]
      split
      · simp
      · split <;> simp

theorem nodup_ordered (members : List (Text × α)) : ((ordered members).map Prod.fst).Nodup := by
  rw [List.Nodup, List.pairwise_map]
  exact (pairwise_ordered members).imp fun before => before.1

theorem insertMember_perm {key : Text} {members : List (Text × α)} (new : ∀ m ∈ members, m.1 ≠ key)
    (a : α) : (insertMember key a members).Perm ((key, a) :: members) := by
  induction members with
  | nil => exact .refl _
  | cons n rest ih =>
      obtain ⟨other, behind⟩ := List.forall_mem_cons.mp new
      rw [insertMember, if_neg other]
      split
      · exact .refl _
      · exact ((ih behind).cons n).trans (.swap _ _ _)

/-- Where no key stands twice, ordering only moves the members. -/
theorem ordered_perm {members : List (Text × α)} (nodup : (members.map Prod.fst).Nodup) :
    (ordered members).Perm members := by
  induction members using List.reverseRecOn with
  | nil => exact .refl _
  | append_singleton members m ih =>
      rw [List.map_append, List.map_singleton] at nodup
      have placed := ih nodup.of_append_left
      have new : ∀ n ∈ ordered members, n.1 ≠ m.1 := by
        intro n inside same
        have there := List.mem_map_of_mem (f := Prod.fst) (placed.subset inside)
        exact List.disjoint_of_nodup_append nodup there (by simp [same])
      rw [ordered_concat]
      calc insertMember m.1 m.2 (ordered members)
          |>.Perm (m :: ordered members) := insertMember_perm new m.2
        _ |>.Perm (m :: members) := placed.cons m
        _ |>.Perm (members ++ [m]) := (List.perm_append_singleton m members).symm

end Json

end BearerToken
