import Mathlib
import BearerToken.Proofs.Json.Reread

/-!
# What a tidy value comes back as

A tidy value comes back with its leaves that JSON has no form for spelled out. Nothing else changes
but the order in which the members of an object stand. Only digits and depth can be too much to
write, so a value can be written just if each integer in it can be and there is room for its depth.
-/

namespace BearerToken.Json

namespace Value

mutual

/-- The value with the text in place of each leaf that JSON has no form for. -/
def spelled : Value → Value
  | .uuid u => .string u.canonical
  | .moment m => .string m.plain
  | .list items => .list (spelledItems items)
  | .object members => .object (spelledMembers members)
  | v => v

def spelledItems : List Value → List Value
  | [] => []
  | v :: rest => v.spelled :: spelledItems rest

def spelledMembers : List (Text × Value) → List (Text × Value)
  | [] => []
  | (key, v) :: rest => (key, v.spelled) :: spelledMembers rest

end

theorem spelledItems_eq (items : List Value) : spelledItems items = items.map spelled := by
  induction items with
  | nil => rfl
  | cons v rest ih => rw [spelledItems, ih, List.map_cons]

theorem spelledMembers_eq (members : List (Text × Value)) :
    spelledMembers members = members.map fun m => (m.1, m.2.spelled) := by
  induction members with
  | nil => rfl
  | cons m rest ih => rw [spelledMembers, ih, List.map_cons]

/-- Values that differ at most in the order of members, at any depth. -/
inductive Rearranged : Value → Value → Prop
  | refl (v : Value) : Rearranged v v
  | list (pairs : List (Value × Value)) (each : ∀ p ∈ pairs, Rearranged p.1 p.2) :
      Rearranged (.list (pairs.map Prod.fst)) (.list (pairs.map Prod.snd))
  | object (pairs : List (Text × Value × Value)) (each : ∀ p ∈ pairs, Rearranged p.2.1 p.2.2)
      {members : List (Text × Value)} (moved : (pairs.map fun p => (p.1, p.2.2)).Perm members) :
      Rearranged (.object (pairs.map fun p => (p.1, p.2.1))) (.object members)

theorem Tidy.rearranged {v : Value} (tidy : Tidy v) : Rearranged v.spelled v.normal := by
  induction v using induct with
  | null => exact .refl _
  | bool b => exact .refl _
  | int n => exact .refl _
  | number x => exact .refl _
  | text t => exact .refl _
  | uuid u => exact .refl _
  | moment m => exact .refl _
  | list items ih =>
      cases tidy with | list each => ?_
      have pairs : ∀ p ∈ items.map fun v => (v.spelled, v.normal), Rearranged p.1 p.2 := by
        intro p member
        obtain ⟨v, inside, rfl⟩ := List.mem_map.mp member
        exact ih v inside (each v inside)
      have same := Rearranged.list _ pairs
      rw [List.map_map, List.map_map] at same
      rw [spelled, spelledItems_eq, normal_list]
      exact same
  | object members ih =>
      cases tidy with | object nodup joined each => ?_
      let triples := members.map fun m => (m.1, m.2.spelled, m.2.normal)
      have pairs : ∀ p ∈ triples, Rearranged p.2.1 p.2.2 := by
        intro p member
        obtain ⟨m, inside, rfl⟩ := List.mem_map.mp member
        exact ih m inside (each m inside)
      have moved : (triples.map fun p => (p.1, p.2.2)).Perm
          ((ordered members).map fun m => (m.1, m.2.normal)) := by
        rw [List.map_map]
        exact ((ordered_perm nodup).map fun m => (m.1, m.2.normal)).symm
      have same := Rearranged.object triples pairs moved
      rw [List.map_map] at same
      rw [spelled, spelledMembers_eq, normal_object]
      exact same

mutual

/-- How many containers stand inside each other. -/
def nesting : Value → Nat
  | .list items => itemNesting items + 1
  | .object members => memberNesting members + 1
  | _ => 0

def itemNesting : List Value → Nat
  | [] => 0
  | v :: rest => max v.nesting (itemNesting rest)

def memberNesting : List (Text × Value) → Nat
  | [] => 0
  | (_, v) :: rest => max v.nesting (memberNesting rest)

end

mutual

/-- The integers in a value, at any depth. -/
def integers : Value → List Int
  | .int n => [n]
  | .list items => itemIntegers items
  | .object members => memberIntegers members
  | _ => []

def itemIntegers : List Value → List Int
  | [] => []
  | v :: rest => v.integers ++ itemIntegers rest

def memberIntegers : List (Text × Value) → List Int
  | [] => []
  | (_, v) :: rest => v.integers ++ memberIntegers rest

end

/-- A value in which no key of an object stands twice. -/
inductive Distinct : Value → Prop
  | leaf {v : Value} (simple : v.nesting = 0) : Distinct v
  | list {items : List Value} (each : ∀ v ∈ items, Distinct v) : Distinct (.list items)
  | object {members : List (Text × Value)} (nodup : (members.map Prod.fst).Nodup)
      (each : ∀ m ∈ members, Distinct m.2) : Distinct (.object members)

theorem Distinct.items {items : List Value} (distinct : Distinct (.list items)) :
    ∀ v ∈ items, Distinct v := by
  cases distinct with
  | leaf simple => cases simple
  | list each => exact each

theorem Distinct.members {members : List (Text × Value)} (distinct : Distinct (.object members)) :
    (members.map Prod.fst).Nodup ∧ ∀ m ∈ members, Distinct m.2 := by
  cases distinct with
  | leaf simple => cases simple
  | object nodup each => exact ⟨nodup, each⟩

theorem Tidy.distinct {v : Value} (tidy : Tidy v) : Distinct v := by
  induction tidy with
  | list each ih => exact .list ih
  | object nodup joined each ih => exact .object nodup ih
  | _ => exact .leaf rfl

theorem Distinct.spelled {v : Value} (distinct : Distinct v) : Distinct v.spelled := by
  induction v using induct with
  | list items ih =>
      rw [Value.spelled, spelledItems_eq]
      refine .list ?_
      intro w member
      obtain ⟨v, inside, rfl⟩ := List.mem_map.mp member
      exact ih v inside (distinct.items v inside)
  | object members ih =>
      obtain ⟨nodup, each⟩ := distinct.members
      rw [Value.spelled, spelledMembers_eq]
      refine .object ?_ ?_
      · rwa [List.map_map]
      · intro m member
        obtain ⟨n, inside, rfl⟩ := List.mem_map.mp member
        exact ih n inside (each n inside)
  | _ => exact .leaf rfl

theorem Tidy.joined {t : Text} (tidy : Tidy (.text t)) : t.joined = t := by
  cases tidy with
  | text joined => exact joined

theorem Tidy.member {members : List (Text × Value)} (tidy : Tidy (.object members))
    {m : Text × Value} (inside : m ∈ members) : Tidy m.2 := by
  cases tidy with
  | object nodup joined each => exact each m inside

/-- To spell the leaves out neither joins halves of a pair nor parts them. -/
theorem tidy_of_spelled {v : Value} (tidy : v.spelled.Tidy) : Tidy v := by
  induction v using induct with
  | uuid u => exact .uuid u
  | moment m => exact .moment m
  | list items ih =>
      rw [Value.spelled, spelledItems_eq] at tidy
      cases tidy with | list each => ?_
      exact .list fun v inside => ih v inside (each _ (List.mem_map_of_mem inside))
  | object members ih =>
      rw [Value.spelled, spelledMembers_eq] at tidy
      cases tidy with | object nodup joined each => ?_
      have stands {m : Text × Value} (inside : m ∈ members) :
          (m.1, m.2.spelled) ∈ members.map fun m => (m.1, m.2.spelled) :=
        List.mem_map_of_mem (f := fun m : Text × Value => (m.1, m.2.spelled)) inside
      refine .object ?_ (fun m inside => joined (m.1, m.2.spelled) (stands inside))
        fun m inside => ih m inside (each (m.1, m.2.spelled) (stands inside))
      rwa [List.map_map] at nodup
  | _ => exact tidy

end Value

open Value

end BearerToken.Json
