import Mathlib
import BearerToken.Json.Writer
import BearerToken.Proofs.Json.Order
import BearerToken.Proofs.Json.Text
import BearerToken.Proofs.Table

/-!
# What becomes of a value

A value that is written and read comes back with its leaves that JSON has no form for as texts, with
the halves of pairs joined, and with the members of its objects in order. Joining can make two keys
the same and can put a key out of order, so a value that is written and read twice comes back as it
did the first time up to the order of members. From then on it stays as it is.
-/

namespace BearerToken.Json.Value

/-- Induction on values, where a container is left with its elements. -/
@[elab_as_elim] theorem induct {motive : Value → Prop} (null : motive .null)
    (bool : ∀ b, motive (.bool b)) (int : ∀ n, motive (.int n))
    (number : ∀ x, motive (.number x)) (text : ∀ t, motive (.text t))
    (uuid : ∀ u, motive (.uuid u)) (moment : ∀ m, motive (.moment m))
    (list : ∀ items, (∀ v ∈ items, motive v) → motive (.list items))
    (object : ∀ members, (∀ m ∈ members, motive m.2) → motive (.object members)) :
    ∀ v, motive v
  | .null => null
  | .bool b => bool b
  | .int n => int n
  | .number x => number x
  | .text t => text t
  | .uuid u => uuid u
  | .moment m => moment m
  | .list items => list items fun v _ =>
      induct null bool int number text uuid moment list object v
  | .object members => object members fun m _ =>
      induct null bool int number text uuid moment list object m.2
termination_by v => sizeOf v
decreasing_by
  all_goals simp_wf
  · have smaller := List.sizeOf_lt_of_mem ‹v ∈ items›
    omega
  · have smaller := List.sizeOf_lt_of_mem ‹m ∈ members›
    obtain ⟨key, v⟩ := m
    simp only [Prod.mk.sizeOf_spec] at smaller ⊢
    omega

mutual

/-- The value that comes back when a value is written and read. -/
def reread : Value → Value
  | .null => .null
  | .bool b => .bool b
  | .int n => .int n
  | .number x => .number x
  | .text t => .text t.joined
  | .uuid u => .string u.canonical
  | .moment m => .string m.plain
  | .list items => .list (rereadItems items)
  | .object members =>
    .object (Table.ofList ((ordered (rereadMembers members)).map fun m => (m.1.joined, m.2))).entries

def rereadItems : List Value → List Value
  | [] => []
  | v :: rest => v.reread :: rereadItems rest

def rereadMembers : List (Text × Value) → List (Text × Value)
  | [] => []
  | (key, v) :: rest => (key, v.reread) :: rereadMembers rest

end

theorem rereadItems_eq (items : List Value) : rereadItems items = items.map reread := by
  induction items with
  | nil => rfl
  | cons v rest ih => rw [rereadItems, ih, List.map_cons]

theorem rereadMembers_eq (members : List (Text × Value)) :
    rereadMembers members = members.map fun m => (m.1, m.2.reread) := by
  induction members with
  | nil => rfl
  | cons m rest ih => rw [rereadMembers, ih, List.map_cons]

theorem normalItems_eq (items : List Value) : normalItems items = items.map normal := by
  induction items with
  | nil => rfl
  | cons v rest ih => rw [normalItems, ih, List.map_cons]

theorem normalMembers_eq (members : List (Text × Value)) :
    normalMembers members = members.map fun m => (m.1, m.2.normal) := by
  induction members with
  | nil => rfl
  | cons m rest ih => rw [normalMembers, ih, List.map_cons]

theorem reread_list (items : List Value) : reread (.list items) = .list (items.map reread) := by
  rw [reread, rereadItems_eq]

theorem reread_object (members : List (Text × Value)) :
    reread (.object members) =
      .object (Table.ofList
        ((ordered members).map fun m => (m.1.joined, m.2.reread))).entries := by
  rw [reread, rereadMembers_eq, ordered_map, List.map_map]
  rfl

theorem normal_list (items : List Value) : normal (.list items) = .list (items.map normal) := by
  rw [normal, normalItems_eq]

theorem normal_object (members : List (Text × Value)) :
    normal (.object members) = .object ((ordered members).map fun m => (m.1, m.2.normal)) := by
  rw [normal, normalMembers_eq, ordered_map]

/-- A value that loses nothing when it is written and read: no halves of a pair stand side by side in
its texts, and the keys of an object are distinct. -/
inductive Tidy : Value → Prop
  | null : Tidy .null
  | bool (b : Bool) : Tidy (.bool b)
  | int (n : Int) : Tidy (.int n)
  | number (x : Binary64) : Tidy (.number x)
  | text {t : Text} (joined : t.joined = t) : Tidy (.text t)
  | uuid (u : Uuid) : Tidy (.uuid u)
  | moment (m : Moment) : Tidy (.moment m)
  | list {items : List Value} (each : ∀ v ∈ items, Tidy v) : Tidy (.list items)
  | object {members : List (Text × Value)} (nodup : (members.map Prod.fst).Nodup)
      (joined : ∀ m ∈ members, m.1.joined = m.1) (each : ∀ m ∈ members, Tidy m.2) :
      Tidy (.object members)

/-- A text of characters is tidy. -/
theorem Tidy.string (s : String) : Tidy (.string s) := .text (Text.joined_ofChars _)

/-- A member that comes back stands for one that was there. -/
theorem exists_of_mem_reread {members : List (Text × Value)} {m : Text × Value}
    (member : m ∈
      (Table.ofList ((ordered members).map fun m => (m.1.joined, m.2.reread))).entries) :
    ∃ n ∈ ordered members, m = (n.1.joined, n.2.reread) := by
  obtain ⟨n, inside, same⟩ := List.mem_map.mp (Table.mem_of_mem_ofList member)
  exact ⟨n, inside, same.symm⟩

theorem tidy_reread (v : Value) : Tidy v.reread := by
  induction v using induct with
  | null => exact .null
  | bool b => exact .bool b
  | int n => exact .int n
  | number x => exact .number x
  | text t => exact .text (Text.joined_joined t)
  | uuid u => exact .string u.canonical
  | moment m => exact .string m.plain
  | list items ih =>
      rw [reread_list]
      refine .list ?_
      intro v member
      obtain ⟨w, inside, rfl⟩ := List.mem_map.mp member
      exact ih w inside
  | object members ih =>
      rw [reread_object]
      refine .object (Table.nodup_ofList _) ?_ ?_
      · intro m member
        obtain ⟨n, -, rfl⟩ := exists_of_mem_reread member
        exact Text.joined_joined n.1
      · intro m member
        obtain ⟨n, inside, rfl⟩ := exists_of_mem_reread member
        exact ih n (mem_of_mem_ordered inside)

/-- Writing and reading a tidy value does no more than to normalize it. -/
theorem Tidy.reread_eq {v : Value} (tidy : Tidy v) : v.reread = v.normal := by
  induction v using induct with
  | null => rfl
  | bool b => rfl
  | int n => rfl
  | number x => rfl
  | text t =>
      cases tidy with
      | text joined => exact congrArg Value.text joined
  | uuid u => rfl
  | moment m => rfl
  | list items ih =>
      cases tidy with | list each => ?_
      rw [reread_list, normal_list]
      exact congrArg Value.list (List.map_congr_left fun v inside => ih v inside (each v inside))
  | object members ih =>
      cases tidy with | object nodup joined each => ?_
      have same : (ordered members).map (fun m => (m.1.joined, m.2.reread)) =
          (ordered members).map fun m => (m.1, m.2.normal) := by
        apply List.map_congr_left
        intro m member
        have inside := mem_of_mem_ordered member
        rw [joined m inside, ih m inside (each m inside)]
      have keys : ((ordered members).map fun m => (m.1, m.2.normal)).map Prod.fst =
          (ordered members).map Prod.fst := by
        rw [List.map_map]
        rfl
      rw [reread_object, normal_object, same, Table.ofList_entries]
      rw [keys]
      exact nodup_ordered members

@[simp] theorem normal_normal (v : Value) : v.normal.normal = v.normal := by
  induction v using induct with
  | null => rfl
  | bool b => rfl
  | int n => rfl
  | number x => rfl
  | text t => rfl
  | uuid u => rfl
  | moment m => rfl
  | list items ih =>
      rw [normal_list, normal_list, List.map_map]
      exact congrArg Value.list (List.map_congr_left ih)
  | object members ih =>
      rw [normal_object, normal_object, ordered_map, ordered_ordered, List.map_map]
      refine congrArg Value.object (List.map_congr_left ?_)
      intro m member
      exact congrArg (Prod.mk m.1) (ih m (mem_of_mem_ordered member))

/-- What a value means does not change when it is written and read once more. -/
theorem normal_reread_reread (v : Value) : v.reread.reread.normal = v.reread.normal := by
  rw [(tidy_reread v).reread_eq, normal_normal]

theorem isVoid_text {t : Text} (filled : t ≠ []) : isVoid (.text t) = false := by
  cases t with
  | nil => exact absurd rfl filled
  | cons c t => rfl

theorem isVoid_object {members : List (Text × Value)} (filled : members ≠ []) :
    isVoid (.object members) = false := by
  cases members with
  | nil => exact absurd rfl filled
  | cons m rest => rfl

/-- A value that counts as something comes back as something. -/
theorem isVoid_reread {v : Value} (filled : v.isVoid = false) : v.reread.isVoid = false := by
  cases v with
  | null => exact filled
  | bool b => exact filled
  | int n => exact filled
  | number x => exact filled
  | text t =>
      apply isVoid_text
      apply Text.joined_ne_nil
      rintro rfl
      exact absurd filled (by decide)
  | uuid u =>
      apply isVoid_text
      apply Text.ofList_ne_nil
      simp [Uuid.canonicalChars]
  | moment m =>
      apply isVoid_text
      apply Text.ofList_ne_nil
      simp
  | list items =>
      rw [reread_list]
      cases items with
      | nil => exact filled
      | cons v rest => rfl
  | object members =>
      rw [reread_object]
      apply isVoid_object
      apply Table.ofList_ne_nil
      intro empty
      refine ordered_ne_nil ?_ (List.map_eq_nil_iff.mp empty)
      rintro rfl
      exact absurd filled (by decide)

end BearerToken.Json.Value

namespace BearerToken.Json

open Value

theorem itemFaults_eq [Limits] (room : Nat) (items : List Value) :
    itemFaults room items = items.map (fault? room) := by
  induction items with
  | nil => rfl
  | cons v rest ih => rw [itemFaults, ih, List.map_cons]

theorem memberFaults_eq [Limits] (room : Nat) (members : List (Text × Value)) :
    memberFaults room members = members.map fun m => (m.1, fault? room m.2) := by
  induction members with
  | nil => rfl
  | cons m rest ih => rw [memberFaults, ih, List.map_cons]

theorem fault_list [Limits] {room : Nat} {items : List Value} :
    fault? (room + 1) (.list items) = none ↔ ∀ v ∈ items, fault? room v = none := by
  rw [fault?, itemFaults_eq, List.findSome?_eq_none_iff, List.forall_mem_map]
  rfl

theorem fault_object [Limits] {room : Nat} {members : List (Text × Value)} :
    fault? (room + 1) (.object members) = none ↔
      ∀ m ∈ ordered members, fault? room m.2 = none := by
  rw [fault?, memberFaults_eq, ordered_map, List.findSome?_eq_none_iff, List.forall_mem_map]

/-- What has been written and read can be written again. -/
theorem fault_reread [Limits] {room : Nat} {v : Value} (writable : fault? room v = none) :
    fault? room v.reread = none := by
  induction v using induct generalizing room with
  | null => cases room <;> rfl
  | bool b => cases room <;> rfl
  | int n => exact writable
  | number x => cases room <;> rfl
  | text t => cases room <;> rfl
  | uuid u => cases room <;> rfl
  | moment m => cases room <;> rfl
  | list items ih =>
      cases room with
      | zero => exact absurd writable (by simp [fault?])
      | succ room =>
          rw [fault_list] at writable
          rw [reread_list, fault_list]
          intro v member
          obtain ⟨w, inside, rfl⟩ := List.mem_map.mp member
          exact ih w inside (writable w inside)
  | object members ih =>
      cases room with
      | zero => exact absurd writable (by simp [fault?])
      | succ room =>
          rw [fault_object] at writable
          rw [reread_object, fault_object]
          intro m member
          obtain ⟨n, inside, rfl⟩ := exists_of_mem_reread (mem_of_mem_ordered member)
          exact ih n (mem_of_mem_ordered inside) (writable n inside)

end BearerToken.Json
