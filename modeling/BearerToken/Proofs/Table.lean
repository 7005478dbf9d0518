import Mathlib
import BearerToken.Table

/-!
# Tables

A table made from a list has each key once, and every entry of it stands in the list. A list in
which no key comes twice is its own table. Where each key stands once, the entries that are kept are
found as they were and the others are not found; writing and erasing leave each key once; and such
tables are of one size if they hold the same keys.
-/

namespace BearerToken

namespace Table

variable {κ : Type u} {α : Type v} [DecidableEq κ]

theorem ofList_concat (es : List (κ × α)) (e : κ × α) :
    ofList (es ++ [e]) = (ofList es).set e.1 e.2 := by
  simp [ofList, merge]

theorem insertAt_append {k : κ} {a : α} {es : List (κ × α)} (new : ∀ e ∈ es, e.1 ≠ k) :
    insertAt k a es = es ++ [(k, a)] := by
  induction es with
  | nil => rfl
  | cons e rest ih =>
      rw [insertAt, if_neg (new e List.mem_cons_self),
        ih fun e inside => new e (List.mem_cons_of_mem _ inside)]
      rfl

theorem ofList_entries {es : List (κ × α)} (nodup : (es.map Prod.fst).Nodup) :
    (ofList es).entries = es := by
  induction es using List.reverseRecOn with
  | nil => rfl
  | append_singleton es e ih =>
      rw [List.map_append, List.map_singleton] at nodup
      have front : (es.map Prod.fst).Nodup := nodup.of_append_left
      have new : ∀ f ∈ es, f.1 ≠ e.1 := by
        intro f inside same
        exact List.disjoint_of_nodup_append nodup (List.mem_map_of_mem inside) (by simp [same])
      rw [ofList_concat, set, ih front, insertAt_append new]

theorem mem_insertAt {k : κ} {a : α} {es : List (κ × α)} {e : κ × α}
    (member : e ∈ insertAt k a es) : e = (k, a) ∨ e ∈ es := by
  induction es with
  | nil => simpa [insertAt] using member
  | cons f rest ih =>
      rw [insertAt] at member
      split at member
      · obtain rfl | inside := List.mem_cons.mp member
        · exact .inl rfl
        · exact .inr (List.mem_cons_of_mem _ inside)
      · obtain rfl | inside := List.mem_cons.mp member
        · exact .inr List.mem_cons_self
        · exact (ih inside).imp id (List.mem_cons_of_mem _)

theorem mem_of_mem_ofList {es : List (κ × α)} {e : κ × α} (member : e ∈ (ofList es).entries) :
    e ∈ es := by
  induction es using List.reverseRecOn with
  | nil => exact member
  | append_singleton es f ih =>
      rw [ofList_concat] at member
      obtain rfl | inside := mem_insertAt member
      · simp
      · exact List.mem_append_left _ (ih inside)

theorem keys_insertAt (k : κ) (a : α) (es : List (κ × α)) :
    (insertAt k a es).map Prod.fst =
      if k ∈ es.map Prod.fst then es.map Prod.fst else es.map Prod.fst ++ [k] := by
  induction es with
  | nil => rfl
  | cons e rest ih =>
      rw [insertAt]
      by_cases same : e.1 = k
      · simp [same]
      · rw [if_neg same, List.map_cons, ih]
        by_cases inside : k ∈ rest.map Prod.fst
        · simp [inside]
        · simp [inside, Ne.symm same]

theorem insertAt_ne_nil (k : κ) (a : α) (es : List (κ × α)) : insertAt k a es ≠ [] := by
  cases es with
  | nil => exact List.cons_ne_nil _ _
  | cons e rest =>
      rw [insertAt]
      split
      · exact List.cons_ne_nil _ _
      · exact List.cons_ne_nil _ _

theorem ofList_ne_nil {es : List (κ × α)} (filled : es ≠ []) : (ofList es).entries ≠ [] := by
  obtain ⟨front, e, rfl⟩ := List.eq_nil_or_concat' es |>.resolve_left filled
  rw [ofList_concat]
  exact insertAt_ne_nil _ _ _

/-- No key stands twice. -/
def Nodup (t : Table κ α) : Prop := (t.entries.map Prod.fst).Nodup

variable {t : Table κ α}

omit [DecidableEq κ] in
theorem nodup_empty : (empty : Table κ α).Nodup := List.nodup_nil

theorem Nodup.set (once : t.Nodup) (k : κ) (a : α) : (t.set k a).Nodup := by
  rw [Nodup, Table.set, keys_insertAt]
  split
  · exact once
  · next new =>
    rw [← List.concat_eq_append]
    exact once.concat new

theorem Nodup.erase (once : t.Nodup) (k : κ) : (t.erase k).Nodup :=
  once.sublist (List.filter_sublist.map Prod.fst)

theorem nodup_ofList (es : List (κ × α)) : (ofList es).Nodup := by
  induction es using List.reverseRecOn with
  | nil => exact nodup_empty
  | append_singleton es e ih =>
      rw [ofList_concat]
      exact ih.set e.1 e.2

omit [DecidableEq κ] in
theorem Nodup.keep (once : t.Nodup) (p : α → Bool) : (t.keep p).Nodup :=
  once.sublist (List.filter_sublist.map Prod.fst)

theorem mem_keys_ofList {k : κ} {es : List (κ × α)} (member : k ∈ es.map Prod.fst) :
    k ∈ (ofList es).entries.map Prod.fst := by
  induction es using List.reverseRecOn with
  | nil => exact member
  | append_singleton es e ih =>
      rw [ofList_concat, set, keys_insertAt]
      rw [List.map_append, List.mem_append] at member
      obtain early | last := member
      · split
        · exact ih early
        · exact List.mem_append_left _ (ih early)
      · obtain rfl : k = e.1 := by simpa using last
        split
        · assumption
        · simp

theorem lookup_eq_none {k : κ} {es : List (κ × α)} (absent : k ∉ es.map Prod.fst) :
    lookup k es = none := by
  induction es with
  | nil => rfl
  | cons e rest ih =>
      rw [List.map_cons, List.mem_cons, not_or] at absent
      rw [lookup, if_neg (Ne.symm absent.1)]
      exact ih absent.2

theorem mem_of_get? {k : κ} {a : α} (found : t.get? k = some a) : (k, a) ∈ t.entries := by
  obtain ⟨es⟩ := t
  simp only [get?] at found ⊢
  induction es with
  | nil => cases found
  | cons e rest ih =>
      rw [lookup] at found
      split at found
      · next same =>
        cases found
        rw [← same]
        exact List.mem_cons_self
      · exact List.mem_cons_of_mem _ (ih found)

/-- Where each key stands once, what stands with it is found. -/
theorem Nodup.get?_of_mem (once : t.Nodup) {k : κ} {a : α} (member : (k, a) ∈ t.entries) :
    t.get? k = some a := by
  obtain ⟨es⟩ := t
  simp only [Table.Nodup, get?] at once member ⊢
  induction es with
  | nil => cases member
  | cons e rest ih =>
      rw [List.map_cons, List.nodup_cons] at once
      obtain same | inside := List.mem_cons.mp member
      · rw [← same, lookup, if_pos rfl]
      · have other : e.1 ≠ k := by
          intro same
          exact once.1 (same ▸ List.mem_map_of_mem inside)
        rw [lookup, if_neg other]
        exact ih once.2 inside

theorem get?_keep (once : t.Nodup) (p : α → Bool) (k : κ) :
    (t.keep p).get? k = (t.get? k).filter p := by
  obtain ⟨es⟩ := t
  simp only [Table.Nodup, Table.keep, get?] at once ⊢
  induction es with
  | nil => rfl
  | cons e rest ih =>
      obtain ⟨key, a⟩ := e
      rw [List.map_cons, List.nodup_cons] at once
      obtain ⟨new, once⟩ := once
      by_cases same : key = k
      · subst same
        by_cases kept : p a
        · simp [lookup, kept, Option.filter]
        · have absent : key ∉ (rest.filter fun e => p e.2).map Prod.fst := by
            intro member
            exact new ((List.filter_sublist.map Prod.fst).subset member)
          simp [lookup, kept, Option.filter, lookup_eq_none absent]
      · by_cases kept : p a
        · simp [lookup, kept, same, ih once]
        · simp [lookup, kept, same, ih once]

section Merge

variable {u : Table κ α}

theorem merge_cons (t : Table κ α) (e : κ × α) (es : List (κ × α)) :
    t.merge ⟨e :: es⟩ = (t.set e.1 e.2).merge ⟨es⟩ := rfl

theorem Nodup.merge (once : t.Nodup) (u : Table κ α) : (t.merge u).Nodup := by
  obtain ⟨es⟩ := u
  induction es generalizing t with
  | nil => exact once
  | cons e rest ih =>
      rw [merge_cons]
      exact ih (once.set e.1 e.2)

theorem mem_of_mem_merge {e : κ × α} (member : e ∈ (t.merge u).entries) :
    e ∈ t.entries ∨ e ∈ u.entries := by
  obtain ⟨es⟩ := u
  induction es generalizing t with
  | nil => exact .inl member
  | cons f rest ih =>
      rw [merge_cons] at member
      obtain before | inside := ih member
      · obtain rfl | before := mem_insertAt before
        · exact .inr List.mem_cons_self
        · exact .inl before
      · exact .inr (List.mem_cons_of_mem _ inside)

/-- What is written over a table is found, and otherwise what was there. -/
theorem get?_merge (once : u.Nodup) (t : Table κ α) (k : κ) :
    (t.merge u).get? k = (u.get? k).or (t.get? k) := by
  obtain ⟨es⟩ := u
  induction es generalizing t with
  | nil => rfl
  | cons e rest ih =>
      obtain ⟨new, once⟩ := List.nodup_cons.mp once
      rw [merge_cons, ih _ once]
      simp only [get?, lookup]
      split
      · next same =>
        rw [lookup_eq_none (same ▸ new), Option.none_or, Option.some_or, same]
        exact get?_set_self t k e.2
      · next other =>
        exact congrArg ((lookup k rest).or ·) (get?_set_of_ne t other e.2)

end Merge

theorem contains_iff {k : κ} : t.contains k ↔ k ∈ t.entries.map Prod.fst := by
  obtain ⟨es⟩ := t
  simp only [contains, get?]
  induction es with
  | nil => simp [lookup]
  | cons e rest ih =>
      rw [lookup, List.map_cons, List.mem_cons, ← ih]
      split
      · next same => simp [same]
      · next other => simp [Ne.symm other]

theorem size_eq_of_contains {β : Type w} {u : Table κ β} (once : t.Nodup) (once' : u.Nodup)
    (same : ∀ k, t.contains k = u.contains k) : t.size = u.size := by
  have keys : (t.entries.map Prod.fst).Perm (u.entries.map Prod.fst) := by
    rw [List.perm_ext_iff_of_nodup once once']
    intro k
    rw [← contains_iff, ← contains_iff, same]
  simpa [size] using keys.length_eq

end Table

end BearerToken
