import Mathlib
import BearerToken.Proofs.Json.Canonical
import BearerToken.Proofs.Service.Coverage
import BearerToken.Proofs.Service.Failure

/-!
# What a store in memory contains

Every entry of the store, live or past its deadline, holds the fields of a record that says what a
creation gave its identifier and when it was last used. Which standings an identifier may have is a
parameter. A removal of entries keeps this whatever it removes, so nothing here depends on the times
at which the store is called.
-/

namespace BearerToken

/-- A tidy state that was read from its text is written as that text. -/
theorem Fields.stateText_reread {v : Json.Value} (tidy : v.Tidy) :
    stateText (keptState v).reread = stateText v := by
  have kept : (keptState v).Tidy := by
    rw [keptState]
    split
    · exact .object List.nodup_nil (by simp) (by simp)
    · exact tidy
  rw [stateText, keptState_reread, Json.write_reread kept, stateText]

/-- The fields of a record that differs from the created one in the time of access and in the state
are those of the created one but for these two. -/
theorem Fields.get?_of_ne {r r' : Record} {name : Text}
    (same : r = { r' with accessed := r.accessed, state := r.state })
    (accessed : name ≠ Fields.accessedField) (state : name ≠ Fields.stateField) :
    (Fields.ofRecord r).get? name = (Fields.ofRecord r').get? name := by
  have set : Fields.ofRecord r = ((Fields.ofRecord r').set Fields.accessedField
      (Numeral.write r.accessed)).set Fields.stateField (Fields.stateText r.state) := by
    rw [same]
    rfl
  rw [set, Table.get?_set_of_ne _ (Ne.symm state), Table.get?_set_of_ne _ (Ne.symm accessed)]

namespace Service

variable {given given' : TokenId → Standing → Prop} {m m' : Memory} {id : TokenId} {s : Standing}
  {r : Record} {nowMs : Int}

namespace Standing

/-- A record as a store keeps it for an identifier with this standing. Its state is still the one that
the creation was given, or it has been read since, and then its text stays as it is. -/
structure Retains (s : Standing) (id : TokenId) (r : Record) : Prop extends Keeps s id r where
  spelled : r.state = s.grant.state ∨ r.state.Tidy ∧
    Fields.stateText r.state = Fields.stateText (Fields.keptState s.grant.state).reread

namespace Retains

theorem reread (retains : s.Retains id r) : s.Retains id (Fields.reread r) where
  toKeeps := retains.toKeeps.reread
  spelled := by
    refine .inr ⟨Json.Value.tidy_reread _, ?_⟩
    obtain same | ⟨tidy, text⟩ := retains.spelled
    · rw [Fields.reread, same]
    · exact (Fields.stateText_reread tidy).trans text

theorem withAccessed (retains : s.Retains id r) {accessed : Int}
    (writable : Numeral.isWritable accessed) :
    Retains { s with last := accessed } id { r with accessed := accessed } where
  toKeeps := retains.toKeeps.withAccessed writable
  spelled := retains.spelled

/-- An access in the record is one in the standing. -/
theorem markAccessed (retains : s.Retains id r)
    (writable : Numeral.isWritable (r.markAccessed nowMs).accessed) :
    Retains { s with last := max s.last nowMs } id (r.markAccessed nowMs) := by
  have noted := retains.withAccessed writable
  rw [Record.accessed_markAccessed, retains.accessed_eq] at noted
  rw [Record.markAccessed, retains.accessed_eq]
  exact noted

end Retains

end Standing

theorem Grant.retains_record {grant : Grant} (writable : Fields.fault? (grant.record id) = none) :
    Standing.Retains ⟨grant, id.timestampMs, id.timestampMs⟩ id (grant.record id) where
  toKeeps := grant.keeps_record (Grant.isPersistable_record writable) rfl
  spelled := .inl rfl

/-- Fields as the creation wrote them, apart from the time of access. The state's text is as written,
or as it is written once it has been read; for a tidy state these are the same. -/
structure Grant.Wrote (grant : Grant) (id : TokenId) (fields : Fields) : Prop where
  same : ∀ name, name ≠ Fields.accessedField → (name = Fields.stateField → grant.state.Tidy) →
    fields.get? name = (Fields.ofRecord (grant.record id)).get? name
  state : ∃ state ∈ [grant.state, (Fields.keptState grant.state).reread],
    fields.get? Fields.stateField = some (Fields.stateText state : Text)

/-- The time of access makes no difference. -/
theorem Grant.Wrote.setAccessed {grant : Grant} {fields : Fields} (wrote : grant.Wrote id fields)
    (t : Text) : grant.Wrote id (fields.set Fields.accessedField t) where
  same name other tidy := by
    rw [Table.get?_set_of_ne _ (Ne.symm other)]
    exact wrote.same name other tidy
  state := by
    rw [Table.get?_set_of_ne _ (by decide)]
    exact wrote.state

theorem Standing.Retains.wrote (retains : s.Retains id r) (created : s.created = id.timestampMs) :
    s.grant.Wrote id (Fields.ofRecord r) := by
  have same : r = { s.grant.record id with accessed := r.accessed, state := r.state } := by
    calc r = { (Fields.reread r).normal with accessed := r.accessed, state := r.state } := rfl
      _ = { s.record id s.last with accessed := r.accessed, state := r.state } := by
          rw [retains.same]
      _ = { s.grant.record id with accessed := r.accessed, state := r.state } := by
          rw [Standing.record, created]
          rfl
  refine ⟨?_, ?_⟩
  · intro name accessed tidy
    by_cases state : name = Fields.stateField
    · subst state
      rw [Fields.get?_state, Fields.get?_state]
      obtain same | ⟨-, text⟩ := retains.spelled
      · rw [same]
        rfl
      · rw [text, Fields.stateText_reread (tidy rfl)]
        rfl
    · exact Fields.get?_of_ne same accessed state
  · rw [Fields.get?_state]
    obtain same | ⟨-, text⟩ := retains.spelled
    · exact ⟨_, List.mem_cons_self, by rw [same]⟩
    · exact ⟨_, List.mem_cons_of_mem _ List.mem_cons_self, by rw [text]⟩

/-- Every entry, live or not, holds a record for a standing that its identifier may have. -/
structure Contents (given : TokenId → Standing → Prop) (m : Memory) : Prop where
  once : m.Nodup
  held : ∀ id e, m.entries.get? id = some e →
    ∃ s r, given id s ∧ s.Retains id r ∧ e.fields = Fields.ofRecord r

namespace Contents

theorem empty (given : TokenId → Standing → Prop) : Contents given .empty where
  once := Memory.nodup_empty
  held _ _ found := nomatch found

theorem mono (contents : Contents given m) (more : ∀ id s, given id s → given' id s) :
    Contents given' m where
  once := contents.once
  held id e found := by
    obtain ⟨s, r, may, retains, fields⟩ := contents.held id e found
    exact ⟨s, r, more id s may, retains, fields⟩

/-- Entries may go. -/
theorem of_old (contents : Contents given m) (once : m'.Nodup)
    (old : ∀ id e, m'.entries.get? id = some e → m.entries.get? id = some e) :
    Contents given m' where
  once
  held id e found := contents.held id e (old id e found)

theorem sweep (contents : Contents given m) (nowMs : Int) : Contents given (m.sweep nowMs) :=
  contents.of_old contents.once.sweep (Traceless.sweep (w := ⟨m, []⟩) contents.once).old

theorem dropExpired (contents : Contents given m) (nowMs : Int) (id : TokenId) :
    Contents given (m.dropExpired nowMs id) :=
  contents.of_old (contents.once.dropExpired id) (Traceless.dropExpired (w := ⟨m, []⟩) id).old

/-- The standings of other identifiers are as before. -/
theorem put (contents : Contents given m) (others : ∀ other s, other ≠ id → given other s →
    given' other s) (may : given' id s) (retains : s.Retains id r) (nowMs ttl : Int) :
    Contents given' (m.put nowMs id (Fields.ofRecord r) ttl) where
  once := contents.once.put id _ ttl
  held other e found := by
    rw [Memory.put, Table.get?_set] at found
    split at found
    · next same =>
      subst same
      cases found
      exact ⟨s, r, may, retains, rfl⟩
    · next apart =>
      obtain ⟨s, r, may, retains, fields⟩ := (contents.sweep nowMs).held other e found
      exact ⟨s, r, others other s (Ne.symm apart) may, retains, fields⟩

/-- What is live is a record as it is kept. -/
theorem live (contents : Contents given m) {fields : Fields}
    (found : m.live? nowMs id = some fields) :
    ∃ s r, given id s ∧ s.Retains id r ∧ fields = Fields.ofRecord r := by
  obtain ⟨e, filtered, rfl⟩ := Option.map_eq_some_iff.mp found
  exact contents.held id e (Option.filter_eq_some_iff.mp filtered).1

theorem setAccessed (contents : Contents given m) {accessed : Int}
    (writable : Numeral.isWritable accessed)
    (noted : ∀ s, given id s → given id { s with last := accessed }) (nowMs ttl : Int) :
    Contents given (m.setAccessed nowMs id accessed ttl) := by
  cases live : m.live? nowMs id with
  | none =>
      rw [Memory.setAccessed_of_gone live]
      exact contents.dropExpired nowMs id
  | some fields =>
      obtain ⟨s, r, may, retains, rfl⟩ := contents.live live
      refine ⟨contents.once.setAccessed id accessed ttl, ?_⟩
      intro other e found
      rw [Memory.get?_setAccessed live] at found
      split at found
      · next same =>
        subst same
        cases found
        exact ⟨_, _, noted s may, retains.withAccessed writable, Fields.set_accessed r accessed⟩
      · exact contents.held other e found

end Contents

section Store

open BearerToken.Action (Ensures)

variable {ttl accessed : Int}

namespace Contents

theorem ensures_put (fits : Fields.fault? r = none → ∃ s, given id s ∧ s.Retains id r)
    (nowMs ttl : Int) :
    Ensures (Contents given) (Memory.store.put nowMs id r ttl) fun _ => True := by
  intro w contents
  cases fault : Fields.fault? r with
  | some cause =>
      rw [Memory.run_put_unwritable fault]
      exact ⟨contents.sweep nowMs, fun _ _ => trivial⟩
  | none =>
      obtain ⟨s, may, retains⟩ := fits fault
      rw [Memory.run_put fault]
      exact ⟨contents.put (fun _ _ _ before => before) may retains nowMs ttl, fun _ _ => trivial⟩

theorem ensures_setAccessed (noted : ∀ s, given id s → given id { s with last := accessed })
    (nowMs ttl : Int) :
    Ensures (Contents given) (Memory.store.setAccessed nowMs id accessed ttl) fun _ => True := by
  intro w contents
  cases writable : Numeral.isWritable accessed with
  | true =>
      rw [Memory.run_setAccessed writable]
      exact ⟨contents.setAccessed writable noted nowMs ttl, fun _ _ => trivial⟩
  | false =>
      cases live : w.store.live? nowMs id with
      | none =>
          rw [Memory.run_setAccessed_gone live]
          exact ⟨contents.dropExpired nowMs id, fun _ _ => trivial⟩
      | some fields =>
          rw [Memory.run_setAccessed_unwritable writable live]
          exact ⟨contents, fun _ _ => trivial⟩

/-- What is read is a record as it comes back from what is kept. -/
theorem ensures_get (nowMs : Int) (id : TokenId) :
    Ensures (Contents given) (Memory.store.get nowMs id) fun found => ∀ r', found = some r' →
      ∃ s r, given id s ∧ s.Retains id r ∧ r' = Fields.reread r := by
  intro w contents
  cases live : w.store.live? nowMs id with
  | none =>
      rw [Memory.run_get_gone live]
      refine ⟨contents.dropExpired nowMs id, ?_⟩
      rintro found same r' rfl
      cases same
  | some fields =>
      obtain ⟨s, r, may, retains, rfl⟩ := contents.live live
      rw [Memory.run_get_live live retains.persistable]
      refine ⟨contents.dropExpired nowMs id, ?_⟩
      rintro found same r' rfl
      cases same
      exact ⟨s, r, may, retains, rfl⟩

theorem ensures_fetch (v : Verifier) (nowMs : Int) (d : Decoded) :
    Ensures (Contents given) (v.inMemory.fetch nowMs d) fun r' =>
      ∃ s r, given d.id s ∧ s.Retains d.id r ∧ r' = Fields.reread r := by
  refine (ensures_get nowMs d.id).bind ?_
  intro found kept
  cases found with
  | none => exact (Action.ensures_emit _).bind fun _ _ => Action.ensures_fail _
  | some r => exact Action.ensures_pure (kept r rfl)

theorem ensures_noteAccess (v : Verifier)
    (noted : ∀ s, given id s → given id { s with last := accessed }) (nowMs : Int) :
    Ensures (Contents given) (v.inMemory.noteAccess nowMs id accessed) fun _ => True := by
  refine (ensures_setAccessed noted nowMs _).recover ?_
  intro e
  cases e with
  | store cause => exact Action.ensures_emit _
  | _ => exact Action.ensures_fail _

end Contents

end Store

end Service

end BearerToken
