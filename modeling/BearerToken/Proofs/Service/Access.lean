import Mathlib
import BearerToken.Proofs.Service.Upkeep

/-!
# Times of access

A lookup and a refresh note the later of the time that they have read from the record and the time of
the call, so what the store holds as the time of last access does not go back, whatever the clock
does. A touch does not read the record and notes the time of the call as it is.
-/

namespace BearerToken

namespace Memory

variable {m m' : Memory} {nowMs : Int} {id : TokenId} {r : Record}

/-- The time of last access that the store holds for the identifier. -/
def accessed? (m : Memory) (id : TokenId) : Option Int :=
  ((m.entries.get? id).bind (·.fields.get? Fields.accessedField)).bind fun t =>
    (Fields.readInt t).toOption

/-- Of no identifier that both stores hold does the time of last access go back. -/
def Onward (m m' : Memory) : Prop :=
  ∀ id before after, m.accessed? id = some before → m'.accessed? id = some after → before ≤ after

theorem accessed?_eq {e : Entry} (held : m.entries.get? id = some e)
    (fields : e.fields = Fields.ofRecord r) (writable : Numeral.isWritable r.accessed) :
    m.accessed? id = some r.accessed := by
  rw [accessed?, held, Option.bind_some, fields, Fields.get?_accessed, Option.bind_some,
    Fields.readInt_write writable]
  rfl

theorem accessed?_of_live (live : m.live? nowMs id = some (Fields.ofRecord r))
    (writable : Numeral.isWritable r.accessed) : m.accessed? id = some r.accessed := by
  obtain ⟨e, filtered, fields⟩ := Option.map_eq_some_iff.mp live
  exact accessed?_eq (Option.filter_eq_some_iff.mp filtered).1 fields writable

/-- The time of an entry that was there before is the time that it had. -/
theorem accessed?_of_old
    (old : ∀ e, m'.entries.get? id = some e → m.entries.get? id = some e) {t : Int}
    (accessed : m'.accessed? id = some t) : m.accessed? id = some t := by
  cases held : m'.entries.get? id with
  | none =>
      rw [accessed?, held] at accessed
      cases accessed
  | some e =>
      rw [accessed?, held] at accessed
      rw [accessed?, old e held]
      exact accessed

/-- What is removed does not go back. -/
theorem onward_of_old
    (old : ∀ id e, m'.entries.get? id = some e → m.entries.get? id = some e) : m.Onward m' := by
  intro id before after was is
  exact (Option.some.inj (was.symm.trans (accessed?_of_old (old id) is))).le

theorem onward_refl (m : Memory) : m.Onward m := onward_of_old fun _ _ held => held

theorem onward_dropExpired (m : Memory) (nowMs : Int) (id : TokenId) :
    m.Onward (m.dropExpired nowMs id) :=
  onward_of_old (Service.Traceless.dropExpired (w := ⟨m, []⟩) id).old

/-- Where at most one entry is new, its time of access decides. -/
theorem onward_iff_of_others (was : m.accessed? id = some r.accessed) {accessed : Int}
    (is : m'.accessed? id = some accessed)
    (others : ∀ other e, id ≠ other → m'.entries.get? other = some e →
      m.entries.get? other = some e) :
    m.Onward m' ↔ r.accessed ≤ accessed := by
  constructor
  · intro onward
    exact onward id _ _ was is
  · intro later other before after was' is'
    by_cases same : id = other
    · subst same
      cases was.symm.trans was'
      cases is.symm.trans is'
      exact later
    · exact (Option.some.inj (was'.symm.trans (accessed?_of_old (others other · same) is'))).le

theorem dropExpired_of_live {fields : Fields} (live : m.live? nowMs id = some fields) :
    m.dropExpired nowMs id = m := by
  obtain ⟨e, filtered, -⟩ := Option.map_eq_some_iff.mp live
  obtain ⟨held, live⟩ := Option.filter_eq_some_iff.mp filtered
  rw [dropExpired, held, if_neg (by simpa using live)]

section Live

variable {accessed ttl : Int} (live : m.live? nowMs id = some (Fields.ofRecord r))
  (readable : Numeral.isWritable r.accessed)
include live readable

omit readable in
theorem accessed?_setAccessed (writable : Numeral.isWritable accessed) :
    (m.setAccessed nowMs id accessed ttl).accessed? id = some accessed := by
  have noted : (m.setAccessed nowMs id accessed ttl).entries.get? id =
      some ⟨Fields.ofRecord { r with accessed := accessed }, deadline nowMs ttl⟩ := by
    rw [get?_setAccessed live, if_pos rfl, Fields.set_accessed]
  exact accessed?_eq noted rfl writable

theorem onward_setAccessed_iff (writable : Numeral.isWritable accessed) :
    m.Onward (m.setAccessed nowMs id accessed ttl) ↔ r.accessed ≤ accessed := by
  refine onward_iff_of_others (accessed?_of_live live readable)
    (accessed?_setAccessed live writable) ?_
  intro other e apart held
  rwa [get?_setAccessed live, if_neg apart] at held

theorem onward_put_iff (once : m.Nodup) {r' : Record} (writable : Numeral.isWritable r'.accessed) :
    m.Onward (m.put nowMs id (Fields.ofRecord r') ttl) ↔ r.accessed ≤ r'.accessed := by
  have written : (m.put nowMs id (Fields.ofRecord r') ttl).entries.get? id =
      some ⟨Fields.ofRecord r', deadline nowMs ttl⟩ := Table.get?_set_self _ _ _
  refine onward_iff_of_others (accessed?_of_live live readable) (accessed?_eq written rfl writable) ?_
  intro other e apart held
  rw [put, Table.get?_set_of_ne _ apart] at held
  exact (Service.Traceless.sweep (w := ⟨m, []⟩) once).old other e held

end Live

end Memory

namespace Service

variable {given : TokenId → Standing → Prop} {v : Verifier} {w : World Memory} {nowMs : Int}
  {token : Presented} {d : Decoded}

theorem Contents.onward_lookup (contents : Contents given w.store) (v : Verifier) (nowMs : Int)
    (token : Presented) : w.store.Onward ((v.inMemory.lookup nowMs token).run w).2.store := by
  cases verdict : v.verdict nowMs token with
  | error cause =>
      rw [run_lookup_refused verdict]
      exact Memory.onward_refl _
  | ok d =>
      cases live : w.store.live? nowMs d.id with
      | none =>
          rw [run_lookup_gone verdict live]
          exact Memory.onward_dropExpired _ _ _
      | some fields =>
          obtain ⟨s, r, -, retains, rfl⟩ := contents.live live
          have readable := (Fields.fault?_eq_none_iff.mp retains.persistable.writable).2.1
          cases writable : Numeral.isWritable (max r.accessed nowMs) with
          | true =>
              rw [run_lookup_live verdict live retains.persistable writable,
                Memory.dropExpired_of_live live]
              exact (Memory.onward_setAccessed_iff live readable writable).mpr (le_max_left _ _)
          | false =>
              rw [run_lookup_unwritable verdict live retains.persistable writable,
                Memory.dropExpired_of_live live]
              exact Memory.onward_refl _

theorem Contents.onward_refresh (contents : Contents given w.store) (v : Verifier) (nowMs : Int)
    (token : Presented) : w.store.Onward ((v.inMemory.refresh nowMs token).run w).2.store := by
  cases verdict : v.verdict nowMs token with
  | error cause =>
      rw [run_refresh_refused verdict]
      exact Memory.onward_refl _
  | ok d =>
      cases live : w.store.live? nowMs d.id with
      | none =>
          rw [run_refresh_gone verdict live]
          exact Memory.onward_dropExpired _ _ _
      | some fields =>
          obtain ⟨s, r, -, retains, rfl⟩ := contents.live live
          have readable := (Fields.fault?_eq_none_iff.mp retains.persistable.writable).2.1
          cases writable : Numeral.isWritable (max r.accessed nowMs) with
          | true =>
              rw [store_refresh_live verdict live retains.persistable writable,
                Memory.dropExpired_of_live live]
              exact (Memory.onward_put_iff live readable contents.once writable).mpr
                (le_max_left _ _)
          | false =>
              rw [run_refresh_unwritable verdict live retains.persistable writable,
                Memory.dropExpired_of_live live]
              exact Memory.onward_of_old (Traceless.sweep contents.once).old

/-- A touch takes the time of access back just if it finds a record that was used later than now. -/
theorem Contents.onward_touch_iff (contents : Contents given w.store) (v : Verifier) (nowMs : Int)
    (token : Presented) :
    w.store.Onward ((v.inMemory.touch nowMs token).run w).2.store ↔
      ∀ d, v.verdict nowMs token = .ok d → (w.store.live? nowMs d.id).isSome →
        ∀ before, w.store.accessed? d.id = some before → Numeral.isWritable nowMs →
          before ≤ nowMs := by
  cases verdict : v.verdict nowMs token with
  | error cause =>
      rw [run_touch_refused verdict]
      simpa using Memory.onward_refl w.store
  | ok d =>
      cases live : w.store.live? nowMs d.id with
      | none =>
          rw [run_touch_gone verdict live]
          have gone := Memory.onward_dropExpired w.store nowMs d.id
          simpa [live] using gone
      | some fields =>
          obtain ⟨s, r, -, retains, rfl⟩ := contents.live live
          have readable := (Fields.fault?_eq_none_iff.mp retains.persistable.writable).2.1
          have was := Memory.accessed?_of_live live readable
          cases writable : Numeral.isWritable nowMs with
          | true =>
              rw [run_touch_accepted verdict writable, Memory.onward_setAccessed_iff live readable
                writable]
              simp [live, was]
          | false =>
              rw [run_touch_unwritable verdict live writable]
              simpa using Memory.onward_refl w.store

/-- After any calls on a fresh service the store says of every record when it was last used. A lookup
and a refresh, of whatever token and whatever the clock reads, take no such time back. A touch does so
just if it finds a record that was used later than the clock now reads. -/
theorem onward_of_use (v : Verifier) (calls : List (Int × Request)) (nowMs : Int)
    (token : Presented) :
    let w := Request.after v.inMemory calls ⟨.empty, []⟩
    (∀ id e, w.store.entries.get? id = some e → (w.store.accessed? id).isSome) ∧
    w.store.Onward ((v.inMemory.lookup nowMs token).run w).2.store ∧
    w.store.Onward ((v.inMemory.refresh nowMs token).run w).2.store ∧
    (w.store.Onward ((v.inMemory.touch nowMs token).run w).2.store ↔
      ∀ d, v.verdict nowMs token = .ok d → (w.store.live? nowMs d.id).isSome →
        ∀ before, w.store.accessed? d.id = some before → Numeral.isWritable nowMs →
          before ≤ nowMs) := by
  intro w
  have contents : Contents (Request.Wrote calls) w.store := Request.contents_after v calls
  refine ⟨?_, contents.onward_lookup v nowMs token, contents.onward_refresh v nowMs token,
    contents.onward_touch_iff v nowMs token⟩
  intro id e held
  obtain ⟨s, r, -, retains, fields⟩ := contents.held id e held
  have readable := (Fields.fault?_eq_none_iff.mp retains.persistable.writable).2.1
  rw [Memory.accessed?_eq held fields readable]
  rfl

/-- The clock goes back by a millisecond between a creation and a touch. -/
theorem not_onward_of_touch :
    let c : Codec := ⟨"s", by decide, .keyed, true, .standard⟩
    let v : Verifier := ⟨c, .withOverrides (fun _ => none) none⟩
    let id : TokenId := .generate 1700000000000 ⟨0, 0⟩
    let w := Request.after v.inMemory [(1700000000000, .create ⟨0, 0⟩ .access {})] ⟨.empty, []⟩
    ∃ wire w',
      ((v.inMemory.create 1700000000000 ⟨0, 0⟩ .access {}).run ⟨.empty, []⟩).1 = .ok wire ∧
      (v.inMemory.touch 1699999999999 (Text.ofString wire)).run w = (.ok true, w') ∧
      w.store.accessed? id = some 1700000000000 ∧ w'.store.accessed? id = some 1699999999999 ∧
      ¬w.store.Onward w'.store := by
  intro c v id w
  have range : InRange 1700000000000 := ⟨by decide, by decide⟩
  have kept : Fields.IsPersistable (({} : Grant).record id) :=
    Grant.isPersistable_record (by decide +kernel)
  have new : TokenId.generate 1700000000000 ⟨0, 0⟩ = id := rfl
  clear_value id
  have time := range.timestampMs_eq new
  obtain ⟨wire, events, issued, accepted⟩ :=
    exists_issued v rfl range new .access (fun _ => by decide) {} kept
  have world : w = ⟨Memory.empty.put 1700000000000 id (Fields.ofRecord (({} : Grant).record id))
      v.policy.retentionSeconds, events⟩ := by
    change ((Answer.created <$> v.inMemory.create 1700000000000 ⟨0, 0⟩ .access {}).run _).2 = _
    rw [Action.world_map, issued]
  have live : w.store.live? 1699999999999 id = some (Fields.ofRecord (({} : Grant).record id)) := by
    have early : 1699999999999 < Memory.deadline 1700000000000 v.policy.retentionSeconds := by decide
    rw [world, Memory.put, Memory.live?_set, if_pos rfl]
    exact if_pos (decide_eq_true early)
  have was : w.store.accessed? id = some 1700000000000 := by
    rw [← time]
    exact Memory.accessed?_of_live live (Fields.fault?_eq_none_iff.mp kept.writable).2.1
  have writable : Numeral.isWritable 1699999999999 := by decide +kernel
  have touched := run_touch_accepted (accepted 1699999999999 (by decide)) writable w
  have is : (w.store.setAccessed 1699999999999 id 1699999999999 v.policy.retentionSeconds).accessed?
      id = some 1699999999999 := Memory.accessed?_setAccessed live writable
  refine ⟨wire, _, by rw [issued], touched, was, is, ?_⟩
  intro onward
  exact absurd (onward id _ _ was is) (by decide)

end Service

end BearerToken
