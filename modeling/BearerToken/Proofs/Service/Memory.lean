import Mathlib
import BearerToken.Proofs.Action
import BearerToken.Proofs.Record.Fields
import BearerToken.Proofs.Store.Memory
import BearerToken.Service

/-!
# The service with its records in memory

What each use of a token gives, and what store it leaves, in each of the ways in which it can go: the
token is refused, its record is not live, or its record is live.
-/

namespace BearerToken

namespace Memory

variable {w : World Memory} {nowMs : Int} {id : TokenId} {r : Record}

theorem run_put (writable : Fields.fault? r = none) (ttl : Int) :
    (store.put nowMs id r ttl).run w =
      (.ok (), { w with store := w.store.put nowMs id (Fields.ofRecord r) ttl }) := by
  simp only [store, Fields.persist_eq writable]
  rfl

theorem run_put_unwritable {cause : Json.WriteError} (unwritable : Fields.fault? r = some cause)
    (ttl : Int) :
    (store.put nowMs id r ttl).run w =
      (.error (.unwritable cause), { w with store := w.store.sweep nowMs }) := by
  simp only [store, Fields.persist, unwritable]
  rfl

theorem run_get_gone (gone : w.store.live? nowMs id = none) :
    (store.get nowMs id).run w =
      (.ok none, { w with store := w.store.dropExpired nowMs id }) := by
  simp only [store]
  rw [Action.run_bind_ok (Action.run_onStore _ _)]
  simp only [gone]
  rfl

theorem run_get_live (live : w.store.live? nowMs id = some (Fields.ofRecord r))
    (kept : Fields.IsPersistable r) :
    (store.get nowMs id).run w =
      (.ok (some (Fields.reread r)), { w with store := w.store.dropExpired nowMs id }) := by
  simp only [store]
  rw [Action.run_bind_ok (Action.run_onStore _ _)]
  simp only [live, Fields.toRecord_ofRecord kept]
  rfl

theorem run_setAccessed {accessed : Int} (writable : Numeral.isWritable accessed)
    (w : World Memory) (nowMs : Int) (id : TokenId) (ttl : Int) :
    (store.setAccessed nowMs id accessed ttl).run w =
      (.ok (), { w with store := w.store.setAccessed nowMs id accessed ttl }) := by
  simp only [store]
  rw [Action.run_bind_ok (Action.run_onStore _ _)]
  simp only [writable, Bool.not_true, Bool.and_false]
  rfl

theorem run_setAccessed_gone (gone : w.store.live? nowMs id = none)
    (accessed ttl : Int) :
    (store.setAccessed nowMs id accessed ttl).run w =
      (.ok (), { w with store := w.store.dropExpired nowMs id }) := by
  simp only [store]
  rw [Action.run_bind_ok (Action.run_onStore _ _)]
  simp only [gone, Option.isSome_none, Bool.false_and, Bool.false_eq_true, if_false]
  rw [← setAccessed_of_gone gone accessed ttl]
  rfl

theorem run_setAccessed_unwritable {accessed : Int}
    (unwritable : Numeral.isWritable accessed = false) {fields : Fields}
    (live : w.store.live? nowMs id = some fields) (ttl : Int) :
    (store.setAccessed nowMs id accessed ttl).run w = (.error (.unwritable .tooLong), w) := by
  simp only [store]
  rw [Action.run_bind_ok (Action.run_onStore _ _)]
  simp only [live, unwritable]
  rfl

end Memory

namespace Verifier

variable {σ : Type} {v : Verifier} {nowMs : Int} {token : Presented}

theorem run_resolve_ok {d : Decoded} (accepted : v.verdict nowMs token = .ok d) (w : World σ) :
    (v.resolve nowMs token).run w = (.ok d, w) := by
  rw [resolve, accepted]
  rfl

theorem run_resolve_error {cause : Rejection} (refused : v.verdict nowMs token = .error cause)
    (w : World σ) :
    (v.resolve nowMs token).run w =
      (.error (.rejected cause), { w with events := w.events ++ [.rejected cause] }) := by
  rw [resolve, refused]
  rfl

theorem result_resolve (v : Verifier) (nowMs : Int) (token : Presented) (w : World σ) :
    ((v.resolve nowMs token).run w).1 = (v.verdict nowMs token).mapError Failure.rejected := by
  cases verdict : v.verdict nowMs token with
  | error cause =>
      rw [run_resolve_error verdict]
      rfl
  | ok d =>
      rw [run_resolve_ok verdict]
      rfl

theorem verdict_of_resolve {d : Decoded} {w : World σ}
    (accepted : ((v.resolve nowMs token).run w).1 = .ok d) : v.verdict nowMs token = .ok d := by
  rw [result_resolve] at accepted
  cases verdict : v.verdict nowMs token with
  | error cause =>
      rw [verdict] at accepted
      cases accepted
  | ok d' =>
      rw [verdict] at accepted
      cases accepted
      rfl

/-- The service with its records in memory. -/
def inMemory (v : Verifier) : Service Memory := { v with store := Memory.store }

@[simp] theorem inMemory_toVerifier (v : Verifier) : v.inMemory.toVerifier = v := rfl

@[simp] theorem inMemory_store (v : Verifier) : v.inMemory.store = Memory.store := rfl

end Verifier

namespace Service

section Usable

variable {σ α : Type} {a : Action σ α} {w w' : World σ}

theorem run_ifUsable_ok {x : α} (done : a.run w = (.ok x, w')) :
    (ifUsable a).run w = (.ok (some x), w') :=
  Action.run_recover_ok (Action.run_map_ok done)

theorem run_ifUsable_rejected {cause : Rejection} (failed : a.run w = (.error (.rejected cause), w')) :
    (ifUsable a).run w = (.ok none, w') :=
  Action.run_recover_error (Action.run_map_error failed)

theorem run_ifUsable_notFound {id : TokenId} (failed : a.run w = (.error (.notFound id), w')) :
    (ifUsable a).run w = (.ok none, w') :=
  Action.run_recover_error (Action.run_map_error failed)

/-- A failure that is not of the token is given on. -/
theorem run_ifUsable_failed {e : Failure} (failed : a.run w = (.error e, w'))
    (accepted : ∀ cause, e ≠ .rejected cause) (found : ∀ id, e ≠ .notFound id) :
    (ifUsable a).run w = (.error e, w') := by
  cases e with
  | rejected cause => exact absurd rfl (accepted cause)
  | notFound id => exact absurd rfl (found id)
  | _ => exact Action.run_recover_error (Action.run_map_error failed)

/-- Making an unusable token the absence of a result leaves the world as it was made. -/
theorem world_ifUsable (a : Action σ α) (w : World σ) : ((ifUsable a).run w).2 = (a.run w).2 := by
  obtain ⟨x | e, w', made⟩ : ∃ x w', a.run w = (x, w') := ⟨_, _, rfl⟩
  · rw [ifUsable, Action.run_recover_error (Action.run_map_error made), made]
    cases x <;> rfl
  · rw [run_ifUsable_ok made, made]

end Usable

section Touch

variable {σ : Type} {s : Service σ} {nowMs : Int} {token : Presented} {w w' : World σ}

theorem run_touch_ok (done : (s.touchStrict nowMs token).run w = (.ok (), w')) :
    (s.touch nowMs token).run w = (.ok true, w') :=
  Action.run_recover_ok (Action.run_map_ok done)

theorem run_touch_rejected {cause : Rejection}
    (failed : (s.touchStrict nowMs token).run w = (.error (.rejected cause), w')) :
    (s.touch nowMs token).run w = (.ok false, w') :=
  Action.run_recover_error (Action.run_map_error failed)

theorem run_touch_failed {e : Failure}
    (failed : (s.touchStrict nowMs token).run w = (.error e, w'))
    (accepted : ∀ cause, e ≠ .rejected cause) : (s.touch nowMs token).run w = (.error e, w') := by
  cases e with
  | rejected cause => exact absurd rfl (accepted cause)
  | _ => exact Action.run_recover_error (Action.run_map_error failed)

end Touch

variable {v : Verifier} {w : World Memory} {nowMs : Int}

section Use

variable {token : Presented} {d : Decoded} {r : Record}

/-- An inspection gives the verdict and leaves the store alone. -/
theorem result_inspect (w : World Memory) (nowMs : Int) (token : Presented) :
    ((v.inMemory.inspect nowMs token).run w).1 =
      (v.verdict nowMs token).mapError Failure.rejected :=
  Verifier.result_resolve v nowMs token w

theorem store_inspect (w : World Memory) (nowMs : Int) (token : Presented) :
    ((v.inMemory.inspect nowMs token).run w).2.store = w.store := by
  cases verdict : v.verdict nowMs token with
  | error cause => rw [inspect, Verifier.inMemory_toVerifier, Verifier.run_resolve_error verdict]
  | ok d => rw [inspect, Verifier.inMemory_toVerifier, Verifier.run_resolve_ok verdict]

theorem run_fetch_gone (gone : w.store.live? nowMs d.id = none) :
    (v.inMemory.fetch nowMs d).run w = (.error (.notFound d.id),
      ⟨w.store.dropExpired nowMs d.id, w.events ++ [.notFound d.id d.kind]⟩) := by
  rw [fetch, Verifier.inMemory_store, Action.run_bind_ok (Memory.run_get_gone gone)]
  rfl

theorem run_fetch_live (live : w.store.live? nowMs d.id = some (Fields.ofRecord r))
    (kept : Fields.IsPersistable r) :
    (v.inMemory.fetch nowMs d).run w =
      (.ok (Fields.reread r), { w with store := w.store.dropExpired nowMs d.id }) := by
  rw [fetch, Verifier.inMemory_store, Action.run_bind_ok (Memory.run_get_live live kept)]
  rfl

theorem run_noteAccess {accessed : Int} (writable : Numeral.isWritable accessed)
    (w : World Memory) (nowMs : Int) (id : TokenId) :
    (v.inMemory.noteAccess nowMs id accessed).run w = (.ok (),
      { w with store := w.store.setAccessed nowMs id accessed v.policy.retentionSeconds }) :=
  Action.run_recover_ok (Memory.run_setAccessed writable w nowMs id _)

/-- A refused token has no record, and the store is left alone. -/
theorem run_lookup_refused {cause : Rejection} (refused : v.verdict nowMs token = .error cause)
    (w : World Memory) :
    (v.inMemory.lookup nowMs token).run w =
      (.ok none, { w with events := w.events ++ [.rejected cause] }) := by
  apply run_ifUsable_rejected
  exact Action.run_bind_error (Verifier.run_resolve_error refused w)

theorem run_lookup_gone (accepted : v.verdict nowMs token = .ok d)
    (gone : w.store.live? nowMs d.id = none) :
    (v.inMemory.lookup nowMs token).run w = (.ok none,
      ⟨w.store.dropExpired nowMs d.id, w.events ++ [.notFound d.id d.kind]⟩) := by
  apply run_ifUsable_notFound
  rw [lookupStrict, Verifier.inMemory_toVerifier,
    Action.run_bind_ok (Verifier.run_resolve_ok accepted w)]
  exact Action.run_bind_error (run_fetch_gone gone)

/-- A live record is given as it was kept, with its access noted in the store as well. -/
theorem run_lookup_live (accepted : v.verdict nowMs token = .ok d)
    (live : w.store.live? nowMs d.id = some (Fields.ofRecord r)) (kept : Fields.IsPersistable r)
    (writable : Numeral.isWritable (max r.accessed nowMs)) :
    (v.inMemory.lookup nowMs token).run w = (.ok (some ((Fields.reread r).markAccessed nowMs)),
      ⟨(w.store.dropExpired nowMs d.id).setAccessed nowMs d.id (max r.accessed nowMs)
        v.policy.retentionSeconds, w.events⟩) := by
  have noted : Numeral.isWritable ((Fields.reread r).markAccessed nowMs).accessed := writable
  apply run_ifUsable_ok
  rw [lookupStrict, Verifier.inMemory_toVerifier,
    Action.run_bind_ok (Verifier.run_resolve_ok accepted w),
    Action.run_bind_ok (run_fetch_live live kept),
    Action.run_bind_ok (run_noteAccess noted _ nowMs d.id)]
  rfl

/-- A time that is too long to be written cannot be noted, so the lookup fails. -/
theorem run_lookup_unwritable (accepted : v.verdict nowMs token = .ok d)
    (live : w.store.live? nowMs d.id = some (Fields.ofRecord r)) (kept : Fields.IsPersistable r)
    (unwritable : Numeral.isWritable (max r.accessed nowMs) = false) :
    (v.inMemory.lookup nowMs token).run w = (.error (.unwritable .tooLong),
      { w with store := w.store.dropExpired nowMs d.id }) := by
  have still : (w.store.dropExpired nowMs d.id).live? nowMs d.id = some (Fields.ofRecord r) := by
    rw [Memory.live?_dropExpired le_rfl, live]
  have noted : (v.inMemory.noteAccess nowMs d.id ((Fields.reread r).markAccessed nowMs).accessed).run
      { w with store := w.store.dropExpired nowMs d.id } =
        (.error (.unwritable .tooLong), { w with store := w.store.dropExpired nowMs d.id }) :=
    Action.run_recover_error (Memory.run_setAccessed_unwritable unwritable still _)
  have strict : (v.inMemory.lookupStrict nowMs token).run w = (.error (.unwritable .tooLong),
      { w with store := w.store.dropExpired nowMs d.id }) := by
    rw [lookupStrict, Verifier.inMemory_toVerifier,
      Action.run_bind_ok (Verifier.run_resolve_ok accepted w),
      Action.run_bind_ok (run_fetch_live live kept)]
    exact Action.run_bind_error noted
  exact run_ifUsable_failed strict nofun nofun

theorem run_touch_refused {cause : Rejection} (refused : v.verdict nowMs token = .error cause)
    (w : World Memory) :
    (v.inMemory.touch nowMs token).run w =
      (.ok false, { w with events := w.events ++ [.rejected cause] }) :=
  run_touch_rejected (Action.run_bind_error (Verifier.run_resolve_error refused w))

theorem run_touch_accepted (accepted : v.verdict nowMs token = .ok d)
    (writable : Numeral.isWritable nowMs) (w : World Memory) :
    (v.inMemory.touch nowMs token).run w = (.ok true,
      ⟨w.store.setAccessed nowMs d.id nowMs v.policy.retentionSeconds,
        w.events ++ [.touched d.id]⟩) := by
  apply run_touch_ok
  rw [touchStrict, Verifier.inMemory_toVerifier,
    Action.run_bind_ok (Verifier.run_resolve_ok accepted w), Verifier.inMemory_store,
    Action.run_bind_ok (Memory.run_setAccessed writable w nowMs d.id _)]
  rfl

theorem run_touch_gone (accepted : v.verdict nowMs token = .ok d)
    (gone : w.store.live? nowMs d.id = none) :
    (v.inMemory.touch nowMs token).run w = (.ok true,
      ⟨w.store.dropExpired nowMs d.id, w.events ++ [.touched d.id]⟩) := by
  apply run_touch_ok
  rw [touchStrict, Verifier.inMemory_toVerifier,
    Action.run_bind_ok (Verifier.run_resolve_ok accepted w), Verifier.inMemory_store,
    Action.run_bind_ok (Memory.run_setAccessed_gone gone _ _)]
  rfl

theorem run_touch_unwritable (accepted : v.verdict nowMs token = .ok d) {fields : Fields}
    (live : w.store.live? nowMs d.id = some fields)
    (unwritable : Numeral.isWritable nowMs = false) :
    (v.inMemory.touch nowMs token).run w = (.error (.unwritable .tooLong), w) := by
  refine run_touch_failed ?_ nofun
  rw [touchStrict, Verifier.inMemory_toVerifier,
    Action.run_bind_ok (Verifier.run_resolve_ok accepted w)]
  exact Action.run_bind_error (Memory.run_setAccessed_unwritable unwritable live _)

theorem run_refresh_refused {cause : Rejection} (refused : v.verdict nowMs token = .error cause)
    (w : World Memory) :
    (v.inMemory.refresh nowMs token).run w =
      (.ok none, { w with events := w.events ++ [.rejected cause] }) := by
  apply run_ifUsable_rejected
  exact Action.run_bind_error (Verifier.run_resolve_error refused w)

theorem run_refresh_gone (accepted : v.verdict nowMs token = .ok d)
    (gone : w.store.live? nowMs d.id = none) :
    (v.inMemory.refresh nowMs token).run w = (.ok none,
      ⟨w.store.dropExpired nowMs d.id, w.events ++ [.notFound d.id d.kind]⟩) := by
  apply run_ifUsable_notFound
  rw [refreshStrict, Verifier.inMemory_toVerifier,
    Action.run_bind_ok (Verifier.run_resolve_ok accepted w)]
  exact Action.run_bind_error (run_fetch_gone gone)

/-- The record is written as it was read, with its access noted, before the new text is made. -/
theorem run_refreshStrict_live (accepted : v.verdict nowMs token = .ok d)
    (live : w.store.live? nowMs d.id = some (Fields.ofRecord r)) (kept : Fields.IsPersistable r)
    (writable : Numeral.isWritable (max r.accessed nowMs)) :
    ∃ events, (v.inMemory.refreshStrict nowMs token).run w =
      (Action.ofExcept .expiryOverflow
        (v.codec.encode .access d.id (v.policy.ttlFor .access))).run
        ⟨(w.store.dropExpired nowMs d.id).put nowMs d.id
          (Fields.ofRecord ((Fields.reread r).markAccessed nowMs)) v.policy.retentionSeconds,
          events⟩ := by
  have again : Fields.IsPersistable ((Fields.reread r).markAccessed nowMs) :=
    kept.reread.withAccessed writable
  rw [refreshStrict, Verifier.inMemory_toVerifier,
    Action.run_bind_ok (Verifier.run_resolve_ok accepted w),
    Action.run_bind_ok (run_fetch_live live kept), Verifier.inMemory_store,
    Action.run_bind_ok (Memory.run_put again.writable _)]
  rw [Action.run_bind_ok (Action.run_emit _ _)]
  cases valid : v.policy.isValid .access d.id (v.policy.embeddedExpiry .access d.id) nowMs with
  | true =>
      simp only [valid, Bool.not_true, Bool.false_eq_true, if_false]
      exact ⟨_, rfl⟩
  | false =>
      simp only [valid, Bool.not_false, if_true]
      rw [Action.run_bind_ok (Action.run_emit _ _)]
      exact ⟨_, rfl⟩

/-- A record whose access cannot be written is not written again. -/
theorem run_refresh_unwritable (accepted : v.verdict nowMs token = .ok d)
    (live : w.store.live? nowMs d.id = some (Fields.ofRecord r)) (kept : Fields.IsPersistable r)
    (unwritable : Numeral.isWritable (max r.accessed nowMs) = false) :
    (v.inMemory.refresh nowMs token).run w = (.error (.unwritable .tooLong),
      { w with store := (w.store.dropExpired nowMs d.id).sweep nowMs }) := by
  have created := (Fields.fault?_eq_none_iff.mp kept.writable).1
  have fault : Fields.fault? ((Fields.reread r).markAccessed nowMs) = some .tooLong :=
    Fields.fault?_of_accessed created unwritable
  refine run_ifUsable_failed ?_ nofun nofun
  rw [refreshStrict, Verifier.inMemory_toVerifier,
    Action.run_bind_ok (Verifier.run_resolve_ok accepted w),
    Action.run_bind_ok (run_fetch_live live kept)]
  exact Action.run_bind_error (Memory.run_put_unwritable fault _)

theorem store_refresh_live (accepted : v.verdict nowMs token = .ok d)
    (live : w.store.live? nowMs d.id = some (Fields.ofRecord r)) (kept : Fields.IsPersistable r)
    (writable : Numeral.isWritable (max r.accessed nowMs)) :
    ((v.inMemory.refresh nowMs token).run w).2.store =
      (w.store.dropExpired nowMs d.id).put nowMs d.id
        (Fields.ofRecord ((Fields.reread r).markAccessed nowMs)) v.policy.retentionSeconds := by
  obtain ⟨events, run⟩ := run_refreshStrict_live accepted live kept writable
  rw [refresh, world_ifUsable, run, Action.world_ofExcept]

end Use

/-- The record that a grant gives to a new identifier. -/
def Grant.record (grant : Grant) (id : TokenId) : Record :=
  .issued id grant.label grant.principal grant.state

theorem create_eq {σ : Type} (s : Service σ) {nowMs : Int} {entropy : Entropy} {id : TokenId}
    (new : TokenId.generate nowMs entropy = id) (kind : Kind) (grant : Grant) :
    s.create nowMs entropy kind grant = (do
      s.store.put nowMs id (grant.record id) s.policy.retentionSeconds
      .emit (.created id kind (grant.record id).label (grant.principal.map (·.kind)))
      .ofExcept .expiryOverflow (s.codec.encode kind id (s.policy.ttlFor kind))) := by
  rw [← new]
  rfl

section Create

variable {entropy : Entropy} {id : TokenId} {grant : Grant}

theorem run_create (new : TokenId.generate nowMs entropy = id)
    (kept : Fields.IsPersistable (grant.record id)) (kind : Kind) :
    ∃ events, (v.inMemory.create nowMs entropy kind grant).run w =
      (Action.ofExcept .expiryOverflow (v.codec.encode kind id (v.policy.ttlFor kind))).run
        ⟨w.store.put nowMs id (Fields.ofRecord (grant.record id)) v.policy.retentionSeconds,
          events⟩ := by
  rw [create_eq _ new, Verifier.inMemory_toVerifier, Verifier.inMemory_store,
    Action.run_bind_ok (Memory.run_put kept.writable _), Action.run_bind_ok (Action.run_emit _ _)]
  exact ⟨_, rfl⟩

theorem run_create_unwritable (new : TokenId.generate nowMs entropy = id)
    {cause : Json.WriteError} (unwritable : Fields.fault? (grant.record id) = some cause)
    (kind : Kind) :
    (v.inMemory.create nowMs entropy kind grant).run w =
      (.error (.unwritable cause), { w with store := w.store.sweep nowMs }) := by
  rw [create_eq _ new, Verifier.inMemory_store]
  exact Action.run_bind_error (Memory.run_put_unwritable unwritable _)

end Create

end Service

end BearerToken
