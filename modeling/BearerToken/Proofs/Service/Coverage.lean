import Mathlib
import BearerToken.Proofs.Service.Lookup

/-!
# What a record that was written is good for

A record that was written for an identifier is shown until its deadline, and every use that finds it
writes it again with a later one. So of a single identifier a store can be said to show a record at
least until some deadline, and to say in it what the identifier was created with. Every call of the
service preserves this, whichever identifiers it is about and whether or not it succeeds.
-/

namespace BearerToken.Service

variable {made : Grant → Prop} {id other : TokenId} {deadline nowMs t ttl : Int} {m m' : Memory}
  {r : Record}

/-- The record says what one of the grants gave the identifier, and was last used by the time. -/
def Describes (made : Grant → Prop) (id : TokenId) (nowMs : Int) (r : Record) : Prop :=
  ∃ g last, made g ∧ last ≤ nowMs ∧ Standing.Keeps ⟨g, id.timestampMs, last⟩ id r

namespace Describes

theorem mono (describes : Describes made id nowMs r) (later : nowMs ≤ t) :
    Describes made id t r := by
  obtain ⟨g, last, given, past, keeps⟩ := describes
  exact ⟨g, last, given, past.trans later, keeps⟩

theorem reread (describes : Describes made id nowMs r) :
    Describes made id nowMs (Fields.reread r) := by
  obtain ⟨g, last, given, past, keeps⟩ := describes
  exact ⟨g, last, given, past, keeps.reread⟩

theorem persistable (describes : Describes made id nowMs r) : Fields.IsPersistable r := by
  obtain ⟨g, last, -, -, keeps⟩ := describes
  exact keeps.persistable

theorem withAccessed (describes : Describes made id nowMs r) (writable : Numeral.isWritable nowMs) :
    Describes made id nowMs { r with accessed := nowMs } := by
  obtain ⟨g, last, given, -, keeps⟩ := describes
  exact ⟨g, nowMs, given, le_rfl, keeps.withAccessed writable⟩

theorem max_accessed (describes : Describes made id nowMs r) : max r.accessed nowMs = nowMs := by
  obtain ⟨g, last, -, past, keeps⟩ := describes
  exact max_eq_right (keeps.accessed_eq.trans_le past)

theorem markAccessed_eq (describes : Describes made id nowMs r) :
    r.markAccessed nowMs = { r with accessed := nowMs } := by
  rw [Record.markAccessed, describes.max_accessed]

/-- The record that a lookup at the time gives. -/
theorem normal_markAccessed (describes : Describes made id nowMs r) :
    ∃ g, made g ∧ ((Fields.reread r).markAccessed nowMs).normal =
      Standing.record ⟨g, id.timestampMs, nowMs⟩ id nowMs := by
  obtain ⟨g, last, given, past, keeps⟩ := describes
  exact ⟨g, given, keeps.normal_markAccessed past⟩

end Describes

/-- The store shows a record of the identifier from a time on, at least until a deadline. -/
structure Covers (made : Grant → Prop) (id : TokenId) (deadline nowMs : Int) (m : Memory) :
    Prop where
  once : m.Nodup
  held : ∃ r last, Describes made id nowMs r ∧ deadline ≤ last ∧
    ∀ t, nowMs ≤ t → m.live? t id = if t < last then some (Fields.ofRecord r) else none

namespace Covers

theorem mono (covers : Covers made id deadline nowMs m) (later : nowMs ≤ t) :
    Covers made id deadline t m where
  once := covers.once
  held := by
    obtain ⟨r, last, describes, far, shown⟩ := covers.held
    exact ⟨r, last, describes.mono later, far, fun u after => shown u (later.trans after)⟩

/-- What the store shows of other identifiers makes no difference. -/
theorem congr (covers : Covers made id deadline nowMs m) (once : m'.Nodup)
    (same : ∀ t, nowMs ≤ t → m'.live? t id = m.live? t id) : Covers made id deadline nowMs m' where
  once
  held := by
    obtain ⟨r, last, describes, far, shown⟩ := covers.held
    exact ⟨r, last, describes, far, fun t later => (same t later).trans (shown t later)⟩

theorem sweep (covers : Covers made id deadline nowMs m) :
    Covers made id deadline nowMs (m.sweep nowMs) :=
  covers.congr covers.once.sweep fun _ later => Memory.live?_sweep covers.once later id

theorem purge (covers : Covers made id deadline nowMs m) :
    Covers made id deadline nowMs (m.purge nowMs) :=
  covers.congr covers.once.purge fun _ later => Memory.live?_purge covers.once later id

theorem dropExpired (covers : Covers made id deadline nowMs m) (other : TokenId) :
    Covers made id deadline nowMs (m.dropExpired nowMs other) :=
  covers.congr (covers.once.dropExpired other) fun _ later =>
    Memory.live?_dropExpired later other id

theorem delete (covers : Covers made id deadline nowMs m) (apart : other ≠ id) :
    Covers made id deadline nowMs (m.delete other) := by
  refine covers.congr (covers.once.delete other) ?_
  intro t _
  rw [Memory.live?_delete, if_neg apart]

/-- A record of the identifier that is written now. -/
theorem of_put (once : m.Nodup) (describes : Describes made id nowMs r)
    (restarts : deadline ≤ Memory.deadline nowMs ttl) :
    Covers made id deadline nowMs (m.put nowMs id (Fields.ofRecord r) ttl) where
  once := once.put id _ ttl
  held := by
    refine ⟨r, _, describes, restarts, ?_⟩
    intro t later
    rw [Memory.live?_put once later, if_pos rfl]

theorem put (covers : Covers made id deadline nowMs m)
    (fits : other = id → Describes made id nowMs r)
    (restarts : deadline ≤ Memory.deadline nowMs ttl) :
    Covers made id deadline nowMs (m.put nowMs other (Fields.ofRecord r) ttl) := by
  by_cases same : other = id
  · rw [same]
    exact of_put covers.once (fits same) restarts
  · refine covers.congr (covers.once.put other _ ttl) ?_
    intro t later
    rw [Memory.live?_put covers.once later, if_neg same]

theorem setAccessed (covers : Covers made id deadline nowMs m) {accessed : Int}
    (now : other = id → accessed = nowMs ∧ Numeral.isWritable nowMs)
    (restarts : deadline ≤ Memory.deadline nowMs ttl) :
    Covers made id deadline nowMs (m.setAccessed nowMs other accessed ttl) := by
  by_cases same : other = id
  · obtain ⟨rfl, writable⟩ := now same
    subst same
    obtain ⟨r, last, describes, far, shown⟩ := covers.held
    have here := shown accessed le_rfl
    by_cases kept : accessed < last
    · rw [if_pos kept] at here
      refine ⟨covers.once.setAccessed other _ ttl, _, _, describes.withAccessed writable, restarts,
        ?_⟩
      intro t later
      rw [Memory.live?_setAccessed later, if_pos rfl, here, Option.map_some, Fields.set_accessed]
    · rw [if_neg kept] at here
      rw [Memory.setAccessed_of_gone here]
      exact covers.dropExpired other
  · refine covers.congr (covers.once.setAccessed other _ ttl) ?_
    intro t later
    rw [Memory.live?_setAccessed later, if_neg same]

end Covers

section Store

variable (restarts : deadline ≤ Memory.deadline nowMs ttl)
include restarts

theorem ensures_put (fits : other = id → Fields.fault? r = none → Describes made id nowMs r) :
    Action.Ensures (Covers made id deadline nowMs) (Memory.store.put nowMs other r ttl)
      fun _ => True := by
  intro w covers
  cases fault : Fields.fault? r with
  | some cause =>
      rw [Memory.run_put_unwritable fault]
      exact ⟨covers.sweep, fun _ _ => trivial⟩
  | none =>
      rw [Memory.run_put fault]
      exact ⟨covers.put (fun same => fits same fault) restarts, fun _ _ => trivial⟩

theorem ensures_setAccessed {accessed : Int}
    (now : other = id → accessed = nowMs ∧ Numeral.isWritable nowMs) :
    Action.Ensures (Covers made id deadline nowMs)
      (Memory.store.setAccessed nowMs other accessed ttl) fun _ => True := by
  have written : Action.Ensures (Covers made id deadline nowMs)
      (.onStore fun m => ((), m.setAccessed nowMs other accessed ttl)) fun _ => True :=
    Action.preserves_onStore fun m covers => covers.setAccessed now restarts
  simp only [Memory.store]
  refine (Action.preserves_onStore fun m covers => covers).bind ?_
  intro held _
  split
  · exact (Action.ensures_fail (Q := fun _ => True) _).bind fun _ _ => written
  · exact written

end Store

/-- What is read for the identifier describes it. -/
theorem ensures_get (other : TokenId) :
    Action.Ensures (Covers made id deadline nowMs) (Memory.store.get nowMs other)
      fun found => other = id → ∀ r, found = some r → Describes made id nowMs r := by
  have read : Action.Ensures (Covers made id deadline nowMs)
      (.onStore fun m => (m.live? nowMs other, m.dropExpired nowMs other))
      fun held => other = id → ∀ fields, held = some fields →
        ∃ r, fields = Fields.ofRecord r ∧ Describes made id nowMs r := by
    apply Action.ensures_onStore
    intro m covers
    refine ⟨covers.dropExpired other, ?_⟩
    rintro rfl fields live
    obtain ⟨r, last, describes, -, shown⟩ := covers.held
    rw [shown nowMs le_rfl] at live
    split at live
    · exact ⟨r, (Option.some.inj live).symm, describes⟩
    · cases live
  simp only [Memory.store]
  refine read.bind ?_
  intro held kept
  cases held with
  | none =>
      apply Action.ensures_pure
      intro _ r absent
      cases absent
  | some fields =>
      apply Action.ensures_ofReading
      · intro _ r absent
        cases absent
      · intro reading parsed same r found
        obtain ⟨r', rfl, describes⟩ := kept same fields rfl
        rw [Fields.toRecord_ofRecord describes.persistable] at parsed
        cases parsed
        cases found
        exact describes.reread

section Uses

variable {v : Verifier} {d : Decoded} {token : Presented}
  (restarts : deadline ≤ Memory.deadline nowMs v.policy.retentionSeconds)
  (writable : Numeral.isWritable nowMs)

theorem ensures_resolve {P : Memory → Prop} (v : Verifier) (nowMs : Int) (token : Presented) :
    Action.Ensures P (v.resolve nowMs token) fun _ => True := by
  rw [Verifier.resolve]
  cases v.verdict nowMs token with
  | ok d => exact Action.ensures_pure trivial
  | error cause => exact (Action.ensures_emit _).bind fun _ _ => Action.ensures_fail _

theorem ensures_ifUsable {P : Memory → Prop} {α : Type} {a : Action Memory α} {Q : α → Prop}
    (strict : Action.Ensures P a Q) : Action.Ensures P (ifUsable a) fun _ => True := by
  refine (strict.map some).recover ?_
  intro e
  cases e with
  | rejected cause => exact Action.ensures_pure trivial
  | notFound id => exact Action.ensures_pure trivial
  | _ => exact Action.ensures_fail _

theorem ensures_fetch (v : Verifier) (d : Decoded) :
    Action.Ensures (Covers made id deadline nowMs) (v.inMemory.fetch nowMs d)
      fun r => d.id = id → Describes made id nowMs r := by
  refine (ensures_get d.id).bind ?_
  intro found kept
  cases found with
  | none => exact (Action.ensures_emit _).bind fun _ _ => Action.ensures_fail _
  | some r => exact Action.ensures_pure fun same => kept same r rfl

include restarts

theorem ensures_create {entropy : Entropy} {grant : Grant}
    (given : TokenId.generate nowMs entropy = id → made grant) (past : id.timestampMs ≤ nowMs)
    (kind : Kind) :
    Action.Ensures (Covers made id deadline nowMs) (v.inMemory.create nowMs entropy kind grant)
      fun _ => True := by
  generalize new : TokenId.generate nowMs entropy = other at given
  have fits (same : other = id) (writable : Fields.fault? (grant.record other) = none) :
      Describes made id nowMs (grant.record other) := by
    subst same
    have kept := Grant.isPersistable_record writable
    exact ⟨grant, other.timestampMs, given rfl, past, Grant.keeps_record kept rfl⟩
  have written := ensures_put restarts fits
  rw [create_eq _ new, Verifier.inMemory_store, Verifier.inMemory_toVerifier]
  refine written.bind ?_
  intro _ _
  exact (Action.ensures_emit _).bind fun _ _ => Action.ensures_ofExcept _ _

include writable

theorem ensures_lookup :
    Action.Ensures (Covers made id deadline nowMs) (v.inMemory.lookup nowMs token)
      fun _ => True := by
  apply ensures_ifUsable (Q := fun _ => True)
  refine (ensures_resolve v nowMs token).bind fun d _ => (ensures_fetch v d).bind ?_
  intro r describes
  have now (same : d.id = id) :
      (r.markAccessed nowMs).accessed = nowMs ∧ Numeral.isWritable nowMs := by
    rw [(describes same).markAccessed_eq]
    exact ⟨rfl, writable⟩
  have noted : Action.Ensures (Covers made id deadline nowMs)
      (v.inMemory.noteAccess nowMs d.id (r.markAccessed nowMs).accessed) fun _ => True := by
    refine (ensures_setAccessed restarts now).recover ?_
    intro e
    cases e with
    | store cause => exact Action.ensures_emit _
    | _ => exact Action.ensures_fail _
  exact noted.bind fun _ _ => Action.ensures_pure trivial

theorem ensures_touch :
    Action.Ensures (Covers made id deadline nowMs) (v.inMemory.touch nowMs token)
      fun _ => True := by
  have strict : Action.Ensures (Covers made id deadline nowMs) (v.inMemory.touchStrict nowMs token)
      fun _ => True :=
    (ensures_resolve v nowMs token).bind fun d _ =>
      (ensures_setAccessed restarts fun _ => ⟨rfl, writable⟩).bind fun _ _ => Action.ensures_emit _
  refine (strict.map _).recover ?_
  intro e
  cases e with
  | rejected cause => exact Action.ensures_pure trivial
  | _ => exact Action.ensures_fail _

theorem ensures_refresh :
    Action.Ensures (Covers made id deadline nowMs) (v.inMemory.refresh nowMs token)
      fun _ => True := by
  apply ensures_ifUsable (Q := fun _ => True)
  refine (ensures_resolve v nowMs token).bind fun d _ => (ensures_fetch v d).bind ?_
  intro r describes
  have again (same : d.id = id) (_ : Fields.fault? (r.markAccessed nowMs) = none) :
      Describes made id nowMs (r.markAccessed nowMs) := by
    rw [(describes same).markAccessed_eq]
    exact (describes same).withAccessed writable
  refine (ensures_put restarts again).bind fun _ _ => (Action.ensures_emit _).bind fun _ _ => ?_
  have encoded : Action.Ensures (Covers made id deadline nowMs)
      (Action.ofExcept .expiryOverflow (v.codec.encode .access d.id (v.policy.ttlFor .access)))
      fun _ => True := Action.ensures_ofExcept _ _
  dsimp only
  split
  · exact (Action.ensures_emit _).bind fun _ _ => encoded
  · exact encoded

theorem ensures_perform (use : Use) (past : id.timestampMs ≤ nowMs)
    (given : ∀ entropy kind grant, use = .create entropy kind grant →
      TokenId.generate nowMs entropy = id → made grant) :
    Action.Ensures (Covers made id deadline nowMs) (use.perform v.inMemory nowMs)
      fun _ => True := by
  cases use with
  | create entropy kind grant =>
      exact (ensures_create restarts (given entropy kind grant rfl) past kind).map _
  | lookup token => exact (ensures_lookup restarts writable).map _
  | touch token => exact (ensures_touch restarts writable).map _
  | refresh token => exact (ensures_refresh restarts writable).map _
  | inspect token => exact (ensures_resolve v nowMs token).map _

end Uses

end BearerToken.Service
