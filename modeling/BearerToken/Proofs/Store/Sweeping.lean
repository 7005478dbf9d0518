import Mathlib
import BearerToken.Proofs.Store.Ledger

/-!
# What the store in memory holds

An entry past its deadline stays in the table until something removes it, so the table could grow
without bound if nobody read it. It does not: a write leaves no entry whose deadline is longer past
than one interval between sweeps. The sweeps are set by the writes alone, while other calls move
deadlines, so what carries over from call to call is a bound that the next sweep's time puts on every
deadline. Nor does a sweep go too far: what is live goes only when it is told to.
-/

namespace BearerToken

namespace Shelf

/-- The retention that a call starts. -/
def Call.ttl? : Call → Option Int
  | .put _ _ ttlSeconds | .setAccessed _ _ ttlSeconds => some ttlSeconds
  | .get _ | .delete _ | .count => none

/-- The identifier that a call writes at. -/
def Call.written? : Call → Option TokenId
  | .put id _ _ | .setAccessed id _ _ => some id
  | .get _ | .delete _ | .count => none

def Call.isPut : Call → Bool
  | .put _ _ _ => true
  | _ => false

variable {σ : Type}

/-- The world that turns leave. -/
def after (s : Shelf σ) : List Turn → World σ → World σ
  | [], w => w
  | turn :: rest, w => s.after rest ((s.perform turn.nowMs turn.call).run w).2

theorem after_concat (s : Shelf σ) (turns : List Turn) (turn : Turn) (w : World σ) :
    s.after (turns ++ [turn]) w =
      ((s.perform turn.nowMs turn.call).run (s.after turns w)).2 := by
  induction turns generalizing w with
  | nil => rfl
  | cons first rest ih => exact ih _

end Shelf

namespace Memory

variable {m m' : Memory} {nowMs t : Int} {call : Shelf.Call}

/-- What a call makes of the content of a store. -/
inductive Stepped (nowMs : Int) (m : Memory) : Shelf.Call → Memory → Prop
  | put (id : TokenId) (record : Record) (fields : Fields) (ttl : Int) :
      Stepped nowMs m (.put id record ttl) (m.put nowMs id fields ttl)
  /-- The record cannot be written, which is found out after the sweep. -/
  | sweep (id : TokenId) (record : Record) (ttl : Int) :
      Stepped nowMs m (.put id record ttl) (m.sweep nowMs)
  | get (id : TokenId) : Stepped nowMs m (.get id) (m.dropExpired nowMs id)
  | setAccessed (id : TokenId) (accessed ttl : Int) :
      Stepped nowMs m (.setAccessed id accessed ttl) (m.setAccessed nowMs id accessed ttl)
  /-- The time of access cannot be written. -/
  | refuse (id : TokenId) (accessed ttl : Int) : Stepped nowMs m (.setAccessed id accessed ttl) m
  | delete (id : TokenId) : Stepped nowMs m (.delete id) (m.delete id)
  | count : Stepped nowMs m .count (m.purge nowMs)

theorem stepped_perform (nowMs : Int) (call : Shelf.Call) (w : World Memory) :
    Stepped nowMs w.store call ((shelf.perform nowMs call).run w).2.store := by
  cases call with
  | put id record ttl =>
      rw [Shelf.perform, Action.world_map]
      simp only [shelf, store]
      cases Fields.persist record with
      | ok fields => exact .put id record fields ttl
      | error cause => exact .sweep id record ttl
  | get id =>
      rw [Shelf.perform, Action.world_map]
      simp only [shelf, store]
      rw [Action.run_bind_ok (Action.run_onStore _ _)]
      cases w.store.live? nowMs id with
      | none => exact .get id
      | some fields =>
          obtain ⟨result, told, -, reads⟩ := Action.exists_run_ofReading fields.toRecord
          change Stepped nowMs w.store (.get id) ((Action.ofReading fields.toRecord).run _).2.store
          rw [reads]
          exact .get id
  | setAccessed id accessed ttl =>
      rw [Shelf.perform, Action.world_map]
      simp only [shelf, store]
      rw [Action.run_bind_ok (Action.run_onStore _ _)]
      dsimp only
      split
      · exact .refuse id accessed ttl
      · exact .setAccessed id accessed ttl
  | delete id => exact .delete id
  | count => exact .count

theorem mem_of_mem_purge {e : TokenId × Entry} (member : e ∈ (m.purge nowMs).entries.entries) :
    e ∈ m.entries.entries :=
  List.mem_of_mem_filter member

theorem isLive_of_mem_purge {e : TokenId × Entry}
    (member : e ∈ (m.purge nowMs).entries.entries) : nowMs < e.2.deadline := by
  simpa [Entry.isLive] using List.of_mem_filter member

theorem mem_of_mem_delete {id : TokenId} {e : TokenId × Entry}
    (member : e ∈ (m.delete id).entries.entries) : e ∈ m.entries.entries :=
  List.mem_of_mem_filter member

theorem mem_of_mem_dropExpired {id : TokenId} {e : TokenId × Entry}
    (member : e ∈ (m.dropExpired nowMs id).entries.entries) : e ∈ m.entries.entries := by
  rw [dropExpired] at member
  split at member
  · exact mem_of_mem_delete member
  · exact member

theorem nextPurge_dropExpired (m : Memory) (nowMs : Int) (id : TokenId) :
    (m.dropExpired nowMs id).nextPurge = m.nextPurge := by
  rw [dropExpired]
  split
  · rfl
  · rfl

/-- A bound on the deadlines by the time of the next sweep: the last sweep, one interval before that,
left nothing past its deadline, and no deadline has been set in the past since. The first sweep
finds nothing to bound. -/
structure Scheduled (nowMs : Int) (m : Memory) : Prop where
  once : m.Nodup
  soon : m.nextPurge ≤ nowMs + purgeInterval
  bound : ∀ e ∈ m.entries.entries, m.nextPurge ≤ e.2.deadline + purgeInterval

namespace Scheduled

theorem empty (future : 0 ≤ nowMs) : Scheduled nowMs .empty where
  once := nodup_empty
  soon := future.trans (Int.le_add_of_nonneg_right (by decide))
  bound := nofun

theorem mono (scheduled : Scheduled nowMs m) (later : nowMs ≤ t) : Scheduled t m where
  once := scheduled.once
  soon := scheduled.soon.trans (Int.add_le_add_right later _)
  bound := scheduled.bound

/-- Removing entries keeps the bound. -/
theorem of_subset (scheduled : Scheduled nowMs m) (once : m'.Nodup)
    (same : m'.nextPurge = m.nextPurge) (fewer : ∀ e ∈ m'.entries.entries, e ∈ m.entries.entries) :
    Scheduled nowMs m' where
  once
  soon := same ▸ scheduled.soon
  bound e member := same ▸ scheduled.bound e (fewer e member)

theorem sweep (scheduled : Scheduled nowMs m) : Scheduled nowMs (m.sweep nowMs) := by
  rw [Memory.sweep]
  split
  · refine ⟨scheduled.once.purge, le_rfl, ?_⟩
    intro e member
    exact Int.add_le_add_right (isLive_of_mem_purge member).le _
  · exact scheduled

/-- A deadline that is set from now on is within the bound, since the next sweep is soon. -/
theorem set (scheduled : Scheduled nowMs m) (id : TokenId) (fields : Fields) {ttl : Int}
    (lasting : 0 ≤ ttl) :
    Scheduled nowMs { m with entries := m.entries.set id ⟨fields, deadline nowMs ttl⟩ } where
  once := scheduled.once.set _ _
  soon := scheduled.soon
  bound e member := by
    obtain rfl | inside := Table.mem_insertAt member
    · have soon := scheduled.soon
      simp only [deadline]
      omega
    · exact scheduled.bound e inside

theorem setAccessed (scheduled : Scheduled nowMs m) (id : TokenId) (accessed : Int) {ttl : Int}
    (lasting : 0 ≤ ttl) : Scheduled nowMs (m.setAccessed nowMs id accessed ttl) := by
  cases live : m.live? nowMs id with
  | none =>
      rw [setAccessed_of_gone live]
      exact scheduled.of_subset (scheduled.once.dropExpired id) (nextPurge_dropExpired m nowMs id)
        fun _ => mem_of_mem_dropExpired
  | some fields =>
      rw [setAccessed_of_live live]
      exact scheduled.set id _ lasting

/-- Every call keeps the bound. -/
theorem step (scheduled : Scheduled nowMs m) (lasting : ∀ ttl ∈ call.ttl?, 0 ≤ ttl)
    (stepped : Stepped nowMs m call m') : Scheduled nowMs m' := by
  cases stepped with
  | put id record fields ttl => exact scheduled.sweep.set id fields (lasting ttl rfl)
  | sweep id record ttl => exact scheduled.sweep
  | get id =>
      exact scheduled.of_subset (scheduled.once.dropExpired id) (nextPurge_dropExpired m nowMs id)
        fun _ => mem_of_mem_dropExpired
  | setAccessed id accessed ttl => exact scheduled.setAccessed id accessed (lasting ttl rfl)
  | refuse id accessed ttl => exact scheduled
  | delete id => exact scheduled.of_subset (scheduled.once.delete id) rfl fun _ => mem_of_mem_delete
  | count => exact scheduled.of_subset scheduled.once.purge rfl fun _ => mem_of_mem_purge

/-- The bound holds after any turns. -/
theorem run {turns : List Shelf.Turn} {w : World Memory} (scheduled : Scheduled nowMs w.store)
    (ordered : turns.Pairwise (·.nowMs ≤ ·.nowMs)) (since : ∀ turn ∈ turns, nowMs ≤ turn.nowMs)
    (lasting : ∀ turn ∈ turns, ∀ ttl ∈ turn.call.ttl?, 0 ≤ ttl)
    (later : ∀ turn ∈ turns, turn.nowMs ≤ t) (now : nowMs ≤ t) :
    Scheduled t (shelf.after turns w).store := by
  -- Each turn starts where the one before it ended, in time as in content.
  induction turns generalizing nowMs w with
  | nil => exact scheduled.mono now
  | cons turn rest ih =>
      rw [List.pairwise_cons] at ordered
      rw [List.forall_mem_cons] at since lasting later
      have stepped := stepped_perform turn.nowMs turn.call w
      exact ih ((scheduled.mono since.1).step lasting.1 stepped) ordered.2 ordered.1 lasting.2
        later.2 later.1

end Scheduled

/-- A write sets the next sweep to a time that is still to come. -/
theorem lt_nextPurge_sweep (m : Memory) (nowMs : Int) : nowMs < (m.sweep nowMs).nextPurge := by
  rw [sweep]
  split
  · exact Int.lt_add_of_pos_right _ (by decide)
  · next ahead => exact not_le.mp ahead

theorem lt_nextPurge_of_put (stepped : Stepped nowMs m call m') (writes : call.isPut) :
    nowMs < m'.nextPurge := by
  cases stepped with
  | put id record fields ttl => exact lt_nextPurge_sweep m nowMs
  | sweep id record ttl => exact lt_nextPurge_sweep m nowMs
  | _ => cases writes

section Live

variable {id : TokenId} {e : Entry} (held : m.entries.get? id = some e) (live : nowMs < e.deadline)

include held live

theorem get?_sweep_of_live (once : m.Nodup) : (m.sweep nowMs).entries.get? id = some e := by
  rw [get?_sweep once, held]
  simp [Entry.isLive, live]

theorem get?_dropExpired_of_live (other : TokenId) :
    (m.dropExpired nowMs other).entries.get? id = some e := by
  rw [get?_dropExpired]
  split
  · next same =>
    rw [same, held]
    simp [Entry.isLive, live]
  · exact held

/-- What is live stays: as it was, or with what the call writes there. -/
theorem exists_of_stepped (once : m.Nodup) (stepped : Stepped nowMs m call m')
    (other : call ≠ .delete id) :
    ∃ e', m'.entries.get? id = some e' ∧ (call.written? ≠ some id → e' = e) := by
  cases stepped with
  | put there record fields ttl =>
      by_cases here : there = id
      · subst here
        exact ⟨_, Table.get?_set_self _ _ _, fun elsewhere => (elsewhere rfl).elim⟩
      · rw [put, Table.get?_set_of_ne _ here]
        exact ⟨e, get?_sweep_of_live held live once, fun _ => rfl⟩
  | sweep there record ttl => exact ⟨e, get?_sweep_of_live held live once, fun _ => rfl⟩
  | get there => exact ⟨e, get?_dropExpired_of_live held live there, fun _ => rfl⟩
  | setAccessed there accessed ttl =>
      cases found : m.live? nowMs there with
      | none =>
          rw [setAccessed_of_gone found]
          exact ⟨e, get?_dropExpired_of_live held live there, fun _ => rfl⟩
      | some fields =>
          rw [get?_setAccessed found]
          split
          · next here => exact ⟨_, rfl, fun elsewhere => (elsewhere (congrArg _ here)).elim⟩
          · exact ⟨e, held, fun _ => rfl⟩
  | refuse there accessed ttl => exact ⟨e, held, fun _ => rfl⟩
  | delete there =>
      have apart : there ≠ id := fun same => other (congrArg _ same)
      rw [delete, Table.get?_erase, if_neg apart]
      exact ⟨e, held, fun _ => rfl⟩
  | count =>
      rw [purge, Table.get?_keep once, held]
      exact ⟨e, by simp [Entry.isLive, live], fun _ => rfl⟩

end Live

/-- What a turn leaves of the content that it finds: nothing that is long past its deadline if it is a
write, and all that is live unless it is told to remove it. -/
structure Leaves (turn : Shelf.Turn) (m m' : Memory) : Prop where
  recent : turn.call.isPut → ∀ e ∈ m'.entries.entries, turn.nowMs - purgeInterval < e.2.deadline
  kept : ∀ id e, m.entries.get? id = some e → turn.nowMs < e.deadline → turn.call ≠ .delete id →
    ∃ e', m'.entries.get? id = some e' ∧ (turn.call.written? ≠ some id → e' = e)

variable {turns : List Shelf.Turn} {turn : Shelf.Turn}

/-- In any turns on a new store, at times from zero on that do not go back and with no retention
below zero, a write leaves no entry whose deadline is an interval past, and nothing removes an entry
before its deadline but the order to remove it. -/
theorem leaves_after (ordered : (turns ++ [turn]).Pairwise (·.nowMs ≤ ·.nowMs))
    (since : ∀ made ∈ turns ++ [turn], 0 ≤ made.nowMs)
    (lasting : ∀ made ∈ turns ++ [turn], ∀ ttl ∈ made.call.ttl?, 0 ≤ ttl) :
    Leaves turn (shelf.after turns ⟨.empty, []⟩).store
      (shelf.after (turns ++ [turn]) ⟨.empty, []⟩).store := by
  obtain ⟨before, -, last⟩ := List.pairwise_append.mp ordered
  obtain ⟨since, now⟩ := List.forall_mem_append.mp since
  obtain ⟨lasting, lasts⟩ := List.forall_mem_append.mp lasting
  have scheduled : Scheduled turn.nowMs (shelf.after turns ⟨.empty, []⟩).store :=
    (Scheduled.empty le_rfl).run before since lasting
      (fun earlier inside => last earlier inside turn List.mem_cons_self)
      (now turn List.mem_cons_self)
  have stepped := stepped_perform turn.nowMs turn.call (shelf.after turns ⟨.empty, []⟩)
  rw [Shelf.after_concat]
  constructor
  -- After a write the next sweep is still to come, and the bound compares every deadline with it.
  · intro writes e member
    have ahead := lt_nextPurge_of_put stepped writes
    have bound := (scheduled.step (lasts turn List.mem_cons_self) stepped).bound e member
    omega
  · intro id e held live other
    exact exists_of_stepped held live scheduled.once stepped other

/-- An entry that was past its deadline from the start is held for less than an interval; one that is
used is held on. -/
theorem leaves_after_interval :
    let id (n : Nat) : TokenId := TokenId.generate n ⟨0, 0⟩
    let r (n : Nat) : Record := .issued (id n) none none .emptyObject
    let turns : List Shelf.Turn :=
      [⟨0, .put (id 0) (r 0) 0⟩, ⟨1, .put (id 1) (r 1) 60⟩, ⟨30000, .setAccessed (id 1) 30000 60⟩]
    let write (nowMs : Int) : Shelf.Turn := ⟨nowMs, .put (id 2) (r 2) 1⟩
    let left (nowMs : Int) : Memory := (shelf.after (turns ++ [write nowMs]) ⟨.empty, []⟩).store
    let deadlines (m : Memory) : List Int := m.entries.entries.map (·.2.deadline)
    (turns ++ [write 59999]).Pairwise (·.nowMs ≤ ·.nowMs) ∧
      (∀ made ∈ turns ++ [write 59999], 0 ≤ made.nowMs) ∧
      (∀ made ∈ turns ++ [write 59999], ∀ ttl ∈ made.call.ttl?, 0 ≤ ttl) ∧
      Leaves (write 59999) (shelf.after turns ⟨.empty, []⟩).store (left 59999) ∧
      deadlines (left 59999) = [0, 90000, 60999] ∧ deadlines (left 60000) = [90000, 61000] := by
  intro id r turns write left deadlines
  have ordered : (turns ++ [write 59999]).Pairwise (·.nowMs ≤ ·.nowMs) := by decide
  have since : ∀ made ∈ turns ++ [write 59999], 0 ≤ made.nowMs := by decide
  have lasting : ∀ made ∈ turns ++ [write 59999], ∀ ttl ∈ made.call.ttl?, 0 ≤ ttl := by
    simp [turns, write, Shelf.Call.ttl?]
  exact ⟨ordered, since, lasting, leaves_after ordered since lasting, by decide +kernel,
    by decide +kernel⟩

end Memory

end BearerToken
