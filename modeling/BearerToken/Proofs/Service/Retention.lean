import Mathlib
import BearerToken.Proofs.Service.Session
import BearerToken.Proofs.Store.Memory
import BearerToken.Proofs.TokenId.Time

/-!
# What is kept for a session

The store of a session shows, from the time of the last turn on, a record for just those identifiers
whose standing says that theirs is kept, and that record says what the standing says. Every operation
of the store preserves this, and every turn is put together from such operations.
-/

namespace BearerToken.Service

variable {p : Policy} {m m' : Memory} {nowMs t : Int} {id : TokenId} {r : Record}

namespace Standing

variable {s : Standing}

theorem used_of_kept (kept : s.isKept p nowMs) : s.used p nowMs = { s with last := nowMs } := by
  rw [used, if_pos kept]

theorem isKept_iff : s.isKept p t ↔ t < Memory.deadline s.last p.retentionSeconds :=
  decide_eq_true_iff

/-- A record as a store keeps it for an identifier with this standing. -/
structure Keeps (s : Standing) (id : TokenId) (r : Record) : Prop where
  persistable : Fields.IsPersistable r
  same : (Fields.reread r).normal = s.record id s.last

namespace Keeps

theorem accessed_eq (keeps : s.Keeps id r) : r.accessed = s.last :=
  congrArg Record.accessed keeps.same

/-- A change of the time of access in the record is a use. -/
theorem withAccessed (keeps : s.Keeps id r) (writable : Numeral.isWritable nowMs) :
    Keeps { s with last := nowMs } id { r with accessed := nowMs } where
  persistable := keeps.persistable.withAccessed writable
  same := congrArg (fun r : Record => { r with accessed := nowMs }) keeps.same

/-- An access that is not before the last use changes the time of access and nothing else. -/
theorem normal_markAccessed (keeps : s.Keeps id r) (past : s.last ≤ t) :
    ((Fields.reread r).markAccessed t).normal = s.record id t := by
  have latest : max r.accessed t = t := max_eq_right (keeps.accessed_eq.trans_le past)
  calc ((Fields.reread r).markAccessed t).normal
      = { (Fields.reread r).normal with accessed := max r.accessed t } := rfl
    _ = { s.record id s.last with accessed := t } := by rw [keeps.same, latest]
    _ = s.record id t := rfl

theorem reread (keeps : s.Keeps id r) : s.Keeps id (Fields.reread r) where
  persistable := keeps.persistable.reread
  same := (Fields.normal_reread_reread r).trans keeps.same

end Keeps

end Standing

/-- What a store shows of an identifier from a time on, by the identifier's standing. -/
def Shows (p : Policy) (m : Memory) (nowMs : Int) (id : TokenId) : Option Standing → Prop
  | none => ∀ t, nowMs ≤ t → m.live? t id = none
  | some s => s.last ≤ nowMs ∧ ∃ r, s.Keeps id r ∧
      ∀ t, nowMs ≤ t → m.live? t id = if s.isKept p t then some (Fields.ofRecord r) else none

namespace Shows

variable {x : Option Standing}

theorem congr (shows : Shows p m nowMs id x)
    (same : ∀ t, nowMs ≤ t → m'.live? t id = m.live? t id) : Shows p m' nowMs id x := by
  cases x with
  | none =>
      intro t later
      rw [same t later, shows t later]
  | some s =>
      obtain ⟨past, r, keeps, held⟩ := shows
      refine ⟨past, r, keeps, ?_⟩
      intro t later
      rw [same t later, held t later]

theorem mono (shows : Shows p m nowMs id x) (later : nowMs ≤ t) : Shows p m t id x := by
  cases x with
  | none =>
      intro u after
      exact shows u (later.trans after)
  | some s =>
      obtain ⟨past, r, keeps, held⟩ := shows
      refine ⟨past.trans later, r, keeps, ?_⟩
      intro u after
      exact held u (later.trans after)

/-- What a read can find: nothing while nothing is kept, else a record as it is kept. -/
theorem read (shows : Shows p m nowMs id x) :
    (m.live? nowMs id = none ∧ x.filter (·.isKept p nowMs) = none) ∨
      ∃ s r, x = some s ∧ s.isKept p nowMs ∧ s.last ≤ nowMs ∧ s.Keeps id r ∧
        m.live? nowMs id = some (Fields.ofRecord r) := by
  cases x with
  | none => exact .inl ⟨shows nowMs le_rfl, rfl⟩
  | some s =>
      obtain ⟨past, r, keeps, held⟩ := shows
      have now := held nowMs le_rfl
      by_cases kept : s.isKept p nowMs
      · rw [if_pos kept] at now
        exact .inr ⟨s, r, rfl, kept, past, keeps, now⟩
      · rw [if_neg kept] at now
        exact .inl ⟨now, by simp [Option.filter, kept]⟩

end Shows

theorem map_used_of_gone {x : Option Standing} (gone : x.filter (·.isKept p nowMs) = none) :
    x.map (·.used p nowMs) = x := by
  cases x with
  | none => rfl
  | some s =>
      rw [Option.filter_eq_none_iff] at gone
      rw [Option.map_some, Standing.used, if_neg (gone s rfl)]

/-- What is kept for every identifier agrees with its standing. -/
structure Sound (p : Policy) (m : Memory) (standing : TokenId → Option Standing) (nowMs : Int) :
    Prop where
  once : m.Nodup
  shows : ∀ id, Shows p m nowMs id (standing id)

namespace Sound

variable {standing : TokenId → Option Standing}

theorem empty (p : Policy) (nowMs : Int) : Sound p Memory.empty (fun _ => none) nowMs where
  once := Memory.nodup_empty
  shows id t _ := Memory.live?_empty t id

theorem mono (sound : Sound p m standing nowMs) (later : nowMs ≤ t) : Sound p m standing t where
  once := sound.once
  shows id := (sound.shows id).mono later

theorem sweep (sound : Sound p m standing nowMs) : Sound p (m.sweep nowMs) standing nowMs where
  once := sound.once.sweep
  shows id := (sound.shows id).congr fun _ later => Memory.live?_sweep sound.once later id

theorem dropExpired (sound : Sound p m standing nowMs) (id : TokenId) :
    Sound p (m.dropExpired nowMs id) standing nowMs where
  once := sound.once.dropExpired id
  shows other := (sound.shows other).congr fun _ later => Memory.live?_dropExpired later id other

/-- Writing a record restarts its retention. -/
theorem put (sound : Sound p m standing nowMs) {s : Standing} (keeps : s.Keeps id r)
    (now : s.last = nowMs) :
    Sound p (m.put nowMs id (Fields.ofRecord r) p.retentionSeconds)
      (Function.update standing id (some s)) nowMs where
  once := sound.once.put id _ _
  shows other := by
    by_cases same : other = id
    · subst same
      rw [Function.update_self]
      refine ⟨now.le, r, keeps, ?_⟩
      intro t later
      rw [Memory.live?_put sound.once later, if_pos rfl, ← now]
      exact if_congr Standing.isKept_iff.symm rfl rfl
    · rw [Function.update_of_ne same]
      apply (sound.shows other).congr
      intro t later
      rw [Memory.live?_put sound.once later, if_neg (Ne.symm same)]

/-- Noting an access restarts the retention of a record that is kept. -/
theorem setAccessed (sound : Sound p m standing nowMs) (writable : Numeral.isWritable nowMs)
    (id : TokenId) :
    Sound p (m.setAccessed nowMs id nowMs p.retentionSeconds)
      (Function.update standing id ((standing id).map (·.used p nowMs))) nowMs where
  once := sound.once.setAccessed id _ _
  shows other := by
    by_cases same : other = id
    · subst same
      rw [Function.update_self]
      obtain ⟨nothing, gone⟩ | ⟨s, r, standing_eq, kept, -, keeps, live⟩ := (sound.shows other).read
      · rw [map_used_of_gone gone]
        apply (sound.shows other).congr
        intro t later
        rw [Memory.setAccessed_of_gone nothing, Memory.live?_dropExpired later]
      · rw [standing_eq, Option.map_some, Standing.used_of_kept kept]
        refine ⟨le_rfl, _, keeps.withAccessed writable, ?_⟩
        intro t later
        rw [Memory.live?_setAccessed later, if_pos rfl, live, Option.map_some,
          Fields.set_accessed]
        have kept_iff := Standing.isKept_iff (p := p) (t := t) (s := { s with last := nowMs })
        exact if_congr kept_iff.symm rfl rfl
    · rw [Function.update_of_ne same]
      apply (sound.shows other).congr
      intro t later
      rw [Memory.live?_setAccessed later, if_neg (Ne.symm same)]

section Uses

variable {v : Verifier} {w : World Memory} {token : Presented} {d : Decoded}

theorem lookup (sound : Sound v.policy w.store standing nowMs)
    (writable : Numeral.isWritable nowMs) (accepted : v.verdict nowMs token = .ok d) :
    Sound v.policy ((v.inMemory.lookup nowMs token).run w).2.store
      (Function.update standing d.id ((standing d.id).map (·.used v.policy nowMs))) nowMs := by
  obtain ⟨nothing, -⟩ | ⟨s, r, -, -, past, keeps, live⟩ := (sound.shows d.id).read
  · rw [run_lookup_gone accepted nothing]
    change Sound _ (w.store.dropExpired nowMs d.id) _ _
    rw [← Memory.setAccessed_of_gone nothing nowMs v.policy.retentionSeconds]
    exact sound.setAccessed writable d.id
  · have latest : max r.accessed nowMs = nowMs := max_eq_right (keeps.accessed_eq.trans_le past)
    rw [run_lookup_live accepted live keeps.persistable (by rwa [latest]), latest]
    exact (sound.dropExpired d.id).setAccessed writable d.id

theorem touch (sound : Sound v.policy w.store standing nowMs)
    (writable : Numeral.isWritable nowMs) (accepted : v.verdict nowMs token = .ok d) :
    Sound v.policy ((v.inMemory.touch nowMs token).run w).2.store
      (Function.update standing d.id ((standing d.id).map (·.used v.policy nowMs))) nowMs := by
  rw [run_touch_accepted accepted writable]
  exact sound.setAccessed writable d.id

/-- A refresh writes what it has read, so the record comes back as it was up to the order of its
state's members. -/
theorem refresh (sound : Sound v.policy w.store standing nowMs)
    (writable : Numeral.isWritable nowMs) (accepted : v.verdict nowMs token = .ok d) :
    Sound v.policy ((v.inMemory.refresh nowMs token).run w).2.store
      (Function.update standing d.id ((standing d.id).map (·.used v.policy nowMs))) nowMs := by
  obtain ⟨nothing, -⟩ | ⟨s, r, found, kept, past, keeps, live⟩ := (sound.shows d.id).read
  · rw [run_refresh_gone accepted nothing]
    change Sound _ (w.store.dropExpired nowMs d.id) _ _
    rw [← Memory.setAccessed_of_gone nothing nowMs v.policy.retentionSeconds]
    exact sound.setAccessed writable d.id
  · have latest : max r.accessed nowMs = nowMs := max_eq_right (keeps.accessed_eq.trans_le past)
    have again : (Fields.reread r).markAccessed nowMs =
        { Fields.reread r with accessed := nowMs } :=
      congrArg (fun n => { Fields.reread r with accessed := n }) latest
    have noted : Numeral.isWritable (max r.accessed nowMs) := by
      rw [latest]
      exact writable
    rw [store_refresh_live accepted live keeps.persistable noted, again, found, Option.map_some,
      Standing.used_of_kept kept]
    exact (sound.dropExpired d.id).put (keeps.reread.withAccessed writable) rfl

end Uses

end Sound

end BearerToken.Service
