import Mathlib
import BearerToken.Proofs.Table
import BearerToken.Store.Memory

/-!
# What the store in memory shows

A read shows what is live. Each operation is described by what is live after it, at its own time or
any later one: a removal of entries past their deadline does not show, whichever operation makes it.
-/

namespace BearerToken.Memory

variable {m : Memory} {nowMs t : Int}

/-- Each identifier has one entry at most. -/
def Nodup (m : Memory) : Prop := m.entries.Nodup

/-- What is past its deadline stays past it. -/
theorem isLive_of_le {e : Entry} (later : nowMs ≤ t) (live : e.isLive t) : e.isLive nowMs := by
  simp only [Entry.isLive, decide_eq_true_eq] at live ⊢
  omega

/-- Removing what is past its deadline at a time does not show at any later one. -/
theorem filter_filter_isLive (later : nowMs ≤ t) (found : Option Entry) :
    (found.filter (·.isLive nowMs)).filter (·.isLive t) = found.filter (·.isLive t) := by
  cases found with
  | none => rfl
  | some e =>
      by_cases live : e.isLive t
      · simp [Option.filter, live, isLive_of_le later live]
      · by_cases before : e.isLive nowMs
        · simp [Option.filter, before]
        · simp [Option.filter, live, before]

theorem live?_eq_none_of_le {id : TokenId} (later : nowMs ≤ t) (gone : m.live? nowMs id = none) :
    m.live? t id = none := by
  rw [live?, Option.map_eq_none_iff, Option.filter_eq_none_iff] at gone ⊢
  intro e held live
  exact gone e held (isLive_of_le later live)

theorem nodup_empty : empty.Nodup := Table.nodup_empty

theorem Nodup.purge (once : m.Nodup) : (m.purge nowMs).Nodup := once.keep _

theorem Nodup.sweep (once : m.Nodup) : (m.sweep nowMs).Nodup := by
  rw [Memory.sweep]
  split
  · exact once.purge
  · exact once

theorem Nodup.put (once : m.Nodup) (id : TokenId) (fields : Fields) (ttl : Int) :
    (m.put nowMs id fields ttl).Nodup :=
  once.sweep.set _ _

theorem Nodup.delete (once : m.Nodup) (id : TokenId) : (m.delete id).Nodup := once.erase id

theorem Nodup.dropExpired (once : m.Nodup) (id : TokenId) : (m.dropExpired nowMs id).Nodup := by
  rw [Memory.dropExpired]
  split
  · exact once.delete id
  · exact once

theorem Nodup.setAccessed (once : m.Nodup) (id : TokenId) (accessed ttl : Int) :
    (m.setAccessed nowMs id accessed ttl).Nodup := by
  rw [Memory.setAccessed]
  split
  · exact once.dropExpired id
  · exact once.set _ _

/-- A sweep leaves of each entry what is live, or leaves all as it is. -/
theorem get?_sweep (once : m.Nodup) (id : TokenId) :
    (m.sweep nowMs).entries.get? id =
      if m.nextPurge ≤ nowMs then (m.entries.get? id).filter (·.isLive nowMs)
      else m.entries.get? id := by
  rw [sweep]
  split
  · exact Table.get?_keep once _ id
  · rfl

theorem get?_dropExpired (m : Memory) (nowMs : Int) (id other : TokenId) :
    (m.dropExpired nowMs id).entries.get? other =
      if id = other then (m.entries.get? id).filter (·.isLive nowMs)
      else m.entries.get? other := by
  by_cases expired : (m.entries.get? id).any (!·.isLive nowMs)
  · rw [dropExpired, if_pos expired, delete, Table.get?_erase]
    split
    · symm
      rw [Option.filter_eq_none_iff]
      intro e held
      simpa [held] using expired
    · rfl
  · rw [dropExpired, if_neg expired]
    split
    · next same =>
      subst same
      cases held : m.entries.get? id with
      | none => rfl
      | some e =>
          have live : e.isLive nowMs := by simpa [held] using expired
          simp [Option.filter, live]
    · rfl

@[simp] theorem live?_empty (t : Int) (id : TokenId) : empty.live? t id = none := rfl

theorem live?_purge (once : m.Nodup) (later : nowMs ≤ t) (id : TokenId) :
    (m.purge nowMs).live? t id = m.live? t id := by
  rw [live?, purge, Table.get?_keep once, filter_filter_isLive later, live?]

theorem live?_sweep (once : m.Nodup) (later : nowMs ≤ t) (id : TokenId) :
    (m.sweep nowMs).live? t id = m.live? t id := by
  rw [sweep]
  split
  · exact live?_purge once later id
  · rfl

/-- What is live once a table is written at an identifier. -/
theorem live?_set (m : Memory) (id other : TokenId) (e : Entry) (t : Int) :
    Memory.live? { m with entries := m.entries.set id e } t other =
      if id = other then if e.isLive t then some e.fields else none else m.live? t other := by
  simp only [live?, Table.get?_set]
  split
  · by_cases live : e.isLive t
    · simp [Option.filter, live]
    · simp [Option.filter, live]
  · rfl

theorem live?_put (once : m.Nodup) (later : nowMs ≤ t) (id other : TokenId) (fields : Fields)
    (ttl : Int) :
    (m.put nowMs id fields ttl).live? t other =
      if id = other then if t < deadline nowMs ttl then some fields else none
      else m.live? t other := by
  rw [put, live?_set, live?_sweep once later]
  simp [Entry.isLive]

theorem live?_delete (m : Memory) (id other : TokenId) (t : Int) :
    (m.delete id).live? t other = if id = other then none else m.live? t other := by
  simp only [live?, delete, Table.get?_erase]
  split
  · rfl
  · rfl

/-- Removing an entry past its deadline does not show. -/
theorem live?_dropExpired (later : nowMs ≤ t) (id other : TokenId) :
    (m.dropExpired nowMs id).live? t other = m.live? t other := by
  rw [live?, get?_dropExpired, live?]
  split
  · next same => rw [filter_filter_isLive later, same]
  · rfl

theorem setAccessed_of_live {id : TokenId} {fields : Fields} (live : m.live? nowMs id = some fields)
    (accessed ttl : Int) :
    m.setAccessed nowMs id accessed ttl =
      let noted := fields.set Fields.accessedField (Numeral.write accessed)
      { m with entries := m.entries.set id ⟨noted, deadline nowMs ttl⟩ } := by
  rw [setAccessed, live]

theorem setAccessed_of_gone {id : TokenId} (gone : m.live? nowMs id = none) (accessed ttl : Int) :
    m.setAccessed nowMs id accessed ttl = m.dropExpired nowMs id := by
  rw [setAccessed, gone]

theorem get?_setAccessed {id : TokenId} {fields : Fields} (live : m.live? nowMs id = some fields)
    (accessed ttl : Int) (other : TokenId) :
    (m.setAccessed nowMs id accessed ttl).entries.get? other =
      if id = other then
        some ⟨fields.set Fields.accessedField (Numeral.write accessed), deadline nowMs ttl⟩
      else m.entries.get? other := by
  rw [setAccessed_of_live live]
  exact Table.get?_set _ _ _ _

/-- A change of the time of access restarts the retention of what is live, and does nothing else
that shows. -/
theorem live?_setAccessed (later : nowMs ≤ t) (id other : TokenId) (accessed ttl : Int) :
    (m.setAccessed nowMs id accessed ttl).live? t other =
      if id = other then
        if t < deadline nowMs ttl then
          (m.live? nowMs id).map (·.set Fields.accessedField (Numeral.write accessed))
        else none
      else m.live? t other := by
  cases live : m.live? nowMs id with
  | none =>
      rw [setAccessed_of_gone live, live?_dropExpired later]
      split
      · next same =>
        rw [← same, live?_eq_none_of_le later live]
        simp
      · rfl
  | some fields =>
      rw [setAccessed_of_live live, live?_set]
      simp [Entry.isLive]

/-- Every entry is before its deadline. -/
def Within (m : Memory) (nowMs : Int) : Prop := ∀ e ∈ m.entries.entries, e.2.isLive nowMs

instance (m : Memory) (nowMs : Int) : Decidable (m.Within nowMs) :=
  inferInstanceAs (Decidable (∀ e ∈ m.entries.entries, e.2.isLive nowMs))

theorem Within.filter_get? (within : m.Within nowMs) (id : TokenId) :
    (m.entries.get? id).filter (·.isLive nowMs) = m.entries.get? id := by
  cases held : m.entries.get? id with
  | none => rfl
  | some e =>
      have live : e.isLive nowMs := within (id, e) (Table.mem_of_get? held)
      simp [Option.filter, live]

/-- Nothing is past its deadline, so a read sees all. -/
theorem Within.live?_eq (within : m.Within nowMs) (id : TokenId) :
    m.live? nowMs id = (m.entries.get? id).map Entry.fields := by
  rw [live?, within.filter_get?]

theorem Within.get?_sweep (within : m.Within nowMs) (once : m.Nodup) (id : TokenId) :
    (m.sweep nowMs).entries.get? id = m.entries.get? id := by
  rw [Memory.get?_sweep once, within.filter_get?, ite_self]

theorem Within.get?_put (within : m.Within nowMs) (once : m.Nodup) (id other : TokenId)
    (fields : Fields) (ttl : Int) :
    (m.put nowMs id fields ttl).entries.get? other =
      if id = other then some ⟨fields, deadline nowMs ttl⟩ else m.entries.get? other := by
  rw [Memory.put, Table.get?_set, within.get?_sweep once]

theorem Within.dropExpired_eq (within : m.Within nowMs) (id : TokenId) :
    m.dropExpired nowMs id = m := by
  apply if_neg
  cases held : m.entries.get? id with
  | none => simp
  | some e =>
      have live : e.isLive nowMs := within (id, e) (Table.mem_of_get? held)
      simp [live]

end BearerToken.Memory
