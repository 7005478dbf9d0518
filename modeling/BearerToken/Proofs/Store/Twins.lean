import Mathlib
import BearerToken.Proofs.Store.Upsert

/-!
# Two stores that hold the same

As long as nothing is past its deadline, the store in memory and the store on a server can hold the
same fields under each identifier, and each call of theirs keeps it so: both give the same and log
the same. One of them replaces a record and the other writes fields over fields. What makes them
agree is that a record is only ever written over one of the same principal.
-/

namespace BearerToken

/-- What a pair of stores has in common: the namespace on the server, whether it gives bytes, and the
principal of each identifier. -/
structure Pairing where
  ns : Text
  bytes : Bool
  owner : TokenId → Option Principal

namespace Pairing

/-- A record that both stores can keep at the identifier and give back. -/
structure Admits (c : Pairing) (id : TokenId) (r : Record) : Prop where
  kept : Fields.IsPersistable r
  owned : r.principal = c.owner id
  conveyed : c.bytes = true → r.label.toString?.isSome

/-- Both stores hold the same at the identifier, if anything a record that they can give back. -/
structure Match (c : Pairing) (id : TokenId) (x : Option Record) (m : Memory) (s : HashServer) :
    Prop where
  fields : (m.entries.get? id).map Entry.fields = x.map Fields.ofRecord
  remote : Remote.HoldsAt c.ns id c.bytes x s
  admits : ∀ r, x = some r → c.Admits id r

/-- Both stores hold the same at every identifier. -/
structure Twins (c : Pairing) (m : Memory) (s : HashServer) : Prop where
  once : m.Nodup
  calm : s.Calm
  gives : s.givesBytes = c.bytes
  holds : ∀ id, ∃ x, c.Match id x m s

/-- So they do, and nothing is past its deadline. -/
structure Current (c : Pairing) (nowMs : Int) (m : Memory) (s : HashServer) : Prop where
  twins : c.Twins m s
  within : m.Within nowMs

variable {c : Pairing} {id : TokenId} {r : Record} {m m' : Memory} {s : HashServer} {nowMs ttl : Int}

theorem Admits.reread (admits : c.Admits id r) : c.Admits id (Fields.reread r) :=
  ⟨admits.kept.reread, admits.owned, admits.conveyed⟩

theorem Admits.withAccessed (admits : c.Admits id r) {accessed : Int}
    (writable : Numeral.isWritable accessed) : c.Admits id { r with accessed := accessed } :=
  ⟨admits.kept.withAccessed writable, admits.owned, admits.conveyed⟩

namespace Twins

theorem fields_eq (twins : c.Twins m s) (id : TokenId) :
    (m.entries.get? id).map Entry.fields = s.hashes.get? (Remote.key c.ns id) := by
  obtain ⟨x, fields, holds, -⟩ := twins.holds id
  exact fields.trans holds.held.symm

/-- Calls that write nothing, and a sweep that removes nothing. -/
theorem heard (twins : c.Twins m s) (once : m'.Nodup)
    (same : ∀ id, m'.entries.get? id = m.entries.get? id) (calls : List Call) :
    c.Twins m' (s.heard calls) where
  once
  calm := twins.calm
  gives := twins.gives
  holds id := by
    obtain ⟨x, fields, holds, admits⟩ := twins.holds id
    exact ⟨x, by rw [same, fields], holds.heard calls, admits⟩

/-- Both stores come to hold a record at an identifier, and the rest as it was. -/
theorem write (twins : c.Twins m s) (once : m'.Nodup) {deadline : Int}
    (set : ∀ other, m'.entries.get? other =
      if id = other then some ⟨Fields.ofRecord r, deadline⟩ else m.entries.get? other)
    {fields : Fields} (merged : (s.fieldsAt (Remote.key c.ns id)).merge fields = Fields.ofRecord r)
    (admits : c.Admits id r) (calls : List Call) :
    c.Twins m' ((s.heard calls).write (Remote.key c.ns id) fields) where
  once
  calm := twins.calm
  gives := twins.gives
  holds other := by
    by_cases same : id = other
    · subst same
      obtain ⟨x, -, holds, -⟩ := twins.holds id
      refine ⟨some r, ?_, holds.write merged calls, ?_⟩
      · rw [set, if_pos rfl]
        rfl
      · intro r' found
        exact Option.some.inj found ▸ admits
    · obtain ⟨x, fields', holds, admits'⟩ := twins.holds other
      exact ⟨x, by rw [set, if_neg same, fields'], holds.write_other same calls fields, admits'⟩

/-- A record that is put replaces what either store held: what the server held was of the same
principal. -/
theorem put (current : c.Current nowMs m s) (admits : c.Admits id r) (ttl : Int)
    (calls : List Call) :
    c.Twins (m.put nowMs id (Fields.ofRecord r) ttl)
      ((s.heard calls).write (Remote.key c.ns id) (Fields.ofRecord r)) := by
  obtain ⟨twins, within⟩ := current
  obtain ⟨x, -, holds, admitted⟩ := twins.holds id
  have same : r.onto x = r := by
    apply Record.onto_eq_self
    rw [Principal.overlay_eq_self_iff]
    intro p before
    obtain ⟨r₀, rfl, had⟩ := Option.bind_eq_some_iff.mp before
    exact ⟨p, admits.owned.trans ((admitted r₀ rfl).owned.symm.trans had), fun has => has⟩
  have merged := Remote.merge_fieldsAt holds.held r
  rw [same] at merged
  exact twins.write (twins.once.put id _ ttl)
    (fun other => within.get?_put twins.once id other _ ttl) merged admits calls

theorem setAccessed (current : c.Current nowMs m s) (x : c.Match id (some r) m s) {accessed : Int}
    (writable : Numeral.isWritable accessed) (ttl : Int) (calls : List Call) :
    c.Twins (m.setAccessed nowMs id accessed ttl) ((s.heard calls).write (Remote.key c.ns id)
      ⟨[(Fields.accessedField, Numeral.write accessed)]⟩) := by
  obtain ⟨twins, within⟩ := current
  obtain ⟨fields, holds, admits⟩ := x
  have live : m.live? nowMs id = some (Fields.ofRecord r) := (within.live?_eq id).trans fields
  have merged : (s.fieldsAt (Remote.key c.ns id)).merge
      ⟨[(Fields.accessedField, Numeral.write accessed)]⟩ =
        Fields.ofRecord { r with accessed := accessed } := by
    rw [HashServer.fieldsAt_of_some holds.held, Fields.merge_noted]
  exact twins.write (twins.once.setAccessed id accessed ttl)
    (Memory.get?_setAccessed live accessed ttl) merged ((admits r rfl).withAccessed writable) calls

end Twins

theorem Current.heard (current : c.Current nowMs m s) (calls : List Call) :
    c.Current nowMs m (s.heard calls) :=
  ⟨current.twins.heard current.twins.once (fun _ => rfl) calls, current.within⟩

section Store

open BearerToken.Action (Alike)

theorem alike_put (nowMs : Int) (owned : r.principal = c.owner id) (labelled : r.label ≠ [])
    (conveyed : c.bytes = true → r.label.toString?.isSome) (ttl : Int) :
    Alike (c.Current nowMs) c.Twins (Memory.store.put nowMs id r ttl)
      ((Remote.store c.ns).put nowMs id r ttl) fun _ => True := by
  intro m s events current
  have twins := current.twins
  cases fault : Fields.fault? r with
  | none =>
      refine ⟨.ok (), _, _, events, Memory.run_put fault ttl, Remote.run_put twins.calm fault, ?_,
        fun _ _ => trivial⟩
      exact Twins.put current ⟨⟨labelled, fault⟩, owned, conveyed⟩ ttl _
  | some cause =>
      refine ⟨_, _, _, events, Memory.run_put_unwritable fault ttl,
        Remote.run_put_unwritable twins.calm fault, ?_, fun _ same => nomatch same⟩
      exact twins.heard twins.once.sweep (current.within.get?_sweep twins.once) _

theorem alike_get (nowMs : Int) (id : TokenId) :
    Alike (c.Current nowMs) (c.Current nowMs) (Memory.store.get nowMs id)
      ((Remote.store c.ns).get nowMs id) fun found => ∀ r, found = some r → c.Admits id r := by
  intro m s events current
  have twins := current.twins
  obtain ⟨x, fields, holds, admits⟩ := twins.holds id
  have live := (current.within.live?_eq id).trans fields
  have still : c.Current nowMs (m.dropExpired nowMs id)
      (s.heard [.fetch (Remote.key c.ns id)]) := by
    rw [current.within.dropExpired_eq]
    exact current.heard _
  cases x with
  | none =>
      exact ⟨.ok none, _, _, events, Memory.run_get_gone live,
        Remote.run_get_absent twins.calm holds.held, still, by simp⟩
  | some r =>
      have admits := admits r rfl
      have conveys : s.Conveys r.label := fun bytes => admits.conveyed (twins.gives.symm.trans bytes)
      refine ⟨.ok (some (Fields.reread r)), _, _, events, Memory.run_get_live live admits.kept,
        Remote.run_get_held twins.calm holds.held admits.kept conveys, still, ?_⟩
      rintro found same r' rfl
      have given := Option.some.inj (Except.ok.inj same)
      exact given ▸ admits.reread

theorem alike_setAccessed (nowMs : Int) (id : TokenId) (accessed ttl : Int) :
    Alike (c.Current nowMs) c.Twins (Memory.store.setAccessed nowMs id accessed ttl)
      ((Remote.store c.ns).setAccessed nowMs id accessed ttl) fun _ => True := by
  intro m s events current
  have twins := current.twins
  obtain ⟨x, fields, holds, admits⟩ := twins.holds id
  have live := (current.within.live?_eq id).trans fields
  cases x with
  | none =>
      refine ⟨.ok (), _, _, events, Memory.run_setAccessed_gone live accessed ttl,
        Remote.run_setAccessed_absent twins.calm holds.held, ?_, fun _ _ => trivial⟩
      rw [current.within.dropExpired_eq]
      exact (current.heard _).twins
  | some r =>
      cases writable : Numeral.isWritable accessed with
      | true =>
          refine ⟨.ok (), _, _, events, Memory.run_setAccessed writable _ nowMs id ttl,
            Remote.run_setAccessed_held twins.calm holds.held writable, ?_, fun _ _ => trivial⟩
          exact Twins.setAccessed current ⟨fields, holds, admits⟩ writable ttl _
      | false =>
          refine ⟨_, _, _, events, Memory.run_setAccessed_unwritable writable live ttl,
            Remote.run_setAccessed_unwritable twins.calm holds.held writable, ?_,
            fun _ same => nomatch same⟩
          exact (current.heard _).twins

end Store

end Pairing

end BearerToken
