import Mathlib
import BearerToken.Proofs.Record.Rereading
import BearerToken.Proofs.Service.Renewal
import BearerToken.Proofs.Store.Namespaces

/-!
# Records that a refresh writes again

A refresh reads a record and writes it again with its access noted, whoever wrote it first. On a
server it lays the record over the fields that it was read from. What can be read before can be read
after, and it is the same record but for the time of access and the state, which comes back as any
state does that is written and read. A refresh that cannot write the record fails and leaves it as
it is.
-/

namespace BearerToken

theorem Action.exists_run_ofReading_some {σ : Type} (reading : Reading) (w : World σ) :
    ∃ log, (ofReading (.ok (some reading))).run w =
      (.ok (some reading.record), { w with events := log }) := by
  rw [ofReading]
  cases reading.unknownPrincipal with
  | none => exact ⟨_, rfl⟩
  | some name => exact ⟨_, rfl⟩

theorem Fields.exists_texts_of_ofCells {cells : List (Cell × Cell)} {fields : Fields}
    (reads : ofCells cells = .ok fields) :
    ∀ e ∈ (Table.ofList (cells.map fun e => (e.1.key, e.2))).entries,
      (∃ t, e.1.toText = .ok t) ∧ ∃ t, e.2.toText = .ok t := by
  obtain ⟨entries, texts, -⟩ := exists_of_bind_eq_ok reads
  intro e member
  obtain ⟨_, done⟩ := exists_of_mapM_eq_ok texts e member
  obtain ⟨t, key, done⟩ := exists_of_bind_eq_ok done
  obtain ⟨t', value, -⟩ := exists_of_bind_eq_ok done
  exact ⟨⟨t, key⟩, t', value⟩

namespace HashServer

variable {s : HashServer} {k t t' : Text} {fields : Fields}

theorem key_cell (s : HashServer) (t : Text) : (s.cell t).key = s.cell t := by
  rw [cell]
  split
  · cases t.toString? with
    | none => rfl
    | some string => rfl
  · rfl

theorem conveys_of_toText (reads : (s.cell t).toText = .ok t') : s.Conveys t := by
  intro bytes
  rw [cell, bytes] at reads
  cases string : t.toString? with
  | none =>
      rw [string] at reads
      cases reads
  | some string => rfl

theorem keys_cellsAt (s : HashServer) (k : Text) :
    (s.cellsAt k).map (fun e => (e.1.key, e.2)) = s.cellsAt k := by
  rw [cellsAt, List.map_map]
  exact List.map_congr_left fun e _ => congrArg (·, s.cell e.2) (s.key_cell e.1)

/-- Keys that can be handed back stay apart. -/
theorem nodup_cellsAt (once : (s.fieldsAt k).Nodup)
    (conveys : ∀ e ∈ (s.fieldsAt k).entries, s.Conveys e.1) :
    ((s.cellsAt k).map Prod.fst).Nodup := by
  have names : ((s.cellsAt k).map Prod.fst).map Cell.toText =
      ((s.fieldsAt k).entries.map Prod.fst).map Except.ok := by
    rw [cellsAt, List.map_map, List.map_map, List.map_map]
    exact List.map_congr_left fun e member => (conveys e member).holds_cell.toText_eq
  apply List.Nodup.of_map Cell.toText
  rw [names]
  exact List.Nodup.map (fun _ _ => Except.ok.inj) once

/-- Where all fields under a key are read, the client could hand each of them back. -/
theorem conveys_of_ofCells (once : (s.fieldsAt k).Nodup)
    (reads : Fields.ofCells (s.cellsAt k) = .ok fields) :
    ∀ e ∈ (s.fieldsAt k).entries, s.Conveys e.1 ∧ s.Conveys e.2 := by
  have read := Fields.exists_texts_of_ofCells reads
  rw [keys_cellsAt] at read
  -- No key gets lost on the way, so all keys are texts; then no entry gives way to another.
  have keys (e) (member : e ∈ (s.fieldsAt k).entries) : s.Conveys e.1 := by
    have listed : s.cell e.1 ∈ (s.cellsAt k).map Prod.fst := by
      rw [cellsAt, List.map_map]
      exact List.mem_map_of_mem (f := fun e : Text × Text => s.cell e.1) member
    obtain ⟨e', inside, same⟩ := List.mem_map.mp (Table.mem_keys_ofList listed)
    obtain ⟨t, text⟩ := (read e' inside).1
    exact conveys_of_toText (same ▸ text)
  rw [Table.ofList_entries (nodup_cellsAt once keys), cellsAt, List.forall_mem_map] at read
  intro e member
  obtain ⟨t, text⟩ := (read e member).2
  exact ⟨keys e member, conveys_of_toText text⟩

theorem fieldsAt_write (s : HashServer) (k : Text) (fields : Fields) :
    (s.write k fields).fieldsAt k = (s.fieldsAt k).merge fields :=
  fieldsAt_of_some ((get?_write s k k fields).trans (if_pos rfl))

/-- A record is read back where it is laid over fields that a record with its label and its
principal was read from. -/
theorem recordOfCells_write {reading : Reading} {r : Record} (once : (s.fieldsAt k).Nodup)
    (reads : Fields.recordOfCells (s.cellsAt k) = .ok (some reading))
    (label : r.label = reading.record.label) (principal : r.principal = reading.record.principal)
    (kept : Fields.IsPersistable r) :
    Fields.recordOfCells ((s.write k (Fields.ofRecord r)).cellsAt k) =
      .ok (some ⟨Fields.reread r, reading.unknownPrincipal⟩) := by
  obtain ⟨fields, texts, reads⟩ := exists_of_bind_eq_ok reads
  have conveys := conveys_of_ofCells once texts
  obtain rfl : s.fieldsAt k = fields :=
    Except.ok.inj (((holds_cellsAt_of_conveys conveys).ofCells_eq once).symm.trans texts)
  obtain ⟨typed, -, named⟩ := Fields.parts_of_toRecord reads
  have listed := Table.mem_of_get? (Option.filter_eq_some_iff.mp typed).1
  have labelled : s.Conveys r.label := label ▸ (conveys _ listed).2
  have conveys' : ∀ e ∈ ((s.write k (Fields.ofRecord r)).fieldsAt k).entries,
      s.Conveys e.1 ∧ s.Conveys e.2 := by
    intro e member
    rw [fieldsAt_write] at member
    obtain before | written := Table.mem_of_mem_merge member
    · exact conveys e before
    · exact conveys_ofRecord labelled e written
  have holds := holds_cellsAt_of_conveys (s := s.write k (Fields.ofRecord r)) conveys'
  rw [holds.recordOfCells_eq (by rw [fieldsAt_write]; exact once.merge _), fieldsAt_write]
  exact Fields.toRecord_merge kept (principal ▸ named)

end HashServer

namespace Memory

variable {m : Memory} {w : World Memory} {nowMs : Int} {id : TokenId} {fields : Fields}
  {reading : Reading}

theorem run_get_read (live : w.store.live? nowMs id = some fields)
    (reads : fields.toRecord = .ok (some reading)) :
    ∃ log, (store.get nowMs id).run w =
      (.ok (some reading.record), ⟨w.store.dropExpired nowMs id, log⟩) := by
  obtain ⟨log, given⟩ := Action.exists_run_ofReading_some (σ := Memory) reading
    { w with store := w.store.dropExpired nowMs id }
  refine ⟨log, ?_⟩
  simp only [store]
  rw [Action.run_bind_ok (Action.run_onStore _ _)]
  simp only [live, reads]
  exact given

/-- What is live is in the table after a read and a sweep at the time. -/
theorem get?_sweep_dropExpired (once : m.Nodup) {e : Entry}
    (live : (m.entries.get? id).filter (·.isLive nowMs) = some e) :
    ((m.dropExpired nowMs id).sweep nowMs).entries.get? id = some e := by
  rw [get?_sweep (once.dropExpired id), get?_dropExpired, if_pos rfl,
    filter_filter_isLive le_rfl, live, ite_self]

end Memory

namespace Remote

variable {ns : Text} {id : TokenId} {reading : Reading} {w : World HashServer}

/-- A read of a key fails with an error of the store, or gives the record that is there. -/
theorem run_get_read (nowMs : Int)
    (reads : Fields.recordOfCells (w.store.cellsAt (key ns id)) = .ok (some reading)) :
    ∃ x log, ((store ns).get nowMs id).run w =
        (x, ⟨w.store.heard [.fetch (key ns id)], log⟩) ∧
      (x = .ok (some reading.record) ∨ ∃ cause, x = .error (.store cause)) := by
  simp only [store]
  have fetched := fetch_eq (key ns id) w.store
  cases fails : w.store.faults.get? "hgetall" with
  | some fault =>
      rw [fails] at fetched
      rw [Action.run_bind_ok (run_attempt fetched)]
      exact ⟨_, _, rfl, .inr ⟨_, rfl⟩⟩
  | none =>
      rw [fails] at fetched
      rw [Action.run_bind_ok (run_attempt fetched)]
      cases cells : w.store.cellsAt (key ns id) with
      | nil =>
          rw [cells] at reads
          cases reads
      | cons cell rest =>
          rw [cells] at reads
          obtain ⟨log, given⟩ := Action.exists_run_ofReading_some (σ := HashServer) reading
            { w with store := w.store.heard [.fetch (key ns id)] }
          refine ⟨_, log, ?_, .inl rfl⟩
          simp only [reads]
          exact given

/-- A write fails and has made some calls only, or lays the fields of a record that can be written
over what is there. -/
theorem run_put_cases (ns : Text) (nowMs : Int) (id : TokenId) (r : Record) (ttl : Int)
    (w : World HashServer) :
    (∃ e sent log, ((store ns).put nowMs id r ttl).run w = (.error e, ⟨w.store.heard sent, log⟩) ∧
      (∀ cause, e ≠ .rejected cause) ∧ ∀ id, e ≠ .notFound id) ∨
    Fields.fault? r = none ∧ ∃ calls, ((store ns).put nowMs id r ttl).run w =
      (.ok (), { w with
        store := (w.store.heard calls).write (key ns id) (Fields.ofRecord r) }) := by
  cases fault : Fields.fault? r with
  | some cause =>
      have runs : Runs w _ .write id (((store ns).put nowMs id r ttl).run w) _ :=
        runs_put_unfit fault w nowMs id ttl
      rw [Runs] at runs
      split at runs
      · exact .inl ⟨_, _, _, runs, by simp, by simp⟩
      · exact .inl ⟨_, _, _, runs, by simp, by simp⟩
  | none =>
      have runs : Runs w _ .write id (((store ns).put nowMs id r ttl).run w) _ :=
        runs_put_fit fault w nowMs id ttl
      simp only [Runs] at runs
      split at runs
      · exact .inl ⟨_, _, _, runs, by simp, by simp⟩
      · exact .inr ⟨rfl, _, runs⟩

end Remote

namespace Service

/-- What a refresh makes of a record that can be read: it fails and leaves the record, or it writes
it as any record is that is written and read, with the access noted. -/
inductive Rewrites (nowMs : Int) (reading : Reading) :
    Except Failure (Option String) → Except RecordError (Option Reading) → Prop
  | kept (e : Failure) : Rewrites nowMs reading (.error e) (.ok (some reading))
  | written (result : Except Failure (Option String)) {unknown : Option Text}
      (named : unknown = reading.unknownPrincipal ∨ unknown = none) :
      Rewrites nowMs reading result (.ok (some
        ⟨{ Fields.reread reading.record with accessed := max reading.record.accessed nowMs },
          unknown⟩))

section Refresh

variable {σ : Type} {s : Service σ} {nowMs : Int} {token : Presented} {d : Decoded} {r : Record}
  {w held kept : World σ}

/-- Once its record has been read a refresh leaves the store as the write of the record does. -/
theorem store_refresh_read (accepted : s.verdict nowMs token = .ok d)
    (read : (s.store.get nowMs d.id).run w = (.ok (some r), held))
    (written : (s.store.put nowMs d.id (r.markAccessed nowMs) s.policy.retentionSeconds).run held =
      (.ok (), kept)) :
    ((s.refresh nowMs token).run w).2.store = kept.store := by
  have stepped : (s.refreshStrict nowMs token).run w = (s.renew nowMs nowMs d r).run held :=
    (Action.run_bind_ok (Verifier.run_resolve_ok accepted w)).trans
      (Action.run_bind_ok (fetch_of_some read))
  rw [refresh, world_ifUsable, stepped, run_renew written, Action.world_ofExcept]

theorem refresh_of_unwritten {e : Failure} (accepted : s.verdict nowMs token = .ok d)
    (read : (s.store.get nowMs d.id).run w = (.ok (some r), held))
    (failed : (s.store.put nowMs d.id (r.markAccessed nowMs) s.policy.retentionSeconds).run held =
      (.error e, kept))
    (honoured : ∀ cause, e ≠ .rejected cause) (found : ∀ id, e ≠ .notFound id) :
    (s.refresh nowMs token).run w = (.error e, kept) :=
  run_ifUsable_failed ((Action.run_bind_ok (Verifier.run_resolve_ok accepted w)).trans
    ((Action.run_bind_ok (fetch_of_some read)).trans (Action.run_bind_error failed))) honoured found

end Refresh

section Stores

variable {v : Verifier} {ns : Text} {nowMs : Int} {token : Presented} {d : Decoded}
  {reading : Reading} (accepted : v.verdict nowMs token = .ok d)
include accepted

theorem rewrites_onServer {w : World HashServer}
    (once : (w.store.fieldsAt (Remote.key ns d.id)).Nodup)
    (reads : Fields.recordOfCells (w.store.cellsAt (Remote.key ns d.id)) = .ok (some reading)) :
    let made := ((v.onServer ns).refresh nowMs token).run w
    Rewrites nowMs reading made.1
      (Fields.recordOfCells (made.2.store.cellsAt (Remote.key ns d.id))) := by
  intro made
  have accepted : (v.onServer ns).verdict nowMs token = .ok d := accepted
  obtain ⟨x, log, read, rfl | ⟨cause, rfl⟩⟩ := Remote.run_get_read nowMs reads
  · obtain ⟨e, sent, log', failed, honoured, found⟩ | ⟨writable, calls, written⟩ :=
      Remote.run_put_cases ns nowMs d.id (reading.record.markAccessed nowMs)
        v.policy.retentionSeconds ⟨w.store.heard [.fetch (Remote.key ns d.id)], log⟩
    · have failed : made = _ := refresh_of_unwritten accepted read failed honoured found
      rw [failed]
      exact reads ▸ .kept e
    · have kept : Fields.IsPersistable (reading.record.markAccessed nowMs) :=
        ⟨(Fields.isRead_of_recordOfCells reads).choose_spec.labelled, writable⟩
      let s := (w.store.heard [.fetch (Remote.key ns d.id)]).heard calls
      let r := reading.record.markAccessed nowMs
      have store : made.2.store = s.write (Remote.key ns d.id) (Fields.ofRecord r) :=
        store_refresh_read accepted read written
      rw [store, HashServer.recordOfCells_write (s := s) (r := r) once reads rfl rfl kept]
      exact .written _ (.inl rfl)
  · have failed : made = _ := refresh_of_failed accepted read nofun nofun
    rw [failed]
    exact reads ▸ .kept _

theorem rewrites_inMemory {w : World Memory} {fields : Fields} (once : w.store.Nodup)
    (live : w.store.live? nowMs d.id = some fields)
    (reads : fields.toRecord = .ok (some reading)) :
    let made := (v.inMemory.refresh nowMs token).run w
    ∃ e, made.2.store.entries.get? d.id = some e ∧
      Rewrites nowMs reading made.1 e.fields.toRecord := by
  intro made
  have accepted : v.inMemory.verdict nowMs token = .ok d := accepted
  obtain ⟨log, read⟩ := Memory.run_get_read live reads
  cases fault : Fields.fault? (reading.record.markAccessed nowMs) with
  | none =>
      have kept : Fields.IsPersistable (reading.record.markAccessed nowMs) :=
        ⟨(Fields.isRead_of_toRecord reads).labelled, fault⟩
      have store : made.2.store = _ :=
        store_refresh_read accepted read (Memory.run_put fault v.policy.retentionSeconds)
      rw [store]
      refine ⟨_, Table.get?_set_self _ _ _, ?_⟩
      rw [Fields.toRecord_ofRecord kept]
      exact .written _ (.inr rfl)
  | some cause =>
      have failed : made = _ := refresh_of_unwritten accepted read
        (Memory.run_put_unwritable fault v.policy.retentionSeconds) nofun nofun
      obtain ⟨e, held, rfl⟩ := Option.map_eq_some_iff.mp live
      rw [failed]
      exact ⟨e, Memory.get?_sweep_dropExpired once held, reads ▸ .kept _⟩

end Stores

/-- A record that can be read, whoever wrote it, can be written, and is read from that as it was but
for its state. The state is as it was, up to the order of members, just if it counts as nothing only
as the empty object and no halves of a pair stand side by side in it; texts of characters give no
such halves. From then on it stays as it is. So a refresh that writes the record again keeps it as
any writing does, and notes the access. -/
theorem rewrites_of_read :
    (∀ [Limits] (cells : List (Cell × Cell)) (reading : Reading), 0 < Limits.depth →
      Fields.recordOfCells cells = .ok (some reading) → Fields.Rereads cells reading.record) ∧
    ∀ (v : Verifier) (nowMs : Int) (token : Presented) (d : Decoded) (reading : Reading),
      v.verdict nowMs token = .ok d →
      (∀ (ns : Text) (w : World HashServer), (w.store.fieldsAt (Remote.key ns d.id)).Nodup →
        Fields.recordOfCells (w.store.cellsAt (Remote.key ns d.id)) = .ok (some reading) →
        let made := ((v.onServer ns).refresh nowMs token).run w
        Rewrites nowMs reading made.1
          (Fields.recordOfCells (made.2.store.cellsAt (Remote.key ns d.id)))) ∧
      ∀ (w : World Memory) (fields : Fields), w.store.Nodup →
        w.store.live? nowMs d.id = some fields → fields.toRecord = .ok (some reading) →
        let made := (v.inMemory.refresh nowMs token).run w
        ∃ e, made.2.store.entries.get? d.id = some e ∧
          Rewrites nowMs reading made.1 e.fields.toRecord := by
  refine ⟨fun cells reading room => Fields.rereads_of_read room, ?_⟩
  intro v nowMs token d reading accepted
  exact ⟨fun ns w => rewrites_onServer accepted, fun w fields => rewrites_inMemory accepted⟩

/-- Fields as another writer may leave them, with a field of its own. -/
theorem rewrites_of_read_foreign :
    let signature : Bytes := List.replicate 20 0
    let digests : Digests :=
      ⟨fun _ => signature, fun _ _ => signature, fun _ => rfl, fun _ _ => rfl⟩
    let c : Codec := ⟨"s", by decide, .keyed, true, digests⟩
    let v : Verifier := ⟨c, .withOverrides (fun _ => none) none⟩
    let id : TokenId := .generate 5 ⟨0, 1⟩
    let token : Presented := .text (Codec.spell .access (c.payload .access id 86400005))
    let fields : Fields := ⟨[("type", "L"), ("uuid", id.canonical), ("created", " +1_0 "),
      ("accessed", "-٣"), ("other", "-"), ("principal", "ADMIN_USER"),
      ("entity", "urn:uuid:018BCFE5680071238123456789ABCDEF"), ("application", ""),
      ("state", "[ \"\\u0041\", -0 ]")]⟩
    let s : HashServer := { HashServer.empty with
      hashes := Table.empty.set (Remote.key "tokens" id) fields, givesBytes := true }
    let m : Memory := ⟨Table.empty.set id ⟨fields, 7⟩, 0⟩
    let made := ((v.onServer "tokens").refresh 6 token).run ⟨s, []⟩
    let made' := (v.inMemory.refresh 6 token).run ⟨m, []⟩
    made.1.toOption.map Option.isSome = some true ∧
      made'.1.toOption.map Option.isSome = some true ∧
      ∃ reading, Fields.recordOfCells (s.cellsAt (Remote.key "tokens" id)) = .ok (some reading) ∧
        fields.toRecord = .ok (some reading) ∧
        Fields.Rereads (s.cellsAt (Remote.key "tokens" id)) reading.record ∧
        Rewrites 6 reading made.1
          (Fields.recordOfCells (made.2.store.cellsAt (Remote.key "tokens" id))) ∧
        ∃ e, made'.2.store.entries.get? id = some e ∧
          Rewrites 6 reading made'.1 e.fields.toRecord := by
  intro signature digests c v id token fields s m
  have texts : Fields.ofCells (s.cellsAt (Remote.key "tokens" id)) = .ok fields := by
    decide +kernel
  have legible : fields.toRecord.toOption.join.any (fun _ => true) = true := by decide +kernel
  obtain ⟨reading, read, -⟩ := Fields.exists_of_any legible
  have cells : Fields.recordOfCells (s.cellsAt (Remote.key "tokens" id)) = .ok (some reading) :=
    (Fields.recordOfCells_of_ofCells texts).trans read
  have accepted : (v.verdict 6 token).map Decoded.id = .ok id := by decide +kernel
  obtain ⟨d, accepted, same⟩ := exists_of_map_eq_ok accepted
  have once : fields.Nodup := (by decide +kernel : (fields.entries.map Prod.fst).Nodup)
  have hash : (s.fieldsAt (Remote.key "tokens" id)).Nodup := by
    rw [HashServer.fieldsAt_of_some (Table.get?_set_self _ _ _)]
    exact once
  have live : m.live? 6 id = some fields := by decide +kernel
  obtain ⟨rereads, refreshes⟩ := rewrites_of_read
  obtain ⟨server, memory⟩ := refreshes v 6 token d reading accepted
  rw [same] at server memory
  exact ⟨by decide +kernel, by decide +kernel, reading, cells, read,
    rereads _ reading (by decide) cells, server "tokens" ⟨s, []⟩ hash cells,
    memory ⟨m, []⟩ fields (Table.nodup_empty.set id _) live read⟩

end Service

end BearerToken
