import Mathlib
import BearerToken.Proofs.Record.Legible
import BearerToken.Proofs.Service.Lifetime
import BearerToken.Proofs.Service.Outcome
import BearerToken.Proofs.Store.Faults

/-!
# Corrupt contents

Others can write to a server of hashes, so a record is read from whatever there is under its key. If
that is corrupt, the read fails with what is wrong with it, which is no error of the store, and so
do a lookup and a refresh. They have no other such failure: a record that has been read can be
written again, and an access cannot be noted at a time that is past the lifetime of the token.
-/

namespace BearerToken

/-- On a server that gives texts, fields are corrupt if they are complete and not legible. -/
theorem HashServer.corrupt_cellsAt_iff {s : HashServer} {k : Text} (texts : s.givesBytes = false)
    (once : (s.fieldsAt k).Nodup) :
    Fields.Corrupt (s.cellsAt k) ↔ (s.fieldsAt k).IsComplete ∧ ¬(s.fieldsAt k).IsLegible := by
  have conveys (t : Text) : s.Conveys t := by simp [Conveys, texts]
  have holds : Fields.Holds (s.cellsAt k) (s.fieldsAt k).entries :=
    HashServer.holds_cellsAt_of_conveys fun e _ => ⟨conveys e.1, conveys e.2⟩
  have read : Fields.ofCells (s.cellsAt k) = .ok (s.fieldsAt k) := holds.ofCells_eq once
  rw [Fields.Corrupt, read]
  exact ⟨fun corrupt => corrupt _ rfl, fun corrupt fields same => Except.ok.inj same ▸ corrupt⟩

namespace Remote

variable {α β : Type} {ns k : Text} {nowMs ttl accessed : Int} {id : TokenId} {r : Record}
  {s : HashServer} {w : World HashServer} {e : Failure}

/-- What a read of a key gives. -/
inductive Read (s : HashServer) (k : Text) : Except Failure (Option Record) → Prop where
  | failed {fault : Fault} (fails : s.faults.get? (Call.fetch k).name = some fault) :
      Read s k (.error (.store (.read fault.message)))
  | corrupt {cause : RecordError} (reached : s.faults.get? (Call.fetch k).name = none)
      (unread : Fields.recordOfCells (s.cellsAt k) = .error cause) :
      Read s k (.error (.corrupt cause))
  | absent (sound : ¬Fields.Corrupt (s.cellsAt k)) : Read s k (.ok none)
  | found {fields : Fields} {r : Record} (sound : ¬Fields.Corrupt (s.cellsAt k))
      (read : Fields.IsRead fields r) : Read s k (.ok (some r))

theorem read_ofReading (reached : s.faults.get? (Call.fetch k).name = none)
    (w : World HashServer) :
    Read s k ((Action.ofReading (Fields.recordOfCells (s.cellsAt k))).run w).1 := by
  cases read : Fields.recordOfCells (s.cellsAt k) with
  | error cause => exact .corrupt reached read
  | ok found =>
      have sound : ¬Fields.Corrupt (s.cellsAt k) := by
        rw [← Fields.recordOfCells_eq_error_iff, read]
        simp
      cases found with
      | none => exact .absent sound
      | some reading =>
          obtain ⟨fields, made⟩ := Fields.isRead_of_recordOfCells read
          rw [Action.ofReading]
          cases reading.unknownPrincipal with
          | none => exact .found sound made
          | some name => exact .found sound made

theorem read_get (ns : Text) (nowMs : Int) (id : TokenId) (w : World HashServer) :
    Read w.store (key ns id) (((store ns).get nowMs id).run w).1 := by
  have makes : w.store.Makes (HashServer.fetch (key ns id)) [.fetch (key ns id)]
      fun s => (.ok (s.cellsAt (key ns id)), s) :=
    HashServer.makes_call (HashServer.makes_nil _ _)
  simp only [store]
  cases fails : w.store.faults.get? (Call.fetch (key ns id)).name with
  | some fault =>
      have cut : w.store.interruption? [.fetch (key ns id)] =
          some ([.fetch (key ns id)], fault) := by
        rw [HashServer.interruption?, fails]
      rw [Action.run_bind_ok (run_attempt (makes.of_fault cut))]
      exact .failed fails
  | none =>
      have whole : w.store.interruption? [.fetch (key ns id)] = none := by
        rw [HashServer.interruption?, fails]
        rfl
      rw [Action.run_bind_ok (run_attempt (makes.of_none whole))]
      have heard : (w.store.heard [.fetch (key ns id)]).cellsAt (key ns id) =
          w.store.cellsAt (key ns id) := rfl
      have reading := read_ofReading fails
      rw [heard]
      cases cells : w.store.cellsAt (key ns id) with
      | nil => exact .absent (by rw [cells]; exact Fields.not_corrupt_nil)
      | cons cell rest =>
          rw [cells] at reading
          exact reading _

theorem exists_read_get (ns : Text) (nowMs : Int) (id : TokenId) (w : World HashServer) :
    ∃ x w', ((store ns).get nowMs id).run w = (x, w') ∧ Read w.store (key ns id) x :=
  ⟨_, _, rfl, read_get ns nowMs id w⟩

/-- A call that reads a key can fail with an error of the store. It fails otherwise just if the read
is made and what is there is corrupt, and then with what is wrong with it. -/
structure Confined (s : HashServer) (k : Text) (result : Except Failure α) : Prop where
  failure : ∀ e, result = .error e → (∃ cause, e = .store cause) ∨
    ∃ cause, Fields.recordOfCells (s.cellsAt k) = .error cause ∧ e = .corrupt cause
  corrupt : (∃ cause, result = .error (.corrupt cause)) ↔
    s.faults.get? (Call.fetch k).name = none ∧ Fields.Corrupt (s.cellsAt k)

section Confined

variable {x : Option Record}

/-- A failed read is no verdict on a token. -/
theorem Read.not_token (read : Read s k (.error e)) :
    (∀ cause, e ≠ .rejected cause) ∧ ∀ id, e ≠ .notFound id := by
  cases read with
  | failed fails => exact ⟨nofun, nofun⟩
  | corrupt reached unread => exact ⟨nofun, nofun⟩

theorem Read.isRead (read : Read s k (.ok (some r))) : ∃ fields, Fields.IsRead fields r := by
  cases read with
  | found sound made => exact ⟨_, made⟩

theorem Read.not_corrupt (read : Read s k (.ok x)) : ¬Fields.Corrupt (s.cellsAt k) := by
  cases read with
  | absent sound => exact sound
  | found sound made => exact sound

/-- The failure of the read is that of the call. -/
theorem Read.confined_error (read : Read s k (.error e)) :
    Confined s k (.error e : Except Failure α) := by
  cases read with
  | @failed fault fails =>
      refine ⟨?_, by simp [fails]⟩
      intro e same
      cases same
      exact .inl ⟨_, rfl⟩
  | @corrupt cause reached unread =>
      have corrupt := Fields.recordOfCells_eq_error_iff.mp ⟨_, unread⟩
      refine ⟨?_, iff_of_true ⟨cause, rfl⟩ ⟨reached, corrupt⟩⟩
      intro e same
      cases same
      exact .inr ⟨cause, unread, rfl⟩

/-- After a read nothing is left that can fail but the store. -/
theorem Read.confined_ok (read : Read s k (.ok x)) {result : Except Failure α}
    (fails : ∀ e, result = .error e → ∃ cause, e = .store cause) : Confined s k result where
  failure e failed := .inl (fails e failed)
  corrupt := by
    refine iff_of_false ?_ fun shown => read.not_corrupt shown.2
    rintro ⟨cause, failed⟩
    obtain ⟨_, same⟩ := fails _ failed
    cases same

theorem confined_get (ns : Text) (nowMs : Int) (id : TokenId) (w : World HashServer) :
    Confined w.store (key ns id) (((store ns).get nowMs id).run w).1 := by
  obtain ⟨e | x, w', made, read⟩ := exists_read_get ns nowMs id w
  · rw [made]
    exact read.confined_error
  · rw [made]
    exact read.confined_ok nofun

end Confined

/-- What can be written is, unless the store fails. -/
theorem store_of_put (writable : Fields.fault? r = none)
    (failed : (((store ns).put nowMs id r ttl).run w).1 = .error e) :
    ∃ cause, e = .store cause := by
  obtain ⟨fault, rfl⟩ | ⟨cause, unfit, -⟩ := (outcome_put ns nowMs id r ttl w).failure e failed
  · exact ⟨_, rfl⟩
  · rw [writable] at unfit
    cases unfit

theorem store_of_setAccessed (writable : Numeral.isWritable accessed)
    (failed : (((store ns).setAccessed nowMs id accessed ttl).run w).1 = .error e) :
    ∃ cause, e = .store cause := by
  cases absent : (w.store.fieldsAt (key ns id)).isEmpty with
  | true =>
      obtain ⟨fault, rfl⟩ := (outcome_skip absent nowMs accessed ttl).failure e failed
      exact ⟨_, rfl⟩
  | false =>
      obtain ⟨fault, rfl⟩ | ⟨cause, unfit, -⟩ :=
        (outcome_setAccessed absent nowMs accessed ttl).failure e failed
      · exact ⟨_, rfl⟩
      · rw [Fields.fault_int.mpr writable] at unfit
        cases unfit

end Remote

namespace Service

open Remote (Confined)

variable {ns : Text} {nowMs : Int} {v : Verifier} {token : Presented} {d : Decoded} {r : Record}
  {fields : Fields}

/-- Every lifetime leaves the expiry of a new access token, and the time of an access, within 64
bits. -/
structure FitsAccess (p : Policy) : Prop where
  upper : ∀ kind, p.ttlFor kind ≤ 2 ^ 63 - 2 ^ 48
  lower : -(2 ^ 63 - 2 ^ 48) ≤ p.ttlFor .access

/-- The access of an accepted token can be noted in a record that has been read. -/
theorem isWritable_max (fits : FitsAccess v.policy) (accepted : v.verdict nowMs token = .ok d)
    (read : Fields.IsRead fields r) : Numeral.isWritable (max r.accessed nowMs) := by
  obtain ⟨_, accessed⟩ := read.accessed
  have writable := Numeral.isWritable_of_read accessed
  have alive := (alive_of_accepted accepted).2
  have time := d.id.timestampMs_bounds
  have lifetime := fits.upper d.kind
  obtain late | early := le_or_gt nowMs r.accessed
  · rwa [max_eq_left late]
  · rw [max_eq_right early.le]
    obtain before | after := lt_or_ge nowMs 0
    · exact Numeral.isWritable_of_natAbs_le (by omega) writable
    · exact Numeral.isWritable_of_natAbs_lt (by omega)

theorem confined_lookup (fits : FitsAccess v.policy) (accepted : v.verdict nowMs token = .ok d)
    (w : World HashServer) :
    Confined w.store (Remote.key ns d.id) (((v.onServer ns).lookup nowMs token).run w).1 := by
  obtain ⟨e | _ | r, w', made, read⟩ := Remote.exists_read_get ns nowMs d.id w
  · rw [lookup_of_failed accepted made read.not_token.1 read.not_token.2]
    exact read.confined_error
  · rw [lookup_of_absent accepted made]
    exact read.confined_ok nofun
  · obtain ⟨fields, source⟩ := read.isRead
    rw [lookup_of_found accepted made fun e =>
      Remote.store_of_setAccessed (isWritable_max fits accepted source)]
    exact read.confined_ok nofun

theorem confined_refresh (fits : FitsAccess v.policy) (accepted : v.verdict nowMs token = .ok d)
    (w : World HashServer) :
    Confined w.store (Remote.key ns d.id) (((v.onServer ns).refresh nowMs token).run w).1 := by
  obtain ⟨e | _ | r, w', made, read⟩ := Remote.exists_read_get ns nowMs d.id w
  · rw [refresh_of_failed accepted made read.not_token.1 read.not_token.2]
    exact read.confined_error
  · rw [refresh_of_absent accepted made]
    exact read.confined_ok nofun
  · obtain ⟨fields, source⟩ := read.isRead
    have room : Codec.Fits .access (d.id.timestampMs + v.policy.ttlFor .access) := by
      intro _
      have time := d.id.timestampMs_bounds
      have upper := fits.upper .access
      have lower := fits.lower
      omega
    obtain ⟨wire, encoded, -⟩ := Codec.encode_of_fits (c := v.codec) room
    have latest := isWritable_max fits accepted source
    have writable : Fields.fault? (r.markAccessed nowMs) = none :=
      ((source.isPersistable (by decide)).withAccessed latest).writable
    have fails (e : Failure) (failed : (((v.onServer ns).store.put nowMs d.id
        (r.markAccessed nowMs) v.policy.retentionSeconds).run w').1 = .error e) :
        ∃ cause, e = .store cause := Remote.store_of_put writable failed
    rw [refresh_of_found accepted encoded made fails]
    exact read.confined_ok fun e failed => fails e (error_of_map failed)

/-- Whatever a server holds and whichever of its calls fail, a read of a record, a lookup and a
refresh give a result or nothing, or fail with an error of the store, unless what they read is
corrupt. Then they fail with what is wrong with it. A refused token does not reach the server. -/
theorem confined_of_content (v : Verifier) (fits : FitsAccess v.policy) (ns : Text) (nowMs : Int)
    (w : World HashServer) :
    let s := v.onServer ns
    (∀ id, Confined w.store (Remote.key ns id) ((s.store.get nowMs id).run w).1) ∧
      ∀ token, match s.verdict nowMs token with
        | .error _ => ((s.lookup nowMs token).run w).1 = .ok none ∧
            ((s.refresh nowMs token).run w).1 = .ok none
        | .ok d => Confined w.store (Remote.key ns d.id) ((s.lookup nowMs token).run w).1 ∧
            Confined w.store (Remote.key ns d.id) ((s.refresh nowMs token).run w).1 := by
  intro s
  refine ⟨fun id => Remote.confined_get ns nowMs id w, ?_⟩
  intro token
  split
  · next cause refused =>
      rw [lookup_of_refused refused, refresh_of_refused refused]
      exact ⟨rfl, rfl⟩
  · next d accepted => exact ⟨confined_lookup fits accepted w, confined_refresh fits accepted w⟩

/-- The fields of a record, with a time of creation that is no number. -/
def illegibleFields (id : TokenId) : Fields :=
  ⟨[(Fields.uuidField, .ofString id.canonical), (Fields.typeField, "access"),
    (Fields.createdField, "x"), (Fields.accessedField, "1")]⟩

/-- A server that holds them. -/
def illegible (ns : Text) (id : TokenId) : HashServer :=
  { HashServer.empty with hashes := ⟨[(Remote.key ns id, illegibleFields id)]⟩ }

theorem corrupt_illegible (ns : Text) (id : TokenId) :
    Fields.Corrupt ((illegible ns id).cellsAt (Remote.key ns id)) := by
  have there : (illegible ns id).fieldsAt (Remote.key ns id) = illegibleFields id :=
    HashServer.fieldsAt_of_some (if_pos rfl)
  have once : (illegibleFields id).Nodup := (by decide : [Fields.uuidField, Fields.typeField,
    Fields.createdField, Fields.accessedField].Nodup)
  have created : (illegibleFields id).filled? Fields.createdField = some (.ofString "x") :=
    Fields.filled?_eq_some rfl (by decide)
  rw [HashServer.corrupt_cellsAt_iff rfl (there ▸ once), there]
  refine ⟨Fields.isComplete_iff.mpr ⟨⟨id.canonical, ?_⟩, ⟨"access", ?_⟩, ⟨"x", created⟩, ⟨"1", ?_⟩⟩,
    ?_⟩
  · exact Fields.filled?_eq_some rfl (Fields.canonical_ne_nil id.uuid)
  · exact Fields.filled?_eq_some rfl (by decide)
  · exact Fields.filled?_eq_some rfl (by decide)
  · intro legible
    obtain ⟨n, read⟩ := legible.created "x" created
    have no_number : (Numeral.read 10 "x").toOption = none := by decide +kernel
    rw [read] at no_number
    cases no_number

/-- A lookup and a refresh of an accepted token that meet an illegible record. -/
theorem confined_of_content_illegible :
    let c : Codec := ⟨"s", by decide, .keyed, true, .standard⟩
    let v : Verifier := ⟨c, .withOverrides (fun _ => none) none⟩
    let id : TokenId := .generate 5 ⟨0, 0⟩
    let s := v.onServer "tokens"
    let w : World HashServer := ⟨illegible "tokens" id, []⟩
    FitsAccess v.policy ∧
      ∃ wire cause cause', c.encode .access id (v.policy.ttlFor .access) = .ok wire ∧
        ((s.lookup 6 (Text.ofString wire)).run w).1 = .error (.corrupt cause) ∧
        ((s.refresh 6 (Text.ofString wire)).run w).1 = .error (.corrupt cause') := by
  intro c v id s w
  have fits : FitsAccess v.policy := ⟨by intro kind; cases kind <;> decide, by decide⟩
  have time : id.timestampMs = 5 := TokenId.timestampMs_generate (by decide) (by decide) _
  have lifetime : 0 < v.policy.ttlFor .access ∧ v.policy.ttlFor .access < 2 ^ 62 := by decide
  have room : Codec.Fits .access (id.timestampMs + v.policy.ttlFor .access) := by
    intro _
    omega
  obtain ⟨wire, encoded, accepted⟩ := exists_accepted v (fun plain => absurd plain (by decide)) room
  obtain ⟨-, uses⟩ := confined_of_content v fits "tokens" 6 w
  have met := uses (Text.ofString wire)
  have accepted : s.verdict 6 (Text.ofString wire) = _ := accepted 6 (by rw [time]; decide)
  rw [accepted] at met
  have shown : w.store.faults.get? (Call.fetch (Remote.key "tokens" id)).name = none ∧
      Fields.Corrupt (w.store.cellsAt (Remote.key "tokens" id)) := ⟨rfl, corrupt_illegible _ _⟩
  obtain ⟨cause, looked⟩ := met.1.corrupt.mpr shown
  obtain ⟨cause', refreshed⟩ := met.2.corrupt.mpr shown
  exact ⟨fits, wire, cause, cause', encoded, looked, refreshed⟩

/-- A read of an illegible record fails, and not with an error of the store. -/
theorem not_store_of_illegible :
    let id : TokenId := .generate 1700000000000 ⟨0, 0⟩
    let w : World HashServer := ⟨illegible "tokens" id, []⟩
    ¬∀ e, (((Remote.store "tokens").get 1700000000000 id).run w).1 = .error e →
      ∃ cause, e = .store cause := by
  intro id w escapes_not
  obtain ⟨cause, failed⟩ := (Remote.confined_get "tokens" 1700000000000 id w).corrupt.mpr
    ⟨rfl, corrupt_illegible _ _⟩
  obtain ⟨_, same⟩ := escapes_not _ failed
  cases same

end Service

end BearerToken
