import Mathlib
import BearerToken.Proofs.Service.Corruption
import BearerToken.Proofs.Store.Namespaces

/-!
# A note of an access that fails

A lookup notes the access after it has read the record, and a touch does nothing else. The same
write is best effort in the one and all there is to the other. So calls of it that fail are lost on
the lookup, which gives what it gives without them and reports them, and make the touch fail; either
way the hashes stay as they were.
-/

namespace BearerToken

namespace HashServer

/-- A call that has been made since then met a fault. -/
def MetFault (s s' : HashServer) : Prop :=
  ∃ later, s'.calls = s.calls ++ later ∧ ∃ c ∈ later, s.faults.get? c.name ≠ none

theorem not_metFault {s s' : HashServer} {later : List Call} (called : s'.calls = s.calls ++ later)
    (fine : ∀ c ∈ later, s.faults.get? c.name = none) : ¬s.MetFault s' := by
  rintro ⟨later', called', c, member, fails⟩
  have same : later' = later := List.append_cancel_left (called'.symm.trans called)
  exact fails (fine c (same ▸ member))

end HashServer

namespace Remote

variable {ns : Text} {nowMs accessed ttl : Int} {id : TokenId} {w : World HashServer}
  {made done : Except Failure Unit × World HashServer} {calls : List Call}

/-- The commands of a change of the access time. -/
def noteCommands : List String :=
  ["pipeline", "watch", "exists", "multi", "hset", "expire", "execute"]

/-- A row of calls that the change makes, from its start. -/
theorem name_mem_noteCommands (row : calls.map Call.name <+: noteCommands) :
    ∀ c ∈ calls, c.name ∈ noteCommands :=
  fun _ member => row.subset (List.mem_map_of_mem member)

/-- What becomes of a change of the access time. It is cut short by a fault, or it finds nothing
under the key, or the time has no text, or it is written. -/
inductive Noting (ns : Text) (id : TokenId) (accessed ttl : Int) (w : World HashServer) :
    Except Failure Unit × World HashServer → Prop
  | cut {sent : List Call} {fault : Fault}
      (met : ∃ name ∈ noteCommands, w.store.faults.get? name ≠ none) :
      Noting ns id accessed ttl w (.error (.store (.access fault.message)),
        ⟨w.store.heard sent, w.events ++ [.writeFailed id fault.message]⟩)
  | absent (nothing : (w.store.fieldsAt (key ns id)).isEmpty = true)
      (fine : ∀ c ∈ askCalls (key ns id), w.store.faults.get? c.name = none) :
      Noting ns id accessed ttl w
        (.ok (), { w with store := w.store.heard (askCalls (key ns id)) })
  | unfit (unwritable : Numeral.isWritable accessed = false)
      (fine : ∀ c ∈ askCalls (key ns id) ++ [.multi], w.store.faults.get? c.name = none) :
      Noting ns id accessed ttl w (.error (.unwritable .tooLong),
        { w with store := w.store.heard (askCalls (key ns id) ++ [.multi]) })
  | written (writable : Numeral.isWritable accessed = true)
      (fine : ∀ name ∈ noteCommands, w.store.faults.get? name = none) :
      Noting ns id accessed ttl w (.ok (), { w with
        store := (w.store.heard (setAccessedCalls (key ns id) (notedFields accessed) ttl)).write
          (key ns id) (notedFields accessed) })

theorem noting_of_runs (runs : Runs w calls .access id made done)
    (row : calls.map Call.name <+: noteCommands)
    (whole : (∀ c ∈ calls, w.store.faults.get? c.name = none) → Noting ns id accessed ttl w done) :
    Noting ns id accessed ttl w made := by
  rw [Runs] at runs
  cases cut : w.store.interruption? calls with
  | some cut' =>
      rw [cut] at runs
      have fails : ¬∀ c ∈ calls, w.store.faults.get? c.name = none := by
        rw [← HashServer.interruption?_eq_none_iff, cut]
        exact Option.some_ne_none cut'
      obtain ⟨c, fails⟩ := not_forall.mp fails
      obtain ⟨member, fails⟩ := Classical.not_imp.mp fails
      rw [runs]
      exact .cut ⟨c.name, name_mem_noteCommands row c member, fails⟩
  | none =>
      rw [cut] at runs
      rw [runs]
      exact whole (HashServer.interruption?_eq_none_iff.mp cut)

theorem noting_setAccessed (ns : Text) (nowMs : Int) (id : TokenId) (accessed ttl : Int)
    (w : World HashServer) :
    Noting ns id accessed ttl w (((store ns).setAccessed nowMs id accessed ttl).run w) := by
  cases absent : (w.store.fieldsAt (key ns id)).isEmpty with
  | true =>
      refine noting_of_runs (runs_setAccessed (makes_ask_absent absent accessed ttl) rfl nowMs)
        ⟨["multi", "hset", "expire", "execute"], rfl⟩ ?_
      exact .absent absent
  | false =>
      cases writable : Numeral.isWritable accessed with
      | true =>
          refine noting_of_runs (runs_setAccessed (makes_note absent writable ttl) rfl nowMs)
            ⟨[], rfl⟩ ?_
          intro fine
          refine .written writable ?_
          intro name member
          obtain ⟨c, listed, rfl⟩ :
            ∃ c ∈ setAccessedCalls (key ns id) (notedFields accessed) ttl, c.name = name :=
              List.mem_map.mp member
          exact fine c listed
      | false =>
          refine noting_of_runs
            (runs_setAccessed (makes_note_unwritable absent writable ttl) rfl nowMs)
            ⟨["hset", "expire", "execute"], rfl⟩ ?_
          exact .unfit writable

/-- A read whose call does not fail gives and reports what follows from the content, and makes that
one call. Where it gives a record, there are fields, and the time of access has a text. -/
theorem exists_run_get (ns : Text) (nowMs : Int) (id : TokenId) (s : HashServer) :
    ∃ x told, (∀ r, x = .ok (some r) →
        (s.fieldsAt (key ns id)).isEmpty = false ∧ Numeral.isWritable r.accessed = true) ∧
      ∀ faults events, faults.get? "hgetall" = none →
        ((store ns).get nowMs id).run ⟨{ s with faults }, events⟩ =
          (x, ⟨{ s with faults }.heard [.fetch (key ns id)], events ++ told⟩) := by
  have fetched {faults : Table String Fault} (reads : faults.get? "hgetall" = none) :
      HashServer.fetch (key ns id) { s with faults } =
        (.ok (s.cellsAt (key ns id)), { s with faults }.heard [.fetch (key ns id)]) := by
    rw [fetch_eq, reads]
    rfl
  simp only [store]
  cases cells : s.cellsAt (key ns id) with
  | nil =>
      refine ⟨.ok none, [], by simp, fun faults events reads => ?_⟩
      rw [Action.run_bind_ok (run_attempt (fetched reads)), cells, List.append_nil]
      rfl
  | cons cell rest =>
      obtain ⟨x, told, -, runs⟩ :=
        Action.exists_run_ofReading (σ := HashServer) (Fields.recordOfCells (cell :: rest))
      refine ⟨x, told, ?_, fun faults events reads => ?_⟩
      · rintro r rfl
        have read := read_ofReading (s := { s with faults := .empty }) (k := key ns id) rfl ⟨s, []⟩
        rw [show HashServer.cellsAt { s with faults := .empty } (key ns id) = _ from cells,
          runs] at read
        obtain ⟨fields, source⟩ := read.isRead
        obtain ⟨t, accessed⟩ := source.accessed
        refine ⟨?_, Numeral.isWritable_of_read accessed⟩
        cases held : (s.fieldsAt (key ns id)).entries with
        | nil => simp [HashServer.cellsAt, held] at cells
        | cons e more => rw [Table.isEmpty, held, List.isEmpty_cons]
      · rw [Action.run_bind_ok (run_attempt (fetched reads)), cells]
        exact runs _

end Remote

namespace Service

variable {σ : Type} {s : Service σ} {nowMs : Int} {token : Presented} {d : Decoded} {r : Record}
  {w w' w'' : World σ}

section Lookup

variable (accepted : s.verdict nowMs token = .ok d)
  (found : (s.store.get nowMs d.id).run w = (.ok (some r), w'))
include accepted found

/-- Once the record has been read a lookup gives it, if its access is noted or that fails as an
error of the store. -/
theorem run_lookup_noted
    (noted : (s.noteAccess nowMs d.id (r.markAccessed nowMs).accessed).run w' = (.ok (), w'')) :
    (s.lookup nowMs token).run w = (.ok (some (r.markAccessed nowMs)), w'') :=
  run_ifUsable_ok ((Action.run_bind_ok (Verifier.run_resolve_ok accepted w)).trans
    ((Action.run_bind_ok (fetch_of_some found)).trans (Action.run_bind_ok noted)))

theorem run_lookup_unnoted {cause : Json.WriteError}
    (failed : (s.noteAccess nowMs d.id (r.markAccessed nowMs).accessed).run w' =
      (.error (.unwritable cause), w'')) :
    (s.lookup nowMs token).run w = (.error (.unwritable cause), w'') :=
  run_ifUsable_failed ((Action.run_bind_ok (Verifier.run_resolve_ok accepted w)).trans
    ((Action.run_bind_ok (fetch_of_some found)).trans (Action.run_bind_error failed)))
    nofun nofun

end Lookup

/-- What a lookup is to give: of an accepted token, what a read gives, with the access noted in the
record. -/
def seen (s : Service σ) (nowMs : Int) (token : Presented) (w : World σ) :
    Except Failure (Option Record) :=
  match s.verdict nowMs token with
  | .error _ => .ok none
  | .ok d => ((s.store.get nowMs d.id).run w).1.map (Option.map (·.markAccessed nowMs))

/-- The result of a call at a time that is too long to have a text. -/
def Unfit (nowMs : Int) {α : Type} (result : Except Failure α) : Prop :=
  Numeral.isWritable nowMs = false ∧ result = .error (.unwritable .tooLong)

/-- A touch that fails, with the error of its store, and changes no hash. -/
structure Unmade (nowMs : Int) (w : World HashServer)
    (touched : Except Failure Bool × World HashServer) : Prop where
  unchanged : touched.2.store.hashes = w.store.hashes
  failure : (∃ cause, touched.1 = .error (.store (.access cause))) ∨ Unfit nowMs touched.1

section Touch

variable {v : Verifier} {ns : Text} {w : World HashServer}
  (accepted : v.verdict nowMs token = .ok d)
include accepted

theorem run_touch_failed_set {e : Failure} {w' : World HashServer}
    (failed : ((Remote.store ns).setAccessed nowMs d.id nowMs v.policy.retentionSeconds).run w =
      (.error e, w')) (honoured : ∀ cause, e ≠ .rejected cause) :
    ((v.onServer ns).touch nowMs token).run w = (.error e, w') :=
  run_touch_failed ((Action.run_bind_ok (Verifier.run_resolve_ok accepted w)).trans
    (Action.run_bind_error failed)) honoured

theorem run_touch_set {w' : World HashServer}
    (done : ((Remote.store ns).setAccessed nowMs d.id nowMs v.policy.retentionSeconds).run w =
      (.ok (), w')) :
    ((v.onServer ns).touch nowMs token).run w =
      (.ok true, { w' with events := w'.events ++ [.touched d.id] }) :=
  run_touch_ok ((Action.run_bind_ok (Verifier.run_resolve_ok accepted w)).trans
    (Action.run_bind_ok done))

/-- A touch is made whole or not at all: it fails where it meets a fault, and where there is a
record and any of its commands is at fault. -/
theorem unmade_touch
    (met : w.store.MetFault (((v.onServer ns).touch nowMs token).run w).2.store ∨
      (w.store.fieldsAt (Remote.key ns d.id)).isEmpty = false ∧
        ∃ name ∈ Remote.noteCommands, w.store.faults.get? name ≠ none) :
    Unmade nowMs w (((v.onServer ns).touch nowMs token).run w) := by
  have noting := Remote.noting_setAccessed ns nowMs d.id nowMs v.policy.retentionSeconds w
  generalize made : ((Remote.store ns).setAccessed nowMs d.id nowMs
    v.policy.retentionSeconds).run w = result at noting
  cases noting with
  | cut _ =>
      rw [run_touch_failed_set accepted made nofun]
      exact ⟨rfl, .inl ⟨_, rfl⟩⟩
  | unfit unwritable _ =>
      rw [run_touch_failed_set accepted made nofun]
      exact ⟨rfl, .inr ⟨unwritable, rfl⟩⟩
  | absent nothing fine =>
      rw [run_touch_set accepted made] at met
      obtain met | ⟨held, -⟩ := met
      · exact absurd met (HashServer.not_metFault rfl fine)
      · rw [nothing] at held
        cases held
  | written _ fine =>
      rw [run_touch_set accepted made] at met
      obtain met | ⟨-, name, member, fails⟩ := met
      · refine absurd met (HashServer.not_metFault rfl fun c listed => ?_)
        exact fine c.name (List.mem_map_of_mem (f := Call.name) listed)
      · exact absurd (fine name member) fails

/-- A touch that finds no fields ends there, and comes to none of the commands that write. -/
theorem touch_bare (absent : (w.store.fieldsAt (Remote.key ns d.id)).isEmpty = true)
    (asks : ∀ c ∈ Remote.askCalls (Remote.key ns d.id), w.store.faults.get? c.name = none) :
    (((v.onServer ns).touch nowMs token).run w).1 = .ok true := by
  have skips := Remote.runs_setAccessed
    (Remote.makes_ask_absent absent nowMs v.policy.retentionSeconds) rfl nowMs
  rw [Remote.Runs, HashServer.interruption?_eq_none_iff.mpr asks] at skips
  rw [run_touch_set accepted skips]

end Touch

/-- What becomes of a lookup and of a touch of one token, and of the lookup without faults, `free`.
A fault that the lookup meets is reported, and has no part in what it gives. -/
structure BestEffort (s : Service HashServer) (nowMs : Int) (token : Presented)
    (w : World HashServer) (made free : Except Failure (Option Record) × World HashServer)
    (touched : Except Failure Bool × World HashServer) : Prop where
  answer : free.1 = s.seen nowMs token w ∨ Unfit nowMs free.1
  same : made.1 = free.1 ∨ Unfit nowMs free.1 ∧ made.1 = s.seen nowMs token w
  unchanged : w.store.MetFault made.2.store → made.2.store.hashes = w.store.hashes
  reported : w.store.MetFault made.2.store → ∃ d told cause, s.verdict nowMs token = .ok d ∧
    made.2.events = w.events ++ told ∧ .accessUpdateFailed d.id cause ∈ told
  mandatory : w.store.MetFault made.2.store ∨ w.store.MetFault touched.2.store →
    Unmade nowMs w touched

section Lookup

variable {s : Service HashServer} {w : World HashServer} {later : List BearerToken.Call}
  {made free : Except Failure (Option Record) × World HashServer}
  {touched : Except Failure Bool × World HashServer}

/-- A lookup that meets no fault. -/
theorem BestEffort.of_fine (called : made.2.store.calls = w.store.calls ++ later)
    (fine : ∀ c ∈ later, w.store.faults.get? c.name = none) (same : made.1 = free.1)
    (answer : free.1 = s.seen nowMs token w ∨ Unfit nowMs free.1)
    (touch : w.store.MetFault touched.2.store → Unmade nowMs w touched) :
    BestEffort s nowMs token w made free touched := by
  have unmet := HashServer.not_metFault called fine
  refine ⟨answer, .inl same, fun met => absurd met unmet, fun met => absurd met unmet, ?_⟩
  rintro (met | met)
  · exact absurd met unmet
  · exact touch met

end Lookup

section Server

variable {v : Verifier} {ns : Text} {w : World HashServer}

theorem seen_of_accepted {s : Service HashServer} {x : Except Failure (Option Record)}
    {w' : World HashServer} (accepted : s.verdict nowMs token = .ok d)
    (read : (s.store.get nowMs d.id).run w = (x, w')) :
    s.seen nowMs token w = x.map (Option.map (·.markAccessed nowMs)) := by
  rw [seen, accepted]
  simp only [read]

/-- Where no record is read a lookup gives what the read gives, and makes no other call. -/
theorem lookup_of_unread {v : Verifier} {ns : Text} {w w' : World HashServer}
    {x : Except Failure (Option Record)} (accepted : v.verdict nowMs token = .ok d)
    (read : ((Remote.store ns).get nowMs d.id).run w = (x, w')) (unread : ∀ r, x ≠ .ok (some r)) :
    ∃ events, ((v.onServer ns).lookup nowMs token).run w =
      (x.map (Option.map (·.markAccessed nowMs)), ⟨w'.store, events⟩) := by
  have accepted : (v.onServer ns).verdict nowMs token = .ok d := accepted
  obtain e | _ | r := x
  · have failed := Remote.read_get ns nowMs d.id w
    rw [read] at failed
    exact ⟨_, lookup_of_failed accepted read failed.not_token.1 failed.not_token.2⟩
  · exact ⟨_, lookup_of_absent accepted read⟩
  · exact absurd rfl (unread r)

/-- The world on which no call fails. -/
def calmed (w : World HashServer) : World HashServer :=
  { w with store := { w.store with faults := .empty } }

theorem isWritable_of_max {a b : Int} (writable : Numeral.isWritable a = true)
    (unwritable : Numeral.isWritable (max a b) = false) : Numeral.isWritable b = false := by
  obtain same | same := max_choice a b
  · rw [same, writable] at unwritable
    cases unwritable
  · rwa [same] at unwritable

/-- A fault in front of the writing keeps a lookup from failing on a time that has no text. -/
theorem lookup_cut {told : List Event} (accepted : v.verdict nowMs token = .ok d)
    (read : ((Remote.store ns).get nowMs d.id).run w =
      (.ok (some r), ⟨w.store.heard [.fetch (Remote.key ns d.id)], told⟩))
    (held : (w.store.fieldsAt (Remote.key ns d.id)).isEmpty = false)
    (unwritable : Numeral.isWritable (r.markAccessed nowMs).accessed = false)
    (cut : w.store.interruption? (Remote.askCalls (Remote.key ns d.id) ++ [.multi]) ≠ none) :
    (((v.onServer ns).lookup nowMs token).run w).1 = .ok (some (r.markAccessed nowMs)) := by
  have accepted : (v.onServer ns).verdict nowMs token = .ok d := accepted
  obtain ⟨⟨sent, fault⟩, cut⟩ := Option.ne_none_iff_exists'.mp cut
  let w' : World HashServer := ⟨w.store.heard [.fetch (Remote.key ns d.id)], told⟩
  have cut' : w'.store.interruption? (Remote.askCalls (Remote.key ns d.id) ++ [.multi]) =
      some (sent, fault) := (HashServer.interruption?_heard ..).trans cut
  have held : (w'.store.fieldsAt (Remote.key ns d.id)).isEmpty = false := held
  have failed := Remote.runs_setAccessed
    (Remote.makes_note_unwritable held unwritable v.policy.retentionSeconds) rfl nowMs
  rw [Remote.Runs, cut'] at failed
  exact congrArg Prod.fst (run_lookup_noted accepted read (Action.run_recover_error failed))

section Found

variable {told : List Event} (accepted : v.verdict nowMs token = .ok d)
  (held : (w.store.fieldsAt (Remote.key ns d.id)).isEmpty = false)
  (writable : Numeral.isWritable r.accessed = true)
  (found : ∀ faults events, faults.get? "hgetall" = none →
    ((Remote.store ns).get nowMs d.id).run ⟨{ w.store with faults }, events⟩ =
      (.ok (some r), ⟨{ w.store with faults }.heard [.fetch (Remote.key ns d.id)],
        events ++ told⟩))
include accepted held writable found

/-- Without faults the record is given, unless the time has no text. -/
theorem lookup_calmed :
    (Numeral.isWritable (r.markAccessed nowMs).accessed = true ∧
      (((v.onServer ns).lookup nowMs token).run (calmed w)).1 =
        .ok (some (r.markAccessed nowMs))) ∨
    (Numeral.isWritable (r.markAccessed nowMs).accessed = false ∧
      Unfit nowMs (((v.onServer ns).lookup nowMs token).run (calmed w)).1) := by
  have accepted : (v.onServer ns).verdict nowMs token = .ok d := accepted
  have read := found .empty w.events rfl
  have noting := Remote.noting_setAccessed ns nowMs d.id (r.markAccessed nowMs).accessed
    v.policy.retentionSeconds
    ⟨{ w.store with faults := .empty }.heard [.fetch (Remote.key ns d.id)], w.events ++ told⟩
  generalize made : ((Remote.store ns).setAccessed nowMs d.id (r.markAccessed nowMs).accessed
    v.policy.retentionSeconds).run _ = result at noting
  cases noting with
  | cut met =>
      obtain ⟨name, -, fails⟩ := met
      exact absurd rfl fails
  | absent nothing _ =>
      cases held.symm.trans nothing
  | unfit unwritable _ =>
      have failed := run_lookup_unnoted accepted read (Action.run_recover_error made)
      refine .inr ⟨unwritable, isWritable_of_max writable unwritable, ?_⟩
      exact congrArg Prod.fst failed
  | written noted _ =>
      have done := run_lookup_noted accepted read (Action.run_recover_ok made)
      exact .inl ⟨noted, congrArg Prod.fst done⟩

/-- The record has been read, and its access is to be noted. -/
theorem bestEffort_found (reads : w.store.faults.get? "hgetall" = none) :
    BestEffort (v.onServer ns) nowMs token w (((v.onServer ns).lookup nowMs token).run w)
      (((v.onServer ns).lookup nowMs token).run (calmed w))
      (((v.onServer ns).touch nowMs token).run w) := by
  have accepted' : (v.onServer ns).verdict nowMs token = .ok d := accepted
  have read := found w.store.faults w.events reads
  have freely := lookup_calmed accepted held writable found
  have answer : (v.onServer ns).seen nowMs token w = .ok (some (r.markAccessed nowMs)) :=
    seen_of_accepted accepted' read
  have noting := Remote.noting_setAccessed ns nowMs d.id (r.markAccessed nowMs).accessed
    v.policy.retentionSeconds
    ⟨w.store.heard [.fetch (Remote.key ns d.id)], w.events ++ told⟩
  generalize made : ((Remote.store ns).setAccessed nowMs d.id (r.markAccessed nowMs).accessed
    v.policy.retentionSeconds).run _ = result at noting
  have given : (((v.onServer ns).lookup nowMs token).run (calmed w)).1 =
      (v.onServer ns).seen nowMs token w ∨
      Unfit nowMs (((v.onServer ns).lookup nowMs token).run (calmed w)).1 :=
    freely.imp (fun free => free.2.trans answer.symm) And.right
  have touch : w.store.MetFault (((v.onServer ns).touch nowMs token).run w).2.store →
      Unmade nowMs w (((v.onServer ns).touch nowMs token).run w) :=
    fun met => unmade_touch accepted (.inl met)
  cases noting with
  | @cut sent fault met =>
      have done := run_lookup_noted accepted' read (Action.run_recover_error made)
      rw [done]
      refine ⟨given, ?_, fun _ => rfl, fun _ => ?_,
        fun _ => unmade_touch accepted (.inr ⟨held, met⟩)⟩
      · obtain ⟨-, free⟩ | ⟨-, unfit⟩ := freely
        · exact .inl free.symm
        · exact .inr ⟨unfit, answer.symm⟩
      · refine ⟨d, told ++ [.writeFailed d.id fault.message] ++
          [.accessUpdateFailed d.id (StoreError.access fault.message).message], _, accepted', ?_,
          List.mem_append_right _ (List.mem_singleton_self _)⟩
        rw [← List.append_assoc, ← List.append_assoc]
  | absent nothing _ =>
      cases held.symm.trans nothing
  | unfit unwritable fine =>
      have done := run_lookup_unnoted accepted' read (Action.run_recover_error made)
      rw [done]
      obtain ⟨noted, -⟩ | ⟨-, unfit⟩ := freely
      · cases unwritable.symm.trans noted
      · refine .of_fine (List.append_assoc ..) ?_ unfit.2.symm given touch
        exact List.forall_mem_append.mpr ⟨by simpa [BearerToken.Call.name] using reads, fine⟩
  | written noted fine =>
      have done := run_lookup_noted accepted' read (Action.run_recover_ok made)
      rw [done]
      obtain ⟨-, free⟩ | ⟨unwritable, -⟩ := freely
      · refine .of_fine (List.append_assoc ..) ?_ free.symm given touch
        refine List.forall_mem_append.mpr ⟨by simpa [BearerToken.Call.name] using reads, ?_⟩
        exact fun c listed => fine c.name (List.mem_map_of_mem (f := BearerToken.Call.name) listed)
      · cases unwritable.symm.trans noted

end Found

/-- Whatever a server holds, and whichever of the calls that note an access fail: a lookup gives
what it gives without faults, which is what a read gives with the access noted in the record. If it
meets a fault, no hash has changed, the log says that the access was not noted, and a touch of the
token with the same faults fails with the error of the store and changes no hash either. The one
exception is a time that is too long to have a text: to write it fails, and not with an error of the
store. -/
theorem lookup_bestEffort (v : Verifier) (ns : Text) (nowMs : Int) (token : Presented)
    (w : World HashServer) (reads : w.store.faults.get? "hgetall" = none) :
    let s := v.onServer ns
    BestEffort s nowMs token w ((s.lookup nowMs token).run w)
      ((s.lookup nowMs token).run (calmed w)) ((s.touch nowMs token).run w) := by
  intro s
  cases verdict : v.verdict nowMs token with
  | error cause =>
      have verdict : s.verdict nowMs token = .error cause := verdict
      rw [lookup_of_refused verdict, lookup_of_refused verdict, touch_of_refused verdict]
      have calls : w.store.calls = w.store.calls ++ [] := (List.append_nil _).symm
      refine .of_fine calls nofun rfl (.inl ?_) fun met => ?_
      · rw [seen, verdict]
      · exact absurd met (HashServer.not_metFault calls nofun)
  | ok d =>
      obtain ⟨x, told, facts, runs⟩ := Remote.exists_run_get ns nowMs d.id w.store
      have read := runs w.store.faults w.events reads
      have freely := runs .empty w.events rfl
      have fine : ∀ c ∈ [BearerToken.Call.fetch (Remote.key ns d.id)],
          w.store.faults.get? c.name = none := by
        simpa [BearerToken.Call.name] using reads
      by_cases unread : ∀ r, x ≠ .ok (some r)
      · obtain ⟨log, made⟩ := lookup_of_unread verdict read unread
        obtain ⟨log', free⟩ := lookup_of_unread (w := calmed w) verdict freely unread
        rw [made, free]
        refine .of_fine rfl fine rfl (.inl ?_) fun met => unmade_touch verdict (.inl met)
        exact (seen_of_accepted (s := s) verdict read).symm
      · obtain ⟨r, same⟩ := not_forall.mp unread
        obtain rfl := Classical.not_not.mp same
        obtain ⟨held, writable⟩ := facts r rfl
        exact bestEffort_found verdict held writable runs reads

/-- A server on which the write of the time fails, once the key has been asked for. -/
theorem lookup_bestEffort_hset :
    let signature : Bytes := List.replicate 20 0
    let digests : Digests :=
      ⟨fun _ => signature, fun _ _ => signature, fun _ => rfl, fun _ _ => rfl⟩
    let c : Codec := ⟨"s", by decide, .keyed, true, digests⟩
    let v : Verifier := ⟨c, .withOverrides (fun _ => none) none⟩
    let id : TokenId := .generate 5 ⟨0, 1⟩
    let token : Presented := .text (Codec.spell .access (c.payload .access id 86400005))
    let s := v.onServer "tokens"
    let w : World HashServer := ⟨{ HashServer.empty with
      hashes := ⟨[(Remote.key "tokens" id, .ofRecord (.issued id none none .emptyObject))]⟩
      faults := ⟨[("hset", ⟨"ConnectionError", "down"⟩)]⟩ }, []⟩
    let made := (s.lookup 6 token).run w
    w.store.faults.get? "hgetall" = none ∧ w.store.MetFault made.2.store ∧
      made.1.toOption.map (Option.map Record.accessed) = some (some 6) ∧
      BestEffort s 6 token w made ((s.lookup 6 token).run (calmed w))
        ((s.touch 6 token).run w) := by
  intro signature digests c v id token s w made
  have reads : w.store.faults.get? "hgetall" = none := by decide
  have met : ∃ c ∈ made.2.store.calls, w.store.faults.get? c.name ≠ none := by decide +kernel
  exact ⟨reads, ⟨made.2.store.calls, (List.nil_append _).symm, met⟩, by decide +kernel,
    lookup_bestEffort v "tokens" 6 token w reads⟩

/-- At a time that is too long to be written a lookup fails, unless a fault keeps it from the writing.
And a touch that finds nothing under the key does not come to a fault of the commands that write. -/
theorem lookup_bestEffort_unmet :
    let long : Int := 10 ^ 4300
    let c : Codec := ⟨"s", by decide, .keyed, true, .standard⟩
    let v : Verifier := ⟨c, .withOverrides (fun _ => some long) none⟩
    let id : TokenId := .generate 5 ⟨0, 1⟩
    let down (command : String) : Table String Fault :=
      .set .empty command ⟨"ConnectionError", "down"⟩
    let held (faults : Table String Fault) : World HashServer := ⟨{ HashServer.empty with
      hashes := .set .empty (Remote.key "tokens" id)
        (.ofRecord (.issued id none none .emptyObject))
      faults }, []⟩
    let bare (faults : Table String Fault) : World HashServer :=
      ⟨{ HashServer.empty with faults }, []⟩
    let s := v.onServer "tokens"
    ∃ wire : String, c.encode .email id (v.policy.ttlFor .email) = .ok wire ∧
      ((s.lookup long (Text.ofString wire)).run (held .empty)).1 =
        .error (.unwritable .tooLong) ∧
      (∃ r, ((s.lookup long (Text.ofString wire)).run (held (down "pipeline"))).1 =
        .ok (some r)) ∧
      ((s.touch 6 (Text.ofString wire)).run (bare (down "hset"))).1 = .ok true := by
  intro long c v id down held bare s
  have unwritable : Numeral.isWritable long = false :=
    Numeral.isWritable_pow_eq_false rfl (by decide)
  have big : 5 ≤ long := calc
    (5 : Int) ≤ 10 ^ 1 := by decide
    _ ≤ 10 ^ 4300 := pow_le_pow_right₀ (by decide) (by decide)
  clear_value long
  have lifetime : v.policy.ttlFor .email = long := if_pos (by omega)
  have time : id.timestampMs = 5 := by decide
  obtain ⟨wire, encoded, accepted⟩ := @exists_accepted v (fun plain => nomatch plain) .email id
    fun embeds => absurd embeds (by decide)
  rw [lifetime, time] at accepted
  let r : Record := .issued id none none .emptyObject
  have kept : Fields.IsPersistable r := ⟨by decide, by decide +kernel⟩
  have under : (held .empty).store.hashes.get? (Remote.key "tokens" id) =
      some (Fields.ofRecord r) := Table.get?_set_self _ _ _
  -- What is read without faults is read with any that leave the read alone.
  obtain ⟨x, told, facts, runs⟩ := Remote.exists_run_get "tokens" long id (held .empty).store
  have read := (runs .empty [] rfl).symm.trans
    (Remote.run_get_held (w := held .empty) rfl under kept nofun)
  obtain rfl : x = .ok (some (Fields.reread r)) := congrArg Prod.fst read
  obtain ⟨full, short⟩ := facts _ rfl
  have latest : ((Fields.reread r).markAccessed long).accessed = long := by
    rw [Record.accessed_markAccessed, show (Fields.reread r).accessed = id.timestampMs from rfl,
      time, max_eq_right big]
  have accepted' := accepted long (by omega)
  refine ⟨wire, encoded, ?_, ⟨(Fields.reread r).markAccessed long, ?_⟩, ?_⟩
  · obtain ⟨writable, -⟩ | ⟨-, -, failed⟩ :=
      lookup_calmed (w := held .empty) accepted' full short runs
    · rw [latest, unwritable] at writable
      cases writable
    · exact failed
  · have read := runs (down "pipeline") [] (Table.get?_set_of_ne _ (by decide) _)
    exact lookup_cut (w := held (down "pipeline")) accepted' read full
      (by rw [latest, unwritable]) nofun
  · refine touch_bare (w := bare (down "hset")) (accepted 6 (by omega)) rfl ?_
    intro c member
    refine Table.get?_set_of_ne _ ?_ _
    revert c
    simp [Remote.askCalls, BearerToken.Call.name]

end Server

end Service

end BearerToken
