import Mathlib
import BearerToken.Proofs.Store.Remote

/-!
# Writes that meet faults

Any call to the server can fail, whatever it holds. The calls of a write are made in a row, which
leaves off at the first that fails, and what was queued until then is lost. So a write is done as a
whole, its fields and its retention queued before the one call that executes them, or no hash has
changed. A change of the access time asks for the key first, and where there are no fields it makes
none of the calls that write.
-/

namespace BearerToken

namespace HashServer

variable {α β : Type} {s : HashServer} {step mid last : Step α} {calls later made : List Call}
  {fault : Fault}

/-- The calls of a row that are made if one of them fails, and its fault. -/
def interruption? (s : HashServer) : List Call → Option (List Call × Fault)
  | [] => none
  | c :: rest =>
    match s.faults.get? c.name with
    | some fault => some ([c], fault)
    | none => (s.interruption? rest).map fun cut => (c :: cut.1, cut.2)

theorem heard_nil (s : HashServer) : s.heard [] = s := by
  rw [heard, List.append_nil]

@[simp] theorem interruption?_heard (s : HashServer) (made calls : List Call) :
    (s.heard made).interruption? calls = s.interruption? calls := by
  induction calls with
  | nil => rfl
  | cons c rest ih =>
      rw [interruption?, interruption?, ih]
      rfl

theorem interruption?_append (s : HashServer) (calls later : List Call) :
    s.interruption? (calls ++ later) =
      (s.interruption? calls <|>
        (s.interruption? later).map fun cut => (calls ++ cut.1, cut.2)) := by
  induction calls with
  | nil => simp [interruption?]
  | cons c rest ih =>
      rw [List.cons_append, interruption?, interruption?, ih]
      cases s.faults.get? c.name with
      | some fault => rfl
      | none =>
          cases s.interruption? rest with
          | some cut => rfl
          | none => simp [Function.comp_def]

/-- A row of calls is made to its end just if none of them fails. -/
theorem interruption?_eq_none_iff :
    s.interruption? calls = none ↔ ∀ c ∈ calls, s.faults.get? c.name = none := by
  induction calls with
  | nil => simp [interruption?]
  | cons c rest ih =>
      rw [interruption?, List.forall_mem_cons, ← ih]
      cases s.faults.get? c.name with
      | some fault => simp
      | none => simp

theorem prefix_of_interruption (cut : s.interruption? calls = some (made, fault)) :
    made <+: calls := by
  induction calls generalizing made with
  | nil => cases cut
  | cons c rest ih =>
      rw [interruption?] at cut
      cases fails : s.faults.get? c.name with
      | some fault' =>
          rw [fails] at cut
          cases cut
          exact ⟨rest, rfl⟩
      | none =>
          rw [fails] at cut
          obtain ⟨⟨made', fault'⟩, cut', same⟩ := Option.map_eq_some_iff.mp cut
          cases same
          exact List.cons_prefix_cons.mpr ⟨rfl, ih cut'⟩

/-- From the server, the step makes the calls in a row, up to the first that fails, and goes on with
`last` once all of them have succeeded. -/
def Makes (s : HashServer) (step : Step α) (calls : List Call) (last : Step α) : Prop :=
  step s =
    match s.interruption? calls with
    | some (made, fault) => (.error fault, s.heard made)
    | none => last (s.heard calls)

theorem Makes.of_fault (makes : s.Makes step calls last)
    (cut : s.interruption? calls = some (made, fault)) : step s = (.error fault, s.heard made) := by
  rw [makes, cut]

theorem Makes.of_none (makes : s.Makes step calls last) (whole : s.interruption? calls = none) :
    step s = last (s.heard calls) := by
  rw [makes, whole]

theorem makes_nil (s : HashServer) (step : Step α) : s.Makes step [] step := by
  rw [Makes, interruption?, heard_nil]

theorem makes_call {c : Call} (rest : (s.heard [c]).Makes step calls last) :
    s.Makes (call c >>= fun _ => step) (c :: calls) last := by
  have called : call c s =
      match s.faults.get? c.name with
      | some fault => (.error fault, s.heard [c])
      | none => (.ok (), s.heard [c]) := rfl
  change Step.bind (call c) (fun _ => step) s = _
  rw [Step.bind, called, interruption?]
  cases s.faults.get? c.name with
  | some fault => rfl
  | none =>
      simp only
      rw [rest, interruption?_heard]
      cases s.interruption? calls with
      | some cut => simp
      | none => simp

theorem Makes.congr (makes : s.Makes step calls mid)
    (same : mid (s.heard calls) = last (s.heard calls)) : s.Makes step calls last := by
  rw [Makes, makes, same]

theorem Makes.append (first : s.Makes step calls mid)
    (rest : (s.heard calls).Makes mid later last) : s.Makes step (calls ++ later) last := by
  rw [Makes, interruption?_append]
  cases cut : s.interruption? calls with
  | some cut' =>
      obtain ⟨made, fault⟩ := cut'
      exact first.of_fault cut
  | none =>
      rw [first.of_none cut, rest, interruption?_heard]
      cases s.interruption? later with
      | some cut' => simp
      | none => simp

theorem Makes.bind (makes : s.Makes step calls last) (f : α → Step β) :
    s.Makes (step >>= f) calls (last >>= f) := by
  change Step.bind step f s = _
  rw [Step.bind, makes]
  cases s.interruption? calls with
  | some cut => rfl
  | none => rfl

theorem makes_commit (s : HashServer) (key : Text) (fields : Fields) (ttl : Int) :
    s.Makes (commit key fields ttl) [.set key fields, .expire key ttl, .execute]
      fun s => (.ok (), s.write key fields) :=
  makes_call (makes_call (makes_call (makes_nil _ _)))

/-- The fields are laid over those under the key by these calls, and nothing has changed under any
other key. -/
structure Written (key : Text) (fields : Fields) (calls : List Call) (s s' : HashServer) :
    Prop where
  under : s'.hashes.get? key = some ((s.fieldsAt key).merge fields)
  others : ∀ other, key ≠ other → s'.hashes.get? other = s.hashes.get? other
  called : s'.calls = s.calls ++ calls

theorem written_write (s : HashServer) (key : Text) (fields : Fields) (calls : List Call) :
    Written key fields calls s ((s.heard calls).write key fields) where
  under := by
    rw [get?_write, if_pos rfl]
    rfl
  others other differs := by
    rw [get?_write, if_neg differs]
    rfl
  called := rfl

end HashServer

namespace Remote

open HashServer (Step Makes Written call)

variable {ns : Text} {nowMs ttl accessed : Int} {id : TokenId} {r : Record}
  {w : World HashServer} {k : Text}

section Steps

variable {s : HashServer}

theorem makes_putSteps (s : HashServer) (k : Text) (fields : Fields) (ttl : Int) :
    s.Makes (putSteps k (.ok fields) ttl) (putCalls k fields ttl)
      fun s => (.ok (), s.write k fields) :=
  HashServer.makes_call (HashServer.makes_commit _ _ _ _)

theorem makes_putSteps_unwritable (s : HashServer) (k : Text) (cause : Json.WriteError)
    (ttl : Int) : s.Makes (putSteps k (.error cause) ttl) [.pipeline] (return ()) :=
  HashServer.makes_call (HashServer.makes_nil _ _)

/-- The calls that ask whether there are fields under a key. -/
def askCalls (k : Text) : List Call := [.pipeline, .watch k, .exists k]

theorem makes_ask (s : HashServer) (k : Text) (accessed ttl : Int) :
    s.Makes (setAccessedSteps k accessed ttl) (askCalls k) fun s =>
      (if !(s.fieldsAt k).isEmpty then noteSteps k accessed ttl else return .ok () :
        Step (Except Json.WriteError Unit)) s :=
  HashServer.makes_call (HashServer.makes_call
    ((HashServer.makes_call (HashServer.makes_nil _ _)).bind _))

theorem makes_ask_absent (absent : (s.fieldsAt k).isEmpty = true) (accessed ttl : Int) :
    s.Makes (setAccessedSteps k accessed ttl) (askCalls k) (return .ok ()) := by
  refine (makes_ask s k accessed ttl).congr ?_
  have absent : ((s.heard (askCalls k)).fieldsAt k).isEmpty = true := absent
  simp only [absent]
  rfl

theorem makes_ask_held (held : (s.fieldsAt k).isEmpty = false) (accessed ttl : Int) :
    s.Makes (setAccessedSteps k accessed ttl) (askCalls k) (noteSteps k accessed ttl) := by
  refine (makes_ask s k accessed ttl).congr ?_
  have held : ((s.heard (askCalls k)).fieldsAt k).isEmpty = false := held
  simp only [held]
  rfl

/-- What a change of the access time writes. -/
def notedFields (accessed : Int) : Fields := ⟨[(Fields.accessedField, Numeral.write accessed)]⟩

theorem makes_note (held : (s.fieldsAt k).isEmpty = false) (writable : Numeral.isWritable accessed)
    (ttl : Int) :
    s.Makes (setAccessedSteps k accessed ttl) (setAccessedCalls k (notedFields accessed) ttl)
      fun s => (.ok (.ok ()), s.write k (notedFields accessed)) := by
  refine (makes_ask_held held accessed ttl).append ?_
  rw [noteSteps]
  simp only [writable]
  exact HashServer.makes_call ((HashServer.makes_commit _ k (notedFields accessed) ttl).bind _)

theorem makes_note_unwritable (held : (s.fieldsAt k).isEmpty = false)
    (unwritable : Numeral.isWritable accessed = false) (ttl : Int) :
    s.Makes (setAccessedSteps k accessed ttl) (askCalls k ++ [.multi])
      (return .error .tooLong) := by
  refine (makes_ask_held held accessed ttl).append ?_
  rw [noteSteps]
  simp only [unwritable]
  exact HashServer.makes_call (HashServer.makes_nil _ _)

end Steps

/-- A write that makes the calls in a row: a fault is reported and becomes an error of the store,
and without one the write ends as `done` says. -/
def Runs (w : World HashServer) (calls : List Call) (wrap : Text → StoreError) (id : TokenId)
    (made done : Except Failure Unit × World HashServer) : Prop :=
  made =
    match w.store.interruption? calls with
    | some (sent, fault) => (.error (.store (wrap fault.message)),
        ⟨w.store.heard sent, w.events ++ [.writeFailed id fault.message]⟩)
    | none => done

section Runs

variable {calls : List Call} {cause : Json.WriteError}

theorem runs_put {last : Step Unit} {s' : HashServer}
    (makes : w.store.Makes (putSteps (key ns id) (Fields.persist r) ttl) calls last)
    (ends : last (w.store.heard calls) = (.ok (), s')) (nowMs : Int) :
    Runs w calls .write id (((store ns).put nowMs id r ttl).run w)
      ((Fields.persist r).mapError Failure.unwritable |>.map fun _ => (),
        { w with store := s' }) := by
  rw [Runs]
  simp only [store]
  cases cut : w.store.interruption? calls with
  | some cut' =>
      rw [Action.run_bind_ok (run_attempt (makes.of_fault cut))]
      rfl
  | none =>
      rw [Action.run_bind_ok (run_attempt ((makes.of_none cut).trans ends))]
      cases Fields.persist r with
      | ok fields => rfl
      | error cause => rfl

theorem runs_put_fit (writable : Fields.fault? r = none) (w : World HashServer) (nowMs : Int)
    (id : TokenId) (ttl : Int) :
    let calls := putCalls (key ns id) (Fields.ofRecord r) ttl
    Runs w calls .write id (((store ns).put nowMs id r ttl).run w)
      (.ok (),
        { w with store := (w.store.heard calls).write (key ns id) (Fields.ofRecord r) }) := by
  intro calls
  have persisted := Fields.persist_eq writable
  have makes := makes_putSteps w.store (key ns id) (Fields.ofRecord r) ttl
  rw [← persisted] at makes
  have runs := runs_put makes rfl nowMs
  rw [persisted] at runs
  exact runs

theorem runs_put_unfit (unwritable : Fields.fault? r = some cause) (w : World HashServer)
    (nowMs : Int) (id : TokenId) (ttl : Int) :
    Runs w [.pipeline] .write id (((store ns).put nowMs id r ttl).run w)
      (.error (.unwritable cause), { w with store := w.store.heard [.pipeline] }) := by
  have persisted : Fields.persist r = .error cause := by rw [Fields.persist, unwritable]
  have makes := makes_putSteps_unwritable w.store (key ns id) cause ttl
  rw [← persisted] at makes
  have runs := runs_put makes rfl nowMs
  rw [persisted] at runs
  exact runs

theorem runs_setAccessed {last : Step (Except Json.WriteError Unit)} {s' : HashServer}
    {written : Except Json.WriteError Unit}
    (makes : w.store.Makes (setAccessedSteps (key ns id) accessed ttl) calls last)
    (ends : last (w.store.heard calls) = (.ok written, s')) (nowMs : Int) :
    Runs w calls .access id (((store ns).setAccessed nowMs id accessed ttl).run w)
      (written.mapError Failure.unwritable, { w with store := s' }) := by
  rw [Runs]
  simp only [store]
  cases cut : w.store.interruption? calls with
  | some cut' =>
      rw [Action.run_bind_ok (run_attempt (makes.of_fault cut))]
      rfl
  | none =>
      rw [Action.run_bind_ok (run_attempt ((makes.of_none cut).trans ends))]
      cases written with
      | ok _ => rfl
      | error cause => rfl

end Runs

/-- What becomes of a write of fields under a key by these calls. Something may stand against the
text of what is to be written, and a fault becomes an error of the store. -/
structure WriteOutcome (k : Text) (fields : Fields) (calls : List Call)
    (unfit : Option Json.WriteError) (wrap : Text → StoreError) (w : World HashServer)
    (made : Except Failure Unit × World HashServer) : Prop where
  unchanged : ∀ e, made.1 = .error e → made.2.store.hashes = w.store.hashes
  failure : ∀ e, made.1 = .error e →
    (∃ fault : Fault, e = .store (wrap fault.message)) ∨
      ∃ cause, unfit = some cause ∧ e = .unwritable cause
  written : made.1 = .ok () → Written k fields calls w.store made.2.store
  sent : ∃ sent, sent <+: calls ∧ made.2.store.calls = w.store.calls ++ sent
  succeeds : made.1 = .ok () ↔ unfit = none ∧ ∀ c ∈ calls, w.store.faults.get? c.name = none

section Outcome

variable {fields : Fields} {calls sent : List Call} {wrap : Text → StoreError}
  {made : Except Failure Unit × World HashServer} {cause : Json.WriteError}

theorem WriteOutcome.of_fit
    (runs : Runs w calls wrap id made
      (.ok (), { w with store := (w.store.heard calls).write k fields })) :
    WriteOutcome k fields calls none wrap w made := by
  rw [Runs] at runs
  cases cut : w.store.interruption? calls with
  | some cut' =>
      obtain ⟨sent, fault⟩ := cut'
      rw [cut] at runs
      subst runs
      refine ⟨fun _ _ => rfl, ?_, nofun, ⟨sent, HashServer.prefix_of_interruption cut, rfl⟩, ?_⟩
      · intro e failed
        cases failed
        exact .inl ⟨fault, rfl⟩
      · rw [← HashServer.interruption?_eq_none_iff, cut]
        simp
  | none =>
      rw [cut] at runs
      subst runs
      refine ⟨nofun, nofun, fun _ => HashServer.written_write _ _ _ _,
        ⟨calls, calls.prefix_refl, rfl⟩, ?_⟩
      rw [← HashServer.interruption?_eq_none_iff, cut]
      simp

theorem WriteOutcome.of_unfit (before : sent <+: calls)
    (runs : Runs w sent wrap id made
      (.error (.unwritable cause), { w with store := w.store.heard sent })) :
    WriteOutcome k fields calls (some cause) wrap w made := by
  rw [Runs] at runs
  cases cut : w.store.interruption? sent with
  | some cut' =>
      obtain ⟨sent', fault⟩ := cut'
      rw [cut] at runs
      subst runs
      have before' := (HashServer.prefix_of_interruption cut).trans before
      refine ⟨fun _ _ => rfl, ?_, by simp, ⟨sent', before', rfl⟩, by simp⟩
      intro e failed
      cases failed
      exact .inl ⟨fault, rfl⟩
  | none =>
      rw [cut] at runs
      subst runs
      refine ⟨fun _ _ => rfl, ?_, by simp, ⟨sent, before, rfl⟩, by simp⟩
      intro e failed
      cases failed
      exact .inr ⟨cause, rfl, rfl⟩

theorem outcome_put (ns : Text) (nowMs : Int) (id : TokenId) (r : Record) (ttl : Int)
    (w : World HashServer) :
    WriteOutcome (key ns id) (Fields.ofRecord r) (putCalls (key ns id) (Fields.ofRecord r) ttl)
      (Fields.fault? r) .write w (((store ns).put nowMs id r ttl).run w) := by
  cases fault : Fields.fault? r with
  | none => exact .of_fit (runs_put_fit fault w nowMs id ttl)
  | some cause => exact .of_unfit ⟨_, rfl⟩ (runs_put_unfit fault w nowMs id ttl)

theorem outcome_setAccessed {ns : Text} {id : TokenId}
    (held : (w.store.fieldsAt (key ns id)).isEmpty = false) (nowMs accessed ttl : Int) :
    WriteOutcome (key ns id) (notedFields accessed)
      (setAccessedCalls (key ns id) (notedFields accessed) ttl)
      (Json.fault? Limits.depth (.int accessed)) .access w
      (((store ns).setAccessed nowMs id accessed ttl).run w) := by
  cases writable : Numeral.isWritable accessed with
  | true =>
      rw [Fields.fault_int.mpr writable]
      exact .of_fit (runs_setAccessed (makes_note held writable ttl) rfl nowMs)
  | false =>
      have fault : Json.fault? Limits.depth (.int accessed) = some .tooLong := by
        rw [Json.fault?, writable]
        rfl
      rw [fault]
      exact .of_unfit ⟨_, rfl⟩
        (runs_setAccessed (makes_note_unwritable held writable ttl) rfl nowMs)

end Outcome

/-- What becomes of a change of the access time where there are no fields: it asks, and writes
nothing. -/
structure SkipOutcome (k : Text) (w : World HashServer)
    (made : Except Failure Unit × World HashServer) : Prop where
  unchanged : made.2.store.hashes = w.store.hashes
  failure : ∀ e, made.1 = .error e → ∃ fault : Fault, e = .store (.access fault.message)
  sent : ∃ sent, sent <+: askCalls k ∧ made.2.store.calls = w.store.calls ++ sent
  succeeds : made.1 = .ok () ↔ ∀ c ∈ askCalls k, w.store.faults.get? c.name = none

theorem outcome_skip (absent : (w.store.fieldsAt (key ns id)).isEmpty = true)
    (nowMs accessed ttl : Int) :
    SkipOutcome (key ns id) w (((store ns).setAccessed nowMs id accessed ttl).run w) := by
  have runs := runs_setAccessed (makes_ask_absent absent accessed ttl) rfl nowMs
  rw [Runs] at runs
  cases cut : w.store.interruption? (askCalls (key ns id)) with
  | some cut' =>
      obtain ⟨sent, fault⟩ := cut'
      rw [cut] at runs
      rw [runs]
      refine ⟨rfl, ?_, ⟨sent, HashServer.prefix_of_interruption cut, rfl⟩, ?_⟩
      · intro e failed
        cases failed
        exact ⟨fault, rfl⟩
      · rw [← HashServer.interruption?_eq_none_iff, cut]
        simp
  | none =>
      rw [cut] at runs
      rw [runs]
      refine ⟨rfl, nofun, ⟨_, List.prefix_rfl, rfl⟩, ?_⟩
      rw [← HashServer.interruption?_eq_none_iff, cut]
      exact ⟨fun _ => rfl, fun _ => rfl⟩

/-- Whatever the server holds and whichever of its calls fail, a write is done as a whole or changes
no hash. It fails with an error of the store, or because what is to be written has no text. Where
there is no record, a change of the access time makes none. -/
theorem outcome_of_write (ns : Text) (nowMs : Int) (id : TokenId) (r : Record) (accessed ttl : Int)
    (w : World HashServer) :
    let k := key ns id
    WriteOutcome k (Fields.ofRecord r) (putCalls k (Fields.ofRecord r) ttl) (Fields.fault? r)
        .write w (((store ns).put nowMs id r ttl).run w) ∧
      if (w.store.fieldsAt k).isEmpty then
        SkipOutcome k w (((store ns).setAccessed nowMs id accessed ttl).run w)
      else
        WriteOutcome k (notedFields accessed) (setAccessedCalls k (notedFields accessed) ttl)
          (Json.fault? Limits.depth (.int accessed)) .access w
          (((store ns).setAccessed nowMs id accessed ttl).run w) := by
  intro k
  refine ⟨outcome_put ns nowMs id r ttl w, ?_⟩
  split
  · next absent => exact outcome_skip absent nowMs accessed ttl
  · next held => exact outcome_setAccessed (Bool.eq_false_iff.mpr held) nowMs accessed ttl

/-- On a server without faults, a time that is too long to be written stands in the way of a write,
and not as an error of the store. A hash without fields is left without a time of access. -/
theorem outcome_of_write_unwritten :
    let id : TokenId := .generate 5 ⟨0, 0⟩
    let record (created : Int) : Record := ⟨id, "L", created, 5, none, .emptyObject⟩
    let server (fields : Fields) : World HashServer :=
      ⟨{ HashServer.empty with hashes := .set .empty (key "tokens" id) fields }, []⟩
    let bare := server .empty
    let skipped := ((store "tokens").setAccessed 6 id 6 1).run bare
    (((store "tokens").put 6 id (record (10 ^ 4300)) 1).run bare).1 =
        .error (.unwritable .tooLong) ∧
      (((store "tokens").setAccessed 6 id (10 ^ 4300) 1).run
        (server (Fields.ofRecord (record 5)))).1 = .error (.unwritable .tooLong) ∧
      skipped.1 = .ok () ∧ skipped.2.store.hashes = bare.store.hashes ∧
      skipped.2.store.calls = askCalls (key "tokens" id) := by
  intro id record server bare skipped
  have unwritable : Numeral.isWritable (10 ^ 4300) = false :=
    Numeral.isWritable_pow_eq_false rfl (by decide)
  generalize (10 ^ 4300 : Int) = long at unwritable
  have unfit : Fields.fault? (record long) = some .tooLong := by
    simp [Fields.fault?, Json.fault?, unwritable, record]
  have held (fields : Fields) :
      (server fields).store.hashes.get? (key "tokens" id) = some fields :=
    Table.get?_set_self _ _ _
  have calm (fields : Fields) : (server fields).store.Calm := rfl
  have absent : (bare.store.fieldsAt (key "tokens" id)).isEmpty = true := by
    rw [HashServer.fieldsAt_of_some (held .empty)]
    rfl
  have skips : skipped =
      (.ok (), { bare with store := bare.store.heard (askCalls (key "tokens" id)) }) := by
    have runs := runs_setAccessed (makes_ask_absent absent 6 1) rfl 6
    rwa [Runs, HashServer.interruption?_eq_none_iff.mpr fun _ _ => rfl] at runs
  refine ⟨?_, ?_, ?_⟩
  · rw [run_put_unwritable (calm .empty) unfit]
  · rw [run_setAccessed_unwritable (calm _) (held _) unwritable]
  · rw [skips]
    exact ⟨rfl, rfl, List.nil_append _⟩

end Remote

end BearerToken
