import Mathlib
import BearerToken.Proofs.Store.Faults
import BearerToken.Proofs.Store.Upsert

/-!
# Stores in many namespaces of one server

The key of a record is the namespace and the canonical identifier with a colon between them. A
namespace may hold colons, identifiers and other namespaces, and still no two records have one key:
an identifier has a fixed width, so a key is cut into its parts from the right. So whatever is
written in one namespace, with whatever success, is not seen in another, nor at another identifier.
-/

namespace BearerToken

namespace Remote

open HashServer (call)

variable {ns ns' : Text} {id id' : TokenId} {nowMs accessed ttl : Int} {r : Record} {k : Text}
  {s t : HashServer} {w : World HashServer}

/-- A key is cut into namespace and identifier from the right. -/
theorem key_eq_iff : key ns id = key ns' id' ↔ (ns, id) = (ns', id') := by
  constructor
  · intro same
    have width (i : TokenId) : (Text.ofString (":" ++ i.canonical)).length = 37 := by
      simp [Text.ofString, Text.ofChars]
    obtain ⟨spaces, names⟩ := List.append_inj' same (by rw [width, width])
    subst spaces
    rw [key_injective same]
  · intro same
    cases same
    rfl

/-- What a read of a key sees is the same. -/
structure SameAt (k : Text) (s t : HashServer) : Prop where
  hash : t.hashes.get? k = s.hashes.get? k
  gives : t.givesBytes = s.givesBytes

namespace SameAt

theorem trans {u : HashServer} (first : SameAt k s t) (rest : SameAt k t u) : SameAt k s u :=
  ⟨rest.hash.trans first.hash, rest.gives.trans first.gives⟩

theorem heard (s : HashServer) (calls : List Call) : SameAt k s (s.heard calls) := ⟨rfl, rfl⟩

theorem withFaults (s : HashServer) (faults : Table String Fault) :
    SameAt k s { s with faults } := ⟨rfl, rfl⟩

theorem write {other : Text} (apart : other ≠ k) (s : HashServer) (calls : List Call)
    (fields : Fields) : SameAt k s ((s.heard calls).write other fields) where
  hash := by
    rw [HashServer.get?_write, if_neg apart]
    rfl
  gives := rfl

theorem cellsAt_eq (same : SameAt k s t) : t.cellsAt k = s.cellsAt k := by
  have fields : t.fieldsAt k = s.fieldsAt k := by
    rw [HashServer.fieldsAt, same.hash, HashServer.fieldsAt]
  have cell (text : Text) : t.cell text = s.cell text := by
    rw [HashServer.cell, same.gives, HashServer.cell]
  simp only [HashServer.cellsAt, fields, cell]

/-- A write that is cut short has changed nothing that is read. -/
theorem of_runs {calls : List Call} {wrap : Text → StoreError} {i : TokenId}
    {made done : Except Failure Unit × World HashServer} (runs : Runs w calls wrap i made done)
    (whole : SameAt k w.store done.2.store) : SameAt k w.store made.2.store := by
  rw [Runs] at runs
  cases cut : w.store.interruption? calls with
  | some cut' =>
      rw [cut] at runs
      subst runs
      exact heard ..
  | none =>
      rw [cut] at runs
      subst runs
      exact whole

theorem put (apart : key ns id ≠ k) (w : World HashServer) (nowMs : Int) (r : Record) (ttl : Int) :
    SameAt k w.store (((store ns).put nowMs id r ttl).run w).2.store := by
  cases fault : Fields.fault? r with
  | none => exact of_runs (runs_put_fit fault w nowMs id ttl) (write apart ..)
  | some cause => exact of_runs (runs_put_unfit fault w nowMs id ttl) (heard ..)

theorem setAccessed (apart : key ns id ≠ k) (w : World HashServer) (nowMs accessed ttl : Int) :
    SameAt k w.store (((store ns).setAccessed nowMs id accessed ttl).run w).2.store := by
  -- Where there is nothing at the key, or the time cannot be written, only questions are asked.
  cases absent : (w.store.fieldsAt (key ns id)).isEmpty with
  | true =>
      exact of_runs (runs_setAccessed (makes_ask_absent absent accessed ttl) rfl nowMs) (heard ..)
  | false =>
      cases writable : Numeral.isWritable accessed with
      | true =>
          exact of_runs (runs_setAccessed (makes_note absent writable ttl) rfl nowMs)
            (write apart ..)
      | false =>
          exact of_runs (runs_setAccessed (makes_note_unwritable absent writable ttl) rfl nowMs)
            (heard ..)

theorem perform (apart : key ns id ≠ k) (w : World HashServer) (nowMs : Int) (call : Write) :
    SameAt k w.store ((call.perform (store ns) id nowMs).run w).2.store := by
  cases call with
  | put r ttl => exact put apart w nowMs r ttl
  | setAccessed accessed ttl => exact setAccessed apart w nowMs accessed ttl

end SameAt

/-- A write through the store of a namespace, at a time, while some commands of the client fail. -/
structure Attempt where
  ns : Text
  id : TokenId
  nowMs : Int
  write : Write
  faults : Table String Fault

namespace Attempt

/-- The world after the attempt, whether it succeeds or fails. -/
def run (a : Attempt) (w : World HashServer) : World HashServer :=
  ((a.write.perform (store a.ns) a.id a.nowMs).run
    { w with store := { w.store with faults := a.faults } }).2

/-- The world after some attempts, the first one first. -/
def after (attempts : List Attempt) (w : World HashServer) : World HashServer :=
  attempts.foldl (fun w a => a.run w) w

theorem sameAt_run {a : Attempt} (apart : key a.ns a.id ≠ k) (w : World HashServer) :
    SameAt k w.store (a.run w).store := by
  have faulty := SameAt.withFaults (k := k) w.store a.faults
  exact faulty.trans (SameAt.perform apart { w with store := _ } a.nowMs a.write)

theorem sameAt_after {attempts : List Attempt} (apart : ∀ a ∈ attempts, key a.ns a.id ≠ k)
    (w : World HashServer) : SameAt k w.store (after attempts w).store := by
  induction attempts generalizing w with
  | nil => exact ⟨rfl, rfl⟩
  | cons a rest ih =>
      obtain ⟨first, others⟩ := List.forall_mem_cons.mp apart
      exact (sameAt_run first w).trans (ih others (a.run w))

end Attempt

theorem fetch_eq (k : Text) (s : HashServer) :
    HashServer.fetch k s = match s.faults.get? "hgetall" with
      | some fault => (.error fault, s.heard [.fetch k])
      | none => (.ok (s.cellsAt k), s.heard [.fetch k]) := by
  change HashServer.Step.bind (call (.fetch k)) _ s = _
  simp only [HashServer.Step.bind, call, Call.name]
  cases s.faults.get? "hgetall" with
  | some fault => rfl
  | none => rfl

/-- A read gives and reports the same where it sees the same and meets the same faults. -/
theorem alike_get_sameAt (ns : Text) (id : TokenId) (nowMs : Int) :
    let P (s t : HashServer) := SameAt (key ns id) s t ∧ t.faults = s.faults
    Action.Alike P P ((store ns).get nowMs id) ((store ns).get nowMs id) fun _ => True := by
  intro P
  have reads : Action.Alike P P (attempt (HashServer.fetch (key ns id)))
      (attempt (HashServer.fetch (key ns id))) fun _ => True := by
    refine Action.alike_onStore ?_
    rintro s t ⟨same, faults⟩
    rw [fetch_eq, fetch_eq, faults, same.cellsAt_eq]
    have still : P (s.heard [.fetch (key ns id)]) (t.heard [.fetch (key ns id)]) :=
      ⟨⟨same.hash, same.gives⟩, faults⟩
    cases s.faults.get? "hgetall" with
    | some fault => exact ⟨rfl, still, trivial⟩
    | none => exact ⟨rfl, still, trivial⟩
  simp only [store]
  refine reads.andThen ?_
  intro answer _
  obtain fault | _ | cells := answer
  · exact (Action.alike_emit _).andThen fun _ _ => Action.alike_fail _
  · exact Action.alike_pure trivial
  · exact Action.alike_ofReading _

/-- Writes in other namespaces or at other identifiers, whether they succeed or fail, change neither
the hash of a record nor what is read of it. -/
theorem isolated_of_apart {attempts : List Attempt}
    (apart : ∀ a ∈ attempts, (a.ns, a.id) ≠ (ns, id)) (w : World HashServer) :
    let w' := Attempt.after attempts w
    w'.store.hashes.get? (key ns id) = w.store.hashes.get? (key ns id) ∧
      ∀ faults nowMs events,
        let before := ((store ns).get nowMs id).run ⟨{ w.store with faults }, events⟩
        let after := ((store ns).get nowMs id).run ⟨{ w'.store with faults }, events⟩
        after.1 = before.1 ∧ after.2.events = before.2.events := by
  intro w'
  have keys : ∀ a ∈ attempts, key a.ns a.id ≠ key ns id := by
    intro a member same
    exact apart a member (key_eq_iff.mp same)
  have same := Attempt.sameAt_after keys w
  refine ⟨same.hash, ?_⟩
  intro faults nowMs events
  obtain ⟨result, s, t, log, made, made', -, -⟩ := alike_get_sameAt ns id nowMs
    { w.store with faults } { w'.store with faults } events ⟨⟨same.hash, same.gives⟩, rfl⟩
  rw [made, made']
  exact ⟨rfl, rfl⟩

/-- One namespace starts with the other and a colon. A write that fails and two that succeed leave a
record in the first, and none is found in the second. -/
theorem isolated_of_apart_colon :
    let outer : Text := "tokens"
    let inner : Text := "tokens:tokens"
    let id : TokenId := .generate 5 ⟨0, 0⟩
    let record : Record := .issued id none none .emptyObject
    let attempts : List Attempt :=
      [⟨outer, id, 5, .put record 60, ⟨[("execute", ⟨"TimeoutError", "timed out"⟩)]⟩⟩,
        ⟨outer, id, 6, .put record 60, .empty⟩, ⟨outer, id, 7, .setAccessed 7 60, .empty⟩]
    let w : World HashServer := ⟨.empty, []⟩
    let w' := Attempt.after attempts w
    (w'.store.hashes.get? (key outer id)).isSome ∧ (∀ a ∈ attempts, (a.ns, a.id) ≠ (inner, id)) ∧
      w'.store.hashes.get? (key inner id) = none ∧
      (((store inner).get 8 id).run ⟨{ w'.store with faults := .empty }, []⟩).1 = .ok none := by
  intro outer inner id record attempts w w'
  have written : (w'.store.hashes.get? (key outer id)).isSome := by decide +kernel
  have apart : ∀ a ∈ attempts, (a.ns, a.id) ≠ (inner, id) := by decide +kernel
  obtain ⟨hash, reads⟩ := isolated_of_apart apart w
  exact ⟨written, apart, hash, (reads .empty 8 []).1⟩

end Remote

end BearerToken
