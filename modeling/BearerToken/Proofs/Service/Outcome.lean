import Mathlib
import BearerToken.Proofs.Service.Tasks

/-!
# What a use gives, whatever the store does

The uses of a token agree on whether it is honoured, as all of them ask the same verdict first. Where
the token is refused, the store is not reached, and the log alone tells why. Where it is honoured,
what a use gives is told by what the store's calls give. A failure of the store is handed on as it is,
but for one of the note of an access after the record has been read.
-/

namespace BearerToken

/-- A store whose calls, whatever they give and whatever they do, fail only with errors of a store. -/
structure Store.Faithful {σ : Type} (store : Store σ) : Prop where
  put : ∀ nowMs id r ttl w e, ((store.put nowMs id r ttl).run w).1 = .error e →
    ∃ cause, e = .store cause
  get : ∀ nowMs id w e, ((store.get nowMs id).run w).1 = .error e → ∃ cause, e = .store cause
  setAccessed : ∀ nowMs id accessed ttl w e,
    ((store.setAccessed nowMs id accessed ttl).run w).1 = .error e → ∃ cause, e = .store cause

namespace Service

variable {σ : Type} {s : Service σ} {nowMs : Int} {token : Presented} {d : Decoded} {w w' : World σ}

section Refused

variable {cause : Rejection} (refused : s.verdict nowMs token = .error cause) (w : World σ)
include refused

theorem lookup_of_refused :
    (s.lookup nowMs token).run w = (.ok none, { w with events := w.events ++ [.rejected cause] }) :=
  run_ifUsable_rejected (Action.run_bind_error (Verifier.run_resolve_error refused w))

theorem refresh_of_refused :
    (s.refresh nowMs token).run w = (.ok none, { w with events := w.events ++ [.rejected cause] }) :=
  run_ifUsable_rejected (Action.run_bind_error (Verifier.run_resolve_error refused w))

theorem touch_of_refused :
    (s.touch nowMs token).run w = (.ok false, { w with events := w.events ++ [.rejected cause] }) :=
  run_touch_rejected (Action.run_bind_error (Verifier.run_resolve_error refused w))

end Refused

section Fetch

variable {e : Failure} {r : Record}

theorem fetch_of_error (failed : (s.store.get nowMs d.id).run w = (.error e, w')) :
    (s.fetch nowMs d).run w = (.error e, w') := Action.run_bind_error failed

theorem fetch_of_none (absent : (s.store.get nowMs d.id).run w = (.ok none, w')) :
    (s.fetch nowMs d).run w =
      (.error (.notFound d.id), { w' with events := w'.events ++ [.notFound d.id d.kind] }) :=
  Action.run_bind_ok absent

theorem fetch_of_some (found : (s.store.get nowMs d.id).run w = (.ok (some r), w')) :
    (s.fetch nowMs d).run w = (.ok r, w') := Action.run_bind_ok found

end Fetch

/-- A failure of the store is no verdict on the token. -/
theorem run_ifUsable_store {α : Type} {a : Action σ α} {cause : StoreError}
    (failed : a.run w = (.error (.store cause), w')) :
    (ifUsable a).run w = (.error (.store cause), w') :=
  run_ifUsable_failed failed (by simp) (by simp)

/-- What a refresh makes of a read of the store, where the new text is given: of a record that has been
read it gives what the write gives. -/
def rewritten (s : Service σ) (nowMs : Int) (d : Decoded) (wire : String) :
    Except Failure (Option Record) × World σ → Except Failure (Option String)
  | (.error e, _) => .error e
  | (.ok none, _) => .ok none
  | (.ok (some r), w) =>
    ((s.store.put nowMs d.id (r.markAccessed nowMs) s.policy.retentionSeconds).run w).1.map
      fun _ => some wire

theorem rewritten_eq_none_iff {wire : String} (read : Except Failure (Option Record) × World σ) :
    s.rewritten nowMs d wire read = .ok none ↔ read.1 = .ok none := by
  obtain ⟨e | _ | r, w'⟩ := read
  · simp [rewritten]
  · simp [rewritten]
  · rw [rewritten]
    cases ((s.store.put nowMs d.id (r.markAccessed nowMs) s.policy.retentionSeconds).run w').1
    all_goals simp [Except.map]

/-- Once the record is written nothing but the making of the text is left. -/
theorem result_renew {wire : String}
    (encoded : s.codec.encode .access d.id (s.policy.ttlFor .access) = .ok wire)
    (readMs nowMs : Int) (r : Record) (w : World σ) :
    ((s.renew readMs nowMs d r).run w).1 =
      ((s.store.put nowMs d.id (r.markAccessed readMs) s.policy.retentionSeconds).run w).1.map
        fun _ => wire := by
  obtain ⟨e | _, w', made⟩ :
    ∃ x w', (s.store.put nowMs d.id (r.markAccessed readMs) s.policy.retentionSeconds).run w =
      (x, w') := ⟨_, _, rfl⟩
  · rw [renew, Action.run_bind_error made, made]
    rfl
  · rw [renew, Action.run_bind_ok made, Action.run_bind_ok (Action.run_emit _ _), made]
    cases valid : s.policy.isValid .access d.id (s.policy.embeddedExpiry .access d.id) readMs with
    | true =>
        simp only [valid, encoded, Bool.not_true, Bool.false_eq_true, if_false]
        rfl
    | false =>
        simp only [valid, encoded, Bool.not_false, if_true]
        rfl

/-- After the record has been read a failure of the store cannot make the note of its access fail. -/
theorem noteAccess_of_store {id : TokenId} {accessed : Int}
    (fails : ∀ e, ((s.store.setAccessed nowMs id accessed s.policy.retentionSeconds).run w).1 =
      .error e → ∃ cause, e = .store cause) :
    ∃ w', (s.noteAccess nowMs id accessed).run w = (.ok (), w') := by
  obtain ⟨e | _, w', made⟩ :
    ∃ x w', (s.store.setAccessed nowMs id accessed s.policy.retentionSeconds).run w = (x, w') :=
      ⟨_, _, rfl⟩
  · obtain ⟨cause, rfl⟩ := fails e (by rw [made])
    exact ⟨_, Action.run_recover_error made⟩
  · exact ⟨w', Action.run_recover_ok made⟩

section Reading

variable {e : Failure} {r : Record} (accepted : s.verdict nowMs token = .ok d)
include accepted

/-- A failure to read the record is given on, unless it is one of the token. -/
theorem lookup_of_failed (failed : (s.store.get nowMs d.id).run w = (.error e, w'))
    (honoured : ∀ cause, e ≠ .rejected cause) (found : ∀ id, e ≠ .notFound id) :
    (s.lookup nowMs token).run w = (.error e, w') :=
  run_ifUsable_failed ((Action.run_bind_ok (Verifier.run_resolve_ok accepted w)).trans
    (Action.run_bind_error (fetch_of_error failed))) honoured found

theorem lookup_of_absent (absent : (s.store.get nowMs d.id).run w = (.ok none, w')) :
    (s.lookup nowMs token).run w =
      (.ok none, { w' with events := w'.events ++ [.notFound d.id d.kind] }) :=
  run_ifUsable_notFound ((Action.run_bind_ok (Verifier.run_resolve_ok accepted w)).trans
    (Action.run_bind_error (fetch_of_none absent)))

theorem lookup_of_found (found : (s.store.get nowMs d.id).run w = (.ok (some r), w'))
    (fails : ∀ e, ((s.store.setAccessed nowMs d.id (r.markAccessed nowMs).accessed
      s.policy.retentionSeconds).run w').1 = .error e → ∃ cause, e = .store cause) :
    ((s.lookup nowMs token).run w).1 = .ok (some (r.markAccessed nowMs)) := by
  obtain ⟨w'', noted⟩ := noteAccess_of_store fails
  have strict : (s.lookupStrict nowMs token).run w = (.ok (r.markAccessed nowMs), w'') :=
    (Action.run_bind_ok (Verifier.run_resolve_ok accepted w)).trans
      ((Action.run_bind_ok (fetch_of_some found)).trans (Action.run_bind_ok noted))
  rw [lookup, run_ifUsable_ok strict]

theorem refresh_of_failed (failed : (s.store.get nowMs d.id).run w = (.error e, w'))
    (honoured : ∀ cause, e ≠ .rejected cause) (found : ∀ id, e ≠ .notFound id) :
    (s.refresh nowMs token).run w = (.error e, w') :=
  run_ifUsable_failed ((Action.run_bind_ok (Verifier.run_resolve_ok accepted w)).trans
    (Action.run_bind_error (fetch_of_error failed))) honoured found

theorem refresh_of_absent (absent : (s.store.get nowMs d.id).run w = (.ok none, w')) :
    (s.refresh nowMs token).run w =
      (.ok none, { w' with events := w'.events ++ [.notFound d.id d.kind] }) :=
  run_ifUsable_notFound ((Action.run_bind_ok (Verifier.run_resolve_ok accepted w)).trans
    (Action.run_bind_error (fetch_of_none absent)))

theorem refresh_of_found {wire : String}
    (encoded : s.codec.encode .access d.id (s.policy.ttlFor .access) = .ok wire)
    (found : (s.store.get nowMs d.id).run w = (.ok (some r), w'))
    (fails : ∀ e, ((s.store.put nowMs d.id (r.markAccessed nowMs) s.policy.retentionSeconds).run
      w').1 = .error e → ∃ cause, e = .store cause) :
    ((s.refresh nowMs token).run w).1 =
      ((s.store.put nowMs d.id (r.markAccessed nowMs) s.policy.retentionSeconds).run w').1.map
        fun _ => some wire := by
  have stepped : (s.refreshStrict nowMs token).run w = (s.renew nowMs nowMs d r).run w' :=
    (Action.run_bind_ok (Verifier.run_resolve_ok accepted w)).trans
      (Action.run_bind_ok (fetch_of_some found))
  have renewed := result_renew encoded nowMs nowMs r w'
  cases written : ((s.store.put nowMs d.id (r.markAccessed nowMs) s.policy.retentionSeconds).run
    w').1 with
  | error e =>
      obtain ⟨cause, rfl⟩ := fails e written
      rw [written] at renewed
      have strict : (s.refreshStrict nowMs token).run w =
          (.error (.store cause), ((s.renew nowMs nowMs d r).run w').2) :=
        stepped.trans (Prod.ext renewed rfl)
      rw [refresh, run_ifUsable_store strict]
      rfl
  | ok _ =>
      rw [written] at renewed
      have strict : (s.refreshStrict nowMs token).run w =
          (.ok wire, ((s.renew nowMs nowMs d r).run w').2) :=
        stepped.trans (Prod.ext renewed rfl)
      rw [refresh, run_ifUsable_ok strict]
      rfl

end Reading

section Accepted

variable (faithful : s.store.Faithful) (accepted : s.verdict nowMs token = .ok d) (w : World σ)
include faithful accepted

/-- A touch gives what the note of the access gives. -/
theorem touch_of_accepted :
    ((s.touch nowMs token).run w).1 =
      ((s.store.setAccessed nowMs d.id nowMs s.policy.retentionSeconds).run w).1.map
        fun _ => true := by
  have resolved := Verifier.run_resolve_ok accepted w
  obtain ⟨e | _, w', made⟩ :
    ∃ x w', (s.store.setAccessed nowMs d.id nowMs s.policy.retentionSeconds).run w = (x, w') :=
      ⟨_, _, rfl⟩
  · obtain ⟨cause, rfl⟩ := faithful.setAccessed nowMs d.id nowMs _ w e (by rw [made])
    have strict : (s.touchStrict nowMs token).run w = (.error (.store cause), w') :=
      (Action.run_bind_ok resolved).trans (Action.run_bind_error made)
    rw [run_touch_failed strict nofun, made]
    rfl
  · have strict : (s.touchStrict nowMs token).run w =
        (.ok (), { w' with events := w'.events ++ [.touched d.id] }) :=
      (Action.run_bind_ok resolved).trans (Action.run_bind_ok made)
    rw [run_touch_ok strict, made]
    rfl

/-- A lookup gives what the read gives, with the access noted in the record. -/
theorem lookup_of_accepted :
    ((s.lookup nowMs token).run w).1 =
      ((s.store.get nowMs d.id).run w).1.map (Option.map (·.markAccessed nowMs)) := by
  obtain ⟨e | _ | r, w', made⟩ : ∃ x w', (s.store.get nowMs d.id).run w = (x, w') := ⟨_, _, rfl⟩
  · obtain ⟨cause, rfl⟩ := faithful.get nowMs d.id w e (by rw [made])
    rw [lookup_of_failed accepted made nofun nofun, made]
    rfl
  · rw [lookup_of_absent accepted made, made]
    rfl
  · rw [lookup_of_found accepted made (faithful.setAccessed nowMs d.id _ _ w'), made]
    rfl

/-- A refresh gives what the read and the write give, and a text that can be made. -/
theorem refresh_of_accepted {wire : String}
    (encoded : s.codec.encode .access d.id (s.policy.ttlFor .access) = .ok wire) :
    ((s.refresh nowMs token).run w).1 =
      s.rewritten nowMs d wire ((s.store.get nowMs d.id).run w) := by
  obtain ⟨e | _ | r, w', made⟩ : ∃ x w', (s.store.get nowMs d.id).run w = (x, w') := ⟨_, _, rfl⟩
  · obtain ⟨cause, rfl⟩ := faithful.get nowMs d.id w e (by rw [made])
    rw [refresh_of_failed accepted made nofun nofun, made]
    rfl
  · rw [refresh_of_absent accepted made, made]
    rfl
  · rw [refresh_of_found accepted encoded made (faithful.put nowMs d.id _ _ w'), made]
    rfl

end Accepted

/-- The uses of a refused token give nothing, with any store in place of the service's own, and report
the refusal with its reason and nothing else. -/
structure Refuses (s : Service σ) (nowMs : Int) (token : Presented) (cause : Rejection)
    (w told : World σ) : Prop where
  told_eq : told = { w with events := w.events ++ [.rejected cause] }
  name : (Event.rejected cause).name = "token_rejected"
  reason : (Event.rejected cause).fields.lookup "reason" = some (.string cause.reason)
  lookup : ∀ store, (Service.lookup { s with store } nowMs token).run w = (.ok none, told)
  touch : ∀ store, (Service.touch { s with store } nowMs token).run w = (.ok false, told)
  refresh : ∀ store, (Service.refresh { s with store } nowMs token).run w = (.ok none, told)

/-- The uses of an accepted token give what the calls of the store give. -/
structure Follows (s : Service σ) (nowMs : Int) (token : Presented) (d : Decoded) (w : World σ) :
    Prop where
  touch : ((s.touch nowMs token).run w).1 =
    ((s.store.setAccessed nowMs d.id nowMs s.policy.retentionSeconds).run w).1.map fun _ => true
  lookup : ((s.lookup nowMs token).run w).1 =
    ((s.store.get nowMs d.id).run w).1.map (Option.map (·.markAccessed nowMs))
  lookup_none : ((s.lookup nowMs token).run w).1 = .ok none ↔
    ((s.store.get nowMs d.id).run w).1 = .ok none
  refresh : ∃ wire, s.codec.encode .access d.id (s.policy.ttlFor .access) = .ok wire ∧
    ((s.refresh nowMs token).run w).1 =
      s.rewritten nowMs d wire ((s.store.get nowMs d.id).run w)
  refresh_none : ((s.refresh nowMs token).run w).1 = .ok none ↔
    ((s.store.get nowMs d.id).run w).1 = .ok none

theorem refuses_of_verdict {cause : Rejection} (refused : s.verdict nowMs token = .error cause)
    (w : World σ) :
    s.Refuses nowMs token cause w { w with events := w.events ++ [.rejected cause] } where
  told_eq := rfl
  name := rfl
  reason := rfl
  lookup store := lookup_of_refused (s := { s with store }) refused w
  touch store := touch_of_refused (s := { s with store }) refused w
  refresh store := refresh_of_refused (s := { s with store }) refused w

theorem follows_of_verdict (faithful : s.store.Faithful)
    (fits : Codec.Fits .access (d.id.timestampMs + s.policy.ttlFor .access))
    (accepted : s.verdict nowMs token = .ok d) (w : World σ) : s.Follows nowMs token d w := by
  obtain ⟨wire, encoded, -⟩ := Codec.encode_of_fits (c := s.codec) fits
  have lookup := lookup_of_accepted faithful accepted w
  have refresh := refresh_of_accepted faithful accepted w encoded
  refine ⟨touch_of_accepted faithful accepted w, lookup, ?_, ⟨wire, encoded, refresh⟩, ?_⟩
  · rw [lookup]
    obtain e | _ | r := ((s.store.get nowMs d.id).run w).1
    · simp [Except.map]
    · simp [Except.map]
    · simp [Except.map]
  · rw [refresh]
    exact rewritten_eq_none_iff _

theorem error_of_map {ε α β : Type} {f : α → β} {x : Except ε α} {e : ε}
    (failed : x.map f = .error e) : x = .error e := by
  cases x with
  | error e' => exact congrArg Except.error (Except.error.inj failed)
  | ok y => cases failed

/-- Where the token is accepted, every failure of a use is one of the store. -/
theorem Follows.error_store (follows : s.Follows nowMs token d w) (faithful : s.store.Faithful)
    {e : Failure} (failed : ((s.lookup nowMs token).run w).1 = .error e ∨
      ((s.touch nowMs token).run w).1 = .error e ∨
      ((s.refresh nowMs token).run w).1 = .error e) :
    ∃ cause, e = .store cause := by
  obtain failed | failed | failed := failed
  · rw [follows.lookup] at failed
    exact faithful.get _ _ _ _ (error_of_map failed)
  · rw [follows.touch] at failed
    exact faithful.setAccessed _ _ _ _ _ _ (error_of_map failed)
  · obtain ⟨wire, -, refresh⟩ := follows.refresh
    rw [refresh] at failed
    obtain ⟨e' | _ | r, w', made⟩ : ∃ x w', (s.store.get nowMs d.id).run w = (x, w') :=
      ⟨_, _, rfl⟩
    · rw [made] at failed
      cases failed
      exact faithful.get nowMs d.id w e (by rw [made])
    · rw [made] at failed
      cases failed
    · rw [made] at failed
      exact faithful.put _ _ _ _ _ _ (error_of_map failed)

/-- Whatever a store does that fails only with its own errors, an inspection tells what the other uses
give: where it gives a rejection, they give nothing and leave the store alone; where it gives a token,
they give what the store's calls give. They fail only with the store's errors. The lifetime of access
tokens has to leave their expiry within 64 bits. -/
theorem outcome_of_inspect (faithful : s.store.Faithful)
    (lower : -(2 ^ 63 - 2 ^ 48) ≤ s.policy.ttlFor .access)
    (upper : s.policy.ttlFor .access ≤ 2 ^ 63 - 2 ^ 48) (nowMs : Int) (token : Presented)
    (w : World σ) :
    (∀ e told, (s.inspect nowMs token).run w = (.error e, told) →
      ∃ cause, e = .rejected cause ∧ s.Refuses nowMs token cause w told) ∧
    (∀ d told, (s.inspect nowMs token).run w = (.ok d, told) →
      told = w ∧ s.Follows nowMs token d w) ∧
    ∀ e, ((s.lookup nowMs token).run w).1 = .error e ∨ ((s.touch nowMs token).run w).1 = .error e ∨
      ((s.refresh nowMs token).run w).1 = .error e → ∃ cause, e = .store cause := by
  cases verdict : s.verdict nowMs token with
  | error cause =>
      have inspected : (s.inspect nowMs token).run w =
          (.error (.rejected cause), { w with events := w.events ++ [.rejected cause] }) :=
        Verifier.run_resolve_error verdict w
      have refuses := refuses_of_verdict verdict w
      refine ⟨?_, ?_, ?_⟩
      · intro e told gave
        cases inspected.symm.trans gave
        exact ⟨cause, rfl, refuses⟩
      · intro d told gave
        cases inspected.symm.trans gave
      · intro e failed
        have lookup := refuses.lookup s.store
        have touch := refuses.touch s.store
        have refresh := refuses.refresh s.store
        simp [lookup, touch, refresh] at failed
  | ok d =>
      have inspected : (s.inspect nowMs token).run w = (.ok d, w) := Verifier.run_resolve_ok verdict w
      have fits : Codec.Fits .access (d.id.timestampMs + s.policy.ttlFor .access) := by
        intro _
        have bounds := d.id.timestampMs_bounds
        omega
      have follows := follows_of_verdict faithful fits verdict w
      refine ⟨?_, ?_, fun e failed => follows.error_store faithful failed⟩
      · intro e told gave
        cases inspected.symm.trans gave
      · intro d' told gave
        cases inspected.symm.trans gave
        exact ⟨rfl, follows⟩

/-- A store that counts its calls, has one record for all identifiers, and takes no note of an
access. -/
theorem outcome_of_inspect_read_only :
    let c : Codec := ⟨"s", by decide, .keyed, true, .standard⟩
    let v : Verifier := ⟨c, .withOverrides (fun _ => none) none⟩
    let id : TokenId := .generate 5 ⟨0, 0⟩
    let record : Record := .issued id none none .emptyObject
    let store : Store Nat :=
      { put := fun _ _ _ _ => .onStore fun n => ((), n + 1)
        get := fun _ _ => .onStore fun n => (some record, n + 1)
        setAccessed := fun _ _ _ _ => .onStore fun n => ((), n + 1) }
    let s : Service Nat := { v with store := store.readOnly }
    let w : World Nat := ⟨0, []⟩
    s.store.Faithful ∧ -(2 ^ 63 - 2 ^ 48) ≤ s.policy.ttlFor .access ∧
      s.policy.ttlFor .access ≤ 2 ^ 63 - 2 ^ 48 ∧
      (s.lookup 6 .other).run w = (.ok none, ⟨0, [.rejected .notText]⟩) ∧
      ∃ wire, c.encode .offline id (v.policy.ttlFor .offline) = .ok wire ∧
        ((s.lookup 6 (Text.ofString wire)).run w).1 = .ok (some (record.markAccessed 6)) ∧
        ((s.touch 6 (Text.ofString wire)).run w).1 =
          .error (.store (.other "read only replica")) := by
  intro c v id record store s w
  have faithful : s.store.Faithful := by
    refine ⟨?_, ?_, ?_⟩
    · intro nowMs id r ttl w e failed
      cases failed
    · intro nowMs id w e failed
      cases failed
    · intro nowMs id accessed ttl w e failed
      cases failed
      exact ⟨_, rfl⟩
  have lower : -(2 ^ 63 - 2 ^ 48) ≤ s.policy.ttlFor .access := by decide
  have upper : s.policy.ttlFor .access ≤ 2 ^ 63 - 2 ^ 48 := by decide
  have time : id.timestampMs = 5 := TokenId.timestampMs_generate (by decide) (by decide) _
  have fits : Codec.Fits .offline (id.timestampMs + v.policy.ttlFor .offline) :=
    fun embeds => absurd embeds (by decide)
  obtain ⟨wire, encoded, accepted⟩ := exists_accepted v (fun plain => absurd plain (by decide)) fits
  have lifetime : (6 : Int) ≤ id.timestampMs + v.policy.ttlFor .offline := by
    rw [time]
    decide
  have accepted : s.verdict 6 (Text.ofString wire) = _ := accepted 6 lifetime
  obtain ⟨refused, -, -⟩ := outcome_of_inspect faithful lower upper 6 .other w
  obtain ⟨-, followed, -⟩ := outcome_of_inspect faithful lower upper 6 (Text.ofString wire) w
  obtain ⟨cause, same, refuses⟩ := refused _ _ rfl
  cases same
  obtain ⟨-, follows⟩ := followed _ _ (Verifier.run_resolve_ok accepted w)
  exact ⟨faithful, lower, upper, refuses.lookup s.store, wire, encoded, follows.lookup, follows.touch⟩

end Service

end BearerToken
