import Mathlib
import BearerToken.Proofs.Service.Session
import BearerToken.Proofs.Service.Lookup

/-!
# Failed calls

A call of the service that fails leaves no trace: what was live in the store is as it was, nothing
has been added, and the log does not say that a token was issued. The text of a new token is made
last, though, when its record has been written and reported. So one failure comes after a write,
that of an expiry which does not fit its bytes, and it always leaves its trace.

Each call is put together from steps that leave no trace, at most one write, and a rest that can fail
with nothing but that expiry.
-/

namespace BearerToken

/-- Whether the event says that a token was issued. -/
def Event.reportsIssue : Event → Bool
  | .created .. | .refreshed .. => true
  | _ => false

/-- Whether an expiry did not fit its bytes. -/
def Failure.isOverflow : Failure → Bool
  | .expiryOverflow _ => true
  | _ => false

theorem Failure.exists_of_isOverflow {e : Failure} (overflow : e.isOverflow = true) :
    ∃ cause, e = .expiryOverflow cause := by
  cases e with
  | expiryOverflow cause => exact ⟨cause, rfl⟩
  | _ => cases overflow

namespace Service

variable {α β : Type} {room : Prop} {nowMs : Int} {w w' w'' : World Memory} {e : Failure}

/-- Nothing that counts at the time tells the world after from the world before. -/
structure Traceless (nowMs : Int) (w w' : World Memory) : Prop where
  /-- What was live is as it was. -/
  kept : ∀ id entry, w.store.entries.get? id = some entry → entry.isLive nowMs →
    w'.store.entries.get? id = some entry
  /-- Nothing was added, and nothing was changed. -/
  old : ∀ id entry, w'.store.entries.get? id = some entry → w.store.entries.get? id = some entry
  /-- No token is said to have been issued. -/
  silent : ∃ events, w'.events = w.events ++ events ∧ ∀ event ∈ events, event.reportsIssue = false

/-- The log says that a token was issued. -/
def Reports (w w' : World Memory) : Prop :=
  ∃ events, w'.events = w.events ++ events ∧ ∃ event ∈ events, event.reportsIssue = true

namespace Traceless

theorem refl (nowMs : Int) (w : World Memory) : Traceless nowMs w w where
  kept _ _ held _ := held
  old _ _ held := held
  silent := ⟨[], (List.append_nil _).symm, by simp⟩

theorem trans (first : Traceless nowMs w w') (second : Traceless nowMs w' w'') :
    Traceless nowMs w w'' where
  kept id entry held live := second.kept id entry (first.kept id entry held live) live
  old id entry held := first.old id entry (second.old id entry held)
  silent := by
    obtain ⟨events, added, quiet⟩ := first.silent
    obtain ⟨later, added', quiet'⟩ := second.silent
    refine ⟨events ++ later, by rw [added', added, List.append_assoc], ?_⟩
    intro event member
    exact (List.mem_append.mp member).elim (quiet event) (quiet' event)

/-- A report of an issue is a trace. -/
theorem not_reports (traceless : Traceless nowMs w w') : ¬Reports w w' := by
  rintro ⟨events, added, event, member, reports⟩
  obtain ⟨events', added', quiet⟩ := traceless.silent
  have same : events = events' := List.append_cancel_left (added.symm.trans added')
  have silent := quiet event (same ▸ member)
  rw [reports] at silent
  cases silent

theorem emit {event : Event} (quiet : event.reportsIssue = false) :
    Traceless nowMs w { w with events := w.events ++ [event] } where
  kept _ _ held _ := held
  old _ _ held := held
  silent := ⟨[event], rfl, by simpa using quiet⟩

/-- Removing what is no longer live leaves no trace. -/
theorem of_filter {m : Memory}
    (filters : ∀ id, m.entries.get? id = w.store.entries.get? id ∨
      m.entries.get? id = (w.store.entries.get? id).filter (·.isLive nowMs)) :
    Traceless nowMs w { w with store := m } where
  kept id entry held live := by
    obtain same | filtered := filters id
    · exact same.trans held
    · simp [filtered, held, live]
  old id entry held := by
    obtain same | filtered := filters id
    · exact same.symm.trans held
    · rw [filtered] at held
      exact (Option.filter_eq_some_iff.mp held).1
  silent := ⟨[], (List.append_nil _).symm, by simp⟩

theorem sweep (once : w.store.Nodup) :
    Traceless nowMs w { w with store := w.store.sweep nowMs } := by
  apply of_filter
  intro id
  rw [Memory.get?_sweep once]
  split
  · exact .inr rfl
  · exact .inl rfl

theorem dropExpired (id : TokenId) :
    Traceless nowMs w { w with store := w.store.dropExpired nowMs id } := by
  apply of_filter
  intro other
  rw [Memory.get?_dropExpired]
  split
  · next same => exact .inr (by rw [same])
  · exact .inl rfl

end Traceless

theorem Reports.of_traceless (first : Traceless nowMs w w') (reports : Reports w' w'') :
    Reports w w'' := by
  obtain ⟨events, added, -⟩ := first.silent
  obtain ⟨later, added', event, member, issue⟩ := reports
  refine ⟨events ++ later, ?_, event, List.mem_append_right _ member, issue⟩
  rw [added', added, List.append_assoc]

/-- What the failure leaves behind: a report if an expiry is at fault, for which there was no room
then, else no trace. -/
def Leaves (room : Prop) (nowMs : Int) (e : Failure) (w w' : World Memory) : Prop :=
  if e.isOverflow then ¬room ∧ Reports w w' else Traceless nowMs w w'

namespace Leaves

theorem of_traceless (first : Traceless nowMs w w') (leaves : Leaves room nowMs e w' w'') :
    Leaves room nowMs e w w'' := by
  rw [Leaves] at leaves ⊢
  split at leaves
  · next overflow =>
    rw [if_pos overflow]
    exact ⟨leaves.1, leaves.2.of_traceless first⟩
  · next other =>
    rw [if_neg other]
    exact first.trans leaves

theorem traceless_iff (leaves : Leaves room nowMs e w w') :
    Traceless nowMs w w' ↔ e.isOverflow = false := by
  rw [Leaves] at leaves
  split at leaves
  · next overflow =>
    simp only [overflow, Bool.true_eq_false, iff_false]
    exact fun traceless => traceless.not_reports leaves.2
  · next other => simpa [other] using leaves

theorem isOverflow_eq_false (leaves : Leaves room nowMs e w w') (fits : room) :
    e.isOverflow = false := by
  rw [Leaves] at leaves
  split at leaves
  · exact absurd fits leaves.1
  · next other => exact Bool.eq_false_iff.mpr other

end Leaves

/-- A failure of the action leaves a trace just if an expiry is at fault, which none is where there is
`room` for it. A success leaves none if the action is `quiet`. -/
def Clean (room : Prop) (nowMs : Int) (quiet : Prop) (a : Action Memory α) : Prop :=
  ∀ w, w.store.Nodup → (a.run w).2.store.Nodup ∧
    match (a.run w).1 with
    | .ok _ => quiet → Traceless nowMs w (a.run w).2
    | .error e => Leaves room nowMs e w (a.run w).2

section Rules

variable {quiet : Prop} {a : Action Memory α}

theorem clean_pure (x : α) : Clean room nowMs quiet (Pure.pure x : Action Memory α) :=
  fun w once => ⟨once, fun _ => .refl nowMs w⟩

theorem clean_fail (other : e.isOverflow = false) :
    Clean room nowMs quiet (.fail e : Action Memory α) := by
  intro w once
  refine ⟨once, ?_⟩
  change if e.isOverflow then _ else _
  rw [other]
  exact .refl nowMs w

theorem clean_emit {event : Event} (silent : event.reportsIssue = false) :
    Clean room nowMs quiet (.emit event) :=
  fun _ once => ⟨once, fun _ => .emit silent⟩

theorem clean_onStore {f : Memory → α × Memory}
    (keeps : ∀ w : World Memory, w.store.Nodup →
      (f w.store).2.Nodup ∧ (quiet → Traceless nowMs w { w with store := (f w.store).2 })) :
    Clean room nowMs quiet (.onStore f) :=
  fun w once => keeps w once

/-- The action can give this result. -/
def Gives (a : Action Memory α) (x : α) : Prop := ∃ w w', a.run w = (.ok x, w')

/-- A step before another has to be quiet. -/
theorem Clean.bind {f : α → Action Memory β} (first : Clean room nowMs True a)
    (rest : ∀ x, Gives a x → Clean room nowMs quiet (f x)) : Clean room nowMs quiet (a >>= f) := by
  intro w once
  have here := first w once
  obtain ⟨e | x, w', made⟩ : ∃ x w', a.run w = (x, w') := ⟨_, _, rfl⟩
  · rw [Action.run_bind_error made]
    rwa [made] at here
  · rw [Action.run_bind_ok made]
    rw [made] at here
    obtain ⟨once', traceless⟩ := here
    have first := traceless trivial
    obtain ⟨once'', ends⟩ := rest x ⟨w, w', made⟩ w' once'
    refine ⟨once'', ?_⟩
    split at ends
    · exact fun still => first.trans (ends still)
    · exact ends.of_traceless first

/-- A step that cannot fail can follow a write. -/
theorem Clean.before {f : α → Action Memory β} (clean : Clean room nowMs False a)
    (rest : ∀ x w, ∃ y w', (f x).run w = (.ok y, w') ∧ w'.store = w.store) :
    Clean room nowMs False (a >>= f) := by
  intro w once
  have here := clean w once
  obtain ⟨e | x, w', made⟩ : ∃ x w', a.run w = (x, w') := ⟨_, _, rfl⟩
  · rw [Action.run_bind_error made]
    rwa [made] at here
  · rw [made] at here
    obtain ⟨y, w'', done, same⟩ := rest x w'
    rw [Action.run_bind_ok made, done]
    exact ⟨same ▸ here.1, False.elim⟩

theorem Clean.map (f : α → β) (clean : Clean room nowMs False a) : Clean room nowMs False (f <$> a) :=
  clean.before fun x w => ⟨f x, w, rfl, rfl⟩

/-- An overflow is given on, and no other failure is handled with a trace. -/
theorem Clean.recover {handle : Failure → Action Memory α} (clean : Clean room nowMs quiet a)
    (gives : ∀ cause, handle (.expiryOverflow cause) = .fail (.expiryOverflow cause))
    (handles : ∀ e, e.isOverflow = false → Clean room nowMs quiet (handle e)) :
    Clean room nowMs quiet (a.recover handle) := by
  intro w once
  have here := clean w once
  obtain ⟨e | x, w', made⟩ : ∃ x w', a.run w = (x, w') := ⟨_, _, rfl⟩
  · rw [Action.run_recover_error made]
    rw [made] at here
    obtain ⟨once', leaves⟩ := here
    cases overflow : e.isOverflow with
    | true =>
        obtain ⟨cause, rfl⟩ := Failure.exists_of_isOverflow overflow
        rw [gives cause]
        exact ⟨once', leaves⟩
    | false =>
        have first := Leaves.traceless_iff leaves |>.mpr overflow
        obtain ⟨once'', ends⟩ := handles e overflow w' once'
        refine ⟨once'', ?_⟩
        split at ends
        · exact fun still => first.trans (ends still)
        · exact ends.of_traceless first
  · rw [Action.run_recover_ok made]
    rwa [made] at here

theorem clean_ofReading (read : Except RecordError (Option Reading)) :
    Clean room nowMs quiet (.ofReading read) := by
  obtain cause | _ | reading := read
  · exact clean_fail rfl
  · exact clean_pure none
  · rw [Action.ofReading]
    cases reading.unknownPrincipal with
    | none => exact clean_pure _
    | some name => exact (clean_emit rfl).bind fun _ _ => clean_pure _

end Rules

section Store

variable {id : TokenId} {r : Record} {ttl accessed : Int} {quiet : Prop}

theorem clean_get (nowMs : Int) (id : TokenId) : Clean room nowMs quiet (Memory.store.get nowMs id) := by
  have read : Clean room nowMs True
      (.onStore fun m => (m.live? nowMs id, m.dropExpired nowMs id)) :=
    clean_onStore fun w once => ⟨once.dropExpired id, fun _ => .dropExpired id⟩
  simp only [Memory.store]
  refine read.bind ?_
  intro found _
  cases found with
  | none => exact clean_pure none
  | some fields => exact clean_ofReading fields.toRecord

theorem clean_setAccessed (nowMs : Int) (id : TokenId) (accessed ttl : Int) :
    Clean room nowMs False (Memory.store.setAccessed nowMs id accessed ttl) := by
  have written : Clean room nowMs False
      (.onStore fun m => ((), m.setAccessed nowMs id accessed ttl)) :=
    clean_onStore fun w once => ⟨once.setAccessed id accessed ttl, False.elim⟩
  have read : Clean room nowMs True (.onStore fun m : Memory => ((m.live? nowMs id).isSome, m)) :=
    clean_onStore fun w once => ⟨once, fun _ => .refl nowMs w⟩
  simp only [Memory.store]
  refine read.bind ?_
  intro held _
  have failed : Clean room nowMs True (.fail (.unwritable .tooLong) : Action Memory Unit) :=
    clean_fail rfl
  split
  · exact failed.bind fun _ _ => written
  · exact written

/-- The making of a text: it changes no store, and can fail with nothing but the expiry, if there is
no room for that. -/
def Encodes (room : Prop) (a : Action Memory α) : Prop :=
  ∀ w, ∃ events, (a.run w).2 = { w with events := w.events ++ events } ∧
    ∀ e, (a.run w).1 = .error e → e.isOverflow = true ∧ ¬room

theorem encodes_text (c : Codec) {kind : Kind} {id : TokenId} {ttlMs : Int}
    (fits : room → Codec.Fits kind (id.timestampMs + ttlMs)) :
    Encodes room (.ofExcept .expiryOverflow (c.encode kind id ttlMs)) := by
  intro w
  refine ⟨[], ?_, ?_⟩
  · rw [Action.world_ofExcept, List.append_nil]
  · intro e failed
    cases encoded : c.encode kind id ttlMs with
    | ok wire =>
        rw [encoded] at failed
        cases failed
    | error cause =>
        rw [encoded] at failed
        cases failed
        refine ⟨rfl, ?_⟩
        intro enough
        obtain ⟨wire, done, -⟩ := Codec.encode_of_fits (c := c) (fits enough)
        rw [encoded] at done
        cases done

theorem Encodes.after_emit {a : Action Memory α} (encodes : Encodes room a) (event : Event) :
    Encodes room (.emit event >>= fun _ => a) := by
  intro w
  obtain ⟨events, world, fails⟩ := encodes { w with events := w.events ++ [event] }
  rw [Action.run_bind_ok (Action.run_emit event w)]
  refine ⟨event :: events, ?_, fails⟩
  rw [world, List.append_assoc, List.singleton_append]

/-- A record is written and reported before the text is made. -/
theorem clean_issue {event : Event} {rest : Action Memory α} (reports : event.reportsIssue = true)
    (encodes : Encodes room rest) (nowMs : Int) (id : TokenId) (r : Record) (ttl : Int) :
    Clean room nowMs False
      (Memory.store.put nowMs id r ttl >>= fun _ => .emit event >>= fun _ => rest) := by
  intro w once
  cases fault : Fields.fault? r with
  | some cause =>
      rw [Action.run_bind_error (Memory.run_put_unwritable fault ttl)]
      exact ⟨once.sweep, .sweep once⟩
  | none =>
      rw [Action.run_bind_ok (Memory.run_put fault ttl),
        Action.run_bind_ok (Action.run_emit event _)]
      obtain ⟨events, world, fails⟩ := encodes
        ⟨w.store.put nowMs id (Fields.ofRecord r) ttl, w.events ++ [event]⟩
      constructor
      · rw [world]
        exact once.put id _ ttl
      · split
        · exact False.elim
        · next e failed =>
          obtain ⟨overflow, full⟩ := fails e failed
          rw [Leaves, if_pos overflow, world]
          exact ⟨full, event :: events, by simp, event, List.mem_cons_self, reports⟩

end Store

/-- Whether the call leaves room for the expiry of the token that it makes, if it makes one. -/
def Use.HasRoom (v : Verifier) (nowMs : Int) : Use → Prop
  | .create entropy kind _ =>
    Codec.Fits kind ((TokenId.generate nowMs entropy).timestampMs + v.policy.ttlFor kind)
  | .refresh token => ∀ d, v.verdict nowMs token = .ok d →
    Codec.Fits .access (d.id.timestampMs + v.policy.ttlFor .access)
  | _ => True

section Uses

variable {v : Verifier} {quiet : Prop}

theorem clean_resolve (v : Verifier) (nowMs : Int) (token : Presented) :
    Clean room nowMs quiet (v.resolve nowMs token) := by
  rw [Verifier.resolve]
  cases v.verdict nowMs token with
  | ok d => exact clean_pure d
  | error cause => exact (clean_emit rfl).bind fun _ _ => clean_fail rfl

theorem verdict_of_gives {token : Presented} {d : Decoded}
    (gives : Gives (v.resolve nowMs token) d) : v.verdict nowMs token = .ok d := by
  obtain ⟨w, w', made⟩ := gives
  exact Verifier.verdict_of_resolve (congrArg Prod.fst made)

theorem clean_fetch (v : Verifier) (nowMs : Int) (d : Decoded) :
    Clean room nowMs quiet (v.inMemory.fetch nowMs d) := by
  refine (clean_get nowMs d.id).bind ?_
  intro found _
  cases found with
  | none => exact (clean_emit rfl).bind fun _ _ => clean_fail rfl
  | some r => exact clean_pure r

theorem clean_ifUsable {a : Action Memory α} (strict : Clean room nowMs False a) :
    Clean room nowMs False (ifUsable a) := by
  refine (strict.map some).recover (fun _ => rfl) ?_
  intro e other
  cases e with
  | rejected cause => exact clean_pure none
  | notFound id => exact clean_pure none
  | _ => exact clean_fail other

theorem clean_create (v : Verifier) (nowMs : Int) (entropy : Entropy) (kind : Kind)
    (grant : Grant) :
    Clean ((Use.create entropy kind grant).HasRoom v nowMs) nowMs False
      (v.inMemory.create nowMs entropy kind grant) :=
  clean_issue rfl (encodes_text v.codec id) nowMs _ _ _

theorem clean_lookup (v : Verifier) (nowMs : Int) (token : Presented) :
    Clean room nowMs False (v.inMemory.lookup nowMs token) := by
  apply clean_ifUsable
  refine (clean_resolve v nowMs token).bind fun d _ => (clean_fetch v nowMs d).bind fun r _ => ?_
  have noted : Clean room nowMs False
      (v.inMemory.noteAccess nowMs d.id (r.markAccessed nowMs).accessed) := by
    refine (clean_setAccessed nowMs d.id _ _).recover (fun _ => rfl) ?_
    intro e other
    cases e with
    | store cause => exact clean_emit rfl
    | _ => exact clean_fail other
  exact noted.map fun _ => r.markAccessed nowMs

theorem clean_touch (v : Verifier) (nowMs : Int) (token : Presented) :
    Clean room nowMs False (v.inMemory.touch nowMs token) := by
  have strict : Clean room nowMs False (v.inMemory.touchStrict nowMs token) := by
    refine (clean_resolve v nowMs token).bind fun d _ => ?_
    exact (clean_setAccessed nowMs d.id nowMs _).before fun _ w => ⟨(), _, rfl, rfl⟩
  refine (strict.map _).recover (fun _ => rfl) ?_
  intro e other
  cases e with
  | rejected cause => exact clean_pure false
  | _ => exact clean_fail other

theorem clean_refresh (v : Verifier) (nowMs : Int) (token : Presented) :
    Clean ((Use.refresh token).HasRoom v nowMs) nowMs False (v.inMemory.refresh nowMs token) := by
  apply clean_ifUsable
  refine (clean_resolve v nowMs token).bind fun d given => (clean_fetch v nowMs d).bind fun r _ => ?_
  have encodes := encodes_text v.codec fun room : (Use.refresh token).HasRoom v nowMs =>
    room d (verdict_of_gives given)
  refine clean_issue rfl ?_ nowMs d.id (r.markAccessed nowMs) _
  dsimp only
  split
  · exact encodes.after_emit _
  · exact encodes

theorem clean_perform (v : Verifier) (nowMs : Int) (use : Use) :
    Clean (use.HasRoom v nowMs) nowMs False (use.perform v.inMemory nowMs) := by
  cases use with
  | create entropy kind grant => exact (clean_create v nowMs entropy kind grant).map _
  | lookup token => exact (clean_lookup v nowMs token).map _
  | touch token => exact (clean_touch v nowMs token).map _
  | refresh token => exact (clean_refresh v nowMs token).map _
  | inspect token => exact (clean_resolve v nowMs token).map _

end Uses

/-- Lifetimes that leave an expiry within 64 bits leave room for the expiry of any token. -/
theorem hasRoom_of_fits {v : Verifier} (fits : FitsExpiry v.policy) (nowMs : Int) (use : Use) :
    use.HasRoom v nowMs := by
  have room (kind : Kind) (id : TokenId) :
      Codec.Fits kind (id.timestampMs + v.policy.ttlFor kind) := by
    intro _
    have bounds := id.timestampMs_bounds
    have lifetime := fits kind
    omega
  cases use with
  | create entropy kind grant => exact room kind _
  | refresh token => exact fun d _ => room .access d.id
  | lookup token => trivial
  | touch token => trivial
  | inspect token => trivial

/-- A call that fails leaves no trace, unless the expiry of the token that it makes does not fit. Then
the log says that the token was issued. -/
theorem traceless_of_failed {v : Verifier} {use : Use} (once : w.store.Nodup)
    (failed : (use.perform v.inMemory nowMs).run w = (.error e, w')) :
    (Traceless nowMs w w' ↔ ∀ cause, e ≠ .expiryOverflow cause) ∧
      (use.HasRoom v nowMs → Traceless nowMs w w') := by
  obtain ⟨-, ends⟩ := clean_perform v nowMs use w once
  rw [failed] at ends
  have leaves : Leaves (use.HasRoom v nowMs) nowMs e w w' := ends
  refine ⟨leaves.traceless_iff.trans ?_, ?_⟩
  · cases e with
    | expiryOverflow cause => simp [Failure.isOverflow]
    | _ => simp [Failure.isOverflow]
  · intro room
    exact leaves.traceless_iff.mpr (leaves.isOverflow_eq_false room)

/-- A state that is too long to be written leaves no trace of its token. -/
theorem traceless_of_failed_unwritable :
    let c : Codec := ⟨"s", by decide, .keyed, true, .standard⟩
    let v : Verifier := ⟨c, .withOverrides (fun _ => none) none⟩
    let use : Use := .create ⟨0, 0⟩ .access { state := .record [("n", .int (10 ^ 4300))] }
    let w : World Memory := ⟨.empty, []⟩
    ∃ cause w', (use.perform v.inMemory 5).run w = (.error (.unwritable cause), w') ∧
      Traceless 5 w w' := by
  have unwritable : Numeral.isWritable (10 ^ 4300) = false :=
    Numeral.isWritable_pow_eq_false rfl (by decide)
  generalize (10 ^ 4300 : Int) = long at unwritable
  intro c v use w
  let grant : Grant := { state := .record [("n", .int long)] }
  generalize new : TokenId.generate 5 ⟨0, 0⟩ = id
  have faulty : Fields.fault? (grant.record id) ≠ none := by
    intro faultless
    obtain ⟨-, -, state⟩ := Fields.fault?_eq_none_iff.mp faultless
    have number : Json.fault? 987 (.int long) = none :=
      Json.fault_object.mp state ("n", .int long) (by simp [Json.ordered, Json.insertMember])
    rw [Json.fault?, unwritable] at number
    cases number
  obtain ⟨cause, fault⟩ := Option.ne_none_iff_exists'.mp faulty
  have failed : (use.perform v.inMemory 5).run w =
      (.error (.unwritable cause), { w with store := w.store.sweep 5 }) :=
    Action.run_map_error (run_create_unwritable new fault .access)
  exact ⟨cause, _, failed, (traceless_of_failed Memory.nodup_empty failed).1.mpr (by simp)⟩

/-- Under a lifetime that 64 bits cannot hold a creation fails with its record written and reported. -/
theorem not_traceless_overflow :
    let c : Codec := ⟨"s", by decide, .keyed, true, .standard⟩
    let v : Verifier := ⟨c, .withOverrides (fun _ => some (2 ^ 63)) none⟩
    let id : TokenId := TokenId.generate 1700000000000 ⟨0, 0⟩
    let w : World Memory := ⟨.empty, []⟩
    ∃ cause w', (v.inMemory.create 1700000000000 ⟨0, 0⟩ .access {}).run w =
        (.error (.expiryOverflow cause), w') ∧
      w'.store.live? 1700000000000 id = some (Fields.ofRecord (({} : Grant).record id)) ∧
      ¬Traceless 1700000000000 w w' := by
  intro c v id w
  have range : InRange 1700000000000 := ⟨by decide, by decide⟩
  have kept : Fields.IsPersistable (({} : Grant).record id) :=
    Grant.isPersistable_record (by decide +kernel)
  have new : TokenId.generate 1700000000000 ⟨0, 0⟩ = id := rfl
  clear_value id
  have overflow : v.codec.encode .access id (v.policy.ttlFor .access) =
      .error ⟨1700000000000 + 2 ^ 63⟩ := by
    rw [← range.timestampMs_eq new]
    apply if_pos
    rw [range.timestampMs_eq new]
    decide
  obtain ⟨events, done⟩ := run_create (v := v) (w := w) new kept .access
  rw [overflow] at done
  have leaves := (clean_create v 1700000000000 ⟨0, 0⟩ .access {} w Memory.nodup_empty).2
  rw [done] at leaves
  refine ⟨_, _, done, ?_, ?_⟩
  · rw [Memory.live?_put Memory.nodup_empty le_rfl, if_pos rfl, if_pos (by decide)]
  · intro traceless
    exact traceless.not_reports (And.right leaves)

end Service

end BearerToken
