import Mathlib
import BearerToken.Proofs.Service.Lookup
import BearerToken.Proofs.Store.Twins

/-!
# The service on either store

As long as no record is past its deadline, the calls of a service cannot tell whether its records are
in memory or on a server: each call gives the same and logs the same, and after it both stores keep
the same fields under each identifier. Identifiers that are created are distinct, and a refresh
writes back the record that it has read, so no record is written over one of another principal.
-/

namespace BearerToken

namespace Verifier

/-- The service with its records on a server. -/
def onServer (v : Verifier) (ns : Text) : Service HashServer := { v with store := Remote.store ns }

@[simp] theorem onServer_toVerifier (v : Verifier) (ns : Text) : (v.onServer ns).toVerifier = v :=
  rfl

end Verifier

namespace Service

open BearerToken.Action (Alike)

/-- A call of the service, with all that it reads beside the store and the clock. -/
inductive Request where
  | create (entropy : Entropy) (kind : Kind) (grant : Grant)
  | createForPrincipal (entropy : Entropy) (principal : Principal) (state : Json.Value)
  | lookup (token : Presented)
  | touch (token : Presented)
  | refresh (token : Presented)
  | inspect (token : Presented)

/-- What a call gives. -/
inductive Answer where
  | created (wire : String)
  | found (record : Option Record)
  | touched (done : Bool)
  | refreshed (wire : Option String)
  | inspected (token : Decoded)

namespace Request

variable {σ : Type}

def answer (s : Service σ) (nowMs : Int) : Request → Action σ Answer
  | .create entropy kind grant => .created <$> s.create nowMs entropy kind grant
  | .createForPrincipal entropy principal state =>
    .created <$> s.createForPrincipal nowMs entropy principal state
  | .lookup token => .found <$> s.lookup nowMs token
  | .touch token => .touched <$> s.touch nowMs token
  | .refresh token => .refreshed <$> s.refresh nowMs token
  | .inspect token => .inspected <$> s.inspect nowMs token

/-- The identifier that the call creates, and what it is bound to. -/
def issued? (nowMs : Int) : Request → Option (TokenId × Grant)
  | .create entropy _ grant => some (TokenId.generate nowMs entropy, grant)
  | .createForPrincipal entropy principal state =>
    some (TokenId.generate nowMs entropy, { principal := some principal, state := state })
  | _ => none

/-- What calls give, each at its time, and the world after each of them. -/
def trace (s : Service σ) :
    List (Int × Request) → World σ → List (Except Failure Answer × World σ)
  | [], _ => []
  | (nowMs, request) :: rest, w =>
    let made := (request.answer s nowMs).run w
    made :: trace s rest made.2

/-- Each call comes before the deadline of every record that is kept in memory then. -/
def Timely (s : Service Memory) : List (Int × Request) → World Memory → Prop
  | [], _ => True
  | (nowMs, request) :: rest, w =>
    w.store.Within nowMs ∧ Timely s rest ((request.answer s nowMs).run w).2

instance decidableTimely (s : Service Memory) :
    ∀ (calls : List (Int × Request)) (w : World Memory), Decidable (Timely s calls w)
  | [], _ => inferInstanceAs (Decidable True)
  | (nowMs, request) :: rest, w =>
    have := decidableTimely s rest ((request.answer s nowMs).run w).2
    inferInstanceAs (Decidable (_ ∧ _))

end Request

variable {σ τ α : Type} {P R : σ → τ → Prop} {v : Verifier} {c : Pairing} {nowMs : Int}

theorem alike_resolve (v : Verifier) (nowMs : Int) (token : Presented) :
    Alike P P (v.resolve nowMs token) (v.resolve nowMs token) fun _ => True := by
  rw [Verifier.resolve, Verifier.resolve]
  cases v.verdict nowMs token with
  | ok d => exact Action.alike_pure trivial
  | error cause =>
      exact (Action.alike_emit _).andThen fun _ _ => Action.alike_fail _

theorem alike_ifUsable {a : Action σ α} {b : Action τ α} (strict : Alike P R a b fun _ => True) :
    Alike P R (ifUsable a) (ifUsable b) fun _ => True := by
  refine (strict.map some fun _ _ => trivial).recover ?_
  intro e
  cases e with
  | rejected cause => exact Action.alike_pure trivial
  | notFound id => exact Action.alike_pure trivial
  | _ => exact Action.alike_fail _

theorem alike_fetch (v : Verifier) (c : Pairing) (nowMs : Int) (d : Decoded) :
    Alike (c.Current nowMs) (c.Current nowMs) (v.inMemory.fetch nowMs d)
      ((v.onServer c.ns).fetch nowMs d) (c.Admits d.id) := by
  refine (Pairing.alike_get nowMs d.id).andThen ?_
  intro found admits
  cases found with
  | none => exact (Action.alike_emit _).andThen fun _ _ => Action.alike_fail _
  | some r => exact Action.alike_pure (admits r rfl)

theorem alike_noteAccess (v : Verifier) (c : Pairing) (nowMs : Int) (id : TokenId)
    (accessed : Int) :
    Alike (c.Current nowMs) c.Twins (v.inMemory.noteAccess nowMs id accessed)
      ((v.onServer c.ns).noteAccess nowMs id accessed) fun _ => True := by
  refine (Pairing.alike_setAccessed nowMs id accessed _).recover ?_
  intro e
  cases e with
  | store cause => exact Action.alike_emit _
  | _ => exact Action.alike_fail _

theorem alike_create (v : Verifier) (c : Pairing) {entropy : Entropy} {id : TokenId} {grant : Grant}
    (new : TokenId.generate nowMs entropy = id) (kind : Kind) (owned : grant.principal = c.owner id)
    (conveyed : c.bytes = true → (grant.record id).label.toString?.isSome) :
    Alike (c.Current nowMs) c.Twins (v.inMemory.create nowMs entropy kind grant)
      ((v.onServer c.ns).create nowMs entropy kind grant) fun _ => True := by
  have written := Pairing.alike_put (r := grant.record id) nowMs owned
    (grant.label_record_ne_nil id) conveyed v.policy.retentionSeconds
  rw [create_eq _ new, create_eq _ new]
  refine written.andThen fun _ _ => ?_
  exact (Action.alike_emit _).andThen fun _ _ => Action.alike_ofExcept _ _

theorem alike_lookup (v : Verifier) (c : Pairing) (nowMs : Int) (token : Presented) :
    Alike (c.Current nowMs) c.Twins (v.inMemory.lookup nowMs token)
      ((v.onServer c.ns).lookup nowMs token) fun _ => True := by
  have current (m : Memory) (s : HashServer) (current : c.Current nowMs m s) := current.twins
  apply alike_ifUsable
  refine (alike_resolve v nowMs token).bind (fun d _ => ?_) current
  refine (alike_fetch v c nowMs d).bind (fun r _ => ?_) current
  refine (alike_noteAccess v c nowMs d.id _).andThen fun _ _ => ?_
  exact Action.alike_pure trivial

theorem alike_touch (v : Verifier) (c : Pairing) (nowMs : Int) (token : Presented) :
    Alike (c.Current nowMs) c.Twins (v.inMemory.touch nowMs token)
      ((v.onServer c.ns).touch nowMs token) fun _ => True := by
  have strict : Alike (c.Current nowMs) c.Twins (v.inMemory.touchStrict nowMs token)
      ((v.onServer c.ns).touchStrict nowMs token) fun _ => True := by
    refine (alike_resolve v nowMs token).bind (fun d _ => ?_) fun _ _ current => current.twins
    refine (Pairing.alike_setAccessed nowMs d.id nowMs _).andThen fun _ _ => ?_
    exact Action.alike_emit _
  refine (strict.map _ fun _ _ => trivial).recover ?_
  intro e
  cases e with
  | rejected cause => exact Action.alike_pure trivial
  | _ => exact Action.alike_fail _

/-- The record that is written back is the one that was read, of the same principal. -/
theorem alike_refresh (v : Verifier) (c : Pairing) (nowMs : Int) (token : Presented) :
    Alike (c.Current nowMs) c.Twins (v.inMemory.refresh nowMs token)
      ((v.onServer c.ns).refresh nowMs token) fun _ => True := by
  have current (m : Memory) (s : HashServer) (current : c.Current nowMs m s) := current.twins
  apply alike_ifUsable
  refine (alike_resolve v nowMs token).bind (fun d _ => ?_) current
  refine (alike_fetch v c nowMs d).bind (fun r admits => ?_) current
  have written := Pairing.alike_put (r := r.markAccessed nowMs) nowMs admits.owned
    admits.kept.labelled admits.conveyed v.policy.retentionSeconds
  refine written.andThen fun _ _ => ?_
  have encodes : Alike c.Twins c.Twins
      (.ofExcept .expiryOverflow (v.codec.encode .access d.id (v.policy.ttlFor .access)))
      (.ofExcept .expiryOverflow (v.codec.encode .access d.id (v.policy.ttlFor .access)))
      fun _ => True := Action.alike_ofExcept _ _
  refine (Action.alike_emit _).andThen fun _ _ => ?_
  simp only [Verifier.inMemory_toVerifier, Verifier.onServer_toVerifier]
  by_cases valid : v.policy.isValid .access d.id (v.policy.embeddedExpiry .access d.id) nowMs
  · simp only [valid, Bool.not_true, Bool.false_eq_true, if_false]
    exact encodes
  · simp only [valid, Bool.not_false, if_true]
    exact (Action.alike_emit _).andThen fun _ _ => encodes

/-- The principal is the one that the pair of stores has for the identifier, and the label can be
handed back. -/
def Grant.Suits (grant : Grant) (c : Pairing) (id : TokenId) : Prop :=
  grant.principal = c.owner id ∧
    (c.bytes = true → (grant.record id).label.toString?.isSome)

theorem alike_answer (v : Verifier) (c : Pairing) (nowMs : Int) (request : Request)
    (suits : ∀ id grant, request.issued? nowMs = some (id, grant) → grant.Suits c id) :
    Alike (c.Current nowMs) c.Twins (request.answer v.inMemory nowMs)
      (request.answer (v.onServer c.ns) nowMs) fun _ => True := by
  cases request with
  | create entropy kind grant =>
      obtain ⟨owned, conveyed⟩ := suits _ grant rfl
      exact (alike_create v c rfl kind owned conveyed).map _ fun _ _ => trivial
  | createForPrincipal entropy principal state =>
      obtain ⟨owned, conveyed⟩ := suits _ _ rfl
      exact (alike_create v c rfl .access owned conveyed).map _ fun _ _ => trivial
  | lookup token => exact (alike_lookup v c nowMs token).map _ fun _ _ => trivial
  | touch token => exact (alike_touch v c nowMs token).map _ fun _ _ => trivial
  | refresh token => exact (alike_refresh v c nowMs token).map _ fun _ _ => trivial
  | inspect token =>
      have resolved := alike_resolve (P := c.Current nowMs) v nowMs token
      exact (resolved.map _ fun _ _ => trivial).mono fun _ _ current => current.twins

/-- What a call gives and leaves with either store: it gives the same, the log is the same, and both
stores keep the same fields under each identifier. -/
structure Same (ns : Text) (made : Except Failure Answer × World Memory)
    (made' : Except Failure Answer × World HashServer) : Prop where
  result : made.1 = made'.1
  log : made.2.events = made'.2.events
  fields : ∀ id, (made.2.store.entries.get? id).map Entry.fields =
    made'.2.store.hashes.get? (Remote.key ns id)

variable {calls : List (Int × Request)} {m : Memory} {s : HashServer}

/-- From stores that hold the same, the calls give and leave the same. -/
theorem same_trace (twins : c.Twins m s) (events : List Event)
    (suits : ∀ call ∈ calls, ∀ id grant, call.2.issued? call.1 = some (id, grant) →
      grant.Suits c id)
    (timely : Request.Timely v.inMemory calls ⟨m, events⟩) :
    List.Forall₂ (Same c.ns) (Request.trace v.inMemory calls ⟨m, events⟩)
      (Request.trace (v.onServer c.ns) calls ⟨s, events⟩) := by
  induction calls generalizing m s events with
  | nil => exact .nil
  | cons call rest ih =>
      obtain ⟨nowMs, request⟩ := call
      obtain ⟨within, timely⟩ := timely
      have alike := alike_answer v c nowMs request (suits _ List.mem_cons_self)
      obtain ⟨result, m', s', log, made, made', twins', -⟩ := alike m s events ⟨twins, within⟩
      rw [made] at timely
      rw [Request.trace, Request.trace, made, made']
      refine .cons ⟨rfl, rfl, twins'.fields_eq⟩ (ih twins' log ?_ timely)
      exact fun call member => suits call (List.mem_cons_of_mem _ member)

/-- What the calls create, in their order. -/
def Request.issues (calls : List (Int × Request)) : Table TokenId Grant :=
  ⟨calls.filterMap fun call => call.2.issued? call.1⟩

/-- Calls that create distinct identifiers, and that come before the deadline of every record that is
kept, give the same and leave the same whether the records are in memory or on a server that gives
texts or bytes. A label has to have bytes if the server is to give it back as bytes. -/
theorem same_trace_of_timely (v : Verifier) (ns : Text) (bytes : Bool)
    (distinct : (Request.issues calls).Nodup)
    (conveyed : bytes = true → ∀ e ∈ (Request.issues calls).entries,
      (e.2.record e.1).label.toString?.isSome)
    (timely : Request.Timely v.inMemory calls ⟨.empty, []⟩) :
    List.Forall₂ (Same ns) (Request.trace v.inMemory calls ⟨.empty, []⟩)
      (Request.trace (v.onServer ns) calls ⟨{ HashServer.empty with givesBytes := bytes }, []⟩) := by
  -- What an identifier is bound to can be told from the calls, as it is created once.
  let c : Pairing := ⟨ns, bytes, fun id => ((Request.issues calls).get? id).bind Grant.principal⟩
  have twins : c.Twins .empty { HashServer.empty with givesBytes := bytes } :=
    ⟨Memory.nodup_empty, rfl, rfl, fun _ => ⟨none, rfl, ⟨rfl, rfl, rfl⟩, by simp⟩⟩
  refine same_trace twins [] ?_ timely
  intro call member id grant issued
  have listed : (id, grant) ∈ (Request.issues calls).entries :=
    List.mem_filterMap.mpr ⟨call, member, issued⟩
  refine ⟨?_, fun gives => conveyed gives _ listed⟩
  change grant.principal = ((Request.issues calls).get? id).bind Grant.principal
  rw [distinct.get?_of_mem listed]
  rfl

/-- Each call once, on a server that gives bytes, with digests that are quick to work out. -/
theorem same_trace_of_timely_bytes :
    let signature : Bytes := List.replicate 20 0
    let digests : Digests :=
      ⟨fun _ => signature, fun _ _ => signature, fun _ => rfl, fun _ _ => rfl⟩
    let c : Codec := ⟨"s", by decide, .keyed, true, digests⟩
    let v : Verifier := ⟨c, .withOverrides (fun _ => none) none⟩
    let u : Uuid := ⟨0x018bcfe5680071238123456789abcdef, by decide⟩
    let id : TokenId := .generate 5 ⟨0, 1⟩
    let token : Presented := .text (Codec.spell .access (c.payload .access id 604800005))
    let calls : List (Int × Request) :=
      [(5, .create ⟨0, 0⟩ .refresh { label := some "L" }),
        (5, .createForPrincipal ⟨0, 1⟩ ⟨.adminUser, u, some u⟩ .emptyObject), (6, .lookup token),
        (7, .touch token), (8, .refresh token), (9, .inspect token)]
    let honoured : Except Failure Answer × World Memory → Bool
      | (.ok (.created _), _) | (.ok (.found (some _)), _) | (.ok (.touched true), _)
      | (.ok (.refreshed (some _)), _) | (.ok (.inspected _), _) => true
      | _ => false
    (Request.issues calls).Nodup ∧ Request.Timely v.inMemory calls ⟨.empty, []⟩ ∧
      (Request.trace v.inMemory calls ⟨.empty, []⟩).map honoured = List.replicate 6 true ∧
      List.Forall₂ (Same "tokens") (Request.trace v.inMemory calls ⟨.empty, []⟩)
        (Request.trace (v.onServer "tokens") calls
          ⟨{ HashServer.empty with givesBytes := true }, []⟩) := by
  intro signature digests c v u id token calls honoured
  have distinct : (Request.issues calls).Nodup :=
    (by decide +kernel : [TokenId.generate 5 ⟨0, 0⟩, TokenId.generate 5 ⟨0, 1⟩].Nodup)
  have conveyed : ∀ e ∈ (Request.issues calls).entries,
      (e.2.record e.1).label.toString?.isSome := by
    decide +kernel
  have timely : Request.Timely v.inMemory calls ⟨.empty, []⟩ := by decide +kernel
  have done : (Request.trace v.inMemory calls ⟨.empty, []⟩).map honoured =
      List.replicate 6 true := by
    decide +kernel
  exact ⟨distinct, timely, done,
    same_trace_of_timely v "tokens" true distinct (fun _ => conveyed) timely⟩

end Service

end BearerToken
