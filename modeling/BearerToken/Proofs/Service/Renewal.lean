import Mathlib
import BearerToken.Proofs.Json.Bounds
import BearerToken.Proofs.Policy.Deadline
import BearerToken.Proofs.Service.Outcome

/-!
# The texts that refreshes give

A refresh gives an access token for the identifier of the token that is presented, and what the text
says follows from the identifier and the policy alone. So no chain of refreshes leads to a second
text or past the lifetime that the identifier has had from its creation. Where a refresh warns that
its text is past that lifetime, it predicts what an inspection of the text says at the same time.
-/

namespace BearerToken

namespace Verifier

/-- The last instant of the access tokens of an identifier. -/
def accessEnd (v : Verifier) (id : TokenId) : Int := id.timestampMs + v.policy.ttlFor .access

/-- What a refresh reports when it has written the record. -/
def renewalEvents (v : Verifier) (nowMs : Int) (d : Decoded) : List Event :=
  let expiresAt := v.policy.embeddedExpiry .access d.id
  .refreshed d.id d.kind ::
    if v.policy.isValid .access d.id expiresAt nowMs then [] else [.refreshedExpired d.id expiresAt]

/-- The one access token of an identifier. It says when it ends, and is honoured up to then. -/
structure Renewal (v : Verifier) (id : TokenId) (wire : String) : Prop where
  encoded : v.codec.encode .access id (v.policy.ttlFor .access) = .ok wire
  decoded : v.codec.decode (Text.ofString wire) =
    .ok ⟨.access, id, some (v.accessEnd id), v.codec.version⟩
  honoured : ∀ t ≤ v.accessEnd id, v.verdict t (Text.ofString wire) =
    .ok ⟨.access, id, some (v.accessEnd id), v.codec.version⟩
  ended : ∀ t, v.accessEnd id < t →
    v.verdict t (Text.ofString wire) = .error (.expired .access .ttl)

variable {v : Verifier} {id : TokenId}

theorem renewal_of_encode (accepts : v.codec.version = .plain → v.codec.acceptLegacy)
    {wire : String} (encoded : v.codec.encode .access id (v.policy.ttlFor .access) = .ok wire) :
    Renewal v id wire := by
  obtain ⟨fits, spelled⟩ := Codec.fits_of_encode encoded
  have decoded : v.codec.decode (Text.ofString wire) =
      .ok ⟨.access, id, some (v.accessEnd id), v.codec.version⟩ := by
    rw [spelled]
    exact Codec.decode_payload ⟨rfl, rfl⟩ fits id accepts
  refine ⟨encoded, decoded, fun t alive => ?_, fun t late => ?_⟩
  · have passes : v.policy.checkFields .access id (some (v.accessEnd id)) t = .ok () :=
      Policy.checkFields_eq_ok_iff.mpr ⟨alive, fun _ expires same => Option.some.inj same ▸ alive⟩
    rw [verdict, Codec.decodePresented, decoded]
    simp only [bind, Except.bind, Policy.check, passes]
    rfl
  · have fails : v.policy.checkFields .access id (some (v.accessEnd id)) t =
        .error (.expired .access .ttl) := if_pos late
    rw [verdict, Codec.decodePresented, decoded]
    simp only [bind, Except.bind, Policy.check, fails]

theorem Renewal.unique {wire wire' : String} (h : Renewal v id wire) (h' : Renewal v id wire') :
    wire = wire' :=
  Except.ok.inj (h.encoded.symm.trans h'.encoded)

/-- The prediction of a refresh about its text. -/
theorem isValid_access_iff {nowMs : Int} :
    v.policy.isValid .access id (v.policy.embeddedExpiry .access id) nowMs = true ↔
      nowMs ≤ v.accessEnd id := by
  rw [Policy.isValid_eq_true_iff]
  exact Policy.checkFields_embedded_iff.trans ⟨And.left, fun alive => ⟨alive, fun _ => alive⟩⟩

theorem exists_warning_iff (v : Verifier) {nowMs : Int} {d : Decoded} :
    (∃ event ∈ v.renewalEvents nowMs d, event.name = "token_refreshed_expired") ↔
      v.accessEnd d.id < nowMs := by
  rw [← Int.not_le, ← isValid_access_iff, renewalEvents]
  cases v.policy.isValid .access d.id (v.policy.embeddedExpiry .access d.id) nowMs with
  | true => simp [Event.name]
  | false => simp [Event.name]

end Verifier

namespace Service

section Exchange

variable {σ α : Type} {s : Service σ} {nowMs : Int} {token : Presented} {w w' : World σ}
  {wire : String}

theorem run_of_ifUsable {a : Action σ α} {x : α}
    (done : (ifUsable a).run w = (.ok (some x), w')) : a.run w = (.ok x, w') := by
  obtain ⟨e | y, w'', made⟩ : ∃ y w'', a.run w = (y, w'') := ⟨_, _, rfl⟩
  · rw [ifUsable, Action.run_recover_error (Action.run_map_error made)] at done
    cases e <;> cases done
  · rw [run_ifUsable_ok made] at done
    cases done
    exact made

/-- How a refresh comes to give a text: the token is accepted, its record is read, and it is written
again with the access noted. -/
structure Exchanged (s : Service σ) (nowMs : Int) (token : Presented) (w w' : World σ)
    (wire : String) (d : Decoded) (r : Record) (held kept : World σ) : Prop where
  accepted : s.verdict nowMs token = .ok d
  read : (s.store.get nowMs d.id).run w = (.ok (some r), held)
  written : (s.store.put nowMs d.id (r.markAccessed nowMs) s.policy.retentionSeconds).run held =
    (.ok (), kept)
  encoded : s.codec.encode .access d.id (s.policy.ttlFor .access) = .ok wire
  told : w' = { kept with events := kept.events ++ s.renewalEvents nowMs d }

theorem exists_read_of_fetch {d : Decoded} {r : Record}
    (done : (s.fetch nowMs d).run w = (.ok r, w')) :
    (s.store.get nowMs d.id).run w = (.ok (some r), w') := by
  obtain ⟨found, held, read, rest⟩ := Action.exists_of_run_bind_ok done
  cases found with
  | none => cases rest
  | some r' =>
      cases rest
      exact read

/-- What is left of a refresh once the record is written: the reports, and the making of the text.
-/
theorem run_renew {readMs : Int} {d : Decoded} {r : Record} {kept : World σ}
    (written : (s.store.put nowMs d.id (r.markAccessed readMs) s.policy.retentionSeconds).run w =
      (.ok (), kept)) :
    (s.renew readMs nowMs d r).run w =
      (Action.ofExcept .expiryOverflow
        (s.codec.encode .access d.id (s.policy.ttlFor .access))).run
        { kept with events := kept.events ++ s.renewalEvents readMs d } := by
  rw [renew, Action.run_bind_ok written, Action.run_bind_ok (Action.run_emit _ _),
    Verifier.renewalEvents]
  cases valid : s.policy.isValid .access d.id (s.policy.embeddedExpiry .access d.id) readMs with
  | true =>
      simp only [valid, Bool.not_true, Bool.false_eq_true, if_false, if_true]
  | false =>
      simp only [valid, Bool.not_false, if_true, Bool.false_eq_true, if_false]
      rw [Action.run_bind_ok (Action.run_emit _ _), List.append_assoc]
      rfl

theorem exists_exchanged (done : (s.refresh nowMs token).run w = (.ok (some wire), w')) :
    ∃ d r held kept, Exchanged s nowMs token w w' wire d r held kept := by
  obtain ⟨d, w₁, resolved, fetching⟩ := Action.exists_of_run_bind_ok (run_of_ifUsable done)
  have accepted := Verifier.verdict_of_resolve (congrArg Prod.fst resolved)
  rw [Verifier.run_resolve_ok accepted] at resolved
  cases resolved
  obtain ⟨r, held, fetched, renewing⟩ := Action.exists_of_run_bind_ok fetching
  obtain ⟨_, kept, written, -⟩ := Action.exists_of_run_bind_ok renewing
  have renewed : (s.renew nowMs nowMs d r).run held = (.ok wire, w') := renewing
  rw [run_renew written] at renewed
  cases encoded : s.codec.encode .access d.id (s.policy.ttlFor .access) with
  | error cause =>
      rw [encoded] at renewed
      cases renewed
  | ok wire' =>
      rw [encoded] at renewed
      cases renewed
      exact ⟨d, r, held, kept, accepted, exists_read_of_fetch fetched, written, encoded, rfl⟩

end Exchange

section Log

theorem events_get (w : World Memory) (nowMs : Int) (id : TokenId) :
    ∃ told, ((Memory.store.get nowMs id).run w).2.events = w.events ++ told ∧
      ∀ event ∈ told, event.name = "unknown_principal_type" := by
  simp only [Memory.store]
  rw [Action.run_bind_ok (Action.run_onStore _ _)]
  cases live : w.store.live? nowMs id with
  | none => exact ⟨[], (List.append_nil _).symm, List.forall_mem_nil _⟩
  | some fields =>
      obtain ⟨x, told, quiet, runs⟩ := Action.exists_run_ofReading (σ := Memory) fields.toRecord
      exact ⟨told, by simp only [runs], quiet⟩

theorem events_put (w : World Memory) (nowMs : Int) (id : TokenId) (r : Record) (ttl : Int) :
    ((Memory.store.put nowMs id r ttl).run w).2.events = w.events := by
  cases fault : Fields.fault? r with
  | none => rw [Memory.run_put fault]
  | some cause => rw [Memory.run_put_unwritable fault]

end Log

/-- A refresh that gave a text, with the worlds before and after it. -/
structure Exchange where
  nowMs : Int
  token : Presented
  wire : String
  before : World Memory
  after : World Memory

/-- The exchange that a call is, if it is a refresh that gives a text. -/
def exchange? (v : Verifier) (nowMs : Int) (w : World Memory) : Request → Option Exchange
  | .refresh token =>
    match (v.inMemory.refresh nowMs token).run w with
    | (.ok (some wire), after) => some ⟨nowMs, token, wire, w, after⟩
    | _ => none
  | _ => none

/-- The exchanges among calls, each in the world that the calls before it left. -/
def exchanges (v : Verifier) : List (Int × Request) → World Memory → List Exchange
  | [], _ => []
  | (nowMs, request) :: rest, w =>
    (exchange? v nowMs w request).toList ++
      exchanges v rest ((request.answer v.inMemory nowMs).run w).2

/-- The log says that the text was given and is past its lifetime. -/
def Exchange.Warns (x : Exchange) : Prop :=
  ∃ told, x.after.events = x.before.events ++ told ∧
    ∃ event ∈ told, event.name = "token_refreshed_expired"

/-- An inspection of the text that was given, at the time of the exchange, finds it expired. -/
def Exchange.Expired (v : Verifier) (x : Exchange) : Prop :=
  ∃ kind limit, ((v.inMemory.inspect x.nowMs (Text.ofString x.wire)).run x.after).1 =
    .error (.rejected (.expired kind limit))

variable {v : Verifier} {x : Exchange}

theorem refresh_of_exchange? {nowMs : Int} {w : World Memory} {request : Request}
    (made : exchange? v nowMs w request = some x) :
    (v.inMemory.refresh x.nowMs x.token).run x.before = (.ok (some x.wire), x.after) := by
  cases request with
  | refresh token =>
      rw [exchange?] at made
      split at made
      · next wire after given =>
          cases made
          exact given
      · cases made
  | _ => cases made

/-- What holds of every refresh that gives a text holds of the exchanges among calls. -/
theorem refresh_of_mem_exchanges {calls : List (Int × Request)} {w : World Memory}
    (made : x ∈ exchanges v calls w) :
    (v.inMemory.refresh x.nowMs x.token).run x.before = (.ok (some x.wire), x.after) := by
  induction calls generalizing w with
  | nil => cases made
  | cons call rest ih =>
      obtain here | later := List.mem_append.mp made
      · exact refresh_of_exchange? (Option.mem_toList.mp here)
      · exact ih later

theorem Exchange.log_eq {d : Decoded} {r : Record} {held kept : World Memory}
    (made : Exchanged v.inMemory x.nowMs x.token x.before x.after x.wire d r held kept) :
    ∃ got, x.after.events = x.before.events ++ (got ++ v.renewalEvents x.nowMs d) ∧
      ∀ event ∈ got, event.name = "unknown_principal_type" := by
  obtain ⟨got, read, quiet⟩ := events_get x.before x.nowMs d.id
  refine ⟨got, ?_, quiet⟩
  have put := events_put held x.nowMs d.id (r.markAccessed x.nowMs) v.policy.retentionSeconds
  have reading : (Memory.store.get x.nowMs d.id).run x.before = (.ok (some r), held) := made.read
  have writing : (Memory.store.put x.nowMs d.id (r.markAccessed x.nowMs)
      v.policy.retentionSeconds).run held = (.ok (), kept) := made.written
  rw [reading] at read
  rw [writing] at put
  rw [made.told, put, read, List.append_assoc]
  rfl

/-- An exchange warns just if its text is past its end. -/
theorem Exchange.warns_iff {d : Decoded} {r : Record} {held kept : World Memory}
    (made : Exchanged v.inMemory x.nowMs x.token x.before x.after x.wire d r held kept) :
    x.Warns ↔ v.accessEnd d.id < x.nowMs := by
  obtain ⟨got, log, quiet⟩ := log_eq made
  rw [← v.exists_warning_iff]
  constructor
  · rintro ⟨told, log', event, member, warns⟩
    have same : told = got ++ v.renewalEvents x.nowMs d :=
      List.append_cancel_left (log'.symm.trans log)
    rw [same] at member
    obtain early | late := List.mem_append.mp member
    · exact absurd ((quiet event early).symm.trans warns) (by decide)
    · exact ⟨event, late, warns⟩
  · rintro ⟨event, member, warns⟩
    exact ⟨_, log, event, List.mem_append_right _ member, warns⟩

theorem Exchange.expired_iff {id : TokenId} (renewal : v.Renewal id x.wire) :
    x.Expired v ↔ v.accessEnd id < x.nowMs := by
  rw [Exchange.Expired, result_inspect]
  by_cases alive : x.nowMs ≤ v.accessEnd id
  · rw [renewal.honoured _ alive]
    exact iff_of_false nofun (Int.not_lt.mpr alive)
  · have late := Int.not_le.mp alive
    rw [renewal.ended _ late]
    exact iff_of_true ⟨_, _, rfl⟩ late

/-- Whatever calls are made on a service with its records in memory, and from whatever state: each
refresh that gives a text gives the one access token of the identifier, of whatever kind the token
was that was presented. It says its end, which the creation time of the identifier fixes, and is
honoured at no time after that. So the texts that are given for an identifier are one and the same.
The log warns of a text just if an inspection of it, at that time, finds it expired. -/
theorem exchanges_renewal (v : Verifier) (accepts : v.codec.version = .plain → v.codec.acceptLegacy)
    (calls : List (Int × Request)) (w : World Memory) :
    (∀ x ∈ exchanges v calls w, ∃ d, v.verdict x.nowMs x.token = .ok d ∧ v.Renewal d.id x.wire ∧
      (x.Warns ↔ x.Expired v)) ∧
    ∀ x ∈ exchanges v calls w, ∀ y ∈ exchanges v calls w, ∀ d e,
      v.verdict x.nowMs x.token = .ok d → v.verdict y.nowMs y.token = .ok e → d.id = e.id →
      x.wire = y.wire := by
  have each : ∀ x ∈ exchanges v calls w, ∃ d, v.verdict x.nowMs x.token = .ok d ∧
      v.Renewal d.id x.wire ∧ (x.Warns ↔ x.Expired v) := by
    intro x member
    obtain ⟨d, r, held, kept, made⟩ := exists_exchanged (refresh_of_mem_exchanges member)
    have renewal := Verifier.renewal_of_encode accepts made.encoded
    exact ⟨d, made.accepted, renewal,
      (Exchange.warns_iff made).trans (Exchange.expired_iff renewal).symm⟩
  refine ⟨each, ?_⟩
  intro x first y second d e accepted accepted' same
  obtain ⟨d', verdict, renewal, -⟩ := each x first
  obtain ⟨e', verdict', renewal', -⟩ := each y second
  cases accepted.symm.trans verdict
  cases accepted'.symm.trans verdict'
  exact renewal.unique (same ▸ renewal')

/-- A token without an end of its own is exchanged, then the text that it was exchanged for, then
the first token again when that text has ended. The digests are quick to work out. -/
theorem exchanges_renewal_offline :
    let signature : Bytes := List.replicate 20 0
    let digests : Digests :=
      ⟨fun _ => signature, fun _ _ => signature, fun _ => rfl, fun _ _ => rfl⟩
    let c : Codec := ⟨"s", by decide, .keyed, false, digests⟩
    let v : Verifier := ⟨c, .withOverrides (fun _ => none) none⟩
    let id : TokenId := .generate 5 ⟨0, 0⟩
    let offline : Presented := .text (Codec.spell .offline (c.payload .offline id 0))
    let given : Presented := .text (Codec.spell .access (c.payload .access id 86400005))
    let calls : List (Int × Request) :=
      [(5, .create ⟨0, 0⟩ .offline {}), (6, .refresh offline), (7, .refresh given),
        (86400006, .refresh offline)]
    let made := exchanges v calls ⟨.empty, []⟩
    (c.version = .plain → c.acceptLegacy) ∧
      made.map (fun x => (x.nowMs, x.token)) =
        [(6, offline), (7, given), (86400006, offline)] ∧
      (∀ x ∈ made, x.Warns ↔ x.Expired v) ∧ ∀ x ∈ made, ∀ y ∈ made, x.wire = y.wire := by
  intro signature digests c v id offline given calls made
  have accepts : c.version = .plain → c.acceptLegacy := nofun
  have listed : made.map (fun x => (x.nowMs, x.token)) =
      [(6, offline), (7, given), (86400006, offline)] := by decide +kernel
  have accepted : ∀ x ∈ made, ∃ d, v.verdict x.nowMs x.token = .ok d ∧ d.id = id := by
    intro x member
    have held : (x.nowMs, x.token) ∈ [(6, offline), (7, given), (86400006, offline)] :=
      listed ▸ List.mem_map_of_mem member
    have verdicts : ∀ p ∈ [((6 : Int), offline), (7, given), (86400006, offline)],
        (v.verdict p.1 p.2).map Decoded.id = .ok id := by decide +kernel
    exact exists_of_map_eq_ok (verdicts _ held)
  obtain ⟨each, once⟩ := exchanges_renewal v accepts calls ⟨.empty, []⟩
  refine ⟨accepts, listed, fun x member => ?_, fun x first y second => ?_⟩
  · obtain ⟨d, -, -, warns⟩ := each x member
    exact warns
  · obtain ⟨d, verdict, same⟩ := accepted x first
    obtain ⟨e, verdict', same'⟩ := accepted y second
    exact once x first y second d e verdict verdict' (same.trans same'.symm)

end Service

end BearerToken
