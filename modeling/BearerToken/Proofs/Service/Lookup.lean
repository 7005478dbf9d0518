import Mathlib
import BearerToken.Proofs.Policy.Deadline
import BearerToken.Proofs.Service.Retention

/-!
# The law of lookups

After any turns of a session, made at times that do not go back, a lookup gives a record if and only
if the identifier was created and its retention has not passed since its last use. The record says
what the identifier was last created with. The induction is on the turns: each of them preserves that
the store keeps what the standing of each identifier says.
-/

namespace BearerToken.Service

variable {v : Verifier} {m m' : Memory} {w : World Memory} {nowMs t : Int}

/-- The times that identifiers hold: times from the start of the epoch on, in 48 bits. -/
def InRange (nowMs : Int) : Prop := 0 ≤ nowMs ∧ nowMs < 2 ^ 48

/-- A new identifier carries its time. -/
theorem InRange.timestampMs_eq (range : InRange nowMs) {entropy : Entropy} {id : TokenId}
    (new : TokenId.generate nowMs entropy = id) : id.timestampMs = nowMs := by
  rw [← new]
  exact TokenId.timestampMs_generate range.1 range.2 entropy

theorem InRange.isWritable (range : InRange nowMs) : Numeral.isWritable nowMs := by
  obtain ⟨nonneg, bounded⟩ := range
  apply Numeral.isWritable_of_natAbs_lt
  omega

/-- Every lifetime leaves an expiry that is embedded within 64 bits. -/
def FitsExpiry (p : Policy) : Prop := ∀ kind, 0 < p.ttlFor kind ∧ p.ttlFor kind ≤ 2 ^ 63 - 2 ^ 48

theorem encode_succeeds (c : Codec) (kind : Kind) {id : TokenId} {ttlMs : Int}
    (range : InRange id.timestampMs) (positive : 0 < ttlMs) (fits : ttlMs ≤ 2 ^ 63 - 2 ^ 48) :
    ∃ wire, c.encode kind id ttlMs = .ok wire := by
  obtain ⟨nonneg, bounded⟩ := range
  have inside : Codec.Fits kind (id.timestampMs + ttlMs) := by
    intro embeds
    omega
  obtain ⟨wire, encoded, -⟩ := Codec.encode_of_fits inside
  exact ⟨wire, encoded⟩

section Create

variable {entropy : Entropy} {grant : Grant} {id : TokenId}

theorem Grant.label_record_ne_nil (grant : Grant) (id : TokenId) :
    (grant.record id).label ≠ [] := by
  obtain ⟨label, principal, state⟩ := grant
  cases label with
  | none => exact List.cons_ne_nil _ _
  | some label =>
      cases label with
      | nil => exact List.cons_ne_nil _ _
      | cons c t => exact List.cons_ne_nil _ _

theorem Grant.isPersistable_record (writable : Fields.fault? (grant.record id) = none) :
    Fields.IsPersistable (grant.record id) where
  labelled := grant.label_record_ne_nil id
  writable := writable

/-- A creation that gives a text has encoded it and has written the record. -/
theorem of_issued {w' : World Memory} {kind : Kind} {wire : String}
    (new : TokenId.generate nowMs entropy = id)
    (issued : (v.inMemory.create nowMs entropy kind grant).run w = (.ok wire, w')) :
    Fields.IsPersistable (grant.record id) ∧
      v.codec.encode kind id (v.policy.ttlFor kind) = .ok wire ∧
      w'.store =
        w.store.put nowMs id (Fields.ofRecord (grant.record id)) v.policy.retentionSeconds := by
  cases fault : Fields.fault? (grant.record id) with
  | some cause =>
      rw [run_create_unwritable new fault] at issued
      cases issued
  | none =>
      have kept := Grant.isPersistable_record fault
      obtain ⟨events, done⟩ := run_create (v := v) (w := w) new kept kind
      rw [done] at issued
      cases encoded : v.codec.encode kind id (v.policy.ttlFor kind) with
      | error cause =>
          rw [encoded] at issued
          cases issued
      | ok wire' =>
          rw [Action.run_ofExcept_ok encoded] at issued
          cases issued
          exact ⟨kept, rfl, rfl⟩

theorem Grant.keeps_record (kept : Fields.IsPersistable (grant.record id))
    (time : id.timestampMs = nowMs) :
    Standing.Keeps ⟨grant, nowMs, nowMs⟩ id (grant.record id) where
  persistable := kept
  same := by
    rw [← time]
    rfl

/-- A creation succeeds just if its record can be written. -/
theorem isOk_create (range : InRange nowMs) (fits : FitsExpiry v.policy) (entropy : Entropy)
    (kind : Kind) (grant : Grant) (w : World Memory) :
    ((v.inMemory.create nowMs entropy kind grant).run w).1.isOk =
      (Use.create entropy kind grant).isWritable nowMs := by
  rw [Use.isWritable]
  generalize new : TokenId.generate nowMs entropy = id
  cases fault : Fields.fault? (grant.record id) with
  | some cause =>
      rw [run_create_unwritable new fault]
      rfl
  | none =>
      have kept := Grant.isPersistable_record fault
      have time : InRange id.timestampMs := by
        rw [range.timestampMs_eq new]
        exact range
      obtain ⟨wire, encoded⟩ := encode_succeeds v.codec kind time (fits kind).1 (fits kind).2
      obtain ⟨events, done⟩ := run_create (v := v) (w := w) new kept kind
      rw [done, Action.run_ofExcept_ok encoded]
      rfl

theorem Sound.create {standing : TokenId → Option Standing}
    (sound : Sound v.policy w.store standing nowMs) (range : InRange nowMs) (entropy : Entropy)
    (kind : Kind) (grant : Grant) :
    Sound v.policy ((v.inMemory.create nowMs entropy kind grant).run w).2.store
      (fun id => Turn.note v ⟨nowMs, .create entropy kind grant⟩
        ((Use.create entropy kind grant).isWritable nowMs) id (standing id)) nowMs := by
  rw [Use.isWritable]
  generalize new : TokenId.generate nowMs entropy = id
  cases fault : Fields.fault? (grant.record id) with
  | some cause =>
      rw [run_create_unwritable new fault, Option.isNone_some, Turn.note_not_created]
      exact sound.sweep
  | none =>
      have kept := Grant.isPersistable_record fault
      have time := range.timestampMs_eq new
      obtain ⟨events, done⟩ := run_create (v := v) (w := w) new kept kind
      rw [done, Action.world_ofExcept, Option.isNone_none, Turn.note_created, new]
      exact sound.put (Grant.keeps_record kept time) rfl

end Create

/-- A call with a token leaves the store alone if the token is refused, and uses the identifier of
the token if not. -/
theorem Sound.presented {standing : TokenId → Option Standing} {turn : Turn} {token : Presented}
    (sound : Sound v.policy m standing turn.nowMs)
    (uses : turn.use.id? v turn.nowMs = (v.verdict turn.nowMs token).toOption.map (·.id))
    (old : turn.use.created? turn.nowMs = none) (done : Bool)
    (refused : ∀ cause, v.verdict turn.nowMs token = .error cause → m' = m)
    (accepted : ∀ d : Decoded, v.verdict turn.nowMs token = .ok d →
      Sound v.policy m' (Function.update standing d.id
        ((standing d.id).map (·.used v.policy turn.nowMs))) turn.nowMs) :
    Sound v.policy m' (fun id => turn.note v done id (standing id)) turn.nowMs := by
  cases verdict : v.verdict turn.nowMs token with
  | error cause =>
      rw [Turn.note_of_refused uses verdict, refused cause verdict]
      exact sound
  | ok d =>
      rw [Turn.note_of_accepted uses verdict old]
      exact accepted d verdict

theorem Sound.perform {standing : TokenId → Option Standing} {use : Use}
    (sound : Sound v.policy w.store standing nowMs) (writable : Numeral.isWritable nowMs)
    (old : use.created? nowMs = none) (done : Bool) :
    Sound v.policy ((use.perform v.inMemory nowMs).run w).2.store
      (fun id => Turn.note v ⟨nowMs, use⟩ done id (standing id)) nowMs := by
  cases use with
  | create entropy kind grant => exact absurd old (Option.some_ne_none _)
  | lookup token =>
      rw [Use.perform, Action.world_discard]
      refine Sound.presented sound rfl old done ?_ fun d accepted => sound.lookup writable accepted
      intro cause refused
      rw [run_lookup_refused refused]
  | touch token =>
      rw [Use.perform, Action.world_discard]
      refine Sound.presented sound rfl old done ?_ fun d accepted => sound.touch writable accepted
      intro cause refused
      rw [run_touch_refused refused]
  | refresh token =>
      rw [Use.perform, Action.world_discard]
      refine Sound.presented sound rfl old done ?_ fun d accepted => sound.refresh writable accepted
      intro cause refused
      rw [run_refresh_refused refused]
  | inspect token =>
      rw [Use.perform, Action.world_discard, Turn.note_of_none rfl, store_inspect]
      exact sound

/-- What a turn makes of the standings does not depend on the world. -/
theorem note_of_turn {turn : Turn} (range : InRange turn.nowMs) (fits : FitsExpiry v.policy)
    (x : Session) (id : TokenId) :
    (x.next v turn).standing id =
      turn.note v (turn.use.isWritable turn.nowMs) id (x.standing id) := by
  rw [Session.standing_next]
  obtain ⟨nowMs, use⟩ := turn
  cases created : use.created? nowMs with
  | none => exact Turn.note_of_old created _ _ _
  | some new =>
      obtain ⟨entropy, kind, grant, rfl⟩ := Use.exists_create created
      simp only [Use.perform, Action.isOk_discard, isOk_create range fits]

/-- A record that can be written stands from its creation on as it was created. -/
theorem standing_create {entropy : Entropy} {kind : Kind} {grant : Grant} (range : InRange nowMs)
    (fits : FitsExpiry v.policy)
    (writable : (Use.create entropy kind grant).isWritable nowMs = true) (x : Session) :
    (x.next v ⟨nowMs, .create entropy kind grant⟩).standing (TokenId.generate nowMs entropy) =
      some ⟨grant, nowMs, nowMs⟩ := by
  rw [note_of_turn range fits, writable, congrFun Turn.note_created (TokenId.generate nowMs entropy)]
  exact Function.update_self ..

/-- A turn preserves that the store keeps what the standings say. -/
theorem Sound.next {x : Session} {turn : Turn}
    (sound : Sound v.policy x.world.store x.standing turn.nowMs) (range : InRange turn.nowMs)
    (fits : FitsExpiry v.policy) :
    Sound v.policy (x.next v turn).world.store (x.next v turn).standing turn.nowMs := by
  rw [funext (note_of_turn range fits x), Session.world_next]
  obtain ⟨nowMs, use⟩ := turn
  cases created : use.created? nowMs with
  | none => exact sound.perform range.isWritable created _
  | some new =>
      obtain ⟨entropy, kind, grant, rfl⟩ := Use.exists_create created
      simp only [Use.perform, Action.world_discard]
      exact sound.create range entropy kind grant

/-- Times that do not go back and that identifiers can hold. -/
def Clocked (readings : List Int) : Prop :=
  readings.Pairwise (· ≤ ·) ∧ ∀ n ∈ readings, InRange n

namespace Clocked

variable {readings front : List Int}

theorem sublist (clocked : Clocked readings) (part : front.Sublist readings) : Clocked front :=
  ⟨clocked.1.sublist part, fun n member => clocked.2 n (part.subset member)⟩

theorem last (clocked : Clocked (front ++ [t])) : InRange t := clocked.2 t (by simp)

end Clocked

/-- After the turns of a session the store keeps what the standings say. -/
theorem sound_after {turns : List Turn} (clocked : Clocked (turns.map Turn.nowMs ++ [t]))
    (fits : FitsExpiry v.policy) :
    Sound v.policy (Session.after v turns).world.store (Session.after v turns).standing t := by
  induction turns using List.reverseRecOn generalizing t with
  | nil => exact Sound.empty v.policy t
  | append_singleton turns turn ih =>
      rw [List.map_append, List.map_singleton] at clocked
      have front := clocked.sublist (List.sublist_append_left _ _)
      have later : turn.nowMs ≤ t :=
        (List.pairwise_append.mp clocked.1).2.2 turn.nowMs (by simp) t (by simp)
      rw [Session.after_concat]
      exact ((ih front).next front.last fits).mono later

/-- What a lookup gives in a session, with the state in normal form. -/
def answer (v : Verifier) (turns : List Turn) (nowMs : Int) (token : Presented) :
    Except Failure (Option Record) :=
  ((v.inMemory.lookup nowMs token).run (Session.after v turns).world).1.map
    (Option.map Record.normal)

/-- A lookup gives what the standing of the identifier says, while the record is kept. -/
theorem answer_of_sound {turns : List Turn} {token : Presented} {d : Decoded}
    (sound : Sound v.policy (Session.after v turns).world.store (Session.after v turns).standing t)
    (writable : Numeral.isWritable t) (accepted : v.verdict t token = .ok d) :
    answer v turns t token =
      .ok ((((Session.after v turns).standing d.id).filter (·.isKept v.policy t)).map
        (·.record d.id t)) := by
  rw [answer]
  obtain ⟨nothing, gone⟩ | ⟨s, r, found, kept, past, keeps, live⟩ := (sound.shows d.id).read
  · rw [run_lookup_gone accepted nothing, gone]
    rfl
  · have latest : max r.accessed t = t := max_eq_right (keeps.accessed_eq.trans_le past)
    have whole : (some s).filter (·.isKept v.policy t) = some s := by
      simp [Option.filter, kept]
    rw [run_lookup_live accepted live keeps.persistable (by rwa [latest]), found, whole]
    exact congrArg (fun r => Except.ok (some r)) (keeps.normal_markAccessed past)

/-- Turns that do not use an identifier say nothing of it. -/
theorem standing_after_filter {turns : List Turn} (range : ∀ turn ∈ turns, InRange turn.nowMs)
    (fits : FitsExpiry v.policy) (id : TokenId) :
    (Session.after v (turns.filter fun turn => turn.use.id? v turn.nowMs = some id)).standing id =
      (Session.after v turns).standing id := by
  induction turns using List.reverseRecOn with
  | nil => rfl
  | append_singleton turns turn ih =>
      have same := ih fun turn member => range turn (List.mem_append_left _ member)
      have now : InRange turn.nowMs := range turn (by simp)
      rw [List.filter_append, Session.after_concat, note_of_turn now fits]
      by_cases used : turn.use.id? v turn.nowMs = some id
      · rw [List.filter_singleton, decide_eq_true used]
        change (Session.after v (_ ++ [turn])).standing id = _
        rw [Session.after_concat, note_of_turn now fits, same]
      · rw [List.filter_singleton, decide_eq_false used, Turn.note_of_other used]
        change (Session.after v (_ ++ [])).standing id = _
        rw [List.append_nil, same]

/-- What is no longer kept is not kept later. -/
theorem filter_isKept_of_le {p : Policy} {x : Option Standing} {later : Int} (after : t ≤ later)
    (gone : x.filter (·.isKept p t) = none) : x.filter (·.isKept p later) = none := by
  rw [Option.filter_eq_none_iff] at gone ⊢
  intro s found kept
  apply gone s found
  rw [Standing.isKept_iff] at kept ⊢
  exact after.trans_lt kept

/-- An identifier whose record is no longer kept stays as it is until it is created anew. -/
theorem standing_of_gone {x : Session} {id : TokenId} {later : List Turn}
    (gone : (x.standing id).filter (·.isKept v.policy t) = none)
    (after : ∀ turn ∈ later, t ≤ turn.nowMs)
    (old : ∀ turn ∈ later, turn.use.created? turn.nowMs ≠ some id) :
    (later.foldl (Session.next v) x).standing id = x.standing id := by
  induction later generalizing x with
  | nil => rfl
  | cons turn rest ih =>
      have still := filter_isKept_of_le (after turn List.mem_cons_self) gone
      have same : (x.next v turn).standing id = x.standing id := by
        rw [Session.standing_next]
        by_cases used : turn.use.id? v turn.nowMs = some id
        · rw [Turn.note_of_used used (old turn List.mem_cons_self), map_used_of_gone still]
        · rw [Turn.note_of_other used]
      rw [List.foldl_cons, ih (same ▸ gone)
        (fun turn member => after turn (List.mem_cons_of_mem _ member))
        (fun turn member => old turn (List.mem_cons_of_mem _ member)), same]

theorem after_append (v : Verifier) (turns later : List Turn) :
    Session.after v (turns ++ later) = later.foldl (Session.next v) (Session.after v turns) :=
  List.foldl_append

theorem fitsExpiry_withOverrides {ttls : Kind → Option Int} {retentionMs : Option Int}
    (bounded : ∀ kind, (Policy.withOverrides ttls retentionMs).ttlFor kind ≤ 2 ^ 63 - 2 ^ 48) :
    FitsExpiry (Policy.withOverrides ttls retentionMs) := by
  intro kind
  refine ⟨?_, bounded kind⟩
  rw [Policy.ttlFor_withOverrides]
  apply Policy.positiveOr_pos
  cases kind <;> decide

theorem verdict_of_inspect {token : Presented} {d : Decoded}
    (accepted : ((v.inMemory.inspect t token).run w).1 = .ok d) : v.verdict t token = .ok d :=
  Verifier.verdict_of_resolve accepted

/-- A text is accepted from when it is written until the lifetime of its kind is over. -/
theorem exists_accepted (v : Verifier) (accepts : v.codec.version = .plain → v.codec.acceptLegacy)
    {kind : Kind} {id : TokenId}
    (fits : Codec.Fits kind (id.timestampMs + v.policy.ttlFor kind)) :
    ∃ wire, v.codec.encode kind id (v.policy.ttlFor kind) = .ok wire ∧
      ∀ t ≤ id.timestampMs + v.policy.ttlFor kind, v.verdict t (Text.ofString wire) =
        .ok ⟨kind, id, Codec.embedded kind (id.timestampMs + v.policy.ttlFor kind),
          v.codec.version⟩ := by
  obtain ⟨wire, encoded, spelled⟩ := Codec.encode_of_fits fits
  refine ⟨wire, encoded, ?_⟩
  intro t alive
  have presented := Codec.decode_payload ⟨rfl, rfl⟩ fits id accepts
  rw [← spelled] at presented
  have checked := Policy.checkFields_embedded_iff.mpr ⟨alive, fun _ => alive⟩
  rw [Verifier.verdict, Codec.decodePresented, presented]
  simp only [bind, Except.bind, Policy.check, checked]
  rfl

/-- The calls on other identifiers can be left out. -/
theorem answer_filter {turns : List Turn} {token : Presented} {d : Decoded}
    (clocked : Clocked (turns.map Turn.nowMs ++ [t])) (fits : FitsExpiry v.policy)
    (accepted : v.verdict t token = .ok d) :
    answer v (turns.filter fun turn => turn.use.id? v turn.nowMs = some d.id) t token =
      answer v turns t token := by
  have part : (turns.filter fun turn => turn.use.id? v turn.nowMs = some d.id).Sublist turns :=
    List.filter_sublist
  have within := clocked.sublist ((part.map Turn.nowMs).append_right [t])
  have range : ∀ turn ∈ turns, InRange turn.nowMs := fun turn member =>
    clocked.2 _ (List.mem_append_left _ (List.mem_map_of_mem member))
  have writable := clocked.last.isWritable
  rw [answer_of_sound (sound_after within fits) writable accepted,
    answer_of_sound (sound_after clocked fits) writable accepted,
    standing_after_filter range fits]

/-- Once the record of an identifier has gone, a lookup finds none until it is created anew. -/
theorem answer_of_gone {turns later : List Turn} {t' : Int} {token : Presented} {d : Decoded}
    (clocked : Clocked (turns.map Turn.nowMs ++ [t] ++ later.map Turn.nowMs ++ [t']))
    (fits : FitsExpiry v.policy)
    (gone : ((Session.after v turns).standing d.id).filter (·.isKept v.policy t) = none)
    (old : ∀ turn ∈ later, turn.use.created? turn.nowMs ≠ some d.id)
    (accepted : v.verdict t' token = .ok d) :
    answer v (turns ++ later) t' token = .ok none := by
  obtain ⟨ordered, -, before⟩ := List.pairwise_append.mp clocked.1
  obtain ⟨-, -, behind⟩ := List.pairwise_append.mp ordered
  have after : ∀ turn ∈ later, t ≤ turn.nowMs := fun turn member =>
    behind t (by simp) _ (List.mem_map_of_mem member)
  have last : t ≤ t' := before t (by simp) t' (by simp)
  have still : (Session.after v (turns ++ later)).standing d.id =
      (Session.after v turns).standing d.id := by
    rw [after_append]
    exact standing_of_gone gone after old
  have within : Clocked ((turns ++ later).map Turn.nowMs ++ [t']) := by
    apply clocked.sublist
    rw [List.map_append]
    exact ((List.sublist_append_left _ _).append_right _).append_right _
  rw [answer_of_sound (sound_after within fits) within.last.isWritable accepted, still,
    filter_isKept_of_le last gone]
  rfl

/-- What a lookup gives for a token that an inspection accepts: the record as its identifier was last
created, if it was and the retention since its last use has not passed. Calls on other identifiers
make no difference, and a record that has gone comes back only by a new creation. -/
theorem answer_of_accepted (c : Codec) (ttls : Kind → Option Int) (retentionMs : Option Int)
    (bounded : ∀ kind, (Policy.withOverrides ttls retentionMs).ttlFor kind ≤ 2 ^ 63 - 2 ^ 48)
    {turns : List Turn} {t : Int} (clocked : Clocked (turns.map Turn.nowMs ++ [t]))
    {token : Presented} {d : Decoded} :
    let v : Verifier := ⟨c, .withOverrides ttls retentionMs⟩
    let x := Session.after v turns
    ((v.inMemory.inspect t token).run x.world).1 = .ok d →
    answer v turns t token =
      .ok (((x.standing d.id).filter (·.isKept v.policy t)).map (·.record d.id t)) ∧
    answer v (turns.filter fun turn => turn.use.id? v turn.nowMs = some d.id) t token =
      answer v turns t token ∧
    (answer v turns t token = .ok none →
      ∀ {later : List Turn} {t' : Int} {token' : Presented} {d' : Decoded},
        Clocked (turns.map Turn.nowMs ++ [t] ++ later.map Turn.nowMs ++ [t']) →
        (∀ turn ∈ later, turn.use.created? turn.nowMs ≠ some d.id) →
        ((v.inMemory.inspect t' token').run (Session.after v (turns ++ later)).world).1 = .ok d' →
        d'.id = d.id → answer v (turns ++ later) t' token' = .ok none) := by
  intro v x accepted
  have fits : FitsExpiry v.policy := fitsExpiry_withOverrides bounded
  have accepted := verdict_of_inspect accepted
  have law := answer_of_sound (sound_after clocked fits) clocked.last.isWritable accepted
  refine ⟨law, answer_filter clocked fits accepted, ?_⟩
  intro nothing later t' token' d' clocked' old accepted' same
  have gone : (x.standing d'.id).filter (·.isKept v.policy t) = none := by
    rw [law] at nothing
    rw [same]
    exact Option.map_eq_none_iff.mp (Except.ok.inj nothing)
  rw [← same] at old
  exact answer_of_gone clocked' fits gone old (verdict_of_inspect accepted')

/-- A token that has been touched keeps its record as it was created. -/
theorem answer_of_accepted_touched :
    let c : Codec := ⟨"s", by decide, .keyed, false, .standard⟩
    let v : Verifier := ⟨c, .withOverrides (fun _ => none) none⟩
    let id : TokenId := TokenId.generate 5 ⟨0, 0⟩
    let grant : Grant := { state := .record [("b", .int 1)] }
    ∃ wire, c.encode .offline id (v.policy.ttlFor .offline) = .ok wire ∧
      let turns : List Turn :=
        [⟨5, .create ⟨0, 0⟩ .offline grant⟩, ⟨9, .touch (Text.ofString wire)⟩]
      Clocked (turns.map Turn.nowMs ++ [10]) ∧
      ((v.inMemory.inspect 10 (Text.ofString wire)).run (Session.after v turns).world).1 =
        .ok ⟨.offline, id, none, .keyed⟩ ∧
      answer v turns 10 (Text.ofString wire) =
        .ok (some ⟨id, "access", 5, 10, none, .record [("b", .int 1)]⟩) := by
  intro c v id grant
  have time : id.timestampMs = 5 := TokenId.timestampMs_generate (by decide) (by decide) _
  have fits : Codec.Fits .offline (id.timestampMs + v.policy.ttlFor .offline) :=
    fun embeds => absurd embeds (by decide)
  obtain ⟨wire, encoded, accepted⟩ := exists_accepted v (fun plain => absurd plain (by decide)) fits
  refine ⟨wire, encoded, ?_⟩
  intro turns
  have accepted {t : Int} (early : t ≤ 10) :
      v.verdict t (Text.ofString wire) = .ok ⟨.offline, id, none, .keyed⟩ := by
    have lifetime : v.policy.ttlFor .offline = 604800000 := rfl
    apply accepted
    omega
  have clocked : Clocked (turns.map Turn.nowMs ++ [10]) := by
    constructor
    · change List.Pairwise (· ≤ ·) [5, 9, (10 : Int)]
      decide
    · change ∀ n ∈ [5, 9, (10 : Int)], 0 ≤ n ∧ n < 2 ^ 48
      decide
  have bounded (kind : Kind) :
      (Policy.withOverrides (fun _ => none) none).ttlFor kind ≤ 2 ^ 63 - 2 ^ 48 := by
    cases kind <;> decide
  have inspected : ((v.inMemory.inspect 10 (Text.ofString wire)).run
      (Session.after v turns).world).1 = .ok ⟨.offline, id, none, .keyed⟩ := by
    rw [result_inspect, accepted le_rfl]
    rfl
  have standing : (Session.after v turns).standing id = some ⟨grant, 5, 9⟩ := by
    have used : (Use.touch (Text.ofString wire)).id? v 9 = some id := by
      rw [Use.id?, accepted (by decide)]
      rfl
    have writable : (Use.create ⟨0, 0⟩ .offline grant).isWritable 5 = true := by decide +kernel
    have first : (Session.fresh.next v ⟨5, .create ⟨0, 0⟩ .offline grant⟩).standing id =
        some ⟨grant, 5, 5⟩ :=
      standing_create ⟨by decide, by decide⟩ (fitsExpiry_withOverrides bounded) writable _
    have second := Session.standing_next v (Session.fresh.next v ⟨5, .create ⟨0, 0⟩ .offline grant⟩)
      ⟨9, .touch (Text.ofString wire)⟩ id
    rw [first, Turn.note_of_used used (by simp [Use.created?])] at second
    exact second
  refine ⟨clocked, inspected, ?_⟩
  obtain ⟨law, -⟩ := answer_of_accepted c (fun _ => none) none bounded clocked inspected
  rw [law, standing]
  rfl

end BearerToken.Service
