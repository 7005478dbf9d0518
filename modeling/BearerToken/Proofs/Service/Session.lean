import Mathlib
import BearerToken.Proofs.Service.Memory

/-!
# Sessions

A session is a service on a fresh store in memory after the calls made on it. Beside the store stands
what the calls alone say of each identifier: what it was last created with and when, and when its
record was last used while it was still kept. This standing knows nothing of entries, deadlines and
sweeps. It changes only with calls on its own identifier, and once its record is no longer kept it
stays as it is until the identifier is created anew.
-/

namespace BearerToken.Service

/-- A call of the service. -/
inductive Use where
  | create (entropy : Entropy) (kind : Kind) (grant : Grant)
  | lookup (token : Presented)
  | touch (token : Presented)
  | refresh (token : Presented)
  | inspect (token : Presented)

namespace Use

variable {σ : Type}

/-- Makes the call. What it gives is left aside, but not whether it fails. -/
def perform (s : Service σ) (nowMs : Int) : Use → Action σ Unit
  | .create entropy kind grant => discard (s.create nowMs entropy kind grant)
  | .lookup token => discard (s.lookup nowMs token)
  | .touch token => discard (s.touch nowMs token)
  | .refresh token => discard (s.refresh nowMs token)
  | .inspect token => discard (s.inspect nowMs token)

/-- The identifier that the call uses: the new one, or the one to which the token resolves. An
inspection uses none. -/
def id? (v : Verifier) (nowMs : Int) : Use → Option TokenId
  | .create entropy _ _ => some (TokenId.generate nowMs entropy)
  | .lookup token | .touch token | .refresh token =>
    (v.verdict nowMs token).toOption.map (·.id)
  | .inspect _ => none

/-- The identifier that the call creates. -/
def created? (nowMs : Int) : Use → Option TokenId
  | .create entropy _ _ => some (TokenId.generate nowMs entropy)
  | _ => none

theorem exists_create {nowMs : Int} {use : Use} {id : TokenId}
    (created : use.created? nowMs = some id) :
    ∃ entropy kind grant, use = .create entropy kind grant := by
  cases use with
  | create entropy kind grant => exact ⟨entropy, kind, grant, rfl⟩
  | lookup token => cases created
  | touch token => cases created
  | refresh token => cases created
  | inspect token => cases created

/-- Whether nothing stands against the call's record, if it creates one. -/
def isWritable (nowMs : Int) : Use → Bool
  | .create entropy _ grant =>
    (Fields.fault? (grant.record (TokenId.generate nowMs entropy))).isNone
  | _ => true

end Use

/-- A call and the time at which it is made. -/
structure Turn where
  nowMs : Int
  use : Use

/-- What the calls say of an identifier that was created: with what, when, and the last time at which
its record was created or used. -/
structure Standing where
  grant : Grant
  created : Int
  last : Int

namespace Standing

/-- Whether the record is still kept. -/
def isKept (x : Standing) (p : Policy) (nowMs : Int) : Bool :=
  nowMs < x.last + p.retentionSeconds * 1000

/-- The standing after a use, which counts only while the record is kept. -/
def used (x : Standing) (p : Policy) (nowMs : Int) : Standing :=
  if x.isKept p nowMs then { x with last := nowMs } else x

/-- The record that a use at a time should find, in normal form. -/
def record (x : Standing) (id : TokenId) (accessedMs : Int) : Record where
  id
  label := (x.grant.record id).label
  created := x.created
  accessed := accessedMs
  principal := x.grant.principal
  state := (Fields.keptState x.grant.state).reread.normal

end Standing

/-- What a turn makes of the standing of an identifier, given whether the call succeeded. -/
def Turn.note (v : Verifier) (turn : Turn) (done : Bool) (id : TokenId) (x : Option Standing) :
    Option Standing :=
  if turn.use.id? v turn.nowMs = some id then
    match turn.use with
    | .create _ _ grant => if done then some ⟨grant, turn.nowMs, turn.nowMs⟩ else x
    | _ => x.map (·.used v.policy turn.nowMs)
  else x

/-- The world after some calls, and what they say of each identifier. -/
structure Session where
  world : World Memory
  standing : TokenId → Option Standing

namespace Session

/-- A fresh store, and nothing created. -/
def fresh : Session := ⟨⟨.empty, []⟩, fun _ => none⟩

/-- Takes a turn. -/
def next (v : Verifier) (x : Session) (turn : Turn) : Session :=
  let made := (turn.use.perform v.inMemory turn.nowMs).run x.world
  ⟨made.2, fun id => turn.note v made.1.isOk id (x.standing id)⟩

theorem world_next (v : Verifier) (x : Session) (turn : Turn) :
    (x.next v turn).world = ((turn.use.perform v.inMemory turn.nowMs).run x.world).2 := rfl

theorem standing_next (v : Verifier) (x : Session) (turn : Turn) (id : TokenId) :
    (x.next v turn).standing id =
      turn.note v ((turn.use.perform v.inMemory turn.nowMs).run x.world).1.isOk id
        (x.standing id) := rfl

/-- The session after some turns. -/
def after (v : Verifier) (turns : List Turn) : Session := turns.foldl (next v) fresh

theorem after_concat (v : Verifier) (turns : List Turn) (turn : Turn) :
    after v (turns ++ [turn]) = (after v turns).next v turn := by
  rw [after, List.foldl_append]
  rfl

end Session

namespace Turn

variable {v : Verifier} {turn : Turn} {id : TokenId} {standing : TokenId → Option Standing}

theorem note_of_other (other : turn.use.id? v turn.nowMs ≠ some id) (done : Bool)
    (x : Option Standing) : turn.note v done id x = x := by
  rw [note, if_neg other]

theorem note_of_used (used : turn.use.id? v turn.nowMs = some id)
    (old : turn.use.created? turn.nowMs ≠ some id) (done : Bool) (x : Option Standing) :
    turn.note v done id x = x.map (·.used v.policy turn.nowMs) := by
  rw [note, if_pos used]
  split
  · next made =>
    rw [made] at used old
    exact absurd used old
  · rfl

/-- A turn that uses no identifier changes no standing. -/
theorem note_of_none (none : turn.use.id? v turn.nowMs = none) (done : Bool) :
    (fun id => turn.note v done id (standing id)) = standing := by
  funext id
  apply note_of_other
  rw [none]
  exact Option.some_ne_none id |>.symm

/-- A turn that creates nothing changes at most the standing of the identifier that it uses. -/
theorem note_eq_update (used : turn.use.id? v turn.nowMs = some id)
    (old : turn.use.created? turn.nowMs = none) (done : Bool) :
    (fun id => turn.note v done id (standing id)) =
      Function.update standing id ((standing id).map (·.used v.policy turn.nowMs)) := by
  funext other
  by_cases same : other = id
  · subst same
    rw [Function.update_self]
    apply note_of_used used
    rw [old]
    exact Option.some_ne_none other |>.symm
  · rw [Function.update_of_ne same]
    apply note_of_other
    rw [used]
    intro found
    exact same (Option.some.inj found).symm

/-- Whether a call succeeds matters only to a creation. -/
theorem note_of_old (old : turn.use.created? turn.nowMs = none) (done done' : Bool)
    (x : Option Standing) : turn.note v done id x = turn.note v done' id x := by
  by_cases used : turn.use.id? v turn.nowMs = some id
  · have other : turn.use.created? turn.nowMs ≠ some id := by
      rw [old]
      exact (Option.some_ne_none id).symm
    rw [note_of_used used other, note_of_used used other]
  · rw [note_of_other used, note_of_other used]

section Token

variable {token : Presented}

/-- A turn with a token that is refused changes no standing. -/
theorem note_of_refused
    (uses : turn.use.id? v turn.nowMs = (v.verdict turn.nowMs token).toOption.map (·.id))
    {cause : Rejection} (refused : v.verdict turn.nowMs token = .error cause) (done : Bool) :
    (fun id => turn.note v done id (standing id)) = standing := by
  apply note_of_none
  rw [uses, refused]
  rfl

/-- A turn with a token that is accepted changes at most the standing of the token's identifier. -/
theorem note_of_accepted
    (uses : turn.use.id? v turn.nowMs = (v.verdict turn.nowMs token).toOption.map (·.id))
    {d : Decoded} (accepted : v.verdict turn.nowMs token = .ok d)
    (old : turn.use.created? turn.nowMs = none) (done : Bool) :
    (fun id => turn.note v done id (standing id)) =
      Function.update standing d.id ((standing d.id).map (·.used v.policy turn.nowMs)) := by
  refine note_eq_update ?_ old done
  rw [uses, accepted]
  rfl

end Token

theorem note_created {nowMs : Int} {entropy : Entropy} {kind : Kind} {grant : Grant} :
    (fun id => note v ⟨nowMs, .create entropy kind grant⟩ true id (standing id)) =
      Function.update standing (TokenId.generate nowMs entropy) (some ⟨grant, nowMs, nowMs⟩) := by
  funext other
  by_cases same : other = TokenId.generate nowMs entropy
  · have used : Use.id? v nowMs (.create entropy kind grant) =
        some (TokenId.generate nowMs entropy) := rfl
    rw [same, Function.update_self]
    exact if_pos used
  · rw [Function.update_of_ne same]
    apply note_of_other
    intro found
    exact same (Option.some.inj found).symm

theorem note_not_created {nowMs : Int} {entropy : Entropy} {kind : Kind} {grant : Grant} :
    (fun id => note v ⟨nowMs, .create entropy kind grant⟩ false id (standing id)) = standing := by
  funext other
  rw [note]
  split
  · rfl
  · rfl

end Turn

end BearerToken.Service
