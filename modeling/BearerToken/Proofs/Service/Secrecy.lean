import Mathlib
import BearerToken.Proofs.Service.Issuance
import BearerToken.Proofs.Service.Tasks

/-!
# What the secret decides

The secret and the signature format decide how the texts of tokens are spelled, and nothing else.
Two services that differ in their codecs alone are run side by side, from the same world, at the
same times and with the same random draws. As the texts are not the same, a token is named by the
call that gave its text. What a step preserves is that the worlds are the same and that the two
tasks are at the same stage and have found out the same, but for the format of a token. So a run of
any length tells the codecs apart by nothing but the texts and the formats that it gives.
-/

namespace BearerToken

variable {ε α β γ δ σ : Type}

/-- Both give results, which are related, or both fail in the same way. -/
inductive Related (R : α → β → Prop) : Except ε α → Except ε β → Prop where
  | ok {x : α} {y : β} (holds : R x y) : Related R (.ok x) (.ok y)
  | error (e : ε) : Related R (.error e) (.error e)

namespace Action

/-- From whichever world, the two actions have related outcomes and leave the same. -/
def InStep (R : α → β → Prop) (a : Action σ α) (b : Action σ β) : Prop :=
  ∀ w, Related R (a.run w).1 (b.run w).1 ∧ (a.run w).2 = (b.run w).2

section InStep

variable {R : α → β → Prop} {S : γ → δ → Prop} {a : Action σ α} {b : Action σ β}

theorem inStep_refl (a : Action σ α) : InStep Eq a a := by
  refine fun w => ⟨?_, rfl⟩
  cases (a.run w).1 with
  | ok x => exact .ok rfl
  | error e => exact .error e

theorem inStep_ofExcept (wrap : ε → Failure) {r : Except ε α} {r' : Except ε β}
    (related : Related R r r') : InStep (σ := σ) R (ofExcept wrap r) (ofExcept wrap r') := by
  intro w
  cases related with
  | ok holds => exact ⟨.ok holds, rfl⟩
  | error e => exact ⟨.error _, rfl⟩

/-- Both actions give results, or both fail, and there is one world to go on from. -/
theorem InStep.run (steps : InStep R a b) (w : World σ) :
    (∃ x y w', R x y ∧ a.run w = (.ok x, w') ∧ b.run w = (.ok y, w')) ∨
      ∃ e w', a.run w = (.error e, w') ∧ b.run w = (.error e, w') := by
  obtain ⟨related, same⟩ := steps w
  obtain ⟨x, w', made⟩ : ∃ x w', a.run w = (x, w') := ⟨_, _, rfl⟩
  obtain ⟨y, w'', made'⟩ : ∃ y w'', b.run w = (y, w'') := ⟨_, _, rfl⟩
  rw [made, made'] at related same
  obtain rfl : w' = w'' := same
  cases related with
  | ok holds => exact .inl ⟨_, _, w', holds, made, made'⟩
  | error e => exact .inr ⟨e, w', made, made'⟩

theorem InStep.bind {f : α → Action σ γ} {g : β → Action σ δ} (first : InStep R a b)
    (rest : ∀ x y, R x y → InStep S (f x) (g y)) : InStep S (a >>= f) (b >>= g) := by
  intro w
  obtain ⟨x, y, w', holds, made, made'⟩ | ⟨e, w', made, made'⟩ := first.run w
  · rw [run_bind_ok made, run_bind_ok made']
    exact rest x y holds w'
  · rw [run_bind_error made, run_bind_error made']
    exact ⟨.error e, rfl⟩

/-- The same step on both sides, with what comes after it. -/
theorem inStep_andThen (a : Action σ α) {f : α → Action σ γ} {g : α → Action σ δ}
    (rest : ∀ x, InStep S (f x) (g x)) : InStep S (a >>= f) (a >>= g) :=
  (inStep_refl a).bind fun x _ same => same ▸ rest x

end InStep

end Action

/-- The two say the same, but for the signature format. -/
def Decoded.Agrees (d d' : Decoded) : Prop := d' = { d with version := d'.version }

namespace Codec

open Service (Honours)

/-- Texts of one token, each as one of the codecs writes it. -/
def Counterparts (c c' : Codec) (wire wire' : String) : Prop :=
  ∃ kind id ttlMs, c.encode kind id ttlMs = .ok wire ∧ c'.encode kind id ttlMs = .ok wire'

variable {c c' : Codec}

/-- Whether there is a text for a token is the same for all codecs. -/
theorem related_encode (c c' : Codec) (kind : Kind) (id : TokenId) (ttlMs : Int) :
    Related (Counterparts c c') (c.encode kind id ttlMs) (c'.encode kind id ttlMs) := by
  by_cases fits : Fits kind (id.timestampMs + ttlMs)
  · obtain ⟨wire, encoded, -⟩ := encode_of_fits (c := c) fits
    obtain ⟨wire', encoded', -⟩ := encode_of_fits (c := c') fits
    have counterparts : Counterparts c c' wire wire' := ⟨kind, id, ttlMs, encoded, encoded'⟩
    rw [encoded, encoded']
    exact .ok counterparts
  · rw [Fits, Classical.not_imp] at fits
    rw [encode, encode, if_pos fits, if_pos fits]
    exact .error _

theorem Counterparts.decode {wire wire' : String} (counterparts : Counterparts c c' wire wire')
    (honours : Honours c) (honours' : Honours c') :
    ∃ d d', c.decode (Text.ofString wire) = .ok d ∧ c'.decode (Text.ofString wire') = .ok d' ∧
      d.Agrees d' := by
  obtain ⟨kind, id, ttlMs, encoded, encoded'⟩ := counterparts
  obtain ⟨fits, spelled⟩ := fits_of_encode encoded
  obtain ⟨-, spelled'⟩ := fits_of_encode encoded'
  have read := decode_payload ⟨rfl, rfl⟩ fits id honours
  have read' := decode_payload ⟨rfl, rfl⟩ fits id honours'
  rw [← spelled] at read
  rw [← spelled'] at read'
  exact ⟨_, _, read, read', rfl⟩

/-- Presented on either side is the text of one token, or something that is no text. -/
inductive Presents (c c' : Codec) : Presented → Presented → Prop where
  | text {wire wire' : String} (counterparts : Counterparts c c' wire wire') :
      Presents c c' (.text (.ofString wire)) (.text (.ofString wire'))
  | other : Presents c c' .other .other

/-- Neither limit is read off the signature. -/
theorem Presents.related_verdict {token token' : Presented} (presents : Presents c c' token token')
    (honours : Honours c) (honours' : Honours c') (p : Policy) (nowMs : Int) :
    Related Decoded.Agrees (Verifier.verdict ⟨c, p⟩ nowMs token)
      (Verifier.verdict ⟨c', p⟩ nowMs token') := by
  cases presents with
  | other => exact .error _
  | text counterparts =>
      obtain ⟨d, d', read, read', agrees⟩ := counterparts.decode honours honours'
      have checked : p.check d' nowMs = p.check d nowMs := by
        rw [agrees]
        rfl
      simp only [Verifier.verdict, decodePresented, read, read']
      change Related Decoded.Agrees (p.check d nowMs >>= fun _ => .ok d)
        (p.check d' nowMs >>= fun _ => .ok d')
      rw [checked]
      cases p.check d nowMs with
      | ok _ => exact .ok agrees
      | error cause => exact .error cause

end Codec

namespace Service

open BearerToken.Action (InStep)

/-- A call of a run. A token is named by the place of the call that gave its text. -/
inductive Plan where
  | create (entropy : Entropy) (kind : Kind) (grant : Grant)
  | createForPrincipal (entropy : Entropy) (principal : Principal) (state : Json.Value)
  | lookup (giver : Nat)
  | touch (giver : Nat)
  | refresh (giver : Nat)
  | inspect (giver : Nat)

/-- The text that an ended call has given. -/
def Task.wire? : Task → Option String
  | .ended (.ok (.created wire)) => some wire
  | .ended (.ok (.refreshed wire)) => wire
  | _ => none

/-- As many steps as there are times. Each comes with the call's own reading of the clock and the
time at which the store is reached. -/
def Task.stepsAt (s : Service σ) : List (Int × Int) → Task → World σ → Task × World σ
  | [], task, w => (task, w)
  | (readMs, nowMs) :: times, task, w =>
    let made := task.step s readMs nowMs w
    stepsAt s times made.1 made.2

namespace Plan

/-- The text that the call at that place has given. A call that has given none leaves nothing that
could be presented as a text. -/
def given (texts : List (Option String)) (giver : Nat) : Presented :=
  match texts[giver]? with
  | some (some wire) => .text (.ofString wire)
  | _ => .other

def request (texts : List (Option String)) : Plan → Request
  | .create entropy kind grant => .create entropy kind grant
  | .createForPrincipal entropy principal state => .createForPrincipal entropy principal state
  | .lookup giver => .lookup (given texts giver)
  | .touch giver => .touch (given texts giver)
  | .refresh giver => .refresh (given texts giver)
  | .inspect giver => .inspect (given texts giver)

/-- What becomes of calls, each at its times, and the world after each of them. The texts are those
that earlier calls have given. -/
def trace (s : Service σ) :
    List (Vector (Int × Int) 3 × Plan) → List (Option String) → World σ → List (Task × World σ)
  | [], _, _ => []
  | (times, plan) :: rest, texts, w =>
    let made := Task.stepsAt s times.toList (.asked (plan.request texts)) w
    made :: trace s rest (texts ++ [made.1.wire?]) made.2

end Plan

/-- Steps that all come at one time. -/
theorem Task.stepsAt_replicate (s : Service σ) (nowMs : Int) (n : Nat) (task : Task) (w : World σ) :
    stepsAt s (List.replicate n (nowMs, nowMs)) task w = steps s nowMs n task w := by
  induction n generalizing task w with
  | zero => rfl
  | succ n ih => exact ih _ _

/-- A call whose steps all come at one time is the call of the service. -/
theorem Plan.stepsAt_request (s : Service σ) (nowMs : Int) (plan : Plan)
    (texts : List (Option String)) (w : World σ) :
    Task.stepsAt s (Vector.replicate 3 (nowMs, nowMs)).toList (.asked (plan.request texts)) w =
      (.ended (((plan.request texts).answer s nowMs).run w).1,
        (((plan.request texts).answer s nowMs).run w).2) := by
  rw [Vector.toList_replicate, Task.stepsAt_replicate, Task.steps_asked, Task.settled]

variable {c c' : Codec} {n : Nat}

/-- The answers are the same, but for texts of one token and for the format of a token. -/
inductive Answer.Agrees (c c' : Codec) : Answer → Answer → Prop where
  | created {wire wire' : String} (counterparts : c.Counterparts c' wire wire') :
      Agrees c c' (.created wire) (.created wire')
  | found (record : Option Record) : Agrees c c' (.found record) (.found record)
  | touched (done : Bool) : Agrees c c' (.touched done) (.touched done)
  | refreshed {wire wire' : Option String}
      (counterparts : Option.Rel (c.Counterparts c') wire wire') :
      Agrees c c' (.refreshed wire) (.refreshed wire')
  | inspected {d d' : Decoded} (agrees : d.Agrees d') : Agrees c c' (.inspected d) (.inspected d')

/-- Tasks at the same stage, which have found out the same but for the format of a token. They end
within so many steps. -/
inductive Abreast (c c' : Codec) : Nat → Task → Task → Prop where
  | asked (n : Nat) (plan : Plan) {texts texts' : List (Option String)}
      (given : List.Forall₂ (Option.Rel (c.Counterparts c')) texts texts') :
      Abreast c c' (n + 3) (.asked (plan.request texts)) (.asked (plan.request texts'))
  | touching (n : Nat) {d d' : Decoded} (agrees : d.Agrees d') :
      Abreast c c' (n + 1) (.touching d) (.touching d')
  | reading (n : Nat) (aim : Aim) {d d' : Decoded} (agrees : d.Agrees d') :
      Abreast c c' (n + 2) (.reading aim d) (.reading aim d')
  | holding (n : Nat) (aim : Aim) {d d' : Decoded} (agrees : d.Agrees d') (r : Record) :
      Abreast c c' (n + 1) (.holding aim d r) (.holding aim d' r)
  | ended (n : Nat) {outcome outcome' : Except Failure Answer}
      (related : Related (Answer.Agrees c c') outcome outcome') :
      Abreast c c' n (.ended outcome) (.ended outcome')

/-- Tasks that are abreast in one world. -/
def Together (c c' : Codec) (n : Nat) (made made' : Task × World σ) : Prop :=
  Abreast c c' n made.1 made'.1 ∧ made.2 = made'.2

theorem presents_given {texts texts' : List (Option String)}
    (given : List.Forall₂ (Option.Rel (c.Counterparts c')) texts texts') (giver : Nat) :
    c.Presents c' (Plan.given texts giver) (Plan.given texts' giver) := by
  induction given generalizing giver with
  | nil => exact .other
  | cons first rest ih =>
      cases giver with
      | succ giver => exact ih giver
      | zero =>
          cases first with
          | none => exact .other
          | some counterparts => exact .text counterparts

section Actions

variable {token token' : Presented} {d d' : Decoded}

theorem inStep_resolve (honours : Honours c) (honours' : Honours c')
    (presents : c.Presents c' token token') (p : Policy) (nowMs : Int) :
    InStep (σ := σ) Decoded.Agrees (Verifier.resolve ⟨c, p⟩ nowMs token)
      (Verifier.resolve ⟨c', p⟩ nowMs token') := by
  have related := presents.related_verdict honours honours' p nowMs
  rw [Verifier.resolve, Verifier.resolve]
  generalize Verifier.verdict ⟨c, p⟩ nowMs token = verdict at related ⊢
  generalize Verifier.verdict ⟨c', p⟩ nowMs token' = verdict' at related ⊢
  intro w
  cases related with
  | ok agrees => exact ⟨.ok agrees, rfl⟩
  | error cause => exact ⟨.error _, rfl⟩

theorem inStep_encode (c c' : Codec) (kind : Kind) (id : TokenId) (ttlMs : Int) :
    InStep (σ := σ) (c.Counterparts c') (.ofExcept .expiryOverflow (c.encode kind id ttlMs))
      (.ofExcept .expiryOverflow (c'.encode kind id ttlMs)) :=
  Action.inStep_ofExcept _ (Codec.related_encode c c' kind id ttlMs)

variable (c c') (p : Policy) (store : Store σ)

theorem inStep_issue (nowMs : Int) (id : TokenId) (kind : Kind) (grant : Grant) :
    InStep (c.Counterparts c') (issue ⟨⟨c, p⟩, store⟩ nowMs id kind grant)
      (issue ⟨⟨c', p⟩, store⟩ nowMs id kind grant) := by
  refine Action.inStep_andThen (store.put nowMs id (grant.record id) p.retentionSeconds) ?_
  intro _
  exact Action.inStep_andThen (.emit _) fun _ => inStep_encode c c' kind id (p.ttlFor kind)

theorem inStep_renew (readMs nowMs : Int) (agrees : d.Agrees d') (r : Record) :
    InStep (c.Counterparts c') (renew ⟨⟨c, p⟩, store⟩ readMs nowMs d r)
      (renew ⟨⟨c', p⟩, store⟩ readMs nowMs d' r) := by
  have encodes : InStep (σ := σ) (c.Counterparts c')
      (.ofExcept .expiryOverflow (c.encode .access d.id (p.ttlFor .access)))
      (.ofExcept .expiryOverflow (c'.encode .access d.id (p.ttlFor .access))) :=
    inStep_encode c c' .access d.id (p.ttlFor .access)
  -- Only the identifier and the kind are used, which do not depend on the format.
  rw [agrees]
  refine Action.inStep_andThen (store.put nowMs d.id (r.markAccessed readMs) p.retentionSeconds) ?_
  intro _
  refine Action.inStep_andThen (.emit (.refreshed d.id d.kind)) fun _ => ?_
  dsimp only
  by_cases valid : p.isValid .access d.id (p.embeddedExpiry .access d.id) readMs
  · simp only [valid, Bool.not_true, Bool.false_eq_true, if_false]
    exact encodes
  · simp only [valid, Bool.not_false, if_true]
    exact Action.inStep_andThen (.emit _) fun _ => encodes

end Actions

namespace Abreast

variable {task task' : Task}

theorem leads {a : Action σ α} {b : Action σ β} {R : α → β → Prop} {next : α → Task}
    {next' : β → Task} {ending : Failure → Except Failure Answer} (actions : InStep R a b)
    (goes : ∀ x y, R x y → Abreast c c' n (next x) (next' y))
    (ends : ∀ e, Related (Answer.Agrees c c') (ending e) (ending e)) (w : World σ) :
    Together c c' n (Task.leads a next ending w) (Task.leads b next' ending w) := by
  obtain ⟨x, y, w', holds, made, made'⟩ | ⟨e, w', made, made'⟩ := actions.run w
  · rw [Task.leads_ok made, Task.leads_ok made']
    exact ⟨goes x y holds, rfl⟩
  · rw [Task.leads_error made, Task.leads_error made']
    exact ⟨.ended n (ends e), rfl⟩

theorem related_ending (aim : Aim) (e : Failure) :
    Related (Answer.Agrees c c') (aim.ending e) (aim.ending e) := by
  have unusable : Answer.Agrees c c' aim.unusable aim.unusable := by
    cases aim with
    | lookup => exact .found none
    | refresh => exact .refreshed .none
  cases e with
  | rejected cause => exact .ok unusable
  | notFound id => exact .ok unusable
  | _ => exact .error _

theorem related_touchEnding (e : Failure) :
    Related (Answer.Agrees c c') (touchEnding e) (touchEnding e) := by
  cases e with
  | rejected cause => exact .ok (.touched false)
  | _ => exact .error _

/-- A step on both sides leaves tasks that are abreast, and the same world. -/
theorem step (honours : Honours c) (honours' : Honours c') (p : Policy) (store : Store σ)
    (abreast : Abreast c c' (n + 1) task task') (readMs nowMs : Int) (w : World σ) :
    Together c c' n (task.step ⟨⟨c, p⟩, store⟩ readMs nowMs w)
      (task'.step ⟨⟨c', p⟩, store⟩ readMs nowMs w) := by
  cases abreast with
  | ended _ related => exact ⟨.ended n related, rfl⟩
  | asked n plan given =>
      have resolves (giver : Nat) := inStep_resolve (σ := σ) honours honours'
        (presents_given given giver) p readMs
      cases plan with
      | create entropy kind grant =>
          exact leads (inStep_issue c c' p store nowMs _ kind grant)
            (fun _ _ counterparts => .ended _ (.ok (.created counterparts))) .error w
      | createForPrincipal entropy principal state =>
          exact leads (inStep_issue c c' p store nowMs _ .access _)
            (fun _ _ counterparts => .ended _ (.ok (.created counterparts))) .error w
      | lookup giver =>
          exact leads (resolves giver) (fun _ _ => .reading n .lookup) (related_ending .lookup) w
      | refresh giver =>
          exact leads (resolves giver) (fun _ _ => .reading n .refresh) (related_ending .refresh) w
      | touch giver =>
          exact leads (resolves giver) (fun _ _ => .touching (n + 1)) related_touchEnding w
      | inspect giver =>
          exact leads (resolves giver) (fun _ _ agrees => .ended _ (.ok (.inspected agrees)))
            .error w
  | touching _ agrees =>
      rw [agrees]
      exact leads (Action.inStep_refl _) (fun _ _ _ => .ended n (.ok (.touched true)))
        related_touchEnding w
  | @reading n aim d d' agrees =>
      have fetches : InStep Eq (fetch ⟨⟨c, p⟩, store⟩ nowMs d)
          (fetch ⟨⟨c', p⟩, store⟩ nowMs d') := by
        rw [agrees]
        exact Action.inStep_refl _
      refine leads fetches ?_ (related_ending aim) w
      rintro r _ rfl
      exact .holding n aim agrees r
  | holding _ aim agrees r =>
      cases aim with
      | lookup =>
          rw [agrees]
          exact leads (Action.inStep_refl _) (fun _ _ _ => .ended n (.ok (.found _)))
            (related_ending .lookup) w
      | refresh =>
          exact leads (inStep_renew c c' p store readMs nowMs agrees r)
            (fun _ _ counterparts => .ended n (.ok (.refreshed (.some counterparts))))
            (related_ending .refresh) w

/-- Steps on both sides, at the same times. -/
theorem stepsAt (honours : Honours c) (honours' : Honours c') (p : Policy) (store : Store σ)
    (times : List (Int × Int)) (abreast : Abreast c c' times.length task task') (w : World σ) :
    Together c c' 0 (Task.stepsAt ⟨⟨c, p⟩, store⟩ times task w)
      (Task.stepsAt ⟨⟨c', p⟩, store⟩ times task' w) := by
  induction times generalizing task task' w with
  | nil => exact ⟨abreast, rfl⟩
  | cons time times ih =>
      obtain ⟨next, same⟩ := step honours honours' p store abreast time.1 time.2 w
      have rest := ih next (task.step ⟨⟨c, p⟩, store⟩ time.1 time.2 w).2
      rw [Task.stepsAt, Task.stepsAt]
      rwa [← same]

end Abreast

/-- What becomes of a call and the world after it are the same on both sides: the call has ended,
with answers that agree or with the same failure, and the store and the log are the same. -/
structure SameBut (c c' : Codec) (made made' : Task × World σ) : Prop where
  ended : ∃ outcome outcome', made.1 = .ended outcome ∧ made'.1 = .ended outcome' ∧
    Related (Answer.Agrees c c') outcome outcome'
  world : made.2 = made'.2

section Ended

variable {made made' : Task × World σ}

theorem Together.sameBut (together : Together c c' 0 made made') : SameBut c c' made made' := by
  obtain ⟨task, w⟩ := made
  obtain ⟨task', w'⟩ := made'
  obtain ⟨abreast, same⟩ := together
  cases abreast with
  | ended _ related => exact ⟨⟨_, _, rfl, rfl, related⟩, same⟩

/-- Two calls that end alike have given texts of one token, or none. -/
theorem SameBut.rel_wire (same : SameBut c c' made made') :
    Option.Rel (c.Counterparts c') made.1.wire? made'.1.wire? := by
  obtain ⟨outcome, outcome', ends, ends', related⟩ := same.ended
  rw [ends, ends']
  cases related with
  | error e => exact .none
  | ok agrees =>
      cases agrees with
      | created counterparts => exact .some counterparts
      | refreshed counterparts => exact counterparts
      | _ => exact .none

end Ended

/-- Calls that follow others, of which each has given texts of one token on both sides, or none. -/
theorem sameBut_trace (honours : Honours c) (honours' : Honours c') (p : Policy) (store : Store σ)
    (calls : List (Vector (Int × Int) 3 × Plan)) {texts texts' : List (Option String)}
    (given : List.Forall₂ (Option.Rel (c.Counterparts c')) texts texts') (w : World σ) :
    List.Forall₂ (SameBut c c') (Plan.trace ⟨⟨c, p⟩, store⟩ calls texts w)
      (Plan.trace ⟨⟨c', p⟩, store⟩ calls texts' w) := by
  induction calls generalizing texts texts' w with
  | nil => exact .nil
  | cons call rest ih =>
      obtain ⟨times, plan⟩ := call
      have begun : Abreast c c' times.toList.length (.asked (plan.request texts))
          (.asked (plan.request texts')) := by
        rw [Vector.length_toList]
        exact .asked 0 plan given
      -- A call ends within three steps, so its text is there when the next one begins.
      have same := (begun.stepsAt honours honours' p store _ w).sameBut
      rw [Plan.trace, Plan.trace]
      refine .cons same ?_
      rw [← same.world]
      exact ih (List.rel_append given (.cons same.rel_wire .nil)) _

/-- Take two services with the same policy and the same store, whose codecs may differ in all but
that each reads what it writes. From the same world, and at the same times, the same calls end
alike, each with an answer that is the same or with the same failure, and the store and the log
after each of them are the same. All that tells them apart is how they spell the text of a token,
and the format that an inspection gives. -/
theorem sameBut_trace_of_honours (honours : Honours c) (honours' : Honours c') (p : Policy)
    (store : Store σ) (calls : List (Vector (Int × Int) 3 × Plan)) (w : World σ) :
    List.Forall₂ (SameBut c c') (Plan.trace ⟨⟨c, p⟩, store⟩ calls [] w)
      (Plan.trace ⟨⟨c', p⟩, store⟩ calls [] w) :=
  sameBut_trace honours honours' p store calls .nil w

/-- Each call once, and one that names a call without a text, with secrets, formats and digests that
differ. Time passes within a call. -/
theorem sameBut_trace_of_honours_formats :
    let digests (n : UInt8) : Digests := ⟨fun _ => List.replicate 20 n,
      fun _ _ => List.replicate 20 n, fun _ => rfl, fun _ _ => rfl⟩
    let c : Codec := ⟨"s", by decide, .plain, true, digests 0⟩
    let c' : Codec := ⟨"other", by decide, .keyed, false, digests 1⟩
    let p : Policy := .withOverrides (fun _ => none) none
    let u : Uuid := ⟨0x018bcfe5680071238123456789abcdef, by decide⟩
    let calls : List (Vector (Int × Int) 3 × Plan) :=
      [(#v[(5, 5), (5, 5), (5, 5)], .create ⟨0, 0⟩ .refresh { label := some "L" }),
        (#v[(5, 6), (6, 6), (6, 6)],
          .createForPrincipal ⟨0, 1⟩ ⟨.adminUser, u, some u⟩ .emptyObject),
        (#v[(6, 6), (6, 7), (7, 8)], .lookup 1), (#v[(8, 8), (8, 9), (9, 9)], .touch 0),
        (#v[(9, 9), (9, 9), (10, 11)], .refresh 0), (#v[(11, 11), (11, 11), (11, 11)], .inspect 4),
        (#v[(12, 12), (12, 12), (12, 12)], .lookup 3)]
    let run (c : Codec) := Plan.trace ⟨⟨c, p⟩, Memory.store⟩ calls [] ⟨.empty, []⟩
    let honoured : Task × World Memory → Bool
      | (.ended (.ok (.created _)), _) | (.ended (.ok (.found (some _))), _)
      | (.ended (.ok (.touched true)), _) | (.ended (.ok (.refreshed (some _))), _)
      | (.ended (.ok (.inspected _)), _) => true
      | _ => false
    Honours c ∧ Honours c' ∧ (run c).map honoured = List.replicate 6 true ++ [false] ∧
      (run c).map (·.1.wire?) ≠ (run c').map (·.1.wire?) ∧
      List.Forall₂ (SameBut c c') (run c) (run c') := by
  intro digests c c' p u calls run honoured
  have honours : Honours c := fun _ => rfl
  have honours' : Honours c' := fun plain => nomatch plain
  exact ⟨honours, honours', by decide +kernel, by decide +kernel,
    sameBut_trace_of_honours honours honours' p Memory.store calls ⟨.empty, []⟩⟩

end Service

end BearerToken
