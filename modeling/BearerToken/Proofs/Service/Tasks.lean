import Mathlib
import BearerToken.Proofs.Service.Agreement

/-!
# Calls in steps

A call of the service reaches its store at most twice, and the calls of others may come in between.
So a call is taken apart into steps. In each of them it first reads the clock for itself, if it has
to, and then reaches the store, if it has to; both times are given, as time may pass from one to the
other. Between two steps a call is a task, which holds what the call has found out so far. The steps
of a call in a row, all at one time, are the call.
-/

namespace BearerToken.Service

variable {σ α β γ : Type}

/-- Writes the record of a new identifier, reports it, and gives the token's text. -/
def issue (s : Service σ) (nowMs : Int) (id : TokenId) (kind : Kind) (grant : Grant) :
    Action σ String := do
  s.store.put nowMs id (grant.record id) s.policy.retentionSeconds
  .emit (.created id kind (grant.record id).label (grant.principal.map (·.kind)))
  .ofExcept .expiryOverflow (s.codec.encode kind id (s.policy.ttlFor kind))

/-- Writes a record that was read, with an access at `readMs`, and gives the access token's text. -/
def renew (s : Service σ) (readMs nowMs : Int) (token : Decoded) (record : Record) :
    Action σ String := do
  s.store.put nowMs token.id (record.markAccessed readMs) s.policy.retentionSeconds
  .emit (.refreshed token.id token.kind)
  let expiresAt := s.policy.embeddedExpiry .access token.id
  if !s.policy.isValid .access token.id expiresAt readMs then
    .emit (.refreshedExpired token.id expiresAt)
  .ofExcept .expiryOverflow (s.codec.encode .access token.id (s.policy.ttlFor .access))

/-- What a record is read for. -/
inductive Aim where
  | lookup
  | refresh
  deriving DecidableEq

/-- What is left to do of a call. -/
inductive Task where
  /-- The call has not begun. -/
  | asked (request : Request)
  /-- The token of a touch has been accepted. -/
  | touching (token : Decoded)
  /-- The token of a lookup or a refresh has been accepted. -/
  | reading (aim : Aim) (token : Decoded)
  /-- Its record has been read. -/
  | holding (aim : Aim) (token : Decoded) (record : Record)
  | ended (outcome : Except Failure Answer)

namespace Aim

def request (token : Presented) : Aim → Request
  | .lookup => .lookup token
  | .refresh => .refresh token

/-- The answer where the token is unusable. -/
def unusable : Aim → Answer
  | .lookup => .found none
  | .refresh => .refreshed none

/-- How a failure ends the call. -/
def ending (aim : Aim) : Failure → Except Failure Answer
  | .rejected _ | .notFound _ => .ok aim.unusable
  | failure => .error failure

end Aim

/-- How a failure ends a touch. -/
def touchEnding : Failure → Except Failure Answer
  | .rejected _ => .ok (.touched false)
  | failure => .error failure

namespace Task

/-- Goes on with what the action gives; a failure ends the call. -/
def leads (a : Action σ α) (next : α → Task) (ending : Failure → Except Failure Answer)
    (w : World σ) : Task × World σ :=
  match a.run w with
  | (.ok x, w) => (next x, w)
  | (.error e, w) => (.ended (ending e), w)

/-- The next step of a task: the call's own reading of the clock is `readMs`, and the store is reached
at `nowMs`. -/
def step (s : Service σ) (readMs nowMs : Int) : Task → World σ → Task × World σ
  | .asked (.create entropy kind grant) =>
    leads (s.issue nowMs (.generate readMs entropy) kind grant)
      (fun wire => .ended (.ok (.created wire))) .error
  | .asked (.createForPrincipal entropy principal state) =>
    leads (s.issue nowMs (.generate readMs entropy) .access
        { principal := some principal, state := state })
      (fun wire => .ended (.ok (.created wire))) .error
  | .asked (.lookup token) => leads (s.resolve readMs token) (.reading .lookup) Aim.lookup.ending
  | .asked (.refresh token) => leads (s.resolve readMs token) (.reading .refresh) Aim.refresh.ending
  | .asked (.touch token) => leads (s.resolve readMs token) .touching touchEnding
  | .asked (.inspect token) =>
    leads (s.resolve readMs token) (fun d => .ended (.ok (.inspected d))) .error
  | .touching d =>
    leads (do s.store.setAccessed nowMs d.id readMs s.policy.retentionSeconds; .emit (.touched d.id))
      (fun _ => .ended (.ok (.touched true))) touchEnding
  | .reading aim d => leads (s.fetch nowMs d) (.holding aim d) aim.ending
  | .holding .lookup d r =>
    leads (s.noteAccess nowMs d.id (r.markAccessed readMs).accessed)
      (fun _ => .ended (.ok (.found (some (r.markAccessed readMs))))) Aim.lookup.ending
  | .holding .refresh d r =>
    leads (s.renew readMs nowMs d r) (fun wire => .ended (.ok (.refreshed (some wire))))
      Aim.refresh.ending
  | .ended outcome => fun w => (.ended outcome, w)

/-- As many steps in a row, all at one time. -/
def steps (s : Service σ) (nowMs : Int) : Nat → Task → World σ → Task × World σ
  | 0, task, w => (task, w)
  | n + 1, task, w =>
    let made := task.step s nowMs nowMs w
    steps s nowMs n made.1 made.2

section Leads

variable {a : Action σ α} {next : α → Task} {ending : Failure → Except Failure Answer}
  {w w' : World σ}

theorem leads_ok {x : α} (done : a.run w = (.ok x, w')) : leads a next ending w = (next x, w') := by
  rw [leads, done]

theorem leads_error {e : Failure} (failed : a.run w = (.error e, w')) :
    leads a next ending w = (.ended (ending e), w') := by
  rw [leads, failed]

theorem leads_map (f : α → β) (next : β → Task) :
    leads (f <$> a) next ending = leads a (fun x => next (f x)) ending := by
  funext w
  obtain ⟨e | x, w', made⟩ : ∃ x w', a.run w = (x, w') := ⟨_, _, rfl⟩
  · rw [leads_error (Action.run_map_error made), leads_error made]
  · rw [leads_ok (Action.run_map_ok made), leads_ok made]

end Leads

variable {s : Service σ} {nowMs : Int}

theorem steps_ended (n : Nat) (outcome : Except Failure Answer) (w : World σ) :
    steps s nowMs n (.ended outcome) w = (.ended outcome, w) := by
  induction n with
  | zero => rfl
  | succ n ih => exact ih

/-- Steps after a step are a call after a call. -/
theorem steps_leads {a : Action σ α} {f : α → Action σ β} {next : α → Task} {last : β → Task}
    {ending : Failure → Except Failure Answer} {n : Nat}
    (goes : ∀ x w, steps s nowMs n (next x) w = leads (f x) last ending w) (w : World σ) :
    steps s nowMs n (leads a next ending w).1 (leads a next ending w).2 =
      leads (a >>= f) last ending w := by
  obtain ⟨e | x, w', made⟩ : ∃ x w', a.run w = (x, w') := ⟨_, _, rfl⟩
  · rw [leads_error made, leads_error (Action.run_bind_error made), steps_ended]
  · rw [leads_ok made, goes]
    rw [leads, leads, Action.run_bind_ok made]

/-- What is left once an action has been run to its end, with its outcome. -/
def settled (a : Action σ Answer) (w : World σ) : Task × World σ :=
  (.ended (a.run w).1, (a.run w).2)

theorem leads_eq_settled (a : Action σ α) (f : α → Answer) :
    leads a (fun x => .ended (.ok (f x))) .error = settled (f <$> a) := by
  funext w
  obtain ⟨e | x, w', made⟩ : ∃ x w', a.run w = (x, w') := ⟨_, _, rfl⟩
  · rw [leads_error made, settled, Action.run_map_error made]
  · rw [leads_ok made, settled, Action.run_map_ok made]

theorem leads_ifUsable (a : Action σ α) {f : Option α → Answer} {aim : Aim}
    (unusable : f none = aim.unusable) :
    leads a (fun x => .ended (.ok (f (some x)))) aim.ending = settled (f <$> ifUsable a) := by
  funext w
  obtain ⟨e | x, w', made⟩ : ∃ x w', a.run w = (x, w') := ⟨_, _, rfl⟩
  · rw [leads_error made, settled]
    cases e with
    | rejected cause => rw [Action.run_map_ok (run_ifUsable_rejected made), unusable, Aim.ending]
    | notFound id => rw [Action.run_map_ok (run_ifUsable_notFound made), unusable, Aim.ending]
    | _ =>
        rw [Action.run_map_error (run_ifUsable_failed made nofun nofun)]
        rfl
  · rw [leads_ok made, settled, Action.run_map_ok (run_ifUsable_ok made)]

theorem leads_touch (s : Service σ) (nowMs : Int) (token : Presented) :
    leads (s.touchStrict nowMs token) (fun _ => .ended (.ok (.touched true))) touchEnding =
      settled (.touched <$> s.touch nowMs token) := by
  funext w
  obtain ⟨e | x, w', made⟩ : ∃ x w', (s.touchStrict nowMs token).run w = (x, w') := ⟨_, _, rfl⟩
  · rw [leads_error made, settled]
    cases e with
    | rejected cause => rw [Action.run_map_ok (run_touch_rejected made), touchEnding]
    | _ =>
        rw [Action.run_map_error (run_touch_failed made nofun)]
        rfl
  · rw [leads_ok made, settled, Action.run_map_ok (run_touch_ok made)]

/-- A call whose last action has been run takes no more steps. -/
theorem steps_leads_ended {a : Action σ α} {f : α → Except Failure Answer}
    {ending : Failure → Except Failure Answer} (n : Nat) (w : World σ) :
    steps s nowMs n (leads a (fun x => .ended (f x)) ending w).1
        (leads a (fun x => .ended (f x)) ending w).2 =
      leads a (fun x => .ended (f x)) ending w := by
  obtain ⟨e | x, w', made⟩ : ∃ x w', a.run w = (x, w') := ⟨_, _, rfl⟩
  · rw [leads_error made, steps_ended]
  · rw [leads_ok made, steps_ended]

theorem steps_lookup (s : Service σ) (nowMs : Int) (token : Presented) :
    steps s nowMs 3 (.asked (.lookup token)) = settled (.found <$> s.lookup nowMs token) := by
  let last (r : Record) : Task := .ended (.ok (.found (some r)))
  have held (d : Decoded) (r : Record) (w : World σ) :
      steps s nowMs 1 (.holding .lookup d r) w =
        leads (do
          let r := r.markAccessed nowMs
          s.noteAccess nowMs d.id r.accessed
          return r) last Aim.lookup.ending w :=
    (congrFun (leads_map (fun _ => r.markAccessed nowMs) last) w).symm
  have read (d : Decoded) (w : World σ) :
      steps s nowMs 2 (.reading .lookup d) w =
        leads (do
          let r ← s.fetch nowMs d
          let r := r.markAccessed nowMs
          s.noteAccess nowMs d.id r.accessed
          return r) last Aim.lookup.ending w :=
    steps_leads (held d) w
  calc steps s nowMs 3 (.asked (.lookup token))
      = leads (s.lookupStrict nowMs token) last Aim.lookup.ending := funext (steps_leads read)
    _ = settled (.found <$> s.lookup nowMs token) := leads_ifUsable _ rfl

theorem steps_refresh (s : Service σ) (nowMs : Int) (token : Presented) :
    steps s nowMs 3 (.asked (.refresh token)) = settled (.refreshed <$> s.refresh nowMs token) := by
  let last (wire : String) : Task := .ended (.ok (.refreshed (some wire)))
  have read (d : Decoded) (w : World σ) :
      steps s nowMs 2 (.reading .refresh d) w =
        leads (do
          let r ← s.fetch nowMs d
          s.renew nowMs nowMs d r) last Aim.refresh.ending w :=
    steps_leads (fun _ _ => rfl) w
  calc steps s nowMs 3 (.asked (.refresh token))
      = leads (s.refreshStrict nowMs token) last Aim.refresh.ending := funext (steps_leads read)
    _ = settled (.refreshed <$> s.refresh nowMs token) := leads_ifUsable _ rfl

theorem steps_touch (s : Service σ) (nowMs : Int) (token : Presented) :
    steps s nowMs 3 (.asked (.touch token)) = settled (.touched <$> s.touch nowMs token) := by
  have touching (d : Decoded) (w : World σ) :
      steps s nowMs 2 (.touching d) w =
        leads (do
          s.store.setAccessed nowMs d.id nowMs s.policy.retentionSeconds
          .emit (.touched d.id)) (fun _ => .ended (.ok (.touched true))) touchEnding w :=
    steps_leads_ended 1 w
  exact (funext (steps_leads touching)).trans (leads_touch s nowMs token)

/-- The steps of a call in a row, all at one time, are the call. -/
theorem steps_asked (s : Service σ) (nowMs : Int) (request : Request) :
    steps s nowMs 3 (.asked request) = settled (request.answer s nowMs) := by
  -- The calls that reach the store no more than once end with their first step.
  have once {α : Type} (a : Action σ α) (f : α → Answer) (w : World σ) :
      steps s nowMs 2 (leads a (fun x => .ended (.ok (f x))) .error w).1
        (leads a (fun x => .ended (.ok (f x))) .error w).2 = settled (f <$> a) w :=
    (steps_leads_ended 2 w).trans (congrFun (leads_eq_settled a f) w)
  cases request with
  | create entropy kind grant => exact funext (once (s.create nowMs entropy kind grant) .created)
  | createForPrincipal entropy principal state =>
      exact funext (once (s.createForPrincipal nowMs entropy principal state) .created)
  | lookup token => exact steps_lookup s nowMs token
  | touch token => exact steps_touch s nowMs token
  | refresh token => exact steps_refresh s nowMs token
  | inspect token => exact funext (once (s.inspect nowMs token) .inspected)

end Task

end BearerToken.Service
