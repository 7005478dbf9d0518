import BearerToken.Codec
import BearerToken.Event
import BearerToken.Record.Fields

/-!
# Actions

A use of the library reads and writes a store, reports events, and may fail. An action is a function
on the world that these share. A failure leaves the world as the steps before it made it: what has
been written stays written and what has been reported stays reported, so that a law about a failed
call can say what became of the store.
-/

namespace BearerToken

/-- A failure of a store, as its own message. -/
inductive StoreError where
  | write (cause : Text)
  | read (cause : Text)
  | access (cause : Text)
  /-- Any other store's own words. -/
  | other (message : Text)
  deriving Repr, DecidableEq

def StoreError.message : StoreError → Text
  | .write cause => .ofString "Failed to store token record: " ++ cause
  | .read cause => .ofString "Failed to read token record: " ++ cause
  | .access cause => .ofString "Failed to update token access time: " ++ cause
  | .other message => message

/-- Why an action did not end with a result. -/
inductive Failure where
  | rejected (cause : Rejection)
  | notFound (id : TokenId)
  | store (cause : StoreError)
  | corrupt (cause : RecordError)
  /-- The record has no persisted form. -/
  | unwritable (cause : Json.WriteError)
  | expiryOverflow (cause : ExpiryOverflow)

def Failure.message : Failure → Text
  | .rejected cause => cause.message
  | .notFound id => .ofString ("No record for token " ++ id.canonical)
  | .store cause => cause.message
  | .corrupt cause => cause.message
  | .unwritable cause => cause.message
  | .expiryOverflow cause => cause.message

/-- A store's content and the events reported so far, oldest first. -/
structure World (σ : Type) where
  store : σ
  events : List Event

/-- A step that reads and changes the world, with a result or a failure. -/
def Action (σ α : Type) := World σ → Except Failure α × World σ

namespace Action

variable {σ α β : Type}

def run (a : Action σ α) (w : World σ) : Except Failure α × World σ := a w

def pure (x : α) : Action σ α := fun w => (.ok x, w)

def bind (a : Action σ α) (f : α → Action σ β) : Action σ β := fun w =>
  match a w with
  | (.ok x, w) => f x w
  | (.error e, w) => (.error e, w)

instance : Monad (Action σ) where
  pure := pure
  bind := bind

def fail (e : Failure) : Action σ α := fun w => (.error e, w)

/-- Goes on from a failure with another action. -/
def recover (a : Action σ α) (handle : Failure → Action σ α) : Action σ α := fun w =>
  match a w with
  | (.error e, w) => handle e w
  | done => done

def emit (e : Event) : Action σ Unit := fun w => (.ok (), { w with events := w.events ++ [e] })

/-- A step on the store alone. -/
def onStore (f : σ → α × σ) : Action σ α := fun w =>
  let (x, s) := f w.store
  (.ok x, { w with store := s })

/-- A result that may be a failure already. -/
def ofExcept (wrap : ε → Failure) : Except ε α → Action σ α
  | .ok x => pure x
  | .error e => fail (wrap e)

/-- The outcome as a result, so that what follows happens in either case. -/
def attempt (a : Action σ α) : Action σ (Except Failure α) := fun w =>
  match a w with
  | (r, w) => (.ok r, w)

@[simp] theorem run_pure (x : α) (w : World σ) :
    (Pure.pure x : Action σ α).run w = (.ok x, w) := rfl

@[simp] theorem run_fail (e : Failure) (w : World σ) :
    (fail e : Action σ α).run w = (.error e, w) := rfl

@[simp] theorem run_emit (e : Event) (w : World σ) :
    (emit e).run w = (.ok (), { w with events := w.events ++ [e] }) := rfl

@[simp] theorem run_onStore (f : σ → α × σ) (w : World σ) :
    (onStore f).run w = (.ok (f w.store).1, { w with store := (f w.store).2 }) := rfl

theorem run_bind (a : Action σ α) (f : α → Action σ β) (w : World σ) :
    (a >>= f).run w =
      match a.run w with
      | (.ok x, w) => (f x).run w
      | (.error e, w) => (.error e, w) := rfl

/-- Reports an unknown kind of principal and gives the record without one. -/
def ofReading : Except RecordError (Option Reading) → Action σ (Option Record)
  | .error cause => fail (.corrupt cause)
  | .ok none => pure none
  | .ok (some reading) => do
    if let some name := reading.unknownPrincipal then emit (.unknownPrincipal name)
    return some reading.record

end Action

end BearerToken
