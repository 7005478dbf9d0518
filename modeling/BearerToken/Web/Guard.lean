import BearerToken.Service
import BearerToken.Web.Request

/-!
# Guards

Two ways to let a web application ask who holds a request. Routes answer with an HTTP status,
queries with an error among their results. Both have a strict form, in which a request without a
usable token is refused, and an optional form, in which it is anonymous. A refusal never tells why
a token was unusable. A store that is out of reach is an error of its own in every form, never a
refusal.
-/

namespace BearerToken.Web

/-- A refusal by status. -/
structure StatusError where
  status : Nat
  detail : String
  /-- The challenge header of an unauthenticated request. -/
  headers : Option (List (String × String))
  deriving Repr, DecidableEq

namespace StatusError

def challenge : List (String × String) := [("WWW-Authenticate", "Bearer")]

def noToken : StatusError := ⟨401, "Not authenticated", some challenge⟩

def unusableToken : StatusError := ⟨401, "Invalid or expired token", some challenge⟩

def storeUnavailable : StatusError := ⟨503, "Token store unavailable", none⟩

end StatusError

/-- A refusal of a query. -/
inductive QueryError where
  | notAuthenticated
  | storeUnavailable
  deriving Repr, DecidableEq

def QueryError.message : QueryError → String
  | .notAuthenticated => "Not authenticated"
  | .storeUnavailable => "Token store unavailable"

variable {σ : Type}

/-- Looks a token up; a store error becomes the given refusal, and other failures stay failures. -/
def lookupOr (s : Service σ) (refusal : ε) (nowMs : Int) (wire : Text) :
    Action σ (Except ε (Option Record)) :=
  (Except.ok <$> s.lookup nowMs wire).recover fun
    | .store _ => return .error refusal
    | failure => .fail failure

/-- The record of a route's request, or nothing for an anonymous one. -/
def optionalToken (s : Service σ) (cookie : Text) (nowMs : Int) (r : Request) :
    Action σ (Except StatusError (Option Record)) :=
  match r.routeToken? cookie with
  | none => return .ok none
  | some wire => lookupOr s .storeUnavailable nowMs wire

/-- The record of a route's request, which has to have one. -/
def currentToken (s : Service σ) (cookie : Text) (nowMs : Int) (r : Request) :
    Action σ (Except StatusError Record) :=
  match r.routeToken? cookie with
  | none => return .error .noToken
  | some wire => do
    match ← lookupOr s .storeUnavailable nowMs wire with
    | .error refusal => return .error refusal
    | .ok none => return .error .unusableToken
    | .ok (some record) => return .ok record

/-- The record of a query's request; without one the query is anonymous, or refused if the record is
not optional. -/
def queryContext (s : Service σ) (cookie : Text) (isOptional : Bool) (nowMs : Int) (r : Request) :
    Action σ (Except QueryError (Option Record)) := do
  let found ← match r.queryToken? cookie with
    | none => pure (.ok none)
    | some wire => lookupOr s .storeUnavailable nowMs wire
  match found with
  | .ok none => return if isOptional then .ok none else .error .notAuthenticated
  | found => return found

/-- Whether a query that requires a token may run. -/
def permits (record : Option Record) : Bool := record.isSome

end BearerToken.Web
