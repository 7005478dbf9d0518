import BearerToken.Json.Value
import BearerToken.TokenId

/-!
# Token records

What a store keeps behind a token: its identifier, a label, the times of creation and last access,
the principal the token is bound to, and a state that neither codec nor policy looks into.
-/

namespace BearerToken

/-- The kinds of principals. -/
inductive PrincipalKind where
  | organization
  | adminUser
  | application
  | applicationUser
  deriving Repr, DecidableEq, Inhabited

namespace PrincipalKind

def all : List PrincipalKind := [.organization, .adminUser, .application, .applicationUser]

def name : PrincipalKind → String
  | .organization => "organization"
  | .adminUser => "admin_user"
  | .application => "application"
  | .applicationUser => "application_user"

/-- The kind with exactly this name. -/
def ofName? (name : Text) : Option PrincipalKind := all.find? fun k => Text.ofString k.name = name

end PrincipalKind

/-- The principal that a token is bound to, and the application or organization that owns it. -/
structure Principal where
  kind : PrincipalKind
  id : Uuid
  scope : Option Uuid
  deriving Repr, DecidableEq

/-- The value behind a token. Times are epoch milliseconds. -/
structure Record where
  id : TokenId
  label : Text
  created : Int
  accessed : Int
  principal : Option Principal
  state : Json.Value

namespace Record

def defaultLabel : Text := "access"

/-- The state of a new record: a copy of the mapping that a caller gives, and an empty object if none
is given. -/
def startingState (given : Option (List (Text × Json.Value))) : Json.Value :=
  .object (given.getD [])

/-- The record of a token that has just been issued. -/
def issued (id : TokenId) (label : Option Text) (principal : Option Principal)
    (state : Json.Value) : Record where
  id
  label := match label with
    | some l => if l.isEmpty then defaultLabel else l
    | none => defaultLabel
  created := id.timestampMs
  accessed := id.timestampMs
  principal
  state

/-- Notes an access; the time of last access never moves backwards. -/
def markAccessed (r : Record) (nowMs : Int) : Record := { r with accessed := max r.accessed nowMs }

@[simp] theorem accessed_markAccessed (r : Record) (nowMs : Int) :
    (r.markAccessed nowMs).accessed = max r.accessed nowMs := rfl

end Record

end BearerToken
