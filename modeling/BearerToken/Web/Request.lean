import BearerToken.Table
import BearerToken.Text.Blank

/-!
# Tokens on requests

Where a web request can carry a token: in bearer credentials that the host has already parsed, in
the `Authorization` header, or in a cookie. A source with nothing but blanks in it gives way to the
next. Header names are compared without regard to case and the first header of a name counts.
-/

namespace BearerToken.Web

/-- The parts of a request that can carry a token. -/
structure Request where
  headers : List (Text × Text)
  cookies : Table Text Text
  /-- Parsed bearer credentials, which may hold no text. -/
  credentials : Option (Option Text)

namespace Request

def defaultCookie : Text := "access_token"

/-- The ASCII letters in lower case; header names have no others that matter. -/
def foldName (name : Text) : Text := name.map fun
  | .char c => .char c.toLower
  | c => c

def header? (r : Request) (name : Text) : Option Text :=
  (r.headers.find? fun h => foldName h.1 = foldName name).map Prod.snd

/-- The text without blanks around it, unless nothing is left. -/
def stripped? (t : Text) : Option Text := if t.strip.isEmpty then none else some t.strip

/-- The mark in front of a bearer token in the header. -/
def bearerMark : Text := "Bearer "

/-- The token in the `Authorization` header. -/
def headerToken? (r : Request) : Option Text := do
  let value ← r.header? "Authorization"
  if bearerMark.isPrefixOf value then stripped? (value.drop bearerMark.length) else none

def credentialsToken? (r : Request) : Option Text := do
  let value ← r.credentials
  stripped? (value.getD [])

/-- The cookie without blanks around it. -/
def cookieToken? (r : Request) (cookie : Text) : Option Text :=
  (r.cookies.get? cookie).bind stripped?

/-- The cookie as it is, unless it is empty. -/
def rawCookie? (r : Request) (cookie : Text) : Option Text :=
  (r.cookies.get? cookie).filter (!·.isEmpty)

/-- The token for a route that may have parsed credentials: these first, then header and cookie. -/
def routeToken? (r : Request) (cookie : Text) : Option Text :=
  r.credentialsToken? <|> r.headerToken? <|> r.cookieToken? cookie

/-- The token for a query: header, then cookie as it is. -/
def queryToken? (r : Request) (cookie : Text) : Option Text :=
  r.headerToken? <|> r.rawCookie? cookie

end Request

end BearerToken.Web
