import BearerToken.Command.Arguments
import BearerToken.Log.Line
import BearerToken.Settings.Assembly

/-!
# Commands

What a command does: it takes its settings from the environment, puts a service together, and prints
one object, the result or the error. `inspect` tells operators what a token says and why it is
refused; `issue` writes a new record to the server. A refused token is a result, and the exit code
tells it from an accepted one. An error is printed and then ends the command; one that arises before
the log is set up is not printed.
-/

namespace BearerToken.Command

open Json (Value)

/-- Why a command ends without a result. -/
inductive CommandError where
  | environment (cause : EnvironmentError)
  | level (cause : Log.LevelError)
  | missingServer
  | badState (text : Text) (cause : Json.ReadError)
  | stateNotObject
  /-- The option for the kind has no value. -/
  | missingKind
  | codec (cause : CodecError)
  | connection (fault : Fault)
  | calendar (cause : CalendarError)
  | failure (cause : Failure)

def CommandError.message : CommandError → Text
  | .environment cause => cause.message
  | .level cause => cause.message
  | .missingServer => .ofString ("Missing token store settings: " ++ Environment.serverVariable)
  | .badState text cause => cause.message text
  | .stateNotObject => "--state must be a JSON object"
  | .missingKind => "'list' object has no attribute 'strip'"
  | .codec cause => cause.message
  | .connection fault => fault.message
  | .calendar cause => cause.message
  | .failure cause => cause.message

/-- What a command prints as its result. -/
structure Summary where
  ok : Bool
  members : List (String × Value)

/-- How a run of the program ends. -/
inductive Ending where
  | exit (code : Nat)
  | raised (error : CommandError)

/-- All that can be seen of a run. -/
structure Outcome where
  output : String
  ending : Ending
  /-- The log lines, one list of members for each. -/
  lines : List Log.Members
  server : HashServer

/-- What a command is run with besides its arguments. -/
structure Setting where
  environment : Environment
  nowMs : Int
  entropy : Entropy
  server : HashServer

/-- The world of a command, with a result or an error. -/
abbrev Result (α : Type) := Except CommandError α × World HashServer

/-- Puts the service together, connects to the server if there is one, and reports what was done. -/
def assemble (settings : Settings) (w : World HashServer) : Result Assembly :=
  match settings.assemble none with
  | .error cause => (.error (.codec cause), w)
  | .ok assembly =>
    match assembly.backend.connection? with
    | none => (.ok assembly, { w with events := w.events ++ assembly.events })
    | some connect =>
      match HashServer.call connect w.store with
      | (.error fault, server) => (.error (.connection fault), { w with store := server })
      | (.ok (), server) => (.ok assembly, ⟨server, w.events ++ assembly.events⟩)

/-- What is printed of a token that is honoured. Its times are printed as dates, which may not
exist. -/
def describe (d : Decoded) : Except CalendarError Summary := do
  let created ← Moment.ofMillis d.created
  let expiresAt ← match d.expiresAt with
    | none => pure none
    | some ms => some <$> Moment.ofMillis ms
  return ⟨true, [("valid", .bool true), ("kind", .string d.kind.label),
    ("token_id", .string d.id.canonical), ("created", .string created.iso),
    ("expires_at", .ofOption (fun (t : Moment) => .string t.iso) expiresAt),
    ("version", .int d.version.number)]⟩

def refused (cause : Rejection) : Summary :=
  ⟨false, [("valid", .bool false), ("reason", .string cause.reason),
    ("error", .string cause.message)]⟩

def inspect (settings : Settings) (nowMs : Int) (token : Text) (w : World HashServer) :
    Result Summary :=
  match assemble settings w with
  | (.error e, w) => (.error e, w)
  | (.ok assembly, w) =>
    match assembly.toVerifier.resolve nowMs token w with
    | (.error (.rejected cause), w) => (.ok (refused cause), w)
    | (.error cause, w) => (.error (.failure cause), w)
    | (.ok decoded, w) => ((describe decoded).mapError .calendar, w)

/-- The members of the state given on the command line; an empty text counts as none. -/
def readState : Option Text → Except CommandError (List (Text × Value))
  | none | some [] => .ok []
  | some text =>
    match Json.read text with
    | .error cause => .error (.badState text cause)
    | .ok (.object members) => .ok members
    | .ok _ => .error .stateNotObject

def issue (settings : Settings) (nowMs : Int) (entropy : Entropy) (kind : Option Kind)
    (label state : Option Text) (w : World HashServer) : Result Summary :=
  match settings.backend with
  | .memory => (.error .missingServer, w)
  | .remote _ ns =>
    match readState state with
    | .error e => (.error e, w)
    | .ok members =>
      match assemble settings w, kind with
      | (.error e, w), _ => (.error e, w)
      | (.ok _, w), none => (.error .missingKind, w)
      | (.ok assembly, w), some kind =>
        let service := assembly.service (Remote.store ns)
        let state := Record.startingState (some members)
        match service.create nowMs entropy kind { label, state } w with
        | (.error cause, w) => (.error (.failure cause), w)
        | (.ok token, w) =>
          (.ok ⟨true, [("kind", .string kind.label), ("token", .string token)]⟩, w)

def execute (settings : Settings) (nowMs : Int) (entropy : Entropy) (w : World HashServer) :
    Task → Result Summary
  | .inspect token => inspect settings nowMs token w
  | .issue kind label state => issue settings nowMs entropy kind label state w

/-- The printed form of a result, on lines of its own. -/
def printed (ok : Bool) (members : List (String × Value)) : String :=
  Json.report (("ok", .bool ok) :: members) ++ "\n"

/-- Settings and the least severity of the log. -/
def prepare (env : Environment) : Except CommandError (Settings × Nat) := do
  let settings ← env.settings.mapError .environment
  let least ← (Log.threshold settings.logLevel).mapError .level
  return (settings, least)

/-- Runs a command. -/
def perform (s : Setting) (task : Task) : Outcome :=
  match prepare s.environment with
  | .error e => ⟨"", .raised e, [], s.server⟩
  | .ok (settings, least) =>
    match execute settings s.nowMs s.entropy ⟨s.server, []⟩ task with
    | (.ok summary, w) =>
      ⟨printed summary.ok summary.members, .exit (if summary.ok then 0 else 1),
        Log.lines least w.events, w.store⟩
    | (.error e, w) =>
      ⟨printed false [("error", .text e.message)], .raised e, Log.lines least w.events, w.store⟩

/-- Runs the program on its arguments. A usage error has a code of its own. -/
def run (s : Setting) (arguments : List Text) : Outcome :=
  match parse arguments with
  | .error .help => ⟨"", .exit 0, [], s.server⟩
  | .error .usage => ⟨"", .exit 2, [], s.server⟩
  | .ok task => perform s task

end BearerToken.Command
