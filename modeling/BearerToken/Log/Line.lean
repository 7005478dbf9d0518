import BearerToken.Event
import BearerToken.Log.Template
import BearerToken.Text.Caseless

/-!
# Log lines

How events become lines. The log is set up for the whole application, so all events go the same
way, those of this library and those of its host. The log has a least severity, given by name in any
case; an unknown name means information. An event below it is left out. A line is an object of the
event's own fields and of the name of its logger, its level, and, if the logger belongs to this
library, the component.

Some fields speak to the log itself. Those that would take the place of what a caller has to pass
are refused, even where the event is left out. Positional arguments fill the name of the event,
which then is a template. Requests to show the stack or an exception are taken out, as there is none
to show.
-/

namespace BearerToken.Log

open Json (Value)

/-- The names of severities, in capitals. Two have a second name; one lets everything through. -/
def severities : List (Text × Nat) :=
  [("CRITICAL", 50), ("FATAL", 50), ("ERROR", 40), ("WARN", 30), ("WARNING", 30), ("INFO", 20),
   ("DEBUG", 10), ("NOTSET", 0)]

/-- Why a name gives no severity: it is taken by the log itself. -/
inductive LevelError where
  /-- The layout of plain lines has this name. -/
  | layout
  /-- The table of the styles of layouts has this name. -/
  | styles
  deriving Repr, DecidableEq

namespace LevelError

/-- The layout of plain lines. -/
def plainLayout : Text := "%(levelname)s:%(name)s:%(message)s"

/-- The styles of layouts, as the table of them is shown. -/
def stylesShown : String :=
  "\x7b'%': (<class 'logging.PercentStyle'>, '%(levelname)s:%(name)s:%(message)s'), " ++
    "'\x7b': (<class 'logging.StrFormatStyle'>, " ++
    "'\x7blevelname\x7d:\x7bname\x7d:\x7bmessage\x7d'), " ++
    "'$': (<class 'logging.StringTemplateStyle'>, " ++
    "'$\x7blevelname\x7d:$\x7bname\x7d:$\x7bmessage\x7d')\x7d"

def message : LevelError → String
  | .layout => "Unknown level: " ++ plainLayout.quoted
  | .styles => "Level not an integer or a valid string: " ++ stylesShown

/-- The names that are taken, in capitals. -/
def names : List (Text × LevelError) := [("BASIC_FORMAT", .layout), ("_STYLES", .styles)]

end LevelError

/-- The least severity that a name asks for. -/
def threshold (name : Text) : Except LevelError Nat :=
  match LevelError.names.lookup name.upper with
  | some cause => .error cause
  | none => .ok ((severities.lookup name.upper).getD Level.info.number)

/-- Why an event gives no line. -/
inductive LineError where
  /-- A field has the name of what a caller has to pass. -/
  | reservedField (name : Text)
  /-- The record that is to give the name of the logger is a value, which has no name. -/
  | unnamedRecord (record : Value)
  /-- The positional arguments are no list, nor anything else with a length. -/
  | noArguments
  /-- The positional arguments are an object with one member, which has no first item. -/
  | noFirstArgument
  /-- There are positional arguments, and no event whose name they could fill. -/
  | noEvent
  /-- There are positional arguments, and the event's name is no text. -/
  | notTemplate
  | template (cause : TemplateError)
  /-- The name of the logger is no text. -/
  | loggerNotText (logger : Value)

/-- The loggers of this library, by how their names start. -/
def rootLogger : Text := "pkg_tokens"

def component : String := "tokens"

/-- Members of a line, or fields of an event. -/
abbrev Members := List (Text × Value)

/-- A member named by a string. -/
def member (name : String) (v : Value) : Text × Value := (name, v)

def lookup (members : Members) (name : String) : Option Value := members.lookup (Text.ofString name)

/-- Adds the component, if the logger belongs to this library. -/
def withComponent (logger : Text) (members : Members) : Members :=
  let added := member "component" (.string component)
  if rootLogger.isPrefixOf logger then members.filter (·.1 ≠ added.1) ++ [added] else members

/-- Adds the component to an event that names its logger. -/
def tagged (event : Members) : Except LineError Members :=
  match lookup event "logger" with
  | none => .ok event
  | some (.text logger) => .ok (withComponent logger event)
  | some logger => .error (.loggerNotText logger)

/-- The members that the log itself writes, and the fields that it takes out. It stamps lines with
the time when it prints them, so a field of that name never shows. -/
def ownNames : List Text := ["event", "logger", "level", "timestamp", "stack_info", "exc_info"]

/-- The logger without a name is the root of all loggers. -/
def loggerName (logger : Text) : Text := if logger.isEmpty then "root" else logger

/-- The members of the line for an event; one without a name has none in its line. -/
def line (logger : Text) (level : Level) (event : Value) (fields : Members) : Members :=
  let named := match event with
    | .null => []
    | event => [member "event" event]
  let own := fields.filter fun f => !ownNames.contains f.1
  withComponent logger (own ++ named ++
    [member "logger" (.text (loggerName logger)), member "level" (.string level.name)])

/-- The fields that no event can have. -/
def refusedNames : List Text := ["event", "self", "method_name"]

def checkNames (fields : Members) : Except LineError Unit :=
  match fields.find? fun f => refusedNames.contains f.1 with
  | some f => .error (.reservedField f.1)
  | none => .ok ()

/-- A record can give the name of the logger; a value is none. -/
def checkRecord (fields : Members) : Except LineError Unit :=
  match lookup fields "_record" with
  | none | some .null => .ok ()
  | some record => .error (.unnamedRecord record)

/-- The argument of a template. A list of one object that has members stands for that object. -/
def argument : Value → Except LineError Value
  | .bool _ | .int _ | .number _ => .error .noArguments
  | .object [_] => .error .noFirstArgument
  | .list [.object (m :: ms)] => .ok (.object (m :: ms))
  | v => .ok v

/-- The event's name, filled from an argument. -/
def filled (argument : Value) : Value → Except LineError Value
  | .null => .error .noEvent
  | .text template => (Template.fill template argument).map .text |>.mapError .template
  | _ => .error .notTemplate

def argumentsName : String := "positional_args"

/-- The event's name, filled from its positional arguments, and the other fields. A void argument
fills nothing, and null is a field like any other. -/
def withArguments (event : Value) (fields : Members) : Except LineError (Value × Members) :=
  match lookup fields argumentsName with
  | none | some .null => .ok (event, fields)
  | some arguments => do
    let event ← if arguments.isVoid then .ok event else filled (← argument arguments) event
    return (event, fields.filter (·.1 ≠ Text.ofString argumentsName))

/-- The line for an event, if it is severe enough. -/
def line? (least : Nat) (logger : Text) (level : Level) (event : Value) (fields : Members) :
    Except LineError (Option Members) := do
  checkNames fields
  if level.number < least then return none
  checkRecord fields
  let (event, fields) ← withArguments event fields
  return some (line logger level event fields)

/-- The fields of an event of this library. -/
def fieldsOf (e : Event) : Members := e.fields.map fun f => member f.1 f.2

/-- What the log makes of an event of this library. -/
def emitted? (least : Nat) (e : Event) : Except LineError (Option Members) :=
  line? least rootLogger e.level (.string e.name) (fieldsOf e)

/-- The lines for the events of this library, none of which the log refuses. -/
def lines (least : Nat) (events : List Event) : List Members :=
  events.filterMap fun e => (emitted? least e).toOption.join

end BearerToken.Log
