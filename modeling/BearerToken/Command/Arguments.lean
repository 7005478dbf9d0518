import BearerToken.Kind
import BearerToken.Numeral

/-!
# Command-line arguments

The words of a command line are operands and options. A long option may be cut short as long as
only one option starts with what is left, and its value follows an equals sign or is the next word.
The value of a short option may also be joined to it, and other short options to one that takes no
value. After a lone `--` every word is an operand, and so is a negative number or a word with a
space in it that is no option. Words are sorted into these classes before any is acted on.

A command line ends in a command, in a request for help, or in a usage error, whichever comes first
from the left. Words that no command takes are a usage error, but only once everything else has
been read.
-/

namespace BearerToken.Command

/-- What an option asks for. -/
inductive Flag where
  | help
  | kind
  | label
  | state
  deriving Repr, DecidableEq

namespace Flag

def takesValue (f : Flag) : Bool := f ≠ .help

end Flag

/-- The options of a parser, by their spellings. -/
abbrev Grammar := List (Text × Flag)

def helpOptions : Grammar := [("-h", .help), ("--help", .help)]

def issueOptions : Grammar :=
  [("-h", .help), ("--help", .help), ("--kind", .kind), ("-k", .kind), ("--label", .label),
   ("-l", .label), ("--state", .state), ("-s", .state)]

/-- Why no command comes of a command line. -/
inductive Stop where
  /-- Help was asked for. -/
  | help
  | usage
  deriving Repr, DecidableEq

/-- The class of a word. -/
inductive Word where
  | operand (text : Text)
  /-- The lone `--`. -/
  | separator
  /-- An option, and what stands in the same word behind an equals sign or joined to it. -/
  | option (flag : Flag) (isLong : Bool) (attached : Option Text)
  | unknownOption
  deriving Repr, DecidableEq

def separatorText : Text := "--"

/-- The part of a word before its first equals sign, and the part behind it. -/
def cutAtEquals (word : Text) : Text × Option Text :=
  match word.dropWhile (· ≠ .char '=') with
  | _ :: value => (word.takeWhile (· ≠ .char '='), some value)
  | [] => (word, none)

def isLongSpelling (word : Text) : Bool := separatorText.isPrefixOf word

/-- A minus sign, then digits with at most one point, which digits follow; a line end may stand
behind. -/
def isNegativeNumber : Text → Bool
  | .char '-' :: rest =>
    let rest := if rest.getLast? = some (.char '\n') then rest.dropLast else rest
    let isDigit (c : CodePoint) : Bool := (Text.decimalDigit? c).isSome
    match rest.dropWhile isDigit with
    | [] => !rest.isEmpty
    | .char '.' :: fraction => !fraction.isEmpty && fraction.all isDigit
    | _ => false
  | _ => false

/-- The options that a word may stand for though it is none of the spellings: with two hyphens,
those that start with what stands before the equals sign; with one, the short option it starts
with. -/
def candidates (g : Grammar) (word : Text) : List Word :=
  if isLongSpelling word then
    let (start, attached) := cutAtEquals word
    (g.filter fun o => start.isPrefixOf o.1).map fun o => .option o.2 true attached
  else (g.filter fun o => o.1 = word.take 2).map fun o => .option o.2 false (some (word.drop 2))

/-- An option spelled in full, with its value behind an equals sign or none. -/
def spelled? (g : Grammar) (word : Text) : Option Word :=
  match g.lookup word with
  | some flag => some (.option flag (isLongSpelling word) none)
  | none =>
    match cutAtEquals word with
    | (spelling, some value) => (g.lookup spelling).map fun flag =>
      .option flag (isLongSpelling spelling) (some value)
    | (_, none) => none

/-- The class of a word in front of a lone `--`. -/
def classify (g : Grammar) (word : Text) : Except Stop Word :=
  if word.head? ≠ some (.char '-') || word.length = 1 then .ok (.operand word)
  else match spelled? g word with
    | some w => .ok w
    | none =>
      match candidates g word with
      | [w] => .ok w
      | _ :: _ :: _ => .error .usage
      | [] =>
        if isNegativeNumber word || word.contains (.char ' ') then .ok (.operand word)
        else .ok .unknownOption

/-- The classes of all words. -/
def classifyAll (g : Grammar) : List Text → Except Stop (List Word)
  | [] => .ok []
  | word :: rest =>
    if word = separatorText then .ok (.separator :: rest.map .operand)
    else do
      let w ← classify g word
      let ws ← classifyAll g rest
      return w :: ws

/-- What becomes of a short help option with something joined to it, which has to be short options
in turn. Help is given once all of them are known and the last one has its value. -/
def joinedHelp (g : Grammar) (next : List Word) : Text → Stop
  | [] => .usage
  | c :: rest =>
    match g.lookup [.char '-', c], rest, next with
    | none, _, _ => .usage
    | some .help, [], _ => .help
    | some .help, rest, _ => joinedHelp g next rest
    | some _, [], .operand _ :: _ => .help
    | some _, [], _ => .usage
    | some _, _ :: _, _ => .help

/-- What becomes of a help option. -/
def helpStop (g : Grammar) (next : List Word) (isLong : Bool) : Option Text → Stop
  | none => .help
  | some attached => if isLong then .usage else joinedHelp g next attached

/-- The value of an option, and the words behind it. A lone `--` in the option's own word is taken
for a separator, which leaves no value. -/
def takeValue (next : List Word) : Option Text → Except Stop (Option Text × List Word)
  | some value => .ok (if value = separatorText then none else some value, next)
  | none =>
    match next with
    | .operand value :: rest => .ok (some value, rest)
    | _ => .error .usage

/-- What the options of a command have set so far, the operand, and whether a word is left over. -/
structure Scan where
  kind : Option Kind := some .access
  label : Option Text := none
  state : Option Text := none
  operand : Option Text := none
  leftOver : Bool := false

namespace Scan

/-- Sets what an option asks for, or unsets it if there is no value. A kind has to be one of the
labels, as it stands. -/
def set (s : Scan) (flag : Flag) (value : Option Text) : Except Stop Scan :=
  match flag, value with
  | .help, _ => .error .help
  | .kind, none => .ok { s with kind := none }
  | .kind, some value =>
    match Kind.all.find? fun k => Text.ofString k.label = value with
    | some kind => .ok { s with kind := some kind }
    | none => .error .usage
  | .label, value => .ok { s with label := value }
  | .state, value => .ok { s with state := value }

/-- Reads the words of a command. The first operand counts if the command takes one, along with the
lone `--` beside it; every other operand is left over. Each word costs one unit of fuel. -/
def read (g : Grammar) (takesOperand : Bool) : (fuel : Nat) → List Word → Scan → Except Stop Scan
  | 0, _, s => .ok s
  | _, [], s => .ok s
  | fuel + 1, .operand text :: rest, s =>
    if takesOperand && s.operand.isNone then
      let rest := match rest with
        | .separator :: rest => rest
        | rest => rest
      read g takesOperand fuel rest { s with operand := some text }
    else read g takesOperand fuel rest { s with leftOver := true }
  | fuel + 1, .separator :: .operand text :: rest, s =>
    if takesOperand && s.operand.isNone then
      read g takesOperand fuel rest { s with operand := some text }
    else read g takesOperand fuel rest { s with leftOver := true }
  | fuel + 1, .separator :: rest, s => read g takesOperand fuel rest { s with leftOver := true }
  | fuel + 1, .unknownOption :: rest, s => read g takesOperand fuel rest { s with leftOver := true }
  | fuel + 1, .option flag isLong attached :: rest, s =>
    if flag.takesValue then do
      let (value, rest) ← takeValue rest attached
      let s ← s.set flag value
      read g takesOperand fuel rest s
    else .error (helpStop g rest isLong attached)

end Scan

/-- What a command line asks for. -/
inductive Task where
  | inspect (token : Text)
  /-- The kind is missing if its option was left without a value. -/
  | issue (kind : Option Kind) (label state : Option Text)
  deriving Repr, DecidableEq

/-- Reads the words behind the name of a command. -/
def readCommand (name : Text) (words : List Text) : Except Stop (Task × Bool) :=
  if name = "inspect" then do
    let ws ← classifyAll helpOptions words
    let s ← Scan.read helpOptions true ws.length ws {}
    match s.operand with
    | some token => return (.inspect token, s.leftOver)
    | none => .error .usage
  else if name = "issue" then do
    let ws ← classifyAll issueOptions words
    let s ← Scan.read issueOptions false ws.length ws {}
    return (.issue s.kind s.label s.state, s.leftOver)
  else .error .usage

/-- Reads the words in front of the command's name, of which only a request for help has a meaning,
then the command, which takes all words from its name on. -/
def readFront : List Word → List Text → Except Stop (Task × Bool)
  | .operand name :: _, _ :: words => readCommand name words
  | .unknownOption :: ws, _ :: words => do
    let (task, _) ← readFront ws words
    return (task, true)
  | .option _ isLong attached :: ws, _ => .error (helpStop helpOptions ws isLong attached)
  | _, _ => .error .usage

/-- The command of a command line. -/
def parse (words : List Text) : Except Stop Task := do
  let ws ← classifyAll helpOptions words
  let (task, leftOver) ← readFront ws words
  if leftOver then .error .usage else return task

end BearerToken.Command
