import BearerToken.Settings
import BearerToken.Text.Octets

/-!
# Settings from the environment

Each setting has a variable. An integer variable that is missing or blank counts as unset, and one
that is no integer is refused by name, with its text quoted. The variables are read in a fixed
order, so the first one at fault is the one that is named.
-/

namespace BearerToken

/-- The variables of a process, by name. -/
abbrev Environment := Table String Text

/-- Why the environment gives no settings. -/
inductive EnvironmentError where
  | badInteger (name : String) (text : Text)
  | unsupportedVersion (number : Int)
  deriving Repr, DecidableEq

namespace Environment

/-- What the names of all variables but one start with. -/
def nameStart : String := "PKG_TOKENS_"

def named (name : String) : String := nameStart ++ name

def ttlVariable (k : Kind) : String := named (k.name ++ "_EXPIRES")
def retentionVariable : String := named "PERSISTENCE_EXPIRES"
def versionVariable : String := named "SIGNATURE_VERSION"
def secretVariable : String := named "SECRET"
def legacyVariable : String := named "ACCEPT_LEGACY"
def serverVariable : String := named "REDIS_URL"
def namespaceVariable : String := named "REDIS_NAMESPACE"
def levelVariable : String := "LOG_LEVEL"

end Environment

def EnvironmentError.message : EnvironmentError → String
  | .badInteger name text => "Invalid integer for " ++ name ++ ": " ++ text.quoted
  | .unsupportedVersion number =>
    "Unsupported " ++ Environment.versionVariable ++ ": " ++ Numeral.write number ++
      " (expected one of [1, 2])"

namespace Environment

/-- The environment as the system hands it over. -/
def ofOctets (entries : List (String × Bytes)) : Environment :=
  .ofList (entries.map fun e => (e.1, Text.ofOctets e.2))

/-- The integer of a variable; blank text counts as unset. -/
def integer? (env : Environment) (name : String) : Except EnvironmentError (Option Int) :=
  match env.get? name with
  | none => .ok none
  | some text =>
    if text.strip.isEmpty then .ok none
    else match Numeral.read 10 text.strip with
      | .ok n => .ok (some n)
      | .error _ => .error (.badInteger name text)

/-- The texts that switch a flag on, in any case and with blanks around them. -/
def switchWords : List Text := ["1", "true", "yes", "on"]

/-- A flag that is set is on exactly for the words that switch it on. -/
def switch (env : Environment) (name : String) (otherwise : Bool) : Bool :=
  match env.get? name with
  | none => otherwise
  | some text => switchWords.contains text.strip.lower

/-- The text of a variable, unless it is missing or empty. -/
def text? (env : Environment) (name : String) : Option Text :=
  (env.get? name).filter (!·.isEmpty)

/-- An override counts if it is positive. -/
def positive? (n : Option Int) : Option Int := n.filter (0 < ·)

/-- The format with a number; zero counts as unset, as no number does. -/
def version (number : Option Int) : Except EnvironmentError SignatureVersion :=
  match number with
  | none | some 0 => .ok .plain
  | some n =>
    match SignatureVersion.ofNumber? n with
    | some v => .ok v
    | none => .error (.unsupportedVersion n)

def settings (env : Environment) : Except EnvironmentError Settings := do
  let ttls ← Kind.all.mapM fun k => do return (k, positive? (← env.integer? (ttlVariable k)))
  let retention ← env.integer? retentionVariable
  let version ← version (← env.integer? versionVariable)
  return {
    secret := (env.text? secretVariable).getD Settings.defaultSecret
    ttlOverrides := .ofList (ttls.filter (·.2.isSome))
    retentionMs := some ((positive? retention).getD Kind.longAgeMs)
    version
    acceptLegacy := env.switch legacyVariable true
    serverUrl := env.text? serverVariable
    namespaceName := (env.text? namespaceVariable).getD Remote.defaultNamespace
    logLevel := (env.get? levelVariable).getD Settings.default.logLevel }

end Environment

end BearerToken
