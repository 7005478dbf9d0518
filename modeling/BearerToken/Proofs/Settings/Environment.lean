import Mathlib
import BearerToken.Settings.Environment
import BearerToken.Proofs.Json.Reading
import BearerToken.Proofs.Table

/-!
# What the environment says

Seven variables are read as something other than their text: the lifetimes of the four kinds, the
retention, the format of signatures and the flag that admits the first format. Settings are faithful
to an environment if they say what these variables say, with the default where one is missing or
blank, and if an environment in which one of them is misspelled gives no settings but an error that
names such a variable. The integers are faithful everywhere. Two slips are left: a flag that is set
but is none of the words of a flag, blank text among them, is off without a word, and the number
zero of a format is the first format.
-/

namespace BearerToken

section Results

variable {α β ε : Type} {e : ε}

theorem exists_of_bind_eq_error {r : Except ε α} {f : α → Except ε β}
    (failed : r >>= f = .error e) : r = .error e ∨ ∃ x, r = .ok x ∧ f x = .error e := by
  cases r with
  | error e' => exact .inl (congrArg Except.error (Except.error.inj failed))
  | ok x => exact .inr ⟨x, rfl, failed⟩

theorem exists_of_mapM_eq_error {f : α → Except ε β} {xs : List α}
    (failed : xs.mapM f = .error e) : ∃ x ∈ xs, f x = .error e := by
  induction xs with
  | nil => cases failed
  | cons x rest ih =>
      rw [List.mapM_cons] at failed
      obtain here | ⟨y, -, failed⟩ := exists_of_bind_eq_error failed
      · exact ⟨x, List.mem_cons_self, here⟩
      · obtain later | ⟨ys, -, failed⟩ := exists_of_bind_eq_error failed
        · obtain ⟨x', member, there⟩ := ih later
          exact ⟨x', List.mem_cons_of_mem _ member, there⟩
        · cases failed

theorem mapM_eq_map {f : α → Except ε β} {g : α → β} {xs : List α} {ys : List β}
    (done : xs.mapM f = .ok ys) (each : ∀ x y, f x = .ok y → y = g x) : ys = xs.map g := by
  induction xs generalizing ys with
  | nil => exact (Except.ok.inj done).symm
  | cons x rest ih =>
      rw [List.mapM_cons] at done
      obtain ⟨y, first, done⟩ := exists_of_bind_eq_ok done
      obtain ⟨ys', more, done⟩ := exists_of_bind_eq_ok done
      rw [← Except.ok.inj done, List.map_cons, each x y first, ih more]

end Results

namespace Environment

/-- The text of a variable, unless it is missing or blank. -/
def said? (env : Environment) (name : String) : Option Text :=
  (env.get? name).filter (!·.strip.isEmpty)

/-- The integer that a text is, with or without blanks around it. -/
def number? (t : Text) : Option Int := (Numeral.read 10 t.strip).toOption

/-- The format whose number a text is. -/
def format? (t : Text) : Option SignatureVersion := (number? t).bind SignatureVersion.ofNumber?

/-- The words of a flag. -/
def flagWords : List (Text × Bool) :=
  [("1", true), ("true", true), ("yes", true), ("on", true),
   ("0", false), ("false", false), ("no", false), ("off", false)]

/-- The flag that a text is, in any case and with or without blanks around it. -/
def flag? (t : Text) : Option Bool := flagWords.lookup t.strip.lower

/-- The variables that are read as something other than their text. -/
inductive Variable where
  | ttl (kind : Kind)
  | retention
  | version
  | legacy
  deriving Repr, DecidableEq

namespace Variable

def name : Variable → String
  | ttl kind => ttlVariable kind
  | retention => retentionVariable
  | version => versionVariable
  | legacy => legacyVariable

/-- Whether a text is a value of the variable's kind. -/
def admits : Variable → Text → Bool
  | ttl _, t | retention, t => (number? t).isSome
  | version, t => (format? t).isSome
  | legacy, t => (flag? t).isSome

end Variable

section Faithful

variable (env : Environment)

/-- A variable says something that is no value of its kind. -/
def Misspelled (v : Variable) : Prop := ∃ t, env.said? v.name = some t ∧ v.admits t = false

/-- Lifetimes and retention are the integers given, where these are positive, and the format is the
one given; what is not given has its default. -/
structure GivesNumbers (s : Settings) : Prop where
  ttlFor : ∀ k, s.policy.ttlFor k =
    Policy.positiveOr ((env.said? (ttlVariable k)).bind number?) k.defaultTtlMs
  retentionMs : s.policy.retentionMs =
    Policy.positiveOr ((env.said? retentionVariable).bind number?) Kind.longAgeMs
  version : s.version = ((env.said? versionVariable).bind format?).getD .plain

/-- The settings say what the variables say. -/
structure Gives (s : Settings) : Prop extends GivesNumbers env s where
  acceptLegacy : s.acceptLegacy = ((env.said? legacyVariable).bind flag?).getD true

/-- Nothing misspelled is read, and what is spelled right is read as what it is. -/
def Faithful : Prop :=
  match env.settings with
  | .error e => ∃ v, env.Misspelled v ∧ v.name.toList <:+: e.message.toList
  | .ok s => (∀ v, ¬ env.Misspelled v) ∧ env.Gives s

/-- The flag is set to none of its words, or the number of the format is zero. -/
def Slips : Prop :=
  (∃ t, env.get? legacyVariable = some t ∧ flag? t = none) ∨
    (env.said? versionVariable).bind number? = some 0

end Faithful

section Integers

variable {env : Environment} {name : String} {e : EnvironmentError} {n : Option Int}

theorem said?_of_blank {t : Text} (found : env.get? name = some t)
    (blank : t.strip.isEmpty = true) : env.said? name = none := by
  rw [said?, found, Option.filter_some, blank]
  rfl

theorem said?_of_filled {t : Text} (found : env.get? name = some t)
    (filled : t.strip.isEmpty = false) : env.said? name = some t := by
  rw [said?, found, Option.filter_some, filled]
  rfl

/-- A variable that says something is read as an integer, or refused. -/
theorem integer?_eq (env : Environment) (name : String) :
    env.integer? name = match env.said? name with
      | none => .ok none
      | some t => match number? t with
        | some n => .ok (some n)
        | none => .error (.badInteger name t) := by
  rw [integer?]
  cases found : env.get? name with
  | none => simp [said?, found]
  | some t =>
      cases blank : t.strip.isEmpty with
      | true => simp [said?_of_blank found blank, blank]
      | false =>
          simp only [blank, Bool.false_eq_true, if_false, said?_of_filled found blank, number?]
          cases Numeral.read 10 t.strip <;> rfl

theorem eq_of_integer? (read : env.integer? name = .ok n) :
    n = (env.said? name).bind number? ∧
      ∀ t, env.said? name = some t → (number? t).isSome := by
  rw [integer?_eq] at read
  cases said : env.said? name with
  | none =>
      rw [said] at read
      exact ⟨(Except.ok.inj read).symm, nofun⟩
  | some t =>
      simp only [said] at read
      cases number : number? t with
      | none =>
          rw [number] at read
          cases read
      | some i =>
          rw [number] at read
          refine ⟨(Except.ok.inj read).symm.trans number.symm, ?_⟩
          rintro _ ⟨⟩
          rw [number]
          rfl

theorem exists_of_integer?_eq_error (refused : env.integer? name = .error e) :
    ∃ t, env.said? name = some t ∧ number? t = none ∧ e = .badInteger name t := by
  rw [integer?_eq] at refused
  cases said : env.said? name with
  | none =>
      rw [said] at refused
      cases refused
  | some t =>
      simp only [said] at refused
      cases number : number? t with
      | none =>
          rw [number] at refused
          exact ⟨t, rfl, number, (Except.error.inj refused).symm⟩
      | some i =>
          rw [number] at refused
          cases refused

theorem isInfix_toList (front s back : String) : s.toList <:+: (front ++ s ++ back).toList := by
  rw [String.toList_append, String.toList_append]
  exact ⟨front.toList, back.toList, rfl⟩

/-- What is said of a text that is no integer names the variable. -/
theorem isInfix_badInteger (name : String) (t : Text) :
    name.toList <:+: (EnvironmentError.badInteger name t).message.toList := by
  have inside := isInfix_toList "Invalid integer for " name (": " ++ t.quoted)
  rwa [← String.append_assoc] at inside

theorem isInfix_unsupportedVersion (n : Int) :
    versionVariable.toList <:+: (EnvironmentError.unsupportedVersion n).message.toList := by
  have inside := isInfix_toList "Unsupported " versionVariable
    (": " ++ Numeral.write n ++ " (expected one of [1, 2])")
  rwa [← String.append_assoc, ← String.append_assoc] at inside

/-- Every variable but the flag is read as an integer first. -/
theorem Variable.admits_eq_false {v : Variable} (numeric : v ≠ .legacy) {t : Text}
    (number : number? t = none) : v.admits t = false := by
  cases v with
  | ttl kind => simp [admits, number]
  | retention => simp [admits, number]
  | version => simp [admits, format?, number]
  | legacy => exact absurd rfl numeric

theorem exists_misspelled_of_integer? {v : Variable} (numeric : v ≠ .legacy)
    (refused : env.integer? v.name = .error e) :
    ∃ v, env.Misspelled v ∧ v.name.toList <:+: e.message.toList := by
  obtain ⟨t, said, number, rfl⟩ := exists_of_integer?_eq_error refused
  exact ⟨v, ⟨t, said, Variable.admits_eq_false numeric number⟩, isInfix_badInteger _ _⟩

end Integers

section Formats

variable {number : Option Int} {v : SignatureVersion} {e : EnvironmentError}

theorem eq_of_version (done : version number = .ok v) :
    v = (number.bind SignatureVersion.ofNumber?).getD .plain ∧
      ∀ n ∈ number, SignatureVersion.ofNumber? n = none → n = 0 := by
  rw [version.eq_def] at done
  split at done
  · cases done
    exact ⟨rfl, nofun⟩
  · cases done
    refine ⟨rfl, ?_⟩
    rintro _ ⟨⟩ _
    rfl
  · next n _ =>
    cases known : SignatureVersion.ofNumber? n with
    | none =>
        rw [known] at done
        cases done
    | some v' =>
        rw [known] at done
        cases done
        refine ⟨by rw [Option.bind_some, known, Option.getD_some], ?_⟩
        rintro _ ⟨⟩ unknown
        rw [known] at unknown
        cases unknown

theorem exists_of_version_eq_error (refused : version number = .error e) :
    ∃ n, number = some n ∧ SignatureVersion.ofNumber? n = none ∧ e = .unsupportedVersion n := by
  rw [version.eq_def] at refused
  split at refused
  · cases refused
  · cases refused
  · next n _ =>
    cases known : SignatureVersion.ofNumber? n with
    | none =>
        rw [known] at refused
        exact ⟨n, rfl, known, (Except.error.inj refused).symm⟩
    | some v' =>
        rw [known] at refused
        cases refused

end Formats

section Overrides

theorem positiveOr_positive? (n : Option Int) (otherwise : Int) :
    Policy.positiveOr (positive? n) otherwise = Policy.positiveOr n otherwise := by
  cases n with
  | none => rfl
  | some i =>
      rw [positive?, Option.filter_some]
      by_cases positive : 0 < i
      · simp [positive]
      · simp [positive, Policy.positiveOr]

theorem positiveOr_getD (n : Option Int) (otherwise : Int) :
    Policy.positiveOr (some (n.getD otherwise)) otherwise = Policy.positiveOr n otherwise := by
  cases n with
  | none => exact ite_self otherwise
  | some i => rfl

/-- What is kept is found as it was, and what is open is not found. -/
theorem join_get?_kept {κ α : Type} [DecidableEq κ] {es : List (κ × Option α)}
    (once : (es.map Prod.fst).Nodup) {k : κ} {a : Option α} (member : (k, a) ∈ es) :
    ((Table.ofList (es.filter (·.2.isSome))).get? k).join = a := by
  have kept : Table.ofList (es.filter (·.2.isSome)) = Table.keep ⟨es⟩ Option.isSome :=
    congrArg Table.mk (Table.ofList_entries (once.sublist (List.filter_sublist.map Prod.fst)))
  have found : (⟨es⟩ : Table κ (Option α)).get? k = some a := Table.Nodup.get?_of_mem once member
  rw [kept, Table.get?_keep once, found, Option.filter_some]
  cases a <;> rfl

end Overrides

section Flags

theorem getD_lookup_words (on off : List Text) (word : Text) :
    ((on.map (·, true) ++ off.map (·, false)).lookup word).getD false = on.contains word := by
  induction on with
  | nil =>
      induction off with
      | nil => rfl
      | cons w off ih =>
          rw [List.map_cons, List.map_nil, List.nil_append, List.lookup_cons]
          split
          · rfl
          · exact ih
  | cons w on ih =>
      rw [List.map_cons, List.cons_append, List.lookup_cons, List.contains_cons]
      split
      · next same => rw [same, Bool.true_or, Option.getD_some]
      · next other => rw [other, Bool.false_or, ih]

/-- A flag that is none of the words is off. -/
theorem switch_eq (env : Environment) (name : String) (otherwise : Bool) :
    env.switch name otherwise = match env.get? name with
      | none => otherwise
      | some t => (flag? t).getD false := by
  rw [switch]
  cases env.get? name with
  | none => rfl
  | some t => exact (getD_lookup_words switchWords ["0", "false", "no", "off"] _).symm

/-- A word of a flag is not blank. -/
theorem isEmpty_strip_of_flag? {t : Text} {b : Bool} (word : flag? t = some b) :
    t.strip.isEmpty = false := by
  cases blank : t.strip with
  | nil =>
      rw [flag?, blank] at word
      cases word
  | cons c rest => rfl

end Flags

section Loading

variable {env : Environment} {s : Settings} {e : EnvironmentError}

theorem exists_misspelled_of_error (failed : env.settings = .error e) :
    ∃ v, env.Misspelled v ∧ v.name.toList <:+: e.message.toList := by
  rw [settings] at failed
  obtain ttls | ⟨_, -, failed⟩ := exists_of_bind_eq_error failed
  · obtain ⟨k, -, refused⟩ := exists_of_mapM_eq_error ttls
    obtain refused | ⟨_, -, done⟩ := exists_of_bind_eq_error refused
    · exact exists_misspelled_of_integer? (v := .ttl k) nofun refused
    · cases done
  obtain retention | ⟨_, -, failed⟩ := exists_of_bind_eq_error failed
  · exact exists_misspelled_of_integer? (v := .retention) nofun retention
  obtain number | ⟨number, read, failed⟩ := exists_of_bind_eq_error failed
  · exact exists_misspelled_of_integer? (v := .version) nofun number
  obtain version | ⟨_, -, done⟩ := exists_of_bind_eq_error failed
  · obtain ⟨n, rfl, unknown, rfl⟩ := exists_of_version_eq_error version
    obtain ⟨t, said, number⟩ := Option.bind_eq_some_iff.mp (eq_of_integer? read).1.symm
    refine ⟨.version, ⟨t, said, ?_⟩, isInfix_unsupportedVersion n⟩
    rw [Variable.admits, format?, number, Option.bind_some, unknown]
    rfl
  · cases done

/-- How settings are put together from what is read. -/
theorem exists_of_settings_eq_ok (done : env.settings = .ok s) :
    (∀ k, ∃ n, env.integer? (ttlVariable k) = .ok n ∧ s.ttlOverride? k = positive? n) ∧
      (∃ n, env.integer? retentionVariable = .ok n ∧
        s.retentionMs = some ((positive? n).getD Kind.longAgeMs)) ∧
      (∃ n, env.integer? versionVariable = .ok n ∧ Environment.version n = .ok s.version) ∧
      s.acceptLegacy = env.switch legacyVariable true ∧
      s.secret = (env.text? secretVariable).getD Settings.defaultSecret ∧
      s.logLevel = (env.get? levelVariable).getD Settings.default.logLevel := by
  rw [settings] at done
  obtain ⟨ttls, each, done⟩ := exists_of_bind_eq_ok done
  obtain ⟨retention, kept, done⟩ := exists_of_bind_eq_ok done
  obtain ⟨number, read, done⟩ := exists_of_bind_eq_ok done
  obtain ⟨v, version, done⟩ := exists_of_bind_eq_ok done
  cases done
  refine ⟨fun k => ?_, ⟨retention, kept, rfl⟩, ⟨number, read, version⟩, rfl, rfl, rfl⟩
  obtain ⟨_, one⟩ := exists_of_mapM_eq_ok each k (Kind.mem_all k)
  obtain ⟨n, given, -⟩ := exists_of_bind_eq_ok one
  -- An override is looked up in a table, so the whole of it has to be known: no kind is there twice.
  have listed : ttls = Kind.all.map fun k =>
      (k, positive? ((env.said? (ttlVariable k)).bind number?)) := by
    refine mapM_eq_map each fun k' e one => ?_
    obtain ⟨n', given', paired⟩ := exists_of_bind_eq_ok one
    rw [← (eq_of_integer? given').1]
    exact (Except.ok.inj paired).symm
  have once : (ttls.map Prod.fst).Nodup := by
    rw [listed, List.map_map]
    exact (by decide : (Kind.all.map id).Nodup)
  refine ⟨n, given, join_get?_kept once ?_⟩
  rw [listed, (eq_of_integer? given).1]
  exact List.mem_map.mpr ⟨k, Kind.mem_all k, rfl⟩

theorem givesNumbers_of_ok (done : env.settings = .ok s) : env.GivesNumbers s := by
  obtain ⟨ttls, ⟨retention, kept, keptAs⟩, ⟨number, read, version⟩, -⟩ :=
    exists_of_settings_eq_ok done
  refine ⟨fun k => ?_, ?_, ?_⟩
  · obtain ⟨n, given, override⟩ := ttls k
    rw [Settings.policy, Policy.ttlFor_withOverrides, override, positiveOr_positive?,
      (eq_of_integer? given).1]
  · rw [Settings.policy, Policy.withOverrides, keptAs, positiveOr_getD, positiveOr_positive?,
      (eq_of_integer? kept).1]
  · rw [(eq_of_version version).1, (eq_of_integer? read).1, Option.bind_assoc]
    rfl

/-- What is misspelled and read all the same is the flag, or a format with the number zero. -/
theorem slips_of_misspelled (done : env.settings = .ok s) {v : Variable}
    (misspelled : env.Misspelled v) : env.Slips := by
  obtain ⟨ttls, ⟨retention, kept, -⟩, ⟨number, read, version⟩, -⟩ :=
    exists_of_settings_eq_ok done
  obtain ⟨t, said, wrong⟩ := misspelled
  cases v with
  | ttl kind =>
      obtain ⟨n, given, -⟩ := ttls kind
      have right := (eq_of_integer? given).2 t said
      rw [Variable.admits, right] at wrong
      cases wrong
  | retention =>
      have right := (eq_of_integer? kept).2 t said
      rw [Variable.admits, right] at wrong
      cases wrong
  | version =>
      change env.said? versionVariable = some t at said
      obtain ⟨given, integer⟩ := eq_of_integer? read
      obtain ⟨n, number⟩ := Option.isSome_iff_exists.mp (integer t said)
      have unknown : SignatureVersion.ofNumber? n = none := by
        rw [Variable.admits, format?, number, Option.bind_some] at wrong
        simpa using wrong
      rw [said, Option.bind_some, number] at given
      refine .inr ?_
      rw [said, Option.bind_some, number, (eq_of_version version).2 n given unknown]
  | legacy =>
      obtain ⟨found, -⟩ := Option.filter_eq_some_iff.mp said
      exact .inl ⟨t, found, by simpa [Variable.admits] using wrong⟩

theorem acceptLegacy_of_ok (done : env.settings = .ok s) :
    s.acceptLegacy = match env.get? legacyVariable with
      | none => true
      | some t => (flag? t).getD false := by
  obtain ⟨-, -, -, flag, -⟩ := exists_of_settings_eq_ok done
  rw [flag, switch_eq]

theorem faithful_of_ok (done : env.settings = .ok s) (firm : ¬ env.Slips) : env.Faithful := by
  rw [Faithful, done]
  have spelled (v : Variable) : ¬ env.Misspelled v := fun wrong =>
    firm (slips_of_misspelled done wrong)
  refine ⟨spelled, givesNumbers_of_ok done, ?_⟩
  rw [acceptLegacy_of_ok done]
  cases found : env.get? legacyVariable with
  | none => simp [said?, found]
  | some t =>
      cases word : flag? t with
      | none => exact absurd (.inl ⟨t, found, word⟩) firm
      | some b => simp [said?_of_filled found (isEmpty_strip_of_flag? word), word]

/-- A slip is a value that is misspelled and not refused, or a blank flag that is not on. -/
theorem not_faithful_of_slips (done : env.settings = .ok s) (slips : env.Slips) :
    ¬ env.Faithful := by
  intro faithful
  rw [Faithful, done] at faithful
  obtain ⟨spelled, gives⟩ := faithful
  obtain ⟨t, found, word⟩ | zero := slips
  -- A blank flag contradicts the default, and a flag that is none of the words its spelling.
  · cases blank : t.strip.isEmpty with
    | true =>
        have flag := gives.acceptLegacy
        rw [acceptLegacy_of_ok done, said?_of_blank found blank] at flag
        simp [found, word] at flag
    | false =>
        exact spelled .legacy ⟨t, said?_of_filled found blank, by rw [Variable.admits, word]; rfl⟩
  · obtain ⟨t, said, number⟩ := Option.bind_eq_some_iff.mp zero
    refine spelled .version ⟨t, said, ?_⟩
    rw [Variable.admits, format?, number]
    rfl

end Loading

/-- An error names a variable that is misspelled. Settings have the integers that are given, and the
defaults of those that are not; the flag is on if it is not set, and else just if it is set to a
word that says so. This is what the environment says unless the settings slip, and then it is
not. -/
theorem settings_faithful_iff (env : Environment) :
    (env.Faithful ↔ ¬ (env.settings.isOk = true ∧ env.Slips)) ∧
      match env.settings with
      | .error e => ∃ v, env.Misspelled v ∧ v.name.toList <:+: e.message.toList
      | .ok s =>
        env.GivesNumbers s ∧ ((∃ v, env.Misspelled v) → env.Slips) ∧
          s.acceptLegacy = match env.get? legacyVariable with
            | none => true
            | some t => (flag? t).getD false := by
  cases loaded : env.settings with
  | error e =>
      have named := exists_misspelled_of_error loaded
      refine ⟨iff_of_true ?_ nofun, named⟩
      rwa [Faithful, loaded]
  | ok s =>
      refine ⟨⟨?_, ?_⟩, givesNumbers_of_ok loaded, ?_, acceptLegacy_of_ok loaded⟩
      · rintro faithful ⟨-, slips⟩
        exact not_faithful_of_slips loaded slips faithful
      · intro firm
        exact faithful_of_ok loaded fun slips => firm ⟨rfl, slips⟩
      · rintro ⟨v, misspelled⟩
        exact slips_of_misspelled loaded misspelled

/-- A mistyped flag and a blank one switch the first format off, and a format with the number zero
is the first one. -/
theorem not_faithful_mistyped :
    let mistyped : Environment := .ofList [(legacyVariable, "ture")]
    let blank : Environment := .ofList [(legacyVariable, " ")]
    let zero : Environment := .ofList [(versionVariable, "0")]
    (¬ mistyped.Faithful ∧ (mistyped.settings.map (·.acceptLegacy)).toOption = some false) ∧
      (¬ blank.Faithful ∧ (blank.settings.map (·.acceptLegacy)).toOption = some false) ∧
      ¬ zero.Faithful ∧ (zero.settings.map (·.version)).toOption = some .plain := by
  intro mistyped blank zero
  have slips (env : Environment) (slips : env.Slips) (done : env.settings.isOk = true) :
      ¬ env.Faithful := by
    cases loaded : env.settings with
    | error e =>
        rw [loaded] at done
        cases done
    | ok s => exact not_faithful_of_slips loaded slips
  refine ⟨⟨slips mistyped (.inl ⟨"ture", ?_, ?_⟩) ?_, ?_⟩,
    ⟨slips blank (.inl ⟨" ", ?_, ?_⟩) ?_, ?_⟩, slips zero (.inr ?_) ?_, ?_⟩
  all_goals decide +kernel

end Environment

end BearerToken
