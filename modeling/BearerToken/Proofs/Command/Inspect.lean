import Mathlib
import BearerToken.Command.Run
import BearerToken.Proofs.Calendar
import BearerToken.Proofs.Json.Report
import BearerToken.Proofs.Service.Memory
import BearerToken.Proofs.Settings.Environment

/-!
# The inspection of a token

The command and the service give one answer on a token: it is honoured, or it is refused for a
reason, and either is printed as one object and told apart by the exit code. The command prints more
than the service says, the times of the token as dates, and not every time has a date: a token that
the service honours and whose times do not lie in the calendar ends the command with an error.
-/

namespace BearerToken

/-- The times that a token text says have dates. -/
def Decoded.InCalendar (d : Decoded) : Prop :=
  BearerToken.InCalendar d.created ∧ ∀ ms ∈ d.expiresAt, BearerToken.InCalendar ms

instance (d : Decoded) : Decidable d.InCalendar := inferInstanceAs (Decidable (_ ∧ _))

namespace Command

open Json (Value)

/-- What a run prints is the text of one object with these members. -/
def Outcome.Prints (o : Outcome) (members : List (String × Value)) : Prop :=
  Json.read (Text.ofString o.output) = .ok (.record members)

/-- A run says what the service answers. -/
inductive Agrees (o : Outcome) : Except Failure Decoded → Prop
  | honoured {d : Decoded} {created : String} {expiresAt : Option String}
      (presence : expiresAt.isSome = d.expiresAt.isSome)
      (prints : o.Prints [("ok", .bool true), ("valid", .bool true),
        ("kind", .string d.kind.label), ("token_id", .string d.id.canonical),
        ("created", .string created), ("expires_at", .ofOption .string expiresAt),
        ("version", .int d.version.number)])
      (exits : o.ending = .exit 0) : Agrees o (.ok d)
  | refused {cause : Rejection}
      (prints : o.Prints [("ok", .bool false), ("valid", .bool false),
        ("reason", .string cause.reason), ("error", .string cause.message)])
      (exits : o.ending = .exit 1) : Agrees o (.error (.rejected cause))

/-- A run ends with an error, which it has printed. -/
structure Raises (o : Outcome) (e : CommandError) : Prop where
  prints : o.Prints [("ok", .bool false), ("error", .text e.message.joined)]
  raises : o.ending = .raised e

section Printing

variable {ok : Bool} {members : List (String × Value)}

theorem read_printed (once : ("ok" :: members.map Prod.fst).Nodup)
    (plain : ∀ m ∈ members, Json.fault? 987 m.2 = none) :
    Json.read (Text.ofString (printed ok members)) =
      .ok (.record ((("ok", Value.bool ok) :: members).map fun m => (m.1, m.2.reread))) := by
  have writable : ∀ m ∈ ("ok", Value.bool ok) :: members, Json.fault? 987 m.2 = none :=
    List.forall_mem_cons.mpr ⟨rfl, plain⟩
  have keys : ((("ok", Value.bool ok) :: members).map Prod.fst).Nodup := once
  rw [printed, Json.read_report rfl (List.cons_ne_nil _ _) keys writable, Value.record,
    List.map_map]
  rfl

@[simp] theorem reread_string (s : String) : (Value.string s).reread = .string s :=
  congrArg Value.text (Text.joined_ofString s)

theorem prints_refused (cause : Rejection) {o : Outcome}
    (output : o.output = printed (refused cause).ok (refused cause).members) :
    o.Prints [("ok", .bool false), ("valid", .bool false), ("reason", .string cause.reason),
      ("error", .string cause.message)] := by
  rw [Outcome.Prints, output, refused, read_printed]
  · simp [Value.reread]
  · simp
  · simp [Json.fault?, Value.string]

theorem prints_error (e : CommandError) {o : Outcome}
    (output : o.output = printed false [("error", .text e.message)]) :
    o.Prints [("ok", .bool false), ("error", .text e.message.joined)] := by
  rw [Outcome.Prints, output, read_printed]
  · simp [Value.reread]
  · simp
  · simp [Json.fault?]

/-- What is printed of a token that is honoured, given the dates of its times. -/
def honoured (d : Decoded) (created : Moment) (expiresAt : Option Moment) : Summary :=
  ⟨true, [("valid", .bool true), ("kind", .string d.kind.label),
    ("token_id", .string d.id.canonical), ("created", .string created.iso),
    ("expires_at", .ofOption (fun (t : Moment) => .string t.iso) expiresAt),
    ("version", .int d.version.number)]⟩

theorem prints_honoured {d : Decoded} {created : Moment} {expiresAt : Option Moment} {o : Outcome}
    (output : o.output = printed (honoured d created expiresAt).ok
      (honoured d created expiresAt).members) :
    o.Prints [("ok", .bool true), ("valid", .bool true), ("kind", .string d.kind.label),
      ("token_id", .string d.id.canonical), ("created", .string created.iso),
      ("expires_at", .ofOption .string (expiresAt.map Moment.iso)),
      ("version", .int d.version.number)] := by
  have version : Json.fault? 987 (.int d.version.number) = none := by
    cases d.version <;> decide +kernel
  have expiry : Json.fault? 987 (.ofOption (fun (t : Moment) => .string t.iso) expiresAt) =
      none := by
    cases expiresAt <;> rfl
  have reread : (Value.ofOption (fun (t : Moment) => .string t.iso) expiresAt).reread =
      .ofOption .string (expiresAt.map Moment.iso) := by
    cases expiresAt with
    | none => rfl
    | some t => exact reread_string t.iso
  rw [Outcome.Prints, output, honoured, read_printed]
  · simp [Value.reread, reread]
  · simp
  · simp only [List.forall_mem_cons]
    exact ⟨rfl, rfl, rfl, rfl, expiry, version, List.forall_mem_nil _⟩

end Printing

section Words

variable {token : Text} (operand : token.head? ≠ some (.char '-'))

include operand

/-- A word that does not start with a hyphen is an operand. -/
theorem classifyAll_operand (g : Grammar) (rest : List Text) :
    classifyAll g (token :: rest) = (classifyAll g rest).map (.operand token :: ·) := by
  have other : token ≠ separatorText := by
    rintro rfl
    exact operand rfl
  have word : classify g token = .ok (.operand token) := by
    rw [classify, if_pos (by simp [operand])]
  rw [classifyAll, if_neg other, word]
  cases classifyAll g rest <;> rfl

theorem parse_inspect : parse ["inspect", token] = .ok (.inspect token) := by
  -- What follows the command is classified again, by the options of the command.
  have words : classifyAll helpOptions ["inspect", token] =
      .ok [.operand "inspect", .operand token] := by
    rw [classifyAll_operand (by decide), classifyAll_operand operand]
    rfl
  have command : readCommand "inspect" [token] = .ok (.inspect token, false) := by
    rw [readCommand, if_pos rfl, classifyAll_operand operand]
    rfl
  rw [parse, words]
  simp only [bind, Except.bind, readFront, command]
  rfl

end Words

section Settings

variable {env : Environment} {settings : Settings}

theorem prepare_of_ok (loaded : env.settings = .ok settings)
    (level : env.get? Environment.levelVariable = none) :
    ∃ least, prepare env = .ok (settings, least) := by
  have name : settings.logLevel = "info" := by
    obtain ⟨-, -, -, -, -, name⟩ := Environment.exists_of_settings_eq_ok loaded
    rw [name, level]
    rfl
  obtain ⟨least, known⟩ : ∃ least, Log.threshold "info" = .ok least := ⟨_, rfl⟩
  refine ⟨least, ?_⟩
  rw [prepare, loaded, Except.mapError]
  simp only [bind, Except.bind, name, known, Except.mapError]
  rfl

/-- The secret of an environment is never empty. -/
theorem secret_ne_nil (loaded : env.settings = .ok settings) : settings.secret ≠ [] := by
  obtain ⟨-, -, -, -, secret, -⟩ := Environment.exists_of_settings_eq_ok loaded
  rw [secret]
  cases given : env.text? Environment.secretVariable with
  | none => exact List.cons_ne_nil _ _
  | some t =>
      obtain ⟨-, filled⟩ := Option.filter_eq_some_iff.mp given
      rintro rfl
      cases filled

theorem isOk_settings_assemble_iff (filled : settings.secret ≠ []) :
    (settings.assemble none).isOk = true ↔ settings.secret.toString?.isSome = true := by
  rw [Settings.assemble, Codec.make, Codec.readSecret]
  cases string : settings.secret.toString? with
  | none => exact Iff.rfl
  | some secret =>
      have nonempty : secret ≠ "" := by
        rintro rfl
        exact filled (Text.eq_ofString_of_toString? string)
      simp only [dif_neg nonempty]
      exact Iff.rfl

theorem backend_of_assemble {assembly : Assembly} (made : settings.assemble none = .ok assembly) :
    assembly.backend = settings.backend := by
  obtain ⟨_, -, made⟩ := exists_of_bind_eq_ok made
  cases made
  rfl

/-- A service can be put together unless the secret has no form in bytes or the client refuses the
address of the server. -/
theorem isOk_assemble_iff (loaded : env.settings = .ok settings) (w : World HashServer) :
    (assemble settings w).1.isOk = true ↔
      settings.secret.toString?.isSome = true ∧
        (settings.backend = .memory ∨ w.store.faults.get? "from_url" = none) := by
  rw [← isOk_settings_assemble_iff (secret_ne_nil loaded), assemble]
  cases made : settings.assemble none with
  | error cause => exact iff_of_false Bool.false_ne_true fun both => Bool.false_ne_true both.1
  | ok assembly =>
      rw [← backend_of_assemble made]
      simp only
      cases assembly.backend with
      | memory => exact iff_of_true rfl ⟨rfl, .inl rfl⟩
      | remote url namespaceName =>
          simp only [Backend.connection?, HashServer.call, Call.name]
          cases w.store.faults.get? "from_url" with
          | none => exact iff_of_true rfl ⟨rfl, .inr rfl⟩
          | some fault =>
              refine iff_of_false Bool.false_ne_true ?_
              rintro ⟨-, elsewhere | calm⟩
              · cases elsewhere
              · cases calm

end Settings

section Dates

variable {d : Decoded}

theorem exists_moment {ms : Int} (inside : InCalendar ms) : ∃ t, Moment.ofMillis ms = .ok t := by
  have dated := (Moment.isOk_ofMillis_iff ms).mpr inside
  cases given : Moment.ofMillis ms with
  | ok t => exact ⟨t, rfl⟩
  | error e =>
      rw [given] at dated
      cases dated

theorem exists_describe (dated : d.InCalendar) :
    ∃ created expiresAt, describe d = .ok (honoured d created expiresAt) ∧
      expiresAt.isSome = d.expiresAt.isSome := by
  obtain ⟨creation, expiry⟩ := dated
  obtain ⟨created, first⟩ := exists_moment creation
  cases embedded : d.expiresAt with
  | none =>
      refine ⟨created, none, ?_, rfl⟩
      rw [describe, first, embedded]
      rfl
  | some ms =>
      obtain ⟨t, last⟩ := exists_moment (expiry ms embedded)
      refine ⟨created, some t, ?_, rfl⟩
      rw [describe, first, embedded]
      simp only [last]
      rfl

theorem inCalendar_of_describe {summary : Summary} (done : describe d = .ok summary) :
    d.InCalendar := by
  obtain ⟨created, first, done⟩ := exists_of_bind_eq_ok done
  refine ⟨(Moment.isOk_ofMillis_iff _).mp (by rw [first]; rfl), fun ms embedded => ?_⟩
  rw [Option.mem_def.mp embedded] at done
  obtain ⟨_, last, -⟩ := exists_of_bind_eq_ok done
  obtain ⟨t, given, -⟩ := exists_of_map_eq_ok last
  exact (Moment.isOk_ofMillis_iff _).mp (by rw [given]; rfl)

end Dates

/-- Once a service is put together, the inspection prints its verdict: the members of the token, if
its times have dates, or the reason. -/
theorem inspect_of_built {settings : Settings} {nowMs : Int} {token : Text}
    {w w' : World HashServer} {assembly : Assembly}
    (built : assemble settings w = (.ok assembly, w')) :
    inspect settings nowMs token w = match assembly.toVerifier.verdict nowMs token with
      | .error cause => (.ok (refused cause), { w' with events := w'.events ++ [.rejected cause] })
      | .ok d => ((describe d).mapError .calendar, w') := by
  rw [inspect, built]
  cases verdict : assembly.toVerifier.verdict nowMs token with
  | error cause =>
      have resolved := Verifier.run_resolve_error verdict w'
      rw [Action.run] at resolved
      simp only [resolved]
  | ok d =>
      have resolved := Verifier.run_resolve_ok verdict w'
      rw [Action.run] at resolved
      simp only [resolved]

section Runs

variable {s : Setting} {settings : Settings} {token : Text} {w : World HashServer}
  (loaded : s.environment.settings = .ok settings)
  (level : s.environment.get? Environment.levelVariable = none)
  (operand : token.head? ≠ some (.char '-'))

include loaded level operand

theorem run_of_done {summary : Summary}
    (done : inspect settings s.nowMs token ⟨s.server, []⟩ = (.ok summary, w)) :
    (run s ["inspect", token]).output = printed summary.ok summary.members ∧
      (run s ["inspect", token]).ending = .exit (if summary.ok then 0 else 1) := by
  obtain ⟨least, prepared⟩ := prepare_of_ok loaded level
  rw [run, parse_inspect operand]
  simp only [perform, prepared, execute, done]
  exact ⟨trivial, trivial⟩

theorem raises_of_failed {e : CommandError}
    (failed : inspect settings s.nowMs token ⟨s.server, []⟩ = (.error e, w)) :
    Raises (run s ["inspect", token]) e := by
  obtain ⟨least, prepared⟩ := prepare_of_ok loaded level
  have ends : run s ["inspect", token] =
      ⟨printed false [("error", .text e.message)], .raised e, Log.lines least w.events,
        w.store⟩ := by
    rw [run, parse_inspect operand]
    simp only [perform, prepared, execute, failed]
  rw [ends]
  exact ⟨prints_error e rfl, rfl⟩

variable {assembly : Assembly} (built : assemble settings ⟨s.server, []⟩ = (.ok assembly, w))

include built

theorem agrees_of_refused {cause : Rejection}
    (refused : assembly.toVerifier.verdict s.nowMs token = .error cause) :
    Agrees (run s ["inspect", token]) (.error (.rejected cause)) := by
  have done : inspect settings s.nowMs token ⟨s.server, []⟩ =
      (.ok (Command.refused cause), { w with events := w.events ++ [.rejected cause] }) := by
    rw [inspect_of_built built, refused]
  obtain ⟨output, ending⟩ := run_of_done loaded level operand done
  exact .refused (prints_refused cause output) ending

theorem agrees_of_honoured {d : Decoded}
    (accepted : assembly.toVerifier.verdict s.nowMs token = .ok d) (dated : d.InCalendar) :
    Agrees (run s ["inspect", token]) (.ok d) := by
  obtain ⟨created, expiresAt, described, presence⟩ := exists_describe dated
  have done : inspect settings s.nowMs token ⟨s.server, []⟩ =
      (.ok (honoured d created expiresAt), w) := by
    simp only [inspect_of_built built, accepted, described]
    rfl
  obtain ⟨output, ending⟩ := run_of_done loaded level operand done
  exact .honoured (by simpa using presence) (prints_honoured output) ending

theorem raises_of_undated {d : Decoded}
    (accepted : assembly.toVerifier.verdict s.nowMs token = .ok d) (undated : ¬ d.InCalendar) :
    ∃ cause, Raises (run s ["inspect", token]) (.calendar cause) := by
  cases described : describe d with
  | ok summary => exact absurd (inCalendar_of_describe described) undated
  | error cause =>
      have failed : inspect settings s.nowMs token ⟨s.server, []⟩ =
          (.error (.calendar cause), w) := by
        simp only [inspect_of_built built, accepted, described]
        rfl
      exact ⟨cause, raises_of_failed loaded level operand failed⟩

end Runs

section Service

variable {s : Setting} {token : Text}

/-- What the service that the environment asks for says of a token, and where it keeps records. -/
def verdict? (s : Setting) (token : Text) : Option (Backend × Except Rejection Decoded) :=
  (s.environment.settings.toOption.bind fun settings => (settings.assemble none).toOption).map
    fun assembly => (assembly.backend, assembly.toVerifier.verdict s.nowMs token)

theorem eq_ok_of_toOption {ε α : Type} {r : Except ε α} {x : α} (some : r.toOption = .some x) :
    r = .ok x := by
  cases r with
  | error e => cases some
  | ok y => exact congrArg Except.ok (Option.some.inj some)

theorem exists_built {verdict : Except Rejection Decoded}
    (answered : verdict? s token = some (.memory, verdict)) :
    ∃ settings assembly w, s.environment.settings = .ok settings ∧
      assemble settings ⟨s.server, []⟩ = (.ok assembly, w) ∧
        assembly.toVerifier.verdict s.nowMs token = verdict := by
  rw [verdict?] at answered
  obtain ⟨assembly, made, same⟩ := Option.map_eq_some_iff.mp answered
  obtain ⟨settings, loaded, made⟩ := Option.bind_eq_some_iff.mp made
  obtain ⟨backend, decided⟩ := Prod.mk.inj same
  refine ⟨settings, assembly, ⟨s.server, [] ++ assembly.events⟩, eq_ok_of_toOption loaded, ?_,
    decided⟩
  rw [assemble, eq_ok_of_toOption made]
  simp only [backend]
  rfl

end Service

theorem not_agrees_of_raises {o : Outcome} {e : CommandError} (raises : Raises o e)
    (answer : Except Failure Decoded) : ¬ Agrees o answer := by
  rintro (⟨_, _, exits⟩ | ⟨_, exits⟩)
  all_goals
    rw [raises.raises] at exits
    cases exits

/-- What the command does with a token, against what the service answers. Where no service can be
put together the command prints why and raises it. Else it says what the service answers, whatever
the store, unless the service honours the token and a time of it has no date: then it prints and
raises that. -/
theorem inspect_agrees_iff {s : Setting} {settings : Settings} {token : Text}
    (loaded : s.environment.settings = .ok settings)
    (level : s.environment.get? Environment.levelVariable = none)
    (operand : token.head? ≠ some (.char '-')) {σ : Type} (store : Store σ) (w : World σ) :
    let o := run s ["inspect", token]
    ((assemble settings ⟨s.server, []⟩).1.isOk = true ↔
        settings.secret.toString?.isSome = true ∧
          (settings.backend = .memory ∨ s.server.faults.get? "from_url" = none)) ∧
      match (assemble settings ⟨s.server, []⟩).1 with
      | .error e => Raises o e
      | .ok assembly =>
        let answer := (((assembly.service store).inspect s.nowMs token).run w).1
        (Agrees o answer ↔ ∀ d, answer = .ok d → d.InCalendar) ∧
          (¬ Agrees o answer → ∃ cause, Raises o (.calendar cause)) := by
  refine ⟨isOk_assemble_iff loaded _, ?_⟩
  cases built : assemble settings ⟨s.server, []⟩ with
  | mk result w' =>
      cases result with
      | error e =>
          have failed : inspect settings s.nowMs token ⟨s.server, []⟩ = (.error e, w') := by
            rw [inspect, built]
          exact raises_of_failed loaded level operand failed
      | ok assembly =>
          have answer : (((assembly.service store).inspect s.nowMs token).run w).1 =
              (assembly.toVerifier.verdict s.nowMs token).mapError .rejected :=
            Verifier.result_resolve _ _ _ _
          simp only [answer]
          cases verdict : assembly.toVerifier.verdict s.nowMs token with
          | error cause =>
              have agrees := agrees_of_refused loaded level operand built verdict
              exact ⟨iff_of_true agrees nofun, fun other => absurd agrees other⟩
          | ok d =>
              by_cases dated : d.InCalendar
              · have agrees := agrees_of_honoured loaded level operand built verdict dated
                refine ⟨iff_of_true agrees ?_, fun other => absurd agrees other⟩
                rintro _ ⟨⟩
                exact dated
              · obtain ⟨cause, raises⟩ :=
                  raises_of_undated loaded level operand built verdict dated
                refine ⟨iff_of_false (not_agrees_of_raises raises _) fun all => ?_,
                  fun _ => ⟨cause, raises⟩⟩
                exact dated (all d rfl)

/-- A token that was issued now, under a secret and no other setting, is printed as honoured. -/
theorem inspect_agrees_iff_issued :
    let s : Setting := ⟨.ofList [(Environment.secretVariable, "s")], 1700000000000, ⟨0, 0⟩, .empty⟩
    let wire : Text := "YWNjAYvP5WgAcACAAAAAAAAAAAAAAYvVC8QATDX2Dr4-d17rFDHcmPDWjECB70k"
    let d : Decoded := ⟨.access, .generate 1700000000000 ⟨0, 0⟩, some 1700086400000, .plain⟩
    ∃ settings assembly, s.environment.settings = .ok settings ∧
      s.environment.get? Environment.levelVariable = none ∧ wire.head? ≠ some (.char '-') ∧
      (assemble settings ⟨s.server, []⟩).1 = .ok assembly ∧
      (((assembly.service Memory.store).inspect s.nowMs wire).run ⟨.empty, []⟩).1 = .ok d ∧
      Agrees (run s ["inspect", wire]) (.ok d) := by
  intro s wire d
  have answered : verdict? s wire = some (.memory, .ok d) := by decide +kernel
  obtain ⟨settings, assembly, w, loaded, built, accepted⟩ := exists_built answered
  have level : s.environment.get? Environment.levelVariable = none := by decide
  have operand : wire.head? ≠ some (.char '-') := by decide
  have answer : (((assembly.service Memory.store).inspect s.nowMs wire).run ⟨.empty, []⟩).1 =
      .ok d := by
    rw [Service.inspect, Verifier.result_resolve]
    exact congrArg (Except.mapError Failure.rejected) accepted
  obtain ⟨-, agrees⟩ := inspect_agrees_iff loaded level operand Memory.store ⟨.empty, []⟩
  rw [built] at agrees
  simp only [answer] at agrees
  refine ⟨settings, assembly, loaded, level, operand, by rw [built], answer, agrees.1.mpr ?_⟩
  rintro _ ⟨⟩
  decide +kernel

/-- A token whose expiry is the first time without a date: the service honours it, and the command
ends with an error. -/
theorem not_agrees_undated :
    let s : Setting := ⟨.ofList [(Environment.secretVariable, "s"),
      (Environment.ttlVariable .access, "251702300800000")], 1700000000000, ⟨0, 0⟩, .empty⟩
    let wire : Text := "YWNjAYvP5WgAcACAAAAAAAAAAAAA5nfSH9wA4anQ5TnYPB_eSSV6Ew7Fr0_R4VQ"
    let d : Decoded := ⟨.access, .generate 1700000000000 ⟨0, 0⟩, some 253402300800000, .plain⟩
    ∃ settings assembly, s.environment.settings = .ok settings ∧
      s.environment.get? Environment.levelVariable = none ∧ wire.head? ≠ some (.char '-') ∧
      (assemble settings ⟨s.server, []⟩).1 = .ok assembly ∧
      (((assembly.service Memory.store).inspect s.nowMs wire).run ⟨.empty, []⟩).1 = .ok d ∧
      ¬ Agrees (run s ["inspect", wire]) (.ok d) ∧
      ∃ cause, (run s ["inspect", wire]).ending = .raised (.calendar cause) := by
  intro s wire d
  have answered : verdict? s wire = some (.memory, .ok d) := by decide +kernel
  obtain ⟨settings, assembly, w, loaded, built, accepted⟩ := exists_built answered
  have level : s.environment.get? Environment.levelVariable = none := by decide
  have operand : wire.head? ≠ some (.char '-') := by decide
  have undated : ¬ d.InCalendar := by decide +kernel
  obtain ⟨cause, raises⟩ := raises_of_undated loaded level operand built accepted undated
  refine ⟨settings, assembly, loaded, level, operand, by rw [built], ?_,
    not_agrees_of_raises raises _, cause, raises.raises⟩
  rw [Service.inspect, Verifier.result_resolve]
  exact congrArg (Except.mapError Failure.rejected) accepted

end Command

end BearerToken
