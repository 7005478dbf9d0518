import Mathlib
import BearerToken.Log.Line
import BearerToken.Proofs.Log.Template

/-!
# What the log keeps

The log has words of its own for some fields of an event. No event of this library uses one of
them, so none is refused and none is changed: its line has all its fields as they are, its name, its
logger, its level and the component, each under a name of its own. A higher severity leaves out
lines and changes none. An event of the application can come with positional arguments; its name
stays as it is if its percent signs are doubled.
-/

namespace BearerToken.Log

open Json (Value)

/-- The names of fields that mean something to the log. -/
def meantNames : List Text :=
  refusedNames ++ ownNames ++ [Text.ofString "_record", Text.ofString argumentsName,
    Text.ofString "component"]

/-- Fields that mean nothing to the log. -/
def Silent (fields : Members) : Prop := ∀ f ∈ fields, f.1 ∉ meantNames

theorem lookup_filter_ne (key name : Text) (members : Members) :
    (members.filter (·.1 ≠ key)).lookup name =
      if name = key then none else members.lookup name := by
  induction members with
  | nil => simp
  | cons m members ih =>
      obtain ⟨first, v⟩ := m
      by_cases dropped : first = key
      · subst dropped
        rw [List.filter_cons_of_neg (by simp), ih]
        split
        · rfl
        · next other => rw [List.lookup_cons, beq_false_of_ne other]
      · rw [List.filter_cons_of_pos (by simpa using dropped), List.lookup_cons, List.lookup_cons, ih]
        cases found : name == first with
        | false => rfl
        | true =>
            obtain rfl := eq_of_beq found
            exact (if_neg dropped).symm

/-- An event that names a logger of this library has the component, whatever it had before. What
else it has is left alone, as is all that any other event has. -/
theorem lookup_withComponent (logger : Text) (members : Members) (name : Text) :
    (withComponent logger members).lookup name =
      if rootLogger.isPrefixOf logger ∧ name = Text.ofString "component" then
        some (.string component)
      else members.lookup name := by
  rw [withComponent]
  by_cases own : rootLogger.isPrefixOf logger
  · rw [if_pos own, List.lookup_append, lookup_filter_ne, member]
    by_cases same : name = Text.ofString "component"
    · simp [own, same]
    · simp [same, List.lookup_cons, beq_false_of_ne same]
  · simp [own]

/-- A name with its percent signs doubled takes nothing from a list of arguments. -/
theorem withArguments_doubled {fields : Members} {v w : Value} {rest : List Value} (t : Text)
    (given : lookup fields argumentsName = some (.list (v :: w :: rest))) :
    withArguments (.text (Template.doubled t)) fields =
      .ok (.text t, fields.filter (·.1 ≠ Text.ofString argumentsName)) := by
  have arguments : argument (.list (v :: w :: rest)) = .ok (.list (v :: w :: rest)) := by
    cases v with
    | object members => cases members <;> rfl
    | _ => rfl
  have taken : filled (.list (v :: w :: rest)) (.text (Template.doubled t)) = .ok (.text t) := by
    rw [filled, Template.fill_doubled]
    rfl
  rw [withArguments, given]
  simp only [Value.isVoid, arguments, taken, bind, Except.bind]
  rfl

section Silent

variable {fields : Members} {name : Text} (silent : Silent fields)
include silent

theorem lookup_eq_none_of_silent (meant : name ∈ meantNames) : fields.lookup name = none := by
  rw [List.lookup_eq_none_iff]
  intro f listed
  rw [bne_iff_ne]
  rintro rfl
  exact silent f listed meant

theorem filter_ownNames_of_silent : fields.filter (!ownNames.contains ·.1) = fields := by
  refine List.filter_eq_self.mpr fun f listed => ?_
  rw [Bool.not_eq_true', Bool.eq_false_iff, ne_eq, List.contains_iff_mem]
  intro own
  exact silent f listed (List.mem_append_left _ (List.mem_append_right _ own))

theorem checkNames_of_silent : checkNames fields = .ok () := by
  have none : fields.find? (fun f => refusedNames.contains f.1) = none := by
    rw [List.find?_eq_none]
    intro f listed refused
    have refused : f.1 ∈ refusedNames := List.contains_iff_mem.mp refused
    exact silent f listed (List.mem_append_left _ (List.mem_append_left _ refused))
  rw [checkNames, none]

theorem checkRecord_of_silent : checkRecord fields = .ok () := by
  rw [checkRecord, lookup, lookup_eq_none_of_silent silent (by decide +kernel)]

theorem withArguments_of_silent (event : Value) :
    withArguments event fields = .ok (event, fields) := by
  rw [withArguments, lookup, lookup_eq_none_of_silent silent (by decide +kernel)]

/-- An event whose fields mean nothing to the log is not refused. -/
theorem line?_of_silent (least : Nat) (logger : Text) (level : Level) (event : Value) :
    line? least logger level event fields =
      .ok (if level.number < least then none else some (line logger level event fields)) := by
  rw [line?, checkNames_of_silent silent, checkRecord_of_silent silent,
    withArguments_of_silent silent]
  by_cases slight : level.number < least
  · simp [slight, bind, Except.bind, pure, Except.pure]
  · simp [slight, bind, Except.bind, pure, Except.pure]

end Silent

/-- The names of the fields that events of this library have. -/
def fieldNames : List String :=
  ["token_id", "kind", "label", "principal_type", "reason", "detail", "from_kind", "expires_at",
    "error", "expires_after_seconds", "store", "retention_seconds", "signature_version"]

theorem name_mem_fieldNames (e : Event) : ∀ f ∈ e.fields, f.1 ∈ fieldNames := by
  cases e <;> simp [Event.fields, Event.idField, fieldNames]

theorem silent_fieldsOf (e : Event) : Silent (fieldsOf e) := by
  have silent : ∀ name ∈ fieldNames, Text.ofString name ∉ meantNames := by decide +kernel
  intro f listed
  obtain ⟨field, inside, rfl⟩ := List.mem_map.mp listed
  exact silent field.1 (name_mem_fieldNames e field inside)

/-- What the log itself says of an event of this library. -/
def added (e : Event) : Members :=
  [member "event" (.string e.name), member "logger" (.text rootLogger),
    member "level" (.string e.level.name), member "component" (.string component)]

/-- The line of an event of this library. -/
def lineOf (e : Event) : Members := fieldsOf e ++ added e

theorem line_eq_lineOf (e : Event) :
    line rootLogger e.level (.string e.name) (fieldsOf e) = lineOf e := by
  have silent := silent_fieldsOf e
  have own : rootLogger.isPrefixOf rootLogger = true := by decide +kernel
  have fields : (fieldsOf e).filter (·.1 ≠ Text.ofString "component") = fieldsOf e := by
    refine List.filter_eq_self.mpr fun f listed => decide_eq_true fun same => ?_
    exact silent f listed (same ▸ by decide +kernel)
  have others : (added e).dropLast.filter (·.1 ≠ Text.ofString "component") =
      (added e).dropLast := by
    simp [added, member]
  rw [line, filter_ownNames_of_silent silent, withComponent, if_pos own, List.append_assoc,
    List.filter_append]
  · have both := congrArg₂ (· ++ · ++ [member "component" (.string component)]) fields others
    exact both.trans (List.append_assoc ..)
  · nofun

/-- No event of this library is refused; its line is left out only for its level. -/
theorem emitted?_eq (least : Nat) (e : Event) :
    emitted? least e = .ok (if e.level.number < least then none else some (lineOf e)) := by
  rw [emitted?, line?_of_silent (silent_fieldsOf e), line_eq_lineOf]

/-- The members of a line have names of their own. -/
theorem nodup_lineOf (e : Event) : ((lineOf e).map Prod.fst).Nodup := by
  have own : (e.fields.map Prod.fst).Nodup := by
    cases e <;> simp [Event.fields, Event.idField]
  have texts : (fieldsOf e).map Prod.fst = (e.fields.map Prod.fst).map Text.ofString := by
    rw [fieldsOf, List.map_map, List.map_map]
    rfl
  have meant : ∀ name ∈ (added e).map Prod.fst, name ∈ meantNames := by
    have listed : ∀ name ∈ ["event", "logger", "level", "component"],
        Text.ofString name ∈ meantNames := by
      decide +kernel
    simpa [added, member] using listed
  have apart : ((added e).map Prod.fst).Nodup := by
    have listed : (["event", "logger", "level", "component"].map Text.ofString).Nodup := by
      decide +kernel
    exact listed
  rw [lineOf, List.map_append, List.nodup_append]
  refine ⟨?_, apart, ?_⟩
  · rw [texts]
    exact own.map fun _ _ => Text.ofString_inj.mp
  · rintro name listed _ trails rfl
    obtain ⟨f, inside, rfl⟩ := List.mem_map.mp listed
    exact silent_fieldsOf e f inside (meant f.1 trails)

theorem lines_eq (least : Nat) (events : List Event) :
    lines least events = (events.filter fun e => least ≤ e.level.number).map lineOf := by
  rw [lines, ← List.filterMap_eq_map, List.filterMap_filter]
  refine List.filterMap_congr fun e _ => ?_
  rw [emitted?_eq]
  by_cases slight : e.level.number < least
  · simp [slight, Except.toOption]
  · simp [slight, Except.toOption, Nat.le_of_not_lt slight]

/-- With a higher least severity lines are left out, and none is changed or added. -/
theorem lines_sublist {least least' : Nat} (higher : least ≤ least') (events : List Event) :
    List.Sublist (lines least' events) (lines least events) := by
  rw [lines_eq, lines_eq]
  refine List.Sublist.map lineOf (List.monotone_filter_right events fun e kept => ?_)
  simpa using higher.trans (of_decide_eq_true kept)

end BearerToken.Log
