import Mathlib
import BearerToken.Proofs.Json.RoundTrip

/-!
# Reading a report

A report is the text of one object: what is read of it are its members in their order. It differs
from the canonical text in its blanks, a line end and an indentation before each member and a blank
behind each colon, so its members are read by one induction over its lines.
-/

namespace BearerToken

@[simp] theorem Text.joined_ofString (s : String) : joined (ofString s) = ofString s :=
  joined_ofChars _

namespace Json

open Value

/-- The line of a member without a comma, behind the end of the line before. -/
def memberLine (m : String × Value) : Text :=
  .char '\n' :: Text.ofChars (reportLines.reportLine m.1 m.2)

/-- The lines of a report. -/
def reportBody (members : List (String × Value)) : Text :=
  Text.ofChars ((reportLines members).flatMap ('\n' :: ·))

theorem memberLine_append (m : String × Value) (rest : Text) :
    memberLine m ++ rest = .char '\n' :: .char ' ' :: .char ' ' :: .char '"' ::
      closed m.1 (.char ':' :: .char ' ' :: (written m.2 ++ rest)) := by
  simp [memberLine, reportLines.reportLine, writeText, closed, written, Text.ofChars]

theorem skipSpace_indented (t : Text) :
    skipSpace (.char '\n' :: .char ' ' :: .char ' ' :: .char '"' :: t) = .char '"' :: t := rfl

theorem skipSpace_value (v : Value) (rest : Text) :
    skipSpace (.char ' ' :: (written v ++ rest)) = written v ++ rest :=
  ((opens_written v).append rest).skipSpace

theorem reportBody_singleton (m : String × Value) : reportBody [m] = memberLine m := by
  simp [reportBody, memberLine, reportLines]

theorem reportBody_cons {members : List (String × Value)} (more : members ≠ [])
    (m : String × Value) :
    reportBody (m :: members) = memberLine m ++ .char ',' :: reportBody members := by
  obtain ⟨n, members, rfl⟩ := List.exists_cons_of_ne_nil more
  simp [reportBody, memberLine, reportLines]

theorem ofString_report (members : List (String × Value)) :
    Text.ofString (report members ++ "\n") =
      .char '\x7b' :: (reportBody members ++ [.char '\n', .char '\x7d', .char '\n']) := by
  rw [Text.ofString_append, report, Text.ofString_ofList]
  simp [reportBody, Text.ofString, Text.ofChars]

section Line

variable [Limits] {fuel room : Nat} {m : String × Value} (reads : Reads room m.2)
  (enough : (writeChars m.2).length ≤ fuel) (rest : Text)

include reads enough

/-- The last line of a report. -/
theorem readMembers_lastLine :
    readMembers (fuel + 1) room
        (skipSpace (memberLine m ++ .char '\n' :: .char '\x7d' :: rest)) =
      .ok ([(Text.ofString m.1, m.2.reread)], rest) := by
  have ends : Ends (.char '\n' :: .char '\x7d' :: rest) := by simp [Ends]
  have behind : skipSpace (.char '\n' :: .char '\x7d' :: rest) = .char '\x7d' :: rest := rfl
  rw [memberLine_append, skipSpace_indented, readMembers.eq_def]
  simp only [readString_closed, bind, Except.bind, skipSpace_mark (c := ':') (by simp),
    skipSpace_value, reads fuel _ enough ends, behind, Text.joined_ofString]

/-- A line with more of them behind it. -/
theorem readMembers_line :
    readMembers (fuel + 1) room (skipSpace (memberLine m ++ .char ',' :: rest)) =
      (readMembers fuel room (skipSpace rest)).map fun r =>
        ((Text.ofString m.1, m.2.reread) :: r.1, r.2) := by
  have ends : Ends (.char ',' :: rest) := by simp [Ends]
  rw [memberLine_append, skipSpace_indented, readMembers.eq_def]
  simp only [readString_closed, bind, Except.bind, skipSpace_mark (c := ':') (by simp),
    skipSpace_value, reads fuel _ enough ends, skipSpace_mark (c := ',') (by simp),
    Text.joined_ofString]
  cases readMembers fuel room (skipSpace rest) <;> rfl

end Line

/-- The members of a report are read line by line. -/
theorem readMembers_report [Limits] {room : Nat} {members : List (String × Value)}
    (nonempty : members ≠ []) (reads : ∀ m ∈ members, Reads room m.2) (rest : Text) :
    ∀ fuel, (reportBody members).length < fuel →
      readMembers fuel room
          (skipSpace (reportBody members ++ .char '\n' :: .char '\x7d' :: rest)) =
        .ok (members.map fun m => (Text.ofString m.1, m.2.reread), rest) := by
  induction members with
  | nil => exact absurd rfl nonempty
  | cons m members ih =>
      intro fuel enough
      obtain _ | fuel := fuel
      · exact absurd enough (Nat.not_lt_zero _)
      have reading := reads m List.mem_cons_self
      have length : (writeChars m.2).length < (memberLine m).length := by
        simp [memberLine, reportLines.reportLine, Text.ofChars]
        omega
      by_cases more : members = []
      · subst more
        rw [reportBody_singleton] at enough ⊢
        exact readMembers_lastLine reading (by omega) rest
      · rw [reportBody_cons more, List.length_append, List.length_cons] at enough
        have behind := ih more (fun n inside => reads n (List.mem_cons_of_mem _ inside)) fuel
          (by omega)
        rw [reportBody_cons more, List.append_assoc, List.cons_append,
          readMembers_line reading (by omega), behind]
        rfl

theorem quote_report {members : List (String × Value)} (nonempty : members ≠ []) (rest : Text) :
    ∃ t, skipSpace (reportBody members ++ rest) = .char '"' :: t := by
  obtain ⟨m, members, rfl⟩ := List.exists_cons_of_ne_nil nonempty
  by_cases more : members = []
  · subst more
    rw [reportBody_singleton, memberLine_append]
    exact ⟨_, skipSpace_indented _⟩
  · rw [reportBody_cons more, List.append_assoc, memberLine_append]
    exact ⟨_, skipSpace_indented _⟩

/-- An object whose first member stands behind blanks. -/
theorem readValue_blank_object [Limits] {fuel room : Nat} {t t' : Text}
    (quoted : skipSpace t = .char '"' :: t') :
    readValue (fuel + 1) (room + 1) (.char '\x7b' :: t) =
      (readMembers fuel room (skipSpace t)).map fun r =>
        (.object (Table.ofList r.1).entries, r.2) := by
  rw [readValue.eq_def]
  simp only [quoted]
  rfl

/-- What is read of a report is its members. -/
theorem read_report [Limits] {room : Nat} (depth : Limits.depth = room + 1)
    {members : List (String × Value)} (nonempty : members ≠ [])
    (once : (members.map Prod.fst).Nodup) (writable : ∀ m ∈ members, fault? room m.2 = none) :
    read (Text.ofString (report members ++ "\n")) =
      .ok (.object (members.map fun m => (Text.ofString m.1, m.2.reread))) := by
  have reads : ∀ m ∈ members, Reads room m.2 := fun m inside => reads_written (writable m inside)
  have keys : ((members.map fun m => (Text.ofString m.1, m.2.reread)).map Prod.fst).Nodup := by
    have injective : Function.Injective Text.ofString := fun _ _ => Text.ofString_inj.mp
    have texts := once.map injective
    rwa [List.map_map] at texts ⊢
  rw [ofString_report]
  generalize text : reportBody members ++ [.char '\n', .char '\x7d', .char '\n'] = body
  have enough : (reportBody members).length < 2 * (body.length + 1) := by
    rw [← text, List.length_append]
    omega
  have lines := readMembers_report nonempty reads [.char '\n'] _ enough
  obtain ⟨t, quoted⟩ := quote_report nonempty [.char '\n', .char '\x7d', .char '\n']
  rw [text] at lines quoted
  have object : readValue (2 * (body.length + 1) + 1) (room + 1) (.char '\x7b' :: body) =
      .ok (.object (members.map fun m => (Text.ofString m.1, m.2.reread)), [.char '\n']) := by
    rw [readValue_blank_object quoted, lines, Except.map, Table.ofList_entries keys]
  have opening : skipSpace (.char '\x7b' :: body) = .char '\x7b' :: body := rfl
  rw [read, depth, opening, List.length_cons, object]
  rfl

end Json

end BearerToken
