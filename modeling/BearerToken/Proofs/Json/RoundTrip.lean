import Mathlib
import BearerToken.Proofs.Json.Decimal
import BearerToken.Proofs.Json.Reread

/-!
# Writing and reading JSON

The canonical text of a value that can be written is read, and what comes back is the value with its
texts joined and its members in order. The induction is on the value: a text is read off the front of
whatever follows it, with room for its containers and as much fuel as it has characters.
-/

namespace BearerToken.Json

open Value

/-- The text of a value as code points. -/
def written (v : Value) : Text := Text.ofChars (writeChars v)

/-- What a value's text can start with, as against blanks and the marks between values. -/
def Opens (t : Text) : Prop := ∃ c rest, t = .char c :: rest ∧ c ∉ [' ', '\t', '\n', '\r', ']']

theorem Opens.append {t : Text} (opens : Opens t) (rest : Text) : Opens (t ++ rest) := by
  obtain ⟨c, behind, rfl, other⟩ := opens
  exact ⟨c, behind ++ rest, rfl, other⟩

theorem Opens.skipSpace {t : Text} (opens : Opens t) : skipSpace t = t := by
  obtain ⟨c, rest, rfl, other⟩ := opens
  simp only [List.mem_cons, List.not_mem_nil, or_false, not_or] at other
  simp [Json.skipSpace, isSpace, other]

/-- The marks between and behind values are no blanks. -/
theorem skipSpace_mark {c : Char} (mark : c ∈ [',', ':', '\x7d']) (t : Text) :
    skipSpace (.char c :: t) = .char c :: t := by
  simp only [List.mem_cons, List.not_mem_nil, or_false] at mark
  obtain rfl | rfl | rfl := mark <;> rfl

/-- What starts neither a string nor a container is a word or a number. -/
theorem readValue_plain [Limits] (fuel room : Nat) {c : CodePoint} (t : Text)
    (quote : c ≠ .char '"') (bracket : c ≠ .char '[') (brace : c ≠ .char '\x7b') :
    readValue fuel room (c :: t) = readPlain (c :: t) := by
  rw [readValue.eq_def]
  split
  · next heads => exact absurd (List.cons.inj heads).1 quote
  · next heads => exact absurd (List.cons.inj heads).1 bracket
  · next heads => exact absurd (List.cons.inj heads).1 brace
  · next heads => exact absurd (List.cons.inj heads).1 bracket
  · next heads => exact absurd (List.cons.inj heads).1 brace
  · rfl

theorem readValue_text [Limits] (fuel room : Nat) (t rest : Text) :
    readValue fuel room (Text.ofChars (writeText t) ++ rest) = .ok (.text t.joined, rest) := by
  have spelled : Text.ofChars (writeText t) ++ rest = .char '"' :: closed t rest := by
    simp [writeText, closed, Text.ofChars]
  rw [spelled, readValue.eq_def]
  simp only [readString_closed]
  rfl

theorem readValue_string [Limits] (fuel room : Nat) (s : String) (rest : Text) :
    readValue fuel room (Text.ofChars (writeText s) ++ rest) = .ok (.string s, rest) := by
  rw [readValue_text, Text.ofString, Text.joined_ofChars]
  rfl

/-- The text of a member. -/
def memberText (m : Text × Value) : List Char := writeText m.1 ++ ':' :: writeChars m.2

theorem writeChars_list (items : List Value) :
    writeChars (.list items) = '[' :: commas (items.map writeChars) ++ [']'] := by
  have texts : writeItems items = items.map writeChars := by
    induction items with
    | nil => rfl
    | cons v rest ih => rw [writeItems, ih, List.map_cons]
  rw [writeChars, texts]

theorem writeChars_object (members : List (Text × Value)) :
    writeChars (.object members) =
      '\x7b' :: commas ((ordered members).map memberText) ++ ['\x7d'] := by
  have texts : writeMembers members = members.map fun m => (m.1, writeChars m.2) := by
    induction members with
    | nil => rfl
    | cons m rest ih => rw [writeMembers, ih, List.map_cons]
  rw [writeChars, texts, ordered_map, List.map_map]
  rfl

/-- What a word or a number can start with, as against strings and containers. -/
def IsPlain (t : Text) : Prop :=
  ∃ c rest, t = .char c :: rest ∧ c ∉ [' ', '\t', '\n', '\r', ']', '"', '[', '\x7b']

theorem IsPlain.opens {t : Text} (plain : IsPlain t) : Opens t := by
  obtain ⟨c, rest, rfl, other⟩ := plain
  refine ⟨c, rest, rfl, ?_⟩
  intro listed
  apply other
  exact List.mem_append_left ['"', '[', '\x7b'] listed

theorem IsPlain.readValue [Limits] {t : Text} (plain : IsPlain t) (fuel room : Nat) (rest : Text) :
    readValue fuel room (t ++ rest) = readPlain (t ++ rest) := by
  obtain ⟨c, behind, rfl, other⟩ := plain
  apply readValue_plain
  all_goals
    rintro ⟨⟩
    exact other (by decide)

theorem isPlain_digit {t : Text} (first : DigitFirst t) : IsPlain t ∧ IsPlain (.char '-' :: t) := by
  obtain ⟨d, below, rest, rfl⟩ := first
  have symbol : ∀ d < 10, Text.hexDigit d ∉ [' ', '\t', '\n', '\r', ']', '"', '[', '\x7b'] := by
    decide
  exact ⟨⟨_, _, rfl, symbol d below⟩, ⟨'-', _, rfl, by decide⟩⟩

theorem isPlain_int (n : Int) : IsPlain (written (.int n)) := by
  obtain ⟨ws, digits, whole, -⟩ := isWhole_digits n.natAbs
  obtain ⟨d, ds, rfl⟩ := List.exists_cons_of_ne_nil whole.nonempty
  have first : DigitFirst (Numeral.symbols (d :: ds)) :=
    ⟨d, whole.below d List.mem_cons_self, _, rfl⟩
  obtain ⟨plain, negative⟩ := isPlain_digit first
  cases n with
  | ofNat n =>
      rwa [show written (.int (.ofNat n)) = Numeral.symbols (d :: ds) from
        congrArg Text.ofChars digits]
  | negSucc n =>
      rwa [show written (.int (.negSucc n)) = .char '-' :: Numeral.symbols (d :: ds) from
        congrArg (fun cs => Text.ofChars ('-' :: cs)) digits]

theorem isPlain_number (x : Binary64) : IsPlain (written (.number x)) := by
  cases x with
  | nan => exact ⟨_, _, rfl, by decide⟩
  | infinite negative => cases negative <;> exact ⟨_, _, rfl, by decide⟩
  | finite negative m e canonical =>
      obtain ⟨plain, signed⟩ := isPlain_digit (readMagnitude_body negative canonical).1
      cases negative with
      | false => exact plain
      | true => exact signed

theorem readPlain_null [Limits] (rest : Text) : readPlain ("null" ++ rest) = .ok (.null, rest) := rfl

theorem readPlain_bool [Limits] (b : Bool) (rest : Text) :
    readPlain (written (.bool b) ++ rest) = .ok (.bool b, rest) := by
  cases b <;> rfl

theorem opens_written (v : Value) : Opens (written v) := by
  cases v with
  | null => exact ⟨_, _, rfl, by decide⟩
  | bool b => cases b <;> exact ⟨_, _, rfl, by decide⟩
  | int n => exact (isPlain_int n).opens
  | number x => exact (isPlain_number x).opens
  | text t => exact ⟨'"', _, rfl, by decide⟩
  | uuid u => exact ⟨'"', _, rfl, by decide⟩
  | moment m => exact ⟨'"', _, rfl, by decide⟩
  | list items => exact ⟨'[', _, by rw [written, writeChars_list]; rfl, by decide⟩
  | object members => exact ⟨'\x7b', _, by rw [written, writeChars_object]; rfl, by decide⟩

/-- Reading a value's text off the front of a longer one. -/
def Reads [Limits] (room : Nat) (v : Value) : Prop :=
  ∀ fuel rest, (writeChars v).length ≤ fuel → Ends rest →
    readValue fuel room (written v ++ rest) = .ok (v.reread, rest)

/-- A list or an object takes one unit of fuel, and its elements are read with the rest. -/
theorem readValue_list [Limits] {fuel room : Nat} {t : Text} (opens : Opens t) :
    readValue (fuel + 1) (room + 1) (.char '[' :: t) =
      (readItems fuel room t).map fun r => (.list r.1, r.2) := by
  have blank := opens.skipSpace
  obtain ⟨c, rest, rfl, other⟩ := opens
  have bracket : c ≠ ']' := fun same => other (by simp [same])
  rw [readValue.eq_def]
  simp only [blank]
  split
  · next heads => exact absurd (CodePoint.char.inj (List.cons.inj heads).1) bracket
  · rfl

theorem readValue_object [Limits] {fuel room : Nat} {t : Text} :
    readValue (fuel + 1) (room + 1) (.char '\x7b' :: .char '"' :: t) =
      (readMembers fuel room (.char '"' :: t)).map fun r =>
        (.object (Table.ofList r.1).entries, r.2) := by
  rw [readValue.eq_def]
  rfl

theorem commas_cons {part : List Char} {rest : List (List Char)} (more : rest ≠ []) :
    commas (part :: rest) = part ++ ',' :: commas rest := by
  cases rest with
  | nil => exact absurd rfl more
  | cons next rest => rfl

theorem Opens.commas {part : List Char} (opens : Opens (Text.ofChars part))
    (parts : List (List Char)) (rest : Text) :
    Opens (Text.ofChars (Json.commas (part :: parts)) ++ rest) := by
  cases parts with
  | nil => exact opens.append rest
  | cons next parts =>
      rw [commas_cons (by simp), Text.ofChars_append, List.append_assoc]
      exact opens.append _

theorem opens_items {items : List Value} (nonempty : items ≠ []) (rest : Text) :
    Opens (Text.ofChars (commas (items.map writeChars)) ++ rest) := by
  obtain ⟨v, items, rfl⟩ := List.exists_cons_of_ne_nil nonempty
  exact (opens_written v).commas _ rest

theorem readItems_written [Limits] {room : Nat} {items : List Value} (nonempty : items ≠ [])
    (reads : ∀ v ∈ items, Reads room v) (rest : Text) :
    ∀ fuel, (commas (items.map writeChars)).length < fuel →
      readItems fuel room (Text.ofChars (commas (items.map writeChars)) ++ .char ']' :: rest) =
        .ok (items.map reread, rest) := by
  induction items with
  | nil => exact absurd rfl nonempty
  | cons v items ih =>
      intro fuel enough
      obtain _ | fuel := fuel
      · exact absurd enough (Nat.not_lt_zero _)
      have first := reads v List.mem_cons_self
      by_cases more : items = []
      · subst more
        have read := first fuel (.char ']' :: rest) (Nat.le_of_lt_succ enough) (by simp [Ends])
        rw [readItems.eq_def]
        simp only [List.map_cons, List.map_nil, commas]
        rw [show Text.ofChars (writeChars v) = written v from rfl, read]
        rfl
      · have others : items.map writeChars ≠ [] := by simpa using more
        rw [List.map_cons, commas_cons others] at enough ⊢
        rw [List.length_append, List.length_cons] at enough
        have behind := ih more (fun w inside => reads w (List.mem_cons_of_mem _ inside)) fuel
          (by omega)
        have starts := opens_items more (.char ']' :: rest)
        have read := first fuel
          (.char ',' :: (Text.ofChars (commas (items.map writeChars)) ++ .char ']' :: rest))
          (by omega) (by simp [Ends])
        rw [readItems.eq_def]
        simp only [Text.ofChars_append, Text.ofChars_cons, List.append_assoc, List.cons_append]
        rw [show Text.ofChars (writeChars v) = written v from rfl, read]
        simp only [bind, Except.bind, skipSpace_mark (c := ',') (by simp), starts.skipSpace, behind]
        rfl

theorem memberText_append (m : Text × Value) (rest : Text) :
    Text.ofChars (memberText m) ++ rest =
      .char '"' :: closed m.1 (.char ':' :: (written m.2 ++ rest)) := by
  simp [memberText, writeText, closed, written, Text.ofChars]

section Member

variable [Limits] {fuel room : Nat} {m : Text × Value} (reads : Reads room m.2)
  (enough : (writeChars m.2).length ≤ fuel) (rest : Text)

include reads enough

/-- The last member of an object. -/
theorem readMembers_last :
    readMembers (fuel + 1) room (Text.ofChars (memberText m) ++ .char '\x7d' :: rest) =
      .ok ([(m.1.joined, m.2.reread)], rest) := by
  have ends : Ends (.char '\x7d' :: rest) := by simp [Ends]
  rw [memberText_append, readMembers.eq_def]
  simp only [readString_closed, bind, Except.bind, skipSpace_mark (c := ':') (by simp),
    ((opens_written m.2).append _).skipSpace, reads fuel _ enough ends, skipSpace_mark (c := '\x7d') (by simp)]

/-- A member with more of them behind it. -/
theorem readMembers_more :
    readMembers (fuel + 1) room (Text.ofChars (memberText m) ++ .char ',' :: rest) =
      (readMembers fuel room (skipSpace rest)).map fun r =>
        ((m.1.joined, m.2.reread) :: r.1, r.2) := by
  have ends : Ends (.char ',' :: rest) := by simp [Ends]
  rw [memberText_append, readMembers.eq_def]
  simp only [readString_closed, bind, Except.bind, skipSpace_mark (c := ':') (by simp),
    ((opens_written m.2).append _).skipSpace, reads fuel _ enough ends, skipSpace_mark (c := ',') (by simp)]
  cases readMembers fuel room (skipSpace rest) <;> rfl

end Member

theorem quote_members {members : List (Text × Value)} (nonempty : members ≠ []) (rest : Text) :
    ∃ t, Text.ofChars (commas (members.map memberText)) ++ rest = .char '"' :: t := by
  obtain ⟨m, members, rfl⟩ := List.exists_cons_of_ne_nil nonempty
  cases members with
  | nil => exact ⟨_, rfl⟩
  | cons _ _ => exact ⟨_, rfl⟩

theorem readMembers_written [Limits] {room : Nat} {members : List (Text × Value)}
    (nonempty : members ≠ []) (reads : ∀ m ∈ members, Reads room m.2) (rest : Text) :
    ∀ fuel, (commas (members.map memberText)).length < fuel →
      readMembers fuel room
          (Text.ofChars (commas (members.map memberText)) ++ .char '\x7d' :: rest) =
        .ok (members.map fun m => (m.1.joined, m.2.reread), rest) := by
  induction members with
  | nil => exact absurd rfl nonempty
  | cons m members ih =>
      intro fuel enough
      obtain _ | fuel := fuel
      · exact absurd enough (Nat.not_lt_zero _)
      have reading := reads m List.mem_cons_self
      have length : (memberText m).length = (writeText m.1).length + (writeChars m.2).length + 1 := by
        simp [memberText, Nat.add_assoc]
      by_cases more : members = []
      · subst more
        simp only [List.map_cons, List.map_nil, commas] at enough ⊢
        exact readMembers_last reading (by omega) rest
      · have others : members.map memberText ≠ [] := by simpa using more
        rw [List.map_cons, commas_cons others] at enough ⊢
        rw [List.length_append, List.length_cons] at enough
        have behind := ih more (fun n inside => reads n (List.mem_cons_of_mem _ inside)) fuel
          (by omega)
        obtain ⟨t, quoted⟩ := quote_members more (.char '\x7d' :: rest)
        have starts : Opens
            (Text.ofChars (commas (members.map memberText)) ++ .char '\x7d' :: rest) :=
          ⟨'"', t, quoted, by decide⟩
        rw [Text.ofChars_append, Text.ofChars_cons, List.append_assoc, List.cons_append,
          readMembers_more reading (by omega), starts.skipSpace, behind]
        rfl

theorem reads_list [Limits] {room : Nat} {items : List Value} (reads : ∀ v ∈ items, Reads room v) :
    Reads (room + 1) (.list items) := by
  intro fuel rest enough ends
  have spelled : written (.list items) ++ rest = .char '[' ::
      (Text.ofChars (commas (items.map writeChars)) ++ .char ']' :: rest) := by
    simp [written, writeChars_list, Text.ofChars]
  rw [writeChars_list, List.cons_append, List.length_cons, List.length_append] at enough
  obtain _ | fuel := fuel
  · exact absurd enough (Nat.not_succ_le_zero _)
  rw [spelled, reread_list]
  by_cases empty : items = []
  · subst empty
    rfl
  · have inside : (commas (items.map writeChars)).length < fuel := by
      simp at enough
      omega
    rw [readValue_list (opens_items empty _), readItems_written empty reads rest fuel inside]
    rfl

theorem reads_object [Limits] {room : Nat} {members : List (Text × Value)}
    (reads : ∀ m ∈ ordered members, Reads room m.2) : Reads (room + 1) (.object members) := by
  intro fuel rest enough ends
  have spelled : written (.object members) ++ rest = .char '\x7b' ::
      (Text.ofChars (commas ((ordered members).map memberText)) ++ .char '\x7d' :: rest) := by
    simp [written, writeChars_object, Text.ofChars]
  rw [writeChars_object, List.cons_append, List.length_cons, List.length_append] at enough
  obtain _ | fuel := fuel
  · exact absurd enough (Nat.not_succ_le_zero _)
  rw [spelled, reread_object]
  by_cases empty : ordered members = []
  · rw [empty]
    rfl
  · have inside : (commas ((ordered members).map memberText)).length < fuel := by
      simp at enough
      omega
    have inner := readMembers_written empty reads rest fuel inside
    obtain ⟨t, quoted⟩ := quote_members empty (.char '\x7d' :: rest)
    rw [quoted] at inner ⊢
    rw [readValue_object, inner]
    rfl

/-- The text of a value is read off the front of what follows it. -/
theorem reads_written [Limits] {room : Nat} {v : Value} (writable : fault? room v = none) :
    Reads room v := by
  induction v using induct generalizing room with
  | null =>
      intro fuel rest enough ends
      have plain : IsPlain (written .null) := ⟨_, _, rfl, by decide⟩
      rw [plain.readValue]
      exact readPlain_null rest
  | bool b =>
      intro fuel rest enough ends
      have plain : IsPlain (written (.bool b)) := by cases b <;> exact ⟨_, _, rfl, by decide⟩
      rw [plain.readValue]
      exact readPlain_bool b rest
  | int n =>
      intro fuel rest enough ends
      have short : Numeral.isWritable n := by
        by_contra long
        rw [fault?, if_neg long] at writable
        exact absurd writable (by simp)
      rw [(isPlain_int n).readValue]
      exact readPlain_chars short ends
  | number x =>
      intro fuel rest enough ends
      rw [(isPlain_number x).readValue]
      exact readPlain_number x ends
  | text t =>
      intro fuel rest enough ends
      exact readValue_text fuel room t rest
  | uuid u =>
      intro fuel rest enough ends
      exact readValue_string fuel room u.canonical rest
  | moment m =>
      intro fuel rest enough ends
      exact readValue_string fuel room m.plain rest
  | list items ih =>
      cases room with
      | zero => exact absurd writable (by simp [fault?])
      | succ room =>
          rw [fault_list] at writable
          exact reads_list fun v inside => ih v inside (writable v inside)
  | object members ih =>
      cases room with
      | zero => exact absurd writable (by simp [fault?])
      | succ room =>
          rw [fault_object] at writable
          exact reads_object fun m inside =>
            ih m (mem_of_mem_ordered inside) (writable m inside)

/-- The canonical text of a value is read. -/
theorem read_write [Limits] {v : Value} (writable : fault? Limits.depth v = none) :
    read (write v) = .ok v.reread := by
  have spelled : Text.ofString (write v) = written v := Text.ofString_ofList _
  have enough : (writeChars v).length ≤ 2 * (written v).length + 1 := by
    simp only [written, Text.ofChars, List.length_map]
    omega
  have reading := reads_written writable _ [] enough ends_nil
  rw [List.append_nil] at reading
  rw [spelled, read, (opens_written v).skipSpace, reading]
  rfl

end BearerToken.Json
