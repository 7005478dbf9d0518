import Mathlib
import BearerToken.Proofs.Action
import BearerToken.Proofs.Store.Memory

/-!
# The store in memory as a ledger

A ledger keeps what was last written at each identifier, with a deadline, and forgets it only when
it is told to. An entry past its deadline counts as absent; nothing sweeps it. The store in memory
removes such entries in three places, and no sequence of calls at times that do not go back can tell
it from a ledger: every call gives the same result and leaves the same log.
-/

namespace BearerToken

/-- A store whose records can also be deleted and counted. -/
structure Shelf (σ : Type) extends Store σ where
  delete : TokenId → Action σ Unit
  count : (nowMs : Int) → Action σ Nat

/-- The store in memory, with all its calls. -/
def Memory.shelf : Shelf Memory where
  toStore := Memory.store
  delete id := .onStore fun m => ((), m.delete id)
  count nowMs := .onStore fun m => m.size nowMs

/-- What was last written at each identifier, and until when it counts. -/
structure Ledger where
  entries : Table TokenId Entry

namespace Ledger

def empty : Ledger := ⟨.empty⟩

/-- The fields of an identifier, unless it has none or they are past their deadline. -/
def get? (l : Ledger) (nowMs : Int) (id : TokenId) : Option Fields :=
  match l.entries.get? id with
  | none => none
  | some e => if e.deadline ≤ nowMs then none else some e.fields

def write (l : Ledger) (nowMs : Int) (id : TokenId) (fields : Fields) (ttlSeconds : Int) : Ledger :=
  ⟨l.entries.set id ⟨fields, nowMs + ttlSeconds * 1000⟩⟩

def delete (l : Ledger) (id : TokenId) : Ledger := ⟨l.entries.erase id⟩

/-- As many identifiers have fields that count. -/
def count (l : Ledger) (nowMs : Int) : Nat := (l.entries.keep (nowMs < ·.deadline)).size

/-- The ledger as a store. -/
def shelf : Shelf Ledger where
  put nowMs id record ttlSeconds :=
    match Fields.persist record with
    | .ok fields => .onStore fun l => ((), l.write nowMs id fields ttlSeconds)
    | .error cause => .fail (.unwritable cause)
  get nowMs id := do
    match ← Action.onStore fun l => (l.get? nowMs id, l) with
    | none => return none
    | some fields => .ofReading fields.toRecord
  setAccessed nowMs id accessedMs ttlSeconds := do
    match ← Action.onStore fun l => (l.get? nowMs id, l) with
    | none => return ()
    | some fields =>
      if !Numeral.isWritable accessedMs then .fail (.unwritable .tooLong)
      let fields := fields.set Fields.accessedField (Numeral.write accessedMs)
      .onStore fun l => ((), l.write nowMs id fields ttlSeconds)
  delete id := .onStore fun l => ((), l.delete id)
  count nowMs := .onStore fun l => (l.count nowMs, l)

end Ledger

namespace Shelf

/-- A call of a store. -/
inductive Call where
  | put (id : TokenId) (record : Record) (ttlSeconds : Int)
  | get (id : TokenId)
  | setAccessed (id : TokenId) (accessedMs ttlSeconds : Int)
  | delete (id : TokenId)
  | count

/-- What a call gives. -/
inductive Answer where
  | done
  | record (found : Option Record)
  | count (n : Nat)

variable {σ : Type}

def perform (s : Shelf σ) (nowMs : Int) : Call → Action σ Answer
  | .put id record ttlSeconds => (fun _ => .done) <$> s.put nowMs id record ttlSeconds
  | .get id => .record <$> s.get nowMs id
  | .setAccessed id accessedMs ttlSeconds =>
    (fun _ => .done) <$> s.setAccessed nowMs id accessedMs ttlSeconds
  | .delete id => (fun _ => .done) <$> s.delete id
  | .count => .count <$> s.count nowMs

/-- A call and the time at which it is made. -/
structure Turn where
  nowMs : Int
  call : Call

/-- What each turn gives, and what the log holds after it. -/
def trace (s : Shelf σ) : List Turn → World σ → List (Except Failure Answer × List Event)
  | [], _ => []
  | turn :: rest, w =>
    let made := (s.perform turn.nowMs turn.call).run w
    (made.1, made.2.events) :: s.trace rest made.2

end Shelf

/-- A store in memory and a ledger that show the same from a time on. -/
structure Mirrors (nowMs : Int) (m : Memory) (l : Ledger) : Prop where
  once : m.Nodup
  single : l.entries.Nodup
  shows : ∀ id t, nowMs ≤ t → m.live? t id = l.get? t id

namespace Ledger

variable {l : Ledger} {nowMs t : Int}

theorem get?_eq (l : Ledger) (nowMs : Int) (id : TokenId) :
    l.get? nowMs id = ((l.entries.get? id).filter (nowMs < ·.deadline)).map Entry.fields := by
  rw [get?]
  cases l.entries.get? id with
  | none => rfl
  | some e =>
      by_cases past : e.deadline ≤ nowMs
      · simp [Option.filter, past]
      · simp [Option.filter, past, not_le.mp past]

theorem get?_write (l : Ledger) (nowMs : Int) (id other : TokenId) (fields : Fields)
    (ttl t : Int) :
    (l.write nowMs id fields ttl).get? t other =
      if id = other then if t < Memory.deadline nowMs ttl then some fields else none
      else l.get? t other := by
  rw [get?_eq, write, Table.get?_set, get?_eq]
  split
  · by_cases before : t < nowMs + ttl * 1000
    · simp [Option.filter, Memory.deadline, before]
    · simp [Option.filter, Memory.deadline, before]
  · rfl

theorem get?_delete (l : Ledger) (id other : TokenId) (t : Int) :
    (l.delete id).get? t other = if id = other then none else l.get? t other := by
  rw [get?_eq, delete, Table.get?_erase, get?_eq]
  split
  · rfl
  · rfl

end Ledger

namespace Mirrors

variable {nowMs t : Int} {m m' : Memory} {l : Ledger}

theorem empty (nowMs : Int) : Mirrors nowMs .empty .empty where
  once := Memory.nodup_empty
  single := Table.nodup_empty
  shows _ _ _ := rfl

theorem mono (mirrors : Mirrors nowMs m l) (later : nowMs ≤ t) : Mirrors t m l where
  once := mirrors.once
  single := mirrors.single
  shows id u after := mirrors.shows id u (later.trans after)

/-- A change that does not show leaves the ledger as it is. -/
theorem congr (mirrors : Mirrors nowMs m l) (once : m'.Nodup)
    (same : ∀ id t, nowMs ≤ t → m'.live? t id = m.live? t id) : Mirrors nowMs m' l where
  once
  single := mirrors.single
  shows id t later := (same id t later).trans (mirrors.shows id t later)

theorem sweep (mirrors : Mirrors nowMs m l) : Mirrors nowMs (m.sweep nowMs) l :=
  mirrors.congr mirrors.once.sweep fun id _ later => Memory.live?_sweep mirrors.once later id

theorem purge (mirrors : Mirrors nowMs m l) : Mirrors nowMs (m.purge nowMs) l :=
  mirrors.congr mirrors.once.purge fun id _ later => Memory.live?_purge mirrors.once later id

theorem dropExpired (mirrors : Mirrors nowMs m l) (id : TokenId) :
    Mirrors nowMs (m.dropExpired nowMs id) l :=
  mirrors.congr (mirrors.once.dropExpired id) fun other _ later =>
    Memory.live?_dropExpired later id other

theorem put (mirrors : Mirrors nowMs m l) (id : TokenId) (fields : Fields) (ttl : Int) :
    Mirrors nowMs (m.put nowMs id fields ttl) (l.write nowMs id fields ttl) where
  once := mirrors.once.put id fields ttl
  single := mirrors.single.set _ _
  shows other t later := by
    rw [Memory.live?_put mirrors.once later, Ledger.get?_write, mirrors.shows other t later]

theorem delete (mirrors : Mirrors nowMs m l) (id : TokenId) :
    Mirrors nowMs (m.delete id) (l.delete id) where
  once := mirrors.once.delete id
  single := mirrors.single.erase id
  shows other t later := by
    rw [Memory.live?_delete, Ledger.get?_delete, mirrors.shows other t later]

theorem setAccessed (mirrors : Mirrors nowMs m l) {id : TokenId} {fields : Fields}
    (live : m.live? nowMs id = some fields) (accessed ttl : Int) :
    Mirrors nowMs (m.setAccessed nowMs id accessed ttl)
      (l.write nowMs id (fields.set Fields.accessedField (Numeral.write accessed)) ttl) where
  once := mirrors.once.setAccessed id accessed ttl
  single := mirrors.single.set _ _
  shows other t later := by
    rw [Memory.live?_setAccessed later, Ledger.get?_write, live, Option.map_some,
      mirrors.shows other t later]

/-- The entries left by a sweep are as many as the ledger counts. -/
theorem size_eq (mirrors : Mirrors nowMs m l) : (m.size nowMs).1 = l.count nowMs := by
  have swept : (m.purge nowMs).entries.Nodup := mirrors.once.purge
  apply Table.size_eq_of_contains swept (mirrors.single.keep _)
  intro id
  have here := mirrors.shows id nowMs le_rfl
  rw [Memory.live?, Ledger.get?_eq] at here
  have present := congrArg Option.isSome here
  rw [Option.isSome_map, Option.isSome_map] at present
  rw [Table.contains, Table.contains, Table.get?_keep mirrors.single, Memory.purge,
    Table.get?_keep mirrors.once]
  exact present

end Mirrors

/-- Two actions that do the same on a store in memory and on a ledger: they give the same and log
the same, and what they leave shows the same. -/
def Agrees (nowMs : Int) {α : Type} (a : Action Memory α) (b : Action Ledger α) : Prop :=
  ∀ m l events, Mirrors nowMs m l →
    let made := a.run ⟨m, events⟩
    let made' := b.run ⟨l, events⟩
    made.1 = made'.1 ∧ made.2.events = made'.2.events ∧ Mirrors nowMs made.2.store made'.2.store

namespace Agrees

variable {nowMs : Int} {α β : Type} {a : Action Memory α} {b : Action Ledger α}

theorem iff_alike :
    Agrees nowMs a b ↔ Action.Alike (Mirrors nowMs) (Mirrors nowMs) a b fun _ => True := by
  constructor
  · intro agrees m l events mirrors
    obtain ⟨result, log, kept⟩ := agrees m l events mirrors
    refine ⟨(a.run ⟨m, events⟩).1, (a.run ⟨m, events⟩).2.store, (b.run ⟨l, events⟩).2.store,
      (a.run ⟨m, events⟩).2.events, rfl, ?_, kept, fun _ _ => trivial⟩
    rw [result, log]
  · intro alike m l events mirrors
    obtain ⟨result, m', l', log, made, made', kept, -⟩ := alike m l events mirrors
    rw [made, made']
    exact ⟨rfl, rfl, kept⟩

theorem bind {f : α → Action Memory β} {g : α → Action Ledger β} (first : Agrees nowMs a b)
    (rest : ∀ x, Agrees nowMs (f x) (g x)) : Agrees nowMs (a >>= f) (b >>= g) :=
  iff_alike.mpr ((iff_alike.mp first).andThen fun x _ => iff_alike.mp (rest x))

theorem map (f : α → β) (first : Agrees nowMs a b) : Agrees nowMs (f <$> a) (f <$> b) :=
  iff_alike.mpr ((iff_alike.mp first).map f fun _ _ => trivial)

theorem onStore {f : Memory → α × Memory} {g : Ledger → α × Ledger}
    (same : ∀ {m l}, Mirrors nowMs m l → (f m).1 = (g l).1 ∧ Mirrors nowMs (f m).2 (g l).2) :
    Agrees nowMs (.onStore f) (.onStore g) := by
  apply iff_alike.mpr
  apply Action.alike_onStore
  intro m l mirrors
  obtain ⟨result, kept⟩ := same mirrors
  exact ⟨result, kept, trivial⟩

theorem put (id : TokenId) (r : Record) (ttl : Int) :
    Agrees nowMs (Memory.shelf.put nowMs id r ttl) (Ledger.shelf.put nowMs id r ttl) := by
  simp only [Memory.shelf, Memory.store, Ledger.shelf]
  cases Fields.persist r with
  | ok fields => exact onStore fun mirrors => ⟨rfl, mirrors.put id fields ttl⟩
  | error cause => exact fun _ _ _ mirrors => ⟨rfl, rfl, mirrors.sweep⟩

theorem get (id : TokenId) :
    Agrees nowMs (Memory.shelf.get nowMs id) (Ledger.shelf.get nowMs id) := by
  simp only [Memory.shelf, Memory.store, Ledger.shelf]
  apply bind
  · exact onStore fun mirrors => ⟨mirrors.shows id nowMs le_rfl, mirrors.dropExpired id⟩
  · intro found
    cases found with
    | none => exact iff_alike.mpr (Action.alike_pure trivial)
    | some fields => exact iff_alike.mpr (Action.alike_ofReading fields.toRecord)

theorem setAccessed (id : TokenId) (accessed ttl : Int) :
    Agrees nowMs (Memory.shelf.setAccessed nowMs id accessed ttl)
      (Ledger.shelf.setAccessed nowMs id accessed ttl) := by
  intro m l events mirrors
  have here := mirrors.shows id nowMs le_rfl
  simp only [Memory.shelf, Memory.store, Ledger.shelf]
  rw [Action.run_bind_ok (Action.run_onStore _ _), Action.run_bind_ok (Action.run_onStore _ _)]
  cases live : m.live? nowMs id with
  | none =>
      rw [live] at here
      simp only [← here]
      have kept := mirrors.dropExpired id
      rw [← Memory.setAccessed_of_gone live accessed ttl] at kept
      exact ⟨rfl, rfl, kept⟩
  | some fields =>
      rw [live] at here
      simp only [← here]
      by_cases writable : Numeral.isWritable accessed
      · simp only [writable]
        exact ⟨rfl, rfl, mirrors.setAccessed live accessed ttl⟩
      · simp only [writable]
        exact ⟨rfl, rfl, mirrors⟩

theorem delete (id : TokenId) : Agrees nowMs (Memory.shelf.delete id) (Ledger.shelf.delete id) :=
  onStore fun mirrors => ⟨rfl, mirrors.delete id⟩

theorem count : Agrees nowMs (Memory.shelf.count nowMs) (Ledger.shelf.count nowMs) :=
  onStore fun mirrors => ⟨mirrors.size_eq, mirrors.purge⟩

theorem perform (call : Shelf.Call) :
    Agrees nowMs (Memory.shelf.perform nowMs call) (Ledger.shelf.perform nowMs call) := by
  cases call with
  | put id record ttl => exact (put id record ttl).map _
  | get id => exact (get id).map _
  | setAccessed id accessed ttl => exact (setAccessed id accessed ttl).map _
  | delete id => exact (delete id).map _
  | count => exact count.map _

end Agrees

variable {nowMs : Int} {m : Memory} {l : Ledger} {turns : List Shelf.Turn}

/-- From a store and a ledger that show the same, the same turns give the same. -/
theorem Mirrors.trace_eq (mirrors : Mirrors nowMs m l) (after : ∀ turn ∈ turns, nowMs ≤ turn.nowMs)
    (ordered : turns.Pairwise (·.nowMs ≤ ·.nowMs)) (events : List Event) :
    Memory.shelf.trace turns ⟨m, events⟩ = Ledger.shelf.trace turns ⟨l, events⟩ := by
  induction turns generalizing nowMs m l events with
  | nil => rfl
  | cons turn rest ih =>
      rw [List.pairwise_cons] at ordered
      have now := mirrors.mono (after turn List.mem_cons_self)
      obtain ⟨result, m', l', log, made, made', kept, -⟩ :=
        Agrees.iff_alike.mp (Agrees.perform turn.call) m l events now
      rw [Shelf.trace, Shelf.trace, made, made']
      rw [ih kept ordered.1 ordered.2]

/-- No calls at times that do not go back tell a store in memory from a ledger: not its sweeps, nor
what it removes when it is read or counted. -/
theorem Memory.trace_eq_ledger (ordered : turns.Pairwise (·.nowMs ≤ ·.nowMs)) :
    Memory.shelf.trace turns ⟨.empty, []⟩ = Ledger.shelf.trace turns ⟨.empty, []⟩ := by
  cases turns with
  | nil => rfl
  | cons turn rest =>
      have after : ∀ next ∈ turn :: rest, turn.nowMs ≤ next.nowMs := by
        rw [List.pairwise_cons] at ordered
        exact List.forall_mem_cons.mpr ⟨le_rfl, ordered.1⟩
      exact (Mirrors.empty turn.nowMs).trace_eq after ordered []

/-- An entry whose deadline was moved counts until the new one, and from then on no more. -/
theorem Memory.trace_eq_ledger_deadline :
    let id : TokenId := TokenId.generate 5 ⟨0, 0⟩
    let r : Record := .issued id none none .emptyObject
    let turns : List Shelf.Turn :=
      [⟨5, .put id r 1⟩, ⟨1004, .setAccessed id 1004 1⟩, ⟨2003, .get id⟩, ⟨2004, .count⟩,
        ⟨2004, .put id r (-1)⟩, ⟨2004, .get id⟩]
    let shown : Except Failure Shelf.Answer × List Event → Option Int
      | (.ok (.record found), _) => found.map Record.accessed
      | (.ok (.count n), _) => some n
      | _ => none
    turns.Pairwise (·.nowMs ≤ ·.nowMs) ∧
      (Memory.shelf.trace turns ⟨.empty, []⟩).map shown =
        [none, none, some 1004, some 0, none, none] := by
  intro id r turns shown
  have ordered : turns.Pairwise (·.nowMs ≤ ·.nowMs) := by decide
  refine ⟨ordered, ?_⟩
  rw [Memory.trace_eq_ledger ordered]
  decide +kernel

end BearerToken
