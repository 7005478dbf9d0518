/-!
# Finite tables

A table is a list of keys with values in which a key stands at most where it was first written.
Writing a key that is present replaces its value and keeps its place; writing a new key appends it.
Stores, header maps, environments and persisted field maps are all tables, so the laws of reading
after writing are stated once, here.
-/

namespace BearerToken

/-- Keys with their values, in the order in which the keys were first written. -/
structure Table (κ : Type u) (α : Type v) where
  entries : List (κ × α)
  deriving Repr, DecidableEq

namespace Table

variable {κ : Type u} {α : Type v}

def empty : Table κ α := ⟨[]⟩

instance : EmptyCollection (Table κ α) := ⟨empty⟩

instance : Inhabited (Table κ α) := ⟨empty⟩

def isEmpty (t : Table κ α) : Bool := t.entries.isEmpty

def size (t : Table κ α) : Nat := t.entries.length

/-- Keeps the entries whose value passes the test. -/
def keep (t : Table κ α) (p : α → Bool) : Table κ α := ⟨t.entries.filter fun e => p e.2⟩

section Keys

variable [DecidableEq κ]

/-- The value at `k` in a list of entries: the first one counts. -/
def lookup (k : κ) : List (κ × α) → Option α
  | [] => none
  | (k', a) :: rest => if k' = k then some a else lookup k rest

/-- The entries with `k` set to `a`, at the place of `k` if it has one, else at the end. -/
def insertAt (k : κ) (a : α) : List (κ × α) → List (κ × α)
  | [] => [(k, a)]
  | (k', a') :: rest => if k' = k then (k, a) :: rest else (k', a') :: insertAt k a rest

def get? (t : Table κ α) (k : κ) : Option α := lookup k t.entries

def contains (t : Table κ α) (k : κ) : Bool := (t.get? k).isSome

def set (t : Table κ α) (k : κ) (a : α) : Table κ α := ⟨insertAt k a t.entries⟩

def erase (t : Table κ α) (k : κ) : Table κ α := ⟨t.entries.filter fun e => e.1 ≠ k⟩

/-- Writes the entries of `u` over `t`, in order. -/
def merge (t u : Table κ α) : Table κ α := u.entries.foldl (fun acc e => acc.set e.1 e.2) t

/-- A later entry for the same key replaces an earlier one. -/
def ofList (es : List (κ × α)) : Table κ α := merge empty ⟨es⟩

@[simp] theorem get?_empty (k : κ) : (empty : Table κ α).get? k = none := rfl

theorem lookup_insertAt (k k' : κ) (a : α) (es : List (κ × α)) :
    lookup k' (insertAt k a es) = if k = k' then some a else lookup k' es := by
  induction es with
  | nil => rfl
  | cons e rest ih =>
    obtain ⟨k₀, a₀⟩ := e
    by_cases h : k₀ = k
    · subst h
      by_cases h' : k₀ = k' <;> simp [insertAt, lookup, h']
    · by_cases h' : k₀ = k'
      · subst h'
        simp [insertAt, lookup, h, Ne.symm h]
      · simp [insertAt, lookup, h, h', ih]

theorem get?_set (t : Table κ α) (k k' : κ) (a : α) :
    (t.set k a).get? k' = if k = k' then some a else t.get? k' :=
  lookup_insertAt k k' a t.entries

@[simp] theorem get?_set_self (t : Table κ α) (k : κ) (a : α) : (t.set k a).get? k = some a := by
  simp [get?_set]

theorem get?_set_of_ne (t : Table κ α) {k k' : κ} (h : k ≠ k') (a : α) :
    (t.set k a).get? k' = t.get? k' := by
  simp [get?_set, h]

theorem get?_erase (t : Table κ α) (k k' : κ) :
    (t.erase k).get? k' = if k = k' then none else t.get? k' := by
  obtain ⟨es⟩ := t
  simp only [erase, get?]
  induction es with
  | nil => simp [lookup]
  | cons e rest ih =>
    obtain ⟨k₀, a₀⟩ := e
    by_cases h : k₀ = k
    · subst h
      by_cases h' : k₀ = k' <;> simp_all [lookup]
    · by_cases h' : k₀ = k'
      · subst h'
        simp [lookup, h, Ne.symm h]
      · simp_all [lookup]

end Keys

end Table

end BearerToken
