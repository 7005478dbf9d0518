import BearerToken.Codec

/-!
# Expiration policy

How long the tokens of each kind live, and how long their records are kept. A token is honoured
while both hold: the time is not past its creation plus the lifetime of its kind, and not past the
expiry in its text, where there is one. The lifetime is the one configured now, so shortening it
retires tokens whose text was signed with a longer one.
-/

namespace BearerToken

/-- Lifetimes by kind and the retention of records, all in milliseconds. -/
structure Policy where
  ttlFor : Kind → Int
  retentionMs : Int

namespace Policy

def default : Policy := ⟨Kind.defaultTtlMs, Kind.longAgeMs⟩

instance : Inhabited Policy := ⟨default⟩

/-- A positive override counts; any other keeps what is the default. -/
def positiveOr (override : Option Int) (otherwise : Int) : Int :=
  match override with
  | some n => if 0 < n then n else otherwise
  | none => otherwise

/-- The default policy with overrides. -/
def withOverrides (ttls : Kind → Option Int) (retentionMs : Option Int) : Policy where
  ttlFor k := positiveOr (ttls k) k.defaultTtlMs
  retentionMs := positiveOr retentionMs Kind.longAgeMs

/-- The retention in whole seconds. -/
def retentionSeconds (p : Policy) : Int := p.retentionMs / 1000

/-- The expiry that a token of this kind embeds when it is issued under this policy. -/
def embeddedExpiry (p : Policy) (kind : Kind) (id : TokenId) : Option Int :=
  if kind.embedsExpiry then some (id.timestampMs + p.ttlFor kind) else none

/-- Whether an expiry lies before the time; only the kinds that embed one have it. -/
def pastExpiry (kind : Kind) (expiresAt : Option Int) (nowMs : Int) : Bool :=
  kind.embedsExpiry && expiresAt.any (· < nowMs)

/-- Both limits, the lifetime of the kind first. -/
def checkFields (p : Policy) (kind : Kind) (id : TokenId) (expiresAt : Option Int) (nowMs : Int) :
    Except Rejection Unit :=
  if id.timestampMs + p.ttlFor kind < nowMs then .error (.expired kind .ttl)
  else if pastExpiry kind expiresAt nowMs then .error (.expired kind .embedded)
  else .ok ()

def check (p : Policy) (d : Decoded) (nowMs : Int) : Except Rejection Unit :=
  p.checkFields d.kind d.id d.expiresAt nowMs

def isValid (p : Policy) (kind : Kind) (id : TokenId) (expiresAt : Option Int) (nowMs : Int) :
    Bool :=
  (p.checkFields kind id expiresAt nowMs).isOk

theorem pastExpiry_eq_false_iff {kind : Kind} {expiresAt : Option Int} {nowMs : Int} :
    pastExpiry kind expiresAt nowMs = false ↔
      (kind.embedsExpiry → ∀ expires ∈ expiresAt, nowMs ≤ expires) := by
  cases expiresAt <;> simp [pastExpiry]

theorem checkFields_eq_ok_iff {p : Policy} {kind : Kind} {id : TokenId} {expiresAt : Option Int}
    {nowMs : Int} :
    p.checkFields kind id expiresAt nowMs = .ok () ↔
      nowMs ≤ id.timestampMs + p.ttlFor kind ∧
        (kind.embedsExpiry → ∀ expires ∈ expiresAt, nowMs ≤ expires) := by
  rw [← pastExpiry_eq_false_iff, checkFields]
  split
  · next late => simp [Int.not_le.mpr late]
  · next alive => simp [Int.not_lt.mp alive]

theorem isValid_eq_true_iff {p : Policy} {kind : Kind} {id : TokenId} {expiresAt : Option Int}
    {nowMs : Int} :
    p.isValid kind id expiresAt nowMs = true ↔ p.checkFields kind id expiresAt nowMs = .ok () := by
  rw [isValid]
  cases p.checkFields kind id expiresAt nowMs <;> simp [Except.isOk, Except.toBool]

@[simp] theorem ttlFor_withOverrides (ttls : Kind → Option Int) (retentionMs : Option Int)
    (k : Kind) :
    (withOverrides ttls retentionMs).ttlFor k = positiveOr (ttls k) k.defaultTtlMs := rfl

theorem positiveOr_pos (override : Option Int) {otherwise : Int} (h : 0 < otherwise) :
    0 < positiveOr override otherwise := by
  unfold positiveOr
  split
  · split <;> assumption
  · exact h

end Policy

end BearerToken
