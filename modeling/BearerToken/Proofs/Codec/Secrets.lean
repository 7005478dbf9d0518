import Mathlib
import BearerToken.Proofs.Codec.Collision

/-!
# One signature under two secrets

In the first format nothing marks where the secret ends and the decimal of the expiry begins. The
tag and the identifier in front of them have fixed widths, so what is signed under two secrets for
two tokens can only be the same bytes if kind and identifier agree. Then the longer secret is the
shorter one with the front of a decimal behind it, and the expiry that the longer secret signs is
the rest of that decimal. Such pairs are easily found, so the message by itself does not separate
secrets; but this is the one way around a collision of the digest.
-/

namespace BearerToken

/-- The longer secret takes the front of the decimal that follows the shorter one, and the rest is
a decimal again. -/
structure Borrows (short long : String) (whole rest : Int) (moved : List Char) : Prop where
  secret : long.toList = short.toList ++ moved
  decimal : Numeral.chars whole = moved ++ Numeral.chars rest
  nonempty : moved ≠ []
  length : moved.length ≤ 19
  run : Numeral.IsSignedRun moved
  unsigned : 0 ≤ rest

/-- Two secrets and two expiries of which one secret borrows from the other's expiry. -/
def Overlap (s s' : String) (expires expires' : Int) : Prop :=
  ∃ moved, Borrows s s' expires expires' moved ∨ Borrows s' s expires' expires moved

/-- Two inputs of one value. -/
def Collide (digest : Bytes → Bytes) (m m' : Bytes) : Prop := m ≠ m' ∧ digest m = digest m'

/-- The length of what is moved follows from the width of the expiry, as some of its decimal is
left; that it is a sign and digits follows from what a decimal consists of. -/
theorem borrows_of_cut {short long : String} {whole rest : Int} {moved : List Char}
    (differ : short ≠ long) (low : -2 ^ 63 ≤ whole) (high : whole < 2 ^ 63)
    (secret : long.toList = short.toList ++ moved)
    (decimal : Numeral.chars whole = moved ++ Numeral.chars rest) :
    Borrows short long whole rest moved := by
  have nonempty : moved ≠ [] := by
    rintro rfl
    rw [List.append_nil] at secret
    exact differ (String.toList_inj.mp secret.symm)
  obtain ⟨run, unsigned⟩ := Numeral.front_of_chars nonempty decimal
  refine ⟨secret, decimal, nonempty, ?_, run, unsigned⟩
  have total := Numeral.length_chars_le low high
  have left : 0 < (Numeral.chars rest).length := List.length_pos_iff.mpr (Numeral.chars_ne_nil rest)
  rw [decimal, List.length_append] at total
  omega

theorem Borrows.append_eq {short long : String} {whole rest : Int} {moved : List Char}
    (h : Borrows short long whole rest moved) :
    short.toList ++ Numeral.chars whole = long.toList ++ Numeral.chars rest := by
  rw [h.secret, h.decimal, List.append_assoc]

theorem append_eq_iff_overlap {s s' : String} (differ : s ≠ s') {expires expires' : Int}
    (range : -2 ^ 63 ≤ expires ∧ expires < 2 ^ 63)
    (range' : -2 ^ 63 ≤ expires' ∧ expires' < 2 ^ 63) :
    s.toList ++ Numeral.chars expires = s'.toList ++ Numeral.chars expires' ↔
      Overlap s s' expires expires' := by
  constructor
  · intro same
    obtain ⟨moved, secret, decimal⟩ | ⟨moved, secret, decimal⟩ := List.append_eq_append_iff.mp same
    · exact ⟨moved, .inl (borrows_of_cut differ range.1 range.2 secret decimal)⟩
    · exact ⟨moved, .inr (borrows_of_cut differ.symm range'.1 range'.2 secret decimal)⟩
  · rintro ⟨moved, borrows | borrows⟩
    · exact borrows.append_eq
    · exact borrows.append_eq.symm

namespace Codec

/-- What a codec signs as the expiry of a kind: one that fits the payload, or the sentinel. -/
structure Signable (kind : Kind) (expires : Int) : Prop where
  fits : Fits kind expires
  absent : kind.embedsExpiry = false → expires = sentinel

theorem Signable.range {kind : Kind} {expires : Int} (h : Signable kind expires) :
    -2 ^ 63 ≤ expires ∧ expires < 2 ^ 63 := by
  cases embeds : kind.embedsExpiry with
  | false =>
      rw [h.absent embeds]
      decide
  | true => exact h.fits embeds

theorem Verified.signable {c : Codec} {w : Text} {d : Decoded} {payload body : Bytes}
    (h : Verified c w d payload body) : Signable d.kind (d.expiresAt.getD sentinel) := by
  have shares : SharesSecret c { c with version := d.version } := ⟨rfl, rfl⟩
  refine ⟨(payload_of_verified h shares rfl h.expiresAt_eq).2, fun absent => ?_⟩
  have none : d.expiresAt = none := by simpa [embedded, absent] using h.expiresAt_eq
  rw [none]
  rfl

/-- Two messages under different secrets are equal only for one kind and identifier, and with an
overlap. -/
theorem message_eq_iff_overlap {c c' : Codec} (differ : c.secret ≠ c'.secret) {kind kind' : Kind}
    {id id' : TokenId} {expires expires' : Int} (signable : Signable kind expires)
    (signable' : Signable kind' expires') :
    c.message .plain kind id expires = c'.message .plain kind' id' expires' ↔
      kind = kind' ∧ id = id' ∧ kind.embedsExpiry ∧
        Overlap c.secret c'.secret expires expires' := by
  constructor
  · intro same
    obtain ⟨rfl, rfl, ends⟩ := parts_of_message_eq same
    refine ⟨rfl, rfl, ?_, ?_⟩
    · -- Without an embedded expiry both messages end in the sentinel, so the secrets are the same.
      by_contra absent
      rw [Bool.not_eq_true] at absent
      rw [signable.absent absent, signable'.absent absent] at ends
      exact differ (String.toList_inj.mp (List.append_cancel_right ends))
    · exact (append_eq_iff_overlap differ signable.range signable'.range).mp ends
  · rintro ⟨rfl, rfl, -, overlap⟩
    have ends := (append_eq_iff_overlap differ signable.range signable'.range).mpr overlap
    refine congrArg Bytes.ofString (String.toList_inj.mp ?_)
    simp only [toList_messageText, inner, ends]

/-- A signature is good for another token text where the messages agree, under whatever secrets. -/
theorem decode_of_message_eq {c c' : Codec} (shared : c'.digests = c.digests)
    (accepts : c'.acceptLegacy) {kind : Kind} {id : TokenId} {expires expires' : Int}
    (fits : Fits kind expires')
    (same : c.message .plain kind id expires =
      c'.message .plain kind id (expiryParts kind expires').1) :
    c'.decode (spell kind (front kind id expires' ++ c.sign .plain kind id expires)) =
      .ok ⟨kind, id, embedded kind expires', .plain⟩ := by
  let writer : Codec := { c' with version := .plain }
  have shares : SharesSecret c' writer := ⟨rfl, rfl⟩
  have shares' : SharesSecret writer c' := ⟨rfl, rfl⟩
  have signature : writer.sign .plain kind id (expiryParts kind expires').1 =
      c.sign .plain kind id expires := by
    rw [shares.sign_eq, sign, sign, shared, same]
  have payload : writer.payload kind id expires' =
      front kind id expires' ++ c.sign .plain kind id expires := by
    rw [payload_eq, show writer.version = .plain from rfl, signature, marker, List.nil_append]
  rw [← payload]
  exact decode_payload shares' fits id fun _ => accepts

/-- The digit that ends the longer secret stands in front of the other expiry. What the one codec
has signed, the other one accepts with the expiry three centuries later. -/
theorem message_eq_of_digit_moved :
    let c : Codec := ⟨"s1", by decide, .plain, true, .standard⟩
    let c' : Codec := ⟨"s", by decide, .plain, true, .standard⟩
    let id : TokenId := .generate 1700000000000 ⟨0, 0⟩
    let expires : Int := 1700086400000
    let expires' : Int := 11700086400000
    c.secret ≠ c'.secret ∧ Signable .access expires ∧ Signable .access expires' ∧
      c.message .plain .access id expires = c'.message .plain .access id expires' ∧
      c'.decode (spell .access (front .access id expires' ++ c.sign .plain .access id expires)) =
        .ok ⟨.access, id, some expires', .plain⟩ := by
  intro c c' id expires expires'
  have same : c.message .plain .access id expires = c'.message .plain .access id expires' := by
    decide +kernel
  have fits : Fits .access expires' := fun _ => by decide
  have shared : c'.digests = c.digests := rfl
  have accepts : c'.acceptLegacy := rfl
  exact ⟨by decide, ⟨fun _ => by decide, nofun⟩, ⟨fits, nofun⟩, same,
    decode_of_message_eq shared accepts fits same⟩

/-- The messages of two secrets differ, unless kind and identifier are the same and the secrets
overlap with the expiries that the kind embeds; then they are equal. So a text that carries a
signature of one secret and is accepted under the other shows two inputs of the digest with one
value, or says the same kind and identifier and an overlapping expiry. -/
theorem collision_or_overlap_of_other_secret {c c' : Codec} (differ : c.secret ≠ c'.secret)
    (shared : c'.digests = c.digests) :
    (∀ (kind kind' : Kind) (id id' : TokenId) (expires expires' : Int),
      Signable kind expires → Signable kind' expires' →
        (c.message .plain kind id expires = c'.message .plain kind' id' expires' ↔
          kind = kind' ∧ id = id' ∧ kind.embedsExpiry ∧
            Overlap c.secret c'.secret expires expires')) ∧
    ∀ (kind : Kind) (id : TokenId) (expires : Int) (rest : Bytes) (w : Text) (d : Decoded),
      Signable kind expires → c'.decode w = .ok d → d.version = .plain →
      w = spell d.kind (rest ++ c.sign .plain kind id expires) →
        Collide c.digests.plain (c.message .plain kind id expires) (c'.signedMessage d) ∨
          d.kind = kind ∧ d.id = id ∧
            ∃ expires', d.expiresAt = some expires' ∧
              Overlap c.secret c'.secret expires expires' := by
  refine ⟨fun _ _ _ _ _ _ => message_eq_iff_overlap differ, ?_⟩
  intro kind id expires rest w d signable read plain carried
  obtain ⟨payload, body, verified⟩ := verified_of_decode read
  by_cases same : c.message .plain kind id expires = c'.signedMessage d
  · right
    rw [signedMessage, plain] at same
    obtain ⟨rfl, rfl, embeds, overlap⟩ :=
      (message_eq_iff_overlap differ signable verified.signable).mp same
    refine ⟨rfl, rfl, d.expiresAt.getD sentinel, ?_, overlap⟩
    simpa [embedded, embeds] using verified.expiresAt_eq
  · left
    refine ⟨same, ?_⟩
    have digest := verified.digest_signedMessage (length_sign ..) carried
    rw [plain, Codec.digest, shared] at digest
    exact digest.symm

/-- A minus sign is moved as a digit is. A digest that is the same for every message lets the
signature pass for a kind without an expiry, too, and the two messages are there to be seen. -/
theorem collision_or_overlap_of_other_secret_hyphen :
    let signature : Bytes := List.replicate 20 0
    let digests : Digests :=
      ⟨fun _ => signature, fun _ _ => signature, fun _ => rfl, fun _ _ => rfl⟩
    let c : Codec := ⟨"k", by decide, .plain, true, digests⟩
    let c' : Codec := ⟨"k-", by decide, .plain, true, digests⟩
    let id : TokenId := .generate 1700000000000 ⟨1, 2⟩
    let d : Decoded := ⟨.email, id, none, .plain⟩
    let w := spell .email (id.bytes ++ c.sign .plain .access id (-5))
    c.secret ≠ c'.secret ∧ c'.digests = c.digests ∧ Signable .access (-5) ∧ Signable .access 5 ∧
      c.message .plain .access id (-5) = c'.message .plain .access id 5 ∧
      c'.decode w = .ok d ∧
      Collide c.digests.plain (c.message .plain .access id (-5)) (c'.signedMessage d) := by
  intro signature digests c c' id d w
  have differ : c.secret ≠ c'.secret := by decide
  have signable : Signable .access (-5) := ⟨fun _ => by decide, nofun⟩
  have signable' : Signable .access 5 := ⟨fun _ => by decide, nofun⟩
  have read : c'.decode w = .ok d := by decide +kernel
  have borrows : Borrows c.secret c'.secret (-5) 5 ['-'] :=
    ⟨by decide, by decide +kernel, by decide, by decide, ⟨[], .inr rfl, nofun⟩, by decide⟩
  obtain ⟨messages, signatures⟩ := collision_or_overlap_of_other_secret differ
    (show c'.digests = c.digests from rfl)
  have same := (messages .access .access id id (-5) 5 signable signable').mpr
    ⟨rfl, rfl, rfl, ['-'], .inl borrows⟩
  obtain collide | ⟨kind, -⟩ := signatures .access id (-5) id.bytes w d signable read rfl rfl
  · exact ⟨differ, rfl, signable, signable', same, read, collide⟩
  · cases kind

end Codec

end BearerToken
