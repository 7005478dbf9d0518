import Mathlib
import BearerToken.Proofs.Service.Lookup
import BearerToken.Settings.Assembly

/-!
# Tokens that have just been issued

A token that has just been issued has its record at the time of its creation, unless the settings
stand against each other: a codec can write texts in the first signature format and refuse to read
it, and a retention below a second is no retention in whole seconds. Settings that put a service
together avoid neither, so both are conditions here. All else that could stand in the way is settled
by the creation itself: an expiry that does not fit its bytes and a record that cannot be written
keep it from giving a text.
-/

namespace BearerToken

namespace Settings

variable {settings : Settings} {given : Option Backend} {a : Assembly}

/-- A service that has been put together has the signature formats and the policy of its settings. -/
theorem of_assemble (built : settings.assemble given = .ok a) :
    a.codec.version = settings.version ∧ a.codec.acceptLegacy = settings.acceptLegacy ∧
      a.policy = settings.policy := by
  rw [assemble, Codec.make] at built
  cases secret : Codec.readSecret settings.secret with
  | error cause =>
      rw [secret] at built
      cases built
  | ok text =>
      rw [secret] at built
      cases built
      exact ⟨rfl, rfl, rfl⟩

/-- Whatever the settings name, the lifetimes are positive. -/
theorem ttlFor_pos (settings : Settings) (kind : Kind) : 0 < settings.policy.ttlFor kind :=
  Policy.positiveOr_pos _ (by cases kind <;> decide)

end Settings

namespace Service

variable {v : Verifier} {w w' : World Memory} {nowMs : Int} {entropy : Entropy} {id : TokenId}
  {kind : Kind} {grant : Grant} {wire : String}

/-- The codec reads the texts that it writes. -/
def Honours (c : Codec) : Prop := c.version = .plain → c.acceptLegacy

instance (c : Codec) : Decidable (Honours c) := inferInstanceAs (Decidable (_ → _))

/-- The record of a new token as a lookup at the time of its creation gives it. -/
def Grant.found (grant : Grant) (id : TokenId) (nowMs : Int) : Record where
  id
  label := (grant.record id).label
  created := nowMs
  accessed := nowMs
  principal := grant.principal
  state := (Fields.keptState grant.state).reread

/-- The text of a new token is refused if the codec does not read what it writes. -/
theorem verdict_unhonoured (refuses : ¬Honours v.codec) {ttlMs : Int}
    (encoded : v.codec.encode kind id ttlMs = .ok wire) (nowMs : Int) :
    v.verdict nowMs (Text.ofString wire) = .error .legacyRefused := by
  obtain ⟨plain, refuses⟩ := Classical.not_imp.mp refuses
  obtain ⟨-, spelled⟩ := Codec.fits_of_encode encoded
  have decoded := Codec.decode_payload_refused plain (Bool.eq_false_iff.mpr refuses) kind id
    (id.timestampMs + ttlMs)
  rw [← spelled] at decoded
  rw [Verifier.verdict, Codec.decodePresented, decoded]
  rfl

/-- A lookup at the time of the creation gives the record just if the codec reads what it writes and
the retention is a second at least. -/
theorem result_lookup_created (range : InRange nowMs) (new : TokenId.generate nowMs entropy = id)
    (positive : 0 < v.policy.ttlFor kind)
    (issued : (v.inMemory.create nowMs entropy kind grant).run w = (.ok wire, w')) :
    ((v.inMemory.lookup nowMs (Text.ofString wire)).run w').1 =
      .ok (if Honours v.codec ∧ 0 < v.policy.retentionSeconds then some (grant.found id nowMs)
        else none) := by
  obtain ⟨kept, encoded, written⟩ := of_issued new issued
  have time := range.timestampMs_eq new
  by_cases honours : Honours v.codec
  · obtain ⟨fits, -⟩ := Codec.fits_of_encode encoded
    obtain ⟨wire', encoded', accepted⟩ := exists_accepted v honours fits
    obtain rfl : wire = wire' := Except.ok.inj (encoded.symm.trans encoded')
    have accepted := accepted nowMs (by omega)
    have shown : w'.store.live? nowMs id =
        if 0 < v.policy.retentionSeconds then some (Fields.ofRecord (grant.record id)) else none := by
      rw [written, Memory.put, Memory.live?_set, if_pos rfl]
      simp [Entry.isLive, Memory.deadline]
    by_cases retained : 0 < v.policy.retentionSeconds
    · rw [if_pos retained] at shown
      have latest : max (grant.record id).accessed nowMs = nowMs := max_eq_right time.le
      have writable : Numeral.isWritable (max (grant.record id).accessed nowMs) := by
        rw [latest]
        exact range.isWritable
      rw [run_lookup_live accepted shown kept writable, if_pos ⟨honours, retained⟩]
      have found : (Fields.reread (grant.record id)).markAccessed nowMs =
          { Fields.reread (grant.record id) with accessed := nowMs } := by
        rw [Record.markAccessed]
        exact congrArg (fun t => { Fields.reread (grant.record id) with accessed := t }) latest
      rw [found, Grant.found, ← time]
      rfl
    · rw [if_neg retained] at shown
      rw [run_lookup_gone accepted shown, if_neg fun both => retained both.2]
  · rw [run_lookup_refused (verdict_unhonoured honours encoded nowMs),
      if_neg fun both => honours both.1]

/-- Settings that read the signature format that they write, and that keep records for a second at
least, give a service on which a lookup finds the record of a token as soon as it is issued, whatever
the store held before. -/
theorem lookup_of_created {settings : Settings} {given : Option Backend} {a : Assembly}
    (built : settings.assemble given = .ok a)
    (honours : settings.version = .plain → settings.acceptLegacy)
    (retained : 1000 ≤ settings.policy.retentionMs) (range : InRange nowMs)
    (issued : ((a.service Memory.store).create nowMs entropy kind grant).run w = (.ok wire, w')) :
    (((a.service Memory.store).lookup nowMs (Text.ofString wire)).run w').1 =
      .ok (some (grant.found (TokenId.generate nowMs entropy) nowMs)) := by
  obtain ⟨version, accepts, policy⟩ := Settings.of_assemble built
  have positive : 0 < a.policy.ttlFor kind := policy ▸ settings.ttlFor_pos kind
  have honoured : Honours a.codec := by
    rw [Honours, version, accepts]
    exact honours
  have whole : 0 < a.policy.retentionSeconds := by
    rw [policy, Policy.retentionSeconds]
    omega
  have result := result_lookup_created (v := a.toVerifier) range rfl positive issued
  rw [if_pos ⟨honoured, whole⟩] at result
  exact result

/-- With lifetimes that leave an expiry within 64 bits, a creation of a record that can be
written gives a text. -/
theorem exists_created (v : Verifier) (range : InRange nowMs) (fits : FitsExpiry v.policy)
    (writable : (Use.create entropy kind grant).isWritable nowMs) (w : World Memory) :
    ∃ wire w', (v.inMemory.create nowMs entropy kind grant).run w = (.ok wire, w') := by
  have done := isOk_create range fits entropy kind grant w
  rw [writable] at done
  generalize (v.inMemory.create nowMs entropy kind grant).run w = made at done ⊢
  obtain ⟨e | wire, w'⟩ := made
  · cases done
  · exact ⟨wire, w', rfl⟩

/-- With a retention of just a second, and all else left open. -/
theorem lookup_of_created_default :
    let settings : Settings := { Settings.default with retentionMs := some 1000 }
    ∃ a wire w', settings.assemble none = .ok a ∧
      ((a.service Memory.store).create 5 ⟨0, 0⟩ .access {}).run ⟨.empty, []⟩ = (.ok wire, w') ∧
      (((a.service Memory.store).lookup 5 (Text.ofString wire)).run w').1 =
        .ok (some ⟨TokenId.generate 5 ⟨0, 0⟩, "access", 5, 5, none, .emptyObject⟩) := by
  intro settings
  have range : InRange 5 := ⟨by decide, by decide⟩
  obtain ⟨a, built⟩ : ∃ a, settings.assemble none = .ok a := ⟨_, rfl⟩
  have fits : FitsExpiry a.policy := by
    rw [(Settings.of_assemble built).2.2]
    exact fitsExpiry_withOverrides fun kind => by cases kind <;> decide
  obtain ⟨wire, w', issued⟩ := exists_created a.toVerifier range fits
    (by decide +kernel : (Use.create ⟨0, 0⟩ .access {}).isWritable 5) ⟨.empty, []⟩
  have found := lookup_of_created built (fun _ => rfl) (by decide) range issued
  refine ⟨a, wire, w', built, issued, found.trans ?_⟩
  generalize TokenId.generate 5 ⟨0, 0⟩ = id
  rfl

/-- A codec that refuses its own format, and a retention of less than a second. -/
theorem not_lookup_of_created :
    let refusing : Settings := { Settings.default with acceptLegacy := false }
    let brief : Settings := { Settings.default with retentionMs := some 999 }
    ∀ settings ∈ [refusing, brief], ∃ a wire w', settings.assemble none = .ok a ∧
      a.backend = .memory ∧
      ((a.service Memory.store).create 5 ⟨0, 0⟩ .access {}).run ⟨.empty, []⟩ = (.ok wire, w') ∧
      (((a.service Memory.store).lookup 5 (Text.ofString wire)).run w').1 = .ok none := by
  intro refusing brief settings member
  have range : InRange 5 := ⟨by decide, by decide⟩
  have unusable : ∃ a, settings.assemble none = .ok a ∧ a.backend = .memory ∧
      FitsExpiry a.policy ∧ ¬(Honours a.codec ∧ 0 < a.policy.retentionSeconds) := by
    have lifetimes (retentionMs : Option Int) :
        FitsExpiry (.withOverrides Settings.default.ttlOverride? retentionMs) := by
      apply fitsExpiry_withOverrides
      intro kind
      change Policy.positiveOr none kind.defaultTtlMs ≤ _
      cases kind <;> decide
    obtain rfl | rfl : settings = refusing ∨ settings = brief := by simpa using member
    · exact ⟨_, rfl, rfl, lifetimes _, by decide⟩
    · exact ⟨_, rfl, rfl, lifetimes _, by decide⟩
  obtain ⟨a, built, backend, fits, unusable⟩ := unusable
  obtain ⟨wire, w', issued⟩ := exists_created a.toVerifier range fits
    (by decide +kernel : (Use.create ⟨0, 0⟩ .access {}).isWritable 5) ⟨.empty, []⟩
  refine ⟨a, wire, w', built, backend, issued, ?_⟩
  have result := result_lookup_created range rfl (fits .access).1 issued
  rw [if_neg unusable] at result
  exact result

end Service

end BearerToken
