import Mathlib
import BearerToken.Proofs.Base64Url
import BearerToken.Proofs.Codec.Layout
import BearerToken.Proofs.Service.Lifetime
import BearerToken.Proofs.Service.Outcome
import BearerToken.Web.Guard

/-!
# Tokens of routes and of queries

A route and a query look for a token in the same places, and where they find the same text they give
the same answer. They find the same in the header, and in a cookie that has no blanks around it. A
query takes a cookie as it is, though, and no text with blanks around it is a token. So it leaves
the holder of a padded cookie anonymous, for whom a route looks up the text without the blanks.
-/

namespace BearerToken

namespace Base64Url

/-- No symbol is blank. -/
theorem isBlank_of_value? {c : Char} (symbol : (value? c).isSome) : Text.isBlank c = false := by
  have visible : 0x2d ≤ c.toNat ∧ c.toNat ≤ 0x7a := by
    rw [value?] at symbol
    split at symbol
    · next upper => exact ⟨le_trans (by decide) upper.1, le_trans upper.2 (by decide)⟩
    split at symbol
    · next lower => exact ⟨le_trans (by decide) lower.1, le_trans lower.2 (by decide)⟩
    split at symbol
    · next digit => exact ⟨le_trans (by decide) digit.1, le_trans digit.2 (by decide)⟩
    split at symbol
    · next hyphen => subst hyphen; decide
    split at symbol
    · next underscore => subst underscore; decide
    · cases symbol
  have place : (CodePoint.char c).toNat = c.toNat := rfl
  simp only [Text.isBlank, Text.inRuns, Text.blankRuns, place, List.any_cons, List.any_nil,
    Bool.or_false, Bool.or_eq_false_iff, Bool.and_eq_false_iff, decide_eq_false_iff_not]
  omega

theorem isSome_of_mapM {text : List Char} {values : List Nat}
    (read : text.mapM value? = some values) : ∀ c ∈ text, (value? c).isSome := by
  induction text generalizing values with
  | nil => simp
  | cons c rest ih =>
      rw [List.mapM_cons] at read
      obtain ⟨n, first, read⟩ := Option.bind_eq_some_iff.mp read
      obtain ⟨ns, more, -⟩ := Option.bind_eq_some_iff.mp read
      exact List.forall_mem_cons.mpr ⟨by rw [first]; rfl, ih more⟩

end Base64Url

namespace Codec

theorem isBlank_of_mem_spell {kind : Kind} {payload : Bytes} {c : CodePoint}
    (member : c ∈ spell kind payload) : Text.isBlank c = false := by
  obtain ⟨symbol, inside, rfl⟩ := List.mem_map.mp member
  obtain tag | body := List.mem_append.mp inside
  · have symbols : kind.wireTag.all (fun c => (Base64Url.value? c).isSome) = true := by
      cases kind <;> rfl
    exact Base64Url.isBlank_of_value? (List.all_eq_true.mp symbols symbol tag)
  · obtain ⟨values, read, -⟩ := Base64Url.mapM_value?_encode payload
    exact Base64Url.isBlank_of_value? (Base64Url.isSome_of_mapM read symbol body)

/-- A text that is accepted has no blanks around it. -/
theorem strip_of_decode {c : Codec} {w : Text} {d : Decoded} (accepted : c.decode w = .ok d) :
    w.strip = w := by
  obtain ⟨kind, payload, rfl⟩ := exists_spell_of_decode accepted
  exact Numeral.trim_eq_self
    (fun c first => isBlank_of_mem_spell (List.mem_of_mem_head? first))
    (fun c last => isBlank_of_mem_spell (List.mem_of_mem_getLast? last))

end Codec

theorem Verifier.verdict_of_padded (v : Verifier) (nowMs : Int) {t : Text} (padded : t.strip ≠ t) :
    ∃ cause, v.verdict nowMs t = .error cause := by
  rw [verdict, Codec.decodePresented]
  cases decoded : v.codec.decode t with
  | error cause => exact ⟨cause, rfl⟩
  | ok d => exact absurd (Codec.strip_of_decode decoded) padded

namespace Web

open Request (stripped?)

variable {σ ε : Type} {s : Service σ} {r : Request} {cookie : Text} {nowMs : Int} {wire : Text}
  {w w' : World σ}

namespace Request

/-- No blanks stand around the cookie, if there is one. -/
def Unpadded (r : Request) (cookie : Text) : Prop :=
  ∀ value, r.cookies.get? cookie = some value → value.strip = value

theorem cookieToken?_of_unpadded (unpadded : r.Unpadded cookie) :
    r.cookieToken? cookie = r.rawCookie? cookie := by
  rw [cookieToken?, rawCookie?]
  cases held : r.cookies.get? cookie with
  | none => rfl
  | some value => simp [stripped?, unpadded value held, Option.filter]

/-- Without parsed credentials a route and a query find the same text, unless a padded cookie
counts. -/
theorem routeToken?_eq (bare : r.credentials = none)
    (same : r.headerToken?.isSome ∨ r.Unpadded cookie) :
    r.routeToken? cookie = r.queryToken? cookie := by
  have parsed : r.credentialsToken? = none := by rw [credentialsToken?, bare]; rfl
  have route : r.routeToken? cookie = (r.headerToken? <|> r.cookieToken? cookie) := by
    rw [routeToken?, parsed]
    rfl
  rw [route, queryToken?]
  obtain header | unpadded := same
  · obtain ⟨t, found⟩ := Option.isSome_iff_exists.mp header
    rw [found]
    rfl
  · rw [cookieToken?_of_unpadded unpadded]

end Request

/-- A route and a query answer the same: with the same record or none, with the store being out of
reach, or with the same failure. -/
inductive SameAnswer : Except Failure (Except StatusError (Option Record)) →
    Except Failure (Except QueryError (Option Record)) → Prop where
  | found (record : Option Record) : SameAnswer (.ok (.ok record)) (.ok (.ok record))
  | unavailable :
      SameAnswer (.ok (.error .storeUnavailable)) (.ok (.error .storeUnavailable))
  | failed (e : Failure) : SameAnswer (.error e) (.error e)

theorem run_lookupOr_ok {x : Option Record} (found : (s.lookup nowMs wire).run w = (.ok x, w'))
    (refusal : ε) : (lookupOr s refusal nowMs wire).run w = (.ok (.ok x), w') :=
  Action.run_recover_ok (Action.run_map_ok found)

theorem run_lookupOr_store {cause : StoreError}
    (failed : (s.lookup nowMs wire).run w = (.error (.store cause), w')) (refusal : ε) :
    (lookupOr s refusal nowMs wire).run w = (.ok (.error refusal), w') :=
  Action.run_recover_error (Action.run_map_error failed)

theorem run_lookupOr_failed {e : Failure} (failed : (s.lookup nowMs wire).run w = (.error e, w'))
    (other : ∀ cause, e ≠ .store cause) (refusal : ε) :
    (lookupOr s refusal nowMs wire).run w = (.error e, w') := by
  rw [lookupOr, Action.run_recover_error (Action.run_map_error failed)]
  cases e with
  | store cause => exact absurd rfl (other cause)
  | _ => rfl

/-- On the same text a route and a query answer the same and leave the same. -/
theorem sameAnswer_lookupOr (s : Service σ) (nowMs : Int) (wire : Text) (w : World σ) :
    SameAnswer ((lookupOr s .storeUnavailable nowMs wire).run w).1
        ((lookupOr s .storeUnavailable nowMs wire).run w).1 ∧
      ((lookupOr s StatusError.storeUnavailable nowMs wire).run w).2 =
        ((lookupOr s QueryError.storeUnavailable nowMs wire).run w).2 := by
  obtain ⟨e | x, w', made⟩ : ∃ x w', (s.lookup nowMs wire).run w = (x, w') := ⟨_, _, rfl⟩
  · by_cases store : ∃ cause, e = .store cause
    · obtain ⟨cause, rfl⟩ := store
      rw [run_lookupOr_store made, run_lookupOr_store made]
      exact ⟨.unavailable, rfl⟩
    · have other (cause : StoreError) : e ≠ .store cause := fun same => store ⟨cause, same⟩
      rw [run_lookupOr_failed made other, run_lookupOr_failed made other]
      exact ⟨.failed e, rfl⟩
  · rw [run_lookupOr_ok made, run_lookupOr_ok made]
    exact ⟨.found x, rfl⟩

theorem run_optionalToken (s : Service σ) (cookie : Text) (nowMs : Int) (r : Request)
    (w : World σ) :
    (optionalToken s cookie nowMs r).run w =
      match r.routeToken? cookie with
      | none => (.ok (.ok none), w)
      | some wire => (lookupOr s .storeUnavailable nowMs wire).run w := by
  rw [optionalToken]
  cases r.routeToken? cookie with
  | none => rfl
  | some wire => rfl

/-- A query whose record is optional takes what it finds as its answer. -/
theorem run_queryContext (s : Service σ) (cookie : Text) (nowMs : Int) (r : Request)
    (w : World σ) :
    (queryContext s cookie true nowMs r).run w =
      match r.queryToken? cookie with
      | none => (.ok (.ok none), w)
      | some wire => (lookupOr s .storeUnavailable nowMs wire).run w := by
  rw [queryContext]
  cases r.queryToken? cookie with
  | none => rfl
  | some wire =>
      simp only
      obtain ⟨e | found, w', made⟩ :
        ∃ x w', (lookupOr s QueryError.storeUnavailable nowMs wire).run w = (x, w') := ⟨_, _, rfl⟩
      · rw [Action.run_bind_error made, made]
      · rw [Action.run_bind_ok made, made]
        obtain refusal | _ | record := found
        · rfl
        · rfl
        · rfl

theorem sameAnswer_of_same (same : r.routeToken? cookie = r.queryToken? cookie) (s : Service σ)
    (nowMs : Int) (w : World σ) :
    SameAnswer ((optionalToken s cookie nowMs r).run w).1
        ((queryContext s cookie true nowMs r).run w).1 ∧
      ((optionalToken s cookie nowMs r).run w).2 =
        ((queryContext s cookie true nowMs r).run w).2 := by
  rw [run_optionalToken, run_queryContext, same]
  cases r.queryToken? cookie with
  | none => exact ⟨.found none, rfl⟩
  | some wire => exact sameAnswer_lookupOr s nowMs wire w

/-- A padded cookie that counts is no token for a query, and is a token without its blanks for a
route. -/
structure PaddedAnswers (s : Service σ) (cookie : Text) (nowMs : Int) (r : Request) (w : World σ)
    (value : Text) : Prop where
  query : ∃ cause, s.verdict nowMs value = .error cause ∧
    (queryContext s cookie true nowMs r).run w =
      (.ok (.ok none), { w with events := w.events ++ [.rejected cause] })
  route : (optionalToken s cookie nowMs r).run w =
    if value.strip.isEmpty then (.ok (.ok none), w)
    else (lookupOr s .storeUnavailable nowMs value.strip).run w

theorem paddedAnswers (bare : r.credentials = none) (headerless : r.headerToken? = none)
    {value : Text} (held : r.cookies.get? cookie = some value) (padded : value.strip ≠ value)
    (s : Service σ) (nowMs : Int) (w : World σ) : PaddedAnswers s cookie nowMs r w value where
  query := by
    have filled : value.isEmpty = false := by
      cases value with
      | nil => exact absurd rfl padded
      | cons c t => rfl
    have token : r.queryToken? cookie = some value := by
      rw [Request.queryToken?, headerless, Request.rawCookie?, held, Option.filter]
      simp [filled]
    obtain ⟨cause, refused⟩ := s.verdict_of_padded nowMs padded
    refine ⟨cause, refused, ?_⟩
    rw [run_queryContext, token]
    exact run_lookupOr_ok (Service.lookup_of_refused refused w) _
  route := by
    have token : r.routeToken? cookie = stripped? value := by
      rw [Request.routeToken?, Request.credentialsToken?, bare, headerless, Request.cookieToken?,
        held]
      rfl
    rw [run_optionalToken, token, stripped?]
    cases value.strip.isEmpty with
    | true => rfl
    | false => rfl

/-- For a request without parsed credentials a route and a query answer the same and leave the same,
with the same calls of the store and the same log, if the header has a token or no blanks stand
around the cookie. A padded cookie leaves the holder of a query anonymous. -/
theorem sameAnswer_of_unpadded (s : Service σ) (cookie : Text) (nowMs : Int)
    (bare : r.credentials = none) (w : World σ) :
    (r.headerToken?.isSome ∨ r.Unpadded cookie →
      SameAnswer ((optionalToken s cookie nowMs r).run w).1
          ((queryContext s cookie true nowMs r).run w).1 ∧
        ((optionalToken s cookie nowMs r).run w).2 =
          ((queryContext s cookie true nowMs r).run w).2) ∧
    (¬(r.headerToken?.isSome ∨ r.Unpadded cookie) →
      ∃ value, r.cookies.get? cookie = some value ∧ value.strip ≠ value ∧
        PaddedAnswers s cookie nowMs r w value) := by
  refine ⟨fun same => sameAnswer_of_same (Request.routeToken?_eq bare same) s nowMs w, ?_⟩
  intro differs
  obtain ⟨headerless, padded⟩ := not_or.mp differs
  rw [Request.Unpadded] at padded
  push Not at padded
  obtain ⟨value, held, padded⟩ := padded
  exact ⟨value, held, padded, paddedAnswers bare (by simpa using headerless) held padded s nowMs w⟩

/-- A request with nothing but one cookie. -/
def Request.ofCookie (value : Text) : Request := ⟨[], ⟨[(Request.defaultCookie, value)]⟩, none⟩

theorem Request.cookie_ofCookie (value : Text) :
    (ofCookie value).cookies.get? defaultCookie = some value := by
  simp [ofCookie, Table.get?, Table.lookup]

theorem run_optionalToken_ofCookie (s : Service σ) {value : Text} (filled : value.strip ≠ [])
    (nowMs : Int) (w : World σ) :
    (optionalToken s Request.defaultCookie nowMs (.ofCookie value)).run w =
      (lookupOr s .storeUnavailable nowMs value.strip).run w := by
  have token : (Request.ofCookie value).routeToken? Request.defaultCookie = some value.strip := by
    change (Request.ofCookie value).cookieToken? Request.defaultCookie = _
    rw [Request.cookieToken?, Request.cookie_ofCookie, Option.bind_some, stripped?]
    simp [filled]
  rw [run_optionalToken, token]

/-- A token whose record is in memory. -/
theorem exists_held :
    let c : Codec := ⟨"s", by decide, .keyed, true, .standard⟩
    let v : Verifier := ⟨c, .withOverrides (fun _ => none) none⟩
    let id : TokenId := .generate 5 ⟨0, 0⟩
    let held : Fields := Fields.ofRecord (.issued id none none .emptyObject)
    ∃ wire record w', c.encode .offline id (v.policy.ttlFor .offline) = .ok wire ∧
      Text.ofString wire ≠ [] ∧ (Text.ofString wire).strip = Text.ofString wire ∧
      (v.inMemory.lookup 6 (Text.ofString wire)).run ⟨Memory.empty.put 5 id held 60, []⟩ =
        (.ok (some record), w') := by
  intro c v id held
  let record : Record := .issued id none none .emptyObject
  have kept : Fields.IsPersistable record := ⟨by decide, by decide +kernel⟩
  have time : id.timestampMs = 5 := TokenId.timestampMs_generate (by decide) (by decide) _
  have fits : Codec.Fits .offline (id.timestampMs + v.policy.ttlFor .offline) :=
    fun embeds => absurd embeds (by decide)
  obtain ⟨wire, encoded, accepted⟩ :=
    Service.exists_accepted v (fun plain => absurd plain (by decide)) fits
  have accepted := accepted 6 (by rw [time]; decide)
  have live : (Memory.empty.put 5 id held 60).live? 6 id = some (Fields.ofRecord record) := by
    rw [Memory.live?_put Memory.nodup_empty (by decide), if_pos rfl, if_pos (by decide)]
  have latest : max record.accessed 6 = 6 := by
    change max id.timestampMs 6 = 6
    rw [time]
    rfl
  have looked := Service.run_lookup_live (w := ⟨Memory.empty.put 5 id held 60, []⟩) accepted live
    kept (by rw [latest]; decide +kernel)
  have decoded := (Service.alive_of_accepted accepted).1
  refine ⟨wire, _, _, encoded, ?_, Codec.strip_of_decode decoded, looked⟩
  intro empty
  rw [empty] at decoded
  cases decoded

/-- A cookie as it was issued. -/
theorem sameAnswer_of_unpadded_issued :
    let c : Codec := ⟨"s", by decide, .keyed, true, .standard⟩
    let v : Verifier := ⟨c, .withOverrides (fun _ => none) none⟩
    let id : TokenId := .generate 5 ⟨0, 0⟩
    let held : Fields := Fields.ofRecord (.issued id none none .emptyObject)
    let w : World Memory := ⟨Memory.empty.put 5 id held 60, []⟩
    ∃ wire record, c.encode .offline id (v.policy.ttlFor .offline) = .ok wire ∧
      let r := Request.ofCookie (.ofString wire)
      r.credentials = none ∧ r.Unpadded Request.defaultCookie ∧
        ((optionalToken v.inMemory Request.defaultCookie 6 r).run w).1 = .ok (.ok (some record)) ∧
        ((queryContext v.inMemory Request.defaultCookie true 6 r).run w).1 =
          .ok (.ok (some record)) := by
  intro c v id held w
  obtain ⟨wire, record, w', encoded, filled, bare, looked⟩ := exists_held
  refine ⟨wire, record, encoded, ?_⟩
  intro r
  have unpadded : r.Unpadded Request.defaultCookie := by
    intro value cookie
    rw [Request.cookie_ofCookie] at cookie
    cases cookie
    exact bare
  have route : ((optionalToken v.inMemory Request.defaultCookie 6 r).run w).1 =
      .ok (.ok (some record)) := by
    rw [run_optionalToken_ofCookie _ (by rwa [bare]), bare, run_lookupOr_ok looked]
  obtain ⟨answers, -⟩ := sameAnswer_of_unpadded v.inMemory Request.defaultCookie 6 (r := r) rfl w
  obtain ⟨same, -⟩ := answers (.inr unpadded)
  refine ⟨rfl, unpadded, route, ?_⟩
  rw [route] at same
  generalize ((queryContext v.inMemory Request.defaultCookie true 6 r).run w).1 = given at same ⊢
  cases same
  rfl

/-- With a blank in front of the cookie the route finds the record, and the query finds none. -/
theorem not_sameAnswer_of_padded :
    let c : Codec := ⟨"s", by decide, .keyed, true, .standard⟩
    let v : Verifier := ⟨c, .withOverrides (fun _ => none) none⟩
    let id : TokenId := .generate 5 ⟨0, 0⟩
    let held : Fields := Fields.ofRecord (.issued id none none .emptyObject)
    let w : World Memory := ⟨Memory.empty.put 5 id held 60, []⟩
    ∃ wire record, c.encode .offline id (v.policy.ttlFor .offline) = .ok wire ∧
      let r := Request.ofCookie (.char ' ' :: Text.ofString wire)
      ((optionalToken v.inMemory Request.defaultCookie 6 r).run w).1 = .ok (.ok (some record)) ∧
        ((queryContext v.inMemory Request.defaultCookie true 6 r).run w).1 = .ok (.ok none) := by
  intro c v id held w
  obtain ⟨wire, record, w', encoded, filled, bare, looked⟩ := exists_held
  refine ⟨wire, record, encoded, ?_⟩
  intro r
  have stripped : Text.strip (.char ' ' :: Text.ofString wire) = Text.ofString wire := bare
  have padded : Text.strip (.char ' ' :: Text.ofString wire) ≠ .char ' ' :: Text.ofString wire := by
    simp [stripped]
  constructor
  · rw [run_optionalToken_ofCookie _ (by rwa [stripped]), stripped, run_lookupOr_ok looked]
  · obtain ⟨cause, -, anonymous⟩ := (paddedAnswers (r := r) rfl rfl (Request.cookie_ofCookie _)
      padded v.inMemory 6 w).query
    rw [anonymous]

end Web

end BearerToken
