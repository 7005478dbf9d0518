import Mathlib
import BearerToken.Proofs.Web.Extraction

/-!
# Refusals at the edge

A token can be unusable for many reasons: its text starts with the tag of no kind, is malformed, is
signed by somebody else or has expired, or the record behind it is gone. Those who ask are told none
of them. A route has one answer to all such tokens and so has a query, the same for every service,
store, time and request, and where the token itself is refused the store is not asked. The strict
form of a route finds the same records as the optional one, and both tell when the store is out of
reach.
-/

namespace BearerToken.Web

variable {σ τ ε : Type}

/-- What is made of a lookup: a store error becomes the refusal. -/
def told (refusal : ε) : Except Failure (Option Record) → Except Failure (Except ε (Option Record))
  | .ok found => .ok (.ok found)
  | .error (.store _) => .ok (.error refusal)
  | .error e => .error e

theorem run_lookupOr (s : Service σ) (refusal : ε) (nowMs : Int) (wire : Text) (w : World σ) :
    (lookupOr s refusal nowMs wire).run w =
      (told refusal ((s.lookup nowMs wire).run w).1, ((s.lookup nowMs wire).run w).2) := by
  obtain ⟨e | found, w', made⟩ : ∃ x w', (s.lookup nowMs wire).run w = (x, w') := ⟨_, _, rfl⟩
  · cases e with
    | store cause => rw [run_lookupOr_store made, made, told]
    | _ => rw [run_lookupOr_failed made nofun, made, told]; simp
  · rw [run_lookupOr_ok made, made, told]

/-- A form that requires a record has a refusal in place of none. -/
def required (refusal : ε) : Except ε (Option Record) → Except ε Record
  | .ok (some record) => .ok record
  | .ok none => .error refusal
  | .error other => .error other

/-- A query that requires a record is refused for want of one. -/
def admitted (isOptional : Bool) :
    Except QueryError (Option Record) → Except QueryError (Option Record)
  | .ok none => if isOptional then .ok none else .error .notAuthenticated
  | found => found

/-- A request as it meets a service: when it comes, what the world of the service is then, and in
which cookie a token is looked for. -/
structure Visit (σ : Type) where
  service : Service σ
  world : World σ
  nowMs : Int
  cookie : Text
  request : Request

namespace Visit

/-- The answer of a route that requires a token, and what it leaves. -/
def current (v : Visit σ) : Except Failure (Except StatusError Record) × World σ :=
  (currentToken v.service v.cookie v.nowMs v.request).run v.world

/-- The answer of a route to which a token is optional. -/
def optional (v : Visit σ) : Except Failure (Except StatusError (Option Record)) × World σ :=
  (optionalToken v.service v.cookie v.nowMs v.request).run v.world

/-- The answer to a query, which requires a token or not. -/
def query (v : Visit σ) (isOptional : Bool) :
    Except Failure (Except QueryError (Option Record)) × World σ :=
  (queryContext v.service v.cookie isOptional v.nowMs v.request).run v.world

/-- What is found of the record behind a text. -/
def lookup (v : Visit σ) (wire : Text) : Except Failure (Option Record) × World σ :=
  (v.service.lookup v.nowMs wire).run v.world

/-- The token that a route takes from the request. -/
def routeToken? (v : Visit σ) : Option Text := v.request.routeToken? v.cookie

/-- The token that a query takes from the request. -/
def queryToken? (v : Visit σ) : Option Text := v.request.queryToken? v.cookie

/-- The same visit with another store in place of the service's own. -/
def withStore (v : Visit σ) (store : Store σ) : Visit σ :=
  { v with service := { v.service with store } }

/-- An inspection refuses the text, for this reason. -/
def Refuses (v : Visit σ) (wire : Text) (cause : Rejection) : Prop :=
  ((v.service.inspect v.nowMs wire).run v.world).1 = .error (.rejected cause)

/-- The text is refused, or it is accepted and there is no record behind it. -/
inductive Unusable (v : Visit σ) (wire : Text) : Prop where
  | refused (cause : Rejection) (refuses : v.Refuses wire cause)
  | absent (d : Decoded) (accepted : ((v.service.inspect v.nowMs wire).run v.world).1 = .ok d)
      (gone : ((v.service.store.get v.nowMs d.id).run v.world).1 = .ok none)

/-- The token that a route takes from the request is unusable. -/
def RouteUnusable (v : Visit σ) : Prop := ∃ wire, v.routeToken? = some wire ∧ v.Unusable wire

/-- The token that a query takes from the request is unusable. -/
def QueryUnusable (v : Visit σ) : Prop := ∃ wire, v.queryToken? = some wire ∧ v.Unusable wire

/-- All that a route tells, in its strict and in its optional form. -/
def routeAnswers (v : Visit σ) : Except Failure (Except StatusError Record) ×
    Except Failure (Except StatusError (Option Record)) :=
  (v.current.1, v.optional.1)

/-- All that a query tells, in its strict and in its optional form. -/
def queryAnswers (v : Visit σ) : Except Failure (Except QueryError (Option Record)) ×
    Except Failure (Except QueryError (Option Record)) :=
  ((v.query false).1, (v.query true).1)

/-- The store is asked for the record behind the route's token, and is out of reach. -/
def StoreFails (v : Visit σ) : Prop :=
  ∃ wire cause, v.routeToken? = some wire ∧ (v.lookup wire).1 = .error (.store cause)

/-- What a rejection leaves: one more event. -/
def afterRejection (v : Visit σ) (cause : Rejection) : World σ :=
  { v.world with events := v.world.events ++ [.rejected cause] }

variable {v : Visit σ} {wire : Text} {cause : Rejection}

section Answers

theorem current_of_none (bare : v.routeToken? = none) :
    v.current = (.ok (.error .noToken), v.world) := by
  unfold routeToken? at bare
  simp only [current, currentToken, bare]
  rfl

theorem optional_of_none (bare : v.routeToken? = none) :
    v.optional = (.ok (.ok none), v.world) := by
  unfold routeToken? at bare
  simp only [optional, run_optionalToken, bare]

theorem optional_of_token (taken : v.routeToken? = some wire) :
    v.optional = (told .storeUnavailable (v.lookup wire).1, (v.lookup wire).2) := by
  unfold routeToken? at taken
  simp only [optional, run_optionalToken, taken]
  exact run_lookupOr ..

theorem current_of_token (taken : v.routeToken? = some wire) :
    v.current = ((told .storeUnavailable (v.lookup wire).1).map (required .unusableToken),
      (v.lookup wire).2) := by
  unfold routeToken? at taken
  simp only [current, currentToken, taken]
  refine Action.run_bind_pure (run_lookupOr ..) ?_
  rintro (refusal | _ | record)
  · rfl
  · rfl
  · rfl

theorem query_of_token (taken : v.queryToken? = some wire) (isOptional : Bool) :
    v.query isOptional = ((told .storeUnavailable (v.lookup wire).1).map (admitted isOptional),
      (v.lookup wire).2) := by
  unfold queryToken? at taken
  simp only [query, queryContext, taken]
  refine Action.run_bind_pure (run_lookupOr ..) ?_
  rintro (refusal | _ | record)
  · rfl
  · cases isOptional with
    | false => rfl
    | true => rfl
  · rfl

end Answers

section Tokens

theorem refuses_iff : v.Refuses wire cause ↔ v.service.verdict v.nowMs wire = .error cause := by
  rw [Refuses, Service.inspect, Verifier.result_resolve]
  cases v.service.verdict v.nowMs wire with
  | error cause' => simp [Except.mapError]
  | ok d => simp [Except.mapError]

/-- A refused text is looked up without the store. -/
theorem Refuses.lookup (refuses : v.Refuses wire cause) :
    v.lookup wire = (.ok none, v.afterRejection cause) :=
  Service.lookup_of_refused (refuses_iff.mp refuses) v.world

/-- The verdict is the same with every store. -/
theorem Refuses.withStore (refuses : v.Refuses wire cause) (store : Store σ) :
    (v.withStore store).Refuses wire cause := refuses

theorem Unusable.lookup (unusable : v.Unusable wire) : (v.lookup wire).1 = .ok none := by
  cases unusable with
  | refused cause refuses => rw [refuses.lookup]
  | absent d accepted gone =>
      obtain ⟨x, w, made⟩ : ∃ x w, (v.service.store.get v.nowMs d.id).run v.world = (x, w) :=
        ⟨_, _, rfl⟩
      rw [made] at gone
      cases gone
      have verdict := Verifier.verdict_of_resolve accepted
      rw [Visit.lookup, Service.lookup_of_absent verdict made]

theorem RouteUnusable.answers (unusable : v.RouteUnusable) :
    v.routeAnswers = (.ok (.error .unusableToken), .ok (.ok none)) := by
  obtain ⟨wire, taken, unusable⟩ := unusable
  rw [routeAnswers, current_of_token taken, optional_of_token taken, unusable.lookup]
  rfl

theorem QueryUnusable.answers (unusable : v.QueryUnusable) :
    v.queryAnswers = (.ok (.error .notAuthenticated), .ok (.ok none)) := by
  obtain ⟨wire, taken, unusable⟩ := unusable
  rw [queryAnswers, query_of_token taken, query_of_token taken, unusable.lookup]
  rfl

end Tokens

section Forms

theorem told_eq_refusal_iff {refusal : ε} {x : Except Failure (Option Record)} :
    told refusal x = .ok (.error refusal) ↔ ∃ cause, x = .error (.store cause) := by
  obtain e | found := x
  · cases e with
    | store cause => simp [told]
    | _ => simp [told]
  · simp [told]

/-- Both forms of a route find the same records. -/
theorem current_eq_record_iff (v : Visit σ) (record : Record) :
    v.current.1 = .ok (.ok record) ↔ v.optional.1 = .ok (.ok (some record)) := by
  cases taken : v.routeToken? with
  | none => simp [current_of_none taken, optional_of_none taken]
  | some wire =>
      rw [current_of_token taken, optional_of_token taken]
      obtain e | refusal | _ | found := told StatusError.storeUnavailable (v.lookup wire).1
      · simp [Except.map]
      · simp [Except.map, required]
      · simp [Except.map, required]
      · simp [Except.map, required]

theorem optional_eq_unavailable_iff (v : Visit σ) :
    v.optional.1 = .ok (.error .storeUnavailable) ↔ v.StoreFails := by
  cases taken : v.routeToken? with
  | none => simp [optional_of_none taken, StoreFails, taken]
  | some wire =>
      rw [optional_of_token taken, told_eq_refusal_iff]
      simp [StoreFails, taken]

/-- Both forms of a route tell that the store is out of reach. -/
theorem current_eq_unavailable_iff (v : Visit σ) :
    v.current.1 = .ok (.error .storeUnavailable) ↔ v.StoreFails := by
  have bare : StatusError.noToken ≠ .storeUnavailable := by decide
  have unusable : StatusError.unusableToken ≠ .storeUnavailable := by decide
  rw [← optional_eq_unavailable_iff]
  cases taken : v.routeToken? with
  | none => simp [current_of_none taken, optional_of_none taken, bare]
  | some wire =>
      rw [current_of_token taken, optional_of_token taken]
      obtain e | refusal | _ | found := told StatusError.storeUnavailable (v.lookup wire).1
      · simp [Except.map]
      · simp [Except.map, required]
      · simp [Except.map, required, unusable]
      · simp [Except.map, required]

end Forms

end Visit

/-- All unusable tokens get one answer from a route and one from a query, in the strict and in the
optional form: of the service, its store, the time and the reason nothing is to be seen in it. A
refused token is answered without the store: whatever store stands in place of the service's own,
nothing is left but the report. A route that requires a token finds the records that one finds to
which it is optional, and both tell that the store is out of reach just if the lookup fails with an
error of the store. -/
theorem answers_of_unusable (a : Visit σ) (b : Visit τ) :
    (a.RouteUnusable → b.RouteUnusable → a.routeAnswers = b.routeAnswers ∧
      a.routeAnswers = (.ok (.error .unusableToken), .ok (.ok none))) ∧
    (a.QueryUnusable → b.QueryUnusable → a.queryAnswers = b.queryAnswers ∧
      a.queryAnswers = (.ok (.error .notAuthenticated), .ok (.ok none))) ∧
    (∀ wire cause, a.Refuses wire cause → ∀ store,
      (a.routeToken? = some wire → (a.withStore store).current.2 = a.afterRejection cause ∧
        (a.withStore store).optional.2 = a.afterRejection cause) ∧
      (a.queryToken? = some wire → ∀ isOptional,
        ((a.withStore store).query isOptional).2 = a.afterRejection cause)) ∧
    (∀ record, a.current.1 = .ok (.ok record) ↔ a.optional.1 = .ok (.ok (some record))) ∧
    (a.current.1 = .ok (.error .storeUnavailable) ↔ a.StoreFails) ∧
    (a.optional.1 = .ok (.error .storeUnavailable) ↔ a.StoreFails) := by
  refine ⟨?_, ?_, ?_, a.current_eq_record_iff, a.current_eq_unavailable_iff,
    a.optional_eq_unavailable_iff⟩
  · intro unusable unusable'
    exact ⟨unusable.answers.trans unusable'.answers.symm, unusable.answers⟩
  · intro unusable unusable'
    exact ⟨unusable.answers.trans unusable'.answers.symm, unusable.answers⟩
  · intro wire cause refuses store
    have looked : ((a.withStore store).lookup wire).2 = a.afterRejection cause := by
      rw [(refuses.withStore store).lookup]
      rfl
    constructor
    · intro taken
      have taken : (a.withStore store).routeToken? = some wire := taken
      rw [Visit.current_of_token taken, Visit.optional_of_token taken]
      exact ⟨looked, looked⟩
    · intro taken isOptional
      have taken : (a.withStore store).queryToken? = some wire := taken
      rw [Visit.query_of_token taken]
      exact looked

/-- A token with a forged signature, brought to a service whose store is out of reach, and one in
order, brought to a service that has no record of it. -/
theorem answers_of_unusable_forged :
    let c : Codec := ⟨"s", by decide, .keyed, true, .standard⟩
    let v : Verifier := ⟨c, .withOverrides (fun _ => none) none⟩
    let issued : Text := "YWNjAgGLz-VoAHABgAAAAAAAAAIAAAGLz-V7iDp-rTX3LRv6OedRHPv13AP-zdEA"
    let forged : Text := "YWNjAgGLz-VoAHABgAAAAAAAAAIAAAGLz-V7iDp-rTX3LRv6OedRHPv13AP-zdEB"
    let a : Visit Memory := ⟨{ v with store := .unreachable }, ⟨.empty, []⟩, 1700000000000,
      Request.defaultCookie, .ofCookie forged⟩
    let b : Visit Memory :=
      ⟨v.inMemory, ⟨.empty, []⟩, 1700000005000, Request.defaultCookie, .ofCookie issued⟩
    a.RouteUnusable ∧ b.RouteUnusable ∧ a.routeAnswers = b.routeAnswers ∧
      a.QueryUnusable ∧ b.QueryUnusable ∧ a.queryAnswers = b.queryAnswers ∧
      a.Refuses forged .badSignature ∧ a.routeToken? = some forged ∧
      (a.withStore Memory.store).current.2 = a.afterRejection .badSignature := by
  intro c v issued forged a b
  have route : a.routeToken? = some forged := by decide +kernel
  have query : a.queryToken? = some forged := by decide +kernel
  have route' : b.routeToken? = some issued := by decide +kernel
  have query' : b.queryToken? = some issued := by decide +kernel
  have refuses : a.Refuses forged .badSignature := Visit.refuses_iff.mpr (by decide +kernel)
  let d : Decoded := ⟨.access, .generate 1700000000000 ⟨1, 2⟩, some 1700000005000, .keyed⟩
  have verdict : v.verdict 1700000005000 issued = .ok d := by decide +kernel
  have accepted : ((b.service.inspect b.nowMs issued).run b.world).1 = .ok d :=
    congrArg Prod.fst (Verifier.run_resolve_ok verdict b.world)
  have unusable : a.Unusable forged := .refused _ refuses
  have unusable' : b.Unusable issued := .absent d accepted rfl
  obtain ⟨routes, queries, silent, -⟩ := answers_of_unusable a b
  refine ⟨⟨_, route, unusable⟩, ⟨_, route', unusable'⟩, ?_, ⟨_, query, unusable⟩,
    ⟨_, query', unusable'⟩, ?_, refuses, route, ?_⟩
  · exact (routes ⟨_, route, unusable⟩ ⟨_, route', unusable'⟩).1
  · exact (queries ⟨_, query, unusable⟩ ⟨_, query', unusable'⟩).1
  · exact ((silent forged .badSignature refuses Memory.store).1 route).1

end BearerToken.Web
