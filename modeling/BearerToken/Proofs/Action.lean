import Mathlib
import BearerToken.Action

/-!
# Running actions

What an action does on a world, for the ways in which actions are put together. What an action
ensures, that it preserves a property of the store and that a result has a property, is put together
in the same ways, so that an invariant of a store's own calls is one of all that is made from them.
So is what two actions on different stores have in common, that they give the same and log the same,
if it holds of the calls of the stores.
-/

namespace BearerToken.Action

variable {σ α β ε : Type} {a : Action σ α} {w w' : World σ} {x : α} {e : Failure}

theorem run_bind_ok {f : α → Action σ β} (first : a.run w = (.ok x, w')) :
    (a >>= f).run w = (f x).run w' := by
  rw [run_bind, first]

theorem run_bind_error {f : α → Action σ β} (first : a.run w = (.error e, w')) :
    (a >>= f).run w = (.error e, w') := by
  rw [run_bind, first]

/-- Steps in a row give a result only if each of them does. -/
theorem exists_of_run_bind_ok {f : α → Action σ β} {y : β} {w'' : World σ}
    (done : (a >>= f).run w = (.ok y, w'')) :
    ∃ x w', a.run w = (.ok x, w') ∧ (f x).run w' = (.ok y, w'') := by
  obtain ⟨e | x, w', made⟩ : ∃ x w', a.run w = (x, w') := ⟨_, _, rfl⟩
  · rw [run_bind_error made] at done
    cases done
  · rw [run_bind_ok made] at done
    exact ⟨x, w', made, done⟩

theorem run_map_ok {f : α → β} (first : a.run w = (.ok x, w')) :
    (f <$> a).run w = (.ok (f x), w') := run_bind_ok first

theorem run_map_error {f : α → β} (first : a.run w = (.error e, w')) :
    (f <$> a).run w = (.error e, w') := run_bind_error first

/-- A step that only computes changes the result and leaves the world. -/
theorem run_bind_pure {f : α → Action σ β} {g : α → β} {r : Except Failure α}
    (first : a.run w = (r, w')) (computes : ∀ x, f x = Pure.pure (g x)) :
    (a >>= f).run w = (r.map g, w') := by
  cases r with
  | error e => exact run_bind_error first
  | ok x =>
      rw [run_bind_ok first, computes]
      rfl

theorem run_recover_ok {handle : Failure → Action σ α} (first : a.run w = (.ok x, w')) :
    (a.recover handle).run w = (.ok x, w') := by
  rw [run] at first
  rw [run, recover, first]

theorem run_recover_error {handle : Failure → Action σ α} (first : a.run w = (.error e, w')) :
    (a.recover handle).run w = (handle e).run w' := by
  rw [run] at first
  rw [run, recover, first]
  rfl

theorem run_ofExcept_ok {wrap : ε → Failure} {r : Except ε α} (right : r = .ok x) (w : World σ) :
    (ofExcept wrap r).run w = (.ok x, w) := by
  rw [right]
  rfl

theorem world_map (f : α → β) (a : Action σ α) (w : World σ) :
    ((f <$> a).run w).2 = (a.run w).2 := by
  obtain ⟨x | e, w', made⟩ : ∃ x w', a.run w = (x, w') := ⟨_, _, rfl⟩
  · rw [run_map_error made, made]
  · rw [run_map_ok made, made]

theorem isOk_map (f : α → β) (a : Action σ α) (w : World σ) :
    ((f <$> a).run w).1.isOk = (a.run w).1.isOk := by
  obtain ⟨x | e, w', made⟩ : ∃ x w', a.run w = (x, w') := ⟨_, _, rfl⟩
  · rw [run_map_error made, made]
    rfl
  · rw [run_map_ok made, made]
    rfl

theorem world_discard (a : Action σ α) (w : World σ) : ((discard a).run w).2 = (a.run w).2 :=
  world_map _ a w

theorem isOk_discard (a : Action σ α) (w : World σ) :
    ((discard a).run w).1.isOk = (a.run w).1.isOk :=
  isOk_map _ a w

theorem world_ofExcept (wrap : ε → Failure) (r : Except ε α) (w : World σ) :
    ((ofExcept wrap r).run w).2 = w := by
  cases r with
  | ok x => rfl
  | error e => rfl

/-- What a reading gives does not depend on the world, and it reports nothing but a principal of an
unknown kind. -/
theorem exists_run_ofReading (read : Except RecordError (Option Reading)) :
    ∃ x told, (∀ event ∈ told, event.name = "unknown_principal_type") ∧
      ∀ w : World σ, (ofReading read).run w = (x, { w with events := w.events ++ told }) := by
  have quiet (x : Except Failure (Option Record)) :
      ∃ y told, (∀ event ∈ told, event.name = "unknown_principal_type") ∧
        ∀ w : World σ, (x, w) = (y, { w with events := w.events ++ told }) :=
    ⟨x, [], nofun, fun w => by rw [List.append_nil]⟩
  obtain cause | _ | reading := read
  · exact quiet _
  · exact quiet _
  · rw [ofReading]
    cases reading.unknownPrincipal with
    | none => exact quiet _
    | some name => exact ⟨_, [.unknownPrincipal name], by simp [Event.name], fun _ => rfl⟩

/-- Where the store has the property `P`, the action preserves it, and its result satisfies `Q`. -/
def Ensures (P : σ → Prop) (a : Action σ α) (Q : α → Prop) : Prop :=
  ∀ w, P w.store → P (a.run w).2.store ∧ ∀ x, (a.run w).1 = .ok x → Q x

section Ensures

variable {P : σ → Prop} {Q : α → Prop} {R : β → Prop}

theorem ensures_pure (holds : Q x) : Ensures P (Pure.pure x) Q :=
  fun _ kept => ⟨kept, fun _ same => Except.ok.inj same ▸ holds⟩

theorem ensures_fail (e : Failure) : Ensures P (fail e) Q :=
  fun _ kept => ⟨kept, fun _ same => nomatch same⟩

theorem ensures_emit (e : Event) : Ensures P (emit e) fun _ => True :=
  fun _ kept => ⟨kept, fun _ _ => trivial⟩

theorem ensures_onStore {f : σ → α × σ} (keeps : ∀ s, P s → P (f s).2 ∧ Q (f s).1) :
    Ensures P (onStore f) Q := by
  intro w kept
  obtain ⟨still, holds⟩ := keeps w.store kept
  exact ⟨still, fun _ same => Except.ok.inj same ▸ holds⟩

theorem preserves_onStore {f : σ → α × σ} (keeps : ∀ s, P s → P (f s).2) :
    Ensures P (onStore f) fun _ => True :=
  ensures_onStore fun s kept => ⟨keeps s kept, trivial⟩

theorem ensures_ofExcept (wrap : ε → Failure) (r : Except ε α) :
    Ensures P (ofExcept wrap r) fun _ => True := by
  cases r with
  | ok x => exact ensures_pure trivial
  | error e => exact ensures_fail _

theorem Ensures.bind {f : α → Action σ β} (first : Ensures P a Q)
    (rest : ∀ x, Q x → Ensures P (f x) R) : Ensures P (a >>= f) R := by
  intro w kept
  obtain ⟨still, holds⟩ := first w kept
  obtain ⟨x | e, w', made⟩ : ∃ x w', a.run w = (x, w') := ⟨_, _, rfl⟩
  · rw [run_bind_error made]
    rw [made] at still
    exact ⟨still, fun _ same => nomatch same⟩
  · rw [run_bind_ok made]
    rw [made] at still holds
    exact rest _ (holds _ rfl) w' still

theorem Ensures.map (f : α → β) (first : Ensures P a Q) : Ensures P (f <$> a) fun _ => True :=
  first.bind fun _ _ => ensures_pure trivial

theorem Ensures.recover {handle : Failure → Action σ α} (first : Ensures P a Q)
    (rest : ∀ e, Ensures P (handle e) Q) : Ensures P (a.recover handle) Q := by
  intro w kept
  obtain ⟨still, holds⟩ := first w kept
  obtain ⟨x | e, w', made⟩ : ∃ x w', a.run w = (x, w') := ⟨_, _, rfl⟩
  · rw [run_recover_error made]
    rw [made] at still
    exact rest _ w' still
  · rw [run_recover_ok made]
    rw [made] at still holds
    exact ⟨still, holds⟩

theorem ensures_ofReading {Q : Option Record → Prop} {read : Except RecordError (Option Reading)}
    (absent : Q none) (found : ∀ reading, read = .ok (some reading) → Q (some reading.record)) :
    Ensures P (ofReading read) Q := by
  obtain cause | _ | reading := read
  · exact ensures_fail _
  · exact ensures_pure absent
  · have holds := found reading rfl
    rw [ofReading]
    cases reading.unknownPrincipal with
    | none => exact ensures_pure holds
    | some name => exact (ensures_emit _).bind fun _ _ => ensures_pure holds

end Ensures

/-- Run on stores of which `P` holds, with the same log, the two actions give the same, log the same
and leave stores of which `R` holds, and their result satisfies `Q`. -/
def Alike {τ : Type} (P R : σ → τ → Prop) (a : Action σ α) (b : Action τ α) (Q : α → Prop) : Prop :=
  ∀ s t events, P s t → ∃ result s' t' log,
    a.run ⟨s, events⟩ = (result, ⟨s', log⟩) ∧ b.run ⟨t, events⟩ = (result, ⟨t', log⟩) ∧
      R s' t' ∧ ∀ x, result = .ok x → Q x

section Alike

variable {τ : Type} {P P' R : σ → τ → Prop} {Q : α → Prop} {Q' : β → Prop} {b : Action τ α}

theorem alike_pure (holds : Q x) : Alike P P (Pure.pure x) (Pure.pure x) Q :=
  fun s t events related =>
    ⟨.ok x, s, t, events, rfl, rfl, related, fun _ same => Except.ok.inj same ▸ holds⟩

theorem alike_fail (e : Failure) : Alike P P (fail e) (fail e) Q :=
  fun s t events related =>
    ⟨.error e, s, t, events, rfl, rfl, related, fun _ same => nomatch same⟩

theorem alike_emit (e : Event) : Alike P P (emit e) (emit e) fun _ => True :=
  fun s t events related =>
    ⟨.ok (), s, t, events ++ [e], rfl, rfl, related, fun _ _ => trivial⟩

theorem alike_onStore {f : σ → α × σ} {g : τ → α × τ}
    (same : ∀ {s t}, P s t → (f s).1 = (g t).1 ∧ R (f s).2 (g t).2 ∧ Q (f s).1) :
    Alike P R (onStore f) (onStore g) Q := by
  intro s t events related
  obtain ⟨result, still, holds⟩ := same related
  refine ⟨.ok (f s).1, (f s).2, (g t).2, events, rfl, ?_, still, ?_⟩
  · rw [result]
    rfl
  · intro x same
    exact Except.ok.inj same ▸ holds

theorem alike_ofExcept (wrap : ε → Failure) (r : Except ε α) :
    Alike P P (ofExcept wrap r) (ofExcept wrap r) fun _ => True := by
  cases r with
  | ok x => exact alike_pure trivial
  | error e => exact alike_fail _

theorem Alike.mono (alike : Alike P P' a b Q) (still : ∀ s t, P' s t → R s t) :
    Alike P R a b Q := by
  intro s t events related
  obtain ⟨result, s', t', log, made, made', related', holds⟩ := alike s t events related
  exact ⟨result, s', t', log, made, made', still s' t' related', holds⟩

/-- The second steps start from what the first ones leave; it has to be enough where these fail. -/
theorem Alike.bind {f : α → Action σ β} {g : α → Action τ β} (first : Alike P P' a b Q)
    (rest : ∀ x, Q x → Alike P' R (f x) (g x) Q') (still : ∀ s t, P' s t → R s t) :
    Alike P R (a >>= f) (b >>= g) Q' := by
  intro s t events related
  obtain ⟨result, s', t', log, made, made', related', holds⟩ := first s t events related
  cases result with
  | error e =>
      exact ⟨.error e, s', t', log, run_bind_error made, run_bind_error made',
        still s' t' related', fun _ same => nomatch same⟩
  | ok x =>
      rw [run_bind_ok made, run_bind_ok made']
      exact rest x (holds x rfl) s' t' log related'

theorem Alike.andThen {f : α → Action σ β} {g : α → Action τ β} (first : Alike P R a b Q)
    (rest : ∀ x, Q x → Alike R R (f x) (g x) Q') : Alike P R (a >>= f) (b >>= g) Q' :=
  first.bind rest fun _ _ still => still

theorem Alike.map (f : α → β) (first : Alike P R a b Q) (image : ∀ x, Q x → Q' (f x)) :
    Alike P R (f <$> a) (f <$> b) Q' :=
  first.andThen fun x holds => alike_pure (image x holds)

theorem Alike.recover {handle : Failure → Action σ α} {handle' : Failure → Action τ α}
    (first : Alike P R a b Q) (handles : ∀ e, Alike R R (handle e) (handle' e) Q) :
    Alike P R (a.recover handle) (b.recover handle') Q := by
  intro s t events related
  obtain ⟨result, s', t', log, made, made', related', holds⟩ := first s t events related
  cases result with
  | error e =>
      rw [run_recover_error made, run_recover_error made']
      exact handles e s' t' log related'
  | ok x =>
      exact ⟨.ok x, s', t', log, run_recover_ok made, run_recover_ok made', related', holds⟩

theorem alike_ofReading (read : Except RecordError (Option Reading)) :
    Alike P P (ofReading read) (ofReading read) fun _ => True := by
  obtain cause | _ | reading := read
  · exact alike_fail _
  · exact alike_pure trivial
  · rw [ofReading, ofReading]
    cases reading.unknownPrincipal with
    | none => exact alike_pure trivial
    | some name =>
        exact (alike_emit _).andThen fun _ _ => alike_pure trivial

end Alike

end BearerToken.Action
