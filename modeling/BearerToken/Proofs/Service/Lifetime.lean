import Mathlib
import BearerToken.Proofs.Service.Coverage
import BearerToken.Proofs.Store.Ledger

/-!
# Retention and lifetime

A record is written when its token is created, and every later use that finds it restarts its
retention. So whatever is called in between, it is there until the retention has passed since the
creation, unless it is deleted. A token that is not past its lifetime has its record up to that
time. The lifetime ends with the millisecond that it names, and the retention, which is in whole
seconds, before the one that it names; so a lifetime as long as the retention outlasts it, by less
than a second.
-/

namespace BearerToken.Service

variable {made : Grant → Prop} {id : TokenId} {deadline nowMs t : Int} {r : Record}

/-- A call on the service, or on its store past the service. -/
inductive Call where
  | use (use : Use)
  | delete (id : TokenId)
  | count

namespace Call

def perform (v : Verifier) (nowMs : Int) : Call → Action Memory Unit
  | .use u => u.perform v.inMemory nowMs
  | .delete id => Memory.shelf.delete id
  | .count => discard (Memory.shelf.count nowMs)

end Call

/-- A call and the time at which it is made. -/
structure Step where
  nowMs : Int
  call : Call

namespace Step

/-- The world that the step leaves. -/
def take (v : Verifier) (w : World Memory) (step : Step) : World Memory :=
  ((step.call.perform v step.nowMs).run w).2

/-- The grant with which the step creates the identifier, if it does. -/
def grant? (id : TokenId) (step : Step) : Option Grant :=
  match step.call with
  | .use (.create entropy _ grant) =>
    if TokenId.generate step.nowMs entropy = id then some grant else none
  | _ => none

theorem grant?_create {entropy : Entropy} {kind : Kind} {grant : Grant}
    (new : TokenId.generate nowMs entropy = id) :
    grant? id ⟨nowMs, .use (.create entropy kind grant)⟩ = some grant := if_pos new

end Step

namespace Covers

variable {v : Verifier} {w : World Memory}

/-- A step at a time from the creation on, other than a deletion of the identifier. -/
theorem take {step : Step}
    (covers : Covers made id (Memory.deadline id.timestampMs v.policy.retentionSeconds) step.nowMs
      w.store)
    (past : id.timestampMs ≤ step.nowMs) (writable : Numeral.isWritable step.nowMs)
    (given : ∀ g ∈ step.grant? id, made g) (undeleted : step.call ≠ .delete id) :
    Covers made id (Memory.deadline id.timestampMs v.policy.retentionSeconds) step.nowMs
      (step.take v w).store := by
  have restarts : Memory.deadline id.timestampMs v.policy.retentionSeconds ≤
      Memory.deadline step.nowMs v.policy.retentionSeconds := by
    simp only [Memory.deadline]
    omega
  obtain ⟨nowMs, call⟩ := step
  cases call with
  | use use =>
      refine (ensures_perform restarts writable use past ?_ w covers).1
      rintro entropy kind grant rfl new
      exact given grant (Step.grant?_create new)
  | delete other =>
      apply covers.delete
      rintro rfl
      exact undeleted rfl
  | count => exact covers.purge

theorem steps {steps : List Step}
    (covers : Covers made id (Memory.deadline id.timestampMs v.policy.retentionSeconds) nowMs
      w.store)
    (past : id.timestampMs ≤ nowMs) (nonneg : 0 ≤ nowMs) (writable : Numeral.isWritable t)
    (ordered : (nowMs :: steps.map Step.nowMs ++ [t]).Pairwise (· ≤ ·))
    (given : ∀ g ∈ steps.filterMap (Step.grant? id), made g)
    (undeleted : ∀ step ∈ steps, step.call ≠ .delete id) :
    Covers made id (Memory.deadline id.timestampMs v.policy.retentionSeconds) t
      (steps.foldl (Step.take v) w).store := by
  induction steps generalizing nowMs w with
  | nil =>
      have later : nowMs ≤ t := by simpa using ordered
      exact covers.mono later
  | cons step rest ih =>
      obtain ⟨first, ordered⟩ := List.pairwise_cons.mp ordered
      have later : nowMs ≤ step.nowMs := first _ (by simp)
      have last : step.nowMs ≤ t := (List.pairwise_cons.mp ordered).1 t (by simp)
      have now : Numeral.isWritable step.nowMs :=
        Numeral.isWritable_of_natAbs_le (by omega) writable
      have taken := (covers.mono later).take (past.trans later) now
        (fun g found => given g (List.mem_filterMap.mpr ⟨step, List.mem_cons_self, found⟩))
        (undeleted step List.mem_cons_self)
      refine ih taken (past.trans later) (nonneg.trans later) ordered ?_ ?_
      · intro g found
        obtain ⟨other, member, found⟩ := List.mem_filterMap.mp found
        exact given g (List.mem_filterMap.mpr ⟨other, List.mem_cons_of_mem _ member, found⟩)
      · exact fun other member => undeleted other (List.mem_cons_of_mem _ member)

end Covers

variable {v : Verifier} {w w₀ : World Memory} {created : Int} {entropy : Entropy} {kind : Kind}
  {grant : Grant} {wire : String} {d : Decoded}

/-- A creation that gives a text has encoded it, and has written the record. -/
theorem covers_create (once : w.store.Nodup) (range : InRange created)
    (new : TokenId.generate created entropy = id)
    (issued : (v.inMemory.create created entropy kind grant).run w = (.ok wire, w₀))
    (given : made grant) :
    v.codec.encode kind id (v.policy.ttlFor kind) = .ok wire ∧
      Covers made id (Memory.deadline id.timestampMs v.policy.retentionSeconds) created
        w₀.store := by
  have time := range.timestampMs_eq new
  obtain ⟨kept, encoded, written⟩ := of_issued new issued
  have describes : Describes made id created (grant.record id) :=
    ⟨grant, created, given, le_rfl, time ▸ Grant.keeps_record kept rfl⟩
  refine ⟨encoded, ?_⟩
  rw [time, written]
  exact Covers.of_put once describes le_rfl

/-- What is accepted is what the text says, and within the lifetime of its kind. -/
theorem alive_of_accepted {token : Presented} (accepted : v.verdict t token = .ok d) :
    v.codec.decodePresented token = .ok d ∧ t ≤ d.id.timestampMs + v.policy.ttlFor d.kind := by
  rw [Verifier.verdict] at accepted
  cases decoded : v.codec.decodePresented token with
  | error cause =>
      rw [decoded] at accepted
      cases accepted
  | ok d' =>
      rw [decoded] at accepted
      cases checked : v.policy.check d' t with
      | error cause => simp [bind, Except.bind, checked] at accepted
      | ok _ =>
          obtain rfl : d' = d := by
            simpa [bind, Except.bind, checked, pure, Except.pure] using accepted
          exact ⟨rfl, (Policy.checkFields_eq_ok_iff.mp checked).1⟩

/-- What an encoded text is read as, if it is read. -/
theorem eq_of_decoded
    (encoded : v.codec.encode kind id (v.policy.ttlFor kind) = .ok wire)
    (decoded : v.codec.decode wire = .ok d) : d.kind = kind ∧ d.id = id := by
  obtain ⟨fits, spelled⟩ := Codec.fits_of_encode encoded
  rw [spelled] at decoded
  by_cases accepts : v.codec.version = .plain → v.codec.acceptLegacy
  · rw [Codec.decode_payload ⟨rfl, rfl⟩ fits id accepts] at decoded
    cases decoded
    exact ⟨rfl, rfl⟩
  · obtain ⟨plain, refuses⟩ := Classical.not_imp.mp accepts
    rw [Codec.decode_payload_refused plain (Bool.eq_false_iff.mpr refuses)] at decoded
    cases decoded

/-- A lookup before the deadline gives a record with what one of the grants gave. -/
theorem lookup_of_covers {token : Presented} (covers : Covers made id deadline t w.store)
    (accepted : v.verdict t token = .ok d) (same : d.id = id) (early : t < deadline)
    (writable : Numeral.isWritable t) :
    ∃ g, made g ∧ ((v.inMemory.lookup t token).run w).1.map (Option.map Record.normal) =
      .ok (some (Standing.record ⟨g, id.timestampMs, t⟩ id t)) := by
  subst same
  obtain ⟨r, last, describes, far, shown⟩ := covers.held
  have live := shown t le_rfl
  rw [if_pos (early.trans_le far)] at live
  have noted : Numeral.isWritable (max r.accessed t) := by rwa [describes.max_accessed]
  obtain ⟨g, given, whole⟩ := describes.normal_markAccessed
  refine ⟨g, given, ?_⟩
  rw [run_lookup_live accepted live describes.persistable noted]
  exact congrArg (fun r => Except.ok (some r)) whole

/-- A creation in a fresh store, and what its text is accepted as. -/
theorem exists_issued (v : Verifier) (keyed : v.codec.version = .keyed)
    (range : InRange created) (new : TokenId.generate created entropy = id) (kind : Kind)
    (fits : Codec.Fits kind (created + v.policy.ttlFor kind)) (grant : Grant)
    (kept : Fields.IsPersistable (grant.record id)) :
    ∃ wire events,
      (v.inMemory.create created entropy kind grant).run ⟨.empty, []⟩ =
        (.ok wire, ⟨Memory.empty.put created id (Fields.ofRecord (grant.record id))
          v.policy.retentionSeconds, events⟩) ∧
      ∀ t ≤ created + v.policy.ttlFor kind, v.verdict t (Text.ofString wire) =
        .ok ⟨kind, id, Codec.embedded kind (created + v.policy.ttlFor kind), v.codec.version⟩ := by
  have time := range.timestampMs_eq new
  have accepts (plain : v.codec.version = .plain) : v.codec.acceptLegacy = true := by
    rw [keyed] at plain
    cases plain
  rw [← time] at fits
  obtain ⟨wire, encoded, accepted⟩ := exists_accepted v accepts fits
  obtain ⟨events, done⟩ := run_create (v := v) (w := ⟨.empty, []⟩) new kept kind
  rw [Action.run_ofExcept_ok encoded] at done
  rw [time] at accepted
  exact ⟨wire, events, done, accepted⟩

theorem inspect_of_accepted {token : Presented} (accepted : v.verdict t token = .ok d)
    (w : World Memory) : ((v.inMemory.inspect t token).run w).1 = .ok d := by
  rw [result_inspect, accepted]
  rfl

/-- A token that an inspection accepts has its record, whatever was called since its creation short
of a deletion, until the retention in whole seconds has passed since then. Where the retention is at
least the lifetime, that leaves less than a second at the end of the lifetime. -/
theorem lookup_while_retained {v : Verifier} {w w₀ : World Memory} (once : w.store.Nodup)
    {created t : Int} (range : InRange created) {entropy : Entropy} {id : TokenId}
    (new : TokenId.generate created entropy = id) {kind : Kind} {grant : Grant} {wire : String}
    (issued : (v.inMemory.create created entropy kind grant).run w = (.ok wire, w₀))
    (covers : v.policy.ttlFor kind ≤ v.policy.retentionMs) {steps : List Step}
    (ordered : (created :: steps.map Step.nowMs ++ [t]).Pairwise (· ≤ ·))
    (undeleted : ∀ step ∈ steps, step.call ≠ .delete id) (writable : Numeral.isWritable t)
    {d : Decoded} :
    let w' := steps.foldl (Step.take v) w₀
    ((v.inMemory.inspect t (Text.ofString wire)).run w').1 = .ok d →
      d.id = id ∧ t ≤ created + v.policy.ttlFor kind ∧
      t < created + v.policy.retentionSeconds * 1000 + 1000 ∧
      (t < created + v.policy.retentionSeconds * 1000 →
        ∃ g ∈ grant :: steps.filterMap (Step.grant? id),
          ((v.inMemory.lookup t (Text.ofString wire)).run w').1.map (Option.map Record.normal) =
            .ok (some (Standing.record ⟨g, created, t⟩ id t))) := by
  intro w' inspected
  have time := range.timestampMs_eq new
  let grants : Grant → Prop := (· ∈ grant :: steps.filterMap (Step.grant? id))
  have given : grants grant := List.mem_cons_self
  obtain ⟨encoded, start⟩ := covers_create once range new issued given
  obtain ⟨decoded, alive⟩ := alive_of_accepted (verdict_of_inspect inspected)
  obtain ⟨kind_eq, id_eq⟩ := eq_of_decoded encoded decoded
  rw [kind_eq, id_eq, time] at alive
  have whole : v.policy.retentionMs < v.policy.retentionSeconds * 1000 + 1000 := by
    rw [Policy.retentionSeconds]
    omega
  have within : t < created + v.policy.retentionSeconds * 1000 + 1000 := by omega
  refine ⟨id_eq, alive, within, ?_⟩
  intro early
  have kept := start.steps time.le range.1 writable ordered
    (fun g found => List.mem_cons_of_mem _ found) undeleted
  have before : t < Memory.deadline id.timestampMs v.policy.retentionSeconds := by
    rwa [Memory.deadline, time]
  have law := lookup_of_covers kept (verdict_of_inspect inspected) id_eq before writable
  rwa [time] at law

/-- A millisecond before the end a token of a week still has its record. -/
theorem lookup_while_retained_last :
    let c : Codec := ⟨"s", by decide, .keyed, true, .standard⟩
    let v : Verifier := ⟨c, .withOverrides (fun _ => none) none⟩
    let id : TokenId := TokenId.generate 1700000000000 ⟨0, 0⟩
    let other : TokenId := TokenId.generate 1700000000000 ⟨0, 1⟩
    let steps : List Step := [⟨1700000000001, .delete other⟩, ⟨1700000000002, .count⟩]
    ∃ wire w₀ d,
      (v.inMemory.create 1700000000000 ⟨0, 0⟩ .refresh {}).run ⟨.empty, []⟩ = (.ok wire, w₀) ∧
      let w := steps.foldl (Step.take v) w₀
      ((v.inMemory.inspect 1700604799999 (Text.ofString wire)).run w).1 = .ok d ∧
      ((v.inMemory.lookup 1700604799999 (Text.ofString wire)).run w).1.map
          (Option.map Record.normal) =
        .ok (some (Standing.record ⟨{}, 1700000000000, 1700604799999⟩ id 1700604799999)) := by
  intro c v id other steps
  have range : InRange 1700000000000 := ⟨by decide, by decide⟩
  have apart : other ≠ id := by decide +kernel
  have kept : Fields.IsPersistable (({} : Grant).record id) :=
    Grant.isPersistable_record (by decide +kernel)
  have new : TokenId.generate 1700000000000 ⟨0, 0⟩ = id := rfl
  clear_value id other
  obtain ⟨wire, events, issued, accepted⟩ :=
    exists_issued v rfl range new .refresh (fun _ => by decide) {} kept
  have inspected := inspect_of_accepted (accepted 1700604799999 (by decide))
  have ordered : (1700000000000 :: steps.map Step.nowMs ++ [1700604799999]).Pairwise (· ≤ ·) := by
    change List.Pairwise (· ≤ ·)
      [1700000000000, 1700000000001, 1700000000002, (1700604799999 : Int)]
    decide
  have undeleted : ∀ step ∈ steps, step.call ≠ .delete id := by simp [steps, apart]
  have writable : Numeral.isWritable 1700604799999 := by decide +kernel
  refine ⟨wire, _, _, issued, inspected _, ?_⟩
  obtain ⟨-, -, -, law⟩ := lookup_while_retained Memory.nodup_empty range new issued (by decide)
    ordered undeleted writable (inspected _)
  obtain ⟨g, given, found⟩ := law (by decide)
  obtain rfl : g = {} := List.mem_singleton.mp given
  exact found

/-- The last millisecond of a lifetime that is as long as the retention is one too many, and a time
that is too long to be written is too long for a lookup. -/
theorem not_lookup_of_accepted :
    let c : Codec := ⟨"s", by decide, .keyed, true, .standard⟩
    (let v : Verifier := ⟨c, .withOverrides (fun _ => none) none⟩
    v.policy.ttlFor .refresh ≤ v.policy.retentionMs ∧
    ∃ wire w₀ d,
      (v.inMemory.create 1700000000000 ⟨0, 0⟩ .refresh {}).run ⟨.empty, []⟩ = (.ok wire, w₀) ∧
      ((v.inMemory.inspect 1700604800000 (Text.ofString wire)).run w₀).1 = .ok d ∧
      ((v.inMemory.lookup 1700604800000 (Text.ofString wire)).run w₀).1 = .ok none) ∧
    (let long : Int := 10 ^ 4300
    let v : Verifier :=
      ⟨c, .withOverrides (fun _ => some ((long + 1) * 1000)) (some ((long + 1) * 1000))⟩
    v.policy.ttlFor .email ≤ v.policy.retentionMs ∧
    ∃ wire w₀ d,
      (v.inMemory.create 0 ⟨0, 0⟩ .email {}).run ⟨.empty, []⟩ = (.ok wire, w₀) ∧
      ((v.inMemory.inspect long (Text.ofString wire)).run w₀).1 = .ok d ∧
      ((v.inMemory.lookup long (Text.ofString wire)).run w₀).1 =
        .error (.unwritable .tooLong)) := by
  intro c
  constructor
  · intro v
    have range : InRange 1700000000000 := ⟨by decide, by decide⟩
    generalize new : TokenId.generate 1700000000000 ⟨0, 0⟩ = id
    have kept : Fields.IsPersistable (({} : Grant).record id) := by
      rw [← new]
      exact Grant.isPersistable_record (by decide +kernel)
    obtain ⟨wire, events, issued, accepted⟩ :=
      exists_issued v rfl range new .refresh (fun _ => by decide) {} kept
    have accepted := accepted 1700604800000 (by decide)
    refine ⟨by decide, wire, _, _, issued, inspect_of_accepted accepted _, ?_⟩
    rw [run_lookup_gone accepted]
    rw [Memory.live?_put Memory.nodup_empty (by decide), if_pos rfl, if_neg (by decide)]
  · intro long v
    have unwritable : Numeral.isWritable long = false :=
      Numeral.isWritable_pow_eq_false rfl (by decide)
    have positive : 0 < long := pow_pos (by decide) _
    clear_value long
    have override : Policy.positiveOr (some ((long + 1) * 1000)) Kind.longAgeMs =
        (long + 1) * 1000 := by
      rw [Policy.positiveOr, if_pos (by omega)]
    have lifetime : v.policy.ttlFor .email = (long + 1) * 1000 := override
    have retention : v.policy.retentionSeconds = long + 1 := by
      have whole : v.policy.retentionMs = (long + 1) * 1000 := override
      rw [Policy.retentionSeconds, whole]
      omega
    have range : InRange 0 := ⟨by decide, by decide⟩
    generalize new : TokenId.generate 0 ⟨0, 0⟩ = id
    have time := range.timestampMs_eq new
    have kept : Fields.IsPersistable (({} : Grant).record id) := by
      rw [← new]
      exact Grant.isPersistable_record (by decide +kernel)
    obtain ⟨wire, events, issued, accepted⟩ := exists_issued v rfl range new .email
      (fun embeds => absurd embeds (by decide)) {} kept
    have accepted := accepted long (by omega)
    refine ⟨le_rfl, wire, _, _, issued, inspect_of_accepted accepted _, ?_⟩
    have live : (Memory.empty.put 0 id (Fields.ofRecord (({} : Grant).record id))
        v.policy.retentionSeconds).live? long id =
          some (Fields.ofRecord (({} : Grant).record id)) := by
      rw [Memory.live?_put Memory.nodup_empty positive.le, if_pos rfl, Memory.deadline, retention,
        if_pos (by omega)]
    have latest : max (({} : Grant).record id).accessed long = long := by
      rw [show (({} : Grant).record id).accessed = id.timestampMs from rfl, time]
      exact max_eq_right positive.le
    rw [run_lookup_unwritable accepted live kept (by rwa [latest])]

end BearerToken.Service
