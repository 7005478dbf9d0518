import Mathlib
import BearerToken.Proofs.Service.Contents
import BearerToken.Proofs.Service.Lifetime
import BearerToken.Proofs.Service.Tasks

/-!
# Calls that overlap

Calls that overlap take their steps in turns, in any order and at any times. Between two steps of a
lookup or a refresh the record that it holds may be used, may be written anew, or may go. What holds
all the same is that each entry of the store, and each record that a task holds, says what a creation
gave its identifier. A step preserves this, and so does a run of any number of steps.
-/

namespace BearerToken.Service

open BearerToken.Action (Ensures)

/-- The identifier of the record that the call writes at first, and what it is bound to, unless the
record cannot be written. -/
def Request.written? (nowMs : Int) (request : Request) : Option (TokenId × Grant) :=
  (request.issued? nowMs).filter fun made => (Fields.fault? (made.2.record made.1)).isNone

theorem Request.written?_eq {nowMs : Int} {request : Request} {id : TokenId} {grant : Grant}
    (issued : request.issued? nowMs = some (id, grant))
    (writable : Fields.fault? (grant.record id) = none) :
    request.written? nowMs = some (id, grant) := by
  rw [written?, issued, Option.filter_some, writable]
  rfl

/-- The request reads the record of what its token says. -/
def Aim.Asks (aim : Aim) (v : Verifier) (request : Request) (d : Decoded) : Prop :=
  ∃ token, request = aim.request token ∧ v.codec.decodePresented token = .ok d

namespace Task

variable {σ α : Type} {v : Verifier} {given given' : TokenId → Standing → Prop} {request : Request}
  {task : Task} {readMs nowMs : Int} {w : World Memory}

/-- What the next step creates. -/
def written? (readMs : Int) : Task → Option (TokenId × Grant)
  | .asked request => request.written? readMs
  | _ => none

/-- The identifier whose record the next step uses, and the task's own reading of the clock. -/
def accessed? (readMs : Int) : Task → Option (TokenId × Int)
  | .touching d | .holding _ d _ => some (d.id, readMs)
  | _ => none

/-- Whether the next step notes an access in the store. -/
def notes : Task → Bool
  | .touching _ | .holding .lookup _ _ => true
  | _ => false

/-- A task of the request holds, and gives, only records that say what a creation gave. -/
def Sound (v : Verifier) (given : TokenId → Standing → Prop) (request : Request) : Task → Prop
  | .asked begun => begun = request
  | .touching _ => True
  | .reading aim d => aim.Asks v request d
  | .holding aim d r => aim.Asks v request d ∧
      ∃ s kept, given d.id s ∧ s.Retains d.id kept ∧ r = Fields.reread kept
  | .ended (.ok (.found (some r))) => ∃ d s kept, Aim.lookup.Asks v request d ∧ given d.id s ∧
      given d.id { s with last := r.accessed } ∧ s.Retains d.id kept ∧
        r = { Fields.reread kept with accessed := r.accessed }
  | .ended _ => True

theorem Sound.mono (sound : task.Sound v given request)
    (more : ∀ id s, given id s → given' id s) : task.Sound v given' request := by
  cases task with
  | asked begun => exact sound
  | touching d => trivial
  | reading aim d => exact sound
  | holding aim d r =>
      obtain ⟨asks, s, kept, may, retains, read⟩ := sound
      exact ⟨asks, s, kept, more d.id s may, retains, read⟩
  | ended outcome =>
      obtain e | answer := outcome
      · trivial
      · cases answer with
        | found record =>
            cases record with
            | none => trivial
            | some r =>
                obtain ⟨d, s, kept, asks, may, noted, retains, read⟩ := sound
                exact ⟨d, s, kept, asks, more _ _ may, more _ _ noted, retains, read⟩
        | _ => trivial

/-- A step that ensures what the next stage needs, whichever way it goes. -/
theorem leads_of_ensures {P : σ → Prop} {T : Task → Prop} {a : Action σ α} {Q : α → Prop}
    {next : α → Task} {ending : Failure → Except Failure Answer} {w : World σ}
    (ensures : Ensures P a Q) (kept : P w.store) (goes : ∀ x, Q x → T (next x))
    (ends : ∀ e, T (.ended (ending e))) :
    P (leads a next ending w).2.store ∧ T (leads a next ending w).1 := by
  obtain ⟨still, holds⟩ := ensures w kept
  obtain ⟨e | x, w', made⟩ : ∃ x w', a.run w = (x, w') := ⟨_, _, rfl⟩
  · rw [leads_error made]
    rw [made] at still
    exact ⟨still, ends e⟩
  · rw [leads_ok made]
    rw [made] at still holds
    exact ⟨still, goes x (holds x rfl)⟩

theorem ensures_verdict {P : σ → Prop} (v : Verifier) (nowMs : Int) (token : Presented) :
    Ensures P (v.resolve nowMs token) fun d => v.verdict nowMs token = .ok d := by
  rw [Verifier.resolve]
  cases verdict : v.verdict nowMs token with
  | ok d => exact Action.ensures_pure rfl
  | error cause => exact (Action.ensures_emit _).bind fun _ _ => Action.ensures_fail _

theorem sound_ending (aim : Aim) (e : Failure) : (ended (aim.ending e)).Sound v given request := by
  cases aim with
  | lookup => cases e <;> trivial
  | refresh => cases e <;> trivial

theorem sound_touchEnding (e : Failure) : (ended (touchEnding e)).Sound v given request := by
  cases e <;> trivial

section Step

variable (v) (nowMs)
  (new : ∀ id grant, task.written? readMs = some (id, grant) →
    given id ⟨grant, id.timestampMs, id.timestampMs⟩)
  (noted : ∀ id, task.accessed? readMs = some (id, readMs) →
    ∀ s, given id s → given id { s with last := readMs })
  (shared : ∀ id s s', given id s → given id s' → given id { s with last := s'.last })

theorem ensures_issue {id : TokenId} {grant : Grant}
    (fits : Fields.fault? (grant.record id) = none →
      given id ⟨grant, id.timestampMs, id.timestampMs⟩) (kind : Kind) :
    Ensures (Contents given) (v.inMemory.issue nowMs id kind grant) fun _ => True := by
  have written := Contents.ensures_put
    (fun fault => ⟨_, fits fault, Grant.retains_record fault⟩) nowMs v.policy.retentionSeconds
  exact written.bind fun _ _ => (Action.ensures_emit _).bind fun _ _ => Action.ensures_ofExcept _ _

theorem ensures_renew {d : Decoded} {r : Record} {s : Standing} (retains : s.Retains d.id r)
    (may : given d.id { s with last := max s.last readMs }) :
    Ensures (Contents given) (v.inMemory.renew readMs nowMs d r) fun _ => True := by
  have fits (fault : Fields.fault? (r.markAccessed readMs) = none) :
      ∃ s, given d.id s ∧ s.Retains d.id (r.markAccessed readMs) :=
    ⟨_, may, retains.markAccessed (Fields.fault?_eq_none_iff.mp fault).2.1⟩
  have encoded : Ensures (Contents given) (.ofExcept .expiryOverflow
      (v.codec.encode .access d.id (v.policy.ttlFor .access))) fun _ => True :=
    Action.ensures_ofExcept _ _
  refine (Contents.ensures_put fits nowMs _).bind fun _ _ => (Action.ensures_emit _).bind ?_
  intro _ _
  dsimp only
  split
  · exact (Action.ensures_emit _).bind fun _ _ => encoded
  · exact encoded

include new noted shared

/-- A step leaves a store whose entries say what a creation gave, and a task that does so. -/
theorem sound_step (contents : Contents given w.store) (sound : task.Sound v given request) :
    Contents given (task.step v.inMemory readMs nowMs w).2.store ∧
      (task.step v.inMemory readMs nowMs w).1.Sound v given request := by
  -- A time of access that is told from a record is that of the record or the reading.
  have marked (d : Decoded) (accessed : task.accessed? readMs = some (d.id, readMs)) (s : Standing)
      (may : given d.id s) (s' : Standing) (may' : given d.id s') :
      given d.id { s' with last := max s.last readMs } := by
    obtain old | read := max_choice s.last readMs
    · rw [old]
      exact shared d.id s' s may' may
    · rw [read]
      exact noted d.id accessed s' may'
  cases task with
  | asked begun =>
      obtain rfl : begun = request := sound
      cases begun with
      | create entropy kind grant =>
          have fits := fun fault => new _ grant (Request.written?_eq rfl fault)
          exact leads_of_ensures (ensures_issue v nowMs fits kind) contents
            (fun _ _ => trivial) fun _ => trivial
      | createForPrincipal entropy principal state =>
          have fits := fun fault => new _ _ (Request.written?_eq rfl fault)
          exact leads_of_ensures (ensures_issue v nowMs fits .access) contents
            (fun _ _ => trivial) fun _ => trivial
      | lookup token =>
          exact leads_of_ensures (ensures_verdict v readMs token) contents
            (fun d accepted => ⟨token, rfl, (alive_of_accepted accepted).1⟩) (sound_ending .lookup)
      | refresh token =>
          exact leads_of_ensures (ensures_verdict v readMs token) contents
            (fun d accepted => ⟨token, rfl, (alive_of_accepted accepted).1⟩) (sound_ending .refresh)
      | touch token =>
          exact leads_of_ensures (ensures_verdict v readMs token) contents
            (fun _ _ => trivial) sound_touchEnding
      | inspect token =>
          exact leads_of_ensures (ensures_verdict v readMs token) contents
            (fun _ _ => trivial) fun _ => trivial
  | touching d =>
      have written := Contents.ensures_setAccessed (noted d.id rfl) nowMs v.policy.retentionSeconds
      exact leads_of_ensures (written.bind fun _ _ => Action.ensures_emit _) contents
        (fun _ _ => trivial) sound_touchEnding
  | reading aim d =>
      refine leads_of_ensures (Contents.ensures_fetch v nowMs d) contents ?_ (sound_ending aim)
      rintro r ⟨s, kept, may, retains, read⟩
      exact ⟨sound, s, kept, may, retains, read⟩
  | holding aim d r =>
      obtain ⟨asks, s, kept, may, retains, rfl⟩ := sound
      have accessed : ((Fields.reread kept).markAccessed readMs).accessed = max s.last readMs :=
        congrArg (max · readMs) retains.accessed_eq
      cases aim with
      | lookup =>
          have written := Contents.ensures_noteAccess v (marked d rfl s may) nowMs
          rw [← accessed] at written
          refine leads_of_ensures written contents (fun _ _ => ?_) (sound_ending .lookup)
          exact ⟨d, s, kept, asks, may, accessed ▸ marked d rfl s may s may, retains, rfl⟩
      | refresh =>
          exact leads_of_ensures (ensures_renew v nowMs retains.reread (marked d rfl s may s may))
            contents (fun _ _ => trivial) (sound_ending .refresh)
  | ended outcome => exact ⟨contents, sound⟩

end Step

/-- Where a record is not live at the time, no note of an access makes it so. -/
theorem gone_step (v : Verifier) (readMs : Int) {id : TokenId} (notes : task.notes)
    (gone : w.store.live? nowMs id = none) {t : Int} (later : nowMs ≤ t) :
    (task.step v.inMemory readMs nowMs w).2.store.live? t id = none := by
  let Gone (m : Memory) : Prop := ∀ t, nowMs ≤ t → m.live? t id = none
  have gone : Gone w.store := fun t later => Memory.live?_eq_none_of_le later gone
  have written (other : TokenId) (accessed ttl : Int) :
      Ensures Gone (.onStore fun m => ((), m.setAccessed nowMs other accessed ttl))
        fun _ => True := by
    refine Action.preserves_onStore fun m gone t later => ?_
    rw [Memory.live?_setAccessed later, gone t later]
    split
    · next same =>
      rw [same, gone nowMs le_rfl]
      exact ite_self _
    · rfl
  have noted (other : TokenId) (accessed ttl : Int) :
      Ensures Gone (Memory.store.setAccessed nowMs other accessed ttl) fun _ => True := by
    simp only [Memory.store]
    refine (Action.preserves_onStore fun m gone => gone).bind ?_
    intro held _
    split
    · exact (Action.ensures_fail (Q := fun _ => True) _).bind fun _ _ => written _ _ _
    · exact written _ _ _
  cases task with
  | touching d =>
      have ends := (noted d.id readMs v.policy.retentionSeconds).bind fun _ _ =>
        Action.ensures_emit (.touched d.id)
      exact (leads_of_ensures (T := fun _ => True) ends gone (by simp) (by simp)).1 t later
  | holding aim d r =>
      cases aim with
      | lookup =>
          have ends : Ensures Gone
              (v.inMemory.noteAccess nowMs d.id (r.markAccessed readMs).accessed) fun _ => True := by
            refine (noted d.id _ _).recover fun e => ?_
            cases e with
            | store cause => exact Action.ensures_emit _
            | _ => exact Action.ensures_fail _
          exact (leads_of_ensures (T := fun _ => True) ends gone (by simp) (by simp)).1 t later
      | refresh => cases notes
  | _ => cases notes

end Task

/-- A step of a task: the task's own reading of the clock, and the time at which it reaches the
store. -/
structure Move where
  task : Nat
  readMs : Int
  nowMs : Int

/-- Tasks on one store in memory, with what they have created and when they have used it. -/
structure Scene where
  world : World Memory
  tasks : List Task
  issues : Table TokenId Grant
  accesses : List (TokenId × Int)

namespace Scene

/-- A fresh store, and calls that have not begun. -/
def opening (requests : List Request) : Scene := ⟨⟨.empty, []⟩, requests.map .asked, .empty, []⟩

/-- One of the tasks, which is given here, has taken its next step. -/
def stepped (v : Verifier) (x : Scene) (move : Move) (task : Task) : Scene :=
  let made := task.step v.inMemory move.readMs move.nowMs x.world
  { world := made.2
    tasks := x.tasks.set move.task made.1
    issues := ⟨x.issues.entries ++ (task.written? move.readMs).toList⟩
    accesses := x.accesses ++ (task.accessed? move.readMs).toList }

/-- One of the tasks, if there is such a one, takes its next step. -/
def next (v : Verifier) (x : Scene) (move : Move) : Scene :=
  match x.tasks[move.task]? with
  | none => x
  | some task => x.stepped v move task

/-- The scene after some moves. -/
def after (v : Verifier) (requests : List Request) (moves : List Move) : Scene :=
  moves.foldl (next v) (opening requests)

theorem after_concat (v : Verifier) (requests : List Request) (moves : List Move) (move : Move) :
    after v requests (moves ++ [move]) = (after v requests moves).next v move := by
  rw [after, List.foldl_append]
  rfl

/-- The standings that the tasks can have given the identifier. -/
structure Given (x : Scene) (id : TokenId) (s : Standing) : Prop where
  issued : (id, s.grant) ∈ x.issues.entries
  created : s.created = id.timestampMs
  last : s.last = id.timestampMs ∨ (id, s.last) ∈ x.accesses

section Stepped

variable {v : Verifier} {requests : List Request} {x : Scene} {move : Move} {task : Task}
  {id : TokenId} {s s' : Standing}

/-- What could have been given before a step still can have been given after it. -/
theorem Given.stepped (may : x.Given id s) : (x.stepped v move task).Given id s where
  issued := List.mem_append_left _ may.issued
  created := may.created
  last := may.last.imp_right (List.mem_append_left _)

theorem given_written {grant : Grant} (written : task.written? move.readMs = some (id, grant)) :
    (x.stepped v move task).Given id ⟨grant, id.timestampMs, id.timestampMs⟩ where
  issued := List.mem_append_right _ (by simp [written])
  created := rfl
  last := .inl rfl

theorem Given.accessed (may : (x.stepped v move task).Given id s)
    (accessed : task.accessed? move.readMs = some (id, move.readMs)) :
    (x.stepped v move task).Given id { s with last := move.readMs } where
  issued := may.issued
  created := may.created
  last := .inr (List.mem_append_right _ (by simp [accessed]))

/-- Any of the times of access goes with any of the grants. -/
theorem Given.withLast (may : x.Given id s) (may' : x.Given id s') :
    x.Given id { s with last := s'.last } where
  issued := may.issued
  created := may.created
  last := may'.last

/-- All that the store and the tasks hold says what a creation gave. -/
structure Sound (v : Verifier) (requests : List Request) (x : Scene) : Prop where
  contents : Contents x.Given x.world.store
  tasks : ∀ (i : Nat) task, x.tasks[i]? = some task →
    ∃ request, requests[i]? = some request ∧ task.Sound v x.Given request

theorem sound_opening (v : Verifier) (requests : List Request) :
    Sound v requests (opening requests) where
  contents := .empty _
  tasks i task held := by
    obtain ⟨request, asked, rfl⟩ := Option.map_eq_some_iff.mp (List.getElem?_map ▸ held)
    exact ⟨request, asked, rfl⟩

theorem Sound.stepped (sound : x.Sound v requests) (held : x.tasks[move.task]? = some task) :
    (x.stepped v move task).Sound v requests := by
  obtain ⟨request, asked, stage⟩ := sound.tasks move.task task held
  obtain ⟨contents, stage'⟩ := Task.sound_step v move.nowMs (fun _ _ => given_written)
    (fun _ accessed _ may => may.accessed accessed) (fun _ _ _ => Given.withLast)
    (sound.contents.mono fun _ _ => Given.stepped) (stage.mono fun _ _ => Given.stepped)
  refine ⟨contents, ?_⟩
  intro i other held'
  rw [Scene.stepped, List.getElem?_set] at held'
  split at held'
  · next same =>
    rw [if_pos (same ▸ (List.getElem?_eq_some_iff.mp held).1)] at held'
    obtain rfl := Option.some.inj held'
    exact ⟨request, same ▸ asked, stage'⟩
  · obtain ⟨request', asked', stage''⟩ := sound.tasks i other held'
    exact ⟨request', asked', stage''.mono fun _ _ => Given.stepped⟩

theorem Sound.next (sound : x.Sound v requests) (move : Move) :
    (x.next v move).Sound v requests := by
  rw [Scene.next]
  split
  · exact sound
  · next task held => exact sound.stepped held

theorem sound_after (v : Verifier) (requests : List Request) (moves : List Move) :
    (after v requests moves).Sound v requests := by
  induction moves using List.reverseRecOn with
  | nil => exact sound_opening v requests
  | append_singleton moves move ih =>
      rw [after_concat]
      exact ih.next move

end Stepped

/-- What a scene holds is as it was created. -/
structure Intact (v : Verifier) (requests : List Request) (x : Scene) : Prop where
  /-- An entry is as its creation wrote it, but for a time of access that is the creation or a reading
  of a call that used the identifier. -/
  entries : ∀ id e, x.world.store.entries.get? id = some e → ∃ grant accessed,
    x.issues.get? id = some grant ∧ grant.Wrote id e.fields ∧
      e.fields.get? Fields.accessedField = some (Numeral.write accessed : Text) ∧
        (accessed = id.timestampMs ∨ (id, accessed) ∈ x.accesses)
  /-- So is a record that a lookup has given, of what its token says. -/
  found : ∀ (i : Nat) token r, requests[i]? = some (.lookup token) →
    x.tasks[i]? = some (.ended (.ok (.found (some r)))) → ∃ d grant,
      v.codec.decodePresented token = .ok d ∧ x.issues.get? d.id = some grant ∧
        grant.Wrote d.id (Fields.ofRecord r) ∧
          r.normal = Standing.record ⟨grant, d.id.timestampMs, r.accessed⟩ d.id r.accessed ∧
            (r.accessed = d.id.timestampMs ∨ (d.id, r.accessed) ∈ x.accesses)
  /-- No note of an access brings a record back that is not live. -/
  gone : ∀ move task, x.tasks[move.task]? = some task → task.notes → ∀ id,
    x.world.store.live? move.nowMs id = none → ∀ t, move.nowMs ≤ t →
      (x.next v move).world.store.live? t id = none

end Scene

/-- Calls that create distinct identifiers leave what they create intact, however they overlap and
whatever the clock reads. -/
theorem intact_of_distinct (v : Verifier) (requests : List Request) (moves : List Move)
    (distinct : (Scene.after v requests moves).issues.Nodup) :
    (Scene.after v requests moves).Intact v requests := by
  have sound := Scene.sound_after v requests moves
  refine ⟨?_, ?_, ?_⟩
  · intro id e held
    obtain ⟨s, r, may, retains, fields⟩ := sound.contents.held id e held
    rw [fields]
    refine ⟨s.grant, s.last, distinct.get?_of_mem may.issued, retains.wrote may.created, ?_, may.last⟩
    rw [Fields.get?_accessed, retains.accessed_eq]
  · intro i token r asked held
    obtain ⟨request, asked', stage⟩ := sound.tasks i _ held
    obtain ⟨d, s, kept, ⟨token', same, decoded⟩, may, noted, retains, read⟩ := stage
    rw [asked, same] at asked'
    obtain rfl : token = token' := by simpa [Aim.request] using asked'
    refine ⟨d, s.grant, decoded, distinct.get?_of_mem may.issued, ?_, ?_, noted.last⟩
    · rw [read, ← Fields.set_accessed]
      exact (retains.reread.wrote may.created).setAccessed _
    · calc r.normal = { (Fields.reread kept).normal with accessed := r.accessed } :=
            congrArg Record.normal read
        _ = { s.record d.id s.last with accessed := r.accessed } := by rw [retains.same]
        _ = Standing.record ⟨s.grant, d.id.timestampMs, r.accessed⟩ d.id r.accessed := by
            rw [Standing.record, may.created]
            rfl
  · intro move task held notes id gone t later
    rw [Scene.next, held]
    exact Task.gone_step v move.readMs notes gone later

/-- A lookup and a refresh both read a record before either writes, and another identifier is created
in between. -/
theorem intact_of_distinct_overlapping :
    let signature : Bytes := List.replicate 20 0
    let digests : Digests :=
      ⟨fun _ => signature, fun _ _ => signature, fun _ => rfl, fun _ _ => rfl⟩
    let c : Codec := ⟨"s", by decide, .keyed, true, digests⟩
    let v : Verifier := ⟨c, .withOverrides (fun _ => none) none⟩
    let id : TokenId := .generate 5 ⟨0, 1⟩
    let token : Presented := .text (Codec.spell .access (c.payload .access id 604800005))
    let requests : List Request :=
      [.create ⟨0, 1⟩ .access { state := .record [("n", .int 1)] }, .lookup token, .refresh token,
        .create ⟨0, 0⟩ .refresh { label := some "L" }, .touch token]
    let moves : List Move :=
      [⟨0, 5, 5⟩, ⟨1, 6, 6⟩, ⟨2, 6, 6⟩, ⟨2, 6, 7⟩, ⟨1, 7, 7⟩, ⟨3, 8, 8⟩, ⟨4, 8, 8⟩, ⟨2, 9, 9⟩, ⟨4, 9, 10⟩,
        ⟨1, 8, 10⟩]
    let honoured : Task → Bool
      | .ended (.ok (.created _)) | .ended (.ok (.found (some _))) | .ended (.ok (.touched true))
      | .ended (.ok (.refreshed (some _))) => true
      | _ => false
    let x := Scene.after v requests moves
    x.issues.Nodup ∧ x.tasks.map honoured = List.replicate 5 true ∧
      x.accesses = [(id, 9), (id, 9), (id, 8)] ∧ x.Intact v requests := by
  intro signature digests c v id token requests moves honoured x
  have distinct : x.issues.Nodup := by
    rw [Table.Nodup]
    decide +kernel
  have done : x.tasks.map honoured = List.replicate 5 true := by decide +kernel
  have accesses : x.accesses = [(id, 9), (id, 9), (id, 8)] := by decide +kernel
  exact ⟨distinct, done, accesses, intact_of_distinct v requests moves distinct⟩

/-- A key that has the two halves of a pair, side by side, is put down by the creation as it is ordered.
A refresh puts down the character, which is ordered otherwise. -/
theorem intact_of_distinct_halves :
    let signature : Bytes := List.replicate 20 0
    let digests : Digests :=
      ⟨fun _ => signature, fun _ _ => signature, fun _ => rfl, fun _ _ => rfl⟩
    let c : Codec := ⟨"s", by decide, .keyed, true, digests⟩
    let v : Verifier := ⟨c, .withOverrides (fun _ => none) none⟩
    let id : TokenId := .generate 5 ⟨0, 1⟩
    let token : Presented := .text (Codec.spell .access (c.payload .access id 86400005))
    let grant : Grant :=
      { state := .object [([.surrogate 0x3d, .surrogate 0x600], .int 1), ("\uffff", .int 2)] }
    let x := Scene.after v [.create ⟨0, 1⟩ .access grant, .refresh token]
      [⟨0, 5, 5⟩, ⟨1, 6, 6⟩, ⟨1, 6, 6⟩, ⟨1, 6, 6⟩]
    x.issues.Nodup ∧ ∃ e, x.world.store.entries.get? id = some e ∧
      e.fields.get? Fields.stateField =
        some (Text.ofString "\x7b\"\\uffff\":2,\"\\ud83d\\ude00\":1\x7d") ∧
      (Fields.ofRecord (grant.record id)).get? Fields.stateField =
        some (Text.ofString "\x7b\"\\ud83d\\ude00\":1,\"\\uffff\":2\x7d") := by
  intro signature digests c v id token grant x
  have stored : (x.world.store.entries.get? id).bind (·.fields.get? Fields.stateField) =
      some (Text.ofString "\x7b\"\\uffff\":2,\"\\ud83d\\ude00\":1\x7d") := by
    decide +kernel
  obtain ⟨e, held, text⟩ := Option.bind_eq_some_iff.mp stored
  refine ⟨?_, e, held, text, by decide +kernel⟩
  rw [Table.Nodup]
  decide +kernel

end BearerToken.Service
