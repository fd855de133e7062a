import AsioTcp.ManagerSane
import Mathlib.Data.Multiset.Bind
import Mathlib.Data.Multiset.Range

/-!
# Who holds which message

Outside the buffer of the allocator, a message is in the hand of a call or in
the queue of a session that exists; while `handler_write_body` gives the front
message back, the call has it and the queue is what is behind it. `held` is all
of them together, and the equations below say how each effect of a step moves
messages between the calls and the queues.
-/

namespace AsioTcp.Manager

/-- The messages that a call has to hand on or to give back. -/
def Call.holds : Call → Multiset Ref
  | .inHand _ msg | .dellocate _ msg | .dellocateRetry _ msg => {msg}
  | _ => 0

/-- The messages waiting in a session, but for one that is being given back. -/
def Session.waiting (x : Session) : List Ref :=
  if x.alive then
    if x.locked then x.write.msgQueue.tail else x.write.msgQueue
  else []

def Shared.queued (s : Shared) : Multiset Ref :=
  (Multiset.range s.created).bind fun i => ((s.sessions i).waiting : Multiset Ref)

def held (s : State) : Multiset Ref := s.calls.bind Call.holds + s.shared.queued

theorem holds_plain {c : Call} (hc : c.plain = true) : c.holds = 0 := by
  cases c <;> first | rfl | cases hc

/-! ## The queues -/

/-- The messages waiting in the sessions but `sid`. -/
def Shared.elsewhere (s : Shared) (sid : Nat) : Multiset Ref :=
  ((Multiset.range s.created).erase sid).bind fun i => ((s.sessions i).waiting : Multiset Ref)

theorem queued_split {s : Shared} {sid : Nat} (h : sid < s.created) :
    s.queued = ↑(s.sessions sid).waiting + s.elsewhere sid := by
  have hmem : sid ∈ Multiset.range s.created := Multiset.mem_range.mpr h
  have hcons := Multiset.cons_bind sid ((Multiset.range s.created).erase sid)
    fun i => ((s.sessions i).waiting : Multiset Ref)
  rw [Multiset.cons_erase hmem] at hcons
  exact hcons

theorem elsewhere_congr {s s' : Shared} {sid : Nat} (hc : s'.created = s.created)
    (h : ∀ i ≠ sid, (s'.sessions i).waiting = (s.sessions i).waiting) :
    s'.elsewhere sid = s.elsewhere sid := by
  rw [Shared.elsewhere, Shared.elsewhere, hc]
  refine Multiset.bind_congr fun i hi => ?_
  rw [h i]
  rintro rfl
  exact (Multiset.nodup_range _).notMem_erase hi

theorem queued_congr {s s' : Shared} (hc : s'.created = s.created)
    (h : ∀ i, (s'.sessions i).waiting = (s.sessions i).waiting) : s'.queued = s.queued := by
  rw [Shared.queued, Shared.queued, hc]
  exact Multiset.bind_congr fun i _ => by rw [h i]

theorem queued_update_same {s : Shared} {sid : Nat} {f : Session → Session}
    (h : (f (s.sessions sid)).waiting = (s.sessions sid).waiting) :
    (s.update sid f).queued = s.queued := by
  refine queued_congr rfl fun i => ?_
  exact update_rel s sid f (fun x y => y.waiting = x.waiting) (fun _ => rfl) h i

theorem queued_update {s : Shared} {sid : Nat} (h : sid < s.created) (f : Session → Session) :
    (s.update sid f).queued = ↑(f (s.sessions sid)).waiting + s.elsewhere sid := by
  rw [queued_split (s := s.update sid f) h, update_self]
  congr 1
  exact elsewhere_congr rfl fun i hi => by rw [update_other s sid f hi]

theorem waiting_quiet {x y : Session} (hw : y.write = x.write) (hl : y.locked = x.locked)
    (ha : y.alive = x.alive) : y.waiting = x.waiting := by
  rw [Session.waiting, Session.waiting, hw, hl, ha]

theorem bind_holds_plain {calls : Multiset Call} (h : ∀ c ∈ calls, c.plain = true) :
    calls.bind Call.holds = 0 := by
  refine Multiset.eq_zero_of_forall_notMem fun r hr => ?_
  obtain ⟨c, hc, hrc⟩ := Multiset.mem_bind.mp hr
  rw [holds_plain (h c hc)] at hrc
  exact Multiset.notMem_zero r hrc

/-- The messages held by a call and by all the rest. -/
theorem held_cons {s : State} {c : Call} {rest : Multiset Call} (hs : s.calls = c ::ₘ rest) :
    held s = c.holds + (rest.bind Call.holds + s.shared.queued) := by
  rw [held, hs, Multiset.cons_bind, Multiset.add_assoc]

theorem held_mk (s' : Shared) (c : Call) (rest : Multiset Call) :
    held ⟨s', c ::ₘ rest⟩ = c.holds + (rest.bind Call.holds + s'.queued) :=
  held_cons rfl

theorem held_add (s' : Shared) (new rest : Multiset Call) :
    held ⟨s', new + rest⟩ = new.bind Call.holds + (rest.bind Call.holds + s'.queued) := by
  rw [held, Multiset.add_bind, Multiset.add_assoc]

/-! ## Messages on the move -/

theorem held_quiet {s : State} {s' : Shared} {old new rest : Multiset Call}
    (hq : Quiet s.shared s') (hs : s.calls = old + rest) (hp : PlainStep old new) :
    held ⟨s', new + rest⟩ = held s := by
  have hqueued : s'.queued = s.shared.queued :=
    queued_congr hq.created fun i => waiting_quiet (hq.write i) (hq.locked i) (hq.alive i)
  rw [held_add, bind_holds_plain fun c hc => (hp.after c hc).1, hqueued, held, hs,
    Multiset.add_bind, bind_holds_plain hp.before, Multiset.zero_add, Multiset.zero_add]

theorem held_create {s : State} (h : Sane s) :
    held ⟨s.shared.create, .accepting s.shared.created ::ₘ s.calls⟩ = held s := by
  have hold : ∀ i ≠ s.shared.created,
      (s.shared.create.sessions i).waiting = (s.shared.sessions i).waiting := by
    intro i hi
    exact congrArg Session.waiting (update_other s.shared _ _ hi)
  have hnew : (s.shared.create.sessions s.shared.created).waiting = [] := by
    have hwrite := h.unborn s.shared.created (Nat.le_refl _)
    have hself : s.shared.create.sessions s.shared.created =
        (s.shared.sessions s.shared.created).withAlive true := update_self s.shared _ _
    rw [hself, Session.waiting]
    simp [Session.withAlive, hwrite, WriteSide.init]
  have hqueued : s.shared.create.queued = s.shared.queued := by
    show (Multiset.range (s.shared.created + 1)).bind _ = _
    rw [Multiset.range_succ, Multiset.cons_bind, hnew, Multiset.coe_nil, Multiset.zero_add]
    refine Multiset.bind_congr fun i hi => ?_
    rw [hold i (Nat.ne_of_lt (Multiset.mem_range.mp hi))]
  rw [held, Multiset.cons_bind, hqueued]
  exact congrArg (· + s.shared.queued) (Multiset.zero_add _)

/-- A session that is destroyed takes its queue along. -/
theorem held_destroy {s : State} (h : Sane s) {sid : Nat}
    (halive : (s.shared.sessions sid).alive = true) :
    held s = ↑(s.shared.sessions sid).waiting +
      held ⟨s.shared.update sid (Session.withAlive false), s.calls⟩ := by
  have hgone : ((s.shared.sessions sid).withAlive false).waiting = [] := rfl
  rw [held, held, queued_split (h.created sid halive), queued_update (h.created sid halive), hgone,
    Multiset.coe_nil, Multiset.zero_add]
  exact add_left_comm _ _ _

/-- Only `write` and the pop of `handler_write_body` change the queue. -/
theorem next_msgQueue {w : WriteSide Ref} {c : WriteCall Ref} {error : Bool}
    (hbody : c = .handler .body false → w.msgQueue = []) :
    (SessionWrite.next w c error).1.msgQueue = w.msgQueue := by
  cases c with
  | writeOnEmpty | writeQueued => rfl
  | doWrite caller =>
    simp only [SessionWrite.next, WriteSide.doWrite]
    split <;> rfl
  | asyncWrite op => cases error <;> rfl
  | handler part e =>
    cases e with
    | true => rfl
    | false =>
      cases part with
      | header =>
        simp only [SessionWrite.next, WriteSide.handlerWriteHeader]
        split <;> rfl
      | body => simp [SessionWrite.next, WriteSide.handlerWriteBody, hbody rfl]

theorem bind_holds_chain {sid : Nat} {c : WriteCall Ref} {task : Option Task}
    (calls : Multiset (WriteCall Ref)) :
    (calls.map (Call.chain sid · (carried c task)) + resumed c task).bind Call.holds = 0 := by
  refine Multiset.eq_zero_of_forall_notMem fun r hr => ?_
  obtain ⟨d, hd, hrd⟩ := Multiset.mem_bind.mp hr
  rcases mem_chainCalls hd with ⟨e, rfl⟩ | hd
  · exact Multiset.notMem_zero r hrd
  · rw [holds_plain (resumed_plain hd)] at hrd
    exact Multiset.notMem_zero r hrd

theorem held_chain {s : State} {sid : Nat} {c : WriteCall Ref} {task : Option Task}
    {rest : Multiset Call} (hs : s.calls = .chain sid c task ::ₘ rest) (error : Bool)
    (hbody : c = .handler .body false → (s.shared.sessions sid).write.msgQueue = []) :
    held ⟨s.shared.setWrite sid (SessionWrite.next (s.shared.sessions sid).write c error).1,
      (SessionWrite.next (s.shared.sessions sid).write c error).2.map
        (Call.chain sid · (carried c task)) + resumed c task + rest⟩ = held s := by
  have hwaiting : ((s.shared.sessions sid).withWrite
      (SessionWrite.next (s.shared.sessions sid).write c error).1).waiting =
      (s.shared.sessions sid).waiting := by
    rw [Session.waiting, Session.waiting]
    simp only [Session.withWrite, next_msgQueue hbody]
  rw [held_add, bind_holds_chain, Shared.setWrite, queued_update_same hwaiting, held_cons hs]
  rfl

theorem held_leave {s : State} {sid : Nat} {c : WriteCall Ref} {task : Option Task}
    {rest : Multiset Call} (hs : s.calls = .chain sid c task ::ₘ rest) :
    held ⟨s.shared.leave sid, rest⟩ = held s := by
  rw [held_cons hs, held, Shared.leave, queued_update_same rfl]
  exact (Multiset.zero_add _).symm

/-- The front message passes from the queue to the call. -/
theorem held_lock {s : State} (h : Sane s) {sid : Nat} {task : Option Task} {msg : Ref}
    {q : List Ref} {rest : Multiset Call}
    (hs : s.calls = .chain sid (.handler .body false) task ::ₘ rest)
    (hfree : (s.shared.sessions sid).locked = false)
    (hq : (s.shared.sessions sid).write.msgQueue = msg :: q) :
    held ⟨s.shared.lock sid msg, .dellocate sid msg ::ₘ rest⟩ = held s := by
  have halive := h.alive_of_call hs rfl
  have hlt := h.created sid halive
  have hbefore : (s.shared.sessions sid).waiting = msg :: q := by
    simp [Session.waiting, halive, hfree, hq]
  have hafter : ((s.shared.sessions sid).withLocked true).waiting = q := by
    simp [Session.waiting, Session.withLocked, halive, hq]
  have hqueued : (s.shared.lock sid msg).queued = ↑q + s.shared.elsewhere sid := by
    have hupdate := queued_update hlt (Session.withLocked true)
    rw [hafter] at hupdate
    exact hupdate
  rw [held_mk, held_cons hs, hqueued, queued_split hlt, hbefore,
    ← Multiset.cons_coe, Multiset.cons_add, ← Multiset.singleton_add msg (↑q + _)]
  show {msg} + (rest.bind Call.holds + (↑q + s.shared.elsewhere sid)) =
    0 + (rest.bind Call.holds + ({msg} + (↑q + s.shared.elsewhere sid)))
  rw [Multiset.zero_add]
  exact add_left_comm _ _ _

theorem held_pop {s : State} (h : Sane s) {sid : Nat} {msg : Ref} {rest : Multiset Call}
    (hs : s.calls = .dellocated sid msg ::ₘ rest) :
    held ⟨s.shared.pop sid, .chain sid (.doWrite .handlerWriteBody) none ::ₘ rest⟩ = held s := by
  have halive := h.alive_of_call hs rfl
  have hlocked := (h.lock_holder hs (beq_self_eq_true sid)).1
  have hpop : (s.shared.sessions sid).write.handlerWriteBody.msgQueue =
      (s.shared.sessions sid).write.msgQueue.tail := by
    unfold WriteSide.handlerWriteBody
    split <;> rename_i hq <;> simp [hq]
  have hqueued : (s.shared.pop sid).queued = s.shared.queued := by
    refine queued_congr rfl fun i => ?_
    by_cases he : i = sid
    · subst he
      rw [Shared.pop, update_self, Shared.setWrite, update_self]
      simp [Session.waiting, Session.withLocked, Session.withWrite, halive, hlocked, hpop]
    · rw [Shared.pop, update_other _ _ _ he, Shared.setWrite, update_other _ _ _ he]
  rw [held_mk, held_cons hs, hqueued]
  rfl

/-- The message passes from the caller to the end of the queue. -/
theorem held_push {s : State} (h : Sane s) {task : Task} {msg : Ref} {sid : Nat}
    {rest : Multiset Call} (hs : s.calls = .inHand task msg ::ₘ rest)
    (halive : (s.shared.sessions sid).alive = true)
    (hfree : (s.shared.sessions sid).locked = false) :
    held ⟨s.shared.setWrite sid ((s.shared.sessions sid).write.write msg).1,
      .chain sid ((s.shared.sessions sid).write.write msg).2 (some task) ::ₘ rest⟩ = held s := by
  have hlt := h.created sid halive
  have hbefore : (s.shared.sessions sid).waiting = (s.shared.sessions sid).write.msgQueue := by
    simp [Session.waiting, halive, hfree]
  have hafter : ((s.shared.sessions sid).withWrite
      ((s.shared.sessions sid).write.write msg).1).waiting =
      (s.shared.sessions sid).write.msgQueue ++ [msg] := by
    rw [Session.waiting]
    simp [Session.withWrite, halive, hfree, WriteChain.write_msgQueue]
  have hone : (((s.shared.sessions sid).write.msgQueue ++ [msg] : List Ref) : Multiset Ref) =
      {msg} + ↑(s.shared.sessions sid).write.msgQueue := by
    rw [← Multiset.coe_add, Multiset.add_comm]
    rfl
  rw [held_mk, held_cons hs, Shared.setWrite, queued_update hlt, hafter,
    queued_split hlt, hbefore, hone, Multiset.add_assoc]
  show 0 + (rest.bind Call.holds + ({msg} + _)) = {msg} + (rest.bind Call.holds + _)
  rw [Multiset.zero_add]
  exact add_left_comm _ _ _

/-- The message that a call has held is nobody's any more. -/
theorem held_given_back {s : State} {c d : Call} {msg : Ref} {rest : Multiset Call}
    (hs : s.calls = c ::ₘ rest) (hc : c.holds = {msg}) (hd : d.holds = 0) (a : Allocator) :
    held s = msg ::ₘ held ⟨s.shared.setAlloc a, d ::ₘ rest⟩ := by
  rw [held_cons hs, held_mk, hc, hd, Multiset.zero_add,
    Multiset.singleton_add]
  rfl

/-- A call goes on with the message that it holds. -/
theorem held_same {s : State} {c d : Call} {rest : Multiset Call} (hs : s.calls = c ::ₘ rest)
    (hd : d.holds = c.holds) (a : Allocator) :
    held ⟨s.shared.setAlloc a, d ::ₘ rest⟩ = held s := by
  rw [held_cons hs, held_mk, hd]
  rfl

end AsioTcp.Manager
