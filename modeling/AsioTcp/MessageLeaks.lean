import AsioTcp.PoolInvariant

/-!
# Messages that are lost

Between `allocate_msg_buffer` and `delete`, a message should always be where
somebody can find it: in `conn_msg_buffer_`, in the queue of a session that
exists, or in the hand of a call on its way to `write`.

* `messages_kept`: this is so in every run that destroys sessions only with
  empty queues and in which `set_body` does not throw;
* `message_lost`: a session whose write fails leaves with its queue, and
  `~session_tcp` does not give the messages in it back.
-/

namespace AsioTcp.Manager

open Transition Allocator

/-- Every message that exists can be found. -/
def NoneLost (s : State) : Prop :=
  ∀ p, (s.shared.alloc.objects p).isSome → p ∈ s.shared.alloc.connMsgBuffer.items ∨
    (∃ sid, (s.shared.sessions sid).alive = true ∧
      ∃ msg ∈ (s.shared.sessions sid).write.msgQueue, msg.ptr = p) ∨
    ∃ task msg, Call.inHand task msg ∈ s.calls ∧ msg.ptr = p

/-! ## The message being given back is at the front -/

/-- A call that gives a message back finds it at the front of its queue. -/
def Call.AtFront (s : Shared) (c : Call) : Prop :=
  ∀ sid msg, c.locks sid = true → c.givesBack = some msg →
    (s.sessions sid).write.msgQueue.head? = some msg

def Fronts (s : State) : Prop := ∀ c ∈ s.calls, c.AtFront s.shared

theorem atFront_of_givesBack {s : Shared} {c : Call} (h : c.givesBack = none) : c.AtFront s := by
  intro sid msg _ hmsg
  rw [h] at hmsg
  cases hmsg

/-- The queues keep their fronts. -/
theorem Call.AtFront.mono {s s' : Shared} {c : Call} (h : c.AtFront s)
    (hq : ∀ sid, c.locks sid = true → ∀ msg, (s.sessions sid).write.msgQueue.head? = some msg →
      (s'.sessions sid).write.msgQueue.head? = some msg) : c.AtFront s' :=
  fun sid msg hl hmsg => hq sid hl msg (h sid msg hl hmsg)

theorem Call.AtFront.same {s s' : Shared} {c : Call} (h : c.AtFront s)
    (hw : ∀ i, (s'.sessions i).write = (s.sessions i).write) : c.AtFront s' :=
  h.mono fun sid _ _ hmsg => (hw sid).symm ▸ hmsg

/-- The calls that go on keep their fronts, and the new ones have theirs. -/
theorem fronts_run {s : State} (h : Fronts s) {s' : Shared} {c : Call} {new rest : Multiset Call}
    (hs : s.calls = c ::ₘ rest)
    (hq : ∀ d ∈ rest, ∀ sid, d.locks sid = true → ∀ msg,
      (s.shared.sessions sid).write.msgQueue.head? = some msg →
      (s'.sessions sid).write.msgQueue.head? = some msg)
    (hnew : ∀ d ∈ new, d.AtFront s') : Fronts ⟨s', new + rest⟩ := by
  intro d hd
  rcases Multiset.mem_add.mp hd with hd | hd
  · exact hnew d hd
  · refine (h d ?_).mono (hq d hd)
    rw [hs]
    exact Multiset.mem_cons_of_mem hd

/-- As `fronts_run`, with one new call and the queues as they were. -/
theorem fronts_one {s : State} (h : Fronts s) {s' : Shared} {c d : Call} {rest : Multiset Call}
    (hs : s.calls = c ::ₘ rest)
    (hw : ∀ i, (s'.sessions i).write = (s.shared.sessions i).write) (hd : d.AtFront s') :
    Fronts ⟨s', d ::ₘ rest⟩ := by
  rw [← Multiset.singleton_add]
  refine fronts_run h hs (fun _ _ sid _ msg hmsg => (hw sid).symm ▸ hmsg) fun e he => ?_
  obtain rfl := Multiset.mem_singleton.mp he
  exact hd

theorem head_append {q : List Ref} {msg m : Ref} (h : q.head? = some msg) :
    (q ++ [m]).head? = some msg := by
  cases q with
  | nil => cases h
  | cons => exact h

theorem fronts_pop {s : State} (hs : Sane s) (h : Fronts s) {sid : Nat} {msg : Ref}
    {rest : Multiset Call} (hcalls : s.calls = .dellocated sid msg ::ₘ rest) :
    Fronts ⟨s.shared.pop sid, .chain sid (.doWrite .handlerWriteBody) none ::ₘ rest⟩ := by
  rw [← Multiset.singleton_add]
  refine fronts_run h hcalls (fun d hd i hl m hm => ?_) fun d hd => ?_
  · -- no second call holds the lock of the session
    have hne : i ≠ sid := by
      rintro rfl
      have hnone := (hs.lock_holder hcalls (beq_self_eq_true i)).2
      exact Multiset.countP_eq_zero.mp hnone d hd hl
    rw [Shared.pop, update_other _ _ _ hne, Shared.setWrite, update_other _ _ _ hne]
    exact hm
  · obtain rfl := Multiset.mem_singleton.mp hd
    exact atFront_of_givesBack rfl

theorem fronts_start : Fronts start := fun _ hc => absurd hc (Multiset.notMem_zero _)

theorem fronts_effect {s t : State} {a : Action} (hs : Sane s) (h : Fronts s)
    (he : Effect s a t) : Fronts t := by
  cases he with
  | quiet hq hcalls hp =>
    intro c hc
    rcases Multiset.mem_add.mp hc with hc | hc
    · exact atFront_of_givesBack (givesBack_plain (hp.after c hc).1)
    · refine (h c ?_).same hq.write
      rw [hcalls]
      exact Multiset.mem_add.mpr (Or.inr hc)
  | create =>
    intro c hc
    rcases Multiset.mem_cons.mp hc with rfl | hc
    · exact atFront_of_givesBack rfl
    · exact (h c hc).same (update_rel s.shared _ (Session.withAlive true)
        (fun x y => y.write = x.write) (fun _ => rfl) rfl)
  | clear => exact h
  | @destroy sid =>
    intro c hc
    exact (h c hc).same (update_rel s.shared sid (Session.withAlive false)
      (fun x y => y.write = x.write) (fun _ => rfl) rfl)
  | @chain sid c task o rest hcalls _ _ hbody =>
    refine fronts_run h hcalls (fun d _ i _ msg hmsg => ?_) fun d hd => ?_
    · have hq : ((s.shared.setWrite sid _).sessions i).write.msgQueue =
          (s.shared.sessions i).write.msgQueue :=
        update_rel s.shared sid (Session.withWrite
          (SessionWrite.next (s.shared.sessions sid).write c o.failed).1)
          (fun x y => y.write.msgQueue = x.write.msgQueue) (fun _ => rfl)
          (next_msgQueue hbody) i
      rw [hq]
      exact hmsg
    · rcases mem_chainCalls hd with ⟨e, rfl⟩ | hd
      · exact atFront_of_givesBack rfl
      · exact atFront_of_givesBack (givesBack_plain (resumed_plain hd))
  | @chainLeave sid part task o rest hcalls =>
    intro c hc
    exact (h c (hcalls ▸ Multiset.mem_cons_of_mem hc)).same (quiet_leave s.shared sid).write
  | @lock sid task o msg q rest hcalls hfree hq =>
    have hw : ∀ i, ((s.shared.lock sid msg).sessions i).write = (s.shared.sessions i).write :=
      update_rel s.shared sid (Session.withLocked true) (fun x y => y.write = x.write)
        (fun _ => rfl) rfl
    refine fronts_one h hcalls hw fun i m hl hm => ?_
    obtain rfl : sid = i := beq_iff_eq.mp hl
    obtain rfl : msg = m := Option.some.inj hm
    rw [hw, hq]
    rfl
  | taken hcalls => exact fronts_one h hcalls (fun _ => rfl) (atFront_of_givesBack rfl)
  | @retry sid msg o alloc rest hcalls hr =>
    exact fronts_one h hcalls (fun _ => rfl)
      (h (.dellocate sid msg) (hcalls ▸ Multiset.mem_cons_self _ rest))
  | stored hcalls => exact fronts_one h hcalls (fun _ => rfl) (atFront_of_givesBack rfl)
  | popped hcalls => exact fronts_pop hs h hcalls
  | @given c task header mem r rest hcalls hr =>
    obtain ⟨alloc, result⟩ := r
    cases result with
    | got p => exact fronts_one h hcalls (fun _ => rfl) (atFront_of_givesBack rfl)
    | retry => exact fronts_one h hcalls (fun _ => rfl) (atFront_of_givesBack rfl)
    | badAlloc =>
      exact fronts_run h hcalls (fun _ _ _ _ _ hmsg => hmsg) fun d hd =>
        absurd hd (Multiset.notMem_zero d)
  | @setBody task msg mem data n rest hcalls =>
    refine fronts_run h hcalls (fun _ _ _ _ _ hmsg => hmsg) fun d hd => ?_
    split at hd
    · exact absurd hd (Multiset.notMem_zero d)
    · obtain rfl := Multiset.mem_singleton.mp hd
      exact atFront_of_givesBack rfl
  | @pushed task msg sid rest hcalls _ halive hfree =>
    rw [← Multiset.singleton_add]
    refine fronts_run h hcalls (fun d _ i _ m hm => ?_) fun d hd => ?_
    · refine update_rel s.shared sid (Session.withWrite _)
        (fun x y => x.write.msgQueue.head? = some m → y.write.msgQueue.head? = some m)
        (fun _ hx => hx) (fun hx => ?_) i hm
      show ((s.shared.sessions sid).write.write msg).1.msgQueue.head? = some m
      rw [WriteChain.write_msgQueue]
      exact head_append hx
    · obtain rfl := Multiset.mem_singleton.mp hd
      exact atFront_of_givesBack rfl

theorem fronts_of_reach {ok : State → Action → Prop} {s : State} (h : Reach step ok start s) :
    Fronts s :=
  h.invariant fronts_start fun _ _ _ hr hs _ hstep =>
    fronts_effect (sane_of_reach hr) hs (effect_of_step hstep)

/-! ## Who can find a message -/

theorem mem_msgQueue_of_waiting {x : Session} {msg : Ref} (h : msg ∈ x.waiting) :
    x.alive = true ∧ msg ∈ x.write.msgQueue := by
  unfold Session.waiting at h
  split at h
  · rename_i halive
    split at h
    · exact ⟨halive, List.mem_of_mem_tail h⟩
    · exact ⟨halive, h⟩
  · cases h

/-- A held message is in the queue of a session or in the hand of a call. -/
theorem found_of_held {s : State} (hs : Sane s) (hf : Fronts s) {msg : Ref} (h : msg ∈ held s) :
    (∃ sid, (s.shared.sessions sid).alive = true ∧
      msg ∈ (s.shared.sessions sid).write.msgQueue) ∨
    ∃ task, Call.inHand task msg ∈ s.calls := by
  rcases Multiset.mem_add.mp h with hcall | hqueued
  · obtain ⟨c, hc, hmsg⟩ := Multiset.mem_bind.mp hcall
    have hfront : ∀ sid, c.session = some sid → c.locks sid = true → c.givesBack = some msg →
        ∃ sid, (s.shared.sessions sid).alive = true ∧
          msg ∈ (s.shared.sessions sid).write.msgQueue := by
      intro sid hsession hlocks hgives
      exact ⟨sid, (hs.calls c hc).alive sid hsession,
        List.mem_of_mem_head? (hf c hc sid msg hlocks hgives)⟩
    cases c with
    | inHand task m =>
      obtain rfl := Multiset.mem_singleton.mp hmsg
      exact Or.inr ⟨task, hc⟩
    | dellocate sid m | dellocateRetry sid m =>
      obtain rfl := Multiset.mem_singleton.mp hmsg
      exact Or.inl (hfront sid rfl (beq_self_eq_true sid) rfl)
    | _ => exact absurd hmsg (Multiset.notMem_zero msg)
  · obtain ⟨sid, _, hmsg⟩ := Multiset.mem_bind.mp hqueued
    obtain ⟨halive, hqueue⟩ := mem_msgQueue_of_waiting (Multiset.mem_coe.mp hmsg)
    exact Or.inl ⟨sid, halive, hqueue⟩

theorem noneLost_of_noLeak {s : State} (hs : Sane s) (hf : Fronts s)
    (h : s.shared.alloc.NoLeak (heldPtrs s)) : NoneLost s := by
  intro p hp
  rcases Multiset.mem_add.mp (h p hp) with hheld | hpool
  · obtain ⟨msg, hmsg, rfl⟩ := Multiset.mem_map.mp hheld
    rcases found_of_held hs hf hmsg with ⟨sid, halive, hqueue⟩ | ⟨task, hcall⟩
    · exact Or.inr (Or.inl ⟨sid, halive, msg, hqueue, rfl⟩)
    · exact Or.inr (Or.inr ⟨task, msg, hcall, rfl⟩)
  · exact Or.inl hpool

theorem noLeak_of_reach {s : State} (h : Reach step NothingLost start s) :
    s.shared.alloc.NoLeak (heldPtrs s) := by
  refine h.invariant (P := fun s => s.shared.alloc.NoLeak (heldPtrs s)) noLeak_init ?_
  intro s a t hr hs hok hstep
  exact (ownedStep_of_effect (sane_of_reach hr) (owned_of_reach hr)
    (effect_of_step hstep)).noLeak hok hs

/-- **No message is lost** in a run in which every session is destroyed with an
empty queue and no `set_body` throws. -/
theorem messages_kept (s : State) (h : Reach step NothingLost start s) : NoneLost s :=
  noneLost_of_noLeak (sane_of_reach h) (fronts_of_reach h) (noLeak_of_reach h)

/-- The read of the session fails, and the session leaves. -/
def disconnects (sid : Nat) : List Action :=
  [.run (.reading sid (.asyncRead .header)) .error,
    .run (.reading sid (.handler .header true)) .go]

/-- A message is written and goes back to the buffer before its session is
destroyed. -/
theorem messages_kept_one : ∃ s : State, s.shared.alloc.connMsgBuffer.items = [0] ∧
    (s.shared.sessions 0).alive = false ∧ NoneLost s := by
  let acts : List Action := connects 0 ++ sends 0 ⟨1, 0, 0, 0, 0, 0⟩ ⟨0, 0⟩ ++
    startsWrite 0 ⟨0, 0⟩ ++ completes 0 ⟨0, 0⟩ ++ givesBack 0 ⟨0, 0⟩ ++ disconnects 0 ++
    [.enter (.destroy 0)]
  have hrun : (exec (guarded step NothingLost) start acts).map (fun s =>
      (s.shared.alloc.connMsgBuffer.items, (s.shared.sessions 0).alive)) =
      some ([0], false) := by
    decide +kernel
  obtain ⟨s, hs, hseen⟩ := Option.map_eq_some_iff.mp hrun
  obtain ⟨hitems, halive⟩ := Prod.mk.inj hseen
  exact ⟨s, hitems, halive, messages_kept s (Reach.of_exec_guarded acts hs)⟩

/-- **A lost message.** The write of its header fails, then the read of the
session fails; the session leaves twice and is destroyed with the message in
its queue. -/
theorem message_lost : ∃ s : State, Reach step always start s ∧ ¬ NoneLost s := by
  let acts : List Action := connects 0 ++ sends 0 ⟨1, 0, 0, 0, 0, 0⟩ ⟨0, 0⟩ ++ startsWrite 0 ⟨0, 0⟩ ++
    [.run (.chain 0 (.asyncWrite ⟨.header, ⟨0, 0⟩⟩) none) .error,
      .run (.chain 0 (.handler .header true) none) .go] ++
    disconnects 0 ++ [.enter (.destroy 0)]
  have hrun : (exec step start acts).map (fun s => ((s.shared.alloc.objects 0).isSome,
      s.shared.alloc.connMsgBuffer.items, s.shared.created, (s.shared.sessions 0).alive, s.calls)) =
      some (true, [], 1, false, 0) := by
    decide +kernel
  obtain ⟨s, hs, hseen⟩ := Option.map_eq_some_iff.mp hrun
  simp only [Prod.mk.injEq] at hseen
  obtain ⟨hlive, hitems, hcreated, hgone, hcalls⟩ := hseen
  have hreach : Reach step always start s := Reach.of_exec acts hs
  refine ⟨s, hreach, fun hkept => ?_⟩
  rcases hkept 0 hlive with hpool | ⟨sid, halive, _⟩ | ⟨task, msg, hcall, _⟩
  · rw [hitems] at hpool
    cases hpool
  · have hlt := (sane_of_reach hreach).created sid halive
    rw [hcreated] at hlt
    obtain rfl : sid = 0 := Nat.lt_one_iff.mp hlt
    exact Bool.false_ne_true (hgone.symm.trans halive)
  · rw [hcalls] at hcall
    exact Multiset.notMem_zero _ hcall

end AsioTcp.Manager
