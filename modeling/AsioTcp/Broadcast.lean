import AsioTcp.PoolInvariant

/-!
# `write_to_all`

The loop of `write_to_all` takes a message from the allocator for each session,
copies the body of `msg` into it and hands it to `write`; `msg` is read again
in every round. `writeToAll` is the call as a whole. Before it, the program may
be in any state that its threads can reach, as long as no `handler_write_body`
is in the middle of its work: `Seen` says what the call finds. `write_to_all`
tells what it leaves behind.
-/

namespace AsioTcp.Broadcast

open Transition SerialWrite

/-- One round of the loop, with `msg` where it is in memory. -/
def copyMsg (mem : Memory) (header : HDR) (msg : MsgPtr) (w : ConnectionMgr) (sid : Nat) :
    Except Exn ConnectionMgr :=
  match w.alloc.message msg with
  | none => .ok w
  | some m =>
    match w.alloc.newMessage mem header m.body m.bodyLength with
    | .error e => .error e
    | .ok (alloc, msgNew) => .ok ({ w with alloc := alloc }.write sid msgNew)

/-- `connection_mgr::write_to_all`. -/
def writeToAll (mem : Memory) (w : ConnectionMgr) (msg : MsgPtr) : Except Exn ConnectionMgr :=
  match w.alloc.message msg with
  | none => .ok w
  | some m => w.connectionList.foldlM (copyMsg mem m.header msg) w

def queue (w : ConnectionMgr) (sid : Nat) : List MsgPtr := (w.sessions sid).write.session.msgQueue

def outstanding (w : ConnectionMgr) (sid : Nat) : List (WriteOp MsgPtr) :=
  (w.sessions sid).write.outstanding

/-- `set_body` was called on the message, and succeeded. -/
def HasBody (m : ConnMsg) : Prop :=
  ∃ (m₀ : Msg) (data : List BYTE) (n : SizeT) (newChar : Option Nat),
    data.length = n.toNat ∧ m₀.val.setBody data n newChar = (m, false)

theorem HasBody.length {m : ConnMsg} (h : HasBody m) : m.body.length = m.bodyLength.toNat := by
  obtain ⟨m₀, data, n, newChar, hdata, hset⟩ := h
  have hbody := ConnMsg.setBody_body m₀.wellFormed hdata (congrArg Prod.snd hset)
  have hheader := ConnMsg.setBody_header m₀.val data n newChar
  rw [hset] at hbody hheader
  rw [show m.body = data from hbody, ConnMsg.bodyLength, show m.header = _ from hheader]
  exact hdata

/-! ## The rounds -/

/-- The rounds for the sessions `sids` have been made; `copy sid` is the message
that session `sid` got. -/
structure Delivered (m : ConnMsg) (held : Multiset MsgPtr) (sids : List Nat)
    (copy : Nat → MsgPtr) (w w' : ConnectionMgr) : Prop where
  owns : w'.alloc.Owns (↑(sids.map copy) + held)
  same : ∀ p ∈ held, w'.alloc.objects p = w.alloc.objects p
  copies : ∀ sid ∈ sids, ∃ c, w'.alloc.message (copy sid) = some c ∧
    c.bodyLength = m.bodyLength ∧ c.body = m.body
  written : ∀ sid ∈ sids, (w'.sessions sid).write = (w.sessions sid).write.write (copy sid)
  others : ∀ sid ∉ sids, w'.sessions sid = w.sessions sid
  registry : w'.connectionList = w.connectionList

section Rounds

variable {mem : Memory} {msg : MsgPtr} {m : ConnMsg} {held : Multiset MsgPtr}
  {w w' : ConnectionMgr}

/-- One round. -/
theorem delivered_one (hown : w.alloc.Owns held) (hm : w.alloc.message msg = some m)
    (hbody : m.body.length = m.bodyLength.toNat) {sid : Nat}
    (hok : copyMsg mem m.header msg w sid = .ok w') :
    ∃ p, Delivered m held [sid] (fun _ => p) w w' := by
  simp only [copyMsg, hm] at hok
  split at hok
  · cases hok
  · rename_i alloc p hnew
    cases hok
    obtain ⟨hown', c, hc, hcbody, hcheader⟩ := Allocator.newMessage_ok hown hbody hnew
    refine ⟨p, hown', ?_, ?_, ?_, ?_, rfl⟩
    · intro q hq
      exact Allocator.newMessage_objects hown hnew hq
    · intro i _
      refine ⟨c, hc, ?_, hcbody⟩
      rw [ConnMsg.bodyLength, hcheader]
      rfl
    · intro i hi
      obtain rfl := List.mem_singleton.mp hi
      simp [ConnectionMgr.write, ConnectionMgr.setSession]
    · intro i hi
      exact if_neg fun he => hi (List.mem_singleton.mpr he)

/-- One round, and then the others. -/
theorem Delivered.cons {w₁ : ConnectionMgr} {sid : Nat} {sids : List Nat} {p : MsgPtr}
    {copy : Nat → MsgPtr} (h : Delivered m held [sid] (fun _ => p) w w₁) (hsid : sid ∉ sids)
    (h' : Delivered m (p ::ₘ held) sids copy w₁ w') :
    Delivered m held (sid :: sids) (fun i => if i = sid then p else copy i) w w' := by
  have hother : ∀ i ∈ sids, i ≠ sid := fun i hi he => hsid (he ▸ hi)
  have hcopy : sids.map (fun i => if i = sid then p else copy i) = sids.map copy :=
    List.map_congr_left fun i hi => if_neg (hother i hi)
  constructor
  · have hown := h'.owns
    rw [List.map_cons, if_pos rfl, hcopy, ← Multiset.cons_coe, Multiset.cons_add,
      ← Multiset.add_cons]
    exact hown
  · intro q hq
    exact (h'.same q (Multiset.mem_cons_of_mem hq)).trans (h.same q hq)
  · intro i hi
    rcases List.mem_cons.mp hi with rfl | hi
    · obtain ⟨c, hc, hcontent⟩ := h.copies i List.mem_cons_self
      refine ⟨c, ?_, hcontent⟩
      rw [if_pos rfl, Allocator.message, h'.same p (Multiset.mem_cons_self p held)]
      exact hc
    · rw [if_neg (hother i hi)]
      exact h'.copies i hi
  · intro i hi
    rcases List.mem_cons.mp hi with rfl | hi
    · rw [if_pos rfl, h'.others i hsid]
      exact h.written i List.mem_cons_self
    · have hi' : i ∉ [sid] := fun he => hother i hi (List.mem_singleton.mp he)
      rw [if_neg (hother i hi), h'.written i hi, h.others i hi']
  · intro i hi
    obtain ⟨hne, hrest⟩ := not_or.mp (mt List.mem_cons.mpr hi)
    rw [h'.others i hrest]
    exact h.others i fun he => hne (List.mem_singleton.mp he)
  · exact h'.registry.trans h.registry

/-- The message that is copied stays what it is. -/
theorem Delivered.message {sids : List Nat} {copy : Nat → MsgPtr}
    (h : Delivered m held sids copy w w') (hmsg : msg ∈ held) (hm : w.alloc.message msg = some m) :
    w'.alloc.message msg = some m := by
  rw [Allocator.message, h.same msg hmsg]
  exact hm

/-- The whole loop. -/
theorem delivered_all {sids : List Nat} (hnodup : sids.Nodup) (hown : w.alloc.Owns held)
    (hmsg : msg ∈ held) (hm : w.alloc.message msg = some m)
    (hbody : m.body.length = m.bodyLength.toNat)
    (hok : sids.foldlM (copyMsg mem m.header msg) w = .ok w') :
    ∃ copy, Delivered m held sids copy w w' := by
  induction sids generalizing w held with
  | nil =>
    cases hok
    exact ⟨fun _ => 0, by simpa using hown, fun _ _ => rfl, nofun, nofun, fun _ _ => rfl, rfl⟩
  | cons sid sids ih =>
    obtain ⟨hsid, hrest⟩ := List.nodup_cons.mp hnodup
    rw [List.foldlM_cons] at hok
    cases hround : copyMsg mem m.header msg w sid with
    | error e =>
      rw [hround] at hok
      cases hok
    | ok w₁ =>
      rw [hround] at hok
      obtain ⟨p, h⟩ := delivered_one hown hm hbody hround
      have hown₁ : w₁.alloc.Owns (p ::ₘ held) := h.owns
      obtain ⟨copy, h'⟩ := ih hrest hown₁ (Multiset.mem_cons_of_mem hmsg) (h.message hmsg hm) hok
      exact ⟨_, h.cons hsid h'⟩

/-- As `msg` stays what it is, it need be read only once. -/
theorem foldlM_copyMsg {sids : List Nat} (hown : w.alloc.Owns held) (hmsg : msg ∈ held)
    (hm : w.alloc.message msg = some m) (hbody : m.body.length = m.bodyLength.toNat) :
    sids.foldlM (copyMsg mem m.header msg) w = sids.foldlM (ConnectionMgr.copyTo mem m) w := by
  induction sids generalizing w held with
  | nil => rfl
  | cons sid sids ih =>
    have hround : copyMsg mem m.header msg w sid = w.copyTo mem m sid := by
      unfold copyMsg ConnectionMgr.copyTo
      cases hnew : w.alloc.newMessage mem m.header m.body m.bodyLength <;> simp only [hm, hnew]
    rw [List.foldlM_cons, List.foldlM_cons, ← hround]
    cases hok : copyMsg mem m.header msg w sid with
    | error e => rfl
    | ok w₁ =>
      obtain ⟨p, h⟩ := delivered_one hown hm hbody hok
      exact ih h.owns (Multiset.mem_cons_of_mem hmsg) (h.message hmsg hm)

theorem writeToAll_eq (hown : w.alloc.Owns held) (hmsg : msg ∈ held)
    (hm : w.alloc.message msg = some m) (hbody : m.body.length = m.bodyLength.toNat) :
    writeToAll mem w msg = w.writeToAll mem m := by
  simp only [writeToAll, hm]
  exact foldlM_copyMsg hown hmsg hm hbody

/-- With memory enough the loop comes to its end. -/
theorem copies_all {sids : List Nat} (hown : w.alloc.Owns held) (hmsg : msg ∈ held)
    (hm : w.alloc.message msg = some m) (hbody : m.body.length = m.bodyLength.toNat) :
    ∃ w', sids.foldlM (copyMsg .unlimited m.header msg) w = .ok w' := by
  induction sids generalizing w held with
  | nil => exact ⟨w, rfl⟩
  | cons sid sids ih =>
    obtain ⟨⟨alloc, p⟩, hnew⟩ := (Allocator.newMessage_isOk_iff hown .unlimited m.header m.body
      m.bodyLength).mpr ⟨Or.inr rfl, Or.inr rfl⟩
    have hround : copyMsg .unlimited m.header msg w sid =
        .ok ({ w with alloc := alloc }.write sid p) := by
      simp only [copyMsg, hm, hnew]
    obtain ⟨p', h⟩ := delivered_one hown hm hbody hround
    obtain ⟨w', hw'⟩ := ih h.owns (Multiset.mem_cons_of_mem hmsg) (h.message hmsg hm)
    refine ⟨w', ?_⟩
    rw [List.foldlM_cons, hround]
    exact hw'

end Rounds

/-! ## The call in a program with threads -/

/-- The message to copy: one that `allocate_msg_buffer` has given out and that
has not been given back, or one that the caller has constructed itself. -/
inductive Caller (s : Manager.State) (msg : MsgPtr) : Allocator → Prop
  | held : msg ∈ Manager.heldPtrs s → Caller s msg s.shared.alloc
  | own (header : HDR) (m : Msg) : msg = s.shared.alloc.fresh →
      Caller s msg ((s.shared.alloc.new .unlimited header).1.setObject msg (some m))

/-- What `write_to_all(msg)` finds. The order of the registry is that of the
pointers, which is any order, and any writes may be outstanding. -/
structure Seen (s : Manager.State) (msg : MsgPtr) (w : ConnectionMgr) : Prop where
  caller : Caller s msg w.alloc
  queues : ∀ i, queue w i = if (s.shared.sessions i).alive then
    (s.shared.sessions i).write.msgQueue.map Manager.Ref.ptr else []
  registry : w.connectionList.Perm s.shared.connectionList

/-- No `handler_write_body` has the lock of its session, for which the call
would have to wait. -/
def Undisturbed (s : Manager.State) : Prop := ∀ i, (s.shared.sessions i).locked = false

/-- Each registered session has got a message of its own, and nothing else has
changed. -/
structure Copied (msg : MsgPtr) (m : ConnMsg) (copy : Nat → MsgPtr) (w w' : ConnectionMgr) :
    Prop where
  appended : ∀ sid ∈ w.connectionList, queue w' sid = queue w sid ++ [copy sid]
  others : ∀ sid ∉ w.connectionList, queue w' sid = queue w sid
  distinct : ∀ sid ∈ w.connectionList, ∀ sid' ∈ w.connectionList, copy sid = copy sid' → sid = sid'
  new : ∀ sid ∈ w.connectionList, copy sid ≠ msg ∧ ∀ i, copy sid ∉ queue w i
  content : ∀ sid ∈ w.connectionList, ∃ c, w'.alloc.message (copy sid) = some c ∧
    c.bodyLength = m.bodyLength ∧ c.body = m.body
  /-- the header write is issued where the queue was empty -/
  issued : ∀ sid, outstanding w' sid =
    if sid ∈ w.connectionList ∧ queue w sid = [] then outstanding w sid ++ [⟨.header, copy sid⟩]
    else outstanding w sid
  msg : w'.alloc.message msg = some m
  queued : ∀ i, ∀ p ∈ queue w i, w'.alloc.message p = w.alloc.message p
  registry : w'.connectionList = w.connectionList

/-- Only a session that exists can be locked. -/
theorem undisturbed_of_created {s : Manager.State} (hs : Manager.Sane s)
    (h : ∀ i < s.shared.created, (s.shared.sessions i).locked = false) : Undisturbed s := by
  intro i
  by_contra hlocked
  have hcount := hs.locked i
  rw [if_pos (Bool.eq_true_of_not_eq_false hlocked)] at hcount
  obtain ⟨c, hc, hlocks⟩ := Multiset.countP_pos.mp (Nat.lt_of_lt_of_eq Nat.one_pos hcount.symm)
  have hsession : c.session = some i := by
    cases c with
    | dellocate | dellocateRetry | dellocated => exact congrArg some (beq_iff_eq.mp hlocks)
    | _ => cases hlocks
  exact hlocked (h i (hs.created i ((hs.calls c hc).alive i hsession)))

/-- A `connection_mgr` as the call may find it. -/
def view (s : Manager.State) : ConnectionMgr where
  alloc := s.shared.alloc
  sessions i :=
    { read := .init (s.shared.sessions i).header
      write := ⟨{ WriteSide.init with msgQueue := if (s.shared.sessions i).alive then
        (s.shared.sessions i).write.msgQueue.map Manager.Ref.ptr else [] }, []⟩ }
  connectionList := s.shared.connectionList

theorem seen_view {s : Manager.State} {msg : MsgPtr} (h : msg ∈ Manager.heldPtrs s) :
    Seen s msg (view s) := ⟨.held h, fun _ => rfl, List.Perm.refl _⟩

theorem Caller.owns {s : Manager.State} {msg : MsgPtr} {a : Allocator} (h : Caller s msg a)
    (hs : Manager.Owned s) :
    ∃ held, a.Owns held ∧ msg ∈ held ∧ ∀ p ∈ Manager.heldPtrs s, p ∈ held := by
  cases h with
  | held hmsg => exact ⟨_, hs.owns, hmsg, fun _ hp => hp⟩
  | own header m hmsg =>
    subst hmsg
    have hown : ((s.shared.alloc.new .unlimited header).1).Owns
        (s.shared.alloc.fresh ::ₘ Manager.heldPtrs s) :=
      (Allocator.handed_new hs.owns .unlimited header).owns
    have hmem := Multiset.mem_cons_self s.shared.alloc.fresh (Manager.heldPtrs s)
    exact ⟨_, (Allocator.owns_setObject hown hmem m).1, hmem,
      fun _ hp => Multiset.mem_cons_of_mem hp⟩

/-- Every message in a queue is held. -/
theorem Seen.held {s : Manager.State} {msg p : MsgPtr} {w : ConnectionMgr} {i : Nat}
    (h : Seen s msg w) (hs : Manager.Sane s) (hfree : Undisturbed s) (hp : p ∈ queue w i) :
    p ∈ Manager.heldPtrs s := by
  rw [h.queues i] at hp
  split at hp
  · rename_i halive
    obtain ⟨r, hr, rfl⟩ := List.mem_map.mp hp
    apply Multiset.mem_map_of_mem
    apply Multiset.mem_add.mpr
    right
    apply Multiset.mem_bind.mpr
    refine ⟨i, Multiset.mem_range.mpr (hs.created i halive), ?_⟩
    rw [Manager.Session.waiting, if_pos halive, hfree i]
    exact hr
  · cases hp

/-- The rounds are the whole of the call. -/
theorem Delivered.copied {msg : MsgPtr} {m : ConnMsg} {held : Multiset MsgPtr}
    {copy : Nat → MsgPtr} {w w' : ConnectionMgr} (h : Delivered m held w.connectionList copy w w')
    (hmsg : msg ∈ held) (hm : w.alloc.message msg = some m)
    (hqueued : ∀ i, ∀ p ∈ queue w i, p ∈ held) : Copied msg m copy w w' := by
  have hnodup := (Multiset.nodup_add.mp h.owns.nodup).1
  obtain ⟨hcopies, -, hdisjoint⟩ := Multiset.nodup_add.mp hnodup
  have hnew : ∀ sid ∈ w.connectionList, copy sid ∉ held := by
    intro sid hsid
    exact Multiset.disjoint_left.mp hdisjoint (List.mem_map_of_mem hsid)
  constructor
  · intro sid hsid
    rw [queue, h.written sid hsid]
    exact ((w.sessions sid).write.write_spec (copy sid)).1
  · intro sid hsid
    rw [queue, h.others sid hsid, queue]
  · intro sid hsid sid' hsid' he
    exact List.inj_on_of_nodup_map (Multiset.coe_nodup.mp hcopies) hsid hsid' he
  · intro sid hsid
    constructor
    · intro he
      exact hnew sid hsid (he ▸ hmsg)
    · intro i hi
      exact hnew sid hsid (hqueued i _ hi)
  · exact h.copies
  · intro sid
    by_cases hsid : sid ∈ w.connectionList
    · rw [outstanding, h.written sid hsid]
      simpa [hsid, queue, outstanding] using ((w.sessions sid).write.write_spec (copy sid)).2
    · rw [outstanding, h.others sid hsid, if_neg fun hc => hsid hc.1, outstanding]
  · exact h.message hmsg hm
  · intro i p hp
    exact congrArg (Option.map Msg.val) (h.same p (hqueued i p hp))
  · exact h.registry

/-- **A broadcast** ends, when there is memory, and if it ends each registered
session has got one message, different from all that there were. -/
theorem write_to_all (s : Manager.State) (h : Reach Manager.step always Manager.start s)
    (hfree : Undisturbed s) (w : ConnectionMgr) (msg : MsgPtr) (hw : Seen s msg w) (m : ConnMsg)
    (hm : w.alloc.message msg = some m) (hset : HasBody m) :
    (∃ w', writeToAll .unlimited w msg = .ok w') ∧
      ∀ mem w', writeToAll mem w msg = .ok w' → ∃ copy, Copied msg m copy w w' := by
  obtain ⟨held, hown, hmsg, hheld⟩ := hw.caller.owns (Manager.owned_of_reach h)
  have hqueued : ∀ i, ∀ p ∈ queue w i, p ∈ held := fun i p hp =>
    hheld p (hw.held (Manager.sane_of_reach h) hfree hp)
  have hnodup : w.connectionList.Nodup :=
    hw.registry.nodup_iff.mpr (List.Nodup.filter _ List.nodup_range)
  simp only [writeToAll, hm]
  constructor
  · exact copies_all hown hmsg hm hset.length
  · intro mem w' hok
    obtain ⟨copy, hall⟩ := delivered_all hnodup hown hmsg hm hset.length hok
    exact ⟨copy, hall.copied hmsg hm hqueued⟩

/-- A message from the buffer for a session with a message in its queue, and a
new one for a session with none. -/
theorem write_to_all_two : ∃ (s : Manager.State) (w' : ConnectionMgr),
    writeToAll .unlimited (view s) 4 = .ok w' ∧ queue (view s) 0 = [2] ∧
    s.shared.alloc.connMsgBuffer.items = [0] ∧ queue w' 0 = [2, 0] ∧ queue w' 1 = [7] ∧
    ∃ m copy, Copied 4 m copy (view s) w' := by
  let header : HDR := ⟨1, 0, 0, 0, 0, 0⟩
  let acts : List Manager.Action := Manager.connects 0 ++ Manager.connects 1 ++
    Manager.sends 0 header ⟨0, 0⟩ ++ Manager.startsWrite 0 ⟨0, 0⟩ ++
    Manager.sends 0 header ⟨2, 1⟩ ++ (Manager.sends 0 header ⟨4, 2⟩).take 3 ++
    Manager.completes 0 ⟨0, 0⟩ ++ Manager.givesBack 0 ⟨0, 0⟩
  let m : ConnMsg := ((Msg.ofHeader header).setBody [1] 1 none).1.val
  let before (s : Manager.State) : List MsgPtr × List MsgPtr × Bool :=
    (queue (view s) 0, s.shared.alloc.connMsgBuffer.items, decide (4 ∈ Manager.heldPtrs s ∧
      (∀ i < s.shared.created, (s.shared.sessions i).locked = false) ∧
      s.shared.alloc.message 4 = some m))
  let after (s : Manager.State) : Option (List MsgPtr × List MsgPtr) :=
    (writeToAll .unlimited (view s) 4).toOption.map fun w' => (queue w' 0, queue w' 1)
  have hrun : (exec Manager.step Manager.start acts).map (fun s => (before s, after s)) =
      some (([2], [0], true), some ([2, 0], [7])) := by
    decide +kernel
  obtain ⟨s, hs, hseen⟩ := Option.map_eq_some_iff.mp hrun
  obtain ⟨hbefore, hafter⟩ := Prod.mk.inj hseen
  simp only [before, Prod.mk.injEq, decide_eq_true_eq] at hbefore
  obtain ⟨hqueue, hitems, hheld, hunlocked, hm⟩ := hbefore
  have hreach := Reach.of_exec acts hs
  have hset : HasBody m := ⟨.ofHeader header, [1], 1, none, rfl, rfl⟩
  have hall := write_to_all s hreach
    (undisturbed_of_created (Manager.sane_of_reach hreach) hunlocked) (view s) 4
    (seen_view hheld) m hm hset
  obtain ⟨w', hok⟩ := hall.1
  simp only [after, hok, Except.toOption, Option.map_some, Option.some.injEq,
    Prod.mk.injEq] at hafter
  obtain ⟨copy, hcopied⟩ := hall.2 _ w' hok
  exact ⟨s, w', hok, hqueue, hitems, hafter.1, hafter.2, m, copy, hcopied⟩

end AsioTcp.Broadcast
