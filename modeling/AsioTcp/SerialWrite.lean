import AsioTcp.ConnMsg
import AsioTcp.WriteChain

/-!
# The write side on one io thread

With one io thread and `write` called from handlers only, every call runs to
its end before the next one starts: a `write` includes the `do_write` it makes,
and the completion of an `async_write` runs its handler. `step` is that system,
over messages with their bytes. `serial_refines` embeds its runs in those of
`SessionWrite.program`: they never meet the gap of `WriteChain`, so the chain
invariant holds of them. With it, `serial_sound` states what a session does
when writes may fail at any point, down to the bytes on the wire.
-/

namespace AsioTcp.SerialWrite

open Transition SessionWrite WriteChain

/-- The buffer that an `async_write` sends. -/
def opBytes : WriteOp ConnMsg → List BYTE
  | ⟨.header, msg⟩ => msg.header.toBytes
  | ⟨.body, msg⟩ => msg.body

def frameBytes (msg : ConnMsg) : List BYTE := msg.header.toBytes ++ msg.body

/-- The write side of a session between two handlers. -/
structure SerialSession (μ : Type) where
  session : WriteSide μ
  /-- writes issued whose handler has not run yet -/
  outstanding : List (WriteOp μ)
  deriving DecidableEq

namespace SerialSession

variable {μ : Type}

def init : SerialSession μ := ⟨.init, []⟩

/-- `do_write`. -/
def doWrite (s : SerialSession μ) : SerialSession μ where
  session := s.session.doWrite.1
  outstanding := s.outstanding ++ s.session.doWrite.2.toList

/-- `write`, with the `do_write` it calls. -/
def write (s : SerialSession μ) (msg : μ) : SerialSession μ :=
  match s.session.write msg with
  | (session, .writeOnEmpty _) => { s with session := session }.doWrite
  | (session, _) => { s with session := session }

/-- `write` on an empty queue starts to write; otherwise the message waits. -/
theorem write_spec (s : SerialSession μ) (msg : μ) :
    (s.write msg).session.msgQueue = s.session.msgQueue ++ [msg] ∧
      (s.write msg).outstanding =
        if s.session.msgQueue = [] then s.outstanding ++ [⟨.header, msg⟩] else s.outstanding := by
  cases hq : s.session.msgQueue <;>
    simp [write, WriteSide.write, doWrite, WriteSide.doWrite, WriteSide.push, WriteSide.issue, hq]

/-- `handler_write_header` without an error. -/
def handlerWriteHeader (s : SerialSession μ) : SerialSession μ where
  session := s.session.handlerWriteHeader.1
  outstanding := s.outstanding ++ s.session.handlerWriteHeader.2.toList

/-- `handler_write_body` without an error, with the `do_write` it calls. -/
def handlerWriteBody (s : SerialSession μ) : SerialSession μ :=
  { s with session := s.session.handlerWriteBody }.doWrite

variable [DecidableEq μ]

/-- The write `op` has completed; its handler runs. -/
def complete (s : SerialSession μ) (op : WriteOp μ) : SerialSession μ :=
  let s := { s with session := s.session.complete op, outstanding := s.outstanding.erase op }
  match op.part with
  | .header => s.handlerWriteHeader
  | .body => s.handlerWriteBody

/-- The write `op` has failed; its handler calls `leave`. -/
def fail (s : SerialSession μ) (op : WriteOp μ) : SerialSession μ :=
  { s with outstanding := s.outstanding.erase op }

end SerialSession

structure State extends SerialSession ConnMsg where
  /-- a write has failed -/
  failed : Bool
  /-- what the writes that are over have sent -/
  wire : List BYTE
  /-- the messages given to `write`, in order: the arguments of the calls -/
  passed : List ConnMsg
  deriving DecidableEq

namespace State

def init : State := ⟨.init, false, [], []⟩

def write (s : State) (msg : ConnMsg) : State :=
  { s with toSerialSession := s.toSerialSession.write msg }

/-- The write `op` has sent its whole buffer. -/
def complete (s : State) (op : WriteOp ConnMsg) : State :=
  { s with toSerialSession := s.toSerialSession.complete op, wire := s.wire ++ opBytes op }

/-- The write `op` has failed after `sent` bytes. -/
def fail (s : State) (op : WriteOp ConnMsg) (sent : Nat) : State where
  toSerialSession := s.toSerialSession.fail op
  failed := true
  wire := s.wire ++ (opBytes op).take sent
  passed := s.passed

/-- The bytes sent when the write that is outstanding has sent `sent` bytes. -/
def onWire (s : State) (sent : Nat) : List BYTE :=
  s.wire ++ (s.outstanding.flatMap opBytes).take sent

end State

inductive Action
  | write (msg : ConnMsg)
  | complete (op : WriteOp ConnMsg)
  | fail (op : WriteOp ConnMsg) (sent : Nat)

def step (s : State) : Action → Option State
  | .write msg => some { s.write msg with passed := s.passed ++ [msg] }
  | .complete op => if op ∈ s.outstanding then some (s.complete op) else none
  | .fail op sent => if op ∈ s.outstanding then some (s.fail op sent) else none

/-! ## Refinement -/

section Refinement

variable {μ : Type}

/-- The calls in progress between two handlers: the writes left with asio. -/
def calls (ops : List (WriteOp μ)) : Multiset (WriteCall μ) := ↑(ops.map WriteCall.asyncWrite)

def SerialSession.config (s : SerialSession μ) : Config μ := ⟨s.session, calls s.outstanding⟩

theorem doWrite_notMem_calls (caller : Caller) (ops : List (WriteOp μ)) :
    .doWrite caller ∉ calls ops := by
  simp [calls]

theorem pending_add_calls (op : Option (WriteOp μ)) (ops : List (WriteOp μ)) :
    pending op + calls ops = calls (ops ++ op.toList) := by
  cases op with
  | none => simp [pending]
  | some op => simpa [pending, calls] using (List.perm_append_singleton _ _).symm

variable [DecidableEq μ]

theorem calls_erase {op : WriteOp μ} {ops : List (WriteOp μ)} (h : op ∈ ops) :
    calls ops = .asyncWrite op ::ₘ calls (ops.erase op) := by
  have hperm : ops.Perm (op :: ops.erase op) := List.perm_cons_erase h
  simpa [calls] using Multiset.coe_eq_coe.mpr (hperm.map WriteCall.asyncWrite)

/-- One section of a call, in the interleaved program. -/
theorem run_call (w : WriteSide μ) (c : WriteCall μ) (error : Bool)
    (rest : Multiset (WriteCall μ)) :
    Reach (program μ).step NoPushAfterPop ⟨w, c ::ₘ rest⟩
      ⟨(next w c error).1, (next w c error).2 + rest⟩ := by
  refine Reach.single ?_ (step_run w c rest error)
  trivial

theorem run_doWrite (s : SerialSession μ) (caller : Caller) :
    Reach (program μ).step NoPushAfterPop
      ⟨s.session, .doWrite caller ::ₘ calls s.outstanding⟩ s.doWrite.config := by
  have h := run_call s.session (.doWrite caller) false (calls s.outstanding)
  simp only [next, pending_add_calls] at h
  exact h

theorem run_write (s : SerialSession μ) (msg : μ) :
    Reach (program μ).step NoPushAfterPop s.config (s.write msg).config := by
  have hok : NoPushAfterPop s.config (.enter msg) := fun _ => doWrite_notMem_calls _ _
  apply (Reach.single hok (step_enter s.config msg)).trans
  by_cases hq : s.session.msgQueue.isEmpty
  · have hw : s.session.write msg = (s.session.push msg, .writeOnEmpty msg) := by
      simp [WriteSide.write, hq]
    have h := run_call (s.session.push msg) (.writeOnEmpty msg) false (calls s.outstanding)
    simp only [SerialSession.config, SerialSession.write, hw]
    exact h.trans (run_doWrite { s with session := s.session.push msg } .write)
  · have hw : s.session.write msg =
        (s.session.push msg, .writeQueued msg (s.session.push msg).msgQueue.length) := by
      simp [WriteSide.write, hq]
    have h := run_call (s.session.push msg)
      (.writeQueued msg (s.session.push msg).msgQueue.length) false (calls s.outstanding)
    simp only [SerialSession.config, SerialSession.write, hw]
    simpa [next] using h

theorem run_complete (s : SerialSession μ) {op : WriteOp μ} (h : op ∈ s.outstanding) :
    Reach (program μ).step NoPushAfterPop s.config (s.complete op).config := by
  have hdone := run_call s.session (.asyncWrite op) false (calls (s.outstanding.erase op))
  have hhandler := run_call (s.session.complete op) (.handler op.part false) false
    (calls (s.outstanding.erase op))
  rw [SerialSession.config, calls_erase h]
  refine hdone.trans (hhandler.trans ?_)
  obtain ⟨part, msg⟩ := op
  cases part with
  | header =>
    simp only [next, pending_add_calls]
    exact Reach.refl
  | body =>
    exact run_doWrite
      ⟨(s.session.complete ⟨.body, msg⟩).handlerWriteBody, s.outstanding.erase ⟨.body, msg⟩⟩
      .handlerWriteBody

theorem run_fail (s : SerialSession μ) {op : WriteOp μ} (h : op ∈ s.outstanding) :
    Reach (program μ).step NoPushAfterPop s.config (s.fail op).config := by
  have hdone := run_call s.session (.asyncWrite op) true (calls (s.outstanding.erase op))
  have hhandler := run_call s.session (.handler op.part true) false
    (calls (s.outstanding.erase op))
  rw [SerialSession.config, calls_erase h]
  apply hdone.trans
  simp only [next, Multiset.zero_add] at hhandler
  exact hhandler

end Refinement

theorem step_cases {s t : State} {a : Action} (h : step s a = some t) :
    (∃ msg, t = { s.write msg with passed := s.passed ++ [msg] }) ∨
    (∃ op ∈ s.outstanding, t = s.complete op) ∨
    (∃ op ∈ s.outstanding, ∃ sent, t = s.fail op sent) := by
  cases a with
  | write msg => exact Or.inl ⟨msg, (Option.some.inj h).symm⟩
  | complete op =>
    simp only [step] at h
    split at h
    · rename_i hop
      exact Or.inr (Or.inl ⟨op, hop, (Option.some.inj h).symm⟩)
    · cases h
  | fail op sent =>
    simp only [step] at h
    split at h
    · rename_i hop
      exact Or.inr (Or.inr ⟨op, hop, sent, (Option.some.inj h).symm⟩)
    · cases h

/-- **Refinement.** A session run one call at a time is a run of the
interleaved program that never meets the gap. -/
theorem serial_refines {s : State} (h : Reach step always .init s) :
    Reach (program ConnMsg).step NoPushAfterPop (start ConnMsg) s.config := by
  refine h.simulate (fun s => s.config) rfl ?_
  intro s a t _ _ hs
  rcases step_cases hs with ⟨msg, rfl⟩ | ⟨op, hop, rfl⟩ | ⟨op, hop, sent, rfl⟩
  · exact run_write s.toSerialSession msg
  · exact run_complete s.toSerialSession hop
  · exact run_fail s.toSerialSession hop

/-! ## What the session does -/

/-- The four states of a session between two handlers, read off the chain. -/
inductive Between (s : State) : Prop
  | idle : s.session.msgQueue = [] → s.outstanding = [] →
      s.session.issued = frames s.session.popped →
      s.session.completed = frames s.session.popped → Between s
  | header (m : ConnMsg) (q : List ConnMsg) : s.session.msgQueue = m :: q →
      s.outstanding = [⟨.header, m⟩] →
      s.session.issued = frames s.session.popped ++ [⟨.header, m⟩] →
      s.session.completed = frames s.session.popped → Between s
  | body (m : ConnMsg) (q : List ConnMsg) : s.session.msgQueue = m :: q →
      s.outstanding = [⟨.body, m⟩] →
      s.session.issued = frames s.session.popped ++ [⟨.header, m⟩, ⟨.body, m⟩] →
      s.session.completed = frames s.session.popped ++ [⟨.header, m⟩] → Between s
  | stopped (m : ConnMsg) (q : List ConnMsg) : s.session.msgQueue = m :: q →
      s.outstanding = [] →
      (s.session.issued = frames s.session.popped ++ [⟨.header, m⟩] ∨
        s.session.issued = frames s.session.popped ++ [⟨.header, m⟩, ⟨.body, m⟩]) → Between s

theorem chainCalls_calls (ops : List (WriteOp ConnMsg)) : chainCalls (calls ops) = calls ops := by
  refine Multiset.filter_eq_self.mpr fun c hc => ?_
  obtain ⟨op, _, rfl⟩ := List.mem_map.mp hc
  rfl

theorem calls_eq_singleton {ops : List (WriteOp ConnMsg)} {c : WriteCall ConnMsg}
    (h : calls ops = {c}) : ∃ op, ops = [op] ∧ c = .asyncWrite op := by
  obtain ⟨op, rfl, hop⟩ := List.map_eq_singleton_iff.mp (Multiset.coe_eq_singleton.mp h)
  exact ⟨op, rfl, hop.symm⟩

theorem calls_eq_zero {ops : List (WriteOp ConnMsg)} (h : calls ops = 0) : ops = [] := by
  simpa [calls] using h

theorem between_of_oneChain {s : State} (h : OneChain s.config) : Between s := by
  have hchain := h.chain
  simp only [SerialSession.config, chainCalls_calls] at hchain
  generalize hops : calls s.outstanding = ops at hchain
  cases hchain with
  | idle hq hi hc => exact .idle hq (calls_eq_zero hops) hi hc
  | popped => exact absurd (hops ▸ Multiset.mem_singleton_self _) (doWrite_notMem_calls _ _)
  | @active m q c issued completed hq hst hi hc =>
    obtain ⟨op, hone, rfl⟩ := calls_eq_singleton hops
    cases hst with
    | header => exact .header m q hq hone hi (by simpa using hc)
    | body => exact .body m q hq hone hi hc
  | @failed m q part issued completed hq hst hi hc =>
    refine .stopped m q hq (calls_eq_zero hops) ?_
    cases hst with
    | headerFailed => exact Or.inl hi
    | bodyFailed => exact Or.inr hi

theorem write_of_empty {s : State} (hq : s.session.msgQueue = []) (msg : ConnMsg) :
    s.write msg = { s with session := (s.session.push msg).issue ⟨.header, msg⟩
                           outstanding := s.outstanding ++ [⟨.header, msg⟩] } := by
  simp [State.write, SerialSession.write, WriteSide.write, SerialSession.doWrite,
    WriteSide.doWrite, WriteSide.push, hq]

theorem write_of_queued {s : State} (hq : s.session.msgQueue ≠ []) (msg : ConnMsg) :
    s.write msg = { s with session := s.session.push msg } := by
  simp [State.write, SerialSession.write, WriteSide.write, hq]

/-- The failure flag, the wire and the branches for an empty queue. -/
structure Books (s : State) : Prop where
  live : s.failed = false → s.wire = s.session.completed.flatMap opBytes ∧
    (s.session.msgQueue ≠ [] → s.outstanding ≠ [])
  dead : s.failed = true → s.wire <+: s.session.issued.flatMap opBytes ∧
    s.session.msgQueue ≠ [] ∧ s.outstanding = []
  foundEmpty : s.session.foundEmpty = []

theorem books_init : Books .init :=
  ⟨fun _ => ⟨rfl, fun h => absurd rfl h⟩, fun h => Bool.noConfusion h, rfl⟩

theorem books_write {s : State} (h : Books s) (msg : ConnMsg) (passed : List ConnMsg) :
    Books { s.write msg with passed := passed } := by
  by_cases hq : s.session.msgQueue = []
  · rw [write_of_empty hq]
    exact ⟨fun hf => ⟨(h.live hf).1, fun _ => by simp⟩, fun hf => absurd hq (h.dead hf).2.1,
      h.foundEmpty⟩
  · rw [write_of_queued hq]
    refine ⟨fun hf => ⟨(h.live hf).1, fun _ => (h.live hf).2 hq⟩, fun hf => ?_, h.foundEmpty⟩
    exact ⟨(h.dead hf).1, by simp [WriteSide.push], (h.dead hf).2.2⟩

theorem books_complete {s : State} (h : Books s) (hb : Between s) {op : WriteOp ConnMsg}
    (hop : op ∈ s.outstanding) : Books (s.complete op) := by
  have hlive : s.failed = false := by
    cases hf : s.failed with
    | false => rfl
    | true => rw [(h.dead hf).2.2] at hop; cases hop
  have hwire := (h.live hlive).1
  have hempty := h.foundEmpty
  cases hb with
  | idle _ ho | stopped _ _ _ ho => rw [ho] at hop; cases hop
  | header m q hq ho =>
    obtain rfl := List.mem_singleton.mp (ho ▸ hop)
    simp only [State.complete, SerialSession.complete, SerialSession.handlerWriteHeader,
      WriteSide.handlerWriteHeader,
      WriteSide.complete, hq]
    exact ⟨fun _ => ⟨by simp [hwire, WriteSide.issue], fun _ => by simp⟩,
      fun hf => absurd (hlive.symm.trans hf) Bool.false_ne_true, hempty⟩
  | body m q hq ho =>
    obtain rfl := List.mem_singleton.mp (ho ▸ hop)
    simp only [State.complete, SerialSession.complete, SerialSession.handlerWriteBody,
      WriteSide.handlerWriteBody, SerialSession.doWrite, WriteSide.doWrite, WriteSide.complete, hq]
    cases q with
    | nil =>
      exact ⟨fun _ => ⟨by simp [hwire], fun hne => absurd rfl hne⟩,
        fun hf => absurd (hlive.symm.trans hf) Bool.false_ne_true, hempty⟩
    | cons m' q =>
      exact ⟨fun _ => ⟨by simp [hwire, WriteSide.issue], fun _ => by simp⟩,
        fun hf => absurd (hlive.symm.trans hf) Bool.false_ne_true, hempty⟩

theorem books_fail {s : State} (h : Books s) (hb : Between s) {op : WriteOp ConnMsg}
    (hop : op ∈ s.outstanding) (sent : Nat) : Books (s.fail op sent) := by
  have hlive : s.failed = false := by
    cases hf : s.failed with
    | false => rfl
    | true => rw [(h.dead hf).2.2] at hop; cases hop
  have hwire := (h.live hlive).1
  refine ⟨fun hf => Bool.noConfusion hf, fun _ => ?_, h.foundEmpty⟩
  simp only [State.fail, SerialSession.fail, hwire]
  cases hb with
  | idle _ ho | stopped _ _ _ ho => rw [ho] at hop; cases hop
  | header m q hq ho hi hc =>
    obtain rfl := List.mem_singleton.mp (ho ▸ hop)
    refine ⟨?_, by simp [hq], by simp [ho]⟩
    rw [hi, hc, List.flatMap_append, List.prefix_append_right_inj]
    simpa using List.take_prefix _ _
  | body m q hq ho hi hc =>
    obtain rfl := List.mem_singleton.mp (ho ▸ hop)
    refine ⟨?_, by simp [hq], by simp [ho]⟩
    rw [hi, hc, List.flatMap_append, List.flatMap_append, List.append_assoc,
      List.prefix_append_right_inj]
    simpa [List.prefix_append_right_inj] using List.take_prefix _ _

theorem between_of_reach {s : State} (h : Reach step always .init s) : Between s :=
  between_of_oneChain (oneChain_of_reach (serial_refines h))

theorem books_of_reach {s : State} (h : Reach step always .init s) : Books s := by
  apply h.invariant books_init
  intro s a t hr hb _ hs
  rcases step_cases hs with ⟨msg, rfl⟩ | ⟨op, hop, rfl⟩ | ⟨op, hop, sent, rfl⟩
  · exact books_write hb msg _
  · exact books_complete hb (between_of_reach hr) hop
  · exact books_fail hb (between_of_reach hr) hop sent

/-- After a failed write nothing is written any more, whatever is queued. -/
theorem silent_after_failure {s t : State} (hb : Books s) (hf : s.failed = true)
    (h : Reach step always s t) : t.session.issued = s.session.issued := by
  have hall : Books t ∧ t.failed = true ∧ t.session.issued = s.session.issued := by
    refine h.invariant (P := fun t => Books t ∧ t.failed = true ∧
      t.session.issued = s.session.issued) ⟨hb, hf, rfl⟩ ?_
    rintro u a v _ ⟨hbu, hfu, hiu⟩ _ hs
    obtain ⟨_, hq, ho⟩ := hbu.dead hfu
    rcases step_cases hs with ⟨msg, rfl⟩ | ⟨op, hop, rfl⟩ | ⟨op, hop, sent, rfl⟩
    · refine ⟨books_write hbu msg _, ?_, ?_⟩ <;> rw [write_of_queued hq]
      · exact hfu
      · exact hiu
    · rw [ho] at hop; cases hop
    · rw [ho] at hop; cases hop
  exact hall.2.2

/-! ## The messages given to `write` -/

theorem pushed_write (s : State) (msg : ConnMsg) :
    (s.write msg).session.pushed = s.session.pushed ++ [msg] := by
  by_cases hq : s.session.msgQueue = []
  · rw [write_of_empty hq]
    rfl
  · rw [write_of_queued hq]
    rfl

/-- No handler pushes a message. -/
theorem pushed_complete (s : State) (op : WriteOp ConnMsg) :
    (s.complete op).session.pushed = s.session.pushed := by
  obtain ⟨part, msg⟩ := op
  cases part with
  | header =>
    cases hq : s.session.msgQueue <;>
      simp [State.complete, SerialSession.complete, SerialSession.handlerWriteHeader,
        WriteSide.handlerWriteHeader, WriteSide.complete, WriteSide.issue, hq]
  | body =>
    rcases hq : s.session.msgQueue with _ | ⟨m, _ | ⟨m', q⟩⟩ <;>
      simp [State.complete, SerialSession.complete, SerialSession.handlerWriteBody,
        WriteSide.handlerWriteBody, SerialSession.doWrite, WriteSide.doWrite,
        WriteSide.complete, WriteSide.issue, hq]

/-- Every message given to `write`, and no other one, has been pushed. -/
theorem pushed_eq_passed {s : State} (h : Reach step always .init s) :
    s.session.pushed = s.passed := by
  refine h.invariant (P := fun s => s.session.pushed = s.passed) rfl ?_
  intro s a t _ hp _ hs
  rcases step_cases hs with ⟨msg, rfl⟩ | ⟨op, _, rfl⟩ | ⟨op, _, sent, rfl⟩
  · exact (pushed_write s msg).trans (congrArg (· ++ [msg]) hp)
  · exact (pushed_complete s op).trans hp
  · exact hp

/-- What a session does when its calls run one at a time. -/
structure Sound (s : State) : Prop where
  queue : s.session.popped ++ s.session.msgQueue = s.passed
  issued : (s.session.msgQueue = [] ∧ s.session.issued = frames s.session.popped) ∨
    ∃ m q, s.session.msgQueue = m :: q ∧
      (s.session.issued = frames s.session.popped ++ [⟨.header, m⟩] ∨
        s.session.issued = frames s.session.popped ++ [⟨.header, m⟩, ⟨.body, m⟩])
  outstanding : s.failed = false →
    s.outstanding.length = if s.session.msgQueue = [] then 0 else 1
  foundEmpty : s.session.foundEmpty = []
  silent : s.failed = true → ∀ t, Reach step always s t → t.session.issued = s.session.issued
  wire : ∀ sent, s.onWire sent <+: s.passed.flatMap frameBytes

theorem flatMap_frames (ms : List ConnMsg) :
    (frames ms).flatMap opBytes = ms.flatMap frameBytes := by
  induction ms with
  | nil => rfl
  | cons m ms ih => simp [frameBytes, opBytes, ih]

/-- The bytes issued are a prefix of the frames pushed. -/
theorem issued_bytes {s : State} (h : OneChain s.config) :
    s.session.issued.flatMap opBytes <+: s.session.pushed.flatMap frameBytes := by
  obtain ⟨rest, hrest⟩ := (inOrder_of_oneChain h).issued
  refine ⟨rest.flatMap opBytes, ?_⟩
  rw [← flatMap_frames, ← List.flatMap_append]
  exact congrArg (List.flatMap opBytes) hrest

theorem onWire_isPrefix {s : State} (hb : Books s) (hs : Between s) (sent : Nat) :
    s.onWire sent <+: s.session.issued.flatMap opBytes := by
  unfold State.onWire
  cases hf : s.failed with
  | true => simpa [(hb.dead hf).2.2] using (hb.dead hf).1
  | false =>
    have hwire := (hb.live hf).1
    have hprefix : s.wire ++ s.outstanding.flatMap opBytes <+:
        s.session.issued.flatMap opBytes := by
      cases hs with
      | idle _ ho hi hc => simp [hwire, ho, hi, hc]
      | header m q _ ho hi hc => simp [hwire, ho, hi, hc]
      | body m q _ ho hi hc => simp [hwire, ho, hi, hc]
      | stopped m q hq ho => exact absurd ho ((hb.live hf).2 (by simp [hq]))
    refine List.IsPrefix.trans ?_ hprefix
    rw [List.prefix_append_right_inj]
    exact List.take_prefix _ _

/-- **One call at a time.** In every state between two handlers, with writes
succeeding or failing at any point: the messages given to `write` are those
popped and then the queue, the writes issued are the frames popped and the front message's header,
or header and body; before the first failure exactly one write is outstanding
for a non-empty queue and none for an empty one; no handler finds the queue
empty; after a failure nothing more is written; and the wire holds a prefix of
the frames of the messages given to `write`. -/
theorem serial_sound (s : State) (h : Reach step always .init s) : Sound s := by
  have hone := oneChain_of_reach (serial_refines h)
  have hs := between_of_oneChain hone
  have hb := books_of_reach h
  have hpassed := pushed_eq_passed h
  refine ⟨hpassed ▸ hone.order, ?_, ?_, hb.foundEmpty,
    fun hf t ht => silent_after_failure hb hf ht,
    fun sent => hpassed ▸ (onWire_isPrefix hb hs sent).trans (issued_bytes hone)⟩
  · cases hs with
    | idle hq _ hi => exact Or.inl ⟨hq, hi⟩
    | header m q hq _ hi => exact Or.inr ⟨m, q, hq, Or.inl hi⟩
    | body m q hq _ hi => exact Or.inr ⟨m, q, hq, Or.inr hi⟩
    | stopped m q hq _ hi => exact Or.inr ⟨m, q, hq, hi⟩
  · intro hf
    cases hs with
    | idle hq ho => simp [hq, ho]
    | header m q hq ho | body m q hq ho => simp [hq, ho]
    | stopped m q hq ho => exact absurd ho ((hb.live hf).2 (by simp [hq]))

/-- Two messages, the header write of the second one failing after five bytes,
and a third message queued after that. -/
theorem serial_sound_failure : ∃ s, s.failed = true ∧
    s.passed.map ConnMsg.bodyLength = [7, 8, 9] ∧
    s.session.msgQueue.map ConnMsg.bodyLength = [8, 9] ∧ s.wire.length = 17 ∧ Sound s := by
  let msg (len : SizeT) : ConnMsg := ⟨[], .fixed, 0, ⟨len, 0, 0, 0, 0, 0⟩⟩
  exact ⟨_, rfl, rfl, rfl, by decide, serial_sound _ (Reach.of_exec
    [.write (msg 7), .write (msg 8), .complete ⟨.header, msg 7⟩, .complete ⟨.body, msg 7⟩,
      .fail ⟨.header, msg 8⟩ 5, .write (msg 9)] rfl)⟩

end AsioTcp.SerialWrite
