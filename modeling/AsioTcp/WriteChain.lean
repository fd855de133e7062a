import AsioTcp.SessionWrite
import Mathlib.Data.Multiset.Count
import Mathlib.Data.Multiset.Filter

/-!
# The write chain of a session

`session_tcp` means to have one write going at a time: `write` starts one when
it finds `msg_queue_` empty, the completion handlers carry it on, and it ends
when the queue is empty again. Proved here, for every interleaving:

* `queue_has_continuation`: while no write fails, a non-empty queue has a call
  or an operation that will look at the queue again;
* `two_writes_outstanding`: the one-write rule is broken by a `write` that
  finds the queue empty between the pop of `handler_write_body` and the
  `do_write` it goes on with: both then start a write;
* `writes_in_order`: it is broken in no other way. In every run in which no
  `write` falls into that gap, at most one `async_write` is outstanding and
  the headers and bodies are written in the order of the pushes.

The invariant behind the last one is `Chain`: the calls that carry the chain
are at most one, and the point that it has reached says how much of the front
message has been issued and completed.
-/

namespace AsioTcp.WriteChain

open Transition SessionWrite

variable {μ : Type}

/-! ## No lost wake-up -/

/-- The call will look at the queue again. -/
def Live : WriteCall μ → Bool
  | .writeOnEmpty _ => true
  | .writeQueued _ _ => false
  | .doWrite _ => true
  | .asyncWrite _ => true
  | .handler _ error => !error

theorem write_msgQueue (s : WriteSide μ) (msg : μ) :
    (s.write msg).1.msgQueue = s.msgQueue ++ [msg] := by
  unfold WriteSide.write
  split <;> rfl

/-- No section but that of `write` adds to the queue. -/
theorem next_msgQueue_ne_nil {s : WriteSide μ} {c : WriteCall μ} {error : Bool}
    (h : (next s c error).1.msgQueue ≠ []) : s.msgQueue ≠ [] := by
  intro hq
  apply h
  cases c with
  | writeOnEmpty | writeQueued => exact hq
  | doWrite caller => simp [next, WriteSide.doWrite, hq]
  | asyncWrite op => cases error <;> exact hq
  | handler part e =>
    cases e with
    | true => exact hq
    | false => cases part <;> simp [next, WriteSide.handlerWriteHeader,
        WriteSide.handlerWriteBody, hq]

/-- A live call whose section leaves a message on the queue goes on as a live
call: the three places where a chain ends have just seen an empty queue. -/
theorem next_live {s : WriteSide μ} {c : WriteCall μ} {error : Bool} (hc : Live c = true)
    (hok : ∀ op, c = .asyncWrite op → error = false)
    (h : (next s c error).1.msgQueue ≠ []) :
    ∃ c' ∈ (next s c error).2, Live c' = true := by
  cases c with
  | writeOnEmpty msg => exact ⟨.doWrite .write, by simp [next], rfl⟩
  | writeQueued msg n => cases hc
  | doWrite caller =>
    cases hq : s.msgQueue with
    | nil => simp [next, WriteSide.doWrite, hq] at h
    | cons m q =>
      exact ⟨.asyncWrite ⟨.header, m⟩, by simp [next, WriteSide.doWrite, hq, pending], rfl⟩
  | asyncWrite op =>
    have he := hok op rfl
    subst he
    exact ⟨.handler op.part false, by simp [next], rfl⟩
  | handler part e =>
    cases e with
    | true => cases hc
    | false =>
      cases part with
      | header =>
        cases hq : s.msgQueue with
        | nil => simp [next, WriteSide.handlerWriteHeader, hq] at h
        | cons m q =>
          exact ⟨.asyncWrite ⟨.body, m⟩,
            by simp [next, WriteSide.handlerWriteHeader, hq, pending], rfl⟩
      | body => exact ⟨.doWrite .handlerWriteBody, by simp [next], rfl⟩

/-- **No lost wake-up.** As long as no `async_write` has failed, a queue with
a message has a call in progress or an operation outstanding that will look at
the queue again, also when several chains overlap. -/
theorem queue_has_continuation [DecidableEq μ] (s : Config μ)
    (h : Reach (program μ).step NoError (start μ) s) (hq : s.shared.msgQueue ≠ []) :
    ∃ c ∈ s.calls, Live c = true := by
  revert hq
  refine h.invariant (P := fun s => s.shared.msgQueue ≠ [] → ∃ c ∈ s.calls, Live c = true) ?_ ?_
  · intro hq
    exact absurd rfl hq
  · intro s a t _ ih hok hs hq
    rcases step_cases hs with ⟨msg, rfl, rfl⟩ | ⟨c, error, rest, rfl, hcalls, rfl⟩
    · -- a push on an empty queue starts a chain, any other push finds one
      by_cases he : s.shared.msgQueue = []
      · exact ⟨.writeOnEmpty msg, by simp [WriteSide.write, he], rfl⟩
      · obtain ⟨c, hc, hl⟩ := ih he
        exact ⟨c, Multiset.mem_cons_of_mem hc, hl⟩
    · obtain ⟨c', hc', hl⟩ := ih (next_msgQueue_ne_nil hq)
      rw [hcalls] at hc'
      rcases Multiset.mem_cons.mp hc' with rfl | hrest
      · have hok' : ∀ op, c' = .asyncWrite op → error = false := by
          intro op hop
          subst hop
          exact hok
        obtain ⟨d, hd, hdl⟩ := next_live hl hok' hq
        exact ⟨d, Multiset.mem_add.mpr (Or.inl hd), hdl⟩
      · exact ⟨c', Multiset.mem_add.mpr (Or.inr hrest), hl⟩

/-- A message pushed behind another one, with the header of the first out. -/
theorem queue_has_continuation_two : ∃ s : Config Nat, s.shared.msgQueue = [7, 8] ∧
    ∃ c ∈ s.calls, Live c = true := by
  refine ⟨_, rfl, queue_has_continuation _ (Reach.of_exec_guarded
    [.enter 7, .enter 8, .run (.writeOnEmpty 7) false, .run (.doWrite .write) false] rfl)
    (by decide)⟩

/-! ## One write at a time -/

def isAsyncWrite : WriteCall μ → Bool
  | .asyncWrite _ => true
  | _ => false

/-- The writes follow the order of the pushes, one at a time, and a message is
popped only when both its writes have completed. -/
structure InOrder (s : Config μ) : Prop where
  oneWrite : s.calls.countP (fun c => isAsyncWrite c = true) ≤ 1
  issued : s.shared.issued <+: frames s.shared.pushed
  popped : frames s.shared.popped <+: s.shared.completed
  queue : s.shared.popped ++ s.shared.msgQueue = s.shared.pushed

/-- No `write` finds the queue empty while a `handler_write_body` is between
its pop and its `do_write`. -/
def NoPushAfterPop : Config μ → Action μ → Prop
  | s, .enter _ => s.shared.msgQueue = [] → .doWrite .handlerWriteBody ∉ s.calls
  | _, .run _ _ => True

instance [DecidableEq μ] : ∀ (s : Config μ) (a : Action μ), Decidable (NoPushAfterPop s a)
  | s, .enter _ => inferInstanceAs
      (Decidable (s.shared.msgQueue = [] → .doWrite .handlerWriteBody ∉ s.calls))
  | _, .run _ _ => isTrue trivial

/-- The call carries the chain on. -/
def onChain : WriteCall μ → Bool
  | .writeQueued _ _ => false
  | _ => true

def chainCalls (calls : Multiset (WriteCall μ)) : Multiset (WriteCall μ) :=
  calls.filter fun c => onChain c = true

theorem chainCalls_cons_pos {c : WriteCall μ} (h : onChain c = true)
    (calls : Multiset (WriteCall μ)) : chainCalls (c ::ₘ calls) = c ::ₘ chainCalls calls := by
  simp [chainCalls, h]

theorem chainCalls_cons_neg {c : WriteCall μ} (h : onChain c = false)
    (calls : Multiset (WriteCall μ)) : chainCalls (c ::ₘ calls) = chainCalls calls := by
  simp [chainCalls, h]

/-- `Stage m c issued completed`: with `m` at the front, the chain is at call
`c`, and these writes of `m` have been issued and have completed. -/
inductive Stage (m : μ) : WriteCall μ → List (WriteOp μ) → List (WriteOp μ) → Prop
  | pushed : Stage m (.writeOnEmpty m) [] []
  | ready (caller : Caller) : Stage m (.doWrite caller) [] []
  | header : Stage m (.asyncWrite ⟨.header, m⟩) [⟨.header, m⟩] []
  | headerDone : Stage m (.handler .header false) [⟨.header, m⟩] [⟨.header, m⟩]
  | headerFailed : Stage m (.handler .header true) [⟨.header, m⟩] []
  | body : Stage m (.asyncWrite ⟨.body, m⟩) [⟨.header, m⟩, ⟨.body, m⟩] [⟨.header, m⟩]
  | bodyDone : Stage m (.handler .body false) [⟨.header, m⟩, ⟨.body, m⟩]
      [⟨.header, m⟩, ⟨.body, m⟩]
  | bodyFailed : Stage m (.handler .body true) [⟨.header, m⟩, ⟨.body, m⟩] [⟨.header, m⟩]

theorem Stage.issued_prefix {m : μ} {c : WriteCall μ} {issued completed : List (WriteOp μ)}
    (h : Stage m c issued completed) : issued <+: frames [m] := by
  cases h <;> simp

/-- At most one call carries the chain; `issued` and `completed` are the
frames popped so far and what the stage says of the front message. After a
failed write the queue keeps its front message and no call is left. -/
inductive Chain (s : WriteSide μ) : Multiset (WriteCall μ) → Prop
  | idle : s.msgQueue = [] → s.issued = frames s.popped → s.completed = frames s.popped →
      Chain s 0
  | popped : s.msgQueue = [] → s.issued = frames s.popped → s.completed = frames s.popped →
      Chain s {.doWrite .handlerWriteBody}
  | active {m : μ} {q : List μ} {c : WriteCall μ} {issued completed : List (WriteOp μ)} :
      s.msgQueue = m :: q → Stage m c issued completed →
      s.issued = frames s.popped ++ issued → s.completed = frames s.popped ++ completed →
      Chain s {c}
  | failed {m : μ} {q : List μ} {part : Part} {issued completed : List (WriteOp μ)} :
      s.msgQueue = m :: q → Stage m (.handler part true) issued completed →
      s.issued = frames s.popped ++ issued → s.completed = frames s.popped ++ completed →
      Chain s 0

theorem Chain.alone {s : WriteSide μ} {c : WriteCall μ} {calls : Multiset (WriteCall μ)}
    (h : Chain s (c ::ₘ calls)) : calls = 0 := by
  generalize hk : c ::ₘ calls = all at h
  cases h with
  | idle | failed => exact absurd hk Multiset.cons_ne_zero
  | popped | active => exact ((Multiset.singleton_eq_cons_iff calls).mp hk.symm).2

/-- A push behind other messages leaves the chain where it is. -/
theorem Chain.push {s : WriteSide μ} {calls : Multiset (WriteCall μ)} (h : Chain s calls)
    (hq : s.msgQueue ≠ []) (msg : μ) : Chain (s.push msg) calls := by
  cases h with
  | idle he | popped he => exact absurd he hq
  | active he hst hi hc => exact .active (by simp [WriteSide.push, he]; rfl) hst hi hc
  | failed he hst hi hc => exact .failed (by simp [WriteSide.push, he]; rfl) hst hi hc

/-- A push on an empty queue starts the chain, given that no handler is about
to start one itself. -/
theorem Chain.start {s : WriteSide μ} {calls : Multiset (WriteCall μ)} (h : Chain s calls)
    (hq : s.msgQueue = []) (hgap : .doWrite .handlerWriteBody ∉ calls) (msg : μ) :
    calls = 0 ∧ Chain (s.push msg) {.writeOnEmpty msg} := by
  cases h with
  | idle he hi hc =>
    exact ⟨rfl, .active (by simp [WriteSide.push, he]; rfl) .pushed
      (by simpa [WriteSide.push] using hi) (by simpa [WriteSide.push] using hc)⟩
  | popped => exact absurd (Multiset.mem_singleton_self _) hgap
  | active he | failed he => rw [he] at hq; cases hq

/-- One section of the call that carries the chain, by its stage. -/
theorem Chain.next {s : WriteSide μ} {c : WriteCall μ} (h : Chain s {c}) (error : Bool) :
    Chain (SessionWrite.next s c error).1 (SessionWrite.next s c error).2 := by
  generalize hcalls : ({c} : Multiset (WriteCall μ)) = calls at h
  cases h with
  | idle | failed => exact absurd hcalls (Multiset.singleton_ne_zero c)
  | popped he hi hc =>
    obtain rfl := Multiset.singleton_inj.mp hcalls
    simpa [SessionWrite.next, WriteSide.doWrite, he, pending] using Chain.idle he hi hc
  | @active m q d issued completed he hst hi hc =>
    obtain rfl := Multiset.singleton_inj.mp hcalls
    cases hst with
    | pushed => exact .active he (.ready .write) hi hc
    | ready caller =>
      simp only [SessionWrite.next, WriteSide.doWrite, he, pending]
      exact .active he .header (by simp [WriteSide.issue, hi]) hc
    | header =>
      cases error with
      | true => exact .active he .headerFailed hi hc
      | false => exact .active he .headerDone hi (by simp [SessionWrite.next, WriteSide.complete, hc])
    | headerDone =>
      simp only [SessionWrite.next, WriteSide.handlerWriteHeader, he, pending]
      exact .active he .body (by simp [WriteSide.issue, hi]) hc
    | headerFailed => exact .failed he .headerFailed hi hc
    | body =>
      cases error with
      | true => exact .active he .bodyFailed hi hc
      | false => exact .active he .bodyDone hi (by simp [SessionWrite.next, WriteSide.complete, hc])
    | bodyDone =>
      -- the pop: the front frame moves over to the frames popped so far
      simp only [SessionWrite.next, WriteSide.handlerWriteBody, he]
      cases q with
      | nil => exact .popped rfl (by simp [hi]) (by simp [hc])
      | cons m' q => exact .active rfl (.ready .handlerWriteBody) (by simp [hi]) (by simp [hc])
    | bodyFailed => exact .failed he .bodyFailed hi hc

/-- All calls that a section continues as are on the chain. -/
theorem chainCalls_next (s : WriteSide μ) (c : WriteCall μ) (error : Bool) :
    chainCalls (SessionWrite.next s c error).2 = (SessionWrite.next s c error).2 := by
  apply Multiset.filter_eq_self.mpr
  intro d hd
  cases c with
  | writeOnEmpty msg => simp [SessionWrite.next] at hd; subst hd; rfl
  | writeQueued msg n => simp [SessionWrite.next] at hd
  | doWrite caller =>
    simp only [SessionWrite.next, WriteSide.doWrite] at hd
    split at hd <;> simp [pending] at hd
    subst hd; rfl
  | asyncWrite op => simp [SessionWrite.next] at hd; subst hd; rfl
  | handler part e =>
    cases e with
    | true => simp [SessionWrite.next] at hd
    | false =>
      cases part with
      | header =>
        simp only [SessionWrite.next, WriteSide.handlerWriteHeader] at hd
        split at hd <;> simp [pending] at hd
        subst hd; rfl
      | body => simp [SessionWrite.next] at hd; subst hd; rfl

/-- No section but those of `write` and `handler_write_body` moves messages. -/
theorem next_order {s : WriteSide μ} (h : s.popped ++ s.msgQueue = s.pushed)
    (c : WriteCall μ) (error : Bool) :
    (SessionWrite.next s c error).1.popped ++ (SessionWrite.next s c error).1.msgQueue =
      (SessionWrite.next s c error).1.pushed := by
  cases c with
  | writeOnEmpty | writeQueued => exact h
  | doWrite caller =>
    simp only [SessionWrite.next, WriteSide.doWrite]
    split <;> exact h
  | asyncWrite op => cases error <;> exact h
  | handler part e =>
    cases e with
    | true => exact h
    | false =>
      cases part with
      | header =>
        simp only [SessionWrite.next, WriteSide.handlerWriteHeader]
        split <;> exact h
      | body =>
        simp only [SessionWrite.next, WriteSide.handlerWriteBody]
        split
        · exact h
        · rename_i m rest hq
          simpa [hq] using h

/-- The chain invariant of a configuration. -/
structure OneChain (s : Config μ) : Prop where
  order : s.shared.popped ++ s.shared.msgQueue = s.shared.pushed
  chain : Chain s.shared (chainCalls s.calls)

theorem oneChain_start : OneChain (start μ) := ⟨rfl, .idle rfl rfl rfl⟩

theorem oneChain_step [DecidableEq μ] {s t : Config μ} {a : Action μ} (h : OneChain s)
    (hok : NoPushAfterPop s a) (hs : (program μ).step s a = some t) : OneChain t := by
  rcases step_cases hs with ⟨msg, rfl, rfl⟩ | ⟨c, error, rest, rfl, hcalls, rfl⟩
  · have horder : ∀ c, OneChain ⟨s.shared.push msg, c ::ₘ s.calls⟩ ↔
        Chain (s.shared.push msg) (chainCalls (c ::ₘ s.calls)) := by
      intro c
      refine ⟨fun h' => h'.chain, fun h' => ⟨?_, h'⟩⟩
      simp [WriteSide.push, ← h.order]
    by_cases hq : s.shared.msgQueue = []
    · have hgap : .doWrite .handlerWriteBody ∉ chainCalls s.calls :=
        fun hm => hok hq (Multiset.mem_of_mem_filter hm)
      obtain ⟨hnone, hchain⟩ := h.chain.start hq hgap msg
      simp only [WriteSide.write, hq, List.isEmpty_nil, ↓reduceIte, horder]
      rw [chainCalls_cons_pos rfl, hnone]
      exact hchain
    · have hne : s.shared.msgQueue.isEmpty = false := by simpa using hq
      simp only [WriteSide.write, hne, Bool.false_eq_true, ↓reduceIte, horder]
      rw [chainCalls_cons_neg rfl]
      exact h.chain.push hq msg
  · refine ⟨next_order h.order c error, ?_⟩
    have hchain := h.chain
    rw [hcalls] at hchain
    have hcont : chainCalls ((SessionWrite.next s.shared c error).2 + rest) =
        (SessionWrite.next s.shared c error).2 + chainCalls rest := by
      rw [chainCalls, Multiset.filter_add]
      exact congrArg (· + chainCalls rest) (chainCalls_next s.shared c error)
    simp only [hcont]
    cases hc : onChain c with
    | false =>
      -- only the log of a `write` behind other messages is off the chain
      rw [chainCalls_cons_neg hc] at hchain
      cases c with
      | writeQueued msg n => simpa [SessionWrite.next] using hchain
      | _ => cases hc
    | true =>
      rw [chainCalls_cons_pos hc] at hchain
      have hrest := hchain.alone
      rw [hrest] at hchain ⊢
      rw [Multiset.add_zero]
      exact hchain.next error

theorem oneChain_of_reach [DecidableEq μ] {s : Config μ}
    (h : Reach (program μ).step NoPushAfterPop (start μ) s) : OneChain s :=
  h.invariant oneChain_start fun _ _ _ _ hs hok hstep => oneChain_step hs hok hstep

theorem Chain.card_le {s : WriteSide μ} {calls : Multiset (WriteCall μ)} (h : Chain s calls) :
    calls.card ≤ 1 := by
  cases h <;> simp

theorem Chain.issued_prefix {s : WriteSide μ} {calls : Multiset (WriteCall μ)}
    (h : Chain s calls) : s.issued <+: frames (s.popped ++ s.msgQueue) := by
  rw [frames_append]
  cases h with
  | idle hq hi | popped hq hi => rw [hi]; exact List.prefix_append _ _
  | active hq hst hi | failed hq hst hi =>
    rw [hi, hq, List.prefix_append_right_inj]
    exact hst.issued_prefix.trans (by simp)

theorem Chain.popped_prefix {s : WriteSide μ} {calls : Multiset (WriteCall μ)}
    (h : Chain s calls) : frames s.popped <+: s.completed := by
  cases h with
  | idle _ _ hc | popped _ _ hc => exact hc ▸ List.prefix_rfl
  | active _ _ _ hc | failed _ _ _ hc => rw [hc]; exact List.prefix_append _ _

/-- The chain gives the one-write rule and the order of the writes. -/
theorem inOrder_of_oneChain {s : Config μ} (h : OneChain s) : InOrder s where
  oneWrite := by
    have hsub : s.calls.countP (fun c => isAsyncWrite c = true) ≤ (chainCalls s.calls).card := by
      rw [Multiset.countP_eq_card_filter]
      refine Multiset.card_le_card (Multiset.monotone_filter_right s.calls ?_)
      intro c hc
      cases c with
      | asyncWrite op => rfl
      | _ => cases hc
    exact hsub.trans h.chain.card_le
  issued := by
    rw [← h.order]
    exact h.chain.issued_prefix
  popped := h.chain.popped_prefix
  queue := h.order

/-- **One write at a time, in the order of the pushes**, in every run in which
no `write` finds the queue empty while a `handler_write_body` is between its
pop and its `do_write`. -/
theorem writes_in_order [DecidableEq μ] (s : Config μ)
    (h : Reach (program μ).step NoPushAfterPop (start μ) s) : InOrder s :=
  inOrder_of_oneChain (oneChain_of_reach h)

/-- One message written to its end, and a second one behind it. -/
theorem writes_in_order_two : ∃ s, InOrder s ∧ s.shared.popped = [7] ∧
    s.shared.issued = [⟨.header, 7⟩, ⟨.body, 7⟩, ⟨.header, 8⟩] := by
  refine ⟨_, writes_in_order _ (Reach.of_exec_guarded
    [.enter 7, .run (.writeOnEmpty 7) false, .enter 8, .run (.doWrite .write) false,
      .run (.asyncWrite ⟨.header, 7⟩) false, .run (.handler .header false) false,
      .run (.asyncWrite ⟨.body, 7⟩) false, .run (.handler .body false) false,
      .run (.doWrite .handlerWriteBody) false] rfl), rfl, rfl⟩

/-- **The gap.** Message 7 is written to its end; its `handler_write_body` pops
it and is about to call `do_write` when a `write` of message 8 finds the queue
empty. Both start a write of the header of message 8. -/
theorem two_writes_outstanding :
    ∃ s, Reach (program Nat).step NoError (start Nat) s ∧ ¬ InOrder s := by
  refine ⟨_, Reach.of_exec_guarded
    [.enter 7, .run (.writeOnEmpty 7) false, .run (.doWrite .write) false,
      .run (.asyncWrite ⟨.header, 7⟩) false, .run (.handler .header false) false,
      .run (.asyncWrite ⟨.body, 7⟩) false, .run (.handler .body false) false,
      .enter 8, .run (.writeOnEmpty 8) false, .run (.doWrite .write) false,
      .run (.doWrite .handlerWriteBody) false] rfl, ?_⟩
  intro h
  exact absurd h.oneWrite (by decide)

end AsioTcp.WriteChain
