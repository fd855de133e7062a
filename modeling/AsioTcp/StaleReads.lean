import AsioTcp.PoolInvariant
import AsioTcp.SessionView

/-!
# Reads through stale pointers

`write`, the handlers and the `async_write` that they leave with asio keep
pointers to messages across lock releases. A message is stale once
`handler_write_body` has passed it to `dellocate_msg_buffer`.

* `no_stale_read`: nobody reads a stale message in a run in which every
  `handler_write_body` comes to `do_write` before a `write` finds its queue
  empty, and gives a message back only after the `write` that has queued it
  behind another one has formatted its log line;
* `stale_read`: that log line can be overtaken, with one write chain.
-/

namespace AsioTcp.Manager

open Transition WriteChain

/-- The message that the call is still to read through a pointer of its own:
`write` formats `body_length()` after the release of the lock, and an
`async_write` refers to the header or the body. -/
def Call.reads : Call → Option Ref
  | .chain _ (.writeOnEmpty msg) _ | .chain _ (.writeQueued msg _) _ => some msg
  | .chain _ (.asyncWrite op) _ => some op.msg
  | .inHand _ msg => some msg
  | _ => none

/-- Nobody reads a stale message: not through a pointer that a call has kept,
and not through one that a locked section finds at the front of a queue. -/
structure NoStale (s : State) : Prop where
  kept : ∀ c ∈ s.calls, ∀ msg, c.reads = some msg → msg ∉ s.shared.dead
  queued : ∀ sid, (s.shared.sessions sid).alive = true → (s.shared.sessions sid).locked = false →
    ∀ msg ∈ (s.shared.sessions sid).write.msgQueue, msg ∉ s.shared.dead

/-- The call is a `write` that has queued the message behind another one and is
still to format its log line. -/
def Call.logs (msg : Ref) : Call → Bool
  | .chain _ (.writeQueued m _) _ => m == msg
  | _ => false

/-- A `handler_write_body` is about to give back a message whose `write` is
still to format its log line. -/
def overtakes (s : State) : Action → Bool
  | .run (.chain sid (.handler .body false) _) _ =>
    match (s.shared.sessions sid).write.msgQueue with
    | [] => false
    | msg :: _ => !decide (∀ c ∈ s.calls, c.logs msg = false)
  | _ => false

def InTime (s : State) (a : Action) : Prop := pushesAfterPop s a = false ∧ overtakes s a = false

instance (s : State) (a : Action) : Decidable (InTime s a) :=
  inferInstanceAs (Decidable (pushesAfterPop s a = false ∧ overtakes s a = false))

/-! ## The log lines -/

/-- A message that a `write` is still to log is not stale. -/
def LogsFresh (s : State) : Prop :=
  ∀ msg, (∃ c ∈ s.calls, c.logs msg = true) → msg ∉ s.shared.dead

theorem logs_plain {c : Call} (hc : c.plain = true) (msg : Ref) : c.logs msg = false := by
  cases c <;> first | rfl | cases hc

/-- No section goes on as a `write` that is still to log. -/
theorem logs_next {sid : Nat} {w : WriteSide Ref} {c : WriteCall Ref} {error : Bool}
    {task : Option Task} {d : Call}
    (hd : d ∈ (SessionWrite.next w c error).2.map (Call.chain sid · (carried c task)) +
      resumed c task) (msg : Ref) : d.logs msg = false := by
  rcases Multiset.mem_add.mp hd with hd | hd
  · obtain ⟨e, he, rfl⟩ := Multiset.mem_map.mp hd
    have hon : onChain e = true := by
      rw [← chainCalls_next w c error] at he
      exact (Multiset.mem_filter.mp he).2
    cases e with
    | writeQueued => cases hon
    | _ => rfl
  · exact logs_plain (resumed_plain hd) msg

/-- No call starts to log and no message becomes stale. -/
theorem logsFresh_keep {s t : State} (h : LogsFresh s) (hdead : t.shared.dead = s.shared.dead)
    (hcalls : ∀ c ∈ t.calls, c ∈ s.calls ∨ ∀ msg, c.logs msg = false) : LogsFresh t := by
  intro msg ⟨c, hc, hlogs⟩
  rw [hdead]
  rcases hcalls c hc with hold | hnone
  · exact h msg ⟨c, hold, hlogs⟩
  · exact absurd ((hnone msg).symm.trans hlogs) Bool.false_ne_true

/-- As `logsFresh_keep`, for a call that runs. -/
theorem logsFresh_run {s : State} (h : LogsFresh s) {s' : Shared} {c : Call}
    {new rest : Multiset Call} (hs : s.calls = c ::ₘ rest) (hdead : s'.dead = s.shared.dead)
    (hnew : ∀ d ∈ new, ∀ msg, d.logs msg = false) : LogsFresh ⟨s', new + rest⟩ := by
  refine logsFresh_keep h hdead fun d hd => ?_
  rcases Multiset.mem_add.mp hd with hd | hd
  · exact Or.inr (hnew d hd)
  · exact Or.inl (hs ▸ Multiset.mem_cons_of_mem hd)

theorem logsFresh_one {s : State} (h : LogsFresh s) {s' : Shared} {c d : Call}
    {rest : Multiset Call} (hs : s.calls = c ::ₘ rest) (hdead : s'.dead = s.shared.dead)
    (hd : ∀ msg, d.logs msg = false) : LogsFresh ⟨s', d ::ₘ rest⟩ := by
  rw [← Multiset.singleton_add]
  exact logsFresh_run h hs hdead fun e he => Multiset.mem_singleton.mp he ▸ hd

/-- A message in hand is not stale. -/
theorem Ledger.inHand_alive {s : State} (hn : (held s).Nodup) (h : Ledger s) {task : Task}
    {msg : Ref} (hc : .inHand task msg ∈ s.calls) : msg ∉ s.shared.dead := by
  intro hdead
  have hself : msg ∈ (Call.inHand task msg).holds := Multiset.mem_singleton_self msg
  obtain ⟨d, hd, hgives⟩ := h.giving msg (mem_held_of_call hc hself) hdead
  have hne : d ≠ .inHand task msg := by
    rintro rfl
    cases hgives
  exact held_once hn hc hd hne hself (mem_holds_of_givesBack hgives)

theorem logsFresh_effect {s t : State} {a : Action} (hn : (held s).Nodup) (hl : Ledger s)
    (hok : overtakes s a = false) (h : LogsFresh s) (he : Effect s a t) : LogsFresh t := by
  cases he with
  | quiet hq hcalls hp =>
    refine logsFresh_keep h hq.dead fun c hc => ?_
    rcases Multiset.mem_add.mp hc with hc | hc
    · exact Or.inr (logs_plain (hp.after c hc).1)
    · exact Or.inl (hcalls ▸ Multiset.mem_add.mpr (Or.inr hc))
  | create =>
    refine logsFresh_keep h rfl fun c hc => ?_
    rcases Multiset.mem_cons.mp hc with rfl | hc
    · exact Or.inr fun _ => rfl
    · exact Or.inl hc
  | clear | destroy => exact logsFresh_keep h rfl fun c hc => Or.inl hc
  | chain hcalls => exact logsFresh_run h hcalls rfl fun d hd msg => logs_next hd msg
  | chainLeave hcalls =>
    exact logsFresh_keep h rfl fun c hc => Or.inl (hcalls ▸ Multiset.mem_cons_of_mem hc)
  | @lock sid task o msg q rest hcalls hfree hq =>
    -- the message that becomes stale is logged already
    simp only [overtakes, hq, Bool.not_eq_false', decide_eq_true_eq] at hok
    have hold : LogsFresh ⟨s.shared, .dellocate sid msg ::ₘ rest⟩ :=
      logsFresh_one h hcalls rfl fun _ => rfl
    intro m ⟨c, hc, hlogs⟩ hdead
    rcases List.mem_cons.mp hdead with rfl | hdead
    · rcases Multiset.mem_cons.mp hc with rfl | hc
      · cases hlogs
      · exact Bool.false_ne_true
          ((hok c (hcalls ▸ Multiset.mem_cons_of_mem hc)).symm.trans hlogs)
    · exact hold m ⟨c, hc, hlogs⟩ hdead
  | taken hcalls | retry hcalls | stored hcalls | popped hcalls =>
    exact logsFresh_one h hcalls rfl fun _ => rfl
  | @given c task header mem r rest hcalls hr =>
    obtain ⟨alloc, result⟩ := r
    cases result with
    | got p => exact logsFresh_one h hcalls rfl fun _ => rfl
    | retry => exact logsFresh_one h hcalls rfl fun _ => rfl
    | badAlloc =>
      exact logsFresh_run h hcalls rfl fun d hd => absurd hd (Multiset.notMem_zero d)
  | @setBody task msg mem data n rest hcalls =>
    refine logsFresh_run h hcalls rfl fun d hd => ?_
    split at hd
    · exact absurd hd (Multiset.notMem_zero d)
    · obtain rfl := Multiset.mem_singleton.mp hd
      exact fun _ => rfl
  | @pushed task msg sid rest hcalls _ _ _ =>
    -- the message of the new `write` was in hand
    have hhand : Call.inHand task msg ∈ s.calls := hcalls ▸ Multiset.mem_cons_self _ rest
    intro m ⟨c, hc, hlogs⟩
    rcases Multiset.mem_cons.mp hc with rfl | hc
    · have hm : m = msg := by
        unfold WriteSide.write at hlogs
        split at hlogs
        · cases hlogs
        · exact (beq_iff_eq.mp hlogs).symm
      rw [hm]
      exact hl.inHand_alive hn hhand
    · exact h m ⟨c, hcalls ▸ Multiset.mem_cons_of_mem hc, hlogs⟩

theorem logsFresh_of_reach {s : State} (h : Reach step InTime start s) : LogsFresh s := by
  refine h.invariant (P := LogsFresh) (fun _ _ hd => by cases hd) ?_
  intro s a t hr hs hok hstep
  exact logsFresh_effect (owned_of_reach hr).held_nodup (ledger_of_reach hr) hok.2 hs
    (effect_of_step hstep)

/-! ## The chain reads the front message -/

theorem mem_session {s : State} {sid : Nat} {c : WriteCall Ref} {d : Call} (hd : d ∈ s.calls)
    (hc : d.onSession sid = some c) : c ∈ (session s sid).calls :=
  (Multiset.mem_filterMap _ _).mpr ⟨d, hd, hc⟩

theorem Stage.reads {m msg : Ref} {c : WriteCall Ref} {issued completed : List (WriteOp Ref)}
    (h : Stage m c issued completed) {sid : Nat} {task : Option Task}
    (hreads : (Call.chain sid c task).reads = some msg) : m = msg := by
  cases h <;> first | exact Option.some.inj hreads | cases hreads

/-- With one chain, a message that a call of the chain reads is at the front,
and nobody is giving it back. -/
theorem front_of_reads {s : State} (hs : Sane s) {sid : Nat} (h : OneChain (session s sid))
    {c : WriteCall Ref} {task : Option Task} (hc : .chain sid c task ∈ s.calls)
    (hon : onChain c = true) {msg : Ref} (hreads : (Call.chain sid c task).reads = some msg) :
    (s.shared.sessions sid).locked = false ∧
      msg ∈ (s.shared.sessions sid).write.msgQueue := by
  have hmem : c ∈ chainCalls (session s sid).calls :=
    Multiset.mem_filter.mpr ⟨mem_session hc (onSession_chain_self sid c task), hon⟩
  obtain ⟨others, hcons⟩ := Multiset.exists_cons_of_mem hmem
  have hchain := h.chain
  rw [hcons] at hchain
  have hothers := hchain.alone
  rw [hothers] at hchain hcons
  refine ⟨?_, ?_⟩
  · -- a `handler_write_body` with the lock would be on the chain as well
    by_contra hlocked
    rw [Bool.not_eq_false] at hlocked
    have hcount := hs.locked sid
    rw [if_pos hlocked] at hcount
    obtain ⟨d, hd, hdl⟩ := Multiset.countP_pos.mp (hcount ▸ Nat.one_pos)
    have hbody : d.onSession sid = some (.handler .body false) := by
      cases d with
      | dellocate i m | dellocateRetry i m | dellocated i m => exact if_pos (beq_iff_eq.mp hdl)
      | _ => cases hdl
    have hin : .handler .body false ∈ chainCalls (session s sid).calls :=
      Multiset.mem_filter.mpr ⟨mem_session hd hbody, rfl⟩
    rw [hcons] at hin
    obtain rfl := Multiset.mem_singleton.mp hin
    cases hreads
  · generalize hcalls : (c ::ₘ 0 : Multiset (WriteCall Ref)) = calls at hchain
    cases hchain with
    | idle | failed => exact absurd hcalls Multiset.cons_ne_zero
    | popped =>
      obtain rfl := Multiset.singleton_inj.mp hcalls
      cases hreads
    | active hq hst =>
      obtain rfl := Multiset.singleton_inj.mp hcalls
      obtain rfl := Stage.reads hst hreads
      have hfront : (s.shared.sessions sid).write.msgQueue = _ := hq
      rw [hfront]
      exact List.mem_cons_self

theorem mem_waiting {x : Session} (halive : x.alive = true) (hfree : x.locked = false) {msg : Ref}
    (h : msg ∈ x.write.msgQueue) : msg ∈ x.waiting := by
  rw [Session.waiting, halive, hfree]
  exact h

/-- **No stale read** in a run that is in time. -/
theorem no_stale_read (s : State) (h : Reach step InTime start s) : NoStale s := by
  have hs := sane_of_reach h
  have hn := (owned_of_reach h).held_nodup
  have hl := ledger_of_reach h
  have hqueued : ∀ sid, (s.shared.sessions sid).alive = true →
      (s.shared.sessions sid).locked = false →
      ∀ msg ∈ (s.shared.sessions sid).write.msgQueue, msg ∉ s.shared.dead :=
    fun sid halive hfree msg hmsg => hl.queued_alive hs hn halive (mem_waiting halive hfree hmsg)
  refine ⟨fun c hc msg hreads => ?_, hqueued⟩
  have hchain : ∀ sid d task, c = .chain sid d task → onChain d = true → msg ∉ s.shared.dead := by
    rintro sid d task rfl hon
    have hone := oneChain_session (fun _ _ hok => hok.1) h sid
    obtain ⟨hfree, hmsg⟩ := front_of_reads hs hone hc hon hreads
    exact hqueued sid ((hs.calls _ hc).alive sid rfl) hfree msg hmsg
  cases c with
  | inHand task m =>
    obtain rfl := Option.some.inj hreads
    exact hl.inHand_alive hn hc
  | chain sid d task =>
    cases hon : onChain d with
    | true => exact hchain sid d task rfl hon
    | false =>
      cases d with
      | writeQueued m n =>
        obtain rfl := Option.some.inj hreads
        exact logsFresh_of_reach h m ⟨_, hc, beq_self_eq_true m⟩
      | _ => cases hon
  | _ => cases hreads

/-- Two messages queued, the second behind the first; its `write` logs before
the second message is written. -/
theorem no_stale_read_two : ∃ s : State, s.shared.dead = [⟨2, 1⟩, ⟨0, 0⟩] ∧ NoStale s := by
  let header : HDR := ⟨1, 0, 0, 0, 0, 0⟩
  let acts : List Action := connects 0 ++ sends 0 header ⟨0, 0⟩ ++ startsWrite 0 ⟨0, 0⟩ ++
    sends 0 header ⟨2, 1⟩ ++ completes 0 ⟨0, 0⟩ ++ givesBack 0 ⟨0, 0⟩ ++
    [.run (.chain 0 (.writeQueued ⟨2, 1⟩ 2) (some .application)) .go] ++ completes 0 ⟨2, 1⟩
  have hrun : (exec (guarded step InTime) start acts).map (fun s => s.shared.dead) =
      some [⟨2, 1⟩, ⟨0, 0⟩] := by
    decide +kernel
  obtain ⟨s, hs, hdead⟩ := Option.map_eq_some_iff.mp hrun
  exact ⟨s, hdead, no_stale_read s (Reach.of_exec_guarded acts hs)⟩

/-- **A stale read.** The same run, but the thread that has queued the second
message comes to its log line only after the message has been given back. -/
theorem stale_read : ∃ s : State, Reach step always start s ∧ ¬ NoStale s := by
  let header : HDR := ⟨1, 0, 0, 0, 0, 0⟩
  let acts : List Action := connects 0 ++ sends 0 header ⟨0, 0⟩ ++ startsWrite 0 ⟨0, 0⟩ ++
    sends 0 header ⟨2, 1⟩ ++ completes 0 ⟨0, 0⟩ ++ givesBack 0 ⟨0, 0⟩ ++ completes 0 ⟨2, 1⟩
  let late : Call := .chain 0 (.writeQueued ⟨2, 1⟩ 2) (some .application)
  have hrun : (exec step start acts).map (fun s => (s.shared.dead, decide (late ∈ s.calls))) =
      some ([⟨2, 1⟩, ⟨0, 0⟩], true) := by
    decide +kernel
  obtain ⟨s, hs, hseen⟩ := Option.map_eq_some_iff.mp hrun
  obtain ⟨hdead, hlate⟩ := Prod.mk.inj hseen
  refine ⟨s, Reach.of_exec acts hs, fun hfresh => ?_⟩
  have hnot := hfresh.kept late (of_decide_eq_true hlate) ⟨2, 1⟩ rfl
  rw [hdead] at hnot
  exact hnot List.mem_cons_self

/-- A log line that is overtaken always reads a stale message. -/
theorem stale_of_overtakes {s t : State} {a : Action} (h : step s a = some t)
    (hover : overtakes s a = true) : ¬ NoStale t := by
  intro hfresh
  unfold overtakes at hover
  split at hover
  · rename_i sid task o
    split at hover
    · cases hover
    · rename_i msg q hq
      simp only [Bool.not_eq_true', decide_eq_false_iff_not, not_forall,
        Bool.not_eq_false] at hover
      obtain ⟨c, hc, hlogs⟩ := hover
      have hreads : c.reads = some msg ∧ ∀ task', c ≠ .chain sid (.handler .body false) task' := by
        cases c with
        | chain i d task' =>
          cases d with
          | writeQueued m n =>
            exact ⟨congrArg some (beq_iff_eq.mp hlogs), fun _ he => by cases he⟩
          | _ => cases hlogs
        | _ => cases hlogs
      obtain ⟨rest, cs, hs, hcs, ht⟩ := Interleaving.Program.step_run h
      have hlock : t.shared = s.shared.lock sid msg := by
        simp only [program, next, chainNext, hq] at hcs
        split at hcs
        · cases hcs
        · exact (Prod.mk.inj (Option.some.inj hcs)).1.symm
      have hmem : c ∈ t.calls := by
        rw [hs] at hc
        rw [ht]
        exact Multiset.mem_add.mpr (Or.inr ((Multiset.mem_cons.mp hc).resolve_left (hreads.2 task)))
      apply hfresh.kept c hmem msg hreads.1
      rw [hlock]
      exact List.mem_cons_self
  · cases hover

end AsioTcp.Manager
