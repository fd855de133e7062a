import AsioTcp.ServerEffect

/-!
# The accept chain

`start` issues an `async_accept` and every `handler_accept` issues the next
one, also after an error. The chain is meant to be one.

* `accept_chains`: while the process runs there are as many chains as there
  were `start` calls that came to their `start_accept`, so there is at most one
  exactly until a second one does;
* `two_accept_chains`: nothing ends the chain of the first `start`: its handler
  stays in the queue over `stop` and goes on after the next `start`.
-/

namespace AsioTcp.Server

open Transition Interleaving

/-- The accept chains: `async_accept` operations and handlers on their way to
the next one. -/
def chains (s : State) : Nat := s.shared.accepting.length + handlers s.calls

/-- Every pending accept that is cancelled leaves a handler in the queue. -/
theorem handlers_cancelAccepts (s : ServerTcp) :
    handlers s.cancelAccepts.2 = s.accepting.length := by
  rw [ServerTcp.cancelAccepts, handlers, Multiset.coe_countP]
  induction s.accepting with
  | nil => rfl
  | cons sid rest ih => simp [Call.inChain]

/-- A step that takes `old` handlers of the chains, and what it makes of them:
chains come only with `start`, and go only with the process. -/
structure Counted (s : ServerTcp) (old : Nat) (s' : ServerTcp) (calls : Multiset Call) : Prop where
  le : s'.accepting.length + handlers calls + s.starts ≤ s.accepting.length + old + s'.starts
  eq : s'.terminated = false →
    s'.accepting.length + handlers calls + s.starts = s.accepting.length + old + s'.starts

theorem counted_eq {s s' : ServerTcp} {old : Nat} {calls : Multiset Call}
    (h : s'.accepting.length + handlers calls + s.starts =
      s.accepting.length + old + s'.starts) : Counted s old s' calls :=
  ⟨h.le, fun _ => h⟩

/-- The pending accepts stay, and a handler of a chain remains one. -/
theorem counted_same {s s' : ServerTcp} {old : Nat} {calls : Multiset Call}
    (ha : s'.accepting = s.accepting) (hs : s'.starts = s.starts) (hc : handlers calls = old) :
    Counted s old s' calls :=
  counted_eq (by rw [ha, hs, hc])

theorem counted_terminate (s : ServerTcp) (old : Nat) : Counted s old s.terminate 0 := by
  refine ⟨?_, fun h => Bool.noConfusion h⟩
  show s.accepting.length + 0 + s.starts ≤ s.accepting.length + old + s.starts
  omega

/-- `start_accept` makes one chain, whether the acceptor is open or not. -/
theorem begins_chain {s : ServerTcp} {accepting : List Nat} {calls : Multiset Call}
    (h : Begins s accepting calls) :
    accepting.length + handlers calls = s.accepting.length + 1 := by
  cases h with
  | pending => rfl
  | closed => rw [handlers_singleton]; rfl

/-- What each effect does to the accept chains. -/
theorem counted_of_effect {s s' : ServerTcp} {a : Action} {rest calls : Multiset Call}
    (h : Effect s rest a s' calls) : Counted s (handlers (taken a)) s' calls := by
  cases h with
  | quiet hsame _ _ hcount _ => exact counted_same hsame.accepting hsame.starts hcount
  | @accept sid error hmem =>
    have hpos : 0 < s.accepting.length := List.length_pos_of_mem hmem
    have hlen : (s.takeAccept sid).accepting.length = s.accepting.length - 1 :=
      List.length_erase_of_mem hmem
    have hin : (Call.accepted sid error).inChain = true := rfl
    apply counted_eq
    rw [taken, handlers_zero, handlers_singleton, hin, hlen]
    show s.accepting.length - 1 + 1 + s.starts = s.accepting.length + 0 + s.starts
    omega
  | move hsame _ _ hcount _ => exact counted_same hsame.accepting hsame.starts hcount
  | refuse | pass | count | assign | join | joinFailed =>
    exact counted_same rfl rfl (handlers_one rfl)
  | leave _ _ hcount _ => exact counted_same rfl rfl hcount
  | @create o accepting new hbegins =>
    have hchain := begins_chain hbegins
    apply counted_eq
    rw [taken, handlers_singleton]
    show accepting.length + handlers calls + s.starts = s.accepting.length + 1 + s.starts
    omega
  | @restart o accepting new hbegins =>
    -- the one place where a chain begins
    have hchain := begins_chain hbegins
    have hresize : (Call.start .resize).inChain = false := rfl
    have hstart : (Call.start .startAccept).inChain = false := rfl
    apply counted_eq
    rw [taken, handlers_singleton, handlers_cons, hresize, hstart]
    show accepting.length + (handlers new + 0) + s.starts =
      s.accepting.length + 0 + (s.starts + 1)
    omega
  | @cancel p p' o s' hsame =>
    apply counted_eq
    rw [handlers_cons, handlers_cancelAccepts, hsame.accepting, hsame.starts]
    simp [taken, Call.inChain, ServerTcp.cancelAccepts]
  | @disconnect f s' new hsame _ hcount =>
    have hd := (disconnect_spec f s.connectionList s).same
    apply counted_same _ _ hcount
    · rw [hsame.accepting, hd]
    · rw [hsame.starts, hd]
  | crash => exact counted_terminate s _

/-- There are as many chains as `start` has begun, or the process has ended. -/
structure ChainCount (s : State) : Prop where
  le : chains s ≤ s.shared.starts
  eq : s.shared.terminated = false → chains s = s.shared.starts

/-- The calls `old` become the calls `cs`. -/
theorem chainCount_replace {s t : State} {old cs rest : Multiset Call} (h : ChainCount s)
    (halive : s.shared.terminated = false) (hs : s.calls = old + rest) (ht : t.calls = cs + rest)
    (hcount : Counted s.shared (handlers old) t.shared cs) : ChainCount t := by
  have hbefore := h.eq halive
  have hle := hcount.le
  rw [chains, hs, handlers_add] at hbefore
  constructor
  · rw [chains, ht, handlers_add]
    omega
  · intro htalive
    have heq := hcount.eq htalive
    rw [chains, ht, handlers_add]
    omega

theorem chainCount_step {s t : State} {a : Action} (h : ChainCount s) (hs : step s a = some t) :
    ChainCount t := by
  obtain ⟨halive, new, rest, hcalls, ht, heffect⟩ := effect_of_step hs
  exact chainCount_replace h halive hcalls ht (counted_of_effect heffect)

theorem chainCount_of_reach {maxConn ioThreadNum : UInt32} {s : State}
    (h : Reach step always (start maxConn ioThreadNum) s) : ChainCount s :=
  h.invariant ⟨Nat.le_refl 0, fun _ => rfl⟩ fun _ _ _ _ hs _ hstep => chainCount_step hs hstep

/-- **One accept chain.** At every moment of every run: as long as `start` has
come to its `start_accept` at most once there is at most one chain, and with a
second `start` the process, while it runs, has more than one. -/
theorem accept_chains (maxConn ioThreadNum : UInt32) (s : State)
    (h : Reach step always (start maxConn ioThreadNum) s) :
    (s.shared.starts ≤ 1 → chains s ≤ 1) ∧
      (s.shared.terminated = false → chains s ≤ 1 → s.shared.starts ≤ 1) := by
  have hcount := chainCount_of_reach h
  refine ⟨fun hstarts => hcount.le.trans hstarts, fun halive hone => ?_⟩
  rw [← hcount.eq halive]
  exact hone

/-- `start` with one io thread, up to its `start_accept`. -/
def listens : List Action :=
  [.enter .start, .run (.start .reset) .go, .run (.start .acceptor) .go,
    .run (.start .listen) .go, .run (.start .startAccept) .go]

/-- The rest of `start`. -/
def spawns : List Action :=
  [.run (.start .resize) .go, .run (.start (.spawn 0)) .go, .run (.start (.spawn 1)) .go]

/-- `stop`, with no session to disconnect. -/
def stops : List Action :=
  [.enter .stop, .run (.stop .cancel) .go, .run (.stop .close) .go,
    .run (.stop .disconnect) (.disconnects fun _ => .closed), .run (.stop .iosStop) .go,
    .run (.stop (.join 0)) .go, .run (.stop (.join 1)) .go, .run (.stop .clearBuffer) .go]

/-- The pending accept of session `sid` completes; the session gets `id`, joins
and is read. -/
def joins (sid : Nat) (id : UInt32) : List Action :=
  [.enter (.accept sid false), .run (.accepted sid false) .go, .run (.handlerAccept sid false) .go,
    .run (.admitted sid) .go, .run (.counted sid id) .go, .run (.starting sid) .go,
    .run (.joining sid) .go, .run (.joined sid) .go, .run .startAccept .go]

/-- A session is accepted and joins, and the next accept is pending. -/
theorem accept_chains_join : ∃ s : State, s.shared.connectionList = [0] ∧
    s.shared.accepting = [1] ∧ chains s ≤ 1 := by
  let acts : List Action := listens ++ spawns ++ joins 0 1
  have hrun : (exec step (start 18 1) acts).map (fun s =>
      (s.shared.connectionList, s.shared.accepting, s.shared.starts)) = some ([0], [1], 1) := by
    decide +kernel
  obtain ⟨s, hs, hseen⟩ := Option.map_eq_some_iff.mp hrun
  simp only [Prod.mk.injEq] at hseen
  obtain ⟨hlist, haccepting, hstarts⟩ := hseen
  exact ⟨s, hlist, haccepting, (accept_chains 18 1 s (Reach.of_exec acts hs)).1 hstarts.le⟩

/-- **Two chains.** `start`, `stop` and `start` again: the handler of the
cancelled accept is still in the queue when the second accept is issued. -/
theorem two_accept_chains :
    ∃ s : State, Reach step always (start 18 1) s ∧ ¬ chains s ≤ 1 := by
  have hrun : (exec step (start 18 1) (listens ++ spawns ++ stops ++ listens)).map chains =
      some 2 := by
    decide +kernel
  obtain ⟨s, hs, hchains⟩ := Option.map_eq_some_iff.mp hrun
  refine ⟨s, Reach.of_exec _ hs, ?_⟩
  rw [hchains]
  decide

end AsioTcp.Server
