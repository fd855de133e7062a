import AsioTcp.ServerEffect

/-!
# `connection_mgr::stop`, socket by socket

`Server` knows of each session only how `connection_mgr::stop` fares with it.
Here are the calls themselves: `shutdown`, which reports an error code, and
`cancel` and `close`, which throw. The loop passes over a socket whose
`shutdown` fails and ends at the first exception, so `disconnects_iff` needs
every call to succeed, but for a `shutdown` of a socket that is closed anyway.
-/

namespace AsioTcp.StopClients

open Server

/-- How the calls on one socket go. -/
structure SocketCalls where
  /-- `shutdown` reports an error -/
  shutdown : Bool
  /-- `cancel` throws -/
  cancel : Bool
  /-- `close` throws, with the descriptor closed all the same -/
  close : Bool
  deriving DecidableEq, Repr

/-- One round of the loop; the flag says that it threw. -/
def stopClient (calls : SocketCalls) (sid : Nat) (s : ServerTcp) : ServerTcp × Bool :=
  if calls.shutdown then (s, false)
  else if calls.cancel then (s, true)
  else (s.setClient sid { s.clients sid with closed := true }, calls.close)

/-- The loop, and `connection_list_.clear()` after it. -/
def stopLoop (calls : Nat → SocketCalls) : List Nat → ServerTcp → ServerTcp × Bool
  | [], s => ({ s with connectionList := [] }, false)
  | sid :: rest, s =>
    match stopClient (calls sid) sid s with
    | (s, true) => (s, true)
    | (s, false) => stopLoop calls rest s

/-- `connection_mgr::stop`. The registry has no null pointers. -/
def stop (calls : Nat → SocketCalls) (s : ServerTcp) : ServerTcp × Bool :=
  stopLoop calls s.connectionList s

/-- All sessions of the registry have been disconnected. -/
structure AllClosed (s t : ServerTcp) : Prop where
  closed : ∀ sid ∈ s.connectionList, (t.clients sid).closed = true
  empty : t.connectionList = []

/-- The calls on this socket all succeed, or it is closed and `shutdown` fails. -/
def Benign (calls : SocketCalls) (c : Client) : Prop :=
  if calls.shutdown then c.closed = true else calls.cancel = false ∧ calls.close = false

/-! ## The loop -/

/-- An exception ends the round. -/
def SocketCalls.throws (calls : SocketCalls) : Bool :=
  !calls.shutdown && (calls.cancel || calls.close)

theorem stopClient_threw (calls : SocketCalls) (sid : Nat) (s : ServerTcp) :
    (stopClient calls sid s).2 = calls.throws := by
  obtain ⟨shutdown, cancel, close⟩ := calls
  cases shutdown <;> cases cancel <;> cases close <;> rfl

theorem connectionList_stopClient (calls : SocketCalls) (sid : Nat) (s : ServerTcp) :
    (stopClient calls sid s).1.connectionList = s.connectionList := by
  unfold stopClient
  split
  · rfl
  · split <;> rfl

/-- A round closes the socket of its session, unless `shutdown` fails or
`cancel` throws, and no other one. -/
theorem closed_stopClient (calls : SocketCalls) (sid : Nat) (s : ServerTcp) (i : Nat) :
    ((stopClient calls sid s).1.clients i).closed = true ↔ (s.clients i).closed = true ∨
      (i = sid ∧ calls.shutdown = false ∧ calls.cancel = false) := by
  obtain ⟨shutdown, cancel, close⟩ := calls
  by_cases hi : i = sid <;> cases shutdown <;> cases cancel <;>
    simp [stopClient, ServerTcp.setClient, hi]

/-- The loop has gone through `sids`, from `s` to `t`. -/
structure Looped (calls : Nat → SocketCalls) (sids : List Nat) (s t : ServerTcp) (threw : Bool) :
    Prop where
  ends : threw = true ↔ ∃ sid ∈ sids, (calls sid).throws = true
  list : t.connectionList = if threw then s.connectionList else []
  closed : threw = false → ∀ i, (t.clients i).closed = true ↔ (s.clients i).closed = true ∨
    (i ∈ sids ∧ (calls i).shutdown = false)

theorem looped (calls : Nat → SocketCalls) (sids : List Nat) (s : ServerTcp) :
    Looped calls sids s (stopLoop calls sids s).1 (stopLoop calls sids s).2 := by
  induction sids generalizing s with
  | nil =>
    constructor
    · exact iff_of_false Bool.false_ne_true fun ⟨_, hsid, _⟩ => nomatch hsid
    · rfl
    · exact fun _ i => (or_iff_left fun h => nomatch h.1).symm
  | cons sid rest ih =>
    have hthrew := stopClient_threw (calls sid) sid s
    have hlist := connectionList_stopClient (calls sid) sid s
    have hclosed := closed_stopClient (calls sid) sid s
    unfold stopLoop
    split <;> rename_i s' hround <;> rw [hround] at hthrew hlist hclosed
    · constructor
      · exact iff_of_true rfl ⟨sid, List.mem_cons_self, hthrew.symm⟩
      · exact hlist
      · exact fun h => nomatch h
    · have hno : (calls sid).throws = false := hthrew.symm
      obtain ⟨ihends, ihlist, ihclosed⟩ := ih s'
      constructor
      · rw [ihends]
        constructor
        · rintro ⟨i, hi, hthrows⟩
          exact ⟨i, List.mem_cons_of_mem _ hi, hthrows⟩
        · rintro ⟨i, hi, hthrows⟩
          obtain rfl | hi := List.mem_cons.mp hi
          · exact absurd hthrows (Bool.not_eq_true _ ▸ hno)
          · exact ⟨i, hi, hthrows⟩
      · rw [ihlist, show s'.connectionList = _ from hlist]
      · intro h i
        rw [ihclosed h i, hclosed i, List.mem_cons]
        have hcancel : (calls sid).shutdown = false → (calls sid).cancel = false := by
          intro hs
          simp [SocketCalls.throws, hs] at hno
          exact hno.1
        constructor
        · rintro ((hs | ⟨rfl, hok, _⟩) | ⟨hi, hok⟩)
          · exact Or.inl hs
          · exact Or.inr ⟨Or.inl rfl, hok⟩
          · exact Or.inr ⟨Or.inr hi, hok⟩
        · rintro (hs | ⟨rfl | hi, hok⟩)
          · exact Or.inl (Or.inl hs)
          · exact Or.inl (Or.inr ⟨rfl, hok, hcancel hok⟩)
          · exact Or.inr ⟨hi, hok⟩

/-- How the rest of the program sees the calls on a socket. -/
def SocketCalls.outcome (calls : SocketCalls) : Disconnect :=
  if calls.shutdown then .shutdownFailed
  else if calls.throws then .threw
  else .closed

/-- The loop is that of `Server`, as long as no `close` throws. -/
theorem stopLoop_eq {calls : Nat → SocketCalls} {sids : List Nat}
    (h : ∀ sid ∈ sids, (calls sid).close = false) (s : ServerTcp) :
    stopLoop calls sids s = ServerTcp.disconnect (fun sid => (calls sid).outcome) sids s := by
  induction sids generalizing s with
  | nil => rfl
  | cons sid rest ih =>
    have hrest := ih fun i hi => h i (List.mem_cons_of_mem _ hi)
    have hclose := h sid List.mem_cons_self
    unfold stopLoop ServerTcp.disconnect stopClient SocketCalls.outcome SocketCalls.throws
    generalize calls sid = c at hclose
    obtain ⟨shutdown, cancel, close⟩ := c
    obtain rfl : close = false := hclose
    cases shutdown <;> cases cancel <;> first | rfl | exact hrest _

/-! ## When everything is disconnected -/

theorem not_benign {calls : SocketCalls} (h : calls.throws = true) (c : Client) :
    ¬ Benign calls c := by
  obtain ⟨shutdown, cancel, close⟩ := calls
  cases shutdown <;> cases cancel <;> cases close <;> simp_all [SocketCalls.throws, Benign]

theorem benign_iff {calls : SocketCalls} (h : calls.throws = false) (c : Client) :
    Benign calls c ↔ c.closed = true ∨ calls.shutdown = false := by
  obtain ⟨shutdown, cancel, close⟩ := calls
  cases shutdown <;> cases cancel <;> cases close <;> simp_all [SocketCalls.throws, Benign]

/-- **`connection_mgr::stop` disconnects all** if and only if on each socket
`shutdown`, `cancel` and `close` succeed, or `shutdown` fails and the socket is
closed already. -/
theorem disconnects_iff (calls : Nat → SocketCalls) (s : ServerTcp) :
    AllClosed s (stop calls s).1 ↔
      ∀ sid ∈ s.connectionList, Benign (calls sid) (s.clients sid) := by
  obtain ⟨hends, hlist, hclosed⟩ := looped calls s.connectionList s
  cases hthrew : (stopLoop calls s.connectionList s).2 with
  | true =>
    -- the loop has ended before the registry was cleared
    obtain ⟨sid, hsid, hthrows⟩ := hends.mp hthrew
    rw [hthrew, if_pos rfl] at hlist
    constructor
    · intro hall
      rw [← hlist, show (stopLoop calls s.connectionList s).1.connectionList = [] from
        hall.empty] at hsid
      cases hsid
    · intro hbenign
      exact absurd (hbenign sid hsid) (not_benign hthrows _)
  | false =>
    have hno : ∀ sid ∈ s.connectionList, (calls sid).throws = false := by
      intro sid hsid
      by_contra hthrows
      rw [hends.mpr ⟨sid, hsid, Bool.eq_true_of_not_eq_false hthrows⟩] at hthrew
      cases hthrew
    rw [hthrew] at hlist
    have hiff := hclosed hthrew
    constructor
    · intro hall sid hsid
      rw [benign_iff (hno sid hsid)]
      exact ((hiff sid).mp (hall.closed sid hsid)).imp_right And.right
    · intro hbenign
      refine ⟨fun sid hsid => (hiff sid).mpr ?_, hlist⟩
      exact ((benign_iff (hno sid hsid) _).mp (hbenign sid hsid)).imp_right fun hok => ⟨hsid, hok⟩

/-- Two sessions are registered. -/
def two : ServerTcp := { ServerTcp.init 18 4 with connectionList := [0, 1] }

/-- The peer of session 0 has gone, and `shutdown` reports that the socket is
not connected: its socket stays open. -/
theorem stays_open : ¬ AllClosed two (stop (fun sid => ⟨sid == 0, false, false⟩) two).1 := by
  intro h
  have hclosed := h.closed 0 List.mem_cons_self
  revert hclosed
  decide

/-- The `cancel` of session 0 throws: session 1 stays open too, and both stay
registered. -/
example : (stop (fun sid => ⟨false, sid == 0, false⟩) two).1.connectionList = [0, 1] := rfl

end AsioTcp.StopClients
