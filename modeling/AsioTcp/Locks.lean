import AsioTcp.Lib.LockOrder
import Mathlib.Order.Nat

/-!
# The locks of the server

Every function of the sessions, of the `connection_mgr` and `server_tcp::stop`,
reduced to the locks it takes: what it does between them is left to branches
that may go either way. A `fail` argument is where an exception goes on after
the locks of the function have been released. `_DEBUG` builds write to the
console in constructors and destructors, so these may or may not do it.

`lock_order`: the locks are taken in the order `connection_mgr::mutex_`, a
session's `mutex_`, `buffer_mutex_`, `g_mutex_IO`, and no threads wait for each
other in a circle.
-/

namespace AsioTcp.Locks

open LockOrder

inductive Lock
  /-- `connection_mgr::mutex_` -/
  | manager
  /-- `session_tcp::mutex_` -/
  | session (sid : Nat)
  /-- `connection_mgr::buffer_mutex_` -/
  | buffer
  /-- `g_mutex_IO` -/
  | io
  deriving DecidableEq, Repr

def Lock.rank : Lock → Nat
  | .manager => 0
  | .session _ => 1
  | .buffer => 2
  | .io => 3

/-- The threads are named by a type `ι`. -/
abbrev P (ι : Type) := Prog Lock ι

variable {ι : Type}

/-! ## Messages and the console -/

def outputConsole (next : P ι) : P ι := .acquire .exclusive .io (.release .io next)

/-- What a constructor or a destructor writes in a `_DEBUG` build. -/
def debugOutput (next : P ι) : P ι := .choose (outputConsole next) next

/-- `new conn_msg(header)`, which may throw. -/
def newConnMsg (fail next : P ι) : P ι := .choose fail (debugOutput next)

def deleteConnMsg (next : P ι) : P ι := debugOutput next

/-- `set_body`, which may throw. -/
def setBody (fail next : P ι) : P ι := .choose fail next

def allocateMsgBuffer (fail next : P ι) : P ι :=
  .choose
    (.acquire .shared .buffer
      (.choose
        (newConnMsg (.release .buffer fail) (.release .buffer next))
        (.release .buffer
          (.acquire .exclusive .buffer
            (.choose
              (.release .buffer (newConnMsg fail next))
              (.release .buffer next))))))
    (newConnMsg fail next)

def dellocateMsgBuffer (next : P ι) : P ι :=
  .choose
    (.acquire .shared .buffer
      (.choose
        (deleteConnMsg (.release .buffer next))
        (.release .buffer
          (.acquire .exclusive .buffer
            (.choose
              (.release .buffer (deleteConnMsg next))
              (.release .buffer next))))))
    (deleteConnMsg next)

/-! ## `session_tcp` -/

/-- `async_write` may throw. -/
def doWrite (sid : Nat) (fail next : P ι) : P ι :=
  .acquire .shared (.session sid)
    (.choose
      (.release (.session sid) next)
      (outputConsole (.choose (.release (.session sid) fail) (.release (.session sid) next))))

/-- `push_back` may throw. -/
def write (sid : Nat) (fail next : P ι) : P ι :=
  .acquire .exclusive (.session sid)
    (.choose (.release (.session sid) fail)
      (.choose
        (.release (.session sid) (outputConsole (doWrite sid fail next)))
        (.release (.session sid) (outputConsole next))))

/-- `insert` may throw. -/
def join (fail next : P ι) : P ι :=
  .acquire .exclusive .manager (.choose (.release .manager fail) (.release .manager next))

def leave (next : P ι) : P ι := .acquire .exclusive .manager (.release .manager next)

/-- `remote_address` and `local_address`: the endpoint getter may throw. -/
def address (sid : Nat) (fail next : P ι) : P ι :=
  .acquire .shared (.session sid)
    (.choose (.release (.session sid) fail) (.release (.session sid) next))

/-- A handler is over, and with it perhaps the last reference to its session. -/
def handled : P ι := debugOutput .done

def start (sid : Nat) : P ι :=
  address sid handled (address sid handled (outputConsole (join handled handled)))

/-- The error branch of all four handlers. -/
def failed : P ι := outputConsole (leave handled)

def handlerReadHeader (error : Bool) : P ι := if error then failed else handled

def processMsg (sid : Nat) (fail next : P ι) : P ι :=
  allocateMsgBuffer fail (setBody fail (write sid fail next))

def handlerReadBody (sid : Nat) (error : Bool) : P ι :=
  if error then failed else outputConsole (processMsg sid handled handled)

def handlerWriteHeader (sid : Nat) (error : Bool) : P ι :=
  if error then failed
  else
    .acquire .shared (.session sid)
      (.choose
        (outputConsole (.release (.session sid) handled))
        (.release (.session sid) handled))

def handlerWriteBody (sid : Nat) (error : Bool) : P ι :=
  let logged := outputConsole (doWrite sid handled handled)
  if error then failed
  else
    .acquire .exclusive (.session sid)
      (.choose
        (dellocateMsgBuffer (.release (.session sid) logged))
        (.release (.session sid) logged))

/-! ## `connection_mgr` -/

/-- The loop of `find`, through `client_id()` of the sessions. -/
def findLoop : List Nat → P ι
  | [] => .release .manager .done
  | sid :: rest =>
    .acquire .shared (.session sid)
      (.release (.session sid) (.choose (.release .manager .done) (findLoop rest)))

def find (sids : List Nat) : P ι :=
  .choose .done (.acquire .shared .manager (findLoop sids))

def canJoin : P ι := .acquire .shared .manager (.release .manager .done)

def size : P ι := .acquire .shared .manager (.release .manager .done)

def writeToAllLoop : List Nat → P ι
  | [] => .release .manager .done
  | sid :: rest =>
    let fail := .release .manager .done
    allocateMsgBuffer fail (setBody fail (write sid fail (writeToAllLoop rest)))

def writeToAll (sids : List Nat) : P ι := .acquire .shared .manager (writeToAllLoop sids)

/-- `connection_list_.clear()` destroys the sessions that nothing else refers to. -/
def clearList (next : P ι) : List Nat → P ι
  | [] => next
  | _ :: rest => debugOutput (clearList next rest)

/-- The loop of `stop`: `socket()` of each session, and `cancel` and `close`,
which may throw, or the report of an error of `shutdown`. -/
def stopLoop (fail next : P ι) : List Nat → P ι
  | [] => next
  | sid :: rest =>
    .acquire .shared (.session sid)
      (.release (.session sid)
        (.choose (outputConsole (stopLoop fail next rest)) (.choose fail (stopLoop fail next rest))))

def stop (sids : List Nat) (fail next : P ι) : P ι :=
  .acquire .exclusive .manager
    (stopLoop (.release .manager fail) (clearList (.release .manager next) sids) sids)

/-- The loop of `clear_buffer`, over the messages in the buffer. -/
def deleteAll (next : P ι) : Nat → P ι
  | 0 => next
  | n + 1 => deleteConnMsg (deleteAll next n)

def clearBuffer (n : Nat) (next : P ι) : P ι :=
  .acquire .exclusive .manager (outputConsole (deleteAll (.release .manager next) n))

/-! ## `server_tcp::stop` -/

def joinAll (next : P ι) : List ι → P ι
  | [] => next
  | thread :: rest => .join thread (joinAll next rest)

/-- `cancel` and `close` of the acceptor may throw. -/
def serverStop (sids : List Nat) (threads : List ι) (n : Nat) : P ι :=
  outputConsole
    (.choose .done (stop sids .done (joinAll (outputConsole (clearBuffer n .done)) threads)))

/-- A call with what it goes through: the sessions in `connection_list_`, the
io threads, the number of messages in the buffer. -/
inductive Function (ι : Type)
  | start (sid : Nat)
  | write (sid : Nat)
  | handlerReadHeader (sid : Nat) (error : Bool)
  | handlerReadBody (sid : Nat) (error : Bool)
  | handlerWriteHeader (sid : Nat) (error : Bool)
  | handlerWriteBody (sid : Nat) (error : Bool)
  | find (sids : List Nat)
  | canJoin
  | join
  | leave
  | size
  | writeToAll (sids : List Nat)
  | allocateMsgBuffer
  | dellocateMsgBuffer
  | stop (sids : List Nat)
  | clearBuffer (n : Nat)
  | serverStop (sids : List Nat) (threads : List ι) (n : Nat)

def Function.program : Function ι → P ι
  | .start sid => Locks.start sid
  | .write sid => Locks.write sid .done .done
  | .handlerReadHeader _ error => Locks.handlerReadHeader error
  | .handlerReadBody sid error => Locks.handlerReadBody sid error
  | .handlerWriteHeader sid error => Locks.handlerWriteHeader sid error
  | .handlerWriteBody sid error => Locks.handlerWriteBody sid error
  | .find sids => Locks.find sids
  | .canJoin => Locks.canJoin
  | .join => Locks.join .done .done
  | .leave => Locks.leave .done
  | .size => Locks.size
  | .writeToAll sids => Locks.writeToAll sids
  | .allocateMsgBuffer => Locks.allocateMsgBuffer .done .done
  | .dellocateMsgBuffer => Locks.dellocateMsgBuffer .done
  | .stop sids => Locks.stop sids .done .done
  | .clearBuffer n => Locks.clearBuffer n .done
  | .serverStop sids threads n => Locks.serverStop sids threads n

/-- `server_tcp::stop` is called outside the io threads, and joins them. -/
def Function.runsOn (ioThread : ι → Bool) : Function ι → ι → Bool
  | .serverStop _ threads _, t => !ioThread t && threads.all ioThread
  | _, _ => true

def system (ioThread : ι → Bool) : System Lock ι (Function ι) :=
  ⟨Function.program, Function.runsOn ioThread⟩

/-! ## The order -/

section Order

variable {J : ι → Prop} {held : List Lock} {fail next : P ι}

/-- The locks that are held are before rank `r`. -/
def Below (r : Nat) (held : List Lock) : Prop := ∀ k ∈ held, k.rank < r

theorem below_nil (r : Nat) : Below r [] := fun _ hk => absurd hk List.not_mem_nil

theorem Below.mono {r r' : Nat} (h : Below r held) (hr : r ≤ r') : Below r' held :=
  fun k hk => (h k hk).trans_le hr

theorem Below.cons {r : Nat} {l : Lock} (h : Below r held) (hl : l.rank < r) :
    Below r (l :: held) := by
  intro k hk
  rcases List.mem_cons.mp hk with rfl | hk
  · exact hl
  · exact h k hk

/-- A program that keeps to the order of the locks. -/
abbrev Ordered (J : ι → Prop) (held : List Lock) (p : P ι) : Prop := p.Ordered Lock.rank J held

theorem ordered_outputConsole (hheld : Below 3 held) (h : Ordered J held next) :
    Ordered J held (outputConsole next) :=
  .acquire_release hheld h

theorem ordered_debugOutput (hheld : Below 3 held) (h : Ordered J held next) :
    Ordered J held (debugOutput next) :=
  .choose (ordered_outputConsole hheld h) h

theorem ordered_newConnMsg (hheld : Below 3 held) (hfail : Ordered J held fail)
    (h : Ordered J held next) : Ordered J held (newConnMsg fail next) :=
  .choose hfail (ordered_debugOutput hheld h)

theorem ordered_allocateMsgBuffer (hheld : Below 2 held) (hfail : Ordered J held fail)
    (h : Ordered J held next) : Ordered J held (allocateMsgBuffer fail next) := by
  have hio : Below 3 held := hheld.mono (by decide)
  have hin : Below 3 (.buffer :: held) := hio.cons (by decide)
  refine .choose (.acquire hheld (.choose ?_ ?_)) (ordered_newConnMsg hio hfail h)
  · exact ordered_newConnMsg hin (.release hfail) (.release h)
  · refine .release (.acquire hheld (.choose ?_ ?_))
    · exact .release (ordered_newConnMsg hio hfail h)
    · exact .release h

theorem ordered_dellocateMsgBuffer (hheld : Below 2 held) (h : Ordered J held next) :
    Ordered J held (dellocateMsgBuffer next) := by
  have hio : Below 3 held := hheld.mono (by decide)
  have hin : Below 3 (.buffer :: held) := hio.cons (by decide)
  refine .choose (.acquire hheld (.choose ?_ ?_)) (ordered_debugOutput hio h)
  · exact ordered_debugOutput hin (.release h)
  · refine .release (.acquire hheld (.choose ?_ ?_))
    · exact .release (ordered_debugOutput hio h)
    · exact .release h

theorem ordered_doWrite {sid : Nat} (hheld : Below 1 held) (hfail : Ordered J held fail)
    (h : Ordered J held next) : Ordered J held (doWrite sid fail next) := by
  have hin : Below 3 (.session sid :: held) :=
    (hheld.mono (by decide)).cons (of_decide_eq_true rfl)
  refine .acquire hheld (.choose (.release h) (ordered_outputConsole hin ?_))
  exact .choose (.release hfail) (.release h)

theorem ordered_write {sid : Nat} (hheld : Below 1 held) (hfail : Ordered J held fail)
    (h : Ordered J held next) : Ordered J held (write sid fail next) := by
  have hio : Below 3 held := hheld.mono (by decide)
  refine .acquire hheld (.choose (.release hfail) (.choose (.release ?_) (.release ?_)))
  · exact ordered_outputConsole hio (ordered_doWrite hheld hfail h)
  · exact ordered_outputConsole hio h

theorem ordered_handled : Ordered J [] handled := ordered_debugOutput (below_nil 3) rfl

theorem ordered_failed : Ordered J [] failed :=
  ordered_outputConsole (below_nil 3) (.acquire_release (below_nil 0) ordered_handled)

theorem ordered_join (hfail : Ordered J [] fail) (h : Ordered J [] next) :
    Ordered J [] (join fail next) :=
  .acquire (below_nil 0) (.choose (.release hfail) (.release h))

theorem ordered_address {sid : Nat} (hfail : Ordered J [] fail) (h : Ordered J [] next) :
    Ordered J [] (address sid fail next) :=
  .acquire (below_nil 1) (.choose (.release hfail) (.release h))

theorem ordered_start (sid : Nat) : Ordered J [] (start sid) := by
  apply ordered_address ordered_handled
  apply ordered_address ordered_handled
  exact ordered_outputConsole (below_nil 3) (ordered_join ordered_handled ordered_handled)

theorem ordered_processMsg {sid : Nat} (hfail : Ordered J [] fail) (h : Ordered J [] next) :
    Ordered J [] (processMsg sid fail next) := by
  apply ordered_allocateMsgBuffer (below_nil 2) hfail
  exact .choose hfail (ordered_write (below_nil 1) hfail h)

theorem ordered_handlerReadBody (sid : Nat) (error : Bool) :
    Ordered J [] (handlerReadBody sid error) := by
  cases error with
  | true => exact ordered_failed
  | false =>
    exact ordered_outputConsole (below_nil 3) (ordered_processMsg ordered_handled ordered_handled)

theorem ordered_handlerWriteHeader (sid : Nat) (error : Bool) :
    Ordered J [] (handlerWriteHeader sid error) := by
  cases error with
  | true => exact ordered_failed
  | false =>
    have hin : Below 3 [.session sid] := (below_nil 3).cons (of_decide_eq_true rfl)
    refine .acquire (below_nil 1) (.choose ?_ (.release ordered_handled))
    exact ordered_outputConsole hin (.release ordered_handled)

theorem ordered_handlerWriteBody (sid : Nat) (error : Bool) :
    Ordered J [] (handlerWriteBody sid error) := by
  cases error with
  | true => exact ordered_failed
  | false =>
    have hlogged : Ordered J [] (outputConsole (doWrite sid handled handled)) :=
      ordered_outputConsole (below_nil 3)
        (ordered_doWrite (below_nil 1) ordered_handled ordered_handled)
    have hin : Below 2 [.session sid] := (below_nil 2).cons (of_decide_eq_true rfl)
    refine .acquire (below_nil 1) (.choose ?_ (.release hlogged))
    exact ordered_dellocateMsgBuffer hin (.release hlogged)

/-- Only the registry's lock is held. -/
theorem below_manager {r : Nat} (hr : 0 < r) : Below r [.manager] := (below_nil r).cons hr

theorem ordered_findLoop (sids : List Nat) : Ordered J [.manager] (findLoop sids) := by
  have hend : Ordered J [.manager] (.release .manager .done) := .release rfl
  induction sids with
  | nil => exact hend
  | cons sid rest ih => exact .acquire_release (below_manager (of_decide_eq_true rfl)) (.choose hend ih)

theorem ordered_writeToAllLoop (sids : List Nat) : Ordered J [.manager] (writeToAllLoop sids) := by
  have hend : Ordered J [.manager] (.release .manager .done) := .release rfl
  induction sids with
  | nil => exact hend
  | cons sid rest ih =>
    apply ordered_allocateMsgBuffer (below_manager (of_decide_eq_true rfl)) hend
    exact .choose hend (ordered_write (below_manager (of_decide_eq_true rfl)) hend ih)

theorem ordered_clearList (h : Ordered J [.manager] next) (sids : List Nat) :
    Ordered J [.manager] (clearList next sids) := by
  induction sids with
  | nil => exact h
  | cons sid rest ih => exact ordered_debugOutput (below_manager (of_decide_eq_true rfl)) ih

theorem ordered_stopLoop (hfail : Ordered J [.manager] fail) (h : Ordered J [.manager] next)
    (sids : List Nat) : Ordered J [.manager] (stopLoop fail next sids) := by
  induction sids with
  | nil => exact h
  | cons sid rest ih =>
    apply Prog.Ordered.acquire_release (below_manager (of_decide_eq_true rfl))
    exact .choose (ordered_outputConsole (below_manager (of_decide_eq_true rfl)) ih) (.choose hfail ih)

theorem ordered_stop (sids : List Nat) (hfail : Ordered J [] fail) (h : Ordered J [] next) :
    Ordered J [] (stop sids fail next) := by
  refine .acquire (below_nil 0) (ordered_stopLoop (.release hfail) ?_ sids)
  exact ordered_clearList (.release h) sids

theorem ordered_deleteAll (h : Ordered J [.manager] next) (n : Nat) :
    Ordered J [.manager] (deleteAll next n) := by
  induction n with
  | zero => exact h
  | succ n ih => exact ordered_debugOutput (below_manager (of_decide_eq_true rfl)) ih

theorem ordered_clearBuffer (n : Nat) (h : Ordered J [] next) :
    Ordered J [] (clearBuffer n next) := by
  refine .acquire (below_nil 0) (ordered_outputConsole (below_manager (of_decide_eq_true rfl)) ?_)
  exact ordered_deleteAll (.release h) n

theorem ordered_joinAll {threads : List ι} (hthreads : ∀ w ∈ threads, J w)
    (h : Ordered J [] next) : Ordered J [] (joinAll next threads) := by
  induction threads with
  | nil => exact h
  | cons w rest ih =>
    apply Prog.Ordered.join (hthreads w List.mem_cons_self)
    exact ih fun v hv => hthreads v (List.mem_cons_of_mem w hv)

theorem ordered_serverStop {sids : List Nat} {threads : List ι} {n : Nat}
    (hthreads : ∀ w ∈ threads, J w) : Ordered J [] (serverStop sids threads n) := by
  apply ordered_outputConsole (below_nil 3)
  refine .choose rfl (ordered_stop sids rfl (ordered_joinAll hthreads ?_))
  exact ordered_outputConsole (below_nil 3) (ordered_clearBuffer n rfl)

end Order

/-- Every function keeps to the order, on the threads that may call it. -/
theorem ordered_program {ioThread : ι → Bool} (f : Function ι) (t : ι)
    (h : f.runsOn ioThread t = true) :
    f.program.Ordered Lock.rank (Joins (fun w => ioThread w = true) t) [] := by
  cases f with
  | start sid => exact ordered_start sid
  | write sid => exact ordered_write (below_nil 1) rfl rfl
  | handlerReadHeader sid error =>
    cases error with
    | true => exact ordered_failed
    | false => exact ordered_handled
  | handlerReadBody sid error => exact ordered_handlerReadBody sid error
  | handlerWriteHeader sid error => exact ordered_handlerWriteHeader sid error
  | handlerWriteBody sid error => exact ordered_handlerWriteBody sid error
  | find sids => exact .choose rfl (.acquire (below_nil 0) (ordered_findLoop sids))
  | canJoin | leave | size => exact .acquire_release (below_nil 0) rfl
  | join => exact ordered_join rfl rfl
  | writeToAll sids => exact .acquire (below_nil 0) (ordered_writeToAllLoop sids)
  | allocateMsgBuffer => exact ordered_allocateMsgBuffer (below_nil 2) rfl rfl
  | dellocateMsgBuffer => exact ordered_dellocateMsgBuffer (below_nil 2) rfl
  | stop sids => exact ordered_stop sids rfl rfl
  | clearBuffer n => exact ordered_clearBuffer n rfl
  | serverStop sids threads n =>
    obtain ⟨hnot, hall⟩ := Bool.and_eq_true_iff.mp h
    apply ordered_serverStop
    intro w hw
    refine ⟨fun hio => ?_, List.all_eq_true.mp hall w hw⟩
    rw [hio] at hnot
    cases hnot

/-- **No deadlock.** In every state of every run of any number of threads, each
thread that requests a lock holds only locks that come strictly earlier in the
order, and no threads wait for each other in a circle, the thread in
`server_tcp::stop` and the io threads that it joins included. -/
theorem lock_order [DecidableEq ι] (ioThread : ι → Bool) (s : State Lock ι)
    (h : Transition.Reach (system ioThread).step Transition.always .start s) :
    (∀ t m l, s.requests t = some (m, l) → ∀ k, s.Holds t k → k.rank < l.rank) ∧
      ∀ t, ¬ Relation.TransGen s.WaitsFor t t := by
  have horderly := ordered_of_reach ordered_program h
  exact ⟨fun t m l hreq k => holds_lt_requests horderly hreq, no_cycle horderly⟩

/-- A broadcast waits for a session whose `handler_write_body` is about to give
back its message; the handler waits for nobody. -/
theorem lock_order_two : ∃ s : State Lock Nat, s.WaitsFor 0 1 ∧
    (∀ k, s.Holds 1 k → k.rank < Lock.buffer.rank) ∧ ¬ Relation.TransGen s.WaitsFor 0 0 := by
  let sys := system fun t : Nat => decide (t = 1)
  have hrun : (Transition.exec sys.step .start
      [.enter 1 (.handlerWriteBody 0 false), .run 1 true, .run 1 true, .run 1 true,
        .enter 0 (.writeToAll [0]), .run 0 true, .run 0 false, .run 0 false, .run 0 false,
        .run 0 false]).map (fun s => (s.requests 0, (s.locks (.session 0)).writer, s.requests 1)) =
      some (some (.exclusive, .session 0), some 1, some (.shared, .buffer)) := by
    decide +kernel
  obtain ⟨s, hs, hseen⟩ := Option.map_eq_some_iff.mp hrun
  simp only [Prod.mk.injEq] at hseen
  obtain ⟨hfirst, hholder, hsecond⟩ := hseen
  obtain ⟨horder, hcycle⟩ := lock_order (fun t : Nat => decide (t = 1)) s (.of_exec _ hs)
  exact ⟨s, .writer hfirst hholder, horder 1 _ _ hsecond, hcycle 0⟩

end AsioTcp.Locks
