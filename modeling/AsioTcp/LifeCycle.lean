import AsioTcp.Server
import AsioTcp.Lib.Transition

/-!
# `server_tcp::start` and `stop`, call by call

`Server` takes the two in turn and line by line, with the handlers in between.
Here each of them is one step, in any order, and a run is any sequence of
calls: a second `start`, a `stop` before the first `start`, a `stop` after a
`start` that threw. `start` has no rollback and `stop` goes by `io_thread_num_`,
so all depends on where a `start` has thrown (`holds_iff`).
-/

namespace AsioTcp.LifeCycle

open Transition

/-- `server_tcp`, as far as `start` and `stop` depend on it. -/
structure ServerTcp where
  ioThreadNum : UInt32
  /-- `acceptor_` is open -/
  acceptorOpen : Bool
  /-- the thread that each element of `io_thread_array_` points to -/
  ioThreadArray : List (Option Nat)
  /-- the threads created so far have the numbers below this one -/
  created : Nat
  /-- the threads that `stop` has joined, in order -/
  joined : List Nat
  deriving DecidableEq, Repr

/-- A line of `start` that can throw. -/
inductive StartLine
  | openAcceptor
  | setOption
  | bind
  | listen
  | outputConsole
  /-- `start_accept` creates a session -/
  | startAccept
  | resize
  /-- round `i` of the loop that creates the threads -/
  | spawn (i : Nat)
  deriving DecidableEq, Repr

/-- How a call ends. -/
inductive Ended
  | returned
  | threw
  /-- by an access out of range or through a null pointer -/
  | crashed
  deriving DecidableEq, Repr

namespace ServerTcp

def init (ioThreadNum : UInt32) : ServerTcp := ⟨ioThreadNum, false, [], 0, []⟩

def setAcceptor (s : ServerTcp) (isOpen : Bool) : ServerTcp := { s with acceptorOpen := isOpen }

/-- `io_thread_array_.resize(io_thread_num_)` -/
def resize (s : ServerTcp) : ServerTcp :=
  let n := s.ioThreadNum.toNat
  { s with ioThreadArray := (s.ioThreadArray ++ List.replicate n none).take n }

/-- `io_thread_array_[i] = new boost::thread(...)` -/
def spawn (s : ServerTcp) (i : Nat) : ServerTcp :=
  { s with ioThreadArray := s.ioThreadArray.set i (some s.created), created := s.created + 1 }

/-- The element points to `thread`, which is joined and deleted. -/
def join (s : ServerTcp) (i thread : Nat) : ServerTcp :=
  { s with ioThreadArray := s.ioThreadArray.set i none, joined := s.joined ++ [thread] }

/-- `io_thread_array_.clear()` -/
def clear (s : ServerTcp) : ServerTcp := { s with ioThreadArray := [] }

end ServerTcp

/-- The last `k` rounds of the loop in `start`. -/
def spawnLoop (fault : Option StartLine) (i : Nat) : Nat → ServerTcp → ServerTcp × Ended
  | 0, s => (s, .returned)
  | k + 1, s =>
    if fault = some (.spawn i) then (s, .threw) else spawnLoop fault (i + 1) k (s.spawn i)

/-- `server_tcp::start`, with `fault` the line that throws, if it comes to it.
`open` also throws on an acceptor that is open. -/
def start (fault : Option StartLine) (s : ServerTcp) : ServerTcp × Ended :=
  if s.acceptorOpen ∨ fault = some .openAcceptor then (s, .threw) else
  let s := s.setAcceptor true
  if fault = some .setOption then (s, .threw) else
  if fault = some .bind then (s, .threw) else
  if fault = some .listen then (s, .threw) else
  if fault = some .outputConsole then (s, .threw) else
  if fault = some .startAccept then (s, .threw) else
  if fault = some .resize then (s, .threw) else
  spawnLoop fault 0 s.ioThreadNum.toNat s.resize

/-- The last `k` rounds of the loop in `stop`. -/
def joinLoop (i : Nat) : Nat → ServerTcp → ServerTcp × Ended
  | 0, s => (s, .returned)
  | k + 1, s =>
    match s.ioThreadArray[i]? with
    | some (some thread) => joinLoop (i + 1) k (s.join i thread)
    | _ => (s, .crashed)

/-- `io_thread_array_.clear()`, after the loop. -/
def joinEnd : ServerTcp × Ended → ServerTcp × Ended
  | (s, .returned) => (s.clear, .returned)
  | r => r

/-- `server_tcp::stop`; `throws` says that `conn_mgr_.stop()` does. On an
acceptor that is not open, `cancel` throws. -/
def stop (throws : Bool) (s : ServerTcp) : ServerTcp × Ended :=
  if !s.acceptorOpen then (s, .threw) else
  let s := s.setAcceptor false
  if throws then (s, .threw) else
  joinEnd (joinLoop 0 s.ioThreadNum.toNat s)

inductive Call
  | start (fault : Option StartLine)
  | stop (throws : Bool)
  deriving DecidableEq, Repr

def call (c : Call) (s : ServerTcp) : ServerTcp × Ended :=
  match c with
  | .start fault => start fault s
  | .stop throws => stop throws s

/-- There is nothing after a crash. -/
def step (s : ServerTcp) (c : Call) : Option ServerTcp :=
  match call c s with
  | (_, .crashed) => none
  | (t, _) => some t

/-! ## What the calls are to keep -/

/-- The server can go on after a `start` that threw, from `s` to `t`. -/
structure Recovers (s t : ServerTcp) : Prop where
  acceptor : t.acceptorOpen = s.acceptorOpen
  stops : ∀ throws, (stop throws t).2 ≠ .crashed
  starts : s.acceptorOpen = false → (start none t).2 = .returned
  restarts : (start none (stop false t).1).2 = .returned

/-- What is to hold of a call. -/
structure Holds (s : ServerTcp) (c : Call) : Prop where
  safe : (call c s).2 ≠ .crashed
  once : ∀ thread, (call c s).1.joined.count thread ≤ 1
  joins : ∀ throws, c = .stop throws →
    ∀ thread < (call c s).1.created, (call c s).1.joined.count thread = 1
  recovers : ∀ fault, c = .start fault → (call c s).2 = .threw → Recovers s (call c s).1

/-- With `n` threads to create, a line after `open` throws. -/
def late (n : Nat) : Option StartLine → Bool
  | none | some .openAcceptor => false
  | some (.spawn i) => i < n
  | some _ => true

/-- A `start` throws in `open` if anywhere, and no `stop` of a server with
threads is left by an exception of `conn_mgr_.stop()`. -/
def Meets (s : ServerTcp) : Call → Prop
  | .start fault => s.acceptorOpen = true ∨ late s.ioThreadNum.toNat fault = false
  | .stop throws => s.acceptorOpen = true → throws = true → s.ioThreadNum = 0

instance : ∀ s c, Decidable (Meets s c)
  | _, .start _ => inferInstanceAs (Decidable (_ ∨ _))
  | _, .stop _ => inferInstanceAs (Decidable (_ → _ → _))

/-! ## The loops -/

/-- No round throws: the elements from `i` on point to new threads. -/
theorem spawnLoop_returns {fault : Option StartLine} {i k : Nat}
    (h : ∀ j, i ≤ j → j < i + k → fault ≠ some (.spawn j)) {s : ServerTcp} {threads : List Nat}
    (hlen : threads.length = i)
    (harray : s.ioThreadArray = threads.map some ++ List.replicate k none) :
    spawnLoop fault i k s =
      ({ s with
          ioThreadArray := (threads ++ List.range' s.created k).map some
          created := s.created + k }, .returned) := by
  induction k generalizing i s threads with
  | zero =>
    obtain ⟨num, isOpen, array, created, joined⟩ := s
    obtain rfl : array = threads.map some := by simpa using harray
    simp [spawnLoop]
  | succ k ih =>
    have hset : (s.spawn i).ioThreadArray =
        (threads ++ [s.created]).map some ++ List.replicate k none := by
      simp [ServerTcp.spawn, harray, ← hlen, List.replicate_succ]
    unfold spawnLoop
    rw [if_neg (h i (Nat.le_refl i) (by omega)),
      ih (fun j hj hk => h j (by omega) (by omega)) (by simp [hlen]) hset]
    simp [ServerTcp.spawn, List.range'_succ, Nat.add_right_comm _ 1 k, Nat.add_assoc]

/-- The loop ends in a round that throws, with the acceptor as it was. -/
theorem spawnLoop_threw {i j k : Nat} (hi : i ≤ j) (hj : j < i + k) (s : ServerTcp) :
    (spawnLoop (some (.spawn j)) i k s).2 = .threw ∧
      (spawnLoop (some (.spawn j)) i k s).1.acceptorOpen = s.acceptorOpen := by
  induction k generalizing i s with
  | zero => omega
  | succ k ih =>
    unfold spawnLoop
    split
    · exact ⟨rfl, rfl⟩
    · rename_i hne
      have hij : i ≠ j := fun h => hne (h ▸ rfl)
      exact ih (by omega) (by omega) (s.spawn i)

/-- The loop in `stop` joins what the elements from `i` on point to. -/
theorem joinLoop_returns {threads : List Nat} {i : Nat} {s : ServerTcp}
    (harray : s.ioThreadArray = List.replicate i none ++ threads.map some) :
    joinLoop i threads.length s =
      ({ s with
          ioThreadArray := List.replicate (i + threads.length) none
          joined := s.joined ++ threads }, .returned) := by
  induction threads generalizing i s with
  | nil =>
    obtain ⟨num, isOpen, array, created, joined⟩ := s
    obtain rfl : array = List.replicate i none := by simpa using harray
    simp [joinLoop]
  | cons thread rest ih =>
    have hget : s.ioThreadArray[i]? = some (some thread) := by simp [harray]
    have hset : (s.join i thread).ioThreadArray =
        List.replicate (i + 1) none ++ rest.map some := by
      simp [ServerTcp.join, harray, List.replicate_succ']
    rw [List.length_cons]
    unfold joinLoop
    rw [hget]
    show joinLoop (i + 1) rest.length (s.join i thread) = _
    rw [ih hset]
    simp [ServerTcp.join, Nat.add_right_comm, Nat.add_assoc]

/-- The loop crashes unless each element that it comes to is in the vector and
not null. -/
theorem joinLoop_crashed_iff (i k : Nat) (s : ServerTcp) :
    (joinLoop i k s).2 = .crashed ↔
      ¬ ∀ j, i ≤ j → j < i + k → ∃ thread, s.ioThreadArray[j]? = some (some thread) := by
  induction k generalizing i s with
  | zero => simp [joinLoop]; omega
  | succ k ih =>
    unfold joinLoop
    split
    · rename_i thread hget
      have hset : ∀ j, i + 1 ≤ j → (s.join i thread).ioThreadArray[j]? = s.ioThreadArray[j]? :=
        fun j hj => List.getElem?_set_ne (by omega)
      rw [ih]
      apply not_congr
      constructor
      · intro h j hij hj
        obtain rfl | hlt := Nat.eq_or_lt_of_le hij
        · exact ⟨thread, hget⟩
        · rw [← hset j hlt]
          exact h j hlt (by omega)
      · intro h j hij hj
        rw [hset j hij]
        exact h j (by omega) (by omega)
    · rename_i hget
      refine iff_of_true rfl fun h => ?_
      obtain ⟨thread, hthread⟩ := h i (Nat.le_refl i) (by omega)
      exact hget thread hthread

/-! ## The calls -/

/-- `threads` are those that run: all created ones that have not been joined,
and those that the vector points to. -/
structure Runs (s : ServerTcp) (threads : List Nat) : Prop where
  array : s.ioThreadArray = threads.map some
  created : s.joined ++ threads = List.range s.created
  num : threads.length = if s.acceptorOpen then s.ioThreadNum.toNat else 0

def Inv (s : ServerTcp) : Prop := ∃ threads, Runs s threads

theorem inv_init (n : UInt32) : Inv (.init n) := ⟨[], rfl, rfl, rfl⟩

/-- Between the calls a server that is closed has joined all threads. -/
theorem Runs.closed {s : ServerTcp} {threads : List Nat} (h : Runs s threads)
    (hclosed : s.acceptorOpen = false) : threads = [] := by
  have hnum := h.num
  rw [hclosed] at hnum
  exact List.eq_nil_of_length_eq_zero hnum

theorem Runs.opened {s : ServerTcp} {threads : List Nat} (h : Runs s threads)
    (hopen : s.acceptorOpen = true) : s.ioThreadNum.toNat = threads.length := by
  rw [h.num, hopen, if_pos rfl]

/-- No thread has been joined twice. -/
theorem Inv.once {s : ServerTcp} (h : Inv s) (thread : Nat) : s.joined.count thread ≤ 1 := by
  obtain ⟨threads, hruns⟩ := h
  have hnodup : (s.joined ++ threads).Nodup := hruns.created ▸ List.nodup_range
  exact List.nodup_iff_count_le_one.mp (List.nodup_append.mp hnodup).1 thread

/-- A closed server has joined each of its threads once. -/
theorem Inv.joined {s : ServerTcp} (h : Inv s) (hclosed : s.acceptorOpen = false) {thread : Nat}
    (hthread : thread < s.created) : s.joined.count thread = 1 := by
  obtain ⟨threads, hruns⟩ := h
  have hcreated := hruns.created
  rw [hruns.closed hclosed, List.append_nil] at hcreated
  rw [hcreated]
  exact List.count_eq_one_of_mem List.nodup_range (List.mem_range.mpr hthread)

theorem start_threw {fault : Option StartLine} {s : ServerTcp}
    (h : s.acceptorOpen = true ∨ fault = some .openAcceptor) : start fault s = (s, .threw) :=
  if_pos h

/-- A `start` that throws after `open` leaves the acceptor open. -/
theorem start_late {fault : Option StartLine} {s : ServerTcp} (hclosed : s.acceptorOpen = false)
    (hlate : late s.ioThreadNum.toNat fault = true) :
    (start fault s).2 = .threw ∧ (start fault s).1.acceptorOpen = true := by
  obtain _ | line := fault
  · cases hlate
  · cases line with
    | openAcceptor => cases hlate
    | spawn i =>
      have hi : i < s.ioThreadNum.toNat := of_decide_eq_true hlate
      have hloop := spawnLoop_threw (Nat.zero_le i) (Nat.lt_add_left 0 hi)
        (s.setAcceptor true).resize
      simpa [start, hclosed, ServerTcp.setAcceptor, ServerTcp.resize] using hloop
    | _ => simp [start, hclosed, ServerTcp.setAcceptor]

/-- Else a `start` of a closed server creates its threads. -/
theorem start_returned {fault : Option StartLine} {s : ServerTcp} (h : Inv s)
    (hclosed : s.acceptorOpen = false) (hlate : late s.ioThreadNum.toNat fault = false)
    (hopen : fault ≠ some .openAcceptor) :
    Inv (start fault s).1 ∧ (start fault s).2 = .returned ∧
      (start fault s).1.acceptorOpen = true := by
  obtain ⟨threads, hruns⟩ := h
  obtain rfl := hruns.closed hclosed
  let t := (s.setAcceptor true).resize
  have hloop : start fault s = spawnLoop fault 0 s.ioThreadNum.toNat t := by
    obtain _ | line := fault
    · simp [start, hclosed, ServerTcp.setAcceptor, t]
    · cases line <;> simp_all [start, late, ServerTcp.setAcceptor, t]
  have harray : t.ioThreadArray = [].map some ++ List.replicate s.ioThreadNum.toNat none := by
    simp [t, ServerTcp.resize, ServerTcp.setAcceptor, hruns.array]
  have hno : ∀ j, 0 ≤ j → j < 0 + s.ioThreadNum.toNat → fault ≠ some (.spawn j) := by
    rintro j - hj rfl
    exact of_decide_eq_false hlate (by omega)
  rw [hloop, spawnLoop_returns hno rfl harray]
  refine ⟨⟨List.range' s.created s.ioThreadNum.toNat, rfl, ?_, ?_⟩, rfl, rfl⟩
  · show s.joined ++ List.range' s.created s.ioThreadNum.toNat =
      List.range (s.created + s.ioThreadNum.toNat)
    rw [← List.append_nil s.joined, hruns.created, List.range_eq_range', List.range_eq_range',
      ← List.range'_append_1, Nat.zero_add]
  · exact List.length_range'

/-- A `stop` of an open server joins its threads. -/
theorem stop_returned {s : ServerTcp} (h : Inv s) (hopen : s.acceptorOpen = true) :
    Inv (stop false s).1 ∧ (stop false s).2 = .returned ∧
      (stop false s).1.acceptorOpen = false := by
  obtain ⟨threads, hruns⟩ := h
  have harray : (s.setAcceptor false).ioThreadArray =
      List.replicate 0 none ++ threads.map some := by
    simp [ServerTcp.setAcceptor, hruns.array]
  have hloop := joinLoop_returns harray
  rw [← hruns.opened hopen] at hloop
  have hstop : stop false s =
      (({ s.setAcceptor false with
          ioThreadArray := List.replicate (0 + s.ioThreadNum.toNat) none
          joined := s.joined ++ threads } : ServerTcp).clear, .returned) := by
    unfold stop
    rw [hopen]
    simp only [Bool.not_true, Bool.false_eq_true, if_false]
    rw [show (s.setAcceptor false).ioThreadNum = s.ioThreadNum from rfl, hloop]
    rfl
  rw [hstop]
  refine ⟨⟨[], rfl, ?_, rfl⟩, rfl, rfl⟩
  rw [List.append_nil]
  exact hruns.created

theorem stop_threw {s : ServerTcp} (throws : Bool) (hclosed : s.acceptorOpen = false) :
    stop throws s = (s, .threw) := by
  unfold stop
  rw [hclosed]
  rfl

/-- No `stop` crashes. -/
theorem stop_safe {s : ServerTcp} (h : Inv s) (throws : Bool) : (stop throws s).2 ≠ .crashed := by
  cases hopen : s.acceptorOpen with
  | false =>
    rw [stop_threw throws hopen]
    exact fun h => nomatch h
  | true =>
    cases throws with
    | false =>
      rw [(stop_returned h hopen).2.1]
      exact fun h => nomatch h
    | true =>
      unfold stop
      rw [hopen]
      exact fun h => nomatch h

/-! ## Runs -/

/-- Nothing goes wrong when a closed server starts. -/
theorem start_closed {s : ServerTcp} (h : Inv s) (hclosed : s.acceptorOpen = false) :
    (start none s).2 = .returned := by
  have hno : (none : Option StartLine) ≠ some .openAcceptor := fun h => nomatch h
  exact (start_returned h hclosed rfl hno).2.1

theorem recovers_self {s : ServerTcp} (h : Inv s) : Recovers s s := by
  constructor
  · rfl
  · exact stop_safe h
  · exact start_closed h
  · cases hopen : s.acceptorOpen with
    | false =>
      rw [stop_threw false hopen]
      exact start_closed h hopen
    | true =>
      obtain ⟨hinv, -, hclosed⟩ := stop_returned h hopen
      exact start_closed hinv hclosed

/-- A `start` under the condition throws at once or returns. -/
theorem start_cases {fault : Option StartLine} {s : ServerTcp} (h : Inv s)
    (hmeets : Meets s (.start fault)) :
    start fault s = (s, .threw) ∨ Inv (start fault s).1 ∧ (start fault s).2 = .returned := by
  by_cases hthrew : s.acceptorOpen = true ∨ fault = some .openAcceptor
  · exact Or.inl (start_threw hthrew)
  · obtain ⟨hopen, hfault⟩ := not_or.mp hthrew
    have hstart := start_returned h (Bool.eq_false_of_not_eq_true hopen)
      (hmeets.resolve_left hopen) hfault
    exact Or.inr ⟨hstart.1, hstart.2.1⟩

/-- A `stop` under the condition leaves the server closed. -/
theorem stop_closes {throws : Bool} {s : ServerTcp} (h : Inv s)
    (hmeets : Meets s (.stop throws)) :
    Inv (stop throws s).1 ∧ (stop throws s).1.acceptorOpen = false := by
  cases hopen : s.acceptorOpen with
  | false =>
    rw [stop_threw throws hopen]
    exact ⟨h, hopen⟩
  | true =>
    cases throws with
    | false =>
      obtain ⟨hinv, -, hclosed⟩ := stop_returned h hopen
      exact ⟨hinv, hclosed⟩
    | true =>
      obtain ⟨threads, harray, hcreated, hnum⟩ := h
      have hzero : s.ioThreadNum = 0 := hmeets hopen rfl
      rw [hopen, if_pos rfl, hzero] at hnum
      unfold stop
      rw [hopen]
      exact ⟨⟨threads, harray, hcreated, hnum⟩, rfl⟩

theorem inv_call {c : Call} {s : ServerTcp} (h : Inv s) (hmeets : Meets s c) :
    Inv (call c s).1 := by
  cases c with
  | start fault =>
    obtain hthrew | ⟨hinv, -⟩ := start_cases h hmeets
    · rw [call, hthrew]
      exact h
    · exact hinv
  | stop throws => exact (stop_closes h hmeets).1

theorem inv_reach {n : UInt32} {s : ServerTcp} (h : Reach step Meets (.init n) s) : Inv s := by
  apply Reach.invariant (inv_init n) _ h
  intro s c t _ hinv hmeets hstep
  have hkeep := inv_call hinv hmeets
  unfold step at hstep
  split at hstep
  · cases hstep
  · rename_i hcall
    cases hstep
    rwa [hcall] at hkeep

theorem holds_of_meets {c : Call} {s : ServerTcp} (h : Inv s) (hmeets : Meets s c) :
    Holds s c := by
  have hinv := inv_call h hmeets
  refine ⟨?safe, hinv.once, ?joins, ?recovers⟩
  case safe =>
    cases c with
    | start fault =>
      obtain hthrew | ⟨-, hreturned⟩ := start_cases h hmeets
      · rw [call, hthrew]
        exact fun h => nomatch h
      · rw [call, hreturned]
        exact fun h => nomatch h
    | stop throws => exact stop_safe h throws
  case joins =>
    rintro throws rfl thread hthread
    exact hinv.joined (stop_closes h hmeets).2 hthread
  case recovers =>
    rintro fault rfl hended
    obtain hthrew | ⟨-, hreturned⟩ := start_cases h hmeets
    · rw [call, hthrew]
      exact recovers_self h
    · rw [call, hreturned] at hended
      cases hended

/-- An exception of `conn_mgr_.stop()` leaves the threads that run unjoined. -/
theorem stop_unjoined {s : ServerTcp} (h : Inv s) (hopen : s.acceptorOpen = true)
    (hnum : s.ioThreadNum ≠ 0) : ¬ Holds s (.stop true) := by
  intro hholds
  obtain ⟨threads, hruns⟩ := h
  have hstop : call (.stop true) s = (s.setAcceptor false, .threw) := by
    unfold call stop
    rw [hopen]
    rfl
  have hjoins := hholds.joins true rfl
  rw [hstop] at hjoins
  have hlen : 0 < threads.length := by
    rw [← hruns.opened hopen]
    exact Nat.pos_of_ne_zero fun h => hnum (UInt32.toNat_inj.mp h)
  have hmem : threads[0] ∈ threads := List.getElem_mem hlen
  have hnodup : (s.joined ++ threads).Nodup := hruns.created ▸ List.nodup_range
  have hcreated : threads[0] < s.created :=
    List.mem_range.mp (hruns.created ▸ List.mem_append_right _ hmem)
  have hcount : s.joined.count threads[0] = 1 := hjoins _ hcreated
  have hjoined : threads[0] ∈ s.joined := List.count_pos_iff.mp (hcount ▸ Nat.one_pos)
  exact (List.nodup_append.mp hnodup).2.2 _ hjoined _ hmem rfl

/-- **The life cycle holds** call by call, as long as each `start` throws in
`open` or not at all, and no exception leaves the `stop` of a server with
threads; the first call that does otherwise breaks it. -/
theorem holds_iff {n : UInt32} {s : ServerTcp} (h : Reach step Meets (.init n) s) (c : Call) :
    Holds s c ↔ Meets s c := by
  have hinv := inv_reach h
  refine ⟨fun hholds => ?_, holds_of_meets hinv⟩
  cases c with
  | start fault =>
    rw [Meets, or_iff_not_imp_left]
    intro hopen
    by_contra hlate
    have hclosed := Bool.eq_false_of_not_eq_true hopen
    obtain ⟨hthrew, hleft⟩ := start_late hclosed (Bool.eq_true_of_not_eq_false hlate)
    have hacceptor := (hholds.recovers fault rfl hthrew).acceptor
    rw [call, hleft, hclosed] at hacceptor
    cases hacceptor
  | stop throws =>
    rintro hopen rfl
    by_contra hnum
    exact stop_unjoined hinv hopen hnum hholds

/-- Two threads, joined by a `stop` and created again; before, a `start` that
throws in `open` and one of a server that is open. -/
theorem holds_iff_two : ∃ s, Reach step Meets (.init 2) s ∧ s.joined = [0, 1] ∧
    s.ioThreadArray = [some 2, some 3] ∧ Holds s (.stop false) ∧ ¬ Holds s (.stop true) := by
  let calls := [Call.start (some .openAcceptor), .start none, .start none, .stop false,
    .start none]
  have hrun : exec (guarded step Meets) (.init 2) calls =
      some ⟨2, true, [some 2, some 3], 4, [0, 1]⟩ := by decide
  have hreach := Reach.of_exec_guarded calls hrun
  refine ⟨_, hreach, rfl, rfl, (holds_iff hreach (.stop false)).mpr (by decide), fun hholds => ?_⟩
  exact absurd ((holds_iff hreach (.stop true)).mp hholds) (by decide)

/-- The port is taken and `bind` throws: the acceptor is left open, and `stop`
goes through a vector of four threads that is empty. -/
theorem bind_throws : ¬ ∀ n s, Reach step always (.init n) s → ∀ c, Holds s c := by
  intro h
  have hrun : exec step (.init 4) [.start (some .bind)] = some ⟨4, true, [], 0, []⟩ := by decide
  have hholds := h 4 _ (Reach.of_exec _ hrun) (.stop false)
  exact hholds.safe (by decide)

end AsioTcp.LifeCycle
