import AsioTcp.ClientIds
import AsioTcp.FirstRun
import Mathlib.Data.List.Count

/-!
# What `stop` leaves behind

`stop` closes the sockets and clears the registry first and joins the io
threads afterwards, so a `handler_accept` that is under way in between can
still join its session. `stop_complete` says when `stop` leaves nothing behind:
no session joins after `connection_mgr::stop`, and no `shutdown` of a socket
reports an error, for then the loop goes on without a `close`.
-/

namespace AsioTcp.Server

open Transition Interleaving

/-- `stop` has been through `connection_mgr::stop`. -/
def Call.cleared : Call → Bool
  | .stop .iosStop | .stop (.join _) | .stop .clearBuffer => true
  | _ => false

def Call.disconnects : Action → Option (Nat → Disconnect)
  | .run (.stop .disconnect) (.disconnects f) => some f
  | _ => none

/-- No session joins once `connection_mgr::stop` has cleared the registry, and
no `shutdown` in it reports an error. -/
structure Clean (s : State) (a : Action) : Prop where
  join : joinsNow a = true → ∀ c ∈ s.calls, c.cleared = false
  shutdown : ∀ f, Call.disconnects a = some f →
    ∀ sid ∈ s.shared.connectionList, f sid ≠ .shutdownFailed

/-- No socket throws in `connection_mgr::stop`. -/
def NoThrow (s : State) (a : Action) : Prop :=
  ∀ f, Call.disconnects a = some f → ∀ sid ∈ s.shared.connectionList, f sid ≠ .threw

/-- The server as `stop` is to leave it. -/
structure Complete (s : ServerTcp) : Prop where
  size : s.size = 0
  buffer : s.alloc.connMsgBuffer.items = []
  sessions : ∀ sid ∈ s.admissions, (s.clients sid).closed = true ∨ sid ∈ s.left

/-! ## Every session that has joined -/

/-- A session that has joined is registered, or is done with. -/
def Accounted (s : ServerTcp) : Prop :=
  ∀ sid ∈ s.admissions, sid ∈ s.connectionList ∨ (s.clients sid).closed = true ∨ sid ∈ s.left

theorem disconnect_not_threw {f : Nat → Disconnect} {sids : List Nat} {s : ServerTcp}
    (h : (ServerTcp.disconnect f sids s).2 = false) : ∀ sid ∈ sids, f sid ≠ .threw := by
  induction sids generalizing s with
  | nil => exact fun sid hsid => nomatch hsid
  | cons sid rest ih =>
    intro i hi
    unfold ServerTcp.disconnect at h
    split at h
    · rename_i hf
      rcases List.mem_cons.mp hi with rfl | hi
      · rw [hf]
        exact nofun
      · exact ih h i hi
    · rename_i hf
      rcases List.mem_cons.mp hi with rfl | hi
      · rw [hf]
        exact nofun
      · exact ih h i hi
    · cases h

theorem disconnect_threw {f : Nat → Disconnect} {sids : List Nat} {s : ServerTcp}
    (h : (ServerTcp.disconnect f sids s).2 = true) : ∃ sid ∈ sids, f sid = .threw := by
  induction sids generalizing s with
  | nil => cases h
  | cons sid rest ih =>
    unfold ServerTcp.disconnect at h
    split at h
    · obtain ⟨i, hi, hf⟩ := ih h
      exact ⟨i, List.mem_cons_of_mem _ hi, hf⟩
    · obtain ⟨i, hi, hf⟩ := ih h
      exact ⟨i, List.mem_cons_of_mem _ hi, hf⟩
    · rename_i hf
      exact ⟨sid, List.mem_cons_self, hf⟩

theorem accounted_step {s t : State} {a : Action} (harrived : ∀ sid ∈ s.shared.admissions,
    Arrived s sid) (h : Accounted s.shared) (hok : Clean s a) (hs : step s a = some t) :
    Accounted t.shared := by
  obtain ⟨halive, new, rest, hcalls, ht, heffect⟩ := effect_of_step hs
  generalize t.shared = t' at heffect ⊢
  -- a new session is none that has joined
  have hkeep : ∀ {s' : ServerTcp}, s'.connectionList = s.shared.connectionList →
      s'.admissions = s.shared.admissions → s'.left = s.shared.left →
      (∀ sid, sid ≠ s.shared.created → s'.clients sid = s.shared.clients sid) → Accounted s' := by
    intro s' hlist hadmissions hleft hclients sid hsid
    rw [hadmissions] at hsid
    rw [hlist, hleft, hclients sid (harrived sid hsid).created.ne]
    exact h sid hsid
  cases heffect with
  | quiet hq | move hq | cancel hq =>
    apply hkeep hq.connectionList hq.admissions hq.left
    exact fun sid _ => congrFun hq.clients sid
  | accept | refuse | pass | count | joinFailed | crash => exact h
  | @assign sid id o =>
    intro i hi
    have hclosed : ((s.shared.assignId sid id).clients i).closed = (s.shared.clients i).closed := by
      by_cases he : i = sid
      · subst he
        exact (congrArg Client.closed (if_pos rfl)).trans rfl
      · exact congrArg Client.closed (if_neg he)
    rw [hclosed]
    exact h i hi
  | @join sid o =>
    intro i hi
    show i ∈ s.shared.connectionList.insert sid ∨ _
    rcases List.mem_append.mp hi with hi | hi
    · exact (h i hi).imp_left List.mem_insert_of_mem
    · rw [List.mem_singleton.mp hi]
      exact Or.inl List.mem_insert_self
  | @leave sid c o new hc =>
    intro i hi
    show i ∈ s.shared.connectionList.erase sid ∨ _ ∨ i ∈ sid :: s.shared.left
    by_cases he : i = sid
    · exact Or.inr (Or.inr (he ▸ List.mem_cons_self))
    · rcases h i hi with hmem | hclosed | hleft
      · exact Or.inl ((List.mem_erase_of_ne he).mpr hmem)
      · exact Or.inr (Or.inl hclosed)
      · exact Or.inr (Or.inr (List.mem_cons_of_mem _ hleft))
  | create | restart => exact hkeep rfl rfl rfl fun sid hne => if_neg hne
  | @disconnect f s' new hq =>
    have hd := disconnect_spec f s.shared.connectionList s.shared
    intro sid hsid
    rw [hq.admissions, hd.same] at hsid
    rw [hq.connectionList, hq.clients, hq.left, hd.list]
    have hleft : (ServerTcp.disconnect f s.shared.connectionList s.shared).1.left =
        s.shared.left := by rw [hd.same]
    rw [hleft]
    rcases h sid hsid with hmem | hclosed | hmem
    · cases hthrew : (ServerTcp.disconnect f s.shared.connectionList s.shared).2 with
      | true => exact Or.inl hmem
      | false =>
        -- the loop has come to its end, and no `shutdown` has failed
        have hno := disconnect_not_threw hthrew sid hmem
        have hfail := hok.shutdown f rfl sid hmem
        have hf : f sid = .closed := by
          cases hf : f sid with
          | closed => rfl
          | shutdownFailed => exact absurd hf hfail
          | threw => exact absurd hf hno
        exact Or.inr (Or.inl (hd.all hthrew sid hmem hf))
    · exact Or.inr (Or.inl (hd.closed sid hclosed))
    · exact Or.inr (Or.inr hmem)

/-! ## The registry after `connection_mgr::stop` -/

/-- `stop` comes past `connection_mgr::stop` when that has cleared the registry. -/
theorem cleared_of_stopNext {s s' : ServerTcp} {rest new : Multiset Call} {p : StopPoint}
    {o : Outcome} (h : stopNext s rest p o = some (s', new)) {c : Call} (hc : c ∈ new)
    (hcleared : c.cleared = true) : s'.size = 0 ∨ (Call.stop p).cleared = true := by
  have hcancel : c ∉ s.cancelAccepts.2 := by
    intro hmem
    obtain ⟨i, -, rfl⟩ := List.mem_map.mp (Multiset.mem_coe.mp hmem)
    cases hcleared
  have hstops : ∀ q : StopPoint, (Call.stop q).cleared = false → c ∉ .stop q ::ₘ s.cancelAccepts.2 := by
    intro q hq hmem
    rcases Multiset.mem_cons.mp hmem with rfl | hmem
    · rw [hq] at hcleared
      cases hcleared
    · exact hcancel hmem
  cases p with
  | cancel =>
    simp only [stopNext] at h
    split at h <;> cases h
    · exact absurd hc (hstops .close rfl)
    · exact absurd hc (Multiset.notMem_zero c)
  | close =>
    simp only [stopNext] at h
    cases h
    exact absurd hc (hstops .disconnect rfl)
  | disconnect =>
    cases o with
    | disconnects f =>
      simp only [stopNext] at h
      have hlist := (disconnect_spec f s.connectionList s).list
      split at h <;> rename_i hd <;> cases h
      · exact absurd hc (Multiset.notMem_zero c)
      · rw [hd] at hlist
        left
        exact congrArg List.length hlist
    | _ => cases h
  | iosStop | join | clearBuffer => exact Or.inr rfl

theorem cleared_step {s t : State} {a : Action}
    (h : ∀ c ∈ s.calls, c.cleared = true → s.shared.size = 0) (hok : Clean s a)
    (hs : step s a = some t) : ∀ c ∈ t.calls, c.cleared = true → t.shared.size = 0 := by
  obtain ⟨-, new, rest, hcalls, ht, heffect⟩ := effect_of_step hs
  -- once the registry is empty and cleared it stays so
  have hkeep : ∀ c ∈ s.calls, c.cleared = true → t.shared.size = 0 := by
    intro c hc hcleared
    have hsize := h c hc hcleared
    rcases size_of_effect heffect with hle | ⟨sid, o, rfl, ho, -⟩
    · omega
    · have hnot := hok.join (joinsNow_joining ho sid) c hc
      rw [hcleared] at hnot
      cases hnot
  intro c hc hcleared
  cases hcontrol : controls a with
  | false =>
    rw [ht] at hc
    rcases Multiset.mem_add.mp hc with hc | hc
    · have hother := (handled_of_effect heffect hcontrol).calls c hc
      cases c <;> first | cases hcleared | cases hother
    · exact hkeep c (hcalls ▸ Multiset.mem_add.mpr (Or.inr hc)) hcleared
  | true =>
    cases control_of_step hs hcontrol with
    | enterStart _ _ hbegins | enterStop _ _ hbegins =>
      rw [hbegins] at hc
      rcases Multiset.mem_cons.mp hc with rfl | hc
      · cases hcleared
      · exact hkeep c hc hcleared
    | start hold hnext hgoes =>
      rw [hgoes] at hc
      rcases Multiset.mem_add.mp hc with hc | hc
      · have hnew := (early_start hnext).2.1
        cases c with
        | stop p => exact absurd hc (hnew p)
        | _ => cases hcleared
      · exact hkeep c (hold ▸ Multiset.mem_cons_of_mem hc) hcleared
    | @stop p o rest new hold hnext hgoes =>
      rw [hgoes] at hc
      rcases Multiset.mem_add.mp hc with hc | hc
      · rcases cleared_of_stopNext hnext hc hcleared with hsize | hp
        · exact hsize
        · exact hkeep (.stop p) (hold ▸ Multiset.mem_cons_self _ _) hp
      · exact hkeep c (hold ▸ Multiset.mem_cons_of_mem hc) hcleared

section Returns

variable {maxConn ioThreadNum : UInt32} {ok : State → Action → Prop} {s : State}

theorem accounted_of_reach (hclean : ∀ s a, ok s a → Clean s a)
    (h : Reach step ok (start maxConn ioThreadNum) s) : Accounted s.shared := by
  refine h.invariant (P := fun t => Accounted t.shared)
    (fun sid hsid => absurd hsid List.not_mem_nil) fun u a t hu hacc hok hstep => ?_
  exact accounted_step (arrived_of_reach hu) hacc (hclean u a hok) hstep

theorem cleared_of_reach (hclean : ∀ s a, ok s a → Clean s a)
    (h : Reach step ok (start maxConn ioThreadNum) s) :
    ∀ c ∈ s.calls, c.cleared = true → s.shared.size = 0 := by
  refine h.invariant (P := fun t => ∀ c ∈ t.calls, c.cleared = true → t.shared.size = 0)
    (fun c hc => absurd hc (Multiset.notMem_zero c)) fun u a t _ hcleared hok hstep => ?_
  exact cleared_step hcleared (hclean u a hok) hstep

/-- With an empty registry and an empty buffer there is nothing left. -/
theorem complete_of_accounted {s : ServerTcp} (h : Accounted s) (hsize : s.size = 0)
    (hbuffer : s.alloc.connMsgBuffer.items = []) : Complete s := by
  refine ⟨hsize, hbuffer, fun sid hsid => ?_⟩
  rcases h sid hsid with hmem | hdone
  · rw [List.length_eq_zero_iff.mp hsize] at hmem
    exact absurd hmem List.not_mem_nil
  · exact hdone

/-- `stop` returns. -/
theorem complete_at_return (hclean : ∀ s a, ok s a → Clean s a)
    (h : Reach step ok (start maxConn ioThreadNum) s) {o : Outcome} {t : State}
    (hs : step s (.run (.stop .clearBuffer) o) = some t) : Complete t.shared := by
  have hacc := accounted_of_reach hclean h
  cases control_of_step hs rfl with
  | stop hcalls hnext =>
    have hsize := cleared_of_reach hclean h (.stop .clearBuffer)
      (hcalls ▸ Multiset.mem_cons_self _ _) rfl
    have hshared : t.shared = (s.shared.setAlloc s.shared.alloc.clearBuffer).enterPhase .stopped :=
      (congrArg Prod.fst (Option.some.inj hnext)).symm
    rw [hshared]
    exact complete_of_accounted hacc hsize rfl

end Returns

/-! ## The io threads -/

/-- No io thread runs, and nothing is left of a run. -/
structure Idle (s : ServerTcp) : Prop where
  running : s.running = 0
  ioThreadArray : s.ioThreadArray = []
  size : s.size = 0
  buffer : s.alloc.connMsgBuffer.items = []

/-- What holds of the threads while `start` or `stop` is at a line. -/
def Stand (s : ServerTcp) : Call → Prop
  | .start .reset | .start .acceptor => Idle s
  | .start .listen | .start .startAccept | .start .resize => Idle s ∧ s.acceptorOpen = true
  | .start (.spawn i) => s.acceptorOpen = true ∧ s.ioThreadArray.length = s.ioThreadNum.toNat ∧
      ∀ j, i ≤ j → s.ioThreadArray[j]? ≠ some true
  | .stop .cancel => s.acceptorOpen = false → Idle s
  | .stop (.join i) => ∀ j < i, s.ioThreadArray[j]? ≠ some true
  | .stop .clearBuffer => s.running = 0 ∧ s.ioThreadArray = []
  | _ => True

/-- There is one call of `start` or `stop` at a time, and `io_thread_array_`
holds the threads that run. -/
structure Accounts (s : State) : Prop where
  one : s.calls.countP (fun c => c.control = true) = if s.shared.phase = .busy then 1 else 0
  stand : ∀ c ∈ s.calls, c.control = true → Stand s.shared c
  stopped : s.shared.phase = .stopped → Idle s.shared
  started : s.shared.phase = .started → s.shared.acceptorOpen = false → Idle s.shared
  threads : threads s.calls ≤ s.shared.running
  count : s.shared.running = s.shared.ioThreadArray.count true
  length : s.shared.ioThreadArray.length ≤ s.shared.ioThreadNum.toNat

/-- While a call of `start` or `stop` is in progress the phase is `busy`. -/
theorem Accounts.busy {s : State} (h : Accounts s) {c : Call} (hc : c ∈ s.calls)
    (hcontrol : c.control = true) : s.shared.phase = .busy := by
  have hpos : 0 < s.calls.countP (fun c => c.control = true) :=
    Multiset.countP_pos.mpr ⟨c, hc, hcontrol⟩
  have hone := h.one
  split at hone
  · assumption
  · omega

/-- A handler that has no thread yet leaves the registry and the buffer alone. -/
theorem offThread_step {s t : State} {a : Action} (hs : step s a = some t)
    (hcontrol : controls a = false) (hoff : threads (taken a) = 0) :
    t.shared.connectionList = s.shared.connectionList ∧ t.shared.alloc = s.shared.alloc := by
  have halive := (effect_of_step hs).1
  cases a with
  | enter e =>
    obtain ⟨cs, hcs, -⟩ := Program.step_enter hs
    simp only [program, halive, Bool.false_eq_true, ↓reduceIte] at hcs
    cases e with
    | start | stop => cases hcontrol
    | accept sid error | written sid error =>
      simp only [enter] at hcs
      generalize t.shared = t' at hcs
      split at hcs <;> cases hcs
      exact ⟨rfl, rfl⟩
  | run c o =>
    obtain ⟨rest, cs, -, hcs, -⟩ := Program.step_run hs
    simp only [program, halive, Bool.false_eq_true, ↓reduceIte] at hcs
    rw [taken_run, threads_singleton] at hoff
    have hsame : t.shared = s.shared := by
      generalize t.shared = t' at hcs
      cases c with
      | accepted sid error =>
        simp only [next, acceptNext] at hcs
        split at hcs <;> cases hcs
        rfl
      | asyncRead sid part =>
        cases o with
        | go =>
          simp only [next, sessionNext] at hcs
          split at hcs <;> cases hcs
          rfl
        | error =>
          simp only [next, sessionNext] at hcs
          cases hcs
          rfl
        | _ => cases hcs
      | readDone sid part error | writeDone sid error =>
        simp only [next, sessionNext] at hcs
        split at hcs <;> cases hcs
        rfl
      | start | stop => cases hcontrol
      | _ => cases hoff
    rw [hsame]
    exact ⟨rfl, rfl⟩

theorem Idle.same {s s' : ServerTcp} (h : Idle s) (hrunning : s'.running = s.running)
    (harray : s'.ioThreadArray = s.ioThreadArray) (hlist : s'.connectionList = s.connectionList)
    (halloc : s'.alloc = s.alloc) : Idle s' := by
  refine ⟨hrunning.trans h.running, harray.trans h.ioThreadArray, ?_, ?_⟩
  · rw [ServerTcp.size, hlist]
    exact h.size
  · rw [halloc]
    exact h.buffer

theorem Stand.same {s s' : ServerTcp} (hsame : SameControl s s') (hidle : Idle s → Idle s')
    {c : Call} (h : Stand s c) : Stand s' c := by
  cases c with
  | start p =>
    cases p with
    | reset | acceptor => exact hidle h
    | listen | startAccept | resize => exact ⟨hidle h.1, hsame.acceptorOpen.trans h.2⟩
    | spawn i =>
      rw [Stand, hsame.acceptorOpen, hsame.ioThreadArray, hsame.ioThreadNum]
      exact h
  | stop p =>
    cases p with
    | cancel => exact fun hopen => hidle (h (hsame.acceptorOpen ▸ hopen))
    | join i =>
      rw [Stand, hsame.ioThreadArray]
      exact h
    | clearBuffer =>
      rw [Stand, hsame.ioThreadArray, hsame.running]
      exact h
    | _ => trivial
  | _ => trivial

/-- The handlers keep the accounts. -/
theorem accounts_handler {s t : State} {a : Action} (h : Accounts s) (hs : step s a = some t)
    (hcontrol : controls a = false) : Accounts t := by
  obtain ⟨-, new, rest, hcalls, ht, heffect⟩ := effect_of_step hs
  obtain ⟨hsame, hnew, hthreads⟩ := handled_of_effect heffect hcontrol
  have hone := h.one
  have hle := h.threads
  rw [hcalls, threads_add] at hle
  -- without a thread no handler runs, and nothing comes to the registry or the buffer
  have hidle : Idle s.shared → Idle t.shared := by
    intro hidle
    have hoff : threads (taken a) = 0 := by
      have hzero := hidle.running
      omega
    obtain ⟨hlist, halloc⟩ := offThread_step hs hcontrol hoff
    exact hidle.same hsame.running hsame.ioThreadArray hlist halloc
  have htaken : (taken a).countP (fun c => c.control = true) = 0 := by
    apply Multiset.countP_eq_zero.mpr
    intro c hc
    cases a with
    | enter e => exact absurd hc (Multiset.notMem_zero c)
    | run d o =>
      rw [Multiset.mem_singleton.mp hc]
      exact ne_true_of_eq_false hcontrol
  have hother : new.countP (fun c => c.control = true) = 0 :=
    Multiset.countP_eq_zero.mpr fun c hc => ne_true_of_eq_false (hnew c hc)
  constructor
  · rw [hcalls, Multiset.countP_add, htaken] at hone
    rw [ht, Multiset.countP_add, hother, hsame.phase]
    exact hone
  · intro c hc hcc
    rw [ht] at hc
    rcases Multiset.mem_add.mp hc with hc | hc
    · rw [hnew c hc] at hcc
      cases hcc
    · exact (h.stand c (hcalls ▸ Multiset.mem_add.mpr (Or.inr hc)) hcc).same hsame hidle
  · exact fun hphase => hidle (h.stopped (hsame.phase ▸ hphase))
  · exact fun hphase hopen => hidle (h.started (hsame.phase ▸ hphase) (hsame.acceptorOpen ▸ hopen))
  · rw [ht, threads_add, hsame.running]
    rcases hthreads with hthreads | ⟨hfree, hthreads⟩
    · omega
    · have hfree := hfree.2
      show threads new + threads rest ≤ _
      have hrest : threads rest < s.shared.running := hfree
      omega
  · rw [hsame.running, hsame.ioThreadArray]
    exact h.count
  · rw [hsame.ioThreadArray, hsame.ioThreadNum]
    exact h.length

/-- Where `start` or `stop` has come to with a step. -/
inductive Goes (s : ServerTcp) : Multiset Call → Prop
  | on {c : Call} {extra : Multiset Call} : s.phase = .busy → c.control = true → Stand s c →
      (∀ d ∈ extra, d.control = false ∧ d.onThread = false) → Goes s (c ::ₘ extra)
  | stopped : s.phase = .stopped → Idle s → Goes s 0
  | started : s.phase = .started → (s.acceptorOpen = false → Idle s) → Goes s 0

theorem Goes.one {s : ServerTcp} {c : Call} (hphase : s.phase = .busy) (hc : c.control = true)
    (hstand : Stand s c) : Goes s {c} :=
  @Goes.on s c 0 hphase hc hstand fun d hd => absurd hd (Multiset.notMem_zero d)

/-- `io_thread_array_` holds the threads that run. -/
structure Held (s : ServerTcp) : Prop where
  count : s.running = s.ioThreadArray.count true
  length : s.ioThreadArray.length ≤ s.ioThreadNum.toNat

theorem count_eq_zero_of_getElem? {l : List Bool} (h : ∀ j < l.length, l[j]? ≠ some true) :
    l.count true = 0 := by
  apply List.count_eq_zero.mpr
  intro hmem
  obtain ⟨j, hj⟩ := List.mem_iff_getElem?.mp hmem
  obtain ⟨hlt, -⟩ := List.getElem?_eq_some_iff.mp hj
  exact h j hlt hj

theorem start_goes {s s' : ServerTcp} {new : Multiset Call} {p : StartPoint} {o : Outcome}
    (h : startNext s p o = some (s', new)) (hphase : s.phase = .busy)
    (hstand : Stand s (.start p)) (hheld : Held s) :
    Goes s' new ∧ Held s' ∧ s.running ≤ s'.running := by
  -- an exception ends `start` where it is
  have hthrows : ∀ {s' : ServerTcp} {new : Multiset Call},
      some (s.enterPhase .started, (0 : Multiset Call)) = some (s', new) →
      (s.acceptorOpen = false → Idle s) → Goes s' new ∧ Held s' ∧ s.running ≤ s'.running := by
    intro s' new he hopen
    cases he
    refine ⟨.started rfl fun hclosed => ?_, ⟨hheld.count, hheld.length⟩, Nat.le_refl _⟩
    exact (hopen hclosed).same rfl rfl rfl rfl
  cases p with
  | reset =>
    cases h
    have hstand : Idle s := hstand
    exact ⟨.one hphase rfl (hstand.same rfl rfl rfl rfl), ⟨hheld.count, hheld.length⟩, Nat.le_refl _⟩
  | acceptor =>
    have hstand : Idle s := hstand
    cases o with
    | go =>
      simp only [startNext] at h
      split at h
      · exact hthrows h fun _ => hstand
      · cases h
        refine ⟨.one hphase rfl ⟨?_, rfl⟩, ⟨hheld.count, hheld.length⟩, Nat.le_refl _⟩
        exact hstand.same rfl rfl rfl rfl
    | throws => exact hthrows h fun _ => hstand
    | _ => cases h
  | listen =>
    cases o with
    | go =>
      cases h
      exact ⟨.one hphase rfl hstand, hheld, Nat.le_refl _⟩
    | throws => exact hthrows h fun _ => hstand.1
    | _ => cases h
  | startAccept =>
    cases o with
    | go =>
      obtain ⟨accepting, calls, hr, hbegins⟩ := startAccept_spec s.resetId
      simp only [startNext, hr] at h
      cases h
      refine ⟨.on hphase rfl ⟨hstand.1.same rfl rfl rfl rfl, hstand.2⟩ fun d hd => ?_,
        ⟨hheld.count, hheld.length⟩, Nat.le_refl _⟩
      cases hbegins with
      | pending => exact absurd hd (Multiset.notMem_zero d)
      | closed =>
        obtain rfl := Multiset.mem_singleton.mp hd
        exact ⟨rfl, rfl⟩
    | throws => exact hthrows h fun _ => hstand.1
    | _ => cases h
  | resize =>
    cases o with
    | go =>
      cases h
      have harray : (s.ioThreadArray ++ List.replicate s.ioThreadNum.toNat false).take
          s.ioThreadNum.toNat = List.replicate s.ioThreadNum.toNat false := by
        rw [hstand.1.ioThreadArray, List.nil_append, List.take_replicate, Nat.min_self]
      rw [harray]
      refine ⟨.one hphase rfl ⟨hstand.2, List.length_replicate, fun j _ he => ?_⟩, ⟨?_, ?_⟩,
        Nat.le_refl _⟩
      · have hfalse := List.eq_of_mem_replicate (List.mem_of_getElem? he)
        cases hfalse
      · show s.running = (List.replicate _ false).count true
        rw [hstand.1.running, List.count_replicate]
        rfl
      · exact List.length_replicate.le
    | throws => exact hthrows h fun _ => hstand.1
    | _ => cases h
  | spawn i =>
    obtain ⟨hopen, hlength, hempty⟩ := hstand
    have hstarted : s.acceptorOpen = false → Idle s := by
      intro hclosed
      rw [hopen] at hclosed
      cases hclosed
    cases o with
    | go =>
      simp only [startNext] at h
      split at h
      · rename_i hi
        cases h
        have hlt : i < s.ioThreadArray.length := hlength ▸ hi
        have hfalse : s.ioThreadArray[i] = false := by
          cases hb : s.ioThreadArray[i] with
          | false => rfl
          | true => exact absurd (hb ▸ List.getElem?_eq_getElem hlt) (hempty i (Nat.le_refl i))
        refine ⟨.one hphase rfl ⟨hopen, (List.length_set ..).trans hlength, fun j hj => ?_⟩, ⟨?_, ?_⟩,
          Nat.le_succ _⟩
        · rw [List.getElem?_set_ne (Nat.ne_of_lt hj)]
          exact hempty j (Nat.le_of_succ_le hj)
        · show s.running + 1 = (s.ioThreadArray.set i true).count true
          rw [List.count_set hlt, hfalse, hheld.count]
          rfl
        · exact (List.length_set ..).le.trans hheld.length
      · exact hthrows h hstarted
    | throws => exact hthrows h hstarted
    | _ => cases h

theorem stop_goes {s s' : ServerTcp} {rest new : Multiset Call} {p : StopPoint} {o : Outcome}
    (h : stopNext s rest p o = some (s', new)) (hphase : s.phase = .busy)
    (hstand : Stand s (.stop p)) (hheld : Held s) (hthreads : threads rest ≤ s.running)
    (hthrow : ∀ f, Call.disconnects (.run (.stop p) o) = some f →
      ∀ sid ∈ s.connectionList, f sid ≠ .threw)
    (hsize : (Call.stop p).cleared = true → s.size = 0) (halive : s'.terminated = false) :
    Goes s' new ∧ Held s' ∧ threads rest ≤ s'.running := by
  have hcancel : ∀ d ∈ s.cancelAccepts.2, d.control = false ∧ d.onThread = false := by
    intro d hd
    obtain ⟨i, -, rfl⟩ := List.mem_map.mp (Multiset.mem_coe.mp hd)
    exact ⟨rfl, rfl⟩
  cases p with
  | cancel =>
    simp only [stopNext] at h
    split at h
    · cases h
      exact ⟨.on hphase rfl trivial hcancel, ⟨hheld.count, hheld.length⟩, hthreads⟩
    · rename_i hclosed
      cases h
      have hidle := hstand (eq_false_of_ne_true hclosed)
      exact ⟨.stopped rfl (hidle.same rfl rfl rfl rfl), ⟨hheld.count, hheld.length⟩, hthreads⟩
  | close =>
    cases h
    exact ⟨.on hphase rfl trivial hcancel, ⟨hheld.count, hheld.length⟩, hthreads⟩
  | disconnect =>
    cases o with
    | disconnects f =>
      have hd := (disconnect_spec f s.connectionList s).same
      simp only [stopNext] at h
      split at h <;> rename_i hthrew <;> cases h
      · obtain ⟨sid, hsid, hf⟩ := disconnect_threw (congrArg Prod.snd hthrew)
        exact absurd hf (hthrow f rfl sid hsid)
      · rw [hthrew] at hd
        replace hd : s' = _ := hd
        refine ⟨.one ?_ rfl trivial, ⟨?_, ?_⟩, ?_⟩ <;> rw [hd]
        · exact hphase
        · exact hheld.count
        · exact hheld.length
        · exact hthreads
    | _ => cases h
  | iosStop =>
    cases h
    refine ⟨.one hphase rfl fun j hj => ?_, ⟨hheld.count, hheld.length⟩, hthreads⟩
    exact absurd hj (Nat.not_lt_zero j)
  | join i =>
    have hstand : ∀ j < i, s.ioThreadArray[j]? ≠ some true := hstand
    simp only [stopNext] at h
    split at h
    · split at h
      · rename_i hi hget
        split at h <;> cases h
        rename_i hrest
        obtain ⟨hlt, htrue⟩ := List.getElem?_eq_some_iff.mp hget
        have hpos : 0 < s.ioThreadArray.count true := List.count_pos_iff.mpr (htrue ▸ List.getElem_mem hlt)
        refine ⟨.one hphase rfl fun j hj => ?_, ⟨?_, ?_⟩, ?_⟩
        · show (s.ioThreadArray.set i false)[j]? ≠ some true
          by_cases he : i = j
          · subst he
            rw [List.getElem?_set_self hlt]
            exact nofun
          · rw [List.getElem?_set_ne he]
            exact hstand j (by omega)
        · show s.running - 1 = (s.ioThreadArray.set i false).count true
          rw [List.count_set hlt, htrue, hheld.count]
          rfl
        · exact (List.length_set ..).le.trans hheld.length
        · have hrest : threads rest < s.running := hrest
          show threads rest ≤ s.running - 1
          omega
      · cases h
        cases halive
    · rename_i hi
      cases h
      have hzero : s.ioThreadArray.count true = 0 := by
        apply count_eq_zero_of_getElem?
        intro j hj
        have hlength := hheld.length
        exact hstand j (by omega)
      have hrunning : s.running = 0 := hheld.count.trans hzero
      exact ⟨.one hphase rfl ⟨hrunning, rfl⟩, ⟨hrunning, Nat.zero_le _⟩, hthreads⟩
  | clearBuffer =>
    cases h
    obtain ⟨hrunning, harray⟩ := hstand
    exact ⟨.stopped rfl ⟨hrunning, harray, hsize rfl, rfl⟩, ⟨hheld.count, hheld.length⟩, hthreads⟩

/-- One call of `start` or `stop` comes to its next line. -/
theorem accounts_replace {s t : State} {c : Call} {rest new : Multiset Call} (h : Accounts s)
    (hcalls : s.calls = c ::ₘ rest) (hc : c.control = true) (ht : t.calls = new + rest)
    (hgoes : Goes t.shared new) (hheld : Held t.shared)
    (hthreads : threads rest ≤ t.shared.running) : Accounts t := by
  have hone := h.one
  rw [hcalls, Multiset.countP_cons (fun c : Call => c.control = true), if_pos hc] at hone
  have hrest : rest.countP (fun c => c.control = true) = 0 := by
    split at hone <;> omega
  have hother : ∀ d ∈ rest, d.control = true → Stand t.shared d :=
    fun d hd hdc => absurd hdc (Multiset.countP_eq_zero.mp hrest d hd)
  obtain ⟨t', calls⟩ := t
  obtain rfl : calls = new + rest := ht
  cases hgoes with
  | @on d extra hphase hd hstand hextra =>
    have hnone : extra.countP (fun c => c.control = true) = 0 :=
      Multiset.countP_eq_zero.mpr fun e he => ne_true_of_eq_false (hextra e he).1
    have hoff : threads extra = 0 :=
      Multiset.countP_eq_zero.mpr fun e he => ne_true_of_eq_false (hextra e he).2
    have hdthread : d.onThread = false := by
      cases d <;> first | rfl | cases hd
    constructor
    · rw [if_pos hphase, Multiset.countP_add, Multiset.countP_cons, if_pos hd, hnone, hrest]
    · intro e he hec
      rcases Multiset.mem_add.mp he with he | he
      · rcases Multiset.mem_cons.mp he with rfl | he
        · exact hstand
        · rw [(hextra e he).1] at hec
          cases hec
      · exact hother e he hec
    · exact fun hs => absurd (hphase.symm.trans hs) nofun
    · exact fun hs => absurd (hphase.symm.trans hs) nofun
    · rw [threads_add, threads_cons, hoff, hdthread]
      exact (Nat.zero_add _).le.trans hthreads
    · exact hheld.count
    · exact hheld.length
  | stopped hphase hidle =>
    constructor
    · rw [hphase, Multiset.zero_add, hrest]
      rfl
    · exact fun e he => hother e (Multiset.zero_add rest ▸ he)
    · exact fun _ => hidle
    · exact fun _ _ => hidle
    · rw [Multiset.zero_add]
      exact hthreads
    · exact hheld.count
    · exact hheld.length
  | started hphase hidle =>
    constructor
    · rw [hphase, Multiset.zero_add, hrest]
      rfl
    · exact fun e he => hother e (Multiset.zero_add rest ▸ he)
    · exact fun hs => absurd (hphase.symm.trans hs) nofun
    · exact fun _ => hidle
    · rw [Multiset.zero_add]
      exact hthreads
    · exact hheld.count
    · exact hheld.length

/-- `start` or `stop` is called. -/
theorem accounts_enter {s t : State} {c : Call} (h : Accounts s) (hphase : s.shared.phase ≠ .busy)
    (hc : c.control = true) (hshared : t.shared = s.shared.enterPhase .busy)
    (ht : t.calls = c ::ₘ s.calls) (hstand : Stand t.shared c) : Accounts t := by
  have hone := h.one
  rw [if_neg hphase] at hone
  have hbusy : t.shared.phase = .busy := by rw [hshared]; rfl
  have hthread : c.onThread = false := by
    cases c <;> first | rfl | cases hc
  constructor
  · rw [if_pos hbusy, ht, Multiset.countP_cons, if_pos hc, hone]
  · intro d hd hdc
    rw [ht] at hd
    rcases Multiset.mem_cons.mp hd with rfl | hd
    · exact hstand
    · exact absurd hdc (Multiset.countP_eq_zero.mp hone d hd)
  · exact fun hs => absurd (hbusy.symm.trans hs) nofun
  · exact fun hs => absurd (hbusy.symm.trans hs) nofun
  · rw [ht, threads_cons, hthread, hshared]
    exact h.threads
  · rw [hshared]
    exact h.count
  · rw [hshared]
    exact h.length

theorem accounts_step {s t : State} {a : Action} (h : Accounts s)
    (hcleared : ∀ c ∈ s.calls, c.cleared = true → s.shared.size = 0) (hok : NoThrow s a)
    (hs : step s a = some t) (halive : t.shared.terminated = false) : Accounts t := by
  cases hcontrol : controls a with
  | false => exact accounts_handler h hs hcontrol
  | true =>
    have hheld : Held s.shared := ⟨h.count, h.length⟩
    have hle := h.threads
    cases control_of_step hs hcontrol with
    | enterStart hphase hshared hcalls =>
      apply accounts_enter h (by rw [hphase]; exact nofun) rfl hshared hcalls
      rw [hshared]
      exact (h.stopped hphase).same rfl rfl rfl rfl
    | enterStop hphase hshared hcalls =>
      apply accounts_enter h (by rw [hphase]; exact nofun) rfl hshared hcalls
      rw [hshared]
      exact fun hclosed => (h.started hphase hclosed).same rfl rfl rfl rfl
    | @start p o rest new hcalls hnext ht =>
      have hmem : .start p ∈ s.calls := hcalls ▸ Multiset.mem_cons_self _ _
      have hphase := h.busy hmem rfl
      obtain ⟨hgoes, hheld', hmono⟩ := start_goes hnext hphase (h.stand _ hmem rfl) hheld
      apply accounts_replace h hcalls rfl ht hgoes hheld'
      rw [hcalls, threads_cons] at hle
      omega
    | @stop p o rest new hcalls hnext ht =>
      have hmem : .stop p ∈ s.calls := hcalls ▸ Multiset.mem_cons_self _ _
      have hphase := h.busy hmem rfl
      rw [hcalls, threads_cons] at hle
      obtain ⟨hgoes, hheld', hmono⟩ := stop_goes hnext hphase (h.stand _ hmem rfl) hheld (by omega)
        hok (hcleared _ hmem) halive
      exact accounts_replace h hcalls rfl ht hgoes hheld' hmono

def CleanStop (s : State) (a : Action) : Prop := Clean s a ∧ NoThrow s a

theorem accounts_of_reach {maxConn ioThreadNum : UInt32} {s : State}
    (h : Reach step CleanStop (start maxConn ioThreadNum) s)
    (halive : s.shared.terminated = false) : Accounts s := by
  have hstart : Accounts (start maxConn ioThreadNum) := by
    constructor
    · rfl
    · exact fun c hc => absurd hc (Multiset.notMem_zero c)
    · exact fun _ => ⟨rfl, rfl, rfl, rfl⟩
    · exact nofun
    · exact Nat.le_refl 0
    · rfl
    · exact Nat.zero_le _
  refine h.invariant (P := fun t => t.shared.terminated = false → Accounts t) (fun _ => hstart)
    (fun u a t hu haccounts hok hstep htalive => ?_) halive
  have hcleared := cleared_of_reach (fun _ _ hok => hok.1) hu
  exact accounts_step (haccounts (effect_of_step hstep).1) hcleared hok.2 hstep htalive

/-- `Clean` on the actions of a run, in a form that can be evaluated. -/
def isClean (s : State) (a : Action) : Bool :=
  (!joinsNow a || decide (∀ c ∈ s.calls, c.cleared = false)) &&
    match Call.disconnects a with
    | some f => s.shared.connectionList.all fun sid => decide (f sid = .closed)
    | none => true

theorem cleanStop_of_isClean {s : State} {a : Action} (h : isClean s a = true) : CleanStop s a := by
  obtain ⟨hjoin, hdisconnect⟩ := Bool.and_eq_true_iff.mp h
  have hclosed : ∀ f, Call.disconnects a = some f → ∀ sid ∈ s.shared.connectionList,
      f sid = .closed := by
    intro f hf sid hsid
    rw [hf] at hdisconnect
    exact of_decide_eq_true (List.all_eq_true.mp hdisconnect sid hsid)
  refine ⟨⟨fun hnow => ?_, fun f hf sid hsid => ?_⟩, fun f hf sid hsid => ?_⟩
  · rw [hnow] at hjoin
    exact of_decide_eq_true hjoin
  · rw [hclosed f hf sid hsid]
    exact nofun
  · rw [hclosed f hf sid hsid]
    exact nofun

end AsioTcp.Server
