import AsioTcp.ConnectionLimit
import Mathlib.Algebra.GroupWithZero.Nat

/-!
# `handler_accept` re-arms the acceptor

The last line of `handler_accept` is `start_accept`. An execution of it is the
list of its sections; between two of them the other threads go on.
`accept_rearms`: an execution ends with one new `async_accept`, and without an
exception, exactly if nothing that it calls throws, from the lock of `can_join`
to the `async_accept` itself, and `assert(false)` does not end it.
-/

namespace AsioTcp.Server

open Transition Interleaving

/-- The points of `handler_accept` at which it calls what can throw, or comes
to an assertion. -/
def Call.mayThrow : Call → Bool
  | .handlerAccept _ _ | .starting _ | .joining _ | .joined _ | .startAccept => true
  | _ => false

theorem acceptNext_throws {c : Call} (h : c.mayThrow = true) (s : ServerTcp)
    (rest : Multiset Call) : acceptNext s rest c .throws = some (s.terminate, 0) := by
  cases c with
  | handlerAccept | starting | joining | joined | startAccept => rfl
  | _ => cases h

/-- A section in which nothing throws. -/
theorem acceptNext_go {s : ServerTcp} {rest : Multiset Call} {c : Call} {o : Outcome}
    {r : ServerTcp × Multiset Call} (hthread : c.onThread = true)
    (hno : o = .throws → c.mayThrow = false) (h : acceptNext s rest c o = some r) :
    acceptNext s rest c .go = some r := by
  cases o with
  | go => exact h
  | throws =>
    cases c with
    | admitted | counted => exact h
    | handlerAccept | starting | joining | joined | startAccept => cases hno rfl
    | accepted => cases hthread
    | _ => cases h
  | _ =>
    cases c with
    | handlerAccept sid error => cases error <;> exact h
    | admitted | counted | joining | joined => exact h
    | accepted => cases hthread
    | _ => cases h

def Call.isAccepted : Call → Bool
  | .accepted _ _ => true
  | _ => false

/-- The `async_accept` operations that are pending, or have completed and have
their handler in the queue. -/
def accepts (accepting : List Nat) (calls : Multiset Call) : Nat :=
  accepting.length + calls.countP fun c => c.isAccepted = true

/-- One section of a call. -/
structure Section where
  before : State
  call : Call
  outcome : Outcome
  after : State

namespace Section

/-- The section is a step of a run. -/
structure Valid (maxConn ioThreadNum : UInt32) (x : Section) : Prop where
  reach : Reach step always (start maxConn ioThreadNum) x.before
  step : step x.before (.run x.call x.outcome) = some x.after

/-- What the call continues as. -/
def continues (x : Section) : Multiset Call :=
  match acceptNext x.before.shared (x.before.calls.erase x.call) x.call x.outcome with
  | some (_, new) => new
  | none => 0

/-- The call is at `d` after the section, on the same thread. -/
def GoesOn (x : Section) (d : Call) : Prop := d ∈ x.continues ∧ d.onThread = true

/-- The `async_accept` operations that the section issues. -/
def issued (x : Section) : Nat :=
  accepts x.after.shared.accepting x.after.calls - accepts x.before.shared.accepting x.before.calls

/-- What the section calls throws, or its assertion ends the process. -/
def throws (x : Section) : Bool :=
  match x.outcome with
  | .throws => x.call.mayThrow
  | _ => false

/-- The sessions that have joined are registered and as they were. -/
def Spares (x : Section) : Prop :=
  ∀ sid ∈ x.before.shared.connectionList, sid ∈ x.after.shared.connectionList ∧
    x.after.shared.clients sid = x.before.shared.clients sid ∧
    reads x.after.calls sid = reads x.before.calls sid

end Section

/-- What a call of `handler_accept` does until it returns or throws. -/
inductive Execution (maxConn ioThreadNum : UInt32) : Call → List Section → Prop
  | ends {x : Section} : x.Valid maxConn ioThreadNum → (∀ d ∈ x.continues, d.onThread = false) →
      Execution maxConn ioThreadNum x.call [x]
  | goesOn {x : Section} {d : Call} {xs : List Section} : x.Valid maxConn ioThreadNum →
      x.GoesOn d → Execution maxConn ioThreadNum d xs →
      Execution maxConn ioThreadNum x.call (x :: xs)

/-- The lines of `handler_accept` and `session_tcp::start` that are left. -/
def Call.linesLeft : Call → Nat
  | .handlerAccept _ _ => 7
  | .admitted _ => 6
  | .counted _ _ => 5
  | .starting _ => 4
  | .joining _ => 3
  | .joined _ => 2
  | .startAccept => 1
  | _ => 0

/-- One new `async_accept`, no exception, and the other sessions left alone. -/
structure Rearms (xs : List Section) : Prop where
  issued : (xs.map Section.issued).sum = 1
  caught : ∀ x ∈ xs, x.after.shared.terminated = false
  spares : ∀ x ∈ xs, x.Spares

/-- What a section of `handler_accept` does that does not throw. -/
structure Advances (x : Section) (issued : Nat) : Prop where
  issued : x.issued = issued
  caught : x.after.shared.terminated = false
  spares : x.Spares

theorem advances_intro {maxConn ioThreadNum : UInt32} {x : Section}
    (hx : x.Valid maxConn ioThreadNum) {rest new : Multiset Call} {n : Nat}
    (hcalls : x.before.calls = x.call ::ₘ rest) (ht : x.after.calls = new + rest)
    (hcall : x.call.isAccepted = false) (halive : x.after.shared.terminated = false)
    (hlist : ∀ sid ∈ x.before.shared.connectionList, sid ∈ x.after.shared.connectionList ∧
      x.after.shared.clients sid = x.before.shared.clients sid)
    (hcount : accepts x.after.shared.accepting new = x.before.shared.accepting.length + n) :
    Advances x n := by
  have hbefore := ledger_of_reach hx.reach
  have hafter := ledger_of_reach (hx.reach.tail trivial hx.step)
  refine ⟨?_, halive, fun sid hsid => ⟨(hlist sid hsid).1, (hlist sid hsid).2, ?_⟩⟩
  · rw [accepts] at hcount
    rw [Section.issued, accepts, accepts, hcalls, ht, Multiset.countP_add,
      Multiset.countP_cons (fun c : Call => c.isAccepted = true), hcall,
      if_neg Bool.false_ne_true]
    omega
  · rw [hafter.read halive sid (hlist sid hsid).1,
      hbefore.read (effect_of_step hx.step).1 sid hsid]

/-- The sessions of `connection_list_` have been created. -/
theorem registered_lt_created {s : State} (h : Ledger s) (halive : s.shared.terminated = false)
    {sid : Nat} (hsid : sid ∈ s.shared.connectionList) : sid < s.shared.created := by
  have hread := h.read halive sid hsid
  have hplace := h.place sid
  have hle := reads_le_visits s.calls sid
  rw [places] at hplace
  by_contra hge
  rw [if_neg hge] at hplace
  omega

/-- How a section of `handler_accept` ends. -/
inductive Ends (x : Section) : Prop
  | threw : x.throws = true → x.after.shared.terminated = true →
      (∀ d ∈ x.continues, d.onThread = false) → Ends x
  /-- the `start_accept` that issues the one `async_accept` -/
  | rearmed : x.throws = false → Advances x 1 → (∀ d ∈ x.continues, d.onThread = false) → Ends x
  | goesOn : x.throws = false → Advances x 0 → (∃ d, x.GoesOn d) →
      (∀ d, x.GoesOn d → d.inChain = true ∧ d.linesLeft < x.call.linesLeft) → Ends x

theorem section_ends {maxConn ioThreadNum : UInt32} {x : Section}
    (hx : x.Valid maxConn ioThreadNum) (hchain : x.call.inChain = true)
    (hthread : x.call.onThread = true) : Ends x := by
  have halive := (effect_of_step hx.step).1
  obtain ⟨rest, new, hcalls, hnext, ht⟩ := Program.step_run hx.step
  simp only [program, halive, Bool.false_eq_true, ↓reduceIte] at hnext
  have hintro := fun n => advances_intro (n := n) hx hcalls ht
  have hout := fun sid st (hst : x.call.stage = some (sid, st)) (hne : st ≠ .reading) =>
    not_registered hx.reach halive hcalls hst hne
  have hcreated : ∀ sid ∈ x.before.shared.connectionList, sid < x.before.shared.created :=
    fun sid hsid => registered_lt_created (ledger_of_reach hx.reach) halive hsid
  have haccept : acceptNext x.before.shared rest x.call x.outcome = some (x.after.shared, new) := by
    cases hc : x.call <;> rw [hc] at hnext hthread hchain <;>
      first | exact hnext | cases hchain
  have hnew : x.continues = new := by
    rw [Section.continues, hcalls, Multiset.erase_cons_head, haccept]
  -- the handler goes on as the one call that has its thread
  have hone : ∀ d extra, new = d ::ₘ extra → d.onThread = true → d.inChain = true →
      (∀ e ∈ extra, e.onThread = false) → d.linesLeft < x.call.linesLeft → x.throws = false →
      Advances x 0 → Ends x := by
    intro d extra he hd hin hextra hlines hthrows hadvances
    rw [he] at hnew
    have hmem : d ∈ x.continues := by
      rw [hnew]
      exact Multiset.mem_cons_self d extra
    refine .goesOn hthrows hadvances ⟨d, hmem, hd⟩ fun e hgoes => ?_
    obtain ⟨hemem, hethread⟩ := hgoes
    rw [hnew] at hemem
    rcases Multiset.mem_cons.mp hemem with rfl | hemem
    · exact ⟨hin, hlines⟩
    · rw [hextra e hemem] at hethread
      cases hethread
  have hsolo : ∀ d, new = {d} → d.onThread = true → d.inChain = true →
      d.linesLeft < x.call.linesLeft → x.throws = false → Advances x 0 → Ends x :=
    fun d he hd hin => hone d 0 he hd hin fun e he => absurd he (Multiset.notMem_zero e)
  have hnone : (∀ d ∈ new, d.onThread = false) → ∀ d ∈ x.continues, d.onThread = false :=
    fun hoff => hnew ▸ hoff
  have hzero : new = 0 → ∀ d ∈ x.continues, d.onThread = false :=
    fun he => hnone fun d hd => absurd (he ▸ hd) (Multiset.notMem_zero d)
  cases hthrows : x.throws with
  | true =>
    obtain ⟨ho, hmay⟩ : x.outcome = .throws ∧ x.call.mayThrow = true := by
      unfold Section.throws at hthrows
      split at hthrows
      · exact ⟨‹_›, hthrows⟩
      · cases hthrows
    rw [ho, acceptNext_throws hmay] at haccept
    obtain ⟨hshared, hempty⟩ := Prod.mk.inj (Option.some.inj haccept)
    exact .threw hthrows (hshared ▸ rfl) (hzero hempty.symm)
  | false =>
  have hgo : acceptNext x.before.shared rest x.call .go = some (x.after.shared, new) := by
    refine acceptNext_go hthread (fun ho => ?_) haccept
    rw [Section.throws, ho] at hthrows
    exact hthrows
  clear hnext hnew hcalls ht hx haccept
  obtain ⟨before, c, o, ⟨after, calls⟩⟩ := x
  simp only at halive hintro hout hcreated hgo hchain hthread
  cases c with
  | handlerAccept sid error =>
    cases error with
    | true =>
      cases hgo
      refine hsolo .startAccept rfl rfl rfl (of_decide_eq_true rfl) hthrows
        (hintro 0 rfl halive ?_ rfl)
      intro i hi
      have hne : i ≠ sid := fun he => hout sid .arriving rfl (by simp) (he ▸ hi)
      exact ⟨(List.mem_erase_of_ne hne).mpr hi, rfl⟩
    | false =>
      simp only [acceptNext] at hgo
      split at hgo <;> cases hgo
      · exact hsolo (.admitted sid) rfl rfl rfl (of_decide_eq_true rfl) hthrows
          (hintro 0 rfl halive (fun i hi => ⟨hi, rfl⟩) rfl)
      · exact hsolo .startAccept rfl rfl rfl (of_decide_eq_true rfl) hthrows
          (hintro 0 rfl halive (fun i hi => ⟨hi, rfl⟩) rfl)
  | admitted sid =>
    cases hgo
    exact hsolo (.counted sid _) rfl rfl rfl (of_decide_eq_true rfl) hthrows
      (hintro 0 rfl halive (fun i hi => ⟨hi, rfl⟩) rfl)
  | counted sid id =>
    cases hgo
    refine hsolo (.starting sid) rfl rfl rfl (of_decide_eq_true rfl) hthrows
      (hintro 0 rfl halive ?_ rfl)
    intro i hi
    have hne : i ≠ sid := fun he => hout sid _ rfl (by simp) (he ▸ hi)
    exact ⟨hi, if_neg hne⟩
  | starting sid =>
    cases hgo
    exact hsolo (.joining sid) rfl rfl rfl (of_decide_eq_true rfl) hthrows
      (hintro 0 rfl halive (fun i hi => ⟨hi, rfl⟩) rfl)
  | joining sid =>
    by_cases hfull : before.shared.maxConn.toNat < before.shared.size
    · simp only [acceptNext, ServerTcp.join, if_pos hfull] at hgo
      cases hgo
      exact hsolo .startAccept rfl rfl rfl (of_decide_eq_true rfl) hthrows
        (hintro 0 rfl halive (fun i hi => ⟨hi, rfl⟩) rfl)
    · simp only [acceptNext, ServerTcp.join, if_neg hfull] at hgo
      cases hgo
      refine hsolo (.joined sid) rfl rfl rfl (of_decide_eq_true rfl) hthrows
        (hintro 0 rfl halive (fun i hi => ?_) rfl)
      exact ⟨List.mem_insert_of_mem hi, rfl⟩
  | joined sid =>
    cases hgo
    refine hone .startAccept {.asyncRead sid .header} (Multiset.cons_swap _ _ _) rfl rfl ?_
      (of_decide_eq_true rfl) hthrows (hintro 0 rfl halive (fun i hi => ⟨hi, rfl⟩) rfl)
    intro d hd
    rw [Multiset.mem_singleton.mp hd]
    rfl
  | startAccept =>
    obtain ⟨accepting, calls, hr, hbegins⟩ := startAccept_spec before.shared
    rw [acceptNext, hr] at hgo
    cases hgo
    refine .rearmed hthrows (hintro 1 rfl halive ?_ ?_) (hnone ?_)
    · exact fun i hi => ⟨hi, if_neg (hcreated i hi).ne⟩
    · cases hbegins <;> rfl
    · intro d hd
      cases hbegins with
      | pending => exact absurd hd (Multiset.notMem_zero d)
      | closed =>
        rw [Multiset.mem_singleton.mp hd]
        rfl
  | _ => cases hchain <;> cases hthread

/-- **An execution** of `handler_accept`, from any of its lines. -/
theorem execution_rearms {maxConn ioThreadNum : UInt32} {c : Call} {xs : List Section}
    (h : Execution maxConn ioThreadNum c xs) (hchain : c.inChain = true)
    (hthread : c.onThread = true) : Rearms xs ↔ ∀ x ∈ xs, x.throws = false := by
  induction h with
  | @ends x hx hends =>
    cases section_ends hx hchain hthread with
    | threw hthrows hterminated =>
      constructor
      · intro hrearms
        have halive := hrearms.caught x List.mem_cons_self
        rw [hterminated] at halive
        cases halive
      · intro hno
        have hnot := hno x List.mem_cons_self
        rw [hthrows] at hnot
        cases hnot
    | rearmed hno hadvances =>
      constructor
      · exact fun _ y hy => List.mem_singleton.mp hy ▸ hno
      · intro _
        constructor
        · exact hadvances.issued
        · exact fun y hy => List.mem_singleton.mp hy ▸ hadvances.caught
        · exact fun y hy => List.mem_singleton.mp hy ▸ hadvances.spares
    | goesOn _ _ hgoes =>
      obtain ⟨d, hd, hdthread⟩ := hgoes
      rw [hends d hd] at hdthread
      cases hdthread
  | @goesOn x d xs hx hd _ ih =>
    cases section_ends hx hchain hthread with
    | threw _ _ hends | rearmed _ _ hends =>
      obtain ⟨hd, hdthread⟩ := hd
      rw [hends d hd] at hdthread
      cases hdthread
    | goesOn hno hadvances _ hin =>
      have hrest := ih (hin d hd).1 hd.2
      constructor
      · intro hrearms y hy
        rcases List.mem_cons.mp hy with rfl | hy
        · exact hno
        · refine hrest.mp ⟨?_, ?_, ?_⟩ y hy
          · have hsum := hrearms.issued
            rw [List.map_cons, List.sum_cons, hadvances.issued, Nat.zero_add] at hsum
            exact hsum
          · exact fun z hz => hrearms.caught z (List.mem_cons_of_mem _ hz)
          · exact fun z hz => hrearms.spares z (List.mem_cons_of_mem _ hz)
      · intro hall
        have hrearms := hrest.mpr fun y hy => hall y (List.mem_cons_of_mem _ hy)
        constructor
        · rw [List.map_cons, List.sum_cons, hadvances.issued, Nat.zero_add]
          exact hrearms.issued
        · intro y hy
          rcases List.mem_cons.mp hy with rfl | hy
          · exact hadvances.caught
          · exact hrearms.caught y hy
        · intro y hy
          rcases List.mem_cons.mp hy with rfl | hy
          · exact hadvances.spares
          · exact hrearms.spares y hy

/-- An execution has no loop. -/
theorem execution_length {maxConn ioThreadNum : UInt32} {c : Call} {xs : List Section}
    (h : Execution maxConn ioThreadNum c xs) (hchain : c.inChain = true)
    (hthread : c.onThread = true) : xs.length ≤ c.linesLeft := by
  induction h with
  | @ends x =>
    cases hc : x.call <;> rw [hc] at hchain hthread <;>
      first | exact of_decide_eq_true rfl | cases hchain <;> cases hthread
  | @goesOn x d xs hx hd _ ih =>
    cases section_ends hx hchain hthread with
    | threw _ _ hends | rearmed _ _ hends =>
      obtain ⟨hd, hdthread⟩ := hd
      rw [hends d hd] at hdthread
      cases hdthread
    | goesOn _ _ _ hin =>
      obtain ⟨hdchain, hlines⟩ := hin d hd
      exact (ih hdchain hd.2).trans_lt hlines

/-- No section waits for another thread. -/
theorem section_enabled {s : State} {c : Call} (halive : s.shared.terminated = false)
    (hc : c ∈ s.calls) (hchain : c.inChain = true) (hthread : c.onThread = true) :
    ∃ t, step s (.run c .go) = some t := by
  obtain ⟨s, calls⟩ := s
  obtain ⟨rest, rfl⟩ := Multiset.exists_cons_of_mem hc
  replace halive : s.terminated = false := halive
  have hgo : ∃ r, acceptNext s rest c .go = some r := by
    cases c with
    | handlerAccept sid error => cases error <;> exact ⟨_, rfl⟩
    | joining sid =>
      by_cases hfull : s.maxConn.toNat < s.size
      · exact ⟨(s.failAssert, {.startAccept}),
          by simp only [acceptNext, ServerTcp.join, if_pos hfull]⟩
      · exact ⟨(s.insert sid, {.joined sid}),
          by simp only [acceptNext, ServerTcp.join, if_neg hfull]⟩
    | admitted | counted | starting | joined | startAccept => exact ⟨_, rfl⟩
    | _ => cases hchain <;> cases hthread
  obtain ⟨⟨s', new⟩, hgo⟩ := hgo
  have hnext : program.next s rest c .go = some (s', new) := by
    simp only [program, halive, Bool.false_eq_true, ↓reduceIte]
    cases c <;> first | exact hgo | cases hchain
  exact ⟨_, Program.run_of_next hnext⟩

/-- **The chain goes on.** Every execution of `handler_accept`, with whatever
the other threads do between its sections, issues exactly one `async_accept`,
throws nothing and leaves the sessions that have joined alone, if and only if
nothing that it calls throws and its assertion does not end the process; it has
seven sections at most, and none of them waits. In every state of every run,
while the process lives, there are as many chains as `start` has begun. -/
theorem accept_rearms (maxConn ioThreadNum : UInt32) :
    (∀ sid error xs, Execution maxConn ioThreadNum (.handlerAccept sid error) xs →
      xs.length ≤ 7 ∧ (Rearms xs ↔ ∀ x ∈ xs, x.throws = false)) ∧
    ∀ s, Reach step always (start maxConn ioThreadNum) s → s.shared.terminated = false →
      chains s = s.shared.starts ∧ ∀ c ∈ s.calls, c.inChain = true → c.onThread = true →
        ∃ t, step s (.run c .go) = some t := by
  refine ⟨fun _ _ _ h => ⟨execution_length h rfl rfl, execution_rearms h rfl rfl⟩, ?_⟩
  exact fun s h halive => ⟨(chainCount_of_reach h).eq halive, fun c => section_enabled halive⟩

/-- The sections of the handler, with no step of another thread in between. -/
def follow (s : State) : List (Call × Outcome) → Option (List Section)
  | [] => none
  | (c, o) :: lines =>
    (step s (.run c o)).bind fun t =>
      let x : Section := ⟨s, c, o, t⟩
      match lines with
      | [] => if ∀ d ∈ x.continues, d.onThread = false then some [x] else none
      | (d, o') :: lines =>
        if d ∈ x.continues ∧ d.onThread = true then
          (follow t ((d, o') :: lines)).map (x :: ·)
        else none

theorem execution_of_follow {maxConn ioThreadNum : UInt32} {s : State}
    (hs : Reach step always (start maxConn ioThreadNum) s) {c : Call} {o : Outcome}
    {lines : List (Call × Outcome)} {xs : List Section}
    (h : follow s ((c, o) :: lines) = some xs) : Execution maxConn ioThreadNum c xs := by
  induction lines generalizing s c o xs with
  | nil =>
    obtain ⟨t, ht, h⟩ := Option.bind_eq_some_iff.mp h
    dsimp only at h
    split at h
    · rename_i hends
      cases h
      exact .ends (x := ⟨s, c, o, t⟩) ⟨hs, ht⟩ hends
    · cases h
  | cons line lines ih =>
    obtain ⟨t, ht, h⟩ := Option.bind_eq_some_iff.mp h
    dsimp only at h
    split at h
    · rename_i hgoes
      obtain ⟨ys, hys, rfl⟩ := Option.map_eq_some_iff.mp h
      exact .goesOn (x := ⟨s, c, o, t⟩) ⟨hs, ht⟩ hgoes (ih (hs.tail trivial ht) hys)
    · cases h

/-- A session is accepted and joins. -/
theorem accept_rearms_join : ∃ xs, xs.length = 7 ∧ Rearms xs := by
  have hrun : (exec step (start 18 1) (listens ++ spawns ++ (joins 0 1).take 2)).bind (fun s =>
      (follow s [(.handlerAccept 0 false, .go), (.admitted 0, .go), (.counted 0 1, .go),
        (.starting 0, .go), (.joining 0, .go), (.joined 0, .go), (.startAccept, .go)]).map
          fun xs => (xs.length, xs.map Section.throws)) =
        some (7, [false, false, false, false, false, false, false]) := by
    decide +kernel
  obtain ⟨s, hs, hrun⟩ := Option.bind_eq_some_iff.mp hrun
  obtain ⟨xs, hxs, hseen⟩ := Option.map_eq_some_iff.mp hrun
  simp only [Prod.mk.injEq] at hseen
  obtain ⟨hlength, hthrows⟩ := hseen
  have hexecution := execution_of_follow (Reach.of_exec _ hs) hxs
  refine ⟨xs, hlength, ((accept_rearms 18 1).1 0 false xs hexecution).2.mpr fun x hx => ?_⟩
  have hmem : x.throws ∈ xs.map Section.throws := List.mem_map_of_mem hx
  rw [hthrows] at hmem
  simpa using hmem

/-- **The peer is gone.** `remote_endpoint` throws on a socket whose peer has
reset the connection: the exception leaves `handler_accept`, and no
`async_accept` is issued. -/
theorem peer_ends_chain : ∃ xs, Execution 18 1 (.handlerAccept 0 false) xs ∧ ¬ Rearms xs := by
  have hrun : (exec step (start 18 1) (listens ++ spawns ++ (joins 0 1).take 2)).bind (fun s =>
      (follow s [(.handlerAccept 0 false, .go), (.admitted 0, .go), (.counted 0 1, .go),
        (.starting 0, .throws)]).map fun xs => (xs.map Section.issued).sum) = some 0 := by
    decide +kernel
  obtain ⟨s, hs, hrun⟩ := Option.bind_eq_some_iff.mp hrun
  obtain ⟨xs, hxs, hsum⟩ := Option.map_eq_some_iff.mp hrun
  refine ⟨xs, execution_of_follow (Reach.of_exec _ hs) hxs, fun hrearms => ?_⟩
  rw [hrearms.issued] at hsum
  cases hsum

end AsioTcp.Server
