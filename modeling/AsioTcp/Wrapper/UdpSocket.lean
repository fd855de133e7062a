import AsioTcp.Wrapper.Dispatch

/-!
# The receiving side of `st_udp_socket_base`

A datagram is a message. One that is empty is taken for an error, after which
nothing is read any more, for which `start` is no help (`udp_silenced`). Only a
connection that is refused or reset does not end the reading, and this only
where `_MSC_VER` is defined.
-/

namespace AsioTcp.Wrapper

open Transition

/-- What `async_receive_from` ends in. -/
inductive RecvResult
  | success
  | connectionRefused
  | connectionReset
  | other
  deriving DecidableEq

namespace UdpSocket

variable (msc force : Bool) (maxMsgNum : Nat)

/-- `connection_refused == ec || connection_reset == ec`, where this is asked -/
def ReadsOn (ec : RecvResult) : Prop :=
  msc = true ∧ (ec = .connectionRefused ∨ ec = .connectionReset)

instance (ec : RecvResult) : Decidable (ReadsOn msc ec) := by
  unfold ReadsOn
  infer_instance

/-- `recv_handler`; `msc` tells if `_MSC_VER` is defined. -/
def recvHandler (s : RecvSide) (ec : RecvResult) (datagram : Msg) : Option RecvSide :=
  if ec = .success ∧ 0 < datagram.length then
    s.step force maxMsgNum (.recvHandler [datagram] true)
  else if ReadsOn msc ec then (s.step force maxMsgNum .recvError).map fun s => s.doStart.2
  else s.step force maxMsgNum .recvError

/-- What happens to the receiving side beside `recv_handler`: `do_start` goes as
in a server socket, and `clean_up` and `reset` come by their parts. -/
def recvAllowed : RecvSide.Action → Bool
  | .recvHandler _ _ => false
  | .recvError => false
  | _ => true

inductive Action
  | recv (a : RecvSide.Action)
  | recvHandler (ec : RecvResult) (datagram : Msg)

def step (s : RecvSide) : Action → Option RecvSide
  | .recv a => if recvAllowed a then s.step force maxMsgNum a else none
  | .recvHandler ec datagram => recvHandler msc force maxMsgNum s ec datagram

/-- The socket is started only where this does nothing, or while nothing is
under way. -/
def Apart (s : RecvSide) : Action → Prop
  | .recv a => s.Apart a
  | .recvHandler _ _ => True

instance (s : RecvSide) (a : Action) : Decidable (Apart s a) := by
  cases a <;> unfold Apart <;> infer_instance

/-- `reset_state` is not called: nobody closes or resets the socket. -/
def Open : RecvSide → Action → Prop
  | _, .recv .resetState => False
  | _, _ => True

instance (s : RecvSide) (a : Action) : Decidable (Open s a) := by
  unfold Open
  split <;> infer_instance

variable {msc force maxMsgNum} {s t : RecvSide}

theorem recvHandler_cases {ec : RecvResult} {datagram : Msg}
    (h : recvHandler msc force maxMsgNum s ec datagram = some t) :
    s.step force maxMsgNum (.recvHandler [datagram] true) = some t ∨
    0 < s.reads ∧ ((ReadsOn msc ec ∧ t = { s with reads := s.reads - 1 }.doStart.2) ∨
      t = { s with reads := s.reads - 1 }) := by
  unfold recvHandler at h
  split at h
  · exact .inl h
  · split at h
    · rename_i hon
      obtain ⟨u, hu, rfl⟩ := Option.map_eq_some_iff.mp h
      obtain ⟨hreads, rfl⟩ := RecvSide.step_recvError hu
      exact .inr ⟨hreads, .inl ⟨hon, rfl⟩⟩
    · obtain ⟨hreads, rfl⟩ := RecvSide.step_recvError h
      exact .inr ⟨hreads, .inr rfl⟩

theorem recvHandler_tokens {ec : RecvResult} {datagram : Msg} (h : s.tokens ≤ 1)
    (hs : recvHandler msc force maxMsgNum s ec datagram = some t) : t.tokens ≤ s.tokens := by
  obtain hmessage | ⟨hreads, hended⟩ := recvHandler_cases hs
  · exact RecvSide.step_tokens (a := .recvHandler [datagram] true) trivial hmessage h
  · have hless : { s with reads := s.reads - 1 }.tokens + 1 = s.tokens := by
      unfold RecvSide.tokens
      simp only
      omega
    obtain ⟨_, rfl⟩ | rfl := hended
    · exact hless ▸ RecvSide.doStart_tokens { s with reads := s.reads - 1 }
    · omega

theorem step_tokens {a : Action} (hok : Apart s a) (hs : step msc force maxMsgNum s a = some t)
    (h : s.tokens ≤ 1) : t.tokens ≤ 1 := by
  cases a with
  | recv a =>
    simp only [step] at hs
    split at hs
    · exact RecvSide.step_turns hok hs h
    · cases hs
  | recvHandler ec datagram => exact Nat.le_trans (recvHandler_tokens h hs) h

theorem reach_tokens (h : Reach (step msc force maxMsgNum) Apart RecvSide.start s) :
    s.tokens ≤ 1 :=
  Reach.invariant (P := fun s => s.tokens ≤ 1) (by decide)
    (fun _ _ _ _ ih hok hs => step_tokens hok hs ih) h

/-- Nothing is under way, and the socket takes itself for started. -/
def Silent (s : RecvSide) : Prop := s.tokens = 0 ∧ s.started = true

theorem recvHandler_started {ec : RecvResult} {datagram : Msg}
    (hs : recvHandler msc force maxMsgNum s ec datagram = some t) : t.started = s.started := by
  obtain hmessage | ⟨_, ⟨_, rfl⟩ | rfl⟩ := recvHandler_cases hs
  · obtain ⟨_, rfl⟩ := RecvSide.step_recvHandler hmessage
    rfl
  · obtain ⟨_, hstart⟩ | ⟨_, hstart⟩ := RecvSide.doStart_cases { s with reads := s.reads - 1 }
    · rw [hstart]
    · rw [hstart]
  · rfl

/-- Only `reset_state` forgets that the socket has been started. -/
theorem step_started {a : RecvSide.Action} (hok : Open s (.recv a))
    (hs : s.step force maxMsgNum a = some t) (h : s.started = true) : t.started = true := by
  cases a with
  | start =>
    cases hs
    rw [RecvSide.startUp, if_pos h]
    exact h
  | resetState => exact hok.elim
  | _ => exact ((RecvSide.step_front hs).2 (by simp) (by simp)).trans h

theorem step_silent {a : Action} (hok : Open s a) (hs : step msc force maxMsgNum s a = some t)
    (h : Silent s) : Silent t := by
  obtain ⟨hnone, hstarted⟩ := h
  have hle : s.tokens ≤ 1 := Nat.le_trans (Nat.le_of_eq hnone) (Nat.zero_le 1)
  cases a with
  | recv a =>
    simp only [step] at hs
    split at hs
    · refine ⟨?_, step_started hok hs hstarted⟩
      cases a with
      | start =>
        cases hs
        rw [RecvSide.startUp, if_pos hstarted]
        exact hnone
      | _ =>
        refine Nat.le_zero.mp (hnone ▸ RecvSide.step_tokens ?_ hs hle)
        trivial
    · cases hs
  | recvHandler ec datagram =>
    exact ⟨Nat.le_zero.mp (hnone ▸ recvHandler_tokens hle hs),
      (recvHandler_started hs).trans hstarted⟩

/-- **Silenced**: after one empty datagram, as after an error other than the two
that are read on after, whatever comes next and however often `start` is called,
no datagram is received any more, until somebody closes or resets the socket. -/
theorem udp_silenced (msc force : Bool) (maxMsgNum : Nat) (s silenced later : RecvSide)
    (ec : RecvResult) (datagram : Msg)
    (h : Reach (step msc force maxMsgNum) Apart RecvSide.start s) (hstarted : s.started = true)
    (hends : ec ≠ .success ∨ datagram = []) (hoff : ¬ ReadsOn msc ec)
    (hended : step msc force maxMsgNum s (.recvHandler ec datagram) = some silenced)
    (hlater : Reach (step msc force maxMsgNum) Open silenced later) :
    later.reads = 0 ∧ later.calls = [] ∧
      ∀ ec datagram, step msc force maxMsgNum later (.recvHandler ec datagram) = none := by
  have hsilent : Silent silenced := by
    have hle := reach_tokens h
    have hnot : ¬ (ec = .success ∧ 0 < datagram.length) := by
      rintro ⟨hsuccess, hpos⟩
      obtain hfails | hempty := hends
      · exact hfails hsuccess
      · rw [hempty] at hpos
        exact Nat.lt_irrefl 0 hpos
    rw [step, recvHandler, if_neg hnot, if_neg hoff] at hended
    obtain ⟨hreads, rfl⟩ := RecvSide.step_recvError hended
    refine ⟨?_, hstarted⟩
    unfold RecvSide.tokens at hle ⊢
    simp only
    omega
  obtain ⟨hnone, _⟩ := Reach.invariant (P := Silent) hsilent
    (fun _ _ _ _ ih hok hs => step_silent hok hs ih) hlater
  unfold RecvSide.tokens at hnone
  have hreads : later.reads = 0 := by omega
  refine ⟨hreads, List.length_eq_zero_iff.mp (by omega), fun ec datagram => ?_⟩
  simp only [step, recvHandler, RecvSide.step, hreads, Nat.lt_irrefl, if_false, Option.map_none,
    ite_self]

/-- A message, an empty datagram, and a call of `start` -/
theorem udp_silenced_started : ∃ later : RecvSide, later.unpacked = [[7]] ∧
    ∀ ec datagram, step true false 1024 later (.recvHandler ec datagram) = none := by
  let acts : List Action := [.recvHandler .success [7], .recv (.onMsg 0 true),
    .recv (.scanEnds 0 false), .recv (.finishes 0)]
  have hrun : (exec (guarded (step true false 1024) Apart) RecvSide.start acts).bind
      (fun s => (step true false 1024 s (.recvHandler .success [])).map fun silenced =>
        (s.started, silenced.unpacked)) = some (true, [[7]]) := by
    decide +kernel
  obtain ⟨s, hs, hseen⟩ := Option.bind_eq_some_iff.mp hrun
  obtain ⟨silenced, hsilenced, hseen⟩ := Option.map_eq_some_iff.mp hseen
  simp only [Prod.mk.injEq] at hseen
  obtain ⟨later, hlater, hsame⟩ : ∃ t, step true false 1024 silenced (.recv .start) = some t ∧
      t.unpacked = silenced.unpacked := by
    obtain ⟨_, _, hstart⟩ := RecvSide.startUp_eq silenced
    exact ⟨_, rfl, by rw [hstart]⟩
  have hall := udp_silenced true false 1024 s silenced later .success []
    (Reach.of_exec_guarded acts hs) hseen.1 (.inr rfl) (by decide) hsilenced
    (.single (a := .recv .start) trivial hlater)
  exact ⟨later, hsame.trans hseen.2, hall.2.2⟩

/-- A connection that is refused, and a message -/
example : (exec (step true false 1024) RecvSide.start
    [.recvHandler .connectionRefused [], .recvHandler .success [7]]).map (·.unpacked) =
      some [[7]] := by
  decide

end UdpSocket

end AsioTcp.Wrapper
