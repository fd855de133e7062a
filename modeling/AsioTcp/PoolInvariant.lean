import AsioTcp.HeldMessages

/-!
# The buffer of the allocator under concurrency

`allocate_msg_buffer` and `dellocate_msg_buffer` look at `conn_msg_buffer_`
under a read lock and again under a write lock, and in between the other
threads do what they like. `pool_sound` says that the buffer and its messages
are nevertheless in order in every state: the second look is enough, and a
message has one owner at a time.
-/

namespace AsioTcp.Manager

open Transition Allocator

def heldPtrs (s : State) : Multiset MsgPtr := (held s).map Ref.ptr

/-- The messages that are held are owned, and a message that waits for the
write lock of `dellocate_msg_buffer` has been found to have no block. -/
structure Owned (s : State) : Prop where
  owns : s.shared.alloc.Owns (heldPtrs s)
  checked : ∀ sid msg, .dellocateRetry sid msg ∈ s.calls →
    ∀ m, s.shared.alloc.objects msg.ptr = some m → m.val.sizeAllocated = 0

/-- The step loses sight of a message: a session is destroyed with messages in
its queue, or `set_body` throws between `allocate_msg_buffer` and `write`. -/
def loses (s : State) : Action → Bool
  | .enter (.destroy sid) => !(s.shared.sessions sid).write.msgQueue.isEmpty
  | .run (.inHand _ msg) (.setBody mem data n) => (s.shared.alloc.setBody mem msg.ptr data n).2
  | _ => false

def NothingLost (s : State) (a : Action) : Prop := loses s a = false

instance (s : State) (a : Action) : Decidable (NothingLost s a) :=
  inferInstanceAs (Decidable (loses s a = false))

theorem mem_held_of_call {s : State} {c : Call} {msg : Ref} (hc : c ∈ s.calls)
    (hmsg : msg ∈ c.holds) : msg ∈ held s :=
  Multiset.mem_add.mpr (Or.inl (Multiset.mem_bind.mpr ⟨c, hc, hmsg⟩))

theorem Owned.held_nodup {s : State} (h : Owned s) : (held s).Nodup :=
  Multiset.Nodup.of_map Ref.ptr (Multiset.nodup_add.mp h.owns.nodup).1

/-- What a step does to the allocator, given what becomes of the messages held. -/
structure OwnedStep (s : State) (a : Action) (t : State) : Prop where
  owns : t.shared.alloc.Owns (heldPtrs t)
  noLeak : NothingLost s a → s.shared.alloc.NoLeak (heldPtrs s) →
    t.shared.alloc.NoLeak (heldPtrs t)
  same : ∀ msg ∈ held s, msg ∈ held t → (∀ task o, a ≠ .run (.inHand task msg) o) →
    t.shared.alloc.objects msg.ptr = s.shared.alloc.objects msg.ptr

/-- The allocator and what is held stay the same. -/
theorem ownedStep_same {s t : State} {a : Action} (h : Owned s)
    (ha : t.shared.alloc = s.shared.alloc) (hheld : held t = held s) : OwnedStep s a t := by
  have hptrs : heldPtrs t = heldPtrs s := congrArg (Multiset.map Ref.ptr) hheld
  refine ⟨?_, fun _ => ?_, fun msg _ _ _ => by rw [ha]⟩
  · rw [ha, hptrs]; exact h.owns
  · rw [ha, hptrs]; exact id

/-- A section of the allocator runs. -/
theorem ownedStep_passes {s t : State} {a : Action}
    (h : Passes s.shared.alloc (heldPtrs s) t.shared.alloc (heldPtrs t)) : OwnedStep s a t :=
  ⟨h.owns, fun _ => h.noLeak, fun _ hs ht _ =>
    h.same _ (Multiset.mem_map_of_mem Ref.ptr hs) (Multiset.mem_map_of_mem Ref.ptr ht)⟩

theorem ownedStep_destroy {s : State} (hs : Sane s) (h : Owned s) {sid : Nat}
    (halive : (s.shared.sessions sid).alive = true) :
    OwnedStep s (.enter (.destroy sid))
      ⟨s.shared.update sid (Session.withAlive false), s.calls⟩ := by
  have hsplit := held_destroy hs halive
  refine ⟨?_, fun hlost hleak => ?_, fun _ _ _ _ => rfl⟩
  · refine h.owns.mono (Multiset.map_le_map ?_)
    rw [hsplit]
    exact Multiset.le_add_left _ _
  · have hempty : (s.shared.sessions sid).waiting = [] := by
      have hq : (s.shared.sessions sid).write.msgQueue = [] := by
        simpa [NothingLost, loses] using hlost
      simp [Session.waiting, hq]
    rw [hempty, Multiset.coe_nil, Multiset.zero_add] at hsplit
    rw [heldPtrs, ← hsplit]
    exact hleak

/-- A call keeps its message, unless `set_body` has thrown. -/
theorem held_kept {s : State} {c : Call} {rest : Multiset Call} (hs : s.calls = c ::ₘ rest)
    (a : Allocator) (threw : Bool) :
    held ⟨s.shared.setAlloc a, (if threw then 0 else {c}) + rest⟩ ≤ held s ∧
      (threw = false → held ⟨s.shared.setAlloc a, (if threw then 0 else {c}) + rest⟩ = held s) := by
  cases threw with
  | false =>
    have hheld : held ⟨s.shared.setAlloc a, {c} + rest⟩ = held s := by
      rw [Multiset.singleton_add]
      exact held_same hs rfl a
    exact ⟨hheld.le, fun _ => hheld⟩
  | true =>
    refine ⟨?_, fun h => Bool.noConfusion h⟩
    rw [held_cons hs, if_pos rfl, held_add]
    exact add_le_add_left (Multiset.zero_le _) _

theorem ownedStep_setBody {s : State} (h : Owned s) {task : Task} {msg : Ref} {mem : Memory}
    {data : List BYTE} {n : SizeT} {rest : Multiset Call}
    (hs : s.calls = .inHand task msg ::ₘ rest) :
    OwnedStep s (.run (.inHand task msg) (.setBody mem data n))
      ⟨s.shared.setAlloc (s.shared.alloc.setBody mem msg.ptr data n).1,
        (if (s.shared.alloc.setBody mem msg.ptr data n).2 then 0 else {.inHand task msg}) +
          rest⟩ := by
  have hcall : Call.inHand task msg ∈ s.calls := by
    rw [hs]
    exact Multiset.mem_cons_self _ rest
  have hmem : msg ∈ held s := mem_held_of_call hcall (Multiset.mem_singleton_self msg)
  obtain ⟨hown, hleak⟩ := owns_setBody h.owns (Multiset.mem_map_of_mem Ref.ptr hmem) mem data n
  obtain ⟨hle, heq⟩ := held_kept hs (s.shared.alloc.setBody mem msg.ptr data n).1
    (s.shared.alloc.setBody mem msg.ptr data n).2
  refine ⟨hown.mono (Multiset.map_le_map hle), fun hlost => ?_, fun m hm _ hne => ?_⟩
  · have hptrs := congrArg (Multiset.map Ref.ptr) (heq hlost)
    exact fun hall => (congrArg (NoLeak _) hptrs).mpr (hleak hall)
  · refine setBody_other (fun hptr => ?_) mem data n
    obtain rfl : m = msg := Multiset.inj_on_of_nodup_map
      (Multiset.nodup_add.mp h.owns.nodup).1 m hm msg hmem hptr
    exact hne task (.setBody mem data n) rfl

/-- A call gives back the message that it holds. -/
theorem heldPtrs_given_back {s : State} {c d : Call} {msg : Ref} {rest : Multiset Call}
    (hs : s.calls = c ::ₘ rest) (hc : c.holds = {msg}) (hd : d.holds = 0) (a : Allocator) :
    heldPtrs s = msg.ptr ::ₘ heldPtrs ⟨s.shared.setAlloc a, d ::ₘ rest⟩ := by
  rw [heldPtrs, held_given_back hs hc hd a, Multiset.map_cons]
  rfl

/-- The read-locked section of `dellocate_msg_buffer`, for the message of a call. -/
theorem taken_of_call {s : State} (h : Owned s) {sid : Nat} {msg : Ref} {rest : Multiset Call}
    (hs : s.calls = .dellocate sid msg ::ₘ rest) (alloc : Allocator) :
    Taken s.shared.alloc msg.ptr (heldPtrs ⟨s.shared.setAlloc alloc, .dellocated sid msg ::ₘ rest⟩)
      (s.shared.alloc.dellocateRead msg.ptr) := by
  have hown := h.owns
  rw [heldPtrs_given_back (d := .dellocated sid msg) hs rfl rfl alloc] at hown
  exact taken_dellocateRead hown

theorem ownedStep_taken {s : State} (h : Owned s) {a : Action} {sid : Nat} {msg : Ref}
    {alloc : Allocator} {rest : Multiset Call} (hs : s.calls = .dellocate sid msg ::ₘ rest)
    (hr : s.shared.alloc.dellocateRead msg.ptr = (alloc, false)) :
    OwnedStep s a ⟨s.shared.setAlloc alloc, .dellocated sid msg ::ₘ rest⟩ := by
  have htaken := taken_of_call h hs alloc
  rw [hr] at htaken
  apply ownedStep_passes
  rw [heldPtrs_given_back (d := .dellocated sid msg) hs rfl rfl alloc]
  exact htaken

theorem ownedStep_retry {s : State} (h : Owned s) {a : Action} {sid : Nat} {msg : Ref}
    {alloc : Allocator} {rest : Multiset Call} (hs : s.calls = .dellocate sid msg ::ₘ rest)
    (hr : s.shared.alloc.dellocateRead msg.ptr = (alloc, true)) :
    OwnedStep s a ⟨s.shared.setAlloc alloc, .dellocateRetry sid msg ::ₘ rest⟩ := by
  have htaken := taken_of_call h hs alloc
  rw [hr] at htaken
  exact ownedStep_same h htaken.1 (held_same (d := .dellocateRetry sid msg) hs rfl alloc)

theorem ownedStep_stored {s : State} (h : Owned s) {a : Action} {sid : Nat} {msg : Ref}
    {rest : Multiset Call} (hs : s.calls = .dellocateRetry sid msg ::ₘ rest) :
    OwnedStep s a
      ⟨s.shared.setAlloc (s.shared.alloc.dellocateWrite msg.ptr), .dellocated sid msg ::ₘ rest⟩ := by
  have hheld := heldPtrs_given_back (d := .dellocated sid msg) hs rfl rfl
    (s.shared.alloc.dellocateWrite msg.ptr)
  have hown := h.owns
  rw [hheld] at hown
  have hcall : Call.dellocateRetry sid msg ∈ s.calls := by
    rw [hs]
    exact Multiset.mem_cons_self _ rest
  apply ownedStep_passes
  rw [hheld]
  exact passes_dellocateWrite hown (h.checked sid msg hcall)

/-- A message that is handed out is held by the call that asked for it. -/
theorem held_handOut {s : State} {c : Call} {rest : Multiset Call} (hs : s.calls = c ::ₘ rest)
    (hc : c.holds = 0) (task : Task) (header : HDR) (alloc : Allocator) (p : MsgPtr) :
    held ⟨(handOut s.shared task header (alloc, .got p)).1,
        (handOut s.shared task header (alloc, .got p)).2 + rest⟩ =
      ⟨p, s.shared.serial⟩ ::ₘ held s := by
  rw [held_cons hs, hc, Multiset.zero_add, ← Multiset.singleton_add]
  exact held_mk _ (.inHand task ⟨p, s.shared.serial⟩) rest

theorem ownedStep_given {s : State} (h : Owned s) {a : Action} {c : Call} {task : Task}
    {header : HDR} {r : Allocator × Allocated} {rest : Multiset Call}
    (hs : s.calls = c ::ₘ rest) (hc : c.holds = 0)
    (hr : Handed s.shared.alloc (heldPtrs s) r) :
    OwnedStep s a ⟨(handOut s.shared task header r).1,
      (handOut s.shared task header r).2 + rest⟩ := by
  have hkept : held s = 0 + (rest.bind Call.holds + s.shared.queued) := by
    rw [held_cons hs, hc]
  obtain ⟨alloc, result⟩ := r
  cases result with
  | got p =>
    apply ownedStep_passes
    have hptrs := congrArg (Multiset.map Ref.ptr) (held_handOut hs hc task header alloc p)
    rw [Multiset.map_cons] at hptrs
    rw [heldPtrs, heldPtrs, hptrs]
    exact hr
  | retry => exact ownedStep_same h hr ((held_mk _ (.allocateRetry task header) rest).trans hkept.symm)
  | badAlloc => exact ownedStep_same h hr ((held_add _ 0 rest).trans hkept.symm)

/-- What the allocator does to the messages at any step. -/
theorem ownedStep_of_effect {s t : State} {a : Action} (hs : Sane s) (h : Owned s)
    (he : Effect s a t) : OwnedStep s a t := by
  cases he with
  | quiet hq hcalls hp => exact ownedStep_same h hq.alloc (held_quiet hq hcalls hp)
  | create => exact ownedStep_same h rfl (held_create hs)
  | clear => exact ownedStep_passes (passes_clearBuffer h.owns)
  | destroy halive _ => exact ownedStep_destroy hs h halive
  | chain hcalls _ _ hbody => exact ownedStep_same h rfl (held_chain hcalls _ hbody)
  | chainLeave hcalls => exact ownedStep_same h rfl (held_leave hcalls)
  | lock hcalls hfree hq => exact ownedStep_same h rfl (held_lock hs hcalls hfree hq)
  | taken hcalls hr => exact ownedStep_taken h hcalls hr
  | retry hcalls hr => exact ownedStep_retry h hcalls hr
  | stored hcalls => exact ownedStep_stored h hcalls
  | popped hcalls => exact ownedStep_same h rfl (held_pop hs hcalls)
  | given hcalls hr =>
    rcases hr with ⟨rfl, rfl⟩ | ⟨rfl, rfl⟩
    · exact ownedStep_given h hcalls rfl (handed_allocateRead h.owns _ _)
    · exact ownedStep_given h hcalls rfl (handed_allocateWrite h.owns _ _)
  | setBody hcalls => exact ownedStep_setBody h hcalls
  | pushed hcalls _ halive hfree => exact ownedStep_same h rfl (held_push hs hcalls halive hfree)

/-- Two calls do not hold the same message. -/
theorem held_once {s : State} (h : (held s).Nodup) {c d : Call} (hc : c ∈ s.calls)
    (hd : d ∈ s.calls) (hne : d ≠ c) {msg : Ref} (hmsg : msg ∈ c.holds) : msg ∉ d.holds := by
  obtain ⟨rest, hs⟩ := Multiset.exists_cons_of_mem hc
  rw [held_cons hs] at h
  have hrest : d ∈ rest := by
    rw [hs] at hd
    exact (Multiset.mem_cons.mp hd).resolve_left hne
  intro hmem
  exact Multiset.disjoint_left.mp (Multiset.nodup_add.mp h).2.2 hmsg
    (Multiset.mem_add.mpr (Or.inl (Multiset.mem_bind.mpr ⟨d, hrest, hmem⟩)))

/-- A call that waits for the write lock of `dellocate_msg_buffer` has been
there before, or has just found that its message has no block. -/
theorem dellocateRetry_of_effect {s t : State} {a : Action} (he : Effect s a t) {sid : Nat}
    {msg : Ref} (hc : .dellocateRetry sid msg ∈ t.calls) :
    .dellocateRetry sid msg ∈ s.calls ∨ ∃ rest, s.calls = .dellocate sid msg ::ₘ rest ∧
      t.shared.alloc = (s.shared.alloc.dellocateRead msg.ptr).1 ∧
      (s.shared.alloc.dellocateRead msg.ptr).2 = true := by
  cases he with
  | @quiet a s' old new rest _ hs hp =>
    rcases Multiset.mem_add.mp hc with hc | hc
    · exact absurd (hp.after _ hc).1 Bool.false_ne_true
    · exact Or.inl (hs ▸ Multiset.mem_add.mpr (Or.inr hc))
  | create => exact Or.inl ((Multiset.mem_cons.mp hc).resolve_left (by simp))
  | clear => exact Or.inl hc
  | destroy => exact Or.inl hc
  | chain hs =>
    rcases Multiset.mem_add.mp hc with hc | hc
    · rcases mem_chainCalls hc with ⟨e, he⟩ | hc
      · cases he
      · exact absurd (resumed_plain hc) Bool.false_ne_true
    · exact Or.inl (hs ▸ Multiset.mem_cons_of_mem hc)
  | chainLeave hs => exact Or.inl (hs ▸ Multiset.mem_cons_of_mem hc)
  | lock hs | taken hs | stored hs | popped hs | pushed hs =>
    refine Or.inl (hs ▸ Multiset.mem_cons_of_mem ?_)
    exact (Multiset.mem_cons.mp hc).resolve_left (by simp)
  | @retry sid' msg' o alloc rest hs hr =>
    rcases Multiset.mem_cons.mp hc with he | hc
    · cases he
      exact Or.inr ⟨rest, hs, by rw [hr]; rfl, by rw [hr]⟩
    · exact Or.inl (hs ▸ Multiset.mem_cons_of_mem hc)
  | @given c task header mem r rest hs hr =>
    rcases Multiset.mem_add.mp hc with hc | hc
    · obtain ⟨alloc, result⟩ := r
      cases result <;> simp [handOut] at hc
    · exact Or.inl (hs ▸ Multiset.mem_cons_of_mem hc)
  | setBody hs =>
    rcases Multiset.mem_add.mp hc with hc | hc
    · split at hc <;> simp at hc
    · exact Or.inl (hs ▸ Multiset.mem_cons_of_mem hc)

theorem owned_start : Owned start where
  owns := owns_init
  checked _ _ hc := absurd hc (Multiset.notMem_zero _)

theorem owned_step {s t : State} {a : Action} (hs : Sane s) (h : Owned s)
    (hstep : step s a = some t) : Owned t := by
  have he := effect_of_step hstep
  have hown := ownedStep_of_effect hs h he
  refine ⟨hown.owns, fun sid msg hc m hm => ?_⟩
  rcases dellocateRetry_of_effect he hc with hold | ⟨rest, hcalls, halloc, hretry⟩
  · -- the others leave the message alone while the call waits
    apply h.checked sid msg hold m
    rw [← hm]
    refine (hown.same msg (mem_held_of_call hold (Multiset.mem_singleton_self msg))
      (mem_held_of_call hc (Multiset.mem_singleton_self msg)) fun task o ha => ?_).symm
    subst ha
    obtain ⟨rest, _, hcalls, _⟩ := Interleaving.Program.step_run hstep
    have hhand : Call.inHand task msg ∈ s.calls := hcalls ▸ Multiset.mem_cons_self _ rest
    exact held_once h.held_nodup hold hhand (by simp) (Multiset.mem_singleton_self msg)
      (Multiset.mem_singleton_self msg)
  · have htaken := taken_of_call h hcalls s.shared.alloc
    have hpair : s.shared.alloc.dellocateRead msg.ptr = (t.shared.alloc, true) :=
      Prod.ext halloc.symm hretry
    rw [hpair] at htaken
    exact htaken.2 m (htaken.1 ▸ hm)

theorem owned_of_reach {ok : State → Action → Prop} {s : State} (h : Reach step ok start s) :
    Owned s :=
  h.invariant owned_start fun _ _ _ hr hs _ hstep => owned_step (sane_of_reach hr) hs hstep

/-! ## Given back once -/

/-- The call is giving this message back to the allocator. -/
def Call.givesBack : Call → Option Ref
  | .dellocate _ msg | .dellocateRetry _ msg => some msg
  | _ => none

/-- The books of the messages given out: of those that are held only the ones
being given back have been passed to `dellocate_msg_buffer`. -/
structure Ledger (s : State) : Prop where
  heldSerial : ∀ msg ∈ held s, msg.serial < s.shared.serial
  deadSerial : ∀ msg ∈ s.shared.dead, msg.serial < s.shared.serial
  giving : ∀ msg ∈ held s, msg ∈ s.shared.dead → ∃ c ∈ s.calls, c.givesBack = some msg
  once : s.shared.dead.Nodup

/-- A message goes on being given back for as long as it is held. -/
def GivesOn (s t : State) : Prop :=
  ∀ c ∈ s.calls, ∀ msg, c.givesBack = some msg → msg ∈ held t →
    ∃ d ∈ t.calls, d.givesBack = some msg

theorem givesBack_plain {c : Call} (hc : c.plain = true) : c.givesBack = none := by
  cases c <;> first | rfl | cases hc

theorem mem_holds_of_givesBack {c : Call} {msg : Ref} (h : c.givesBack = some msg) :
    msg ∈ c.holds := by
  cases c <;> cases h <;> exact Multiset.mem_singleton_self msg

/-- It is enough to look at the call that runs. -/
theorem givesOn_run {s t : State} {c : Call} {rest : Multiset Call} (hs : s.calls = c ::ₘ rest)
    (hrest : ∀ d ∈ rest, d ∈ t.calls)
    (hc : ∀ msg, c.givesBack = some msg → msg ∈ held t → ∃ d ∈ t.calls, d.givesBack = some msg) :
    GivesOn s t := by
  intro d hd msg hmsg hmem
  rw [hs] at hd
  rcases Multiset.mem_cons.mp hd with rfl | hd
  · exact hc msg hmsg hmem
  · exact ⟨d, hrest d hd, hmsg⟩

/-- A call that has given its message back does not hold it any more. -/
theorem givesOn_done {s : State} (h : (held s).Nodup) {c d : Call} {msg : Ref}
    {rest : Multiset Call} (hs : s.calls = c ::ₘ rest) (hc : c.givesBack = some msg)
    (hholds : c.holds = {msg}) (hd : d.holds = 0) (a : Allocator) :
    GivesOn s ⟨s.shared.setAlloc a, d ::ₘ rest⟩ := by
  refine givesOn_run hs (fun e he => Multiset.mem_cons_of_mem he) fun msg' hmsg' hmem => ?_
  obtain rfl : msg = msg' := Option.some.inj (hc.symm.trans hmsg')
  rw [held_given_back hs hholds hd a] at h
  exact absurd hmem (Multiset.nodup_cons.mp h).1

theorem ledger_keep {s t : State} (h : Ledger s) (hserial : t.shared.serial = s.shared.serial)
    (hdead : t.shared.dead = s.shared.dead) (hle : held t ≤ held s) (hgives : GivesOn s t) :
    Ledger t := by
  refine ⟨fun msg hmsg => ?_, fun msg hmsg => ?_, fun msg hmsg hd => ?_, hdead ▸ h.once⟩
  · rw [hserial]
    exact h.heldSerial msg (Multiset.mem_of_le hle hmsg)
  · rw [hserial]
    exact h.deadSerial msg (hdead ▸ hmsg)
  · obtain ⟨c, hc, hmsg'⟩ := h.giving msg (Multiset.mem_of_le hle hmsg) (hdead ▸ hd)
    exact hgives c hc msg hmsg' hmsg

/-- A message that waits in the queue of a session is not being given back. -/
theorem Ledger.queued_alive {s : State} (hs : Sane s) (hn : (held s).Nodup) (h : Ledger s)
    {sid : Nat} (halive : (s.shared.sessions sid).alive = true) {msg : Ref}
    (hmsg : msg ∈ (s.shared.sessions sid).waiting) : msg ∉ s.shared.dead := by
  intro hdead
  have hqueued : msg ∈ s.shared.queued := by
    rw [queued_split (hs.created sid halive)]
    exact Multiset.mem_add.mpr (Or.inl hmsg)
  obtain ⟨c, hc, hgives⟩ := h.giving msg (Multiset.mem_add.mpr (Or.inr hqueued)) hdead
  have hcall : msg ∈ s.calls.bind Call.holds :=
    Multiset.mem_bind.mpr ⟨c, hc, mem_holds_of_givesBack hgives⟩
  exact Multiset.disjoint_left.mp (Multiset.nodup_add.mp hn).2.2 hcall hqueued

theorem ledger_lock {s : State} (hs : Sane s) (hn : (held s).Nodup) (h : Ledger s) {sid : Nat}
    {task : Option Task} {msg : Ref} {q : List Ref} {rest : Multiset Call}
    (hcalls : s.calls = .chain sid (.handler .body false) task ::ₘ rest)
    (hfree : (s.shared.sessions sid).locked = false)
    (hq : (s.shared.sessions sid).write.msgQueue = msg :: q) :
    Ledger ⟨s.shared.lock sid msg, .dellocate sid msg ::ₘ rest⟩ := by
  have halive := hs.alive_of_call hcalls rfl
  have hheld := held_lock hs hcalls hfree hq
  have hwaiting : msg ∈ (s.shared.sessions sid).waiting := by
    simp [Session.waiting, halive, hfree, hq]
  have hfront : msg ∈ held s := by
    rw [← hheld, held_mk]
    exact Multiset.mem_add.mpr (Or.inl (Multiset.mem_singleton_self msg))
  refine ⟨fun m hm => h.heldSerial m (hheld ▸ hm), fun m hm => ?_, fun m hm hd => ?_, ?_⟩
  · rcases List.mem_cons.mp hm with rfl | hm
    · exact h.heldSerial m hfront
    · exact h.deadSerial m hm
  · rcases List.mem_cons.mp hd with rfl | hd
    · exact ⟨.dellocate sid m, Multiset.mem_cons_self _ rest, rfl⟩
    · have hgives : GivesOn s ⟨s.shared.lock sid msg, .dellocate sid msg ::ₘ rest⟩ :=
        givesOn_run hcalls (fun d hd => Multiset.mem_cons_of_mem hd) fun _ hno => by cases hno
      obtain ⟨c, hc, hcm⟩ := h.giving m (hheld ▸ hm) hd
      exact hgives c hc m hcm hm
  · exact List.nodup_cons.mpr ⟨h.queued_alive hs hn halive hwaiting, h.once⟩

theorem ledger_given {s : State} (h : Ledger s) {c : Call} {task : Task} {header : HDR}
    {r : Allocator × Allocated} {rest : Multiset Call} (hs : s.calls = c ::ₘ rest)
    (hc : c.holds = 0) (hgives : c.givesBack = none) :
    Ledger ⟨(handOut s.shared task header r).1, (handOut s.shared task header r).2 + rest⟩ := by
  have hkept : held s = 0 + (rest.bind Call.holds + s.shared.queued) := by
    rw [held_cons hs, hc]
  have hrun : GivesOn s ⟨(handOut s.shared task header r).1,
      (handOut s.shared task header r).2 + rest⟩ :=
    givesOn_run hs (fun d hd => Multiset.mem_add.mpr (Or.inr hd)) fun msg hmsg => by
      rw [hgives] at hmsg
      cases hmsg
  obtain ⟨alloc, result⟩ := r
  cases result with
  | retry =>
    exact ledger_keep h rfl rfl
      ((held_mk _ (.allocateRetry task header) rest).trans hkept.symm).le hrun
  | badAlloc => exact ledger_keep h rfl rfl ((held_add _ 0 rest).trans hkept.symm).le hrun
  | got p =>
    have hheld := held_handOut hs hc task header alloc p
    refine ⟨fun m hm => ?_, fun m hm => Nat.lt_succ_of_lt (h.deadSerial m hm), fun m hm hd => ?_, h.once⟩
    · rw [hheld] at hm
      rcases Multiset.mem_cons.mp hm with rfl | hm
      · exact Nat.lt_succ_self _
      · exact Nat.lt_succ_of_lt (h.heldSerial m hm)
    · have hne : m ≠ ⟨p, s.shared.serial⟩ := by
        rintro rfl
        exact Nat.lt_irrefl _ (h.deadSerial _ hd)
      have hold : m ∈ held s := by
        have hm' := hm
        rw [hheld] at hm'
        exact (Multiset.mem_cons.mp hm').resolve_left hne
      obtain ⟨d, hcall, hdm⟩ := h.giving m hold hd
      exact hrun d hcall m hdm hm

theorem ledger_start : Ledger start where
  heldSerial _ hm := absurd hm (Multiset.notMem_zero _)
  deadSerial _ hm := by cases hm
  giving _ hm := absurd hm (Multiset.notMem_zero _)
  once := List.nodup_nil

/-- A call that gives nothing back runs, and nothing is given out. -/
theorem ledger_run {s t : State} (h : Ledger s) {c : Call} {rest : Multiset Call}
    (hcalls : s.calls = c ::ₘ rest) (hgives : c.givesBack = none)
    (hrest : ∀ d ∈ rest, d ∈ t.calls) (hserial : t.shared.serial = s.shared.serial)
    (hdead : t.shared.dead = s.shared.dead) (hle : held t ≤ held s) : Ledger t := by
  refine ledger_keep h hserial hdead hle (givesOn_run hcalls hrest fun msg hmsg => ?_)
  rw [hgives] at hmsg
  cases hmsg

theorem ledger_effect {s t : State} {a : Action} (hs : Sane s) (hn : (held s).Nodup)
    (h : Ledger s) (he : Effect s a t) : Ledger t := by
  cases he with
  | quiet hq hcalls hp =>
    apply ledger_keep h hq.serial hq.dead (held_quiet hq hcalls hp).le
    intro c hc msg hmsg _
    rw [hcalls] at hc
    rcases Multiset.mem_add.mp hc with hold | hrest
    · rw [givesBack_plain (hp.before c hold)] at hmsg
      cases hmsg
    · exact ⟨c, Multiset.mem_add.mpr (Or.inr hrest), hmsg⟩
  | create =>
    exact ledger_keep h rfl rfl (held_create hs).le
      fun c hc msg hmsg _ => ⟨c, Multiset.mem_cons_of_mem hc, hmsg⟩
  | clear => exact ledger_keep h rfl rfl le_rfl fun c hc msg hmsg _ => ⟨c, hc, hmsg⟩
  | destroy halive _ =>
    refine ledger_keep h rfl rfl ?_ fun c hc msg hmsg _ => ⟨c, hc, hmsg⟩
    rw [held_destroy hs halive]
    exact Multiset.le_add_left _ _
  | chain hcalls _ _ hbody =>
    exact ledger_run h hcalls rfl (fun d hd => Multiset.mem_add.mpr (Or.inr hd)) rfl rfl
      (held_chain hcalls _ hbody).le
  | chainLeave hcalls =>
    exact ledger_run h hcalls rfl (fun d hd => hd) rfl rfl (held_leave hcalls).le
  | lock hcalls hfree hq => exact ledger_lock hs hn h hcalls hfree hq
  | @taken sid msg o alloc rest hcalls hr =>
    refine ledger_keep h rfl rfl ?_ (givesOn_done hn hcalls rfl rfl rfl alloc)
    rw [held_given_back (d := .dellocated sid msg) hcalls rfl rfl alloc]
    exact Multiset.le_cons_self _ _
  | @stored sid msg o rest hcalls =>
    refine ledger_keep h rfl rfl ?_ (givesOn_done hn hcalls rfl rfl rfl _)
    rw [held_given_back (d := .dellocated sid msg) hcalls rfl rfl
      (s.shared.alloc.dellocateWrite msg.ptr)]
    exact Multiset.le_cons_self _ _
  | @retry sid msg o alloc rest hcalls hr =>
    have hheld := held_same (d := .dellocateRetry sid msg) hcalls rfl alloc
    refine ledger_keep h rfl rfl hheld.le ?_
    refine givesOn_run hcalls (fun d hd => Multiset.mem_cons_of_mem hd) fun msg' hmsg' _ => ?_
    exact ⟨.dellocateRetry sid msg, Multiset.mem_cons_self _ rest, hmsg'⟩
  | popped hcalls =>
    exact ledger_run h hcalls rfl (fun d hd => Multiset.mem_cons_of_mem hd) rfl rfl
      (held_pop hs hcalls).le
  | given hcalls hr =>
    rcases hr with ⟨rfl, rfl⟩ | ⟨rfl, rfl⟩ <;> exact ledger_given h hcalls rfl rfl
  | setBody hcalls =>
    exact ledger_run h hcalls rfl (fun d hd => Multiset.mem_add.mpr (Or.inr hd)) rfl rfl
      (held_kept hcalls _ _).1
  | pushed hcalls _ halive hfree =>
    exact ledger_run h hcalls rfl (fun d hd => Multiset.mem_cons_of_mem hd) rfl rfl
      (held_push hs hcalls halive hfree).le

theorem ledger_of_reach {ok : State → Action → Prop} {s : State} (h : Reach step ok start s) :
    Ledger s :=
  h.invariant ledger_start fun _ _ _ hr hs _ hstep =>
    ledger_effect (sane_of_reach hr) (owned_of_reach hr).held_nodup hs (effect_of_step hstep)

/-! ## The buffer is in order -/

/-- The buffer fits its capacity and was never pushed full or popped empty; a
message is at most once in the buffer, in the queues and in the calls; nothing
was given back twice; what is in the buffer has no block of its own. -/
structure PoolSound (s : State) : Prop where
  fits : s.shared.alloc.connMsgBuffer.items.length ≤ s.shared.alloc.connMsgBuffer.capacity
  proper : s.shared.alloc.misused = false
  unique : (heldPtrs s + ↑s.shared.alloc.connMsgBuffer.items).Nodup
  once : s.shared.dead.Nodup
  inline : ∀ p ∈ s.shared.alloc.connMsgBuffer.items,
    ∃ m, s.shared.alloc.objects p = some m ∧ m.val.sizeAllocated = 0

/-- **The buffer under concurrency** is in order in every state that any
interleaving can reach. -/
theorem pool_sound (s : State) (h : Reach step always start s) : PoolSound s := by
  have hown := (owned_of_reach h).owns
  refine ⟨s.shared.alloc.connMsgBuffer.fits, hown.proper, hown.nodup, (ledger_of_reach h).once, ?_⟩
  intro p hp
  obtain ⟨m, hm⟩ := Option.isSome_iff_exists.mp
    (hown.live p (Multiset.mem_add.mpr (Or.inr hp)))
  exact ⟨m, hm, hown.inline p hp m hm⟩

/-- A session is created, joins and starts to read. -/
def connects (sid : Nat) : List Action :=
  [.enter .create, .run (.accepting sid) .go, .run (.starting sid) .go]

/-- A caller from outside is given the message `msg`, fills it with one byte
and passes it to `write` of the session. -/
def sends (sid : Nat) (header : HDR) (msg : Ref) : List Action :=
  [.enter (.application header), .run (.allocate .application header) (.memory .unlimited),
    .run (.inHand .application msg) (.setBody .unlimited [1] 1),
    .run (.inHand .application msg) (.write sid)]

/-- The `write` that has found the queue empty starts the chain. -/
def startsWrite (sid : Nat) (msg : Ref) : List Action :=
  [.run (.chain sid (.writeOnEmpty msg) (some .application)) .go,
    .run (.chain sid (.doWrite .write) (some .application)) .go]

/-- Both writes of the message succeed, and `handler_write_body` takes the lock. -/
def completes (sid : Nat) (msg : Ref) : List Action :=
  [.run (.chain sid (.asyncWrite ⟨.header, msg⟩) none) .go,
    .run (.chain sid (.handler .header false) none) .go,
    .run (.chain sid (.asyncWrite ⟨.body, msg⟩) none) .go,
    .run (.chain sid (.handler .body false) none) .go]

/-- The message goes to the buffer and is popped, and `do_write` is called. -/
def givesBack (sid : Nat) (msg : Ref) : List Action :=
  [.run (.dellocate sid msg) .go, .run (.dellocateRetry sid msg) .go,
    .run (.dellocated sid msg) .go, .run (.chain sid (.doWrite .handlerWriteBody) none) .go]

/-- One message in the buffer, and two threads that have both seen it there:
the second one finds the buffer empty under the write lock. -/
theorem pool_sound_stale : ∃ s : State, heldPtrs s = {0, 2} ∧
    s.shared.alloc.connMsgBuffer.items = [] ∧ PoolSound s := by
  let header : HDR := ⟨1, 0, 0, 0, 0, 0⟩
  let acts : List Action := connects 0 ++ sends 0 header ⟨0, 0⟩ ++
    startsWrite 0 ⟨0, 0⟩ ++ completes 0 ⟨0, 0⟩ ++ givesBack 0 ⟨0, 0⟩ ++
    [.enter (.application header), .enter (.application header),
      .run (.allocate .application header) (.memory .unlimited),
      .run (.allocate .application header) (.memory .unlimited),
      .run (.allocateRetry .application header) (.memory .unlimited),
      .run (.allocateRetry .application header) (.memory .unlimited)]
  have hrun : (exec step start acts).map (fun s =>
      (heldPtrs s, s.shared.alloc.connMsgBuffer.items)) = some ({0, 2}, []) := by
    decide +kernel
  obtain ⟨s, hs, hseen⟩ := Option.map_eq_some_iff.mp hrun
  obtain ⟨hheld, hitems⟩ := Prod.mk.inj hseen
  exact ⟨s, hheld, hitems, pool_sound s (Reach.of_exec acts hs)⟩

end AsioTcp.Manager
