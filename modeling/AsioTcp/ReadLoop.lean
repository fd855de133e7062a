import AsioTcp.ConnectionMgr
import AsioTcp.Lib.Framing

/-!
# The read loop of a session

`do_read`, `handler_read_header`, `handler_read_body` and `ProcessMsg` decode
the bytes of the peer, which arrive cut into segments in any way and end
anywhere. Between two steps of the loop the other threads may do what they
like, but to `header_` and `buf_`, which the loop has for itself. `Stage` is
the invariant: at each point of the loop, the messages handed on so far and the
frames that are still to come are the complete frames of the whole stream.
`read_loop_sound` draws the conclusions, `finishes` among them: left alone, the
loop comes to its end from every state it can reach.
-/

namespace AsioTcp.ReadLoop

open Transition Framing ConnectionMgr SerialWrite

/-- Frames as the handlers see them. -/
def format : Format BYTE where
  headerSize := headerSize
  headerSize_pos := by decide
  bodySize header := (HDR.ofBytes header).len.toNat

/-- The length and the body of a message. -/
def content (m : ConnMsg) : SizeT × List BYTE := (m.bodyLength, m.body)

def frameContent (f : List BYTE × List BYTE) : SizeT × List BYTE := ((HDR.ofBytes f.1).len, f.2)

/-- Lengths and bodies of the complete frames of a byte string. -/
def completeFrames (bytes : List BYTE) : List (SizeT × List BYTE) :=
  (format.frames bytes).map frameContent

structure State where
  mgr : ConnectionMgr
  /-- the bytes that have not been read yet, in segments -/
  incoming : List (List BYTE)

inductive Action
  /-- an `async_read` comes to its end -/
  | transfer (op : ReadOp)
  | handle (part : Part) (error : Bool)
  /-- the rest of the program goes on -/
  | others (mgr : ConnectionMgr)

/-- The loop of session `sid`. An `async_read` gets the bytes it asks for, or
all there are and an error. -/
def step (sid : Nat) (s : State) : Action → Option State
  | .transfer op =>
    if .asyncRead op ∈ (s.mgr.read sid).calls then
      let r := receive op.size s.incoming
      some ⟨s.mgr.setRead sid ((s.mgr.read sid).transfer op r.1 (r.1.length < op.size)), r.2⟩
    else none
  | .handle part error =>
    if .handler part error ∈ (s.mgr.read sid).calls then
      match s.mgr.runHandler .unlimited sid part error with
      | .ok mgr => some { s with mgr := mgr }
      | .error _ => none
    else none
  | .others mgr => some { s with mgr := mgr }

/-- What the rest of the program may do. -/
def Apart (sid : Nat) : State → Action → Prop
  | s, .others mgr => mgr.read sid = s.mgr.read sid ∧ ∃ held, mgr.alloc.Owns held
  | _, _ => True

/-- A step of the loop itself. -/
def Own : State → Action → Prop
  | _, .others _ => False
  | _, _ => True

instance : ∀ (s : State) (a : Action), Decidable (Own s a)
  | _, .transfer _ => isTrue trivial
  | _, .handle _ _ => isTrue trivial
  | _, .others _ => isFalse id

theorem apart_of_own (sid : Nat) (s : State) (a : Action) (h : Own s a) : Apart sid s a := by
  cases a with
  | transfer | handle => trivial
  | others => exact h.elim

/-- The session has joined and issued its first read. -/
structure Started (sid : Nat) (mgr : ConnectionMgr) : Prop where
  reading : ∃ header, mgr.read sid = (ReadSide.init header).issue .header
  owns : ∃ held, mgr.alloc.Owns held

/-! ## The stages of the loop -/

/-- `Stage input rest s`: of the stream `input`, the bytes `rest` have not been
read; `s` is the read side. -/
inductive Stage (input rest : List BYTE) (s : ReadSide) : Prop
  | readHeader : s.calls = [.asyncRead .header] → s.buf = [] → s.leaves = 0 →
      completeFrames input = s.business.map content ++ completeFrames rest → Stage input rest s
  | headerRead (bytes : List BYTE) : s.calls = [.handler .header false] → s.buf = [] →
      s.leaves = 0 → s.header = .ofBytes bytes →
      completeFrames input =
        s.business.map content ++ (format.awaitBody bytes rest).map frameContent →
      Stage input rest s
  | readBody (bytes : List BYTE) : s.calls = [.asyncRead (.body s.header.len)] → s.buf = [] →
      s.leaves = 0 → s.header = .ofBytes bytes →
      completeFrames input =
        s.business.map content ++ (format.awaitBody bytes rest).map frameContent →
      Stage input rest s
  | bodyRead : s.calls = [.handler .body false] → s.buf.length = s.header.len.toNat →
      s.leaves = 0 → completeFrames input =
        s.business.map content ++ (s.header.len, s.buf) :: completeFrames rest →
      Stage input rest s
  | failed (part : Part) : s.calls = [.handler part true] → s.leaves = 0 →
      completeFrames input = s.business.map content → Stage input rest s
  | stopped : s.calls = [] → s.leaves = 1 → completeFrames input = s.business.map content →
      Stage input rest s

/-- An upper bound on the steps that the loop still takes. -/
def remaining (s : ReadSide) (rest : List BYTE) : Nat :=
  match s.calls with
  | [.asyncRead .header] => rest.length + 4
  | [.handler .header false] => rest.length + 15
  | [.asyncRead (.body _)] => rest.length + 14
  | [.handler .body false] => rest.length + 13
  | [] => 0
  | _ => 1

theorem length_receive (n : Nat) (segs : List (List BYTE)) :
    (receive n segs).1.length = min n segs.flatten.length := by
  rw [(receive_flatten n segs).1, List.length_take]

theorem length_receive_rest (n : Nat) (segs : List (List BYTE)) :
    (receive n segs).2.flatten.length = segs.flatten.length - n := by
  rw [(receive_flatten n segs).2, List.length_drop]

theorem overwrite_all {dst src : List BYTE} {n : Nat} (hs : src.length = n)
    (hd : dst.length = n) : ConnMsg.overwrite dst src n = src := by
  simp [ConnMsg.overwrite, ← hs, List.drop_of_length_le (hd.trans hs.symm).le]

/-- The header read comes to its end. -/
theorem stage_header {input : List BYTE} {segs : List (List BYTE)} {s : ReadSide}
    (hcalls : s.calls = [.asyncRead .header]) (hbuf : s.buf = []) (hleaves : s.leaves = 0)
    (hframes : completeFrames input = s.business.map content ++ completeFrames segs.flatten) :
    let r := receive headerSize segs
    let t := s.transfer .header r.1 (r.1.length < headerSize)
    Stage input r.2.flatten t ∧ remaining t r.2.flatten < remaining s segs.flatten := by
  intro r t
  have hlen : r.1.length = min headerSize segs.flatten.length := length_receive _ _
  have hrest : r.2.flatten.length = segs.flatten.length - headerSize := length_receive_rest _ _
  have htcalls : t.calls = [.handler .header (decide (r.1.length < headerSize))] := by
    simp [t, ReadSide.transfer, ReadOp.part, hcalls]
  by_cases hshort : segs.flatten.length < headerSize
  · -- the stream ends in the header
    have hcut : decide (r.1.length < headerSize) = true := by
      rw [decide_eq_true_eq]
      omega
    rw [hcut] at htcalls
    refine ⟨.failed .header htcalls hleaves ?_, ?_⟩
    · rw [hframes, completeFrames, Format.frames_of_short hshort]
      simp [t, ReadSide.transfer]
    · simp only [remaining, htcalls, hcalls]
      omega
  · have hall : r.1.length = headerSize := by omega
    have hfull : decide (r.1.length < headerSize) = false := by
      rw [decide_eq_false_iff_not]
      omega
    rw [hfull] at htcalls
    refine ⟨.headerRead r.1 htcalls hbuf hleaves ?_ ?_, ?_⟩
    · exact congrArg HDR.ofBytes (overwrite_all hall s.header.length_toBytes)
    · have hframe : format.frames segs.flatten = format.awaitBody r.1 r.2.flatten := by
        rw [(receive_flatten headerSize segs).1, (receive_flatten headerSize segs).2]
        exact Format.frames_of_header (Nat.not_lt.mp hshort)
      rw [hframes, completeFrames, hframe]
      rfl
    · simp only [remaining, htcalls, hcalls]
      have h12 : headerSize = 12 := rfl
      omega

/-- The body read comes to its end. -/
theorem stage_body {input bytes : List BYTE} {segs : List (List BYTE)} {s : ReadSide}
    (hcalls : s.calls = [.asyncRead (.body s.header.len)]) (hbuf : s.buf = [])
    (hleaves : s.leaves = 0) (hheader : s.header = .ofBytes bytes)
    (hframes : completeFrames input =
      s.business.map content ++ (format.awaitBody bytes segs.flatten).map frameContent) :
    let n := s.header.len.toNat
    let r := receive n segs
    let t := s.transfer (.body s.header.len) r.1 (r.1.length < n)
    Stage input r.2.flatten t ∧ remaining t r.2.flatten < remaining s segs.flatten := by
  intro n r t
  have hsize : format.bodySize bytes = n := by
    simp [format, n, hheader]
  have hlen : r.1.length = min n segs.flatten.length := length_receive _ _
  have hrest : r.2.flatten.length = segs.flatten.length - n := length_receive_rest _ _
  have htcalls : t.calls = [.handler .body (decide (r.1.length < n))] := by
    simp [t, ReadSide.transfer, ReadOp.part, hcalls]
  by_cases hshort : segs.flatten.length < n
  · have hcut : decide (r.1.length < n) = true := by
      rw [decide_eq_true_eq]
      omega
    rw [hcut] at htcalls
    refine ⟨.failed .body htcalls hleaves ?_, ?_⟩
    · rw [hframes, Format.awaitBody_of_short (by rw [hsize]; exact hshort)]
      simp [t, ReadSide.transfer]
    · simp only [remaining, htcalls, hcalls]
      omega
  · have hfull : decide (r.1.length < n) = false := by
      rw [decide_eq_false_iff_not]
      omega
    rw [hfull] at htcalls
    have htbuf : t.buf = segs.flatten.take n := by
      simp [t, ReadSide.transfer, hbuf, r, (receive_flatten n segs).1]
    refine ⟨.bodyRead htcalls ?_ hleaves ?_, ?_⟩
    · rw [htbuf, List.length_take]
      show min n segs.flatten.length = n
      omega
    · rw [hframes, Format.awaitBody_of_body (by rw [hsize]; exact Nat.not_lt.mp hshort), hsize,
        htbuf, completeFrames, (receive_flatten n segs).2]
      simp [t, ReadSide.transfer, frameContent, hheader]
    · simp only [remaining, htcalls, hcalls]
      omega

/-- The state between two steps of the loop. -/
structure Loop (input : List BYTE) (sid : Nat) (s : State) : Prop where
  stage : Stage input s.incoming.flatten (s.mgr.read sid)
  owns : ∃ held, s.mgr.alloc.Owns held

def State.remaining (sid : Nat) (s : State) : Nat :=
  ReadLoop.remaining (s.mgr.read sid) s.incoming.flatten

/-- A waiting handler runs. -/
theorem loop_handle {input : List BYTE} {sid : Nat} {s : State} {part : Part} {error : Bool}
    (h : Loop input sid s) (hcall : (s.mgr.read sid).calls = [.handler part error]) :
    ∃ mgr, s.mgr.runHandler .unlimited sid part error = .ok mgr ∧
      Loop input sid { s with mgr := mgr } ∧
      State.remaining sid { s with mgr := mgr } < s.remaining sid := by
  obtain ⟨held, hown⟩ := h.owns
  cases h.stage with
  | readHeader hc | readBody _ hc | stopped hc => rw [hc] at hcall; cases hcall
  | headerRead bytes hc hbuf hleaves hheader hframes =>
    rw [hc] at hcall
    cases hcall
    refine ⟨_, (runHandler_header hc .unlimited).trans (if_pos rfl), ⟨?_, held, hown⟩, ?_⟩
    · rw [read_setRead]
      exact .readBody bytes rfl hbuf hleaves hheader hframes
    · show remaining (ConnectionMgr.read (s.mgr.setRead sid _) sid) _ < remaining _ _
      rw [read_setRead]
      simp only [remaining, hc]
      omega
  | bodyRead hc hbuf hleaves hframes =>
    rw [hc] at hcall
    cases hcall
    rw [runHandler_body hc]
    have hcase := handlerReadBody_false
      (w := s.mgr.setRead sid { s.mgr.read sid with calls := [] }) hown .unlimited sid
      (by rw [read_setRead]; exact hbuf)
    rw [read_setRead] at hcase
    rcases hcase with ⟨_, w', p, m, hok, _, hown', _, _, hml, hmb, _, hr⟩ | ⟨hno, _⟩
    · refine ⟨w', hok, ⟨?_, _, hown'⟩, ?_⟩
      · show Stage input s.incoming.flatten (w'.read sid)
        rw [hr]
        refine .readHeader rfl rfl hleaves ?_
        rw [hframes]
        simp [ReadSide.delivered, ReadSide.issue, content, hml, hmb]
      · show remaining (w'.read sid) _ < remaining (s.mgr.read sid) _
        rw [hr]
        simp only [remaining, hc, ReadSide.delivered, ReadSide.issue, List.nil_append]
        omega
    · exact absurd ⟨Or.inr rfl, Or.inr rfl⟩ hno
  | failed part' hc hleaves hframes =>
    rw [hc] at hcall
    cases hcall
    refine ⟨_, runHandler_error hc .unlimited, ⟨?_, held, hown⟩, ?_⟩
    · show Stage input s.incoming.flatten (ConnectionMgr.read (s.mgr.setRead sid _) sid)
      rw [read_setRead]
      exact .stopped rfl (by simp [hleaves]) hframes
    · show remaining (ConnectionMgr.read (s.mgr.setRead sid _) sid) _ < remaining _ _
      have hone : remaining (s.mgr.read sid) s.incoming.flatten = 1 := by
        rw [remaining, hc]
        cases part <;> rfl
      rw [read_setRead, hone]
      exact Nat.one_pos

/-- An `async_read` comes to its end. -/
theorem loop_transfer {input : List BYTE} {sid : Nat} {s : State} {op : ReadOp}
    (h : Loop input sid s) (hcall : (s.mgr.read sid).calls = [.asyncRead op]) :
    let r := receive op.size s.incoming
    let t : State :=
      ⟨s.mgr.setRead sid ((s.mgr.read sid).transfer op r.1 (r.1.length < op.size)), r.2⟩
    Loop input sid t ∧ t.remaining sid < s.remaining sid := by
  intro r t
  have hread : t.mgr.read sid = (s.mgr.read sid).transfer op r.1 (r.1.length < op.size) :=
    read_setRead _ _ _
  have hstage : Stage input r.2.flatten (t.mgr.read sid) ∧
      remaining (t.mgr.read sid) r.2.flatten < remaining (s.mgr.read sid) s.incoming.flatten := by
    rw [hread]
    cases h.stage with
    | readHeader hc hbuf hleaves hframes =>
      rw [hc] at hcall
      cases hcall
      exact stage_header hc hbuf hleaves hframes
    | readBody bytes hc hbuf hleaves hheader hframes =>
      rw [hc] at hcall
      cases hcall
      exact stage_body hc hbuf hleaves hheader hframes
    | headerRead _ hc | bodyRead hc | failed _ hc | stopped hc => rw [hc] at hcall; cases hcall
  exact ⟨⟨hstage.1, h.owns⟩, hstage.2⟩

/-- The loop has one call at a time, until it stops. -/
theorem Stage.one_call {input rest : List BYTE} {s : ReadSide} (h : Stage input rest s) :
    s.calls = [] ∨ (∃ op, s.calls = [.asyncRead op]) ∨
      ∃ part error, s.calls = [.handler part error] := by
  cases h with
  | readHeader hc | readBody _ hc => exact Or.inr (Or.inl ⟨_, hc⟩)
  | headerRead _ hc | bodyRead hc | failed _ hc => exact Or.inr (Or.inr ⟨_, _, hc⟩)
  | stopped hc => exact Or.inl hc

theorem loop_step {input : List BYTE} {sid : Nat} {s t : State} {a : Action}
    (h : Loop input sid s) (hok : Apart sid s a) (hs : step sid s a = some t) :
    Loop input sid t := by
  cases a with
  | transfer op =>
    simp only [step] at hs
    split at hs
    · rename_i hmem
      cases hs
      rcases h.stage.one_call with hc | ⟨op', hc⟩ | ⟨_, _, hc⟩ <;> rw [hc] at hmem
      · cases hmem
      · obtain rfl : op = op' := by simpa using hmem
        exact (loop_transfer h hc).1
      · simp at hmem
    · cases hs
  | handle part error =>
    simp only [step] at hs
    split at hs
    · rename_i hmem
      rcases h.stage.one_call with hc | ⟨_, hc⟩ | ⟨part', error', hc⟩ <;> rw [hc] at hmem
      · cases hmem
      · simp at hmem
      · obtain ⟨rfl, rfl⟩ : part = part' ∧ error = error' := by simpa using hmem
        obtain ⟨mgr, hrun, hloop, _⟩ := loop_handle h hc
        rw [hrun] at hs
        cases hs
        exact hloop
    · cases hs
  | others mgr =>
    cases hs
    obtain ⟨hread, hown⟩ := hok
    exact ⟨by show Stage input _ (mgr.read sid); rw [hread]; exact h.stage, hown⟩

/-- Left alone, the loop comes to its end. -/
theorem loop_finishes {input : List BYTE} {sid : Nat} (n : Nat) :
    ∀ s : State, s.remaining sid ≤ n → Loop input sid s →
      ∃ t, Reach (step sid) Own s t ∧ (t.mgr.read sid).calls = [] := by
  induction n with
  | zero =>
    intro s hn h
    rcases h.stage.one_call with hc | ⟨op, hc⟩ | ⟨part, error, hc⟩
    · exact ⟨s, .refl, hc⟩
    · exact absurd (loop_transfer h hc).2 (by omega)
    · obtain ⟨_, _, _, hlt⟩ := loop_handle h hc
      omega
  | succ n ih =>
    intro s hn h
    rcases h.stage.one_call with hc | ⟨op, hc⟩ | ⟨part, error, hc⟩
    · exact ⟨s, .refl, hc⟩
    · obtain ⟨hloop, hlt⟩ := loop_transfer h hc
      obtain ⟨t, hreach, hstop⟩ := ih _ (by omega) hloop
      have hs : step sid s (.transfer op) = some _ := if_pos (by rw [hc]; simp)
      exact ⟨t, (Reach.single trivial hs).trans hreach, hstop⟩
    · obtain ⟨mgr, hrun, hloop, hlt⟩ := loop_handle h hc
      obtain ⟨t, hreach, hstop⟩ := ih _ (by omega) hloop
      have hs : step sid s (.handle part error) = some { s with mgr := mgr } := by
        simp [step, hc, hrun]
      exact ⟨t, (Reach.single trivial hs).trans hreach, hstop⟩

/-! ## What the loop does -/

/-- What holds of the session `sid`, which reads the stream `input`. -/
structure ReadSound (input : List BYTE) (sid : Nat) (s : State) : Prop where
  /-- the messages handed on are the complete frames, in order -/
  inOrder : (s.mgr.read sid).business.map content <+: completeFrames input
  /-- all of them, when the loop has stopped -/
  all : (s.mgr.read sid).calls = [] →
    (s.mgr.read sid).business.map content = completeFrames input
  empty : .asyncRead .header ∈ (s.mgr.read sid).calls → (s.mgr.read sid).buf = []
  exact : .handler .body false ∈ (s.mgr.read sid).calls →
    (s.mgr.read sid).buf.length = (s.mgr.read sid).header.len.toNat
  /-- `leave` is called once, and that is the end -/
  leaves : (s.mgr.read sid).leaves = if (s.mgr.read sid).calls = [] then 1 else 0
  finishes : ∃ t, Reach (step sid) Own s t ∧ (t.mgr.read sid).calls = []

theorem Loop.sound {input : List BYTE} {sid : Nat} {s : State} (h : Loop input sid s) :
    ReadSound input sid s := by
  have hfinishes := loop_finishes _ s (Nat.le_refl _) h
  cases h.stage with
  | readHeader hc hbuf hleaves hframes =>
    exact ⟨⟨_, hframes.symm⟩, by simp [hc], fun _ => hbuf, by simp [hc], by simp [hc, hleaves],
      hfinishes⟩
  | headerRead bytes hc hbuf hleaves hheader hframes =>
    exact ⟨⟨_, hframes.symm⟩, by simp [hc], fun _ => hbuf, by simp [hc], by simp [hc, hleaves],
      hfinishes⟩
  | readBody bytes hc hbuf hleaves hheader hframes =>
    exact ⟨⟨_, hframes.symm⟩, by simp [hc], fun _ => hbuf, by simp [hc], by simp [hc, hleaves],
      hfinishes⟩
  | bodyRead hc hbuf hleaves hframes =>
    exact ⟨⟨_, hframes.symm⟩, by simp [hc], by simp [hc], fun _ => hbuf, by simp [hc, hleaves],
      hfinishes⟩
  | failed part hc hleaves hframes =>
    exact ⟨hframes ▸ List.prefix_rfl, by simp [hc], by simp [hc], by simp [hc],
      by simp [hc, hleaves], hfinishes⟩
  | stopped hc hleaves hframes =>
    exact ⟨hframes ▸ List.prefix_rfl, fun _ => hframes.symm, by simp [hc], by simp [hc],
      by simp [hc, hleaves], hfinishes⟩

/-- The frames that the write side emits are read back. -/
theorem completeFrames_frames {ms : List ConnMsg}
    (h : ∀ m ∈ ms, m.body.length = m.bodyLength.toNat) :
    completeFrames ((SessionWrite.frames ms).flatMap opBytes) = ms.map content := by
  let pairs := ms.map fun m => (m.header.toBytes, m.body)
  have hbytes : (SessionWrite.frames ms).flatMap opBytes = pairs.flatMap fun p => p.1 ++ p.2 := by
    rw [flatMap_frames, List.flatMap_map]
    rfl
  have hpairs : ∀ p ∈ pairs, p.1.length = format.headerSize ∧ p.2.length = format.bodySize p.1 := by
    intro p hp
    obtain ⟨m, hm, rfl⟩ := List.mem_map.mp hp
    refine ⟨HDR.length_toBytes _, ?_⟩
    simpa [format, ConnMsg.bodyLength] using h m hm
  rw [completeFrames, hbytes, Format.frames_flatMap hpairs, List.map_map]
  refine List.map_congr_left fun m _ => ?_
  simp [frameContent, content, ConnMsg.bodyLength]

/-- **The read loop.** Whatever the peer sends, however it is cut into
segments and wherever it ends: the messages given to `ProcessMsg_business` are
the complete frames in order, and the loop leaves once and stops. When the
stream is what the write side emits for a list of messages, their lengths and
bodies come back. -/
theorem read_loop_sound (sid : Nat) (mgr : ConnectionMgr) (segs : List (List BYTE))
    (hstart : Started sid mgr) (s : State) (h : Reach (step sid) (Apart sid) ⟨mgr, segs⟩ s) :
    ReadSound segs.flatten sid s ∧
      ∀ ms : List ConnMsg, (∀ m ∈ ms, m.body.length = m.bodyLength.toNat) →
        segs.flatten = (SessionWrite.frames ms).flatMap opBytes →
        (s.mgr.read sid).calls = [] → (s.mgr.read sid).business.map content = ms.map content := by
  have hloop : Loop segs.flatten sid s := by
    refine h.invariant (P := Loop segs.flatten sid) ?_ ?_
    · obtain ⟨header, hread⟩ := hstart.reading
      refine ⟨?_, hstart.owns⟩
      show Stage _ segs.flatten (mgr.read sid)
      rw [hread]
      exact .readHeader rfl rfl rfl rfl
    · intro s a t _ hs hok hstep
      exact loop_step hs hok hstep
  refine ⟨hloop.sound, fun ms hms hinput hstop => ?_⟩
  rw [hloop.sound.all hstop, hinput, completeFrames_frames hms]

/-- A session that has just started. -/
def started : ConnectionMgr :=
  ⟨.init, fun _ => ⟨(ReadSide.init ⟨0, 0, 0, 0, 0, 0⟩).issue .header, .init⟩, [0]⟩

theorem started_started : Started 0 started := ⟨⟨_, rfl⟩, 0, Allocator.owns_init⟩

/-- A frame with three bytes in three segments, and five bytes of a header
that never gets complete. -/
theorem read_loop_sound_cut : ∃ s : State, (s.mgr.read 0).business.map content = [(3, [1, 2, 3])] ∧
    (s.mgr.read 0).leaves = 1 ∧
    ReadSound [3, 0, 0, 0, 0, 0, 0, 0, 0, 0, 0, 0, 1, 2, 3, 9, 9, 9, 9, 9] 0 s := by
  let segs : List (List BYTE) :=
    [[3, 0, 0, 0, 0], [0, 0, 0, 0, 0, 0, 0, 1], [2, 3, 9, 9, 9, 9, 9]]
  let acts : List Action :=
    [.transfer .header, .handle .header false, .transfer (.body 3), .handle .body false,
      .transfer .header, .handle .header true]
  have hrun : (exec (guarded (step 0) Own) ⟨started, segs⟩ acts).map (fun s =>
      ((s.mgr.read 0).business.map content, (s.mgr.read 0).leaves)) =
      some ([(3, [1, 2, 3])], 1) := by
    decide +kernel
  obtain ⟨s, hs, hseen⟩ := Option.map_eq_some_iff.mp hrun
  obtain ⟨hbusiness, hleaves⟩ := Prod.mk.inj hseen
  have hreach := (Reach.of_exec_guarded acts hs).mono (apart_of_own 0)
  exact ⟨s, hbusiness, hleaves, (read_loop_sound 0 started segs started_started s hreach).1⟩

end AsioTcp.ReadLoop
