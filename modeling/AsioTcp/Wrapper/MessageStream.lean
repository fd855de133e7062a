import AsioTcp.Wrapper.FixedLength
import AsioTcp.Wrapper.Packer
import AsioTcp.Wrapper.Unbuffered

/-!
# Messages over a connection

What a packer has put together arrives in pieces that the network chooses.
Here each unpacker is taken through all the ways in which the pieces can come,
for any bytes (`head_stream`, `fixed_stream`, `delimited_stream`) and for those
of its packer (`pack_unpack`, `delimited_round_trip`).
-/

namespace AsioTcp.Wrapper

open StreamFramer Transition

namespace Unpacker

variable {c : Config}

/-- Bytes that start with a head that is no length. -/
def BadHead (c : Config) (rest : List UInt8) : Prop :=
  ¬ rest.length < c.headLen ∧ c.invalid (c.headN2H rest)

/-- Bytes that may be the start of a message, and are not all of it. -/
def Incomplete (c : Config) (rest : List UInt8) : Prop :=
  rest.length < c.headLen ∨
    (¬ c.invalid (c.headN2H rest) ∧ rest.length < c.headN2H rest)

theorem incomplete_of_more {rest : List UInt8} (h : next c rest = .more) :
    Incomplete c rest := by
  obtain ⟨hlen, _⟩ | ⟨_, _, hs⟩ | ⟨_, _, _, hs⟩ | ⟨_, hi, hle, _⟩ := next_cases c rest
  · exact .inl hlen
  · cases hs.symm.trans h
  · cases hs.symm.trans h
  · exact .inr ⟨hi, Nat.not_le.mp hle⟩

/-- What is taken off the stream is a message as `pack_msg` writes it. -/
theorem wire_of_message {s m : List UInt8} {n : Nat} (h : next c s = .message m n) :
    s.take n = c.wire m ∧ c.Packable m := by
  obtain ⟨hlen, hi, hn, hle, rfl⟩ := next_eq_message h
  have hinv := mt (c.invalid_iff _).mpr hi
  have hbody : ((s.drop c.headLen).take (n - c.headLen)).length = n - c.headLen := by
    rw [List.length_take, List.length_drop]
    omega
  have htotal : c.headLen + (n - c.headLen) = n := by omega
  have hhead : (s.take c.headLen).length = c.headLen := by
    rw [List.length_take]
    omega
  have hlt := BigEndian.decode_lt (s.take c.headLen)
  rw [hhead] at hlt
  change c.headN2H s < _ at hlt
  constructor
  · have hdecode := BigEndian.encode_decode (s.take c.headLen)
    rw [hhead] at hdecode
    change BigEndian.encode c.headLen (c.headN2H s) = _ at hdecode
    rw [Config.wire, hbody, htotal, hn, hdecode, ← hn]
    conv => lhs; rw [← htotal, List.take_add]
  · refine ⟨fun hnil => ?_, ?_, ?_⟩
    · rw [hnil, List.length_nil] at hbody
      omega
    · rw [hbody]
      omega
    · rw [hbody, htotal, hn]
      exact hlt

/-- A message as `pack_msg` writes it is taken off. -/
theorem next_wire {body : List UInt8} (h : c.Packable body) :
    next c (c.wire body) = .message body (c.wire body).length := by
  have hlen : (BigEndian.encode c.headLen (c.headLen + body.length)).length = c.headLen :=
    BigEndian.length_encode _ _
  have hwire : (c.wire body).length = c.headLen + body.length := by
    rw [Config.wire, List.length_append, hlen]
  have hhead : c.headN2H (c.wire body) = c.headLen + body.length := by
    rw [Config.headN2H, Config.wire, List.take_left' hlen]
    exact BigEndian.decode_encode _ _ h.head
  have hpos := List.length_pos_iff.mpr h.ne_nil
  have hfits := h.fits
  rw [next_whole (by omega) (by rw [hhead, c.invalid_iff]; omega) (by omega), hhead, ← hwire]
  congr 1
  rw [hwire, Nat.add_sub_cancel_left, Config.wire, List.drop_left' hlen, List.take_length]

/-- How a connection that has been given bytes beyond its messages stands. -/
def Standing (c : Config) (rest : List UInt8) : Phase (Unpacker c) → Prop
  | .reading r => Incomplete c rest ∧ 0 < r.space
  | .recvError => Incomplete c rest
  | .unpackError => BadHead c rest ∧ rest.length ≠ c.msgBufferSize
  | .fault e => e = .assertion ∧ BadHead c rest ∧ rest.length = c.msgBufferSize
  | .idle => False

/-- What has been delivered is what can be cut off, whether the rest is an error
or not. -/
theorem delivered_eq {raw : Buffer UInt8 c.msgBufferSize} {l : Link (Unpacker c) (List UInt8)}
    (h : Reach (interface c).step always ((interface c).start (resetState raw)) l) :
    l.delivered = ((framer c).cut l.arrived).messages := by
  have hU := (buffered c).implements (resetState raw) rfl (.inl rfl)
  cases hstop : ((framer c).cut l.arrived).stop with
  | none => exact ((hU.sound h).going hstop).1
  | some e =>
    obtain ⟨_, _, hmsgs, hdel, _⟩ := (hU.sound h).stopped e hstop
    rw [hdel, hmsgs]
    rfl

/-- What has arrived are the messages that have been delivered, as they are
sent, and the rest. -/
theorem arrived_eq {raw : Buffer UInt8 c.msgBufferSize} {l : Link (Unpacker c) (List UInt8)}
    (h : Reach (interface c).step always ((interface c).start (resetState raw)) l) :
    (∀ m ∈ l.delivered, c.Packable m) ∧
      l.arrived = l.delivered.flatMap c.wire ++ ((framer c).cut l.arrived).rest := by
  rw [delivered_eq h]
  exact ⟨Framer.forall_messages (f := framer c) (fun _ _ _ hm => (wire_of_message hm).2) l.arrived,
    (Framer.flatMap_append_rest (f := framer c) (fun _ _ _ hm => (wire_of_message hm).1)
      l.arrived).symm⟩

/-- While it reads, what is left over is part of a message. -/
theorem incomplete_of_reading {raw : Buffer UInt8 c.msgBufferSize}
    {l : Link (Unpacker c) (List UInt8)} {r : Reading (Unpacker c)}
    (h : Reach (interface c).step always ((interface c).start (resetState raw)) l)
    (hr : l.phase = .reading r) : Incomplete c ((framer c).cut l.arrived).rest := by
  have hU := (buffered c).implements (resetState raw) rfl (.inl rfl)
  exact incomplete_of_more (Framer.next_rest_of_none ((hU.sound h).of_reading hU hr).1)

/-- **Any bytes** in any pieces: those that have arrived are the messages that
have been delivered, as they are sent, and the rest, of which the reader makes
what it should. A bad head at the front of a full buffer ends in an assertion. -/
theorem head_stream (raw : Buffer UInt8 c.msgBufferSize) (l : Link (Unpacker c) (List UInt8))
    (h : Reach (interface c).step always ((interface c).start (resetState raw)) l) :
    (∀ m ∈ l.delivered, c.Packable m) ∧
      ∃ rest, l.arrived = l.delivered.flatMap c.wire ++ rest ∧ Standing c rest l.phase := by
  have hU := (buffered c).implements (resetState raw) rfl (.inl rfl)
  have hsound := hU.sound h
  obtain ⟨hpack, harrived⟩ := arrived_eq h
  refine ⟨hpack, _, harrived, ?_⟩
  cases hstop : ((framer c).cut l.arrived).stop with
  | none =>
    have hmore := incomplete_of_more (Framer.next_rest_of_none hstop)
    obtain hphase | ⟨r, hphase, hrep⟩ := (hsound.going hstop).2
    · rw [hphase]
      exact hmore
    · rw [hphase]
      exact ⟨hmore, hU.space hrep⟩
  | some e =>
    obtain ⟨_, _, _, _, hphase⟩ := hsound.stopped e hstop
    have hbad := next_eq_stop (Framer.next_rest_of_some hstop)
    rw [hphase, Buffered.outcome, if_neg (fun hfalse => hfalse)]
    split
    · rename_i hfull
      exact ⟨rfl, hbad, hfull⟩
    · rename_i hfull
      exact ⟨hbad, hfull⟩

/-- Two messages in three pieces, and then a head that is no length. -/
theorem head_stream_two : ∃ (c : Config) (l : Link (Unpacker c) (List UInt8)),
    l.delivered = [[65], [66, 67]] ∧ l.phase = .unpackError ∧
    ∃ rest, l.arrived = l.delivered.flatMap c.wire ++ rest ∧ Standing c rest l.phase := by
  let c : Config := ⟨2, 8, by decide, by decide, by decide, by decide⟩
  let acts : List Arrival := [.data [0, 3, 65, 0, 4], .data [66], .data [67, 0, 0]]
  have hrun : (exec (interface c).step ((interface c).start (resetState (.filled 0))) acts).map
      (fun l => (l.delivered, decide (l.phase = .unpackError))) =
      some ([[65], [66, 67]], true) := by
    decide +kernel
  obtain ⟨l, hl, hseen⟩ := Option.map_eq_some_iff.mp hrun
  obtain ⟨hdel, hphase⟩ := Prod.mk.inj hseen
  exact ⟨c, l, hdel, of_decide_eq_true hphase, (head_stream _ l (Reach.of_exec acts hl)).2⟩

theorem cut_packed {msgs : List Pieces} (hsized : ∀ ps ∈ msgs, ps.Sized)
    (hpack : ∀ ps ∈ msgs, packMsg c (some ps) false ≠ []) :
    (framer c).cut (msgs.flatMap fun ps => packMsg c (some ps) false) =
      ⟨msgs.map Pieces.body, [], none⟩ := by
  have hwire : (msgs.flatMap fun ps => packMsg c (some ps) false) =
      (msgs.map Pieces.body).flatMap c.wire := by
    rw [List.flatMap_map, List.flatMap_def, List.flatMap_def]
    congr 1
    exact List.map_congr_left fun ps hps => packMsg_of_packable (hsized ps hps)
      (packable_of_packMsg (hsized ps hps) (hpack ps hps))
  rw [hwire]
  refine Framer.cut_flatMap (next_short c.headLen_pos) ?_
  intro m hm
  obtain ⟨ps, hps, rfl⟩ := List.mem_map.mp hm
  exact next_wire (packable_of_packMsg (hsized ps hps) (hpack ps hps))

/-- **Round trip.** However what `pack_msg` has made arrives, the messages are
delivered as they were sent and in order; nothing of it is an error, and once
all has arrived all has been delivered. -/
theorem pack_unpack (raw : Buffer UInt8 c.msgBufferSize) (msgs : List Pieces)
    (hsized : ∀ ps ∈ msgs, ps.Sized) (hpack : ∀ ps ∈ msgs, packMsg c (some ps) false ≠ [])
    (l : Link (Unpacker c) (List UInt8))
    (h : Reach (interface c).step always ((interface c).start (resetState raw)) l)
    (harrived : l.arrived <+: msgs.flatMap fun ps => packMsg c (some ps) false) :
    l.delivered <+: msgs.map Pieces.body ∧
      (l.phase = .recvError ∨ ∃ r, l.phase = .reading r) ∧
      (l.arrived = (msgs.flatMap fun ps => packMsg c (some ps) false) →
        l.delivered = msgs.map Pieces.body) := by
  have hU := (buffered c).implements (resetState raw) rfl (.inl rfl)
  have hcut := cut_packed hsized hpack
  obtain ⟨later, hlater⟩ := harrived
  have hstop : ((framer c).cut l.arrived).stop = none := by
    cases hs : ((framer c).cut l.arrived).stop with
    | none => rfl
    | some e =>
      have hmore := Framer.cut_append_stop l.arrived later hs
      rw [hlater, hcut] at hmore
      cases congrArg Cut.stop hmore
  obtain ⟨hdel, hphase⟩ := (hU.sound h).going hstop
  have hmono := Framer.messages_mono (f := framer c) l.arrived later
  rw [hlater, hcut, ← hdel] at hmono
  refine ⟨hmono, hphase.imp id fun ⟨r, hr, _⟩ => ⟨r, hr⟩, fun hall => ?_⟩
  rw [hdel, hall, hcut]

/-- A message in two pieces, one of them null, and a second one of which only
the head has come. -/
theorem pack_unpack_part : ∃ (c : Config) (l : Link (Unpacker c) (List UInt8)),
    l.delivered = [[65, 66]] ∧ l.delivered <+: [[65, 66], [67]] ∧
    (l.phase = .recvError ∨ ∃ r, l.phase = .reading r) := by
  let c : Config := ⟨2, 8, by decide, by decide, by decide, by decide⟩
  let msgs : List Pieces := [[some [65], none, some [66]], [some [67]]]
  let acts : List Arrival := [.data [0], .data [4, 65, 66, 0], .data [3]]
  have hrun : (exec (interface c).step ((interface c).start (resetState (.filled 0))) acts).map
      (fun l => (l.delivered, l.arrived)) =
      some ([[65, 66]], [0, 4, 65, 66, 0, 3]) := by
    decide +kernel
  obtain ⟨l, hl, hseen⟩ := Option.map_eq_some_iff.mp hrun
  obtain ⟨hdel, harr⟩ := Prod.mk.inj hseen
  have hall := pack_unpack (.filled 0) msgs (by unfold Pieces.Sized; decide)
    (by decide +kernel) l (Reach.of_exec acts hl) (by rw [harr]; exact ⟨[67], by decide +kernel⟩)
  exact ⟨c, l, hdel, hall.1, hall.2.1⟩

end Unpacker

namespace UnbufferedUnpacker

variable {c : Config}

/-- **`unbuffered_unpacker` agrees with `unpacker`.** Where the same bytes have
arrived, in whatever pieces, both have delivered the same messages; where one
has failed so has the other, only that this one always fails by an assertion. -/
theorem unbuffered_agrees (raw : Buffer UInt8 c.msgBufferSize) (head : Buffer UInt8 c.headLen)
    (l : Link (Unpacker c) (List UInt8)) (l' : Link (UnbufferedUnpacker c) (List UInt8))
    (h : Reach (Unpacker.interface c).step always
      ((Unpacker.interface c).start (.resetState raw)) l)
    (h' : Reach (interface c).step always ((interface c).start (resetState head)) l')
    (harrived : l'.arrived = l.arrived) :
    l'.delivered = l.delivered ∧
      ((∃ r, l.phase = .reading r) ∨ l.phase = .recvError ↔
        (∃ r, l'.phase = .reading r) ∨ l'.phase = .recvError) ∧
      (l.phase = .unpackError ∨ (∃ e, l.phase = .fault e) ↔ l'.phase = .fault .assertion) := by
  have hU := (Unpacker.buffered c).implements (.resetState raw) rfl (.inl rfl)
  have hsound := hU.sound h
  have hsound' := (implements head).sound h'
  cases hstop : ((Unpacker.framer c).cut l.arrived).stop with
  | none =>
    obtain ⟨hdel, hphase⟩ := hsound.going hstop
    obtain ⟨hdel', hphase'⟩ := hsound'.going (harrived ▸ hstop)
    refine ⟨by rw [hdel, hdel', harrived], iff_of_true ?_ ?_, iff_of_false ?_ ?_⟩
    · exact hphase.symm.imp (fun ⟨r, hr, _⟩ => ⟨r, hr⟩) id
    · exact hphase'.symm.imp (fun ⟨r, hr, _⟩ => ⟨r, hr⟩) id
    · obtain hphase | ⟨r, hphase, _⟩ := hphase
      · simp [hphase]
      · simp [hphase]
    · obtain hphase' | ⟨r, hphase', _⟩ := hphase'
      · simp [hphase']
      · simp [hphase']
  | some e =>
    obtain ⟨before, last, hmsgs, hdel, hphase⟩ := hsound.stopped e hstop
    obtain ⟨before', last', hmsgs', hdel', hphase'⟩ := hsound'.stopped e (harrived ▸ hstop)
    rw [Buffered.outcome, if_neg (fun hfalse => hfalse)] at hdel hphase
    rw [outcome] at hdel' hphase'
    rw [harrived] at hmsgs'
    refine ⟨by rw [hdel, hdel', ← hmsgs, ← hmsgs'], iff_of_false ?_ ?_, iff_of_true ?_ hphase'⟩
    · rw [hphase]
      split
      · simp
      · simp
    · rw [hphase']
      simp
    · rw [hphase]
      split
      · exact .inr ⟨_, rfl⟩
      · exact .inl rfl

/-- A message and a bad head, for `unpacker` in one piece and here in four. -/
theorem unbuffered_agrees_two : ∃ (c : Config) (l : Link (Unpacker c) (List UInt8))
    (l' : Link (UnbufferedUnpacker c) (List UInt8)),
    l.delivered = [[65, 66]] ∧ l'.delivered = l.delivered ∧ l'.phase = .fault .assertion := by
  let c : Config := ⟨2, 8, by decide, by decide, by decide, by decide⟩
  let acts : List Arrival := [.data [0, 4, 65, 66, 0, 2]]
  let acts' : List Arrival := [.data [0, 4], .data [65], .data [66], .data [0, 2]]
  have hrun : (exec (Unpacker.interface c).step
      ((Unpacker.interface c).start (.resetState (.filled 0))) acts).map
      (fun l => (l.delivered, l.arrived, decide (l.phase = .unpackError))) =
      some ([[65, 66]], [0, 4, 65, 66, 0, 2], true) := by
    decide +kernel
  have hrun' : (exec (interface c).step ((interface c).start (resetState (.filled 0))) acts').map
      (·.arrived) = some [0, 4, 65, 66, 0, 2] := by
    decide +kernel
  obtain ⟨l, hl, hseen⟩ := Option.map_eq_some_iff.mp hrun
  obtain ⟨l', hl', harr'⟩ := Option.map_eq_some_iff.mp hrun'
  simp only [Prod.mk.injEq, decide_eq_true_eq] at hseen
  obtain ⟨hdel, harr, hphase⟩ := hseen
  have hall := unbuffered_agrees _ _ l l' (Reach.of_exec acts hl) (Reach.of_exec acts' hl')
    (harr'.trans harr.symm)
  exact ⟨c, l, l', hdel, hall.1, hall.2.2.mp (.inl hphase)⟩

end UnbufferedUnpacker

namespace FixedLengthUnpacker

variable {c : FixedConfig}

/-- **Any bytes** in any pieces come out as messages of the fixed length, in
order; less than one message is kept, and nothing can go wrong. -/
theorem fixed_stream (raw : Buffer UInt8 c.msgBufferSize)
    (l : Link (FixedLengthUnpacker c) (List UInt8))
    (h : Reach (interface c).step always ((interface c).start (resetState raw)) l) :
    (∀ m ∈ l.delivered, m.length = c.fixedLength) ∧
      (∃ rest, l.arrived = l.delivered.flatten ++ rest ∧ rest.length < c.fixedLength) ∧
      (l.phase = .recvError ∨ ∃ r, l.phase = .reading r ∧ 0 < r.space) := by
  have hU := (buffered c).implements (resetState raw) rfl trivial
  have htaken : ∀ s m n, next c s = .message m n → s.take n = id m :=
    fun s m n hm => (next_eq_message hm).2.2.symm
  have hwrite := Framer.flatMap_append_rest (f := framer c) htaken l.arrived
  have hlength : ∀ m ∈ ((framer c).cut l.arrived).messages, m.length = c.fixedLength :=
    Framer.forall_messages (f := framer c) (fun s m n hm => by
      obtain ⟨rfl, hle, rfl⟩ := next_eq_message hm
      rw [List.length_take, Nat.min_eq_left hle]) l.arrived
  have hstop : ((framer c).cut l.arrived).stop = none := by
    cases hs : ((framer c).cut l.arrived).stop with
    | none => rfl
    | some e => exact e.elim
  obtain ⟨hdel, hphase⟩ := (hU.sound h).going hstop
  have hrest : ¬ c.fixedLength ≤ ((framer c).cut l.arrived).rest.length := by
    intro hle
    cases (next_whole hle).symm.trans (Framer.next_rest_of_none hstop)
  rw [List.flatMap_id, ← hdel] at hwrite
  rw [← hdel] at hlength
  exact ⟨hlength, ⟨_, hwrite.symm, Nat.not_le.mp hrest⟩,
    hphase.imp id fun ⟨r, hr, hrep⟩ => ⟨r, hr, hU.space hrep⟩⟩

/-- Messages of two bytes, out of pieces of three. -/
theorem fixed_stream_two : ∃ (c : FixedConfig) (l : Link (FixedLengthUnpacker c) (List UInt8)),
    l.delivered = [[1, 2], [3, 4]] ∧
    ∃ rest, l.arrived = l.delivered.flatten ++ rest ∧ rest.length < c.fixedLength := by
  let c : FixedConfig := ⟨5, 2, by decide, by decide⟩
  let acts : List Arrival := [.data [1, 2, 3], .data [4, 5]]
  have hrun : (exec (interface c).step ((interface c).start (resetState (.filled 0))) acts).map
      (·.delivered) = some [[1, 2], [3, 4]] := by
    decide +kernel
  obtain ⟨l, hl, hdel⟩ := Option.map_eq_some_iff.mp hrun
  exact ⟨c, l, hdel, (fixed_stream _ l (Reach.of_exec acts hl)).2.1⟩

end FixedLengthUnpacker

namespace PrefixSuffixUnpacker

variable {c : PrefixSuffixConfig}

/-- The suffix is not met before the end of the body. -/
def Clean (c : PrefixSuffixConfig) (body : List UInt8) : Prop :=
  FirstAt c.suffixBytes (body ++ c.suffixBytes) body.length

/-- Bytes that may be the start of a message, and are not all of it. -/
def Pending (c : PrefixSuffixConfig) (rest : List UInt8) : Prop :=
  rest.length < c.prefixBytes.length ∨ rest = c.prefixBytes ++ c.suffixBytes ∨
    (Begins c rest ∧ ¬ c.suffixBytes <:+: rest.drop c.prefixBytes.length)

theorem begins_eq {s : List UInt8} (h : Begins c s) :
    c.prefixBytes ++ s.drop c.prefixBytes.length = s := by
  conv => rhs; rw [← List.take_append_drop c.prefixBytes.length s, h.2]

/-- What `peek_msg` searches is the front of what comes behind the prefix. -/
theorem searched_front (s : List UInt8) :
    ∃ t, searched c s ++ t = s.drop c.prefixBytes.length := by
  rw [searched, List.drop_take]
  exact List.take_prefix _ _

/-- The message, the suffix and what follows. -/
theorem searched_split {s m : List UInt8} {i : Nat}
    (hi : memmem (searched c s) c.suffixBytes = some (i + 1))
    (hm : m = (s.drop c.prefixBytes.length).take (i + 1)) :
    m.length = i + 1 ∧ ∃ t, searched c s = (m ++ c.suffixBytes) ++ t := by
  have hfirst := (memmem_eq_some c.suffix_ne).mp hi
  have hle := hfirst.le_length c.suffix_ne
  obtain ⟨t, ht⟩ := searched_front (c := c) s
  have htake : m = (searched c s).take (i + 1) := by
    rw [hm, ← ht, List.take_append_of_le_length (by omega)]
  refine ⟨?_, ?_⟩
  · rw [htake, List.length_take]
    omega
  · obtain ⟨u, hu⟩ := hfirst.here
    refine ⟨u, ?_⟩
    rw [htake, List.append_assoc, hu, List.take_append_drop]

/-- What is taken off the stream is a message as `pack_msg` writes it. -/
theorem wire_of_message {s m : List UInt8} {n : Nat} (h : next c s = .message m n) :
    s.take n = c.wire m ∧ c.Packable m ∧ Clean c m := by
  obtain ⟨hb, i, hi, hn, hm⟩ := next_eq_message h
  obtain ⟨hlen, t, ht⟩ := searched_split hi hm
  obtain ⟨t', ht'⟩ := searched_front (c := c) s
  have hfirst := (memmem_eq_some c.suffix_ne).mp hi
  have hwire : (c.wire m).length = n := by
    rw [PrefixSuffixConfig.wire, List.length_append, List.length_append, hlen, hn]
    unfold PrefixSuffixConfig.minLen
    omega
  have hsplit : c.wire m ++ (t ++ t') = s := by
    rw [PrefixSuffixConfig.wire, List.append_assoc, ← List.append_assoc _ t, ← ht, ht',
      begins_eq hb]
  refine ⟨?_, ⟨fun hnil => ?_, ?_⟩, ?_⟩
  · rw [← hsplit, ← hwire, List.take_left]
  · rw [hnil, List.length_nil] at hlen
    omega
  · rw [hlen]
    exact (found_le hb hi).2
  · rw [ht] at hfirst
    rw [Clean, hlen]
    exact hfirst.of_append c.suffix_ne t (Nat.le_of_eq (by rw [List.length_append, hlen]))

/-- A message as `pack_msg` writes it is taken off, if the suffix is only met
at its end. -/
theorem next_wire {body : List UInt8} (h : c.Packable body) (hc : Clean c body) :
    next c (c.wire body) = .message body (c.wire body).length := by
  have hpos := List.length_pos_iff.mpr h.ne_nil
  have hfits := h.fits
  have hlen : (c.wire body).length = body.length + c.minLen := by
    rw [PrefixSuffixConfig.wire, List.length_append, List.length_append]
    unfold PrefixSuffixConfig.minLen
    omega
  have hb : Begins c (c.wire body) := by
    constructor
    · rw [hlen]
      unfold PrefixSuffixConfig.minLen
      omega
    · exact List.take_left
  have hdrop : (c.wire body).drop c.prefixBytes.length = body ++ c.suffixBytes := List.drop_left
  obtain ⟨k, hk⟩ : ∃ k, body.length = k + 1 := ⟨body.length - 1, by omega⟩
  have hfound : memmem (searched c (c.wire body)) c.suffixBytes = some (k + 1) := by
    rw [searched_eq (by omega), hdrop, memmem_eq_some c.suffix_ne, ← hk]
    exact hc
  rw [next_begins hb, nextBody, hfound]
  simp only
  rw [hdrop, ← hk, List.take_left, hlen]

theorem pending_of_more {rest : List UInt8} (h : next c rest = .more)
    (hle : rest.length ≤ c.msgBufferSize) : Pending c rest := by
  by_cases hlen : rest.length < c.prefixBytes.length
  · exact .inl hlen
  · by_cases htake : rest.take c.prefixBytes.length = c.prefixBytes
    · have hb : Begins c rest := ⟨hlen, htake⟩
      rw [next_begins hb, nextBody, searched_eq hle] at h
      split at h
      · rename_i hzero
        split at h
        · cases h
        · rename_i hshort
          obtain ⟨t, ht⟩ := ((memmem_eq_some c.suffix_ne).mp hzero).here
          rw [List.drop_zero] at ht
          have hsum := congrArg List.length ht
          rw [List.length_append, List.length_drop] at hsum
          unfold PrefixSuffixConfig.minLen at hshort
          have hnil : t = [] := List.length_eq_zero_iff.mp (by omega)
          rw [hnil, List.append_nil] at ht
          exact .inr (.inl (by rw [ht, begins_eq hb]))
      · cases h
      · rename_i hnone
        refine .inr (.inr ⟨hb, fun hinfix => ?_⟩)
        obtain ⟨i, hi⟩ := FirstAt.exists_iff.mpr hinfix
        cases hnone.symm.trans ((memmem_eq_some c.suffix_ne).mpr hi)
    · cases (next_malformed hlen htake).symm.trans h

/-- Bytes from which no message can be taken, and why. -/
def Broken (c : PrefixSuffixConfig) (rest : List UInt8) : Reason → Prop
  | .malformed => ¬ rest.length < c.prefixBytes.length ∧
      rest.take c.prefixBytes.length ≠ c.prefixBytes
  | .emptyBody => c.prefixBytes ++ c.suffixBytes <+: rest ∧ c.minLen < rest.length
  | .tooLong => Begins c rest ∧ ¬ c.suffixBytes <:+: rest.drop c.prefixBytes.length ∧
      rest.length = c.msgBufferSize

theorem broken_of_stop {rest : List UInt8} {e : Reason} (h : next c rest = .stop e)
    (hle : rest.length ≤ c.msgBufferSize) : Broken c rest e := by
  obtain ⟨rfl, hlen, htake⟩ | ⟨rfl, hb, hfound, hlong⟩ | ⟨rfl, hb, hfound, hfull⟩ :=
    next_eq_stop h
  · exact ⟨hlen, htake⟩
  · rw [searched_eq hle] at hfound
    obtain ⟨t, ht⟩ := ((memmem_eq_some c.suffix_ne).mp hfound).here
    rw [List.drop_zero] at ht
    exact ⟨⟨t, by rw [List.append_assoc, ht, begins_eq hb]⟩, hlong⟩
  · refine ⟨hb, fun hinfix => ?_, Nat.le_antisymm hle hfull⟩
    rw [searched_eq hle] at hfound
    obtain ⟨i, hi⟩ := FirstAt.exists_iff.mpr hinfix
    cases hfound.symm.trans ((memmem_eq_some c.suffix_ne).mpr hi)

/-- How a connection that has been given bytes beyond its messages stands. -/
def Standing (c : PrefixSuffixConfig) (lost : List (List UInt8)) (rest : List UInt8) :
    Phase (PrefixSuffixUnpacker c) → Prop
  | .reading r => lost = [] ∧ Pending c rest ∧ 0 < r.space
  | .recvError => lost = [] ∧ Pending c rest
  | .unpackError => lost = [] ∧ Broken c rest .malformed ∧ rest.length ≠ c.msgBufferSize
  | .fault e => e = .assertion ∧ ((lost = [] ∧ Broken c rest .malformed ∧
        rest.length = c.msgBufferSize) ∨
      (lost = [] ∧ Broken c rest .tooLong) ∨ Broken c rest .emptyBody)
  | .idle => False

/-- **Any bytes** in any pieces: those that have arrived are the messages that
have been delivered, as they are sent, those that are lost with the process,
and the rest. A message that is too long is never an unpack error: the buffer
is full then, and an assertion fails, as it does for a message without a body. -/
theorem delimited_stream (raw : Buffer UInt8 c.msgBufferSize)
    (l : Link (PrefixSuffixUnpacker c) (List UInt8))
    (h : Reach (interface c).step always ((interface c).start (resetState raw)) l) :
    (∀ m ∈ l.delivered, c.Packable m ∧ Clean c m) ∧
      ∃ lost rest, l.arrived = (l.delivered ++ lost).flatMap c.wire ++ rest ∧
        Standing c lost rest l.phase := by
  have hU := (buffered c).implements (resetState raw) rfl (.inl rfl)
  have hsound := hU.sound h
  have hle := (buffered c).rest_le (resetState raw) rfl (.inl rfl) h
  have hwrite := Framer.flatMap_append_rest (f := framer c)
    (fun _ _ _ hm => (wire_of_message hm).1) l.arrived
  have hpack := Framer.forall_messages (f := framer c)
    (fun _ _ _ hm => (wire_of_message hm).2) l.arrived
  cases hstop : ((framer c).cut l.arrived).stop with
  | none =>
    obtain ⟨hdel, hphase⟩ := hsound.going hstop
    have hmore := pending_of_more (Framer.next_rest_of_none hstop) hle
    rw [hdel]
    refine ⟨hpack, [], ((framer c).cut l.arrived).rest, ?_, ?_⟩
    · rw [List.append_nil]
      exact hwrite.symm
    obtain hphase | ⟨r, hphase, hrep⟩ := hphase
    · rw [hphase]
      exact ⟨rfl, hmore⟩
    · rw [hphase]
      exact ⟨rfl, hmore, hU.space hrep⟩
  | some e =>
    obtain ⟨before, last, hmsgs, hdel, hphase⟩ := hsound.stopped e hstop
    have hbroken := broken_of_stop (Framer.next_rest_of_some hstop) hle
    rw [hmsgs] at hwrite hpack
    by_cases hempty : e = .emptyBody
    · rw [Buffered.outcome, if_pos hempty] at hdel hphase
      rw [List.append_nil] at hdel
      rw [hdel, hphase]
      exact ⟨fun m hm => hpack m (List.mem_append_left _ hm), last, _, hwrite.symm, rfl,
        .inr (.inr (hempty ▸ hbroken))⟩
    · rw [Buffered.outcome, if_neg hempty] at hdel hphase
      rw [hdel, hphase]
      refine ⟨hpack, [], ((framer c).cut l.arrived).rest, ?_, ?_⟩
      · rw [List.append_nil]
        exact hwrite.symm
      cases e with
      | emptyBody => exact absurd rfl hempty
      | malformed =>
        split
        · rename_i hfull
          exact ⟨rfl, .inl ⟨rfl, hbroken, hfull⟩⟩
        · rename_i hfull
          exact ⟨rfl, hbroken, hfull⟩
      | tooLong =>
        rw [if_pos hbroken.2.2]
        exact ⟨rfl, .inr (.inl ⟨rfl, hbroken⟩)⟩

/-- A message, and a second one without a body, which ends the process. -/
theorem delimited_stream_noBody : ∃ (c : PrefixSuffixConfig)
    (l : Link (PrefixSuffixUnpacker c) (List UInt8)), l.delivered = [[65]] ∧
    ∃ lost rest, l.arrived = (l.delivered ++ lost).flatMap c.wire ++ rest ∧
      Standing c lost rest l.phase := by
  let c : PrefixSuffixConfig := ⟨8, [1], [2, 3], by decide, by decide⟩
  let acts : List Arrival := [.data [1, 65, 2, 3], .data [1, 2, 3], .data [0]]
  have hrun : (exec (interface c).step ((interface c).start (resetState (.filled 0))) acts).map
      (·.delivered) = some [[65]] := by
    decide +kernel
  obtain ⟨l, hl, hdel⟩ := Option.map_eq_some_iff.mp hrun
  exact ⟨c, l, hdel, (delimited_stream _ l (Reach.of_exec acts hl)).2⟩

/-- No message has been delivered but those that are on the stream. -/
theorem delivered_initial {raw : Buffer UInt8 c.msgBufferSize}
    {l : Link (PrefixSuffixUnpacker c) (List UInt8)}
    (h : Reach (interface c).step always ((interface c).start (resetState raw)) l) :
    l.delivered <+: ((framer c).cut l.arrived).messages := by
  have hsound := ((buffered c).implements (resetState raw) rfl (.inl rfl)).sound h
  cases hstop : ((framer c).cut l.arrived).stop with
  | none =>
    rewrite [(hsound.going hstop).1]
    exact List.prefix_rfl
  | some e =>
    obtain ⟨before, last, hmsgs, hdel, _⟩ := hsound.stopped e hstop
    rw [hmsgs, hdel, Buffered.outcome]
    split
    · exact ⟨last, by rw [List.append_nil]⟩
    · exact List.prefix_rfl

/-- Bodies that come out as they went in. -/
theorem clean_of_cut {bodies : List (List UInt8)} (hpack : ∀ b ∈ bodies, c.Packable b)
    (h : bodies <+: ((framer c).cut (bodies.flatMap c.wire)).messages) :
    ∀ b ∈ bodies, Clean c b := by
  induction bodies with
  | nil => simp
  | cons b bodies ih =>
    obtain ⟨hb, hrest⟩ := List.forall_mem_cons.mp hpack
    rw [List.flatMap_cons] at h
    cases hs : next c (c.wire b ++ bodies.flatMap c.wire) with
    | more =>
      rw [Framer.cut_more (f := framer c) hs] at h
      cases List.prefix_nil.mp h
    | stop e =>
      rw [Framer.cut_stop (f := framer c) hs] at h
      cases List.prefix_nil.mp h
    | message m n =>
      rw [Framer.cut_message (f := framer c) hs, List.cons_prefix_cons] at h
      obtain ⟨rfl, hmore⟩ := h
      have hclean := (wire_of_message hs).2.2
      have hnext := (framer c).message_append (bodies.flatMap c.wire) (next_wire hb hclean)
      cases hs.symm.trans hnext
      rw [List.drop_left] at hmore
      exact List.forall_mem_cons.mpr ⟨hclean, ih hrest hmore⟩

theorem cut_clean {bodies : List (List UInt8)} (hpack : ∀ b ∈ bodies, c.Packable b)
    (hclean : ∀ b ∈ bodies, Clean c b) :
    (framer c).cut (bodies.flatMap c.wire) = ⟨bodies, [], none⟩ :=
  Framer.cut_flatMap next_nil fun b hb => next_wire (hpack b hb) (hclean b hb)

/-- **Round trip.** All that `pack_msg` has made has arrived, in any pieces: the
messages come out as they went in exactly when the suffix is not met in any of
them before its end. -/
theorem delimited_round_trip (hsize : c.msgBufferSize < 2 ^ 63)
    (raw : Buffer UInt8 c.msgBufferSize) (msgs : List Pieces)
    (hsized : ∀ ps ∈ msgs, ps.Sized) (hpack : ∀ ps ∈ msgs, c.packMsg (some ps) false ≠ [])
    (l : Link (PrefixSuffixUnpacker c) (List UInt8))
    (h : Reach (interface c).step always ((interface c).start (resetState raw)) l)
    (harrived : l.arrived = msgs.flatMap fun ps => c.packMsg (some ps) false) :
    l.delivered = msgs.map Pieces.body ↔ ∀ ps ∈ msgs, Clean c ps.body := by
  have hpackable : ∀ b ∈ msgs.map Pieces.body, c.Packable b := by
    intro b hb
    obtain ⟨ps, hps, rfl⟩ := List.mem_map.mp hb
    exact PrefixSuffixConfig.packable_of_packMsg hsize (hsized ps hps) (hpack ps hps)
  have hwire : l.arrived = (msgs.map Pieces.body).flatMap c.wire := by
    rw [harrived, List.flatMap_map, List.flatMap_def, List.flatMap_def]
    congr 1
    exact List.map_congr_left fun ps hps => PrefixSuffixConfig.packMsg_of_packable hsize
      (hsized ps hps) (hpackable _ (List.mem_map_of_mem hps))
  have hclean : (∀ ps ∈ msgs, Clean c ps.body) ↔ ∀ b ∈ msgs.map Pieces.body, Clean c b := by
    rw [List.forall_mem_map]
  rw [hclean]
  constructor
  · intro hdel
    have hinitial := delivered_initial h
    rw [hdel, hwire] at hinitial
    exact clean_of_cut hpackable hinitial
  · intro hall
    have hcut := cut_clean hpackable hall
    have hsound := ((buffered c).implements (resetState raw) rfl (.inl rfl)).sound h
    rw [← hwire] at hcut
    rw [(hsound.going (by rw [hcut])).1, hcut]

/-- A suffix of two equal bytes behind a body that ends in one such byte: it is
met too early, and the message comes out short. -/
theorem delimited_round_trip_early : ∃ (c : PrefixSuffixConfig)
    (l : Link (PrefixSuffixUnpacker c) (List UInt8)),
    l.delivered = [[65]] ∧ (l.delivered = [[65, 2]] ↔ Clean c [65, 2]) := by
  let c : PrefixSuffixConfig := ⟨8, [1], [2, 2], by decide, by decide⟩
  let acts : List Arrival := [.data [1, 65], .data [2, 2, 2]]
  have hrun : (exec (interface c).step ((interface c).start (resetState (.filled 0))) acts).map
      (fun l => (l.delivered, l.arrived)) = some ([[65]], [1, 65, 2, 2, 2]) := by
    decide +kernel
  obtain ⟨l, hl, hseen⟩ := Option.map_eq_some_iff.mp hrun
  obtain ⟨hdel, harr⟩ := Prod.mk.inj hseen
  have hall := delimited_round_trip (by decide) (.filled 0) [[some [65, 2]]]
    (by unfold Pieces.Sized; decide) (by decide +kernel) l (Reach.of_exec acts hl)
    (by rw [harr]; decide +kernel)
  rw [List.forall_mem_singleton] at hall
  exact ⟨c, l, hdel, hall⟩

end PrefixSuffixUnpacker

end AsioTcp.Wrapper
