import HibtDesk.Network.Encrypt

/-! What is on its way over a TCP stream, frame by frame. The bytes are cut anyhow, but the
frames come out of the stream one by one as they were put in. -/
namespace HibtDesk

/-- The frames are all there is in the read buffer of a stream and on the wire to it. -/
def Underway (stream : FramedStream) (inbound : Bytes) (frames : List Bytes) : Prop :=
  ∃ state, stream.codec = .framing usizeMax state ∧
    (BytesCodec.decoder usizeMax).drain state (stream.buffer ++ inbound) =
      { items := frames, refused := none, state := .head, rest := [] }

/-- What a stream makes of a frame, with the encryption it has after that. -/
def openFrame (box : Secretbox) (encrypt : Option Encrypt) (frame : Bytes) :
    Except IoError Bytes × Option Encrypt :=
  match encrypt with
  | none => (.ok frame, none)
  | some key =>
      let (result, key) := key.dec box frame
      (result, some key)

section Next
variable {stream : FramedStream} {state after : DecodeState} {left : Bytes}

/-- The codec waits for a frame. -/
theorem next_of_wait (box : Secretbox) (hCodec : stream.codec = .framing usizeMax state)
    (hCall : BytesCodec.framedCall usizeMax state stream.buffer = (.ok none, after, left)) :
    stream.next box = (none, { stream with codec := .framing usizeMax after, buffer := left }) := by
  have hDecode : stream.codec.decode stream.buffer = _ :=
    hCodec ▸ BytesCodec.decode_framing state stream.buffer
  rw [hCall] at hDecode
  simp only [FramedStream.next, hDecode]

/-- The codec finds a frame. -/
theorem next_of_item (box : Secretbox) (hCodec : stream.codec = .framing usizeMax state) {frame : Bytes}
    (hCall : BytesCodec.framedCall usizeMax state stream.buffer = (.ok (some frame), after, left)) :
    stream.next box = (some (openFrame box stream.encrypt frame).1,
      { codec := .framing usizeMax after, buffer := left
        encrypt := (openFrame box stream.encrypt frame).2 }) := by
  have hDecode : stream.codec.decode stream.buffer = _ :=
    hCodec ▸ BytesCodec.decode_framing state stream.buffer
  rw [hCall] at hDecode
  cases hEncrypt : stream.encrypt with
  | none => simp only [FramedStream.next, hDecode, hEncrypt, openFrame]
  | some key => simp only [FramedStream.next, hDecode, hEncrypt, openFrame]

end Next

namespace Underway
variable {stream : FramedStream} {inbound : Bytes} {frames : List Bytes}

theorem ofSocket : Underway .ofSocket [] [] := by
  refine ⟨.head, rfl, ?_⟩
  have hNone : BytesCodec.parse usizeMax [] = ⟨[], false, [], []⟩ := BytesCodec.parse_of_none rfl
  rw [BytesCodec.drain_eq_parse]
  simp only [FramedStream.ofSocket, List.append_nil, hNone]
  rfl

theorem framed (h : Underway stream inbound frames) : stream.codec.raw = false := by
  obtain ⟨state, hCodec, -⟩ := h
  rw [hCodec]
  rfl

/-- The encryption does not matter to the bytes. -/
theorem encrypt (h : Underway stream inbound frames) (encrypt : Option Encrypt) :
    Underway { stream with encrypt := encrypt } inbound frames := h

theorem append (h : Underway stream inbound frames) {frame header : Bytes}
    (hHeader : BytesCodec.encodeHead frame.length = some header) (hFits : frame.length ≤ usizeMax) :
    Underway stream (inbound ++ (header ++ frame)) (frames ++ [frame]) := by
  obtain ⟨state, hCodec, hDrain⟩ := h
  refine ⟨state, hCodec, ?_⟩
  have hLast : (BytesCodec.decoder usizeMax).drain .head (header ++ frame) =
      ⟨[frame], none, .head, []⟩ := by
    have hNone : BytesCodec.parse usizeMax [] = ⟨[], false, [], []⟩ := BytesCodec.parse_of_none rfl
    have hParse := BytesCodec.parse_frame hHeader hFits []
    rw [List.append_nil, hNone] at hParse
    rw [BytesCodec.drain_eq_parse, hParse]
    rfl
  rw [← List.append_assoc, Incremental.Decoder.drain_append, hDrain]
  simp only [List.nil_append, hLast]

theorem arrive (h : Underway stream inbound frames) (count : Nat) :
    Underway { stream with buffer := stream.buffer ++ inbound.take count } (inbound.drop count)
      frames := by
  obtain ⟨state, hCodec, hDrain⟩ := h
  refine ⟨state, hCodec, ?_⟩
  dsimp only
  rw [List.append_assoc, List.take_append_drop]
  exact hDrain

/-- `next` takes the first frame, or waits for it. With nothing on the wire it waits only if
there is no frame at all. -/
theorem next (box : Secretbox) (h : Underway stream inbound frames) :
    ((stream.next box).1 = none ∧ (stream.next box).2.encrypt = stream.encrypt ∧
        Underway (stream.next box).2 inbound frames ∧ (inbound = [] → frames = [])) ∨
      ∃ frame rest, frames = frame :: rest ∧
        (stream.next box).1 = some (openFrame box stream.encrypt frame).1 ∧
        (stream.next box).2.encrypt = (openFrame box stream.encrypt frame).2 ∧
        Underway (stream.next box).2 inbound rest := by
  obtain ⟨state, hCodec, hDrain⟩ := h
  cases hCall : BytesCodec.framedCall usizeMax state stream.buffer with
  | mk result left =>
      obtain ⟨after, rest⟩ := left
      match result with
      | .error error =>
          -- A refusal would show in what is under way.
          have hFail := (BytesCodec.decoder usizeMax).fail_append hCall inbound
          rw [Incremental.Decoder.drain_of_fail hFail] at hDrain
          cases congrArg Incremental.Drained.refused hDrain
      | .ok none =>
          rw [next_of_wait box hCodec hCall]
          refine Or.inl ⟨rfl, rfl, ⟨after, rfl, ?_⟩, fun hNone => ?_⟩
          · rw [← hDrain]
            exact (Incremental.Decoder.drain_append_of_wait hCall inbound).symm
          · have hWait : (BytesCodec.decoder usizeMax).drain state stream.buffer = _ :=
              Incremental.Decoder.drain_of_wait hCall
            rw [hNone, List.append_nil, hWait] at hDrain
            exact (congrArg Incremental.Drained.items hDrain).symm
      | .ok (some frame) =>
          have hItem := (BytesCodec.decoder usizeMax).item_append hCall inbound
          rw [Incremental.Decoder.drain_of_item hItem] at hDrain
          cases hRest : (BytesCodec.decoder usizeMax).drain after (rest ++ inbound)
          rw [hRest] at hDrain
          simp only [Incremental.Drained.mk.injEq] at hDrain
          obtain ⟨hFrames, rfl, rfl, rfl⟩ := hDrain
          rw [next_of_item box hCodec hCall]
          exact Or.inr ⟨frame, _, hFrames.symm, rfl, rfl, after, rfl, hRest⟩

/-- A message whose frame fits is put on the wire; the codec refuses any other. Either way the
message has been sealed. -/
theorem sendRaw (box : Secretbox) (h : Underway stream inbound frames) (msg : Bytes) :
    let (encrypt, frame) := sealMessage box stream.encrypt msg
    (∃ header, BytesCodec.encodeHead frame.length = some header ∧ frame.length ≤ 0x3FFFFFFF ∧
      stream.sendRaw box msg = (.ok (), { stream with encrypt := encrypt }, header ++ frame)) ∨
    (0x3FFFFFFF < frame.length ∧
      stream.sendRaw box msg = (.error BytesCodec.overflow, { stream with encrypt := encrypt }, [])) := by
  cases hSeal : sealMessage box stream.encrypt msg with
  | mk encrypt frame =>
      by_cases hFits : frame.length ≤ 0x3FFFFFFF
      · obtain ⟨header, hHeader, hEncode⟩ := BytesCodec.encode_of_fits h.framed hFits []
        refine Or.inl ⟨header, hHeader, hFits, ?_⟩
        simp [FramedStream.sendRaw, hSeal, hEncode]
      · have hLong := Nat.lt_of_not_le hFits
        refine Or.inr ⟨hLong, ?_⟩
        simp [FramedStream.sendRaw, hSeal, BytesCodec.encode_of_long h.framed hLong]

end Underway

end HibtDesk
