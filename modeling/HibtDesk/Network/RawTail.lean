import HibtDesk.Network.Delivery

/-! A stream that is turned into one without frames. Each end goes over on its own, so there
may be frames on their way to an end, and bytes that are none behind them. -/
namespace HibtDesk

/-- A key and how many messages have been sealed, or frames opened, under it. -/
abbrev Counter := Option (Bytes × UInt64)

namespace Counter

def next (counter : Counter) : Counter := counter.map fun (key, count) => (key, count + 1)

/-- The frame of a message. -/
def frame (box : Secretbox) (counter : Counter) (msg : Bytes) : Bytes :=
  match counter with
  | none => msg
  | some (key, count) => box.sealBox msg (getNonce (count + 1)) key

/-- The frames of messages one after another. -/
def frames (box : Secretbox) : Counter → List Bytes → List Bytes
  | _, [] => []
  | counter, msg :: msgs => counter.frame box msg :: frames box counter.next msgs

theorem frames_concat (box : Secretbox) (counter : Counter) (msgs : List Bytes) (msg : Bytes) :
    counter.frames box (msgs ++ [msg]) =
      counter.frames box msgs ++ [Counter.frame box (next^[msgs.length] counter) msg] := by
  induction msgs generalizing counter with
  | nil => rfl
  | cons first msgs ih => simp [frames, ih]

end Counter

namespace FramedStream

def sealing (stream : FramedStream) : Counter := stream.encrypt.map fun e => (e.key, e.sealed)

def opening (stream : FramedStream) : Counter := stream.encrypt.map fun e => (e.key, e.opened)

/-- `send_bytes`, with the bytes that reach the socket. -/
def sendBytes (stream : FramedStream) (bytes : Bytes) : Bytes := (stream.codec.encode bytes []).2

variable {stream : FramedStream} {box : Secretbox}

theorem sendBytes_of_raw (hRaw : stream.codec.raw = true) (bytes : Bytes) :
    stream.sendBytes bytes = bytes := by
  simp [sendBytes, BytesCodec.encode, hRaw]

theorem sealMessage_eq (box : Secretbox) (stream : FramedStream) (msg : Bytes) :
    (sealMessage box stream.encrypt msg).2 = stream.sealing.frame box msg := by
  unfold sealing
  cases hEncrypt : stream.encrypt <;> rfl

/-- A frame that the other end has sealed under the count at which it is opened. -/
theorem openFrame_frame (hBox : box.Documented) (msg : Bytes) :
    ∃ encrypt, openFrame box stream.encrypt (stream.opening.frame box msg) = (.ok msg, encrypt) ∧
      ∀ after : FramedStream, after.encrypt = encrypt →
        after.opening = stream.opening.next ∧ after.sealing = stream.sealing := by
  unfold opening sealing
  cases hEncrypt : stream.encrypt with
  | none =>
      refine ⟨none, rfl, fun after hAfter => ?_⟩
      rw [hAfter]
      exact ⟨rfl, rfl⟩
  | some key =>
      have hLong : 1 < (box.sealBox msg key.decNonce key.key).length := by
        rw [hBox.seal_length]
        omega
      refine ⟨some { key with opened := key.opened + 1 }, ?_, fun after hAfter => ?_⟩
      · have hDec : key.dec box (box.sealBox msg key.decNonce key.key) =
            (.ok msg, { key with opened := key.opened + 1 }) := by
          rw [Ends.dec_of_long hLong, hBox.open_seal]
          rfl
        exact congrArg (fun result => (result.1, some result.2)) hDec
      · rw [hAfter]
        exact ⟨rfl, rfl⟩

end FramedStream

/-- In the read buffer of a stream and on the wire to it are the frames, and bytes behind them. -/
def Ahead (stream : FramedStream) (inbound : Bytes) (frames : List Bytes) (tail : Bytes) : Prop :=
  ∃ state front, stream.codec = .framing usizeMax state ∧ stream.buffer ++ inbound = front ++ tail ∧
    (BytesCodec.decoder usizeMax).drain state front =
      { items := frames, refused := none, state := .head, rest := [] }

namespace Ahead
variable {stream : FramedStream} {inbound tail : Bytes} {frames : List Bytes}

theorem nil_iff : Ahead stream inbound frames [] ↔ Underway stream inbound frames := by
  constructor
  · rintro ⟨state, front, hCodec, hBytes, hDrain⟩
    rw [List.append_nil] at hBytes
    exact ⟨state, hCodec, hBytes ▸ hDrain⟩
  · rintro ⟨state, hCodec, hDrain⟩
    exact ⟨state, _, hCodec, (List.append_nil _).symm, hDrain⟩

theorem framed (h : Ahead stream inbound frames tail) : stream.codec.raw = false := by
  obtain ⟨state, -, hCodec, -⟩ := h
  rw [hCodec]
  rfl

/-- Bytes without frames go behind what is there. -/
theorem more (h : Ahead stream inbound frames tail) (bytes : Bytes) :
    Ahead stream (inbound ++ bytes) frames (tail ++ bytes) := by
  obtain ⟨state, front, hCodec, hBytes, hDrain⟩ := h
  refine ⟨state, front, hCodec, ?_, hDrain⟩
  rw [← List.append_assoc, hBytes, List.append_assoc]

theorem arrive (h : Ahead stream inbound frames tail) (count : Nat) :
    Ahead { stream with buffer := stream.buffer ++ inbound.take count } (inbound.drop count)
      frames tail := by
  obtain ⟨state, front, hCodec, hBytes, hDrain⟩ := h
  refine ⟨state, front, hCodec, ?_, hDrain⟩
  dsimp only
  rw [List.append_assoc, List.take_append_drop]
  exact hBytes

/-- Without frames there is only what is behind them. -/
theorem bytes_of_nil (h : Ahead stream inbound [] tail) : stream.buffer ++ inbound = tail := by
  obtain ⟨state, front, hCodec, hBytes, hDrain⟩ := h
  have hFront : front = [] := by
    cases hCall : BytesCodec.framedCall usizeMax state front with
    | mk result left =>
        obtain ⟨after, rest⟩ := left
        match result with
        | .error error =>
            rw [Incremental.Decoder.drain_of_fail hCall] at hDrain
            cases congrArg Incremental.Drained.refused hDrain
        | .ok (some frame) =>
            rw [Incremental.Decoder.drain_of_item hCall] at hDrain
            cases congrArg Incremental.Drained.items hDrain
        | .ok none =>
            rw [Incremental.Decoder.drain_of_wait hCall] at hDrain
            simp only [Incremental.Drained.mk.injEq, true_and] at hDrain
            obtain ⟨rfl, rfl⟩ := hDrain
            -- Only a decoder that looks for a header ends where it looks for one.
            have hHead : ∀ {n : Nat} {body : Bytes}, BytesCodec.framedCall usizeMax (.data n) body ≠
                (.ok none, .head, []) := by
              intro n body hData
              rcases BytesCodec.framedCall_data_cases hData with ⟨-, -, hAfter, -⟩ | ⟨-, hResult, -⟩
              · cases hAfter
              · cases hResult
            cases state with
            | data n => exact absurd hCall hHead
            | head =>
                rcases BytesCodec.framedCall_head_cases hCall with
                  ⟨-, -, -, hRest⟩ | ⟨header, body, -, ⟨-, hResult, -⟩ | ⟨-, hBody⟩⟩
                · exact hRest.symm
                · cases hResult
                · exact absurd hBody hHead
  rw [hBytes, hFront, List.nil_append]

/-- The first frame is taken, or waited for, whatever is behind the frames. Without frames
nothing of what is behind them may have arrived. -/
theorem call (h : Ahead stream inbound frames tail) (hSome : frames ≠ [] ∨ stream.buffer = []) :
    ∃ state, stream.codec = .framing usizeMax state ∧
      ((∃ after left, BytesCodec.framedCall usizeMax state stream.buffer = (.ok none, after, left) ∧
          Ahead { stream with codec := .framing usizeMax after, buffer := left } inbound frames tail) ∨
        ∃ frame rest after left, frames = frame :: rest ∧
          BytesCodec.framedCall usizeMax state stream.buffer = (.ok (some frame), after, left) ∧
          Ahead { stream with codec := .framing usizeMax after, buffer := left } inbound rest tail) := by
  obtain ⟨state, front, hCodec, hBytes, hDrain⟩ := h
  refine ⟨state, hCodec, ?_⟩
  rcases List.append_eq_append_iff.mp hBytes with ⟨more, hFront, hInbound⟩ | ⟨more, hBuffer, hTail⟩
  · -- All that has arrived is part of the frames.
    cases hCall : BytesCodec.framedCall usizeMax state stream.buffer with
    | mk result left =>
        obtain ⟨after, left⟩ := left
        match result with
        | .error error =>
            have hFail := (BytesCodec.decoder usizeMax).fail_append hCall more
            rw [hFront, Incremental.Decoder.drain_of_fail hFail] at hDrain
            cases congrArg Incremental.Drained.refused hDrain
        | .ok none =>
            refine Or.inl ⟨after, left, rfl, after, left ++ more, rfl, ?_, ?_⟩
            · rw [hInbound, ← List.append_assoc]
            · rw [← hDrain, hFront]
              exact (Incremental.Decoder.drain_append_of_wait hCall more).symm
        | .ok (some frame) =>
            have hItem := (BytesCodec.decoder usizeMax).item_append hCall more
            rw [hFront, Incremental.Decoder.drain_of_item hItem] at hDrain
            simp only [Incremental.Drained.mk.injEq] at hDrain
            obtain ⟨hFrames, hRefused, hState, hRest⟩ := hDrain
            refine Or.inr ⟨frame, _, after, left, hFrames.symm, rfl, after, left ++ more, rfl, ?_, ?_⟩
            · rw [hInbound, ← List.append_assoc]
            · rw [← hRefused, ← hState, ← hRest]
  · -- The frames have arrived, and some of what is behind them.
    cases hCall : BytesCodec.framedCall usizeMax state front with
    | mk result left =>
        obtain ⟨after, left⟩ := left
        match result with
        | .error error =>
            rw [Incremental.Decoder.drain_of_fail hCall] at hDrain
            cases congrArg Incremental.Drained.refused hDrain
        | .ok none =>
            have hNothing : stream.buffer = [] := by
              refine hSome.resolve_left (not_not.mpr ?_)
              rw [Incremental.Decoder.drain_of_wait hCall] at hDrain
              exact (congrArg Incremental.Drained.items hDrain).symm
            obtain ⟨rfl, rfl⟩ := List.append_eq_nil_iff.mp (hBuffer.symm.trans hNothing)
            rw [hNothing]
            refine Or.inl ⟨after, left, hCall, after, left, rfl, ?_, ?_⟩
            · rw [hTail, List.nil_append]
            · rw [← hDrain]
              have hWait : (BytesCodec.decoder usizeMax).drain state ([] ++ []) =
                  (BytesCodec.decoder usizeMax).drain after (left ++ []) :=
                Incremental.Decoder.drain_append_of_wait hCall []
              rw [List.append_nil, List.append_nil] at hWait
              exact hWait.symm
        | .ok (some frame) =>
            have hItem : BytesCodec.framedCall usizeMax state (front ++ more) = _ :=
              (BytesCodec.decoder usizeMax).item_append hCall more
            rw [Incremental.Decoder.drain_of_item hCall] at hDrain
            simp only [Incremental.Drained.mk.injEq] at hDrain
            obtain ⟨hFrames, hRefused, hState, hRest⟩ := hDrain
            rw [hBuffer]
            refine Or.inr ⟨frame, _, after, left ++ more, hFrames.symm, hItem, after, left, rfl, ?_, ?_⟩
            · rw [hTail]
              exact List.append_assoc ..
            · rw [← hRefused, ← hState, ← hRest]

/-- `next` takes the first frame, or waits for it. -/
theorem next (box : Secretbox) (h : Ahead stream inbound frames tail)
    (hSome : frames ≠ [] ∨ stream.buffer = [] ∨ tail = []) :
    ((stream.next box).1 = none ∧ (stream.next box).2.encrypt = stream.encrypt ∧
        Ahead (stream.next box).2 inbound frames tail) ∨
      ∃ frame rest, frames = frame :: rest ∧
        (stream.next box).1 = some (openFrame box stream.encrypt frame).1 ∧
        (stream.next box).2.encrypt = (openFrame box stream.encrypt frame).2 ∧
        Ahead (stream.next box).2 inbound rest tail := by
  rcases or_assoc.mpr hSome with hCalls | rfl
  · obtain ⟨state, hCodec, hCall⟩ := h.call hCalls
    rcases hCall with ⟨after, left, hWait, hAhead⟩ | ⟨frame, rest, after, left, hFrames, hItem, hAhead⟩
    · rw [next_of_wait box hCodec hWait]
      exact Or.inl ⟨rfl, rfl, hAhead⟩
    · rw [next_of_item box hCodec hItem]
      exact Or.inr ⟨frame, rest, hFrames, rfl, rfl, hAhead⟩
  · rcases (nil_iff.mp h).next box with
      ⟨hNext, hEncrypt, hUnderway, -⟩ | ⟨frame, rest, hFrames, hNext, hEncrypt, hUnderway⟩
    · exact Or.inl ⟨hNext, hEncrypt, nil_iff.mpr hUnderway⟩
    · exact Or.inr ⟨frame, rest, hFrames, hNext, hEncrypt, nil_iff.mpr hUnderway⟩

end Ahead

/-- One direction between two ends, each of which frames its bytes or has gone over. The
messages are those that have not been read. Of the bytes without frames the sender has put in
the fresh ones, and the reader has taken out the written ones. -/
def Direction (box : Secretbox) (sealing : Counter) (senderRaw readerRaw : Bool)
    (reader : FramedStream) (inbound : Bytes) (msgs : List Bytes) (fresh written : Bytes) : Prop :=
  match senderRaw, readerRaw with
  | false, false => sealing = Counter.next^[msgs.length] reader.opening ∧
      Ahead reader inbound (reader.opening.frames box msgs) [] ∧ fresh = [] ∧ written = []
  | true, false => Ahead reader inbound (reader.opening.frames box msgs) fresh ∧ written = []
  | false, true => reader.codec.raw = true ∧ reader.encrypt = none ∧ msgs = [] ∧
      reader.buffer = [] ∧ inbound = [] ∧ fresh = [] ∧ written = []
  | true, true => reader.codec.raw = true ∧ reader.encrypt = none ∧ msgs = [] ∧
      fresh = written ++ (reader.buffer ++ inbound)

namespace Direction
variable {box : Secretbox} {sealing : Counter} {senderRaw readerRaw : Bool} {reader : FramedStream}
  {inbound fresh written : Bytes} {msgs : List Bytes}

/-- Nothing but fresh bytes is written, each once and in order. -/
theorem in_order (h : Direction box sealing senderRaw readerRaw reader inbound msgs fresh written) :
    written <+: fresh := by
  cases senderRaw <;> cases readerRaw
  · exact h.2.2.2 ▸ List.nil_prefix
  · exact h.2.2.2.2.2.2 ▸ List.nil_prefix
  · exact h.2 ▸ List.nil_prefix
  · exact ⟨_, h.2.2.2.symm⟩

theorem readerCodec (h : Direction box sealing senderRaw readerRaw reader inbound msgs fresh written) :
    reader.codec.raw = readerRaw := by
  cases senderRaw <;> cases readerRaw
  · exact h.2.1.framed
  · exact h.1
  · exact h.1.framed
  · exact h.1

/-- The reader may seal messages of its own. -/
theorem reader_congr {other : FramedStream}
    (h : Direction box sealing senderRaw readerRaw reader inbound msgs fresh written)
    (hCodec : other.codec = reader.codec) (hBuffer : other.buffer = reader.buffer)
    (hOpening : other.opening = reader.opening)
    (hEncrypt : reader.encrypt = none → other.encrypt = none) :
    Direction box sealing senderRaw readerRaw other inbound msgs fresh written := by
  have hAhead : ∀ {frames tail}, Ahead reader inbound frames tail → Ahead other inbound frames tail := by
    rintro frames tail ⟨state, front, hState, hBytes, hDrain⟩
    exact ⟨state, front, hCodec.trans hState, hBuffer ▸ hBytes, hDrain⟩
  cases senderRaw <;> cases readerRaw
  · obtain ⟨hSealing, hFrames, hFresh, hWritten⟩ := h
    refine ⟨hOpening ▸ hSealing, ?_, hFresh, hWritten⟩
    rw [hOpening]
    exact hAhead hFrames
  · obtain ⟨hRaw, hPlain, hMsgs, hEmpty, hRest⟩ := h
    exact ⟨hCodec ▸ hRaw, hEncrypt hPlain, hMsgs, hBuffer.trans hEmpty, hRest⟩
  · obtain ⟨hFrames, hWritten⟩ := h
    refine ⟨?_, hWritten⟩
    rw [hOpening]
    exact hAhead hFrames
  · obtain ⟨hRaw, hPlain, hMsgs, hFresh⟩ := h
    exact ⟨hCodec ▸ hRaw, hEncrypt hPlain, hMsgs, hBuffer ▸ hFresh⟩

theorem arrive (h : Direction box sealing senderRaw readerRaw reader inbound msgs fresh written)
    (count : Nat) :
    Direction box sealing senderRaw readerRaw
      { reader with buffer := reader.buffer ++ inbound.take count } (inbound.drop count) msgs fresh
      written := by
  cases senderRaw <;> cases readerRaw
  · obtain ⟨hSealing, hFrames, hRest⟩ := h
    exact ⟨hSealing, hFrames.arrive count, hRest⟩
  · obtain ⟨hRaw, hPlain, hMsgs, hBuffer, rfl, hRest⟩ := h
    refine ⟨hRaw, hPlain, hMsgs, ?_, ?_, hRest⟩
    · simpa using hBuffer
    · simp
  · obtain ⟨hFrames, hWritten⟩ := h
    exact ⟨hFrames.arrive count, hWritten⟩
  · obtain ⟨hRaw, hPlain, hMsgs, hFresh⟩ := h
    refine ⟨hRaw, hPlain, hMsgs, ?_⟩
    dsimp only
    rw [List.append_assoc, List.take_append_drop]
    exact hFresh

/-- A sender that has not gone over puts a message in. -/
theorem send {sender : FramedStream} {msg : Bytes} (hBox : box.Documented)
    (h : Direction box sender.sealing false false reader inbound msgs fresh written)
    (hCodec : sender.codec.raw = false) (hFits : msg.length + 16 ≤ 0x3FFFFFFF) :
    ∃ encrypt out,
      sender.sendRaw box msg = (.ok (), { sender with encrypt := encrypt }, out) ∧
        FramedStream.opening { sender with encrypt := encrypt } = sender.opening ∧
        (sender.encrypt = none → encrypt = none) ∧
        Direction box (FramedStream.sealing { sender with encrypt := encrypt }) false false reader
          (inbound ++ out) (msgs ++ [msg]) fresh written := by
  obtain ⟨hSealing, hFrames, hFresh, hWritten⟩ := h
  have hFrame := FramedStream.sealMessage_eq box sender msg
  have hShort : (sender.sealing.frame box msg).length ≤ 0x3FFFFFFF := by
    unfold Counter.frame
    split
    · omega
    · rw [hBox.seal_length]
      exact hFits
  obtain ⟨header, hHeader, hEncode⟩ := BytesCodec.encode_of_fits hCodec hShort []
  have hNext : FramedStream.sealing
      { sender with encrypt := (sealMessage box sender.encrypt msg).1 } = sender.sealing.next ∧
      FramedStream.opening { sender with encrypt := (sealMessage box sender.encrypt msg).1 } =
        sender.opening ∧
      (sender.encrypt = none → (sealMessage box sender.encrypt msg).1 = none) := by
    unfold FramedStream.sealing FramedStream.opening
    cases hEncrypt : sender.encrypt with
    | none => exact ⟨rfl, rfl, fun _ => rfl⟩
    | some key => exact ⟨rfl, rfl, nofun⟩
  refine ⟨_, header ++ sender.sealing.frame box msg, ?_, hNext.2.1, hNext.2.2, ?_, ?_, hFresh, hWritten⟩
  · simp [FramedStream.sendRaw, hFrame, hEncode]
  · rw [hNext.1, hSealing, List.length_append, List.length_singleton,
      Function.iterate_succ_apply']
  · rw [Counter.frames_concat, ← hSealing]
    exact Ahead.nil_iff.mpr ((Ahead.nil_iff.mp hFrames).append hHeader
      (Nat.le_trans hShort (by decide)))

/-- A sender that has gone over puts bytes in as they are. -/
theorem sendBytes (h : Direction box sealing true readerRaw reader inbound msgs fresh written)
    (bytes : Bytes) :
    Direction box sealing true readerRaw reader (inbound ++ bytes) msgs (fresh ++ bytes) written := by
  cases readerRaw
  · obtain ⟨hFrames, hWritten⟩ := h
    exact ⟨hFrames.more bytes, hWritten⟩
  · obtain ⟨hRaw, hPlain, hMsgs, rfl⟩ := h
    exact ⟨hRaw, hPlain, hMsgs, by simp only [List.append_assoc]⟩

/-- A reader that has not gone over takes the first message out, or waits for it. -/
theorem nextMessage (hBox : box.Documented)
    (h : Direction box sealing senderRaw false reader inbound msgs fresh written)
    (hSome : senderRaw = true → msgs ≠ [] ∨ reader.buffer = []) :
    (reader.next box).2.sealing = reader.sealing ∧
      (((reader.next box).1 = none ∧
          Direction box sealing senderRaw false (reader.next box).2 inbound msgs fresh written) ∨
        ∃ msg rest, msgs = msg :: rest ∧ (reader.next box).1 = some (.ok msg) ∧
          Direction box sealing senderRaw false (reader.next box).2 inbound rest fresh written) := by
  obtain ⟨tail, hFrames, hTail, hFresh⟩ : ∃ tail,
      Ahead reader inbound (reader.opening.frames box msgs) tail ∧
        (senderRaw = false → tail = []) ∧ (senderRaw = true → tail = fresh) := by
    cases senderRaw
    · exact ⟨[], h.2.1, fun _ => rfl, by simp⟩
    · exact ⟨fresh, h.1, by simp, fun _ => rfl⟩
  have hNeeds : reader.opening.frames box msgs ≠ [] ∨ reader.buffer = [] ∨ tail = [] := by
    cases senderRaw
    · exact Or.inr (Or.inr (hTail rfl))
    · rcases hSome rfl with hMsgs | hNothing
      · obtain ⟨msg, rest, rfl⟩ := List.exists_cons_of_ne_nil hMsgs
        exact Or.inl (List.cons_ne_nil _ _)
      · exact Or.inr (Or.inl hNothing)
  rcases hFrames.next box hNeeds with
    ⟨hNone, hEncrypt, hLater⟩ | ⟨frame, rest, hFirst, hTaken, hEncrypt, hLater⟩
  · have hOpening : (reader.next box).2.opening = reader.opening := by
      simp only [FramedStream.opening, hEncrypt]
    refine ⟨by simp only [FramedStream.sealing, hEncrypt], Or.inl ⟨hNone, ?_⟩⟩
    cases senderRaw
    · obtain ⟨hSealing, -, hRest⟩ := h
      obtain rfl := hTail rfl
      exact ⟨hOpening ▸ hSealing, by rw [hOpening]; exact hLater, hRest⟩
    · obtain rfl := hFresh rfl
      exact ⟨by rw [hOpening]; exact hLater, h.2⟩
  · cases msgs with
    | nil => cases hFirst
    | cons msg msgs =>
        obtain ⟨rfl, rfl⟩ := List.cons.inj hFirst
        obtain ⟨encrypt, hOpen, hAfter⟩ := reader.openFrame_frame hBox msg
        rw [hOpen] at hTaken hEncrypt
        obtain ⟨hOpening, hSame⟩ := hAfter _ hEncrypt
        refine ⟨hSame, Or.inr ⟨msg, msgs, rfl, hTaken, ?_⟩⟩
        cases senderRaw
        · obtain ⟨hSealing, -, hRest⟩ := h
          obtain rfl := hTail rfl
          refine ⟨?_, by rw [hOpening]; exact hLater, hRest⟩
          rw [hOpening, hSealing, List.length_cons, Function.iterate_succ_apply]
        · obtain rfl := hFresh rfl
          exact ⟨by rw [hOpening]; exact hLater, h.2⟩

/-- A reader that has gone over takes all bytes out that have arrived. -/
theorem nextBytes (h : Direction box sealing senderRaw true reader inbound msgs fresh written) :
    ((reader.next box).1 = none ∧ (reader.next box).2 = reader) ∨
      ∃ bytes, (reader.next box).1 = some (.ok bytes) ∧
        (reader.next box).2 = { reader with buffer := [] } ∧
        Direction box sealing senderRaw true { reader with buffer := [] } inbound msgs fresh
          (written ++ bytes) := by
  obtain ⟨hRaw, hPlain⟩ : reader.codec.raw = true ∧ reader.encrypt = none := by
    cases senderRaw
    · exact ⟨h.1, h.2.1⟩
    · exact ⟨h.1, h.2.1⟩
  cases hBuffer : reader.buffer with
  | nil =>
      left
      have hNext : reader.next box = (none, { reader with codec := reader.codec, buffer := [] }) := by
        simp [FramedStream.next, BytesCodec.decode, hRaw, hBuffer]
      rw [hNext, ← hBuffer]
      exact ⟨rfl, rfl⟩
  | cons byte rest =>
      have hNext : reader.next box =
          (some (.ok (byte :: rest)), { reader with buffer := [] }) := by
        simp [FramedStream.next, BytesCodec.decode, hRaw, hBuffer, hPlain]
      rw [hNext]
      refine Or.inr ⟨byte :: rest, rfl, rfl, ?_⟩
      cases senderRaw
      · cases hBuffer.symm.trans h.2.2.2.1
      · obtain ⟨-, -, hMsgs, hFresh⟩ := h
        refine ⟨hRaw, hPlain, hMsgs, ?_⟩
        rw [hFresh, hBuffer]
        simp only [List.append_assoc, List.nil_append]

/-- The sender goes over. -/
theorem senderGoesOver (h : Direction box sealing false readerRaw reader inbound msgs fresh written)
    (counter : Counter) :
    Direction box counter true readerRaw reader inbound msgs fresh written := by
  cases readerRaw
  · obtain ⟨-, hFrames, rfl, hWritten⟩ := h
    exact ⟨hFrames, hWritten⟩
  · obtain ⟨hRaw, hPlain, hMsgs, hBuffer, rfl, rfl, rfl⟩ := h
    exact ⟨hRaw, hPlain, hMsgs, by rw [hBuffer]; rfl⟩

/-- The reader goes over once it has read every message. -/
theorem readerGoesOver (h : Direction box sealing senderRaw false reader inbound [] fresh written) :
    Direction box sealing senderRaw true reader.setRaw inbound [] fresh written := by
  cases senderRaw
  · obtain ⟨-, hFrames, hFresh, hWritten⟩ := h
    obtain ⟨hBuffer, hInbound⟩ := List.append_eq_nil_iff.mp hFrames.bytes_of_nil
    exact ⟨rfl, rfl, rfl, hBuffer, hInbound, hFresh, hWritten⟩
  · obtain ⟨hFrames, rfl⟩ := h
    exact ⟨rfl, rfl, rfl, by rw [List.nil_append]; exact hFrames.bytes_of_nil.symm⟩

end Direction

end HibtDesk
