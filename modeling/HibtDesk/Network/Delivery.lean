import HibtDesk.Network.Authenticity
import HibtDesk.Network.Underway

/-! A secured stream over a network that delivers the bytes of each direction in
order, cut anyhow. The sender counts a message before the codec looks at it, so
a message the codec refuses leaves the two counters apart for good. -/
namespace HibtDesk

/-- What the documentation promises of the secretbox: a box is opened by the
nonce and the key it was sealed under, and is 16 bytes longer than the message. -/
structure Secretbox.Documented (box : Secretbox) : Prop where
  open_seal : ∀ data nonce key, box.openBox (box.sealBox data nonce key) nonce key = some data
  seal_length : ∀ data nonce key, (box.sealBox data nonce key).length = data.length + 16

/-- One end of a stream: the bytes on their way to it, the messages it passed to
`send_raw` with result `Ok` and with an error, and what `next` returned. -/
structure Correspondent where
  stream : FramedStream
  inbound : Bytes
  accepted : List Bytes
  refused : List Bytes
  received : List (Except IoError Bytes)

abbrev Line := Side → Correspondent

inductive LineEvent where
  | send (side : Side) (msg : Bytes)
  /-- The next `count` bytes reach the end's read buffer. -/
  | arrive (side : Side) (count : Nat)
  | next (side : Side)
  deriving DecidableEq, Repr

theorem Secretbox.marking_documented : Secretbox.marking.Documented := by
  have hMark : ∀ nonce : Bytes, ((nonce ++ List.replicate 16 0).take 16).length = 16 := by
    intro nonce
    simp
  refine ⟨fun data nonce key => ?_, fun data nonce key => ?_⟩
  · simp only [marking, List.take_left' (hMark nonce), List.drop_left' (hMark nonce), if_true]
  · simp only [marking, List.length_append, hMark nonce]
    omega

namespace Line
variable (box : Secretbox)

def start (key : Bytes) : Line :=
  fun _ =>
    { stream := FramedStream.ofSocket.setKey key, inbound := [], accepted := [], refused := [],
      received := [] }

def step (line : Line) : LineEvent → Line
  | .send side msg =>
      match (line side).stream.sendRaw box msg with
      | (.ok (), stream, out) =>
          let sent := Function.update line side
            { line side with stream := stream, accepted := (line side).accepted ++ [msg] }
          Function.update sent side.other
            { sent side.other with inbound := (sent side.other).inbound ++ out }
      | (.error _, stream, _) =>
          Function.update line side
            { line side with stream := stream, refused := (line side).refused ++ [msg] }
  | .arrive side count =>
      let stream := (line side).stream
      Function.update line side
        { line side with
          stream := { stream with buffer := stream.buffer ++ (line side).inbound.take count }
          inbound := (line side).inbound.drop count }
  | .next side =>
      let (result, stream) := (line side).stream.next box
      Function.update line side
        { line side with stream := stream, received := (line side).received ++ result.toList }

/-- What an end has received is what the other end sent, in order. -/
def Faithful (line : Line) : Prop :=
  ∀ side, (line side).received <+: (line side.other).accepted.map .ok

/-- A message that fits is sent only by an end none of whose messages was
refused before. -/
def NoneRefused (line : Line) : LineEvent → Prop
  | .send side msg => msg.length + 16 ≤ 0x3FFFFFFF → (line side).refused = []
  | .arrive _ _ => True
  | .next _ => True

/-- The frames of the messages an end has sent, if none was refused in between. -/
def frames (key : Bytes) (accepted : List Bytes) : List Bytes :=
  accepted.mapIdx fun i msg => box.sealBox msg (Ends.nonceAt i) key

/-- The end seals under the key, and counts right until a message is refused. -/
structure Sends (key : Bytes) (person : Correspondent) : Prop where
  framed : person.stream.codec.raw = false
  counted : ∃ encrypt, person.stream.encrypt = some encrypt ∧ encrypt.key = key ∧
    (person.refused = [] → encrypt.sealed = UInt64.ofNat person.accepted.length)

/-- The end has received a first part of `accepted`, and the frames of the rest
are on their way to it. -/
structure Reads (key : Bytes) (person : Correspondent) (accepted : List Bytes) : Prop where
  counted : ∃ encrypt, person.stream.encrypt = some encrypt ∧ encrypt.key = key ∧
    encrypt.opened = UInt64.ofNat person.received.length
  received : ∃ rest, accepted.map .ok = person.received ++ rest
  underway : Underway person.stream person.inbound ((frames box key accepted).drop person.received.length)

variable {box} {key : Bytes} {person : Correspondent} {accepted : List Bytes}

theorem frames_append (accepted : List Bytes) (msg : Bytes) :
    frames box key (accepted ++ [msg]) =
      frames box key accepted ++ [box.sealBox msg (Ends.nonceAt accepted.length) key] := by
  simp [frames, List.mapIdx_append]

@[simp] theorem length_frames (accepted : List Bytes) :
    (frames box key accepted).length = accepted.length := by
  simp [frames]

theorem sendRaw_of_fits (hBox : box.Documented) (hSends : Sends key person) {msg : Bytes}
    (hFits : msg.length + 16 ≤ 0x3FFFFFFF) :
    ∃ encrypt header, person.stream.encrypt = some encrypt ∧ encrypt.key = key ∧
      BytesCodec.encodeHead (box.sealBox msg encrypt.encNonce key).length = some header ∧
      person.stream.sendRaw box msg =
        (.ok (), { person.stream with encrypt := some { encrypt with sealed := encrypt.sealed + 1 } },
          header ++ box.sealBox msg encrypt.encNonce key) := by
  obtain ⟨encrypt, hEncrypt, hKey, -⟩ := hSends.counted
  have hLength : (box.sealBox msg encrypt.encNonce key).length ≤ 0x3FFFFFFF := by
    rw [hBox.seal_length]
    exact hFits
  obtain ⟨header, hHeader, hEncode⟩ := BytesCodec.encode_of_fits hSends.framed hLength []
  refine ⟨encrypt, header, hEncrypt, hKey, hHeader, ?_⟩
  simp [FramedStream.sendRaw, sealMessage, Encrypt.enc, hEncrypt, hKey, hEncode]

theorem sendRaw_of_long (hBox : box.Documented) (hSends : Sends key person) {msg : Bytes}
    (hLong : ¬ msg.length + 16 ≤ 0x3FFFFFFF) :
    ∃ encrypt, person.stream.encrypt = some encrypt ∧ encrypt.key = key ∧
      person.stream.sendRaw box msg =
        (.error BytesCodec.overflow,
          { person.stream with encrypt := some { encrypt with sealed := encrypt.sealed + 1 } }, []) := by
  obtain ⟨encrypt, hEncrypt, hKey, -⟩ := hSends.counted
  have hLength : 0x3FFFFFFF < (box.sealBox msg encrypt.encNonce key).length := by
    rw [hBox.seal_length]
    exact Nat.lt_of_not_le hLong
  refine ⟨encrypt, hEncrypt, hKey, ?_⟩
  simp [FramedStream.sendRaw, sealMessage, Encrypt.enc, hEncrypt, hKey,
    BytesCodec.encode_of_long hSends.framed hLength]

/-- A frame put on the wire is the last to come out of it. -/
theorem Reads.append (hReads : Reads box key person accepted) {msg header : Bytes}
    (hHeader : BytesCodec.encodeHead
      (box.sealBox msg (Ends.nonceAt accepted.length) key).length = some header)
    (hFits : (box.sealBox msg (Ends.nonceAt accepted.length) key).length ≤ usizeMax) :
    Reads box key
      { person with inbound := person.inbound ++
          (header ++ box.sealBox msg (Ends.nonceAt accepted.length) key) }
      (accepted ++ [msg]) := by
  obtain ⟨rest, hReceived⟩ := hReads.received
  have hShort : person.received.length ≤ accepted.length := by
    have hLength := congrArg List.length hReceived
    simp only [List.length_map, List.length_append] at hLength
    omega
  refine ⟨hReads.counted, ⟨rest ++ [.ok msg], by simp [hReceived]⟩, ?_⟩
  rw [frames_append, List.drop_append_of_le_length (by simpa using hShort)]
  exact hReads.underway.append hHeader hFits

theorem Reads.arrive (hReads : Reads box key person accepted) (count : Nat) :
    Reads box key
      { person with
        stream := { person.stream with buffer := person.stream.buffer ++ person.inbound.take count }
        inbound := person.inbound.drop count } accepted :=
  ⟨hReads.counted, hReads.received, hReads.underway.arrive count⟩

/-- The head of the frames under way is the box of the next message, and opens. -/
theorem dec_of_underway (hBox : box.Documented) {encrypt : Encrypt} (hKey : encrypt.key = key)
    {received : List (Except IoError Bytes)} {rest : List (Except IoError Bytes)}
    (hOpened : encrypt.opened = UInt64.ofNat received.length)
    (hReceived : accepted.map .ok = received ++ rest) {frame : Bytes} {later : List Bytes}
    (hFrame : (frames box key accepted).drop received.length = frame :: later) :
    ∃ msg, accepted.map .ok = (received ++ [.ok msg]) ++ rest.tail ∧
      (frames box key accepted).drop (received.length + 1) = later ∧
      encrypt.dec box frame = (.ok msg, { encrypt with opened := encrypt.opened + 1 }) := by
  have hIndex : received.length < accepted.length := by
    have hLength := congrArg List.length hFrame
    simp only [List.length_drop, length_frames, List.length_cons] at hLength
    omega
  obtain ⟨msg, hMsg⟩ : ∃ msg, accepted[received.length]? = some msg :=
    ⟨_, List.getElem?_eq_getElem hIndex⟩
  have hSealed : frame = box.sealBox msg encrypt.decNonce key := by
    have hHead := congrArg List.head? hFrame
    rw [List.head?_drop, List.head?_cons] at hHead
    unfold frames at hHead
    rw [List.getElem?_mapIdx, hMsg] at hHead
    have hNonce : encrypt.decNonce = Ends.nonceAt received.length := by
      unfold Encrypt.decNonce Ends.nonceAt
      rw [hOpened]
    rw [hNonce]
    exact (Option.some.inj hHead).symm
  refine ⟨msg, ?_, ?_, ?_⟩
  · have hHead := congrArg (fun l => l[received.length]?) hReceived
    simp only [List.getElem?_map, hMsg, Option.map_some, List.getElem?_append_right (Nat.le_refl _),
      Nat.sub_self] at hHead
    cases rest with
    | nil => simp at hHead
    | cons first rest =>
        obtain rfl : first = .ok msg := by simpa using hHead.symm
        simpa using hReceived
  · rw [← List.drop_drop, hFrame]
    rfl
  · have hLong : 1 < frame.length := by
      rw [hSealed, hBox.seal_length]
      omega
    rw [Ends.dec_of_long hLong, hKey, hSealed, hBox.open_seal]
    rfl

/-- `next` takes the head of what is under way, or waits for it. -/
theorem Reads.next (hBox : box.Documented) (hReads : Reads box key person accepted) :
    Reads box key
      { person with
        stream := (person.stream.next box).2
        received := person.received ++ (person.stream.next box).1.toList } accepted := by
  obtain ⟨encrypt, hEncrypt, hKey, hOpened⟩ := hReads.counted
  obtain ⟨more, hReceived⟩ := hReads.received
  rcases hReads.underway.next box with
    ⟨hNext, hSame, hUnderway, -⟩ | ⟨frame, later, hFrames, hNext, hAfter, hUnderway⟩
  · rw [hNext, Option.toList_none, List.append_nil]
    exact ⟨⟨encrypt, hSame.trans hEncrypt, hKey, hOpened⟩, ⟨more, hReceived⟩, hUnderway⟩
  · obtain ⟨msg, hMore, hLater, hDec⟩ := dec_of_underway hBox hKey hOpened hReceived hFrames
    rw [hEncrypt, openFrame, hDec] at hNext hAfter
    rw [hNext]
    refine ⟨⟨_, hAfter, hKey, ?_⟩, ⟨more.tail, hMore⟩, ?_⟩
    · simp [hOpened, UInt64.ofNat_add]
    · simp only [Option.toList_some, List.length_append, List.length_singleton, hLater]
      exact hUnderway

/-- Sealing a message does not disturb what the end reads. -/
theorem Reads.seal (hReads : Reads box key person accepted) {encrypt : Encrypt}
    (hEncrypt : person.stream.encrypt = some encrypt) (sealed : UInt64)
    (sent refused : List Bytes) :
    Reads box key
      { person with
        stream := { person.stream with encrypt := some { encrypt with sealed := sealed } }
        accepted := sent
        refused := refused } accepted := by
  obtain ⟨found, hFound, hKey, hOpened⟩ := hReads.counted
  obtain rfl := Option.some.inj (hFound.symm.trans hEncrypt)
  exact ⟨⟨_, rfl, hKey, hOpened⟩, hReads.received, hReads.underway⟩

theorem dec_keeps (box : Secretbox) (encrypt : Encrypt) (frame : Bytes) :
    ∃ opened, (encrypt.dec box frame).2 = { encrypt with opened := opened } := by
  by_cases hShort : frame.length ≤ 1
  · rw [Ends.dec_of_short hShort]
    exact ⟨encrypt.opened, rfl⟩
  · rw [Ends.dec_of_long (Nat.lt_of_not_le hShort)]
    exact ⟨encrypt.opened + 1, rfl⟩

/-- `next` leaves the key and the count of sealed messages alone. -/
theorem next_keeps (box : Secretbox) {stream : FramedStream} {encrypt : Encrypt}
    (hRaw : stream.codec.raw = false) (hEncrypt : stream.encrypt = some encrypt) :
    (stream.next box).2.codec.raw = false ∧
      ∃ opened, (stream.next box).2.encrypt = some { encrypt with opened := opened } := by
  obtain ⟨⟨state, raw, maxPacketLength⟩, buffer, found⟩ := stream
  obtain rfl : raw = false := hRaw
  obtain rfl : found = some encrypt := hEncrypt
  have hDecode : (BytesCodec.framing maxPacketLength state).decode buffer = _ :=
    BytesCodec.decode_framing state buffer
  unfold BytesCodec.framing at hDecode
  cases hCall : BytesCodec.framedCall maxPacketLength state buffer with
  | mk result left =>
      rw [hCall] at hDecode
      match result with
      | .error error =>
          simp only [FramedStream.next, hDecode]
          exact ⟨trivial, encrypt.opened, rfl⟩
      | .ok none =>
          simp only [FramedStream.next, hDecode]
          exact ⟨trivial, encrypt.opened, rfl⟩
      | .ok (some frame) =>
          obtain ⟨opened, hOpened⟩ := dec_keeps box encrypt frame
          simp only [FramedStream.next, hDecode, hOpened]
          exact ⟨trivial, opened, rfl⟩

/-- Reading does not disturb what the end has sealed. -/
theorem Sends.next (hSends : Sends key person) (received : List (Except IoError Bytes)) :
    Sends key { person with stream := (person.stream.next box).2, received := received } := by
  obtain ⟨encrypt, hEncrypt, hKey, hSealed⟩ := hSends.counted
  obtain ⟨hRaw, opened, hNext⟩ := next_keeps box hSends.framed hEncrypt
  exact ⟨hRaw, _, hNext, hKey, hSealed⟩

/-- What holds of a line as long as no refused message is followed by another. -/
def Sound (box : Secretbox) (key : Bytes) (line : Line) : Prop :=
  ∀ side, Sends key (line side) ∧ Reads box key (line side) (line side.other).accepted

theorem sound_start (box : Secretbox) (key : Bytes) : Sound box key (start key) := by
  intro side
  refine ⟨⟨rfl, _, rfl, rfl, fun _ => rfl⟩, ⟨_, rfl, rfl, rfl⟩, ⟨[], rfl⟩, .head, rfl, ?_⟩
  have hNone : BytesCodec.parse usizeMax [] = ⟨[], false, [], []⟩ := BytesCodec.parse_of_none rfl
  have hDrain : (BytesCodec.decoder usizeMax).drain .head [] = ⟨[], none, .head, []⟩ := by
    rw [BytesCodec.drain_eq_parse, hNone]
    rfl
  exact hDrain

theorem other_ne (side : Side) : side.other ≠ side := by
  cases side <;> decide

@[simp] theorem other_other (side : Side) : side.other.other = side := by
  cases side <;> rfl

theorem eq_other_of_ne {side reader : Side} (hReader : reader ≠ side) : reader = side.other := by
  cases side <;> cases reader <;> first | rfl | exact absurd rfl hReader

theorem sound_of_sides {line : Line} (side : Side)
    (hSelf : Sends key (line side) ∧ Reads box key (line side) (line side.other).accepted)
    (hOther : Sends key (line side.other) ∧
      Reads box key (line side.other) (line side).accepted) : Sound box key line := by
  intro reader
  by_cases hReader : reader = side
  · rw [hReader]
    exact hSelf
  · rw [eq_other_of_ne hReader, other_other]
    exact hOther

section Steps
variable {line : Line} {side : Side} {msg out : Bytes} {stream : FramedStream} {error : IoError}

theorem step_send_ok (hSend : (line side).stream.sendRaw box msg = (.ok (), stream, out)) :
    line.step box (.send side msg) side =
        { line side with stream := stream, accepted := (line side).accepted ++ [msg] } ∧
      line.step box (.send side msg) side.other =
        { line side.other with inbound := (line side.other).inbound ++ out } := by
  simp only [Line.step, hSend]
  constructor
  · rw [Function.update_of_ne (other_ne side).symm, Function.update_self]
  · rw [Function.update_self, Function.update_of_ne (other_ne side)]

theorem step_send_error
    (hSend : (line side).stream.sendRaw box msg = (.error error, stream, out)) :
    line.step box (.send side msg) side =
        { line side with stream := stream, refused := (line side).refused ++ [msg] } ∧
      line.step box (.send side msg) side.other = line side.other := by
  simp only [Line.step, hSend]
  exact ⟨Function.update_self .., Function.update_of_ne (other_ne side) ..⟩

theorem step_arrive (box : Secretbox) (line : Line) (side : Side) (count : Nat) :
    line.step box (.arrive side count) side =
        { line side with
          stream := { (line side).stream with
            buffer := (line side).stream.buffer ++ (line side).inbound.take count }
          inbound := (line side).inbound.drop count } ∧
      line.step box (.arrive side count) side.other = line side.other :=
  ⟨Function.update_self .., Function.update_of_ne (other_ne side) ..⟩

theorem step_next (box : Secretbox) (line : Line) (side : Side) :
    line.step box (.next side) side =
        { line side with
          stream := ((line side).stream.next box).2
          received := (line side).received ++ ((line side).stream.next box).1.toList } ∧
      line.step box (.next side) side.other = line side.other :=
  ⟨Function.update_self .., Function.update_of_ne (other_ne side) ..⟩

end Steps

theorem Sound.step (hBox : box.Documented) {line : Line} (hSound : Sound box key line)
    {event : LineEvent} (hNone : NoneRefused line event) :
    Sound box key (line.step box event) := by
  cases event with
  | send side msg =>
      obtain ⟨hSends, hReads⟩ := hSound side
      obtain ⟨hSendsOther, hReadsOther⟩ := hSound side.other
      rw [other_other] at hReadsOther
      by_cases hFits : msg.length + 16 ≤ 0x3FFFFFFF
      · obtain ⟨encrypt, header, hEncrypt, hKey, hHeader, hSend⟩ :=
          sendRaw_of_fits hBox hSends hFits
        obtain ⟨found, hFound, -, hSealed⟩ := hSends.counted
        obtain rfl := Option.some.inj (hFound.symm.trans hEncrypt)
        have hCount := hSealed (hNone hFits)
        have hNonce : found.encNonce = Ends.nonceAt (line side).accepted.length := by
          unfold Encrypt.encNonce Ends.nonceAt
          rw [hCount]
        have hShort : (box.sealBox msg (Ends.nonceAt (line side).accepted.length) key).length ≤
            usizeMax := by
          rw [hBox.seal_length]
          exact Nat.le_trans hFits (by decide)
        rw [hNonce] at hHeader hSend
        obtain ⟨hSelf, hOther⟩ := step_send_ok hSend
        refine sound_of_sides side ?_ ?_
        · rw [hSelf, hOther]
          refine ⟨⟨hSends.framed, _, rfl, hKey, fun _ => ?_⟩, hReads.seal hEncrypt _ _ _⟩
          simp [hCount, UInt64.ofNat_add]
        · rw [hSelf, hOther]
          exact ⟨⟨hSendsOther.framed, hSendsOther.counted⟩, hReadsOther.append hHeader hShort⟩
      · -- The counter has moved, but the end is not to send again.
        obtain ⟨encrypt, hEncrypt, hKey, hSend⟩ := sendRaw_of_long hBox hSends hFits
        obtain ⟨hSelf, hOther⟩ := step_send_error hSend
        refine sound_of_sides side ?_ ?_
        · rw [hSelf, hOther]
          refine ⟨⟨hSends.framed, _, rfl, hKey, fun hEmpty => ?_⟩, hReads.seal hEncrypt _ _ _⟩
          simp at hEmpty
        · rw [hSelf, hOther]
          exact ⟨hSendsOther, hReadsOther⟩
  | arrive side count =>
      obtain ⟨hSends, hReads⟩ := hSound side
      obtain ⟨hSendsOther, hReadsOther⟩ := hSound side.other
      rw [other_other] at hReadsOther
      obtain ⟨hSelf, hOther⟩ := step_arrive box line side count
      refine sound_of_sides side ?_ ?_
      · rw [hSelf, hOther]
        exact ⟨⟨hSends.framed, hSends.counted⟩, hReads.arrive count⟩
      · rw [hSelf, hOther]
        exact ⟨hSendsOther, hReadsOther⟩
  | next side =>
      obtain ⟨hSends, hReads⟩ := hSound side
      obtain ⟨hSendsOther, hReadsOther⟩ := hSound side.other
      rw [other_other] at hReadsOther
      obtain ⟨hSelf, hOther⟩ := step_next box line side
      refine sound_of_sides side ?_ ?_
      · rw [hSelf, hOther]
        exact ⟨hSends.next _, hReads.next hBox⟩
      · rw [hSelf, hOther]
        exact ⟨hSendsOther, hReadsOther⟩

end Line

end HibtDesk
