import HibtDesk.Network.Handshake

/-! The keys the two ends of a handshake install, and what a stream does under either of them.
Every branch in which the client goes on without a key is one in which the server does. -/
namespace HibtDesk.Handshake

section Reply
variable (proto : Protobuf) (sodium : Sodium) (setup : Setup)

/-- The client's answer to an honest server, with the key it installs. -/
def reply : Option Union × Option Bytes :=
  match signPk proto sodium setup with
  | some signPk => answer proto sodium setup signPk (signedIdMessage proto sodium setup)
  | none => (none, none)

/-- The key of the session, if there is one. -/
def sessionKey : Option Bytes := (reply proto sodium setup).2

/-- The bytes of the answer. -/
def replyMessage : Bytes := proto.writeMessage (reply proto sodium setup).1

variable {proto sodium setup}

theorem sessionKey_of_none (hNone : signPk proto sodium setup = none) :
    sessionKey proto sodium setup = none := by
  simp only [sessionKey, reply, hNone]

/-- What the server says of itself is found under its own key only. -/
theorem decode_signed (hProto : proto.Documented) (hSodium : sodium.Ideal) (key : Bytes) :
    decodeIdPk proto sodium
        (sodium.sign (proto.writeIdPk ⟨setup.id, sodium.boxPublic setup.serverSk⟩) setup.sk) key =
      if key = sodium.signPublic setup.sk then some (setup.id, sodium.boxPublic setup.serverSk)
      else none := by
  unfold decodeIdPk
  split_ifs with hKey
  · rw [hKey, hSodium.verify_sign]
    simp only [hProto.parse_writeIdPk, hSodium.length_boxPublic, if_true]
  · rw [hSodium.verify_other _ _ _ hKey]

/-- The server finds the key that the client has sealed to it. -/
theorem decodeKey_sealed (hSodium : sodium.Ideal) (hSetup : setup.WellFormed) :
    decodeKey sodium setup
        (sodium.sealTo setup.symmetricKey zeroNonce (sodium.boxPublic setup.serverSk) setup.clientSk)
        (sodium.boxPublic setup.clientSk) = some setup.symmetricKey := by
  unfold decodeKey
  rw [if_pos (hSodium.length_boxPublic _), hSodium.open_seal]
  exact if_pos hSetup.symmetricKey

/-- The server does not bail on the client's answer, and installs what the client does. -/
theorem accept_reply (hProto : proto.Documented) (hSodium : sodium.Ideal) (hSetup : setup.WellFormed) :
    accept proto sodium setup (replyMessage proto sodium setup) =
      some (sessionKey proto sodium setup) := by
  have hEmpty : accept proto sodium setup (proto.writeMessage none) = some none := by
    simp only [accept, hProto.parse_write none nofun]
  have hPublic : ∀ asymmetricValue symmetricValue,
      proto.parseMessage (proto.writeMessage (some (.publicKey asymmetricValue symmetricValue))) =
        some (some (.publicKey asymmetricValue symmetricValue)) := fun _ _ => hProto.parse_write _ nofun
  unfold replyMessage sessionKey reply
  cases signPk proto sodium setup with
  | none => exact hEmpty
  | some pk =>
      have hParse : proto.parseMessage (signedIdMessage proto sodium setup) = some (some (.signedId _)) :=
        hProto.parse_write _ nofun
      simp only [answer, hParse, decode_signed hProto hSodium]
      by_cases hKey : pk = sodium.signPublic setup.sk
      · rw [if_pos hKey]
        dsimp only
        by_cases hId : setup.id = setup.peerId
        · rw [if_pos hId]
          simp only [createSymmetricKeyMsg, accept, hPublic, hSodium.length_boxPublic, if_true,
            decodeKey_sealed hSodium hSetup, Option.map_some]
        · rw [if_neg hId]
          exact hEmpty
      · -- An empty key asks for a session without one.
        rw [if_neg hKey]
        simp only [accept, hPublic, List.length_nil]
        rfl

end Reply

section Wire
variable (box : Secretbox)

/-- The frame of the `i`-th message. -/
def frameAt (key : Option Bytes) (i : Nat) (msg : Bytes) : Bytes :=
  match key with
  | some key => box.sealBox msg (Ends.nonceAt i) key
  | none => msg

def wire (key : Option Bytes) (msgs : List Bytes) : List Bytes := msgs.mapIdx (frameAt box key)

theorem wire_concat (key : Option Bytes) (msgs : List Bytes) (msg : Bytes) :
    wire box key (msgs ++ [msg]) = wire box key msgs ++ [frameAt box key msgs.length msg] := by
  simp [wire, List.mapIdx_append]

/-- Without a key the frames are the messages. -/
@[simp] theorem wire_none (msgs : List Bytes) : wire box none msgs = msgs := by
  apply List.ext_getElem?
  intro i
  rw [wire, List.getElem?_mapIdx]
  cases msgs[i]? <;> rfl

/-- An end that has gone on with a key or without one. With a key it counts what it opens, and
what it seals until a message is refused. -/
structure Keeps (key : Option Bytes) (person : Correspondent) : Prop where
  plain : key = none → person.stream.encrypt = none
  counted : ∀ found, key = some found → ∃ encrypt, person.stream.encrypt = some encrypt ∧
    encrypt.key = found ∧ (person.refused = [] → encrypt.sealed = UInt64.ofNat person.accepted.length) ∧
      encrypt.opened = UInt64.ofNat person.received.length

/-- An end has received the first of the messages, and the frames of the others are under way. -/
structure Receives (key : Option Bytes) (person : Correspondent) (msgs : List Bytes) : Prop where
  underway : Underway person.stream person.inbound ((wire box key msgs).drop person.received.length)
  received : person.received = (msgs.take person.received.length).map .ok

/-- What an end has received is what was sent to it, in order. If all bytes have arrived and
nothing can be read, it is everything. -/
structure Delivers (person : Correspondent) (msgs : List Bytes) : Prop where
  ordered : person.received <+: msgs.map .ok
  complete : person.inbound = [] → (person.stream.next box).1 = none →
    person.received = msgs.map .ok

variable {box} {key : Option Bytes} {person : Correspondent} {msgs : List Bytes}

theorem Receives.length_le (hReceives : Receives box key person msgs) :
    person.received.length ≤ msgs.length := by
  have hLength := congrArg List.length hReceives.received
  rw [List.length_map, List.length_take] at hLength
  omega

/-- A message that is sent adds its frame. -/
theorem Receives.append (hReceives : Receives box key person msgs) {msg header : Bytes}
    (hHeader : BytesCodec.encodeHead (frameAt box key msgs.length msg).length = some header)
    (hFits : (frameAt box key msgs.length msg).length ≤ 0x3FFFFFFF) :
    Receives box key
      { person with inbound := person.inbound ++ (header ++ frameAt box key msgs.length msg) }
      (msgs ++ [msg]) := by
  have hLe := hReceives.length_le
  refine ⟨?_, ?_⟩
  · have hAppend := hReceives.underway.append hHeader (Nat.le_trans hFits (by decide))
    rw [wire_concat, List.drop_append_of_le_length (by rw [wire, List.length_mapIdx]; exact hLe)]
    exact hAppend
  · rw [List.take_append_of_le_length hLe]
    exact hReceives.received

/-- The message is sealed under the next nonce of the end. -/
theorem Keeps.seal (box : Secretbox) (hKeeps : Keeps key person) (msg : Bytes)
    (hNone : key ≠ none → person.refused = []) :
    (sealMessage box person.stream.encrypt msg).2 = frameAt box key person.accepted.length msg := by
  cases key with
  | none =>
      rw [hKeeps.plain rfl]
      rfl
  | some key =>
      obtain ⟨encrypt, hEncrypt, rfl, hSealed, -⟩ := hKeeps.counted key rfl
      rw [hEncrypt]
      change box.sealBox msg encrypt.encNonce encrypt.key = _
      have hNonce : encrypt.encNonce = Ends.nonceAt person.accepted.length := by
        unfold Encrypt.encNonce Ends.nonceAt
        rw [hSealed (hNone nofun)]
      rw [hNonce]
      rfl

theorem Keeps.accepted (hKeeps : Keeps key person) (msg : Bytes)
    (hNone : key ≠ none → person.refused = []) :
    Keeps key
      { person with
        stream := { person.stream with encrypt := (sealMessage box person.stream.encrypt msg).1 }
        accepted := person.accepted ++ [msg] } := by
  refine ⟨fun hPlain => ?_, fun found hKey => ?_⟩
  · dsimp only
    rw [hKeeps.plain hPlain]
    rfl
  · obtain ⟨encrypt, hEncrypt, hFound, hSealed, hOpened⟩ := hKeeps.counted found hKey
    have hRefused := hNone (by simp [hKey])
    dsimp only
    rw [hEncrypt]
    refine ⟨_, rfl, hFound, fun _ => ?_, hOpened⟩
    change encrypt.sealed + 1 = _
    simp [hSealed hRefused, UInt64.ofNat_add]

theorem Keeps.refused (hKeeps : Keeps key person) (msg : Bytes) :
    Keeps key
      { person with
        stream := { person.stream with encrypt := (sealMessage box person.stream.encrypt msg).1 }
        refused := person.refused ++ [msg] } := by
  refine ⟨fun hPlain => ?_, fun found hKey => ?_⟩
  · dsimp only
    rw [hKeeps.plain hPlain]
    rfl
  · obtain ⟨encrypt, hEncrypt, hFound, -, hOpened⟩ := hKeeps.counted found hKey
    dsimp only
    rw [hEncrypt]
    exact ⟨_, rfl, hFound, fun hEmpty => by simp at hEmpty, hOpened⟩

/-- The next frame opens as the next message. -/
theorem Keeps.open_frame (hBox : box.Documented) (hKeeps : Keeps key person) (msg : Bytes) :
    openFrame box person.stream.encrypt (frameAt box key person.received.length msg) =
        (.ok msg, (openFrame box person.stream.encrypt
          (frameAt box key person.received.length msg)).2) ∧
      ∀ stream : FramedStream, stream.encrypt = (openFrame box person.stream.encrypt
          (frameAt box key person.received.length msg)).2 →
        Keeps key { person with stream := stream, received := person.received ++ [.ok msg] } := by
  cases key with
  | none =>
      rw [hKeeps.plain rfl]
      exact ⟨rfl, fun stream hStream => ⟨fun _ => hStream, fun _ hKey => absurd hKey.symm (Option.some_ne_none _)⟩⟩
  | some key =>
      obtain ⟨encrypt, hEncrypt, rfl, hSealed, hOpened⟩ := hKeeps.counted key rfl
      have hNonce : encrypt.decNonce = Ends.nonceAt person.received.length := by
        unfold Encrypt.decNonce Ends.nonceAt
        rw [hOpened]
      have hLong : 1 < (frameAt box (some encrypt.key) person.received.length msg).length := by
        change 1 < (box.sealBox _ _ _).length
        rw [hBox.seal_length]
        omega
      have hDec : encrypt.dec box (frameAt box (some encrypt.key) person.received.length msg) =
          (.ok msg, { encrypt with opened := encrypt.opened + 1 }) := by
        rw [Ends.dec_of_long hLong, hNonce, frameAt, hBox.open_seal]
        rfl
      simp only [openFrame, hEncrypt, hDec, true_and]
      refine fun stream hStream => ⟨fun hKey => absurd hKey (Option.some_ne_none _), fun found hKey => ?_⟩
      refine ⟨_, hStream, Option.some.inj hKey, hSealed, ?_⟩
      simp [hOpened, UInt64.ofNat_add]

/-- `next` keeps to the messages. -/
theorem Receives.next (hBox : box.Documented) (hReceives : Receives box key person msgs)
    (hKeeps : Keeps key person) :
    let after := { person with
      stream := (person.stream.next box).2
      received := person.received ++ (person.stream.next box).1.toList }
    Receives box key after msgs ∧ Keeps key after := by
  rcases hReceives.underway.next box with
    ⟨hNone, hEncrypt, hUnderway, -⟩ | ⟨frame, rest, hFrames, hSome, hEncrypt, hUnderway⟩
  · simp only [hNone, Option.toList_none, List.append_nil]
    exact ⟨⟨hUnderway, hReceives.received⟩,
      ⟨fun hKey => hEncrypt.trans (hKeeps.plain hKey), fun found hKey => by
        rw [hEncrypt]
        exact hKeeps.counted found hKey⟩⟩
  · have hHead : (wire box key msgs)[person.received.length]? = some frame := by
      rw [← List.head?_drop, hFrames, List.head?_cons]
    rw [wire, List.getElem?_mapIdx] at hHead
    obtain ⟨msg, hMsg, hFrame⟩ := Option.map_eq_some_iff.mp hHead
    rw [← hFrame] at hSome hEncrypt
    obtain ⟨hOpen, hAfter⟩ := hKeeps.open_frame hBox msg
    rw [hOpen] at hSome
    simp only [hSome, Option.toList_some]
    refine ⟨⟨?_, ?_⟩, hAfter _ hEncrypt⟩
    · rw [List.length_append, List.length_singleton, ← List.drop_drop, hFrames]
      exact hUnderway
    · rw [List.length_append, List.length_singleton, List.take_add_one, hMsg, List.map_append,
        ← hReceives.received]
      rfl

theorem Receives.arrive (hReceives : Receives box key person msgs) (count : Nat) :
    Receives box key
      { person with
        stream := { person.stream with buffer := person.stream.buffer ++ person.inbound.take count }
        inbound := person.inbound.drop count } msgs :=
  ⟨hReceives.underway.arrive count, hReceives.received⟩

end Wire

end HibtDesk.Handshake
