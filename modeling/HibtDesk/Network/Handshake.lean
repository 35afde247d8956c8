import HibtDesk.Network.Delivery

/-! The handshake of a connection. The server says who it is with its signature and a key for a
box. The client answers with a symmetric key in such a box, or goes on without a key and says
so by the kind of its answer. -/
namespace HibtDesk

structure IdPk where
  id : String
  pk : Bytes
  deriving DecidableEq, Repr

namespace Handshake

/-- The union of a message, as far as the handshake looks at it. -/
inductive Union where
  | signedId (id : Bytes)
  | publicKey (asymmetricValue symmetricValue : Bytes)
  | other
  deriving DecidableEq, Repr

/-- The messages in bytes. -/
structure Protobuf where
  writeMessage : Option Union → Bytes
  parseMessage : Bytes → Option (Option Union)
  writeIdPk : IdPk → Bytes
  parseIdPk : Bytes → Option IdPk

/-- Signatures and boxes of `sodiumoxide`, with the public keys that belong to secret ones. -/
structure Sodium where
  sign : Bytes → Bytes → Bytes
  verify : Bytes → Bytes → Option Bytes
  signPublic : Bytes → Bytes
  sealTo : Bytes → Bytes → Bytes → Bytes → Bytes
  openFrom : Bytes → Bytes → Bytes → Bytes → Option Bytes
  boxPublic : Bytes → Bytes
  secretbox : Secretbox

/-- What is parsed is what was written. -/
structure Protobuf.Documented (proto : Protobuf) : Prop where
  parse_write : ∀ message, message ≠ some .other →
    proto.parseMessage (proto.writeMessage message) = some message
  parse_writeIdPk : ∀ idPk, proto.parseIdPk (proto.writeIdPk idPk) = some idPk

/-- A signature is good under the key it was made with and under no other. A box is opened by
the one it was sealed to. -/
structure Sodium.Ideal (sodium : Sodium) : Prop where
  verify_sign : ∀ msg sk, sodium.verify (sodium.sign msg sk) (sodium.signPublic sk) = some msg
  verify_other : ∀ msg sk pk, pk ≠ sodium.signPublic sk → sodium.verify (sodium.sign msg sk) pk = none
  open_seal : ∀ data nonce ourSk theirSk,
    sodium.openFrom (sodium.sealTo data nonce (sodium.boxPublic theirSk) ourSk) nonce
      (sodium.boxPublic ourSk) theirSk = some data
  length_boxPublic : ∀ sk, (sodium.boxPublic sk).length = 32
  secretbox : sodium.secretbox.Documented

/-- The first 32 bytes. -/
def pad (bytes : Bytes) : Bytes := (bytes ++ List.replicate 32 0).take 32

/-- A message marked with the keys it was made with. -/
def Sodium.marking : Sodium where
  sign msg sk := pad sk ++ msg
  verify signed pk := if signed.take 32 = pk then some (signed.drop 32) else none
  signPublic := pad
  sealTo data _ theirPk ourSk := pad theirPk ++ pad ourSk ++ data
  openFrom sealed _ theirPk ourSk :=
    if sealed.take 64 = pad (pad ourSk) ++ theirPk then some (sealed.drop 64) else none
  boxPublic := pad
  secretbox := .marking

/-- The characters, in four bytes each. -/
def writeChars (text : List Char) : Bytes := text.flatMap fun c => BytesCodec.putLe 4 c.toNat

def readChars : Bytes → List Char
  | a :: b :: c :: d :: rest => Char.ofNat (BytesCodec.leValue [a, b, c, d]) :: readChars rest
  | _ => []

theorem readChars_writeChars (text : List Char) : readChars (writeChars text) = text := by
  induction text with
  | nil => rfl
  | cons c rest ih =>
      have hValue : BytesCodec.leValue (BytesCodec.putLe 4 c.toNat) = c.toNat :=
        BytesCodec.leValue_putLe_of_lt c.val.toNat_lt
      have hChar : Char.ofNat (BytesCodec.leValue (BytesCodec.putLe 4 c.toNat)) = c := by
        rw [hValue]
        exact Char.ofNat_toNat c
      exact congrArg₂ List.cons hChar ih

/-- Some bytes with their length before them, and what follows. -/
def writeField (bytes : Bytes) : Bytes := List.replicate bytes.length 1 ++ 0 :: bytes

def readField (bytes : Bytes) : Bytes × Bytes :=
  let length := (bytes.takeWhile (· = 1)).length
  ((bytes.drop (length + 1)).take length, (bytes.drop (length + 1)).drop length)

theorem readField_writeField (bytes rest : Bytes) : readField (writeField bytes ++ rest) = (bytes, rest) := by
  have hLength : ((writeField bytes ++ rest).takeWhile (· = 1)).length = bytes.length := by
    rw [writeField, List.append_assoc, List.takeWhile_append_of_pos]
    · simp
    · intro byte hByte
      simpa using List.eq_of_mem_replicate hByte
  have hDrop : (writeField bytes ++ rest).drop (bytes.length + 1) = bytes ++ rest := by
    rw [writeField, ← List.singleton_append, ← List.append_assoc, List.append_assoc]
    exact List.drop_left' (by simp)
  unfold readField
  simp only [hLength, hDrop, List.take_left, List.drop_left]

/-- Messages with a tag before their fields. -/
def Protobuf.tagged : Protobuf where
  writeMessage
    | none => []
    | some (.signedId id) => 1 :: id
    | some (.publicKey asymmetricValue symmetricValue) => 2 :: (writeField asymmetricValue ++ symmetricValue)
    | some .other => [3]
  parseMessage
    | [] => some none
    | 1 :: id => some (some (.signedId id))
    | 2 :: fields => some (some (.publicKey (readField fields).1 (readField fields).2))
    | _ => some (some .other)
  writeIdPk idPk := writeField idPk.pk ++ writeChars idPk.id.toList
  parseIdPk bytes :=
    let (pk, id) := readField bytes
    some { id := String.ofList (readChars id), pk := pk }

theorem Protobuf.tagged_documented : Protobuf.tagged.Documented where
  parse_write message hOther := by
    match message with
    | none => rfl
    | some (.signedId _) => rfl
    | some (.publicKey asymmetricValue symmetricValue) =>
        change some (some (Union.publicKey (readField _).1 (readField _).2)) = _
        rw [readField_writeField]
    | some .other => exact absurd rfl hOther
  parse_writeIdPk idPk := by
    simp only [tagged, readField_writeField, readChars_writeChars, String.ofList_toList]

/-- What the two ends go by: the client's peer, the record from the rendezvous server and the
key of that, the server's id and key pair, and the keys that are generated. -/
structure Setup where
  peerId : String
  signedIdPk : Bytes
  rsPk : Option Bytes
  id : String
  pk : Bytes
  sk : Bytes
  serverSk : Bytes
  clientSk : Bytes
  symmetricKey : Bytes
  deriving DecidableEq, Repr

/-- The server has a key pair that it signs with, and a symmetric key is a key. -/
structure Setup.WellFormed (setup : Setup) : Prop where
  pk : setup.pk.length = 32
  sk : setup.sk.length = 64
  symmetricKey : setup.symmetricKey.length = 32

inductive Stage where
  | starting
  | waiting
  | done
  | failed
  deriving DecidableEq, Repr

/-- The two ends, the bytes between them and how far they are. `done` is the client's `Ok`, and
the server's going on to `Connection::start`. -/
structure Session where
  line : Line
  stage : Side → Stage

inductive Event where
  /-- The next bytes reach the read buffer of an end. -/
  | arrive (side : Side) (count : Nat)
  /-- An end goes on with its handshake. -/
  | go (side : Side)
  /-- A timeout, or the end of the stream. -/
  | giveUp (side : Side)
  | send (side : Side) (msg : Bytes)
  | next (side : Side)
  deriving DecidableEq, Repr

section Programs
variable (proto : Protobuf) (sodium : Sodium) (setup : Setup)

def decodeIdPk (signed key : Bytes) : Option (String × Bytes) :=
  match sodium.verify signed key with
  | some content =>
      match proto.parseIdPk content with
      | some res => if res.pk.length = 32 then some (res.id, res.pk) else none
      | none => none
  | none => none

/-- The key that the rendezvous server vouches for, if it is the peer's. -/
def signPk : Option Bytes :=
  if setup.signedIdPk = [] then none
  else
    match setup.rsPk with
    | some rsPk =>
        match decodeIdPk proto sodium setup.signedIdPk rsPk with
        | some (id, pk) => if id = setup.peerId then some pk else none
        | none => none
    | none => none

def zeroNonce : Bytes := List.replicate 24 0

/-- The message with the symmetric key, and the key. -/
def createSymmetricKeyMsg (theirPkB : Bytes) : Union × Bytes :=
  (.publicKey (sodium.boxPublic setup.clientSk)
    (sodium.sealTo setup.symmetricKey zeroNonce theirPkB setup.clientSk), setup.symmetricKey)

/-- The client's answer to the first message of the server, with the key it installs. -/
def answer (signPk bytes : Bytes) : Option Union × Option Bytes :=
  match proto.parseMessage bytes with
  | some (some (.signedId id)) =>
      match decodeIdPk proto sodium id signPk with
      | some (id, theirPkB) =>
          if id = setup.peerId then
            let (message, key) := createSymmetricKeyMsg sodium setup theirPkB
            (some message, some key)
          else (none, none)
      -- The server's key has changed: it is to tell the rendezvous server.
      | none => (some (.publicKey [] []), none)
  | some _ => (none, none)
  | none => (none, none)

/-- `Encrypt::decode`. -/
def decodeKey (symmetricData theirPkB : Bytes) : Option Bytes :=
  if theirPkB.length = 32 then
    match sodium.openFrom symmetricData zeroNonce theirPkB setup.serverSk with
    | some key => if key.length = 32 then some key else none
    | none => none
  else none

/-- The first message of the server. -/
def signedIdMessage : Bytes :=
  let idPk := { id := setup.id, pk := sodium.boxPublic setup.serverSk }
  proto.writeMessage (some (.signedId (sodium.sign (proto.writeIdPk idPk) setup.sk)))

/-- What the server makes of the answer: the key it installs, if any, or nothing if it bails. -/
def accept (bytes : Bytes) : Option (Option Bytes) :=
  match proto.parseMessage bytes with
  | some (some (.publicKey asymmetricValue symmetricValue)) =>
      if asymmetricValue.length = 32 then
        (decodeKey sodium setup symmetricValue asymmetricValue).map some
      else if asymmetricValue = [] then some none
      else none
  | some _ => some none
  | none => none

end Programs

namespace Session

def start : Session where
  line _ :=
    { stream := .ofSocket, inbound := [], accepted := [], refused := [], received := [] }
  stage _ := .starting

def setStage (s : Session) (side : Side) (stage : Stage) : Session :=
  { s with stage := Function.update s.stage side stage }

def setStream (s : Session) (side : Side) (stream : FramedStream) : Session :=
  { s with line := Function.update s.line side { s.line side with stream := stream } }

def installKey (s : Session) (side : Side) : Option Bytes → Session
  | some key => s.setStream side ((s.line side).stream.setKey key)
  | none => s

section Steps
variable (proto : Protobuf) (sodium : Sodium) (setup : Setup)

/-- An end sends a message of the handshake, and is at the next stage if that works. -/
def transmit (s : Session) (side : Side) (msg : Bytes) (next : Stage) : Session :=
  match (s.line side).stream.sendRaw sodium.secretbox msg with
  | (.ok (), stream, out) =>
      let s := s.setStream side stream
      let other := { s.line side.other with inbound := (s.line side.other).inbound ++ out }
      { s with line := Function.update s.line side.other other }.setStage side next
  | (.error _, stream, _) => (s.setStream side stream).setStage side .failed

/-- The client answers the message it has waited for, and installs its key. -/
def answerServer (s : Session) (signPk bytes : Bytes) : Session :=
  let (message, key) := answer proto sodium setup signPk bytes
  let s := s.transmit sodium .client (proto.writeMessage message) .done
  if s.stage .client = .done then s.installKey .client key else s

/-- The server goes on after the client's answer, or bails. -/
def acceptClient (s : Session) (bytes : Bytes) : Session :=
  match accept proto sodium setup bytes with
  | some key => (s.installKey .server key).setStage .server .done
  | none => s.setStage .server .failed

/-- `Client::secure_connection`, up to where it has to wait. -/
def goClient (s : Session) : Session :=
  match s.stage .client, signPk proto sodium setup with
  | .starting, none => s.transmit sodium .client (proto.writeMessage none) .done
  | .starting, some _ => s.setStage .client .waiting
  | .waiting, some signPk =>
      let (result, stream) := (s.line .client).stream.next sodium.secretbox
      let s := s.setStream .client stream
      match result with
      | some (.ok bytes) => s.answerServer proto sodium setup signPk bytes
      | some (.error _) => s.setStage .client .failed
      | none => s
  | _, _ => s

/-- `create_tcp_connection` with `secure`, up to where it has to wait. -/
def goServer (s : Session) : Session :=
  match s.stage .server with
  | .starting =>
      if setup.pk.length = 32 ∧ setup.sk.length = 64 then
        s.transmit sodium .server (signedIdMessage proto sodium setup) .waiting
      else s.setStage .server .done
  | .waiting =>
      let (result, stream) := (s.line .server).stream.next sodium.secretbox
      let s := s.setStream .server stream
      match result with
      | some (.ok bytes) => s.acceptClient proto sodium setup bytes
      | some (.error _) => s.setStage .server .failed
      | none => s
  | _ => s

def step (s : Session) : Event → Session
  | .arrive side count => { s with line := s.line.step sodium.secretbox (.arrive side count) }
  | .go .client => s.goClient proto sodium setup
  | .go .server => s.goServer proto sodium setup
  | .giveUp side => if s.stage side = .done then s else s.setStage side .failed
  | .send side msg =>
      if s.stage side = .done then { s with line := s.line.step sodium.secretbox (.send side msg) }
      else s
  | .next side =>
      if s.stage side = .done then { s with line := s.line.step sodium.secretbox (.next side) } else s

end Steps

end Session

end Handshake

end HibtDesk
