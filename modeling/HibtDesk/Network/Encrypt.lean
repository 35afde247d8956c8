import HibtDesk.Network.Framing

/-! Encryption of a stream. Both ends install one symmetric key; each counts the
messages it seals and the frames it opens, and the count is the nonce. -/
namespace HibtDesk

/-- The secretbox of `sodiumoxide`: what is sealed or opened, the nonce and the key. -/
structure Secretbox where
  sealBox : Bytes → Bytes → Bytes → Bytes
  openBox : Bytes → Bytes → Bytes → Option Bytes

/-- A box that marks a message with the nonce it was sealed under. -/
def Secretbox.marking : Secretbox where
  sealBox data nonce _ := (nonce ++ List.replicate 16 0).take 16 ++ data
  openBox sealed nonce _ :=
    if sealed.take 16 = (nonce ++ List.replicate 16 0).take 16 then some (sealed.drop 16) else none

/-- A key with the number of messages sealed and of frames opened under it. The
counters wrap, as the release build lets them. -/
structure Encrypt where
  key : Bytes
  sealed : UInt64
  opened : UInt64
  deriving DecidableEq, Repr

/-- `FramedStream::get_nonce`. -/
def getNonce (seqnum : UInt64) : Bytes :=
  BytesCodec.putLe 8 seqnum.toNat ++ List.replicate 16 0

def decryptionError : IoError := { kind := .other, message := "decryption error" }

namespace Encrypt

def new (key : Bytes) : Encrypt := { key := key, sealed := 0, opened := 0 }

/-- The nonce of the next call of `enc`. -/
def encNonce (encrypt : Encrypt) : Bytes := getNonce (encrypt.sealed + 1)

def enc (box : Secretbox) (encrypt : Encrypt) (data : Bytes) : Encrypt × Bytes :=
  ({ encrypt with sealed := encrypt.sealed + 1 },
    box.sealBox data encrypt.encNonce encrypt.key)

/-- The nonce of the next call of `dec` that looks at its bytes. -/
def decNonce (encrypt : Encrypt) : Bytes := getNonce (encrypt.opened + 1)

def dec (box : Secretbox) (encrypt : Encrypt) (bytes : Bytes) :
    Except IoError Bytes × Encrypt :=
  if bytes.length ≤ 1 then (.ok bytes, encrypt)
  else
    let next := { encrypt with opened := encrypt.opened + 1 }
    match box.openBox bytes encrypt.decNonce encrypt.key with
    | some res => (.ok res, next)
    | none => (.error decryptionError, next)

end Encrypt

/-- Seal a message if a key is installed. -/
def sealMessage (box : Secretbox) (encrypt : Option Encrypt) (msg : Bytes) :
    Option Encrypt × Bytes :=
  match encrypt with
  | some key =>
      let (key, msg) := key.enc box msg
      (some key, msg)
  | none => (none, msg)

/-- A TCP stream: its codec, the bytes read from the socket and not yet decoded,
and the encryption. -/
structure FramedStream where
  codec : BytesCodec
  buffer : Bytes
  encrypt : Option Encrypt
  deriving DecidableEq, Repr

namespace FramedStream

/-- `FramedStream::from`. -/
def ofSocket : FramedStream := { codec := .new, buffer := [], encrypt := none }

def setRaw (stream : FramedStream) : FramedStream :=
  { stream with codec := stream.codec.setRaw, encrypt := none }

def setKey (stream : FramedStream) (key : Bytes) : FramedStream :=
  { stream with encrypt := some (.new key) }

/-- `send_raw`, with the bytes that reach the socket. -/
def sendRaw (box : Secretbox) (stream : FramedStream) (msg : Bytes) :
    Except IoError Unit × FramedStream × Bytes :=
  let (encrypt, msg) := sealMessage box stream.encrypt msg
  let (result, out) := stream.codec.encode msg []
  (result, { stream with encrypt := encrypt }, out)

/-- `next` on the bytes that have arrived; nothing is returned while the frame
is incomplete. -/
def next (box : Secretbox) (stream : FramedStream) :
    Option (Except IoError Bytes) × FramedStream :=
  match stream.codec.decode stream.buffer with
  | (.error error, codec, rest) =>
      (some (.error error), { stream with codec := codec, buffer := rest })
  | (.ok none, codec, rest) => (none, { stream with codec := codec, buffer := rest })
  | (.ok (some bytes), codec, rest) =>
      match stream.encrypt with
      | none => (some (.ok bytes), { stream with codec := codec, buffer := rest })
      | some key =>
          let (result, key) := key.dec box bytes
          (some result, { codec := codec, buffer := rest, encrypt := some key })

end FramedStream

/-- A websocket stream: messages keep their bounds, so only the encryption is left. -/
structure WsFramedStream where
  encrypt : Option Encrypt
  deriving DecidableEq, Repr

namespace WsFramedStream

def setKey (_ : WsFramedStream) (key : Bytes) : WsFramedStream := { encrypt := some (.new key) }

/-- `send_raw`, with the payload of the binary message sent. -/
def sendRaw (box : Secretbox) (stream : WsFramedStream) (msg : Bytes) : WsFramedStream × Bytes :=
  let (encrypt, msg) := sealMessage box stream.encrypt msg
  ({ stream with encrypt := encrypt }, msg)

end WsFramedStream

end HibtDesk
