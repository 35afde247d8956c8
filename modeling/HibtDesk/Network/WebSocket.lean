import HibtDesk.Network.Delivery

/-! Receiving on a websocket. Binary messages are opened with the key of the
stream, like the frames of a TCP stream; text messages are handed on as they
came. -/
namespace HibtDesk

/-- A message of the websocket library; `control` is a ping, a pong or a raw frame. -/
inductive WsMessage where
  | binary (data : Bytes)
  | text (content : String)
  | control (data : Bytes)
  | close
  deriving DecidableEq, Repr

/-- What the library reports of a connection it gave up on. -/
def protocolError (error : String) : IoError :=
  { kind := .other, message := "WebSocket protocol error: " ++ error }

namespace WsFramedStream

/-- `next` on the messages that arrive, with the error the connection ends with, if
it is one. The messages not looked at are left. -/
def next (box : Secretbox) (stream : WsFramedStream) (ending : Option String) :
    List WsMessage → Option (Except IoError Bytes) × WsFramedStream × List WsMessage
  | [] => (ending.map fun error => .error (protocolError error), stream, [])
  | .binary data :: rest =>
      match stream.encrypt with
      | none => (some (.ok data), stream, rest)
      | some key =>
          let (result, key) := key.dec box data
          (some result, { encrypt := some key }, rest)
  | .text content :: rest => (some (.ok (utf8 content)), stream, rest)
  | .close :: rest => (none, stream, rest)
  | .control _ :: rest => stream.next box ending rest

/-- A call of `next` that returned something, with the stream before and after it. -/
structure Call where
  before : WsFramedStream
  result : Except IoError Bytes
  after : WsFramedStream

theorem length_next {box : Secretbox} {stream after : WsFramedStream} {ending : Option String}
    {messages rest : List WsMessage} {result : Option (Except IoError Bytes)}
    (hSome : messages ≠ []) (hNext : stream.next box ending messages = (result, after, rest)) :
    rest.length < messages.length := by
  induction messages with
  | nil => exact absurd rfl hSome
  | cons message messages ih =>
      cases message with
      | binary data =>
          rw [next] at hNext
          split at hNext
          · cases hNext
            exact Nat.lt_succ_self _
          · cases hNext
            exact Nat.lt_succ_self _
      | text content =>
          cases hNext
          exact Nat.lt_succ_self _
      | close =>
          cases hNext
          exact Nat.lt_succ_self _
      | control data =>
          rw [next] at hNext
          cases messages with
          | nil =>
              cases hNext
              exact Nat.lt_succ_self _
          | cons first later => exact Nat.lt_succ_of_lt (ih (by simp) hNext)

/-- Call `next` on the messages until it returns nothing. -/
def calls (box : Secretbox) (stream : WsFramedStream) (messages : List WsMessage) : List Call :=
  if _hNone : messages = [] then []
  else
    match _hNext : stream.next box none messages with
    | (none, _, _) => []
    | (some result, after, rest) =>
        { before := stream, result := result, after := after } :: calls box after rest
termination_by messages.length
decreasing_by exact length_next _hNone _hNext

/-- What of a message the caller gets to see. -/
def payload : WsMessage → Option Bytes
  | .binary data => some data
  | .text content => some (utf8 content)
  | .control _ => none
  | .close => none

/-- The messages before the peer closes the connection. -/
def untilClose (messages : List WsMessage) : List WsMessage := messages.takeWhile (· ≠ .close)

/-- Every payload longer than one byte that is returned was opened by `dec`, from a
binary message, and counted. -/
def Authentic (box : Secretbox) (stream : WsFramedStream) (messages : List WsMessage) : Prop :=
  ∀ call ∈ stream.calls box messages, ∀ bytes, call.result = .ok bytes → 1 < bytes.length →
    ∃ encrypt data, call.before.encrypt = some encrypt ∧ .binary data ∈ messages ∧
      (encrypt.dec box data).1 = .ok bytes ∧ call.after.encrypt = some (encrypt.dec box data).2

end WsFramedStream

namespace FramedStream

/-- What `count` calls of `next` return. -/
def received (box : Secretbox) : Nat → FramedStream → List (Option (Except IoError Bytes))
  | 0, _ => []
  | count + 1, stream =>
      let (result, stream) := stream.next box
      result :: received box count stream

end FramedStream

namespace WsFramedStream

/-- A TCP stream with the same key and counts, on which the payloads arrive in
frames, returns the same for each of them. -/
def Agrees (box : Secretbox) (encrypt : Encrypt) (messages : List WsMessage) : Prop :=
  let payloads := (untilClose messages).filterMap payload
  ∀ wire, BytesCodec.new.encodeAll payloads [] = (.ok (), wire) →
    FramedStream.received box payloads.length
        { codec := .new, buffer := wire, encrypt := some encrypt } =
      (calls box { encrypt := some encrypt } messages).map fun call => some call.result

/-- No text message longer than one byte comes before the connection is closed. -/
def NoLongText (messages : List WsMessage) : Prop :=
  ∀ content, .text content ∈ untilClose messages → (utf8 content).length ≤ 1

section Calls
variable (box : Secretbox) (stream : WsFramedStream) (messages : List WsMessage)

@[simp] theorem calls_nil : stream.calls box [] = [] := by
  rw [calls.eq_def, dif_pos rfl]

theorem calls_of_some {result : Except IoError Bytes} {after : WsFramedStream}
    {rest : List WsMessage} {stream : WsFramedStream} {messages : List WsMessage}
    (hSome : messages ≠ [])
    (hNext : stream.next box none messages = (some result, after, rest)) :
    stream.calls box messages =
      { before := stream, result := result, after := after } :: after.calls box rest := by
  rw [calls.eq_def, dif_neg hSome]
  split <;> simp_all

theorem calls_binary (encrypt : Encrypt) (data : Bytes) :
    calls box { encrypt := some encrypt } (.binary data :: messages) =
      { before := { encrypt := some encrypt }
        result := (encrypt.dec box data).1
        after := { encrypt := some (encrypt.dec box data).2 } } ::
        calls box { encrypt := some (encrypt.dec box data).2 } messages :=
  calls_of_some box (by simp) rfl

theorem calls_text (content : String) :
    stream.calls box (.text content :: messages) =
      { before := stream, result := .ok (utf8 content), after := stream } ::
        stream.calls box messages :=
  calls_of_some box (by simp) rfl

theorem calls_close : stream.calls box (.close :: messages) = [] := by
  rw [calls.eq_def, dif_neg (by simp)]
  rfl

/-- A control message is passed over. -/
theorem calls_control (data : Bytes) :
    stream.calls box (.control data :: messages) = stream.calls box messages := by
  have hNext : stream.next box none (.control data :: messages) =
      stream.next box none messages := rfl
  cases messages with
  | nil =>
      rw [calls.eq_def, dif_neg (by simp), calls_nil]
      rfl
  | cons message messages =>
      rw [calls.eq_def, dif_neg (by simp), calls.eq_def box stream (message :: messages),
        dif_neg (by simp)]
      rw [hNext]

end Calls

section UntilClose
variable (messages : List WsMessage)

@[simp] theorem untilClose_close : untilClose (.close :: messages) = [] := by
  simp [untilClose]

theorem untilClose_cons {message : WsMessage} (hOpen : message ≠ .close) :
    untilClose (message :: messages) = message :: untilClose messages := by
  simp [untilClose, hOpen]

theorem noLongText_cons {message : WsMessage} (hOpen : message ≠ .close) :
    NoLongText (message :: messages) ↔
      (∀ content, message = .text content → (utf8 content).length ≤ 1) ∧ NoLongText messages := by
  unfold NoLongText
  rw [untilClose_cons messages hOpen]
  constructor
  · intro hAll
    refine ⟨fun content hText => hAll content (hText ▸ List.mem_cons_self), fun content hIn => ?_⟩
    exact hAll content (List.mem_cons_of_mem _ hIn)
  · rintro ⟨hFirst, hRest⟩ content hIn
    rcases List.mem_cons.mp hIn with hText | hLater
    · exact hFirst content hText.symm
    · exact hRest content hLater

end UntilClose

section Authentic
variable {box : Secretbox}

/-- The returned payload is the opening of a binary message among these. -/
def Call.Opened (box : Secretbox) (messages : List WsMessage) (call : Call) : Prop :=
  ∀ bytes, call.result = .ok bytes → 1 < bytes.length →
    ∃ encrypt data, call.before.encrypt = some encrypt ∧ .binary data ∈ messages ∧
      (encrypt.dec box data).1 = .ok bytes ∧ call.after.encrypt = some (encrypt.dec box data).2

/-- A call that leaves the count as it was has opened nothing. -/
theorem not_opened_of_unchanged {encrypt : Encrypt} {data bytes : Bytes}
    (hBytes : (encrypt.dec box data).1 = .ok bytes) (hLong : 1 < bytes.length) :
    (encrypt.dec box data).2 ≠ encrypt := by
  rcases Nat.lt_or_ge 1 data.length with hData | hData
  · rw [Ends.dec_of_long hData]
    intro hSame
    have hCount : encrypt.opened + 1 = encrypt.opened := congrArg Encrypt.opened hSame
    simp at hCount
  · rw [Ends.dec_of_short hData] at hBytes
    obtain rfl := Except.ok.inj hBytes
    omega

theorem opened_of_noLongText {messages among : List WsMessage} (hAmong : messages ⊆ among)
    (hText : NoLongText messages) (encrypt : Encrypt) :
    ∀ call ∈ calls box { encrypt := some encrypt } messages, call.Opened box among := by
  induction messages generalizing encrypt with
  | nil => simp
  | cons message messages ih =>
      have hLater : messages ⊆ among := fun later hIn => hAmong (List.mem_cons_of_mem _ hIn)
      cases message with
      | close =>
          rw [calls_close]
          simp
      | control data =>
          rw [calls_control]
          exact ih hLater ((noLongText_cons messages (by simp)).mp hText).2 encrypt
      | binary data =>
          obtain ⟨-, hRest⟩ := (noLongText_cons messages (by simp)).mp hText
          rw [calls_binary]
          intro call hCall
          rcases List.mem_cons.mp hCall with rfl | hCall
          · intro bytes hBytes _
            exact ⟨encrypt, data, rfl, hAmong List.mem_cons_self, hBytes, rfl⟩
          · exact ih hLater hRest _ call hCall
      | text content =>
          obtain ⟨hShort, hRest⟩ := (noLongText_cons messages (by simp)).mp hText
          rw [calls_text]
          intro call hCall
          rcases List.mem_cons.mp hCall with rfl | hCall
          · intro bytes hBytes hLong
            obtain rfl := Except.ok.inj hBytes
            have hFits := hShort content rfl
            omega
          · exact ih hLater hRest _ call hCall

theorem noLongText_of_opened {messages among : List WsMessage} {encrypt : Encrypt}
    (hOpened : ∀ call ∈ calls box { encrypt := some encrypt } messages, call.Opened box among) :
    NoLongText messages := by
  induction messages generalizing encrypt with
  | nil =>
      intro content hIn
      cases hIn
  | cons message messages ih =>
      cases message with
      | close =>
          intro content hIn
          rw [untilClose_close] at hIn
          cases hIn
      | control data =>
          rw [calls_control] at hOpened
          exact (noLongText_cons messages (by simp)).mpr ⟨by simp, ih hOpened⟩
      | binary data =>
          rw [calls_binary] at hOpened
          have hTail : ∀ call ∈ calls box { encrypt := some (encrypt.dec box data).2 } messages,
              call.Opened box among :=
            fun call hCall => hOpened call (List.mem_cons_of_mem _ hCall)
          exact (noLongText_cons messages (by simp)).mpr ⟨by simp, ih hTail⟩
      | text content =>
          rw [calls_text] at hOpened
          refine (noLongText_cons messages (by simp)).mpr ⟨?_, ih fun call hCall =>
            hOpened call (List.mem_cons_of_mem _ hCall)⟩
          rintro found hText
          obtain rfl : content = found := by simpa using hText
          by_contra hLong
          obtain ⟨before, data, hBefore, -, hBytes, hAfter⟩ :=
            hOpened _ List.mem_cons_self _ rfl (Nat.lt_of_not_le hLong)
          obtain rfl := Option.some.inj hBefore
          exact not_opened_of_unchanged hBytes (Nat.lt_of_not_le hLong)
            (Option.some.inj hAfter).symm

end Authentic

section Agreement
variable {box : Secretbox}

/-- The frames of one encoding do not depend on what was in the buffer. -/
theorem encodeAll_append (codec : BytesCodec) (payloads : List Bytes) (buf : Bytes) :
    codec.encodeAll payloads buf =
      ((codec.encodeAll payloads []).1, buf ++ (codec.encodeAll payloads []).2) := by
  induction payloads generalizing buf with
  | nil => simp [BytesCodec.encodeAll]
  | cons payload payloads ih =>
      have hEncode : codec.encode payload buf =
          ((codec.encode payload []).1, buf ++ (codec.encode payload []).2) := by
        unfold BytesCodec.encode
        split
        · simp
        · split <;> simp
      simp only [BytesCodec.encodeAll]
      rw [hEncode]
      generalize codec.encode payload [] = encoded
      obtain ⟨result, frame⟩ := encoded
      cases result with
      | error error => rfl
      | ok done =>
          dsimp only
          rw [ih, ih frame]
          simp

/-- A row of payloads that could be framed is the frame of the first and those of
the rest. -/
theorem encodeAll_cons {payload wire : Bytes} {payloads : List Bytes}
    (hWire : BytesCodec.new.encodeAll (payload :: payloads) [] = (.ok (), wire)) :
    ∃ header rest, BytesCodec.encodeHead payload.length = some header ∧
      wire = header ++ payload ++ rest ∧ BytesCodec.new.encodeAll payloads [] = (.ok (), rest) := by
  have hFits : payload.length ≤ 0x3FFFFFFF := by
    by_contra hLong
    simp only [BytesCodec.encodeAll] at hWire
    rw [BytesCodec.encode_of_long rfl (Nat.lt_of_not_le hLong)] at hWire
    simp at hWire
  have hRaw : BytesCodec.new.raw = false := rfl
  obtain ⟨header, hHeader, hEncode⟩ := BytesCodec.encode_of_fits hRaw hFits []
  simp only [BytesCodec.encodeAll] at hWire
  rw [hEncode] at hWire
  dsimp only at hWire
  rw [encodeAll_append] at hWire
  obtain ⟨hDone, rfl⟩ := Prod.mk.inj hWire
  refine ⟨header, (BytesCodec.new.encodeAll payloads []).2, hHeader, by simp, ?_⟩
  rw [← hDone]

/-- A TCP stream with a key opens the frame at the front of its buffer. -/
theorem next_of_frame {payload header : Bytes} (encrypt : Encrypt) (rest : Bytes)
    (hHeader : BytesCodec.encodeHead payload.length = some header) :
    FramedStream.next box
        { codec := .new, buffer := header ++ payload ++ rest, encrypt := some encrypt } =
      (some (encrypt.dec box payload).1,
        { codec := .new, buffer := rest, encrypt := some (encrypt.dec box payload).2 }) := by
  obtain ⟨hTake, hLength⟩ := BytesCodec.takeHeader_encodeHead hHeader (payload ++ rest)
  have hFits : payload.length ≤ usizeMax := by
    by_contra hLong
    have hNone : BytesCodec.encodeHead payload.length = none :=
      BytesCodec.encodeHead_eq_none (Nat.lt_of_le_of_lt (by decide) (Nat.lt_of_not_le hLong))
    rw [hNone] at hHeader
    cases hHeader
  have hCall : BytesCodec.framedCall usizeMax .head (header ++ (payload ++ rest)) =
      (.ok (some payload), .head, rest) := by
    rw [BytesCodec.framedCall_head_of_header hTake (hLength ▸ hFits), hLength,
      BytesCodec.framedCall_data_item (Nat.le_refl _)]
    simp
  have hDecode : BytesCodec.new.decode (header ++ (payload ++ rest)) =
      (.ok (some payload), .new, rest) := by
    change (BytesCodec.framing usizeMax .head).decode _ = _
    rw [BytesCodec.decode_framing, hCall]
    rfl
  unfold FramedStream.next
  simp only [List.append_assoc, hDecode]

/-- The first payload gives the same on both streams, so the rest decides. -/
theorem agrees_cons {message : WsMessage} {messages : List WsMessage} {encrypt : Encrypt}
    {data : Bytes} (hOpen : message ≠ .close) (hData : payload message = some data)
    (hCalls : (calls box { encrypt := some encrypt } (message :: messages)).map
        (fun call => some call.result) =
      some (encrypt.dec box data).1 ::
        (calls box { encrypt := some (encrypt.dec box data).2 } messages).map
          (fun call => some call.result))
    (hRest : Agrees box (encrypt.dec box data).2 messages) :
    Agrees box encrypt (message :: messages) := by
  unfold Agrees
  intro payloads wire hWire
  have hPayloads : payloads = data :: (untilClose messages).filterMap payload := by
    change (untilClose (message :: messages)).filterMap payload = _
    rw [untilClose_cons messages hOpen, List.filterMap_cons_some hData]
  rw [hPayloads] at hWire ⊢
  obtain ⟨header, rest, hHeader, rfl, hLater⟩ := encodeAll_cons hWire
  rw [hCalls, List.length_cons, FramedStream.received, next_of_frame encrypt rest hHeader]
  dsimp only
  rw [hRest rest hLater]

theorem agrees_of_noLongText {messages : List WsMessage} (hText : NoLongText messages)
    (encrypt : Encrypt) : Agrees box encrypt messages := by
  induction messages generalizing encrypt with
  | nil =>
      intro wire _
      rw [calls_nil]
      rfl
  | cons message messages ih =>
      cases message with
      | close =>
          unfold Agrees
          rw [untilClose_close, calls_close]
          intro payloads wire _
          rfl
      | control data =>
          unfold Agrees at ih ⊢
          rw [untilClose_cons messages (by simp), calls_control,
            List.filterMap_cons_none (by rfl)]
          exact ih ((noLongText_cons messages (by simp)).mp hText).2 encrypt
      | binary data =>
          obtain ⟨-, hRest⟩ := (noLongText_cons messages (by simp)).mp hText
          refine agrees_cons (by simp) rfl ?_ (ih hRest _)
          rw [calls_binary, List.map_cons]
      | text content =>
          obtain ⟨hShort, hRest⟩ := (noLongText_cons messages (by simp)).mp hText
          have hDec : encrypt.dec box (utf8 content) = (.ok (utf8 content), encrypt) :=
            Ends.dec_of_short (hShort content rfl)
          refine agrees_cons (by simp) rfl ?_ (ih hRest _)
          rw [calls_text, List.map_cons, hDec]

end Agreement

/-- Whatever arrives on a stream with a key, all long payloads returned were opened
from binary messages and a TCP stream returns the same, exactly if no long text
message comes before the connection is closed. -/
theorem authentic_and_agrees_iff (box : Secretbox) (encrypt : Encrypt)
    (messages : List WsMessage) :
    Authentic box { encrypt := some encrypt } messages ∧ Agrees box encrypt messages ↔
      NoLongText messages := by
  constructor
  · rintro ⟨hAuthentic, -⟩
    exact noLongText_of_opened hAuthentic
  · intro hText
    refine ⟨?_, agrees_of_noLongText hText encrypt⟩
    exact opened_of_noLongText (List.Subset.refl messages) hText encrypt

/-- A text message is returned as it came, whatever key is installed. -/
theorem plain_text_is_returned :
    (calls .marking (({ encrypt := none } : WsFramedStream).setKey [7]) [.text "hi"]).map
        Call.result = [.ok [104, 105]] ∧
      ¬(Authentic .marking (({ encrypt := none } : WsFramedStream).setKey [7]) [.text "hi"] ∧
        Agrees .marking (.new [7]) [.text "hi"]) := by
  constructor
  · rw [calls_text, calls_nil]
    decide
  · rintro ⟨hAuthentic, -⟩
    rw [Authentic, calls_text] at hAuthentic
    obtain ⟨encrypt, data, -, hIn, -⟩ :=
      hAuthentic _ List.mem_cons_self _ rfl (by decide)
    simp at hIn

end WsFramedStream

end HibtDesk
