import HibtDesk.Network.HandshakeKeys

/-! What holds of a handshake in any order of its steps. The two ends install one key or none,
and then each receives what the other sends, after at most one message that the client has not
waited for. As on any secured stream, nothing may be sent on after a refused message. -/
namespace HibtDesk.Handshake

/-- An end that has nothing to show yet. -/
structure Idle (person : Correspondent) : Prop where
  encrypt : person.stream.encrypt = none
  accepted : person.accepted = []
  refused : person.refused = []
  received : person.received = []

theorem Idle.stream {person : Correspondent} (hIdle : Idle person) {stream : FramedStream}
    (hStream : stream.encrypt = none) (inbound : Bytes) :
    Idle { person with stream := stream, inbound := inbound } :=
  ⟨hStream, hIdle.accepted, hIdle.refused, hIdle.received⟩

theorem Idle.arrive {person : Correspondent} (hIdle : Idle person) (buffer inbound : Bytes) :
    Idle { person with stream := { person.stream with buffer := buffer }, inbound := inbound } :=
  ⟨hIdle.encrypt, hIdle.accepted, hIdle.refused, hIdle.received⟩

/-- An end that has installed the key, or goes on without one, has counted nothing. -/
theorem Idle.keeps {person : Correspondent} (hIdle : Idle person) (key : Option Bytes) {stream : FramedStream}
    (hStream : stream.encrypt = key.map Encrypt.new) : Keeps key { person with stream := stream } := by
  refine ⟨fun hNone => ?_, fun found hKey => ⟨.new found, ?_, rfl, fun _ => ?_, ?_⟩⟩
  · rw [hStream, hNone]
    rfl
  · rw [hStream, hKey]
    rfl
  · change (0 : UInt64) = UInt64.ofNat person.accepted.length
    rw [hIdle.accepted]
    rfl
  · change (0 : UInt64) = UInt64.ofNat person.received.length
    rw [hIdle.received]
    rfl

section Linked
variable (proto : Protobuf) (sodium : Sodium) (setup : Setup)

/-- What the server has said of itself by a stage. -/
def greeting (atServer : Stage) : List Bytes :=
  if atServer = .starting then [] else [signedIdMessage proto sodium setup]

/-- What the client does not wait for. -/
def unread (atServer : Stage) : List Bytes :=
  if signPk proto sodium setup = none then greeting proto sodium setup atServer else []

/-- What the client has answered by a stage. -/
def answered (atClient : Stage) : List Bytes :=
  if atClient = .done then [replyMessage proto sodium setup] else []

/-- What links the two ends, neither of which has failed. -/
structure Linked (client server : Correspondent) (atClient atServer : Stage) : Prop where
  order : atServer = .done → atClient = .done
  trusts : atClient = .waiting → signPk proto sodium setup ≠ none
  greeted : atClient = .done → signPk proto sodium setup ≠ none → atServer ≠ .starting
  clientIdle : atClient ≠ .done → Idle client
  serverIdle : atServer ≠ .done → Idle server
  clientKeeps : atClient = .done → Keeps (sessionKey proto sodium setup) client
  serverKeeps : atServer = .done → Keeps (sessionKey proto sodium setup) server
  clientBefore : atClient ≠ .done →
    Underway client.stream client.inbound (greeting proto sodium setup atServer)
  clientAfter : atClient = .done → Receives sodium.secretbox (sessionKey proto sodium setup) client
    (unread proto sodium setup atServer ++ server.accepted)
  serverBefore : atServer ≠ .done → Underway server.stream server.inbound
    (answered proto sodium setup atClient ++
      wire sodium.secretbox (sessionKey proto sodium setup) client.accepted)
  serverAfter : atServer = .done →
    Receives sodium.secretbox (sessionKey proto sodium setup) server client.accepted

variable {proto sodium setup} {client server : Correspondent} {atClient atServer : Stage}

theorem Linked.arriveClient (h : Linked proto sodium setup client server atClient atServer)
    (count : Nat) :
    Linked proto sodium setup
      { client with
        stream := { client.stream with buffer := client.stream.buffer ++ client.inbound.take count }
        inbound := client.inbound.drop count } server atClient atServer :=
  { h with
    clientIdle := fun hStage => (h.clientIdle hStage).arrive _ _
    clientKeeps := fun hStage => ⟨(h.clientKeeps hStage).plain, (h.clientKeeps hStage).counted⟩
    clientBefore := fun hStage => (h.clientBefore hStage).arrive count
    clientAfter := fun hStage => (h.clientAfter hStage).arrive count }

theorem Linked.arriveServer (h : Linked proto sodium setup client server atClient atServer)
    (count : Nat) :
    Linked proto sodium setup client
      { server with
        stream := { server.stream with buffer := server.stream.buffer ++ server.inbound.take count }
        inbound := server.inbound.drop count } atClient atServer :=
  { h with
    serverIdle := fun hStage => (h.serverIdle hStage).arrive _ _
    serverKeeps := fun hStage => ⟨(h.serverKeeps hStage).plain, (h.serverKeeps hStage).counted⟩
    serverBefore := fun hStage => (h.serverBefore hStage).arrive count
    serverAfter := fun hStage => (h.serverAfter hStage).arrive count }

theorem Linked.nextClient (hSodium : sodium.Ideal)
    (h : Linked proto sodium setup client server .done atServer) :
    Linked proto sodium setup
      { client with
        stream := (client.stream.next sodium.secretbox).2
        received := client.received ++ (client.stream.next sodium.secretbox).1.toList }
      server .done atServer :=
  have hNext := (h.clientAfter rfl).next hSodium.secretbox (h.clientKeeps rfl)
  { h with
    clientIdle := fun hStage => absurd rfl hStage
    clientKeeps := fun _ => hNext.2
    clientBefore := fun hStage => absurd rfl hStage
    clientAfter := fun _ => hNext.1 }

theorem Linked.nextServer (hSodium : sodium.Ideal)
    (h : Linked proto sodium setup client server atClient .done) :
    Linked proto sodium setup client
      { server with
        stream := (server.stream.next sodium.secretbox).2
        received := server.received ++ (server.stream.next sodium.secretbox).1.toList }
      atClient .done :=
  have hNext := (h.serverAfter rfl).next hSodium.secretbox (h.serverKeeps rfl)
  { h with
    serverIdle := fun hStage => absurd rfl hStage
    serverKeeps := fun _ => hNext.2
    serverBefore := fun hStage => absurd rfl hStage
    serverAfter := fun _ => hNext.1 }

/-- What the client sends follows its answer. -/
theorem Linked.sendClient (h : Linked proto sodium setup client server .done atServer)
    {msg header : Bytes} (hNone : sessionKey proto sodium setup ≠ none → client.refused = [])
    (hHeader : BytesCodec.encodeHead
      (sealMessage sodium.secretbox client.stream.encrypt msg).2.length = some header)
    (hFits : (sealMessage sodium.secretbox client.stream.encrypt msg).2.length ≤ 0x3FFFFFFF) :
    Linked proto sodium setup
      { client with
        stream := { client.stream with
          encrypt := (sealMessage sodium.secretbox client.stream.encrypt msg).1 }
        accepted := client.accepted ++ [msg] }
      { server with
        inbound := server.inbound ++
          (header ++ (sealMessage sodium.secretbox client.stream.encrypt msg).2) }
      .done atServer := by
  have hFrame := Keeps.seal sodium.secretbox (h.clientKeeps rfl) msg hNone
  refine { h with
    clientIdle := fun hStage => absurd rfl hStage
    serverIdle := fun hStage => (h.serverIdle hStage).stream (h.serverIdle hStage).encrypt _
    clientKeeps := fun _ => (h.clientKeeps rfl).accepted msg hNone
    serverKeeps := fun hStage => ⟨(h.serverKeeps hStage).plain, (h.serverKeeps hStage).counted⟩
    clientBefore := fun hStage => absurd rfl hStage
    clientAfter := fun _ => ⟨(h.clientAfter rfl).underway, (h.clientAfter rfl).received⟩
    serverBefore := fun hStage => ?_
    serverAfter := fun hStage => ?_ }
  · have hAppend := (h.serverBefore hStage).append hHeader (Nat.le_trans hFits (by decide))
    rw [List.append_assoc] at hAppend
    rw [wire_concat, ← hFrame]
    exact hAppend
  · rw [hFrame] at hHeader hFits ⊢
    exact (h.serverAfter hStage).append hHeader hFits

theorem Linked.refuseClient (h : Linked proto sodium setup client server .done atServer)
    (msg : Bytes) :
    Linked proto sodium setup
      { client with
        stream := { client.stream with
          encrypt := (sealMessage sodium.secretbox client.stream.encrypt msg).1 }
        refused := client.refused ++ [msg] } server .done atServer :=
  { h with
    clientIdle := fun hStage => absurd rfl hStage
    clientKeeps := fun _ => (h.clientKeeps rfl).refused msg
    clientBefore := fun hStage => absurd rfl hStage
    clientAfter := fun _ => ⟨(h.clientAfter rfl).underway, (h.clientAfter rfl).received⟩ }

/-- With a message the client does not wait for there is no key, and the frames are not
counted. -/
theorem frameAt_unread (box : Secretbox) (atServer : Stage) (accepted : List Bytes) (msg : Bytes) :
    frameAt box (sessionKey proto sodium setup) (unread proto sodium setup atServer ++ accepted).length
        msg = frameAt box (sessionKey proto sodium setup) accepted.length msg := by
  by_cases hNone : signPk proto sodium setup = none
  · rw [sessionKey_of_none hNone]
    rfl
  · rw [unread, if_neg hNone, List.nil_append]

/-- What the server sends follows what it has said of itself. -/
theorem Linked.sendServer (h : Linked proto sodium setup client server atClient .done)
    {msg header : Bytes} (hNone : sessionKey proto sodium setup ≠ none → server.refused = [])
    (hHeader : BytesCodec.encodeHead
      (sealMessage sodium.secretbox server.stream.encrypt msg).2.length = some header)
    (hFits : (sealMessage sodium.secretbox server.stream.encrypt msg).2.length ≤ 0x3FFFFFFF) :
    Linked proto sodium setup
      { client with
        inbound := client.inbound ++
          (header ++ (sealMessage sodium.secretbox server.stream.encrypt msg).2) }
      { server with
        stream := { server.stream with
          encrypt := (sealMessage sodium.secretbox server.stream.encrypt msg).1 }
        accepted := server.accepted ++ [msg] }
      atClient .done := by
  have hFrame := Keeps.seal sodium.secretbox (h.serverKeeps rfl) msg hNone
  refine { h with
    clientIdle := fun hStage => (h.clientIdle hStage).stream (h.clientIdle hStage).encrypt _
    serverIdle := fun hStage => absurd rfl hStage
    clientKeeps := fun hStage => ⟨(h.clientKeeps hStage).plain, (h.clientKeeps hStage).counted⟩
    serverKeeps := fun _ => (h.serverKeeps rfl).accepted msg hNone
    clientBefore := fun hStage => absurd (h.order rfl) hStage
    clientAfter := fun hStage => ?_
    serverBefore := fun hStage => absurd rfl hStage
    serverAfter := fun _ => ⟨(h.serverAfter rfl).underway, (h.serverAfter rfl).received⟩ }
  rw [hFrame, ← frameAt_unread _ .done] at hHeader hFits ⊢
  have hAppend := (h.clientAfter hStage).append hHeader hFits
  rw [List.append_assoc] at hAppend
  exact hAppend

theorem Linked.refuseServer (h : Linked proto sodium setup client server atClient .done)
    (msg : Bytes) :
    Linked proto sodium setup client
      { server with
        stream := { server.stream with
          encrypt := (sealMessage sodium.secretbox server.stream.encrypt msg).1 }
        refused := server.refused ++ [msg] } atClient .done :=
  { h with
    serverIdle := fun hStage => absurd rfl hStage
    serverKeeps := fun _ => (h.serverKeeps rfl).refused msg
    serverBefore := fun hStage => absurd rfl hStage
    serverAfter := fun _ => ⟨(h.serverAfter rfl).underway, (h.serverAfter rfl).received⟩ }

/-- A client that trusts no key answers at once. -/
theorem Linked.skip (h : Linked proto sodium setup client server .starting atServer)
    (hTrust : signPk proto sodium setup = none) {header : Bytes}
    (hHeader : BytesCodec.encodeHead (replyMessage proto sodium setup).length = some header)
    (hFits : (replyMessage proto sodium setup).length ≤ 0x3FFFFFFF) :
    Linked proto sodium setup client
      { server with inbound := server.inbound ++ (header ++ replyMessage proto sodium setup) }
      .done atServer := by
  have hIdle := h.clientIdle nofun
  have hBefore : atServer ≠ .done := fun hDone => nomatch h.order hDone
  have hServer := h.serverIdle hBefore
  have hKey := sessionKey_of_none hTrust
  refine {
    order := fun _ => rfl
    trusts := nofun
    greeted := fun _ hSome => absurd hTrust hSome
    clientIdle := fun hStage => absurd rfl hStage
    serverIdle := fun _ => hServer.stream hServer.encrypt _
    clientKeeps := fun _ => hIdle.keeps _ (by rw [hKey]; exact hIdle.encrypt)
    serverKeeps := fun hDone => absurd hDone hBefore
    clientBefore := fun hStage => absurd rfl hStage
    clientAfter := fun _ => ⟨?_, ?_⟩
    serverBefore := fun _ => ?_
    serverAfter := fun hDone => absurd hDone hBefore }
  · rw [hIdle.received, hServer.accepted, hKey, wire_none, unread, if_pos hTrust, List.append_nil]
    exact h.clientBefore nofun
  · rw [hIdle.received]
    rfl
  · have hAppend := (h.serverBefore hBefore).append hHeader (Nat.le_trans hFits (by decide))
    rw [hIdle.accepted] at hAppend ⊢
    exact hAppend

/-- The server's first message is on its way to a client that waits for it, or to one that has
gone on. -/
theorem Linked.greet (h : Linked proto sodium setup client server atClient .starting) {header : Bytes}
    (hHeader : BytesCodec.encodeHead (signedIdMessage proto sodium setup).length = some header)
    (hFits : (signedIdMessage proto sodium setup).length ≤ 0x3FFFFFFF) :
    Linked proto sodium setup
      { client with inbound := client.inbound ++ (header ++ signedIdMessage proto sodium setup) }
      server atClient .waiting := by
  have hServer := h.serverIdle nofun
  refine {
    order := nofun
    trusts := h.trusts
    greeted := fun _ _ => nofun
    clientIdle := fun hStage => (h.clientIdle hStage).stream (h.clientIdle hStage).encrypt _
    serverIdle := fun _ => hServer
    clientKeeps := fun hStage => ⟨(h.clientKeeps hStage).plain, (h.clientKeeps hStage).counted⟩
    serverKeeps := nofun
    clientBefore := fun hStage => (h.clientBefore hStage).append hHeader (Nat.le_trans hFits (by decide))
    clientAfter := fun hStage => ?_
    serverBefore := fun _ => h.serverBefore nofun
    serverAfter := nofun }
  -- A client that has gone on trusts no key.
  have hTrust : signPk proto sodium setup = none := by
    by_contra hSome
    exact h.greeted hStage hSome rfl
  have hKey := sessionKey_of_none hTrust
  have hAfter := h.clientAfter hStage
  simp only [unread, if_pos hTrust, greeting, if_true, hServer.accepted, hKey] at hAfter ⊢
  exact hAfter.append hHeader hFits

/-- A client that waits reads the server's first message and answers it. -/
theorem Linked.reply (h : Linked proto sodium setup client server .waiting atServer)
    {stream : FramedStream} (hGreeted : atServer ≠ .starting)
    (hUnderway : Underway stream client.inbound []) {header : Bytes}
    (hHeader : BytesCodec.encodeHead (replyMessage proto sodium setup).length = some header)
    (hFits : (replyMessage proto sodium setup).length ≤ 0x3FFFFFFF)
    (hStream : stream.encrypt = (sessionKey proto sodium setup).map Encrypt.new) :
    Linked proto sodium setup { client with stream := stream }
      { server with inbound := server.inbound ++ (header ++ replyMessage proto sodium setup) }
      .done atServer := by
  have hIdle := h.clientIdle nofun
  have hBefore : atServer ≠ .done := fun hDone => nomatch h.order hDone
  have hServer := h.serverIdle hBefore
  refine {
    order := fun _ => rfl
    trusts := nofun
    greeted := fun _ _ => hGreeted
    clientIdle := fun hStage => absurd rfl hStage
    serverIdle := fun _ => hServer.stream hServer.encrypt _
    clientKeeps := fun _ => hIdle.keeps _ hStream
    serverKeeps := fun hDone => absurd hDone hBefore
    clientBefore := fun hStage => absurd rfl hStage
    clientAfter := fun _ => ⟨?_, ?_⟩
    serverBefore := fun _ => ?_
    serverAfter := fun hDone => absurd hDone hBefore }
  · rw [hIdle.received, hServer.accepted, unread, if_neg (h.trusts rfl)]
    exact hUnderway
  · change client.received = _
    rw [hIdle.received]
    rfl
  · have hAppend := (h.serverBefore hBefore).append hHeader (Nat.le_trans hFits (by decide))
    change Underway _ _ (_ ++ wire _ _ client.accepted)
    rw [hIdle.accepted] at hAppend ⊢
    exact hAppend

/-- The server has read the answer. -/
theorem Linked.accept (h : Linked proto sodium setup client server .done .waiting)
    {stream : FramedStream}
    (hUnderway : Underway stream server.inbound
      (wire sodium.secretbox (sessionKey proto sodium setup) client.accepted))
    (hStream : stream.encrypt = (sessionKey proto sodium setup).map Encrypt.new) :
    Linked proto sodium setup client { server with stream := stream } .done .done := by
  have hServer := h.serverIdle nofun
  refine { h with
    order := fun _ => rfl
    greeted := fun _ _ => nofun
    serverIdle := fun hStage => absurd rfl hStage
    serverKeeps := fun _ => hServer.keeps _ hStream
    clientAfter := fun _ => h.clientAfter rfl
    serverBefore := fun hStage => absurd rfl hStage
    serverAfter := fun _ => ⟨?_, ?_⟩ }
  · rw [hServer.received]
    exact hUnderway
  · change server.received = _
    rw [hServer.received]
    rfl

end Linked

end HibtDesk.Handshake
