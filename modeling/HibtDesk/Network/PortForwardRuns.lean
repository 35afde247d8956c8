import HibtDesk.Library.Trace
import HibtDesk.Network.PortForward

/-! The two ends of a port forward over a whole run. As long as each goes over to bytes when
no message is on its way to it any more, the application and the target get nothing but what
the other one has sent. -/
namespace HibtDesk.PortForward

variable {proto : Protobuf} {box : Secretbox} {s : Session}

/-- The codec takes the message, sealed or not. -/
def Protobuf.Fits (proto : Protobuf) (msg : Message) : Prop := (proto.write msg).length + 16 ≤ 0x3FFFFFFF

instance (proto : Protobuf) (msg : Message) : Decidable (proto.Fits msg) :=
  inferInstanceAs (Decidable (_ ≤ _))

/-- Messages with a number in front. -/
def Protobuf.tagged : Protobuf where
  write
    | .hash challenge => 0 :: challenge
    | .loginRequest request => 1 :: request
    | .auth2fa code => 2 :: code
    | .loginError error => 3 :: error
    | .peerInfo info => 4 :: info
    | .testDelay delay => 5 :: delay
    | .other payload => 6 :: payload
  parse
    | 0 :: challenge => some (.hash challenge)
    | 1 :: request => some (.loginRequest request)
    | 2 :: code => some (.auth2fa code)
    | 3 :: error => some (.loginError error)
    | 4 :: info => some (.peerInfo info)
    | 5 :: delay => some (.testDelay delay)
    | 6 :: payload => some (.other payload)
    | _ => none

theorem Protobuf.tagged_documented : Protobuf.tagged.Documented :=
  ⟨fun msg => by cases msg <;> rfl⟩

/-- The message an outcome is told with. -/
def Verdict.message : Verdict → Option Message
  | .closes _ error => error.map .loginError
  | .waits error => error.map .loginError
  | .grants info => some (.peerInfo info)

def Message.isProbe : Message → Bool
  | .testDelay _ => true
  | _ => false

/-- The probes among messages, and their answers. -/
def probes (msgs : List Message) : Nat := msgs.countP Message.isProbe

/-- None of the messages tells the client to go over. -/
def Pending (msgs : List Message) : Prop := ∀ info, .peerInfo info ∉ msgs

/-- The last of the messages, and no other, tells the client to go over. -/
def Granted (msgs : List Message) : Prop :=
  ∃ before info, msgs = before ++ [.peerInfo info] ∧ Pending before

theorem Granted.cons {msg : Message} {rest : List Message} (hGranted : Granted (msg :: rest)) :
    (∃ info, msg = .peerInfo info) ∧ rest = [] ∨ (∀ info, msg ≠ .peerInfo info) ∧ Granted rest := by
  obtain ⟨before, info, hMsgs, hPending⟩ := hGranted
  cases before with
  | nil =>
      obtain ⟨rfl, rfl⟩ := List.cons.inj hMsgs
      exact Or.inl ⟨⟨info, rfl⟩, rfl⟩
  | cons first before =>
      obtain ⟨rfl, rfl⟩ := List.cons.inj hMsgs
      refine Or.inr ⟨fun other hSame => hPending other (hSame ▸ List.mem_cons_self), before, info, rfl, ?_⟩
      exact fun other hMem => hPending other (List.mem_cons_of_mem _ hMem)

/-- What the client sends for a message. -/
def Answer.reply (answer : Answer) : Message → Option Message
  | .hash _ => answer.request.map .loginRequest
  | .testDelay delay => some (.testDelay delay)
  | _ => none

/-- The server may read the message with the others still on their way: what it tells of the
outcome is not too long, it grants what it has a socket for, tells of no error after that,
and if it leaves its loop there are no others. -/
def Server.Ready (proto : Protobuf) (server : Server) (verdict : Verdict) (rest : List Message) :
    Message → Prop
  | .loginRequest _ => server.authorized = false → (∀ told ∈ verdict.message, proto.Fits told) ∧
      match verdict with
      | .closes connects _ => server.portForwardSocket = true ∨ connects = true → rest = []
      | .waits _ => True
      | .grants _ => server.lastTestDelay = false → rest = []
  | .auth2fa _ =>
      match verdict with
      | .closes _ _ => True
      | .waits error => ∀ told ∈ error.map Message.loginError, server.authorized = false ∧ proto.Fits told
      | .grants info => server.authorized = false → proto.Fits (.peerInfo info) ∧
          server.portForwardSocket = true ∧ (server.lastTestDelay = false → rest = [])
  | .testDelay _ => server.authorized = true → rest = []
  | _ => True

namespace Session

/-- What is written to either socket is from the other one, in order and each byte once. -/
def Transparent (s : Session) : Prop := s.toTarget <+: s.fromApp ∧ s.toApp <+: s.fromTarget

/-- The two directions between the ends. -/
structure Linked (proto : Protobuf) (box : Secretbox) (s : Session) : Prop where
  up : ∃ fresh, s.fromApp = fresh ++ s.client.buffer ∧
    (s.client.forwarding = true → s.client.buffer = []) ∧
      Direction box s.client.stream.sealing s.client.forwarding s.server.forwarding s.server.stream
        s.toServer (s.up.map proto.write) fresh s.toTarget
  down : Direction box s.server.stream.sealing s.server.forwarding s.client.forwarding
    s.client.stream s.toClient (s.down.map proto.write) s.fromTarget s.toApp

namespace Linked

theorem transparent (hLinked : Linked proto box s) : s.Transparent := by
  obtain ⟨fresh, hApp, -, hUp⟩ := hLinked.up
  exact ⟨hApp ▸ hUp.in_order.trans (List.prefix_append ..), hLinked.down.in_order⟩

theorem clientCodec (hLinked : Linked proto box s) : s.client.stream.codec.raw = s.client.forwarding :=
  hLinked.down.readerCodec

theorem serverCodec (hLinked : Linked proto box s) : s.server.stream.codec.raw = s.server.forwarding := by
  obtain ⟨fresh, -, -, hUp⟩ := hLinked.up
  exact hUp.readerCodec

/-- Between two ends that have not gone over, the client sends a message. -/
theorem clientSend (hBox : box.Documented) (hLinked : Linked proto box s) {msg : Message}
    (hClient : s.client.forwarding = false) (hServer : s.server.forwarding = false)
    (hFits : proto.Fits msg) :
    ∃ stream out, s.clientSend proto box msg =
        { s with
          client := { s.client with stream := stream }
          toServer := s.toServer ++ out
          up := s.up ++ [msg] } ∧
      Linked proto box (s.clientSend proto box msg) := by
  obtain ⟨fresh, hApp, hBuffer, hUp⟩ := hLinked.up
  rw [hClient, hServer] at hUp
  obtain ⟨encrypt, out, hSend, hOpening, hPlain, hSent⟩ :=
    hUp.send hBox (hLinked.clientCodec.trans hClient) hFits
  have hEq : s.clientSend proto box msg =
      { s with
        client := { s.client with stream := { s.client.stream with encrypt := encrypt } }
        toServer := s.toServer ++ out
        up := s.up ++ [msg] } := by
    unfold Session.clientSend
    rw [hSend]
  refine ⟨_, out, hEq, ?_⟩
  rw [hEq]
  refine ⟨⟨fresh, hApp, hBuffer, ?_⟩, ?_⟩
  · dsimp only
    rw [hClient, hServer, List.map_append]
    exact hSent
  · exact hLinked.down.reader_congr rfl rfl hOpening hPlain

/-- Between two ends that have not gone over, the server sends a message. -/
theorem serverSend (hBox : box.Documented) (hLinked : Linked proto box s) {msg : Message}
    (hClient : s.client.forwarding = false) (hServer : s.server.forwarding = false)
    (hFits : proto.Fits msg) :
    ∃ stream out, s.serverSend proto box msg =
        { s with
          server := { s.server with stream := stream }
          toClient := s.toClient ++ out
          down := s.down ++ [msg] } ∧
      Linked proto box (s.serverSend proto box msg) := by
  have hDown := hLinked.down
  rw [hClient, hServer] at hDown
  obtain ⟨encrypt, out, hSend, hOpening, hPlain, hSent⟩ :=
    hDown.send hBox (hLinked.serverCodec.trans hServer) hFits
  obtain ⟨fresh, hApp, hBuffer, hUp⟩ := hLinked.up
  have hEq : s.serverSend proto box msg =
      { s with
        server := { s.server with stream := { s.server.stream with encrypt := encrypt } }
        toClient := s.toClient ++ out
        down := s.down ++ [msg] } := by
    unfold Session.serverSend
    rw [hSend]
  refine ⟨_, out, hEq, ?_⟩
  rw [hEq]
  refine ⟨⟨fresh, hApp, hBuffer, hUp.reader_congr rfl rfl hOpening hPlain⟩, ?_⟩
  dsimp only
  rw [hClient, hServer, List.map_append]
  exact hSent

/-- The client has read every message and goes over. -/
theorem clientForwards (hLinked : Linked proto box s) (hClient : s.client.forwarding = false)
    (hRead : s.down = []) : Linked proto box s.clientForwards := by
  obtain ⟨fresh, hApp, -, hUp⟩ := hLinked.up
  have hDown := hLinked.down
  rw [hClient] at hUp hDown
  rw [hRead] at hDown
  have hBytes : s.client.stream.setRaw.sendBytes s.client.buffer = s.client.buffer :=
    FramedStream.sendBytes_of_raw rfl _
  refine ⟨⟨fresh ++ s.client.buffer, ?_, fun _ => rfl, ?_⟩, ?_⟩
  · exact hApp.trans (List.append_nil _).symm
  · unfold Session.clientForwards
    dsimp only
    rw [hBytes]
    exact (hUp.senderGoesOver _).sendBytes s.client.buffer
  · unfold Session.clientForwards
    dsimp only
    rw [hRead]
    exact hDown.readerGoesOver

/-- The server has read every message and goes over. -/
theorem serverForwards (hLinked : Linked proto box s) (hServer : s.server.forwarding = false)
    (hRead : s.up = []) : Linked proto box s.serverForwards := by
  obtain ⟨fresh, hApp, hBuffer, hUp⟩ := hLinked.up
  have hDown := hLinked.down
  rw [hServer] at hUp hDown
  rw [hRead] at hUp
  refine ⟨⟨fresh, hApp, hBuffer, ?_⟩, hDown.senderGoesOver _⟩
  unfold Session.serverForwards
  dsimp only
  rw [hRead]
  exact hUp.readerGoesOver

theorem arrive (hLinked : Linked proto box s) (side : Side) (count : Nat) :
    Linked proto box (s.arrive side count) := by
  obtain ⟨fresh, hApp, hBuffer, hUp⟩ := hLinked.up
  cases side with
  | client => exact ⟨⟨fresh, hApp, hBuffer, hUp⟩, hLinked.down.arrive count⟩
  | server => exact ⟨⟨fresh, hApp, hBuffer, hUp.arrive count⟩, hLinked.down⟩

theorem app (hLinked : Linked proto box s) (bytes : Bytes) : Linked proto box (s.app bytes) := by
  obtain ⟨fresh, hApp, hBuffer, hUp⟩ := hLinked.up
  unfold Session.app
  split
  · rename_i hForwarding
    have hBytes : s.client.stream.sendBytes bytes = bytes :=
      FramedStream.sendBytes_of_raw (hLinked.clientCodec.trans hForwarding) _
    refine ⟨⟨fresh ++ bytes, ?_, hBuffer, ?_⟩, hLinked.down⟩
    · dsimp only
      rw [hApp, hBuffer hForwarding]
      simp only [List.append_nil]
    · dsimp only
      rw [hForwarding, hBytes]
      rw [hForwarding] at hUp
      exact hUp.sendBytes bytes
  · rename_i hNot
    refine ⟨⟨fresh, ?_, fun hForwarding => absurd hForwarding hNot, hUp⟩, hLinked.down⟩
    dsimp only
    rw [hApp, List.append_assoc]

theorem target (hLinked : Linked proto box s) (hForwarding : s.server.forwarding = true) (bytes : Bytes) :
    Linked proto box (s.target bytes) := by
  have hBytes : s.server.stream.sendBytes bytes = bytes :=
    FramedStream.sendBytes_of_raw (hLinked.serverCodec.trans hForwarding) _
  have hDown := hLinked.down
  rw [hForwarding] at hDown
  refine ⟨hLinked.up, ?_⟩
  unfold Session.target
  dsimp only
  rw [hForwarding, hBytes]
  exact hDown.sendBytes bytes

/-- The server reads the first message that it has not read, or waits for it. -/
theorem serverReads (hBox : box.Documented) (hLinked : Linked proto box s)
    (hServer : s.server.forwarding = false) (hSome : s.client.forwarding = true → s.up ≠ []) :
    ((s.server.stream.next box).1 = none ∧
        Linked proto box
          { s with server := { s.server with stream := (s.server.stream.next box).2 } }) ∨
      ∃ msg rest, s.up = msg :: rest ∧ (s.server.stream.next box).1 = some (.ok (proto.write msg)) ∧
        Linked proto box
          { s with
            server := { s.server with stream := (s.server.stream.next box).2 }
            up := rest } := by
  obtain ⟨fresh, hApp, hBuffer, hUp⟩ := hLinked.up
  have hDown := hLinked.down
  rw [hServer] at hUp
  obtain ⟨hSealing, hRead⟩ := hUp.nextMessage hBox fun hForwarding => by
    left
    rw [ne_eq, List.map_eq_nil_iff]
    exact hSome hForwarding
  rw [← hSealing] at hDown
  rcases hRead with ⟨hNone, hNext⟩ | ⟨bytes, rest, hMsgs, hTaken, hNext⟩
  · refine Or.inl ⟨hNone, ⟨fresh, hApp, hBuffer, ?_⟩, hDown⟩
    dsimp only
    rw [hServer]
    exact hNext
  · obtain ⟨msg, left, hUpMsgs, rfl, rfl⟩ := List.map_eq_cons_iff.mp hMsgs
    refine Or.inr ⟨msg, left, hUpMsgs, hTaken, ⟨fresh, hApp, hBuffer, ?_⟩, hDown⟩
    dsimp only
    rw [hServer]
    exact hNext

/-- The client reads the first message that it has not read, or waits for it. -/
theorem clientReads (hBox : box.Documented) (hLinked : Linked proto box s)
    (hClient : s.client.forwarding = false)
    (hSome : s.server.forwarding = true → s.down ≠ [] ∨ s.client.stream.buffer = []) :
    ((s.client.stream.next box).1 = none ∧
        Linked proto box
          { s with client := { s.client with stream := (s.client.stream.next box).2 } }) ∨
      ∃ msg rest, s.down = msg :: rest ∧ (s.client.stream.next box).1 = some (.ok (proto.write msg)) ∧
        Linked proto box
          { s with
            client := { s.client with stream := (s.client.stream.next box).2 }
            down := rest } := by
  obtain ⟨fresh, hApp, hBuffer, hUp⟩ := hLinked.up
  have hDown := hLinked.down
  rw [hClient] at hDown
  obtain ⟨hSealing, hRead⟩ := hDown.nextMessage hBox fun hForwarding => by
    rw [ne_eq, List.map_eq_nil_iff]
    exact hSome hForwarding
  rw [← hSealing] at hUp
  rcases hRead with ⟨hNone, hNext⟩ | ⟨bytes, rest, hMsgs, hTaken, hNext⟩
  · refine Or.inl ⟨hNone, ⟨fresh, hApp, hBuffer, hUp⟩, ?_⟩
    dsimp only
    rw [hClient]
    exact hNext
  · obtain ⟨msg, left, hDownMsgs, rfl, rfl⟩ := List.map_eq_cons_iff.mp hMsgs
    refine Or.inr ⟨msg, left, hDownMsgs, hTaken, ⟨fresh, hApp, hBuffer, hUp⟩, ?_⟩
    dsimp only
    rw [hClient]
    exact hNext

end Linked

/-- What the state of the server says of the messages on their way. -/
structure Flags (s : Session) : Prop where
  pending : s.server.authorized = false → s.client.forwarding = false ∧ Pending s.down
  socket : s.server.cm = true ∨ s.server.authorized = true → s.server.portForwardSocket = true
  granted : s.server.authorized = true → s.client.forwarding = false → Granted s.down
  probes : s.server.forwarding = false →
    probes s.down + probes s.up = if s.server.lastTestDelay then 1 else 0

/-- A server that has told the client to go over either does so itself or waits for an answer. -/
def Awaited (s : Session) : Prop :=
  s.server.authorized = true → s.server.forwarding = false → s.server.lastTestDelay = true

structure Sound (proto : Protobuf) (box : Secretbox) (s : Session) : Prop where
  linked : Linked proto box s
  flags : Flags s
  awaited : Awaited s

/-- What the flags and the messages on their way are. -/
def standing (s : Session) : Bool × Server × List Message × List Message :=
  (s.client.forwarding, { s.server with stream := .ofSocket, ended := false }, s.up, s.down)

/-- Where only bytes move, the two directions are all there is to see to. -/
theorem Sound.relink (hSound : Sound proto box s) {t : Session} (hLinked : Linked proto box t)
    (hSame : t.standing = s.standing) : Sound proto box t := by
  obtain ⟨-, hFlags, hAwaited⟩ := hSound
  obtain ⟨client, server⟩ := s
  obtain ⟨clientAfter, serverAfter⟩ := t
  simp only [standing, Prod.mk.injEq, Server.mk.injEq, true_and, and_true] at hSame
  obtain ⟨hClient, ⟨hServer, hSocket, hCm, hAuthorized, hDelay⟩, rfl, rfl⟩ := hSame
  refine ⟨hLinked, ⟨?_, ?_, ?_, ?_⟩, ?_⟩
  · dsimp only
    rw [hAuthorized, hClient]
    exact hFlags.pending
  · dsimp only
    rw [hCm, hAuthorized, hSocket]
    exact hFlags.socket
  · dsimp only
    rw [hAuthorized, hClient]
    exact hFlags.granted
  · dsimp only
    rw [hServer, hDelay]
    exact hFlags.probes
  · unfold Awaited
    dsimp only
    rw [hAuthorized, hServer, hDelay]
    exact hAwaited

section Server

theorem Flags.serverForwards (hFlags : Flags s) : Flags s.serverForwards :=
  ⟨hFlags.pending, hFlags.socket, hFlags.granted, nofun⟩

/-- After a message the server goes over when nothing is on its way to it, or it goes on. -/
theorem sound_afterMessage (hLinked : Linked proto box s) (hFlags : Flags s)
    (hServer : s.server.forwarding = false) {goesOn : Bool}
    (hStops : goesOn = false → s.server.authorized = false)
    (hLeaves : s.server.portForwardSocket = true →
      (goesOn = false ∨ s.server.authorized = true ∧ s.server.lastTestDelay = false) → s.up = []) :
    Sound proto box (s.afterMessage goesOn) := by
  have hForwards : s.up = [] → Sound proto box s.serverForwards := fun hRead =>
    ⟨hLinked.serverForwards hServer hRead, hFlags.serverForwards, nofun⟩
  unfold Session.afterMessage
  cases goesOn with
  | false =>
      rw [Bool.not_false, if_pos rfl]
      split
      · rename_i hSocket
        exact hForwards (hLeaves hSocket (Or.inl rfl))
      · refine ⟨⟨hLinked.up, hLinked.down⟩, ⟨hFlags.pending, hFlags.socket, hFlags.granted,
          hFlags.probes⟩, fun hAuthorized => ?_⟩
        cases (hStops rfl).symm.trans hAuthorized
  | true =>
      rw [Bool.not_true, if_neg Bool.false_ne_true]
      split
      · rename_i hAll
        simp only [Bool.and_eq_true, Bool.not_eq_true'] at hAll
        exact hForwards (hLeaves hAll.1.1 (Or.inr ⟨hAll.1.2, hAll.2⟩))
      · rename_i hNot
        refine ⟨hLinked, hFlags, fun hAuthorized _ => ?_⟩
        simpa [hFlags.socket (Or.inr hAuthorized), hAuthorized] using hNot

/-- An error the client is told of does not make it go over. -/
theorem tell_error (hBox : box.Documented) (hLinked : Linked proto box s) (hFlags : Flags s)
    (hServer : s.server.forwarding = false) {error : Option Bytes}
    (hTold : ∀ told ∈ error.map Message.loginError, s.server.authorized = false ∧ proto.Fits told) :
    ∃ stream toClient down, s.serverSend? proto box (error.map .loginError) =
        { s with server := { s.server with stream := stream }, toClient := toClient, down := down } ∧
      Linked proto box (s.serverSend? proto box (error.map .loginError)) ∧
      Flags (s.serverSend? proto box (error.map .loginError)) := by
  cases error with
  | none => exact ⟨s.server.stream, s.toClient, s.down, rfl, hLinked, hFlags⟩
  | some error =>
      obtain ⟨hNot, hFits⟩ := hTold _ rfl
      obtain ⟨hClient, hPending⟩ := hFlags.pending hNot
      obtain ⟨stream, out, hSend, hSent⟩ := hLinked.serverSend hBox hClient hServer hFits
      refine ⟨stream, _, _, hSend, hSent, ?_⟩
      change Flags (s.serverSend proto box (.loginError error))
      rw [hSend]
      refine ⟨fun _ => ⟨hClient, fun info hMem => ?_⟩, hFlags.socket, fun hAuthorized => ?_, fun _ => ?_⟩
      · rcases List.mem_append.mp hMem with hBefore | hLast
        · exact hPending info hBefore
        · cases List.mem_singleton.mp hLast
      · cases hNot.symm.trans hAuthorized
      · have hProbes := hFlags.probes hServer
        simpa [PortForward.probes, Message.isProbe] using hProbes

/-- Granting tells the client to go over, as the last of the messages to it. -/
theorem grant (hBox : box.Documented) (hLinked : Linked proto box s) (hFlags : Flags s)
    (hServer : s.server.forwarding = false) (hNot : s.server.authorized = false)
    (hSocket : s.server.portForwardSocket = true) {info : Bytes} (hFits : proto.Fits (.peerInfo info)) :
    ∃ stream toClient down, s.sendLogonResponse proto box info =
        { s with
          server := { s.server with stream := stream, authorized := true }
          toClient := toClient
          down := down } ∧
      Linked proto box (s.sendLogonResponse proto box info) ∧
      Flags (s.sendLogonResponse proto box info) := by
  obtain ⟨hClient, hPending⟩ := hFlags.pending hNot
  have hAuthorized : Linked proto box { s with server := { s.server with authorized := true } } :=
    ⟨hLinked.up, hLinked.down⟩
  obtain ⟨stream, out, hSend, hSent⟩ := hAuthorized.serverSend hBox hClient hServer hFits
  have hResponse : s.sendLogonResponse proto box info =
      ({ s with server := { s.server with authorized := true } } : Session).serverSend proto box
        (.peerInfo info) := by
    unfold Session.sendLogonResponse
    rw [hNot, if_neg Bool.false_ne_true]
  rw [hResponse]
  refine ⟨stream, _, _, hSend, hSent, ?_⟩
  rw [hSend]
  refine ⟨nofun, fun _ => hSocket, fun _ _ => ⟨s.down, info, rfl, hPending⟩, fun _ => ?_⟩
  have hProbes := hFlags.probes hServer
  simpa [PortForward.probes, Message.isProbe] using hProbes

/-- A message to the server that is no answer to a probe may be taken off. -/
theorem Flags.read (hFlags : Flags s) {msg : Message} {rest : List Message} (hUp : s.up = msg :: rest)
    (hProbe : msg.isProbe = false) (stream : FramedStream) :
    Flags { s with server := { s.server with stream := stream }, up := rest } := by
  refine ⟨hFlags.pending, hFlags.socket, hFlags.granted, fun hServer => ?_⟩
  have hProbes := hFlags.probes hServer
  rw [hUp, PortForward.probes, PortForward.probes, List.countP_cons, hProbe] at hProbes
  simpa [PortForward.probes] using hProbes

/-- With the answer to its probe the server waits for none. -/
theorem Flags.answered (hFlags : Flags s) (hServer : s.server.forwarding = false) {delay : Bytes}
    {rest : List Message} (hUp : s.up = .testDelay delay :: rest) (stream : FramedStream) :
    Flags { s with
      server := { s.server with stream := stream, lastTestDelay := false }
      up := rest } := by
  refine ⟨hFlags.pending, hFlags.socket, hFlags.granted, fun _ => ?_⟩
  have hProbes := hFlags.probes hServer
  have hOne : Message.isProbe (.testDelay delay) = true := rfl
  rw [hUp, PortForward.probes, PortForward.probes, List.countP_cons, hOne, if_pos rfl] at hProbes
  have hNone : PortForward.probes s.down + PortForward.probes rest = 0 := by
    unfold PortForward.probes
    split at hProbes <;> omega
  simpa using hNone

end Server

end Session

end HibtDesk.PortForward
