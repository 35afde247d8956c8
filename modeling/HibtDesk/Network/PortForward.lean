import HibtDesk.Network.RawTail

/-! A port forward. The client logs in and then hands the bytes of a local application on
as they are; the server does so with those of the target. Neither tells the other when it
goes over from messages to bytes. -/
namespace HibtDesk.PortForward

/-- The messages of the login and the probes of the delay. -/
inductive Message where
  | hash (challenge : Bytes)
  | loginRequest (request : Bytes)
  | auth2fa (code : Bytes)
  | loginError (error : Bytes)
  | peerInfo (info : Bytes)
  | testDelay (delay : Bytes)
  | other (payload : Bytes)
  deriving DecidableEq, Repr

/-- `Message` as it is written and parsed. -/
structure Protobuf where
  write : Message → Bytes
  parse : Bytes → Option Message

structure Protobuf.Documented (proto : Protobuf) : Prop where
  parse_write : ∀ msg, proto.parse (proto.write msg) = some msg

/-- The client in `connect_and_login`, with the early bytes of the application, and in
`run_forward`. -/
structure Client where
  stream : FramedStream
  forwarding : Bool
  buffer : Bytes
  ended : Bool
  deriving DecidableEq, Repr

/-- The server in the loop of `start` and in `try_port_forward_loop`. Of the connection there
is whether it has its socket to the target, is shown to the user, and is authorized, and
whether a probe has not been answered. -/
structure Server where
  stream : FramedStream
  forwarding : Bool
  portForwardSocket : Bool
  cm : Bool
  authorized : Bool
  lastTestDelay : Bool
  ended : Bool
  deriving DecidableEq, Repr

/-- The two ends and the bytes between them. For each direction it is kept which messages have
been sent and not been read, and what has been taken from and given to the two sockets. -/
structure Session where
  client : Client
  server : Server
  toServer : Bytes
  toClient : Bytes
  up : List Message
  down : List Message
  fromApp : Bytes
  toTarget : Bytes
  fromTarget : Bytes
  toApp : Bytes
  deriving DecidableEq, Repr

/-- What comes of a login request or a code: the loop is left, maybe after the socket has been
connected, or the connection waits for something else, or it is granted. -/
inductive Verdict where
  | closes (connects : Bool) (error : Option Bytes)
  | waits (error : Option Bytes)
  | grants (info : Bytes)
  deriving DecidableEq, Repr

/-- What the interface of the client makes of a message: the request it sends for a hash, and
whether it goes on after an error. -/
structure Answer where
  request : Option Bytes
  goesOn : Bool
  deriving DecidableEq, Repr

inductive Event where
  /-- The next bytes reach the read buffer of an end. -/
  | arrive (side : Side) (count : Nat)
  /-- The branch of `stream.next` of the client, and of the server. -/
  | clientNext (answer : Answer)
  | serverNext (verdict : Verdict)
  /-- The user of the client enters a password or a code. -/
  | login (request : Bytes)
  | auth2fa (code : Bytes)
  /-- The user of the server accepts. -/
  | authorize (info : Bytes)
  | testDelayTimer (delay : Bytes)
  /-- The application and the target have sent something. -/
  | app (bytes : Bytes)
  | target (bytes : Bytes)
  /-- A timeout, an end of a stream or a close. -/
  | leave (side : Side)
  deriving DecidableEq, Repr

namespace Session

/-- Both ends have the key of the session, if there is one. -/
def connected (key : Option Bytes) : Session where
  client :=
    { stream := { FramedStream.ofSocket with encrypt := key.map .new }, forwarding := false,
      buffer := [], ended := false }
  server :=
    { stream := { FramedStream.ofSocket with encrypt := key.map .new }, forwarding := false,
      portForwardSocket := false, cm := false, authorized := false, lastTestDelay := false,
      ended := false }
  toServer := []
  toClient := []
  up := []
  down := []
  fromApp := []
  toTarget := []
  fromTarget := []
  toApp := []

variable (proto : Protobuf) (box : Secretbox) (s : Session)

def clientSend (msg : Message) : Session :=
  match s.client.stream.sendRaw box (proto.write msg) with
  | (.ok (), stream, out) =>
      { s with
        client := { s.client with stream := stream }
        toServer := s.toServer ++ out
        up := s.up ++ [msg] }
  | (.error _, stream, _) => { s with client := { s.client with stream := stream } }

def serverSend (msg : Message) : Session :=
  match s.server.stream.sendRaw box (proto.write msg) with
  | (.ok (), stream, out) =>
      { s with
        server := { s.server with stream := stream }
        toClient := s.toClient ++ out
        down := s.down ++ [msg] }
  | (.error _, stream, _) => { s with server := { s.server with stream := stream } }

def serverSend? : Option Message → Session
  | some msg => s.serverSend proto box msg
  | none => s

/-- The client has been told of the peer. It sends what it has got from the application. -/
def clientForwards : Session :=
  let stream := s.client.stream.setRaw
  { s with
    client := { s.client with stream := stream, forwarding := true, buffer := [] }
    toServer := s.toServer ++ stream.sendBytes s.client.buffer }

/-- The server leaves its loop for `try_port_forward_loop`. -/
def serverForwards : Session :=
  { s with server := { s.server with stream := s.server.stream.setRaw, forwarding := true } }

def clientEnds : Session := { s with client := { s.client with ended := true } }

def serverEnds : Session := { s with server := { s.server with ended := true } }

/-- What `connect_and_login` does with a message. -/
def onClientMessage (answer : Answer) : Message → Session
  | .hash _ =>
      match answer.request with
      | some request => s.clientSend proto box (.loginRequest request)
      | none => s
  | .loginError _ => if answer.goesOn then s else s.clientEnds
  | .peerInfo _ => s.clientForwards
  | .testDelay delay => s.clientSend proto box (.testDelay delay)
  | _ => s

def sendLogonResponse (info : Bytes) : Session :=
  if s.server.authorized then s
  else
    { s with server := { s.server with authorized := true } }.serverSend proto box (.peerInfo info)

/-- `on_message`, with whether the loop goes on. -/
def onMessage (verdict : Verdict) : Message → Session × Bool
  | .loginRequest _ =>
      if s.server.authorized then (s, true)
      else
        let connected := { s with server := { s.server with portForwardSocket := true, cm := true } }
        match verdict with
        | .closes connects error =>
            let s := if connects then connected else s
            (s.serverSend? proto box (error.map .loginError), false)
        | .waits error => (connected.serverSend? proto box (error.map .loginError), true)
        | .grants info => (connected.sendLogonResponse proto box info, true)
  | .auth2fa _ =>
      match verdict with
      | .closes _ _ => (s, true)
      | .waits error => (s.serverSend? proto box (error.map .loginError), true)
      | .grants info => (s.sendLogonResponse proto box info, true)
  | .testDelay _ => ({ s with server := { s.server with lastTestDelay := false } }, true)
  | _ => (s, true)

/-- What follows a message: the loop goes on, or it is left, for `try_port_forward_loop` if
there is a socket. -/
def afterMessage (goesOn : Bool) : Session :=
  if !goesOn then if s.server.portForwardSocket then s.serverForwards else s.serverEnds
  else if s.server.portForwardSocket && s.server.authorized && !s.server.lastTestDelay then
    s.serverForwards
  else s

def clientNext (answer : Answer) : Session :=
  let (result, stream) := s.client.stream.next box
  let read := { s with client := { s.client with stream := stream } }
  match result with
  | none => read
  | some (.error _) => read.clientEnds
  | some (.ok bytes) =>
      if s.client.forwarding then { read with toApp := s.toApp ++ bytes }
      else
        let read := { read with down := s.down.tail }
        match proto.parse bytes with
        | some msg => read.onClientMessage proto box answer msg
        | none => read.clientEnds

def serverNext (verdict : Verdict) : Session :=
  let (result, stream) := s.server.stream.next box
  let read := { s with server := { s.server with stream := stream } }
  match result with
  | none => read
  | some (.error _) => read.serverEnds
  | some (.ok bytes) =>
      if s.server.forwarding then { read with toTarget := s.toTarget ++ bytes }
      else
        let read := { read with up := s.up.tail }
        match proto.parse bytes with
        | some msg =>
            let (after, goesOn) := read.onMessage proto box verdict msg
            after.afterMessage goesOn
        | none => read

/-- The branch of `Authorize`, which there is once the connection is shown to the user. -/
def authorize (info : Bytes) : Session :=
  let s := s.sendLogonResponse proto box info
  if s.server.portForwardSocket then s.serverForwards else s

def testDelayTimer (delay : Bytes) : Session :=
  if !s.server.lastTestDelay && !(s.server.portForwardSocket && s.server.authorized) then
    { s with server := { s.server with lastTestDelay := true } }.serverSend proto box (.testDelay delay)
  else s

def app (bytes : Bytes) : Session :=
  if s.client.forwarding then
    { s with
      toServer := s.toServer ++ s.client.stream.sendBytes bytes
      fromApp := s.fromApp ++ bytes }
  else
    { s with
      client := { s.client with buffer := s.client.buffer ++ bytes }
      fromApp := s.fromApp ++ bytes }

def target (bytes : Bytes) : Session :=
  { s with
    toClient := s.toClient ++ s.server.stream.sendBytes bytes
    fromTarget := s.fromTarget ++ bytes }

def arrive : Side → Nat → Session
  | .client, count =>
      { s with
        client := { s.client with
          stream := { s.client.stream with
            buffer := s.client.stream.buffer ++ s.toClient.take count } }
        toClient := s.toClient.drop count }
  | .server, count =>
      { s with
        server := { s.server with
          stream := { s.server.stream with
            buffer := s.server.stream.buffer ++ s.toServer.take count } }
        toServer := s.toServer.drop count }

def step (s : Session) : Event → Session
  | .arrive side count => s.arrive side count
  | .clientNext answer => if s.client.ended then s else s.clientNext proto box answer
  | .serverNext verdict => if s.server.ended then s else s.serverNext proto box verdict
  | .login request =>
      if s.client.ended || s.client.forwarding then s
      else s.clientSend proto box (.loginRequest request)
  | .auth2fa code =>
      if s.client.ended || s.client.forwarding then s else s.clientSend proto box (.auth2fa code)
  | .authorize info =>
      if s.server.ended || s.server.forwarding || !s.server.cm then s
      else s.authorize proto box info
  | .testDelayTimer delay =>
      if s.server.ended || s.server.forwarding then s else s.testDelayTimer proto box delay
  | .app bytes => if s.client.ended then s else s.app bytes
  | .target bytes => if s.server.ended || !s.server.forwarding then s else s.target bytes
  | .leave .client => s.clientEnds
  | .leave .server => s.serverEnds

/-- The server has sent its challenge. -/
def start (key : Option Bytes) (challenge : Bytes) : Session :=
  (connected key).serverSend proto box (.hash challenge)

end Session

end HibtDesk.PortForward
