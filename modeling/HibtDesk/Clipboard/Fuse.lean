import HibtDesk.Clipboard.ServFiles

/-! Reading the files of the peer. A read sends the peer a request and waits for the
reply; all replies come through one channel, which outlives the reads, and are told
apart by a stream id that stands for a whole file. The reads of one file system come
one after the other, as each holds its lock. -/
namespace HibtDesk.Clipboard

/-- What `read_node` reads of a `FuseNode`. One stream id stands for a whole file. -/
structure FuseNode where
  connId : Int
  streamId : BitVec 32
  index : Nat
  deriving DecidableEq, Repr

namespace FuseNode

/-- The request `read_node` sends. -/
def request (node : FuseNode) (offset : BitVec 64) (size : BitVec 32) : ContentsRequest where
  streamId := node.streamId
  listIndex := .ofNat 32 node.index
  dwFlags := 2
  nPositionLow := (offset &&& 0xffffffff).setWidth 32
  nPositionHigh := (offset.sshiftRight 32).setWidth 32
  cbRequested := size
  haveClipDataId := false
  clipDataId := 0

end FuseNode

/-- The arguments of a call of `read_node`. -/
structure Read where
  node : FuseNode
  offset : BitVec 64
  size : BitVec 32
  deriving DecidableEq, Repr

/-- Why a call returns no data. -/
inductive ReadError where
  | send
  | timedOut
  | failureRequest
  | invalidReply
  deriving DecidableEq, Repr

def readRetry : Nat := 3

/-- What a call does about a reply: it waits on, after it has sent its request again or
not, or it returns. -/
inductive ReadStep where
  | again (retryTimes : Nat) (resend : Bool)
  | done (result : Except ReadError Bytes)

/-- The loop of `read_node`, for one reply. -/
def readNode (sendFails : Bool) (node : FuseNode) (retryTimes : Nat) : ClipboardFile → ReadStep
  | .fileContentsResponse msgFlags streamId requestedData =>
      if streamId ≠ node.streamId then .again retryTimes false
      else if msgFlags &&& 1 = 0 then
        if readRetry < retryTimes + 1 then .done (.error .failureRequest)
        else if sendFails then .done (.error .send)
        else .again (retryTimes + 1) true
      else .done (.ok requestedData)
  | _ => .done (.error .invalidReply)

/-- A reply in the channel, with the read it answers. -/
structure Reply where
  message : ClipboardFile
  read : Read
  deriving DecidableEq, Repr

/-- A call that waits. -/
structure ReadCall where
  read : Read
  retryTimes : Nat
  deriving DecidableEq, Repr

/-- The file system and the peer: the call that waits, the requests the peer has not
answered, and the replies in the channel; with all data the peer has sent in answer
to reads, and what the calls have returned. -/
structure FuseServer where
  call : Option ReadCall
  outstanding : List Read
  rx : List Reply
  answered : List (Read × Bytes)
  returned : List (Read × Except ReadError Bytes)

/-- A call, if none is waiting; an answer of the peer to one of the requests; the call
that waits takes a reply; or it has waited in vain for long enough. -/
inductive FuseEvent where
  | call (read : Read) (sendFails : Bool)
  | answer (i : Nat) (msgFlags : BitVec 32) (data : Bytes)
  | recv (sendFails : Bool)
  | timeout
  deriving DecidableEq, Repr

namespace FuseServer

def new : FuseServer where
  call := none
  outstanding := []
  rx := []
  answered := []
  returned := []

/-- The call returns. -/
def finish (server : FuseServer) (call : ReadCall) (result : Except ReadError Bytes) : FuseServer :=
  { server with call := none, returned := server.returned ++ [(call.read, result)] }

def step (server : FuseServer) : FuseEvent → FuseServer
  | .call read sendFails =>
      match server.call with
      | some _ => server
      | none =>
          let call : ReadCall := { read := read, retryTimes := 0 }
          if sendFails then server.finish call (.error .send)
          else { server with call := some call, outstanding := server.outstanding ++ [read] }
  | .answer i msgFlags data =>
      match server.outstanding[i]? with
      | none => server
      | some read =>
          -- The peer gives back the stream id of the request.
          let message : ClipboardFile := .fileContentsResponse msgFlags read.node.streamId data
          { server with
            outstanding := server.outstanding.eraseIdx i
            rx := server.rx ++ [{ message := message, read := read }]
            answered :=
              if msgFlags &&& 1 = 0 then server.answered else server.answered ++ [(read, data)] }
  | .recv sendFails =>
      match server.call, server.rx with
      | some call, reply :: rest =>
          let server := { server with rx := rest }
          match readNode sendFails call.read.node call.retryTimes reply.message with
          | .again retryTimes resend =>
              { server with
                call := some { call with retryTimes := retryTimes }
                outstanding :=
                  if resend then server.outstanding ++ [call.read] else server.outstanding }
          | .done result => server.finish call result
      | _, _ => server
  | .timeout =>
      match server.call, server.rx with
      | some call, [] => server.finish call (.error .timedOut)
      | _, _ => server

end FuseServer

end HibtDesk.Clipboard
