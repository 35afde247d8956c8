import HibtDesk.Clipboard.FileContents

/-! Whose data a read returns. As a stream id stands for a whole file, the reply to a
read that timed out is taken by the next read of that file; apart from that, a read
returns what the peer sent for it. -/
namespace HibtDesk.Clipboard

theorem streamId_of_decode {request : ContentsRequest} {fcr : FileContentsRequest}
    (hDecode : ClipFiles.decode request = some fcr) : fcr.streamId = request.streamId := by
  unfold ClipFiles.decode at hDecode
  dsimp only at hDecode
  split at hDecode
  · rw [← Option.some.inj hDecode]
    rfl
  · split at hDecode
    · rw [← Option.some.inj hDecode]
      rfl
    · cases hDecode

section Served
variable {overflowChecks : Bool} {fs : FileSystem} {faults : ReadFaults} {connId : Int}
  {clip : ClipFiles}

/-- The side that serves the files answers with the stream id of the request. -/
theorem streamId_of_answer {request : ContentsRequest} {messages : List ClipboardFile}
    (hAnswer : (clip.answer overflowChecks fs faults connId request).1 = some messages)
    {msgFlags streamId : BitVec 32} {data : Bytes}
    (hIn : .fileContentsResponse msgFlags streamId data ∈ messages) : streamId = request.streamId := by
  have hResponse : (msgFlags, streamId, data) ∈ messages.filterMap response? :=
    List.mem_filterMap.mpr ⟨_, hIn, rfl⟩
  cases hDecode : ClipFiles.decode request with
  | none =>
      unfold ClipFiles.answer ClipFiles.readFileContents at hAnswer
      rw [hDecode] at hAnswer
      obtain rfl := (Option.some.inj hAnswer).symm
      obtain ⟨-, hStream, -⟩ : _ ∧ streamId = request.streamId ∧ _ := by
        simpa [ClipFiles.reply, ClipFiles.respFileContentsFail, response?] using hResponse
      exact hStream
  | some fcr =>
      have hOne := responses_answer hDecode overflowChecks fs faults connId clip
      rw [hAnswer, Option.map_some] at hOne
      obtain ⟨result, hResult, hSame⟩ := Option.map_eq_some_iff.mp hOne.symm
      rw [← hSame] at hResponse
      cases result with
      | error error =>
          obtain ⟨-, hStream, -⟩ : _ ∧ streamId = request.streamId ∧ _ := by
            simpa [ClipFiles.reply, ClipFiles.respFileContentsFail, response?] using hResponse
          exact hStream
      | ok served =>
          obtain ⟨bytes, rfl⟩ := response_of_serveFileContents hResult
          obtain ⟨-, hStream, -⟩ : _ ∧ streamId = fcr.streamId ∧ _ := by
            simpa [ClipFiles.reply, response?] using hResponse
          rw [hStream]
          exact streamId_of_decode hDecode

end Served

namespace Reply

/-- A call that takes the reply for its own returns the data of it. -/
def succeeds (reply : Reply) : Bool :=
  match reply.message with
  | .fileContentsResponse msgFlags _ _ => decide (msgFlags &&& 1 ≠ 0)
  | _ => false

end Reply

namespace FuseServer

/-- No request for something else with the stream id of the read is open, and no data
that was sent for one is in the channel. -/
structure Free (server : FuseServer) (read : Read) : Prop where
  outstanding : ∀ sent ∈ server.outstanding, sent.node.streamId = read.node.streamId → sent = read
  replies : ∀ reply ∈ server.rx, reply.succeeds = true →
    reply.read.node.streamId = read.node.streamId → reply.read = read

/-- Every call starts with the stream id free for it. -/
def StartsFree (server : FuseServer) : FuseEvent → Prop
  | .call read _ => server.call = none → server.Free read
  | _ => True

/-- What a call returns is what the peer sent in answer to a read of the same part of
the same file. -/
def Unmixed (server : FuseServer) : Prop :=
  ∀ read data, (read, .ok data) ∈ server.returned → (read, data) ∈ server.answered

/-- The replies are answers, and what can reach the call that waits is for it. -/
structure Tracked (server : FuseServer) : Prop where
  answers : ∀ reply ∈ server.rx, ∃ msgFlags data,
    reply.message = .fileContentsResponse msgFlags reply.read.node.streamId data ∧
      (msgFlags &&& 1 ≠ 0 → (reply.read, data) ∈ server.answered)
  free : ∀ call, server.call = some call → server.Free call.read
  unmixed : server.Unmixed

theorem tracked_new : new.Tracked where
  answers := by simp [new]
  free := by simp [new]
  unmixed := by simp [new, Unmixed]

section Step
variable {server : FuseServer}

theorem Tracked.finish (h : server.Tracked) (call : ReadCall) {result : Except ReadError Bytes}
    (hResult : ∀ data, result = .ok data → (call.read, data) ∈ server.answered) :
    (server.finish call result).Tracked where
  answers := h.answers
  free := by simp [FuseServer.finish]
  unmixed := by
    intro read data hIn
    rcases List.mem_append.mp hIn with hOld | hNew
    · exact h.unmixed read data hOld
    · obtain ⟨rfl, rfl⟩ := Prod.mk.inj (List.mem_singleton.mp hNew)
      exact hResult data rfl

theorem Tracked.call (h : server.Tracked) (read : Read) (sendFails : Bool)
    (hFree : server.call = none → server.Free read) :
    (server.step (.call read sendFails)).Tracked := by
  rw [step]
  cases hCall : server.call with
  | some call => exact h
  | none =>
      dsimp only
      split
      · exact h.finish _ fun data hOk => by cases hOk
      · refine ⟨h.answers, ?_, h.unmixed⟩
        intro call hNew
        obtain rfl := (Option.some.inj hNew).symm
        have hNow := hFree hCall
        refine ⟨fun sent hSent hStream => ?_, hNow.replies⟩
        rcases List.mem_append.mp hSent with hOld | hOwn
        · exact hNow.outstanding sent hOld hStream
        · exact List.mem_singleton.mp hOwn

theorem Tracked.answer (h : server.Tracked) (i : Nat) (msgFlags : BitVec 32) (data : Bytes) :
    (server.step (.answer i msgFlags data)).Tracked := by
  rw [step]
  cases hSent : server.outstanding[i]? with
  | none => exact h
  | some sent =>
      dsimp only
      have hGrows : ∀ entry ∈ server.answered,
          entry ∈ if msgFlags &&& 1 = 0 then server.answered else server.answered ++ [(sent, data)] := by
        intro entry hEntry
        split
        · exact hEntry
        · exact List.mem_append_left _ hEntry
      refine ⟨?_, ?_, fun read data hIn => hGrows _ (h.unmixed read data hIn)⟩
      · intro reply hReply
        rcases List.mem_append.mp hReply with hOld | hNew
        · obtain ⟨flags, bytes, hMessage, hAnswered⟩ := h.answers reply hOld
          exact ⟨flags, bytes, hMessage, fun hFlag => hGrows _ (hAnswered hFlag)⟩
        · rw [List.mem_singleton.mp hNew]
          refine ⟨msgFlags, data, rfl, fun hFlag => ?_⟩
          rw [if_neg hFlag]
          exact List.mem_append_right _ List.mem_cons_self
      · intro call hCall
        have hFree := h.free call hCall
        constructor
        · intro other hOther
          exact hFree.outstanding other (List.mem_of_mem_eraseIdx hOther)
        · intro reply hReply hSucceeds hStream
          rcases List.mem_append.mp hReply with hOld | hNew
          · exact hFree.replies reply hOld hSucceeds hStream
          · rw [List.mem_singleton.mp hNew] at hStream ⊢
            exact hFree.outstanding sent (List.mem_of_getElem? hSent) hStream

/-- What the loop makes of an answer: it returns the data only if the stream id is that
of the node. -/
theorem readNode_eq_ok {sendFails : Bool} {node : FuseNode} {retryTimes : Nat}
    {msgFlags streamId : BitVec 32} {requestedData data : Bytes}
    (hDone : readNode sendFails node retryTimes
      (.fileContentsResponse msgFlags streamId requestedData) = .done (.ok data)) :
    streamId = node.streamId ∧ msgFlags &&& 1 ≠ 0 ∧ requestedData = data := by
  rw [readNode] at hDone
  split at hDone
  · cases hDone
  · rename_i hStream
    split at hDone
    · split at hDone
      · cases hDone
      · split at hDone
        · cases hDone
        · cases hDone
    · rename_i hFlag
      cases hDone
      exact ⟨not_not.mp hStream, hFlag, rfl⟩

theorem Tracked.recv (h : server.Tracked) (sendFails : Bool) :
    (server.step (.recv sendFails)).Tracked := by
  rw [step]
  cases hCall : server.call with
  | none => exact h
  | some call =>
      cases hRx : server.rx with
      | nil => exact h
      | cons reply rest =>
          have hFree := h.free call hCall
          have hRest : ({ server with rx := rest } : FuseServer).Tracked := by
            have hLater : ∀ later ∈ rest, later ∈ server.rx := fun later hIn =>
              hRx ▸ List.mem_cons_of_mem reply hIn
            refine ⟨fun later hIn => h.answers later (hLater later hIn), ?_, h.unmixed⟩
            intro other hOther
            have hOtherFree := h.free other hOther
            exact ⟨hOtherFree.outstanding,
              fun later hIn => hOtherFree.replies later (hLater later hIn)⟩
          have hIn : reply ∈ server.rx := hRx ▸ List.mem_cons_self
          dsimp only
          cases hLoop : readNode sendFails call.read.node call.retryTimes reply.message with
          | again retryTimes resend =>
              refine ⟨hRest.answers, ?_, hRest.unmixed⟩
              intro next hNext
              obtain rfl := (Option.some.inj hNext).symm
              have hNow := hRest.free call hCall
              refine ⟨fun sent hSent hStream => ?_, hNow.replies⟩
              dsimp only at hSent
              split at hSent
              · rcases List.mem_append.mp hSent with hOld | hOwn
                · exact hNow.outstanding sent hOld hStream
                · exact List.mem_singleton.mp hOwn
              · exact hNow.outstanding sent hSent hStream
          | done result =>
              refine hRest.finish call fun data hOk => ?_
              obtain ⟨msgFlags, sentData, hMessage, hAnswered⟩ := h.answers reply hIn
              rw [hMessage, hOk] at hLoop
              obtain ⟨hStream, hFlag, rfl⟩ := readNode_eq_ok hLoop
              have hSucceeds : reply.succeeds = true := by
                simpa [Reply.succeeds, hMessage] using hFlag
              rw [← hFree.replies reply hIn hSucceeds hStream]
              exact hAnswered hFlag

theorem Tracked.timeout (h : server.Tracked) : (server.step .timeout).Tracked := by
  rw [step]
  cases server.call with
  | none => exact h
  | some call =>
      cases server.rx with
      | nil => exact h.finish call fun data hOk => by cases hOk
      | cons reply rest => exact h

end Step

/-- In every run in which each call starts with the stream id of its file free for it,
a call returns only what the peer sent in answer to the same read. -/
theorem unmixed_of_startsFree {events : List FuseEvent}
    (hRun : Trace.Always step StartsFree new events) : (Trace.run step new events).Unmixed := by
  have hTracked : (Trace.run step new events).Tracked := by
    refine Trace.invariant_of_always step Tracked ?_ tracked_new hRun
    intro server event hStarts h
    cases event with
    | call read sendFails => exact h.call read sendFails hStarts
    | answer i msgFlags data => exact h.answer i msgFlags data
    | recv sendFails => exact h.recv sendFails
    | timeout => exact h.timeout
  exact hTracked.unmixed

instance (server : FuseServer) (read : Read) : Decidable (server.Free read) :=
  decidable_of_iff
    ((∀ sent ∈ server.outstanding, sent.node.streamId = read.node.streamId → sent = read) ∧
      ∀ reply ∈ server.rx, reply.succeeds = true →
        reply.read.node.streamId = read.node.streamId → reply.read = read)
    ⟨fun h => ⟨h.1, h.2⟩, fun h => ⟨h.1, h.2⟩⟩

instance (server : FuseServer) : (event : FuseEvent) → Decidable (server.StartsFree event)
  | .call read _ => inferInstanceAs (Decidable (server.call = none → server.Free read))
  | .answer .. | .recv _ | .timeout => inferInstanceAs (Decidable True)

/-- A byte of a file. -/
def byteAt (streamId : BitVec 32) (offset : BitVec 64) : Read where
  node := { connId := 1, streamId := streamId, index := 0 }
  offset := offset
  size := 1

/-- A read that timed out is answered late, during a read of another file. -/
theorem unmixed_after_late_answer :
    let events : List FuseEvent := [.call (byteAt 7 0) false, .timeout, .call (byteAt 8 0) false,
      .answer 0 1 [10], .recv false, .answer 0 1 [20], .recv false]
    (Trace.run step new events).Unmixed ∧
      (Trace.run step new events).returned =
        [(byteAt 7 0, .error .timedOut), (byteAt 8 0, .ok [20])] := by
  intro events
  exact ⟨unmixed_of_startsFree (by decide +kernel), by decide +kernel⟩

/-- The late answer to a read of the first byte is returned for the second byte. -/
theorem late_answer_returned :
    ¬ ∀ events : List FuseEvent, (Trace.run step new events).Unmixed := by
  intro hClaim
  have hReturned := hClaim [.call (byteAt 7 0) false, .timeout, .call (byteAt 7 1) false,
    .answer 0 1 [10], .recv false] (byteAt 7 1) [10] (by decide +kernel)
  exact absurd hReturned (by decide +kernel)

end FuseServer

end HibtDesk.Clipboard
