import HibtDesk.FileTransfer.Arrival
import HibtDesk.FileTransfer.Client
import HibtDesk.FileTransfer.Completion
import HibtDesk.FileTransfer.Manager
import HibtDesk.FileTransfer.RoundTrip

/-! A sender and a receiver joined by the messages between them, when files
cannot be opened or read. The sender goes on to the next file before it reports
the error, under that file's number; the receiver drops the job at the first
error, and with it the file it was about to bring into place and all the files
after it. -/
namespace HibtDesk.FileTransfer

open Lexical (Text Platform)
open Receiving (destination Apart)

namespace TransferJob

/-- The stream a turn reads from, if the file can be opened. -/
def streamToRead (source : Store) (plan : ReadPlan) (job : TransferJob) (path : Text) :
    Option DataStream :=
  match job.dataStream with
  | some stream => some stream
  | none =>
      if plan.openFails then none
      else
        (source.disk.node (source.platform.location path)).map fun node =>
          .fileStream { node := node, pos := 0, writable := false }

/-- The current file of the job cannot be opened or read in a turn. -/
def fails (source : Store) (plan : ReadPlan) (job : TransferJob) : Bool :=
  match job.dataSource, job.currentFile with
  | .filePath base, some entry =>
      match job.streamToRead source plan (join source.platform base entry.name) with
      | none => true
      | some stream =>
          match stream.read source plan.pieces with
          | .ok _ => false
          | .error _ => true
  | _, _ => false

/-- A turn of `handle_read_jobs` with a single job. -/
theorem handleReadJobs_single (source : Store) (plan : ReadPlan) {job opened : TransferJob}
    (hLast : job.isLastJob = false) (hLast' : opened.isLastJob = false)
    (hInit : job.initDataStream source plan = (.ok none, opened)) :
    handleReadJobs source (fun _ => plan) [job] =
      ((readJob source plan opened).1,
        if (readJob source plan opened).2.2 then
          (removeJob (readJob source plan opened).2.1.id [(readJob source plan opened).2.1]).2
        else [(readJob source plan opened).2.1],
        if (readJob source plan opened).2.2 then some (readJob source plan opened).2.1 else none) := by
  simp only [handleReadJobs, initJobs, hLast, hInit, readFirst, hLast', Bool.false_eq_true,
    if_false, List.nil_append]
  split <;> simp_all

section Turn
variable {source : Store} {plan : ReadPlan} {job : TransferJob} {base : Text} {entry : FileEntry}

/-- A file that can be opened is opened without a word to the peer. -/
theorem init_of_stream (hSource : job.dataSource = .filePath base)
    (hAsks : job.enableOverwriteDetection = false) (hFile : job.currentFile = some entry)
    {stream : DataStream}
    (hStream : job.streamToRead source plan (join source.platform base entry.name) = some stream) :
    ∃ opened,
      job.initDataStream source plan = (.ok none, opened) ∧ job.Kept opened ∧
      opened.fileNum = job.fileNum ∧ opened.dataStream = some stream := by
  unfold streamToRead at hStream
  cases hData : job.dataStream with
  | some found =>
      have hSame : found = stream := by simpa [hData] using hStream
      refine ⟨job, ?_, ⟨rfl, rfl, rfl, rfl, rfl, rfl⟩, rfl, hSame ▸ hData⟩
      simp [initDataStream, openDataStream, hSource, hFile, hData, hAsks]
  | none =>
      simp only [hData] at hStream
      split at hStream
      · cases hStream
      · rename_i hOpens
        obtain ⟨node, hNode, rfl⟩ := Option.map_eq_some_iff.mp hStream
        refine ⟨{ job with
            dataStream := some (.fileStream { node := node, pos := 0, writable := false })
            fileConfirmed := false
            fileIsWaiting := false }, ?_, ⟨rfl, rfl, rfl, rfl, rfl, rfl⟩, rfl, rfl⟩
        simp [initDataStream, openDataStream, hSource, hFile, hData, hOpens, hNode, hAsks]

theorem init_of_unopened (hSource : job.dataSource = .filePath base)
    (hFile : job.currentFile = some entry)
    (hStream : job.streamToRead source plan (join source.platform base entry.name) = none) :
    job.initDataStream source plan =
      (.error .io,
        { job with
          fileNum := job.fileNum + 1, fileConfirmed := false, fileIsWaiting := false }) := by
  unfold streamToRead at hStream
  cases hData : job.dataStream with
  | some found => simp [hData] at hStream
  | none =>
      simp only [hData] at hStream
      split at hStream
      · rename_i hOpens
        simp [initDataStream, openDataStream, hSource, hFile, hData, hOpens]
      · rename_i hOpens
        have hNode := Option.map_eq_none_iff.mp hStream
        simp [initDataStream, openDataStream, hSource, hFile, hData, hOpens, hNode]

/-- A file that fails is reported under the number after its own. -/
theorem error_of_fails
    (hSource : job.dataSource = .filePath base) (hAsks : job.enableOverwriteDetection = false)
    (hLast : job.isLastJob = false) (hFails : job.fails source plan = true) :
    ∃ error, JobMessage.error job.id error (job.fileNum + 1) ∈
      (handleReadJobs source (fun _ => plan) [job]).1 := by
  unfold fails at hFails
  rw [hSource] at hFails
  cases hFile : job.currentFile with
  | none => simp [hFile] at hFails
  | some entry =>
      simp only [hFile] at hFails
      cases hStream : job.streamToRead source plan (join source.platform base entry.name) with
      | none =>
          refine ⟨.io, ?_⟩
          simp [handleReadJobs, initJobs, hLast, init_of_unopened hSource hFile hStream]
      | some stream =>
          simp only [hStream] at hFails
          cases hRead : stream.read source plan.pieces with
          | ok data => simp [hRead] at hFails
          | error error =>
              obtain ⟨opened, hInit, hKept, hNum, hOpened⟩ :=
                init_of_stream hSource hAsks hFile hStream
              have hCurrent : opened.currentFile = some entry := by
                rw [currentFile, hKept.files, hNum]
                exact hFile
              have hTurn : opened.read source plan = (.error error, opened.nextFile) := by
                simp [read, readChunk, hKept.asks, hAsks, hKept.dataSource, hSource, hCurrent,
                  hOpened, hRead]
              refine ⟨error, ?_⟩
              rw [handleReadJobs_single source plan hLast (hKept.isLastJob.trans hLast) hInit]
              simp [readJob, hTurn, nextFile, hKept.id, hNum]

/-- A turn that does not fail finds the file, and what is left of it. -/
theorem Sending.serves {files : List FileEntry} {k pos : Nat} {content : Bytes}
    (hSending : job.Sending source base files k pos content)
    (hEntry : files[k]? = some entry)
    (hKnown : job.dataStream ≠ none →
      source.content (join source.platform base entry.name) = some content)
    (hFails : job.fails source plan = false) :
    ∃ text, source.content (join source.platform base entry.name) = some text ∧
      job.Sending source base files k pos text ∧ plan.Serves job (text.drop pos) ∧
      (job.dataStream ≠ none → text = content) := by
  have hFile := hSending.currentFile
  rw [hEntry] at hFile
  unfold fails at hFails
  rw [hSending.dataSource] at hFails
  simp only [hFile] at hFails
  rcases hSending.stream with ⟨hNone, rfl⟩ | ⟨node, hStream, hNode⟩
  · simp only [streamToRead, hNone] at hFails
    split at hFails
    · cases hFails
    · rename_i stream hFound
      split at hFound
      · cases hFound
      · rename_i hOpens
        obtain ⟨node, hNode, rfl⟩ := Option.map_eq_some_iff.mp hFound
        have hText : source.content (join source.platform base entry.name) =
            some (source.disk.file node).content := by
          simp [Store.content, Storage.Disk.content, Storage.Disk.lookup, hNode]
        refine ⟨_, hText, ⟨hSending.dataSource, hSending.files, hSending.asks, hSending.fileNum,
          Or.inl ⟨hNone, rfl⟩⟩, ⟨fun _ => by simpa using hOpens, ?_⟩, fun hSome => absurd hNone hSome⟩
        simp only [DataStream.read, Bool.false_eq_true, if_false] at hFails
        cases hLoop : readLoop plan.pieces ((source.disk.file node).content.drop 0) bufSize with
        | error error =>
            rw [hLoop] at hFails
            cases hFails
        | ok data => rw [← hLoop, readLoop_ok hLoop (by decide)]
  · have hSome : job.dataStream ≠ none := by simp [hStream]
    refine ⟨content, hKnown hSome, hSending, ⟨fun hNone => absurd hNone hSome, ?_⟩, fun _ => rfl⟩
    simp only [streamToRead, hStream, DataStream.read, Bool.false_eq_true, if_false, hNode] at hFails
    cases hLoop : readLoop plan.pieces (content.drop pos) bufSize with
    | error error => simp [hLoop] at hFails
    | ok data => rw [← hLoop, readLoop_ok hLoop (by decide)]

end Turn

end TransferJob

/-- The end that receives: a client, or the connection manager behind a server. -/
inductive Receiver where
  | client (state : Client)
  | manager (state : Manager)

namespace Receiver

def store : Receiver → Store
  | .client state => state.store
  | .manager state => state.store

def writeJobs : Receiver → List TransferJob
  | .client state => state.writeJobs
  | .manager state => state.writeJobs

/-- A message of the sender is handled, and nothing fails. -/
def handle (env : Env) : Receiver → JobMessage → Receiver
  | .client state, message =>
      .client (state.handleFileResponse
        { env := env, write := .none, seek := .none, digestFails := false } (.job message)).1
  | .manager state, message =>
      .manager ((state.handleFs env .none .none false (.ofMessage message)).elim state Prod.fst)

section Handle
variable {receiver : Receiver} {job : TransferJob} (env : Env)

theorem handle_block {block : FileTransferBlock} {store : Store} {next : TransferJob}
    {result : Except JobError Unit}
    (hJob : getJob block.id receiver.writeJobs = some job)
    (hWrite : job.write env .none receiver.store block = (result, store, next)) :
    (receiver.handle env (.block block)).store = store ∧
      (receiver.handle env (.block block)).writeJobs =
        putJob block.id next receiver.writeJobs := by
  cases receiver with
  | client state =>
      simp only [writeJobs, Receiver.store] at hJob hWrite
      simp [handle, Client.handleFileResponse, hJob, hWrite, Receiver.store, writeJobs]
  | manager state =>
      simp only [writeJobs, Receiver.store] at hJob hWrite
      simp [handle, FS.ofMessage, Manager.handleFs, hJob, hWrite, Receiver.store, writeJobs]

theorem handle_done {id fileNum : Int} (hJob : getJob id receiver.writeJobs = some job) :
    (receiver.handle env (.done id fileNum)).store = job.modifyTime .none receiver.store := by
  cases receiver with
  | client state =>
      simp only [writeJobs, getJob] at hJob
      simp [handle, Client.handleFileResponse, removeJob, hJob, Receiver.store]
  | manager state =>
      simp only [writeJobs, getJob] at hJob
      simp [handle, FS.ofMessage, Manager.handleFs, removeJob, hJob, Receiver.store]

end Handle

end Receiver

/-- A sender and a receiver, what was sent, and for each error message the number
of the file that had failed and the number in the message. -/
structure Exchange where
  jobs : List TransferJob
  receiver : Receiver
  sent : List JobMessage
  blame : List (Option Int × Int)

/-- The number of the file that fails in a turn. -/
def failedIn (source : Store) (plan : ReadPlan) (jobs : List TransferJob) : Option Int :=
  jobs.head?.bind fun job => if job.fails source plan then some job.fileNum else none

/-- The number in an error message. -/
def JobMessage.errorNum : JobMessage → Option Int
  | .error _ _ fileNum => some fileNum
  | _ => none

namespace Exchange

/-- A turn of the sender, and its messages delivered in order. -/
def step (source : Store) (exchange : Exchange) (turn : ReadPlan × Env) : Exchange :=
  let (messages, jobs, _) := handleReadJobs source (fun _ => turn.1) exchange.jobs
  { jobs := jobs
    receiver := messages.foldl (fun receiver message => receiver.handle turn.2 message)
      exchange.receiver
    sent := exchange.sent ++ messages
    blame := exchange.blame ++ messages.filterMap fun message =>
      message.errorNum.map fun fileNum => (failedIn source turn.1 exchange.jobs, fileNum) }

/-- Every file that was read to its end is in place, and every error message
carries the number of the file that failed. -/
def Contained (source : Store) (base target : Text) (files : List FileEntry) (id : Int)
    (exchange : Exchange) : Prop :=
  (∀ (k : Nat) entry, files[k]? = some entry →
    JobMessage.block { id := id, fileNum := k, data := [], compressed := false } ∈ exchange.sent →
    exchange.receiver.store.content (TransferJob.join exchange.receiver.store.platform target entry.name) =
      source.content (TransferJob.join source.platform base entry.name)) ∧
  ∀ pair ∈ exchange.blame, pair.1 = some pair.2

end Exchange

section Tick
variable {source : Store} {plan : ReadPlan} {job next : TransferJob}

/-- A turn that yields a block sends it, and the job goes on. -/
theorem handleReadJobs_of_block {block : FileTransferBlock} (hLast : job.isLastJob = false)
    (hInit : (job.initDataStream source plan).1 = .ok none)
    (hTurn : job.readTurn source plan = (.ok (some block), next)) :
    handleReadJobs source (fun _ => plan) [job] = ([.block block], [next], none) := by
  have hOpened := (TransferJob.SameTask.initDataStream source plan job).isLastJob
  rw [TransferJob.handleReadJobs_single source plan hLast (hOpened.trans hLast) (Prod.ext hInit rfl)]
  unfold TransferJob.readTurn at hTurn
  simp [readJob, hTurn]

/-- A turn that yields nothing ends the job. -/
theorem handleReadJobs_of_none (hLast : job.isLastJob = false)
    (hInit : (job.initDataStream source plan).1 = .ok none)
    (hTurn : job.readTurn source plan = (.ok none, next))
    (hAsks : next.enableOverwriteDetection = false) (hSkipped : next.fileSkipped = false) :
    handleReadJobs source (fun _ => plan) [job] = ([.done next.id next.fileNum], [], some next) := by
  have hOpened := (TransferJob.SameTask.initDataStream source plan job).isLastJob
  rw [TransferJob.handleReadJobs_single source plan hLast (hOpened.trans hLast) (Prod.ext hInit rfl)]
  unfold TransferJob.readTurn at hTurn
  simp [readJob, hTurn, TransferJob.jobCompleted, hAsks, TransferJob.jobError,
    TransferJob.jobSkipped, hSkipped, removeJob]

end Tick

/-- A job that may read any content next has nothing open. -/
theorem TransferJob.Sending.closed {job : TransferJob} {source : Store} {base : Text}
    {files : List FileEntry} {k : Nat}
    (hSending : ∀ content, job.Sending source base files k 0 content) : job.dataStream = none := by
  rcases (hSending []).stream with ⟨hNone, -⟩ | ⟨node, hStream, hEmpty⟩
  · exact hNone
  · rcases (hSending [0]).stream with ⟨hNone, -⟩ | ⟨other, hOther, hFull⟩
    · exact hNone
    · obtain rfl : node = other := by simpa [hStream] using hOther
      rw [hEmpty] at hFull
      cases hFull

/-- When the sender is done, so is the receiver. -/
theorem TransferJob.Ready.settled_done {job : TransferJob} {source : Store} {base target : Text}
    {files : List FileEntry} {first k : Nat} {data : Bytes} {store : Store}
    (hReady : job.Ready source base target files first k data store)
    (hApart : Apart store.platform target files)
    (hAgree : Agree source base store.platform target files) (hEnd : files[k]? = none) :
    Settled source base target files first files.length (job.modifyTime .none store) := by
  have hPast := List.getElem?_eq_none_iff.mp hEnd
  rcases hReady with ⟨rfl, -⟩ | ⟨j, whole, rfl, -, -, hWhole, hReceives⟩ | hReceives
  · intro i entry hFirst hLast _
    omega
  · intro i entry hFirst hLast hEntry
    exact hReceives.settled_modifyTime hApart hAgree hWhole i entry hFirst (by omega) hEntry
  · obtain ⟨entry, hEntry, -⟩ := hReceives.stream
    rw [hEnd] at hEntry
    cases hEntry

namespace Exchange

/-- Nothing has failed so far: the sender is at the `k`th file from `pos` on, and
the receiver has what was read before. -/
structure Running (exchange : Exchange) (source : Store) (base target : Text)
    (files : List FileEntry) (id : Int) (first : Nat) (platform : Platform)
    (k pos : Nat) (content : Bytes) : Prop where
  sender : ∃ job, exchange.jobs = [job] ∧ job.Sending source base files k pos content ∧
    job.id = id ∧ job.isLastJob = false ∧ job.fileSkipped = false ∧
    (job.dataStream ≠ none → ∀ entry, files[k]? = some entry →
      source.content (TransferJob.join source.platform base entry.name) = some content)
  receiver : ∃ job, getJob id exchange.receiver.writeJobs = some job ∧
    job.Ready source base target files first k (content.take pos) exchange.receiver.store
  platform : exchange.receiver.store.platform = platform
  begun : first ≤ k
  sent : ∀ block, .block block ∈ exchange.sent → (first : Int) ≤ block.fileNum
  blame : exchange.blame = []

/-- The sender is done, and nothing has failed. -/
structure Finished (exchange : Exchange) (source : Store) (base target : Text)
    (files : List FileEntry) (first : Nat) : Prop where
  jobs : exchange.jobs = []
  settled : Settled source base target files first files.length exchange.receiver.store
  sent : ∀ block, .block block ∈ exchange.sent → (first : Int) ≤ block.fileNum
  blame : exchange.blame = []

section Step
variable {exchange : Exchange} {source : Store} {base target : Text} {files : List FileEntry}
  {id : Int} {first : Nat} {platform : Platform} {k pos : Nat} {content : Bytes}
  {turn : ReadPlan × Env}

theorem step_eq {messages : List JobMessage} {jobs : List TransferJob} {ended : Option TransferJob}
    (hTick : handleReadJobs source (fun _ => turn.1) exchange.jobs = (messages, jobs, ended)) :
    exchange.step source turn =
      { jobs := jobs
        receiver := messages.foldl (fun receiver message => receiver.handle turn.2 message)
          exchange.receiver
        sent := exchange.sent ++ messages
        blame := exchange.blame ++ messages.filterMap fun message =>
          message.errorNum.map fun fileNum => (failedIn source turn.1 exchange.jobs, fileNum) } := by
  unfold step
  rw [hTick]

/-- A block of the current file, sent and received. -/
theorem Running.step_block
    (hRunning : exchange.Running source base target files id first platform k pos content)
    (hApart : Apart platform target files) (hAgree : Agree source base platform target files)
    {entry : FileEntry} (hEntry : files[k]? = some entry) {block : FileTransferBlock}
    {next : TransferJob} (hId : block.id = id) (hNum : block.fileNum = k)
    (hTick : handleReadJobs source (fun _ => turn.1) exchange.jobs = ([.block block], [next], none)) :
    ∃ receiver job,
      exchange.step source turn =
        { jobs := [next], receiver := receiver, sent := exchange.sent ++ [.block block], blame := [] } ∧
      getJob id receiver.writeJobs = some job ∧ receiver.store.platform = platform ∧
      job.Receives source base target files first k (content.take pos ++ block.payload turn.2)
        receiver.store ∧
      ∀ other, .block other ∈ exchange.sent ++ [.block block] → (first : Int) ≤ other.fileNum := by
  obtain ⟨job, hJob, hReady⟩ := hRunning.receiver
  rw [← hRunning.platform] at hApart hAgree
  obtain ⟨after, written, hWrite, hSame, hPlatform, hReceives⟩ :=
    hReady.write hApart hAgree turn.2 (hId.trans (getJob_id hJob).symm) hNum hEntry
  obtain ⟨hStore, hJobs⟩ := Receiver.handle_block turn.2 (hId ▸ hJob) hWrite
  refine ⟨exchange.receiver.handle turn.2 (.block block), written, ?_, ?_, ?_, ?_, ?_⟩
  · rw [step_eq hTick, hRunning.blame]
    rfl
  · rw [hJobs, hId]
    exact getJob_putJob hJob (hSame.trans (getJob_id hJob))
  · rw [hStore, hPlatform, hRunning.platform]
  · rw [hStore]
    exact hReceives
  · intro other hOther
    rcases List.mem_append.mp hOther with hOld | hNew
    · exact hRunning.sent other hOld
    · have hBegun := hRunning.begun
      cases List.mem_singleton.mp hNew
      omega

/-- A turn in which nothing fails keeps both ends in step, or ends the transfer. -/
theorem Running.step
    (hRunning : exchange.Running source base target files id first platform k pos content)
    (hApart : Apart platform target files) (hAgree : Agree source base platform target files)
    (hCodec : Codec turn) (hCompress : ∀ data, (turn.1.zstdCompress data).isSome = true)
    (hFine : failedIn source turn.1 exchange.jobs = none) :
    (∃ k pos content,
      (exchange.step source turn).Running source base target files id first platform k pos content) ∨
      (exchange.step source turn).Finished source base target files first := by
  obtain ⟨job, hJobs, hSending, hId, hLast, hSkipped, hKnown⟩ := hRunning.sender
  cases hEntry : files[k]? with
  | none =>
      right
      obtain ⟨next, hInit, hTurn, hKept, hIdle, -⟩ := hSending.turn_idle hEntry turn.1
      have hTick := handleReadJobs_of_none hLast hInit hTurn
        (hKept.asks.trans hSending.asks) (hKept.skipped.trans hSkipped)
      rw [← hJobs] at hTick
      rw [step_eq hTick]
      obtain ⟨received, hJob, hReady⟩ := hRunning.receiver
      have hDone : next.id = id := hKept.id.trans hId
      have hStore : (exchange.receiver.handle turn.2 (.done next.id next.fileNum)).store =
          received.modifyTime .none exchange.receiver.store :=
        Receiver.handle_done turn.2 (hDone ▸ hJob)
      refine ⟨rfl, ?_, ?_, ?_⟩
      · show Settled source base target files first files.length
          (exchange.receiver.handle turn.2 (.done next.id next.fileNum)).store
        rw [hStore]
        exact hReady.settled_done (hRunning.platform ▸ hApart) (hRunning.platform ▸ hAgree) hEntry
      · intro block hBlock
        refine hRunning.sent block ?_
        simpa using hBlock
      · simp [hRunning.blame, JobMessage.errorNum]
  | some entry =>
      left
      have hFails : job.fails source turn.1 = false := by
        simpa [failedIn, hJobs] using hFine
      obtain ⟨text, hText, hReads, hServes, hSame⟩ :=
        hSending.serves hEntry (fun hSome => hKnown hSome entry hEntry) hFails
      -- What was read before is what the receiver has.
      have hBefore : content.take pos = text.take pos := by
        rcases hSending.stream with ⟨-, rfl⟩ | ⟨node, hStream, -⟩
        · simp
        · rw [hSame (by simp [hStream])]
      by_cases hLeft : text.drop pos = []
      · obtain ⟨next, hInit, hTurn, hKept, hNext, -⟩ := hReads.turn_end hEntry hText hServes hLeft
        have hTick := handleReadJobs_of_block hLast hInit hTurn
        rw [← hJobs] at hTick
        obtain ⟨receiver, received, hStep, hJob, hPlatform, hReceives, hSent⟩ :=
          hRunning.step_block hApart hAgree hEntry hId rfl hTick
        have hWhole : text.take pos = text := by
          have hParts := List.take_append_drop pos text
          rwa [hLeft, List.append_nil] at hParts
        have hPayload : ({ id := job.id, fileNum := (k : Int), data := [], compressed := false } :
            FileTransferBlock).payload turn.2 = [] := rfl
        rw [hBefore, hWhole, hPayload, List.append_nil] at hReceives
        refine ⟨k + 1, 0, [], ?_⟩
        rw [hStep]
        refine ⟨⟨next, rfl, hNext [], hKept.id.trans hId, hKept.isLastJob.trans hLast,
          hKept.skipped.trans hSkipped, ?_⟩, ⟨received, hJob, Or.inr (Or.inl ⟨k, text, rfl,
            hRunning.begun, rfl, ?_, hReceives⟩)⟩, hPlatform, ?_, hSent, rfl⟩
        · exact fun hSome => absurd (TransferJob.Sending.closed hNext) hSome
        · intro found hFound
          rw [hEntry] at hFound
          cases hFound
          exact hText
        · exact Nat.le_succ_of_le hRunning.begun
      · obtain ⟨next, hInit, hTurn, hKept, hNext, -⟩ :=
          hReads.turn_chunk hEntry hText hServes (take_bufSize_ne_nil hLeft)
        have hTick := handleReadJobs_of_block hLast hInit hTurn
        rw [← hJobs] at hTick
        obtain ⟨receiver, received, hStep, hJob, hPlatform, hReceives, hSent⟩ :=
          hRunning.step_block hApart hAgree hEntry hId rfl hTick
        have hPayload : ({ id := job.id
                           fileNum := (k : Int)
                           data := (TransferJob.packChunk turn.1
                             (some (TransferJob.chunkName source.platform files base entry))
                             ((text.drop pos).take bufSize)).1
                           compressed := (TransferJob.packChunk turn.1
                             (some (TransferJob.chunkName source.platform files base entry))
                             ((text.drop pos).take bufSize)).2 } : FileTransferBlock).payload turn.2 =
            (text.drop pos).take bufSize :=
          carried_of_survives hCodec fun _ _ => hCompress _
        have hGrown : text.take pos ++ (text.drop pos).take bufSize =
            text.take (pos + ((text.drop pos).take bufSize).length) := by
          rw [List.take_add, List.length_take, ← List.take_take, List.take_length]
        rw [hBefore, hPayload, hGrown] at hReceives
        refine ⟨k, pos + ((text.drop pos).take bufSize).length, text, ?_⟩
        rw [hStep]
        refine ⟨⟨next, rfl, hNext, hKept.id.trans hId, hKept.isLastJob.trans hLast,
          hKept.skipped.trans hSkipped, ?_⟩, ⟨received, hJob, Or.inr (Or.inr hReceives)⟩, hPlatform,
          hRunning.begun, hSent, rfl⟩
        intro _ found hFound
        rw [hEntry] at hFound
        cases hFound
        exact hText

end Step

end Exchange

/-- A receiving job that has not received anything. -/
structure TransferJob.Awaits (job : TransferJob) (target : Text) (files : List FileEntry) :
    Prop where
  type : job.type = .generic
  dataSource : job.dataSource = .filePath target
  list : job.files = files
  stream : job.dataStream = none

namespace Exchange

/-- The sender has a single job, over files and without overwrite detection. -/
def Single (exchange : Exchange) (base : Text) : Prop :=
  exchange.jobs = [] ∨ ∃ job, exchange.jobs = [job] ∧ job.dataSource = .filePath base ∧
    job.enableOverwriteDetection = false ∧ job.isLastJob = false

section Blame
variable {exchange : Exchange} {source : Store} {base : Text}

theorem jobs_handleReadJobs (source : Store) (plan : ReadPlan) {job : TransferJob}
    (hLast : job.isLastJob = false) :
    (handleReadJobs source (fun _ => plan) [job]).2.1 = [] ∨
      ∃ next, (handleReadJobs source (fun _ => plan) [job]).2.1 = [next] ∧ job.SameTask next := by
  have hOpened := TransferJob.SameTask.initDataStream source plan job
  have hRead := hOpened.trans
    (TransferJob.SameTask.readJob source plan (job.initDataStream source plan).2)
  have hJobs : (initJobs source (fun _ => plan) 0 [job]).2 = [(job.initDataStream source plan).2] := by
    rw [initJobs_cons]
    simp [hLast, initJobs]
  have hStill : (job.initDataStream source plan).2.isLastJob = false := hOpened.isLastJob.trans hLast
  simp only [handleReadJobs, hJobs, readFirst, hStill, Bool.false_eq_true, if_false]
  cases (readJob source plan (job.initDataStream source plan).2).2.2 with
  | true => left; simp [removeJob]
  | false => exact Or.inr ⟨_, rfl, hRead⟩

theorem Single.step (hSingle : exchange.Single base) (turn : ReadPlan × Env) :
    (exchange.step source turn).Single base := by
  rcases hSingle with hNone | ⟨job, hJob, hSource, hAsks, hLast⟩
  · left
    simp [Exchange.step, hNone, handleReadJobs, initJobs, readFirst]
  · have hStep : (exchange.step source turn).jobs =
        (handleReadJobs source (fun _ => turn.1) [job]).2.1 := by
      rw [← hJob]
      rfl
    rcases jobs_handleReadJobs source turn.1 hLast with hEnd | ⟨next, hNext, hSame⟩
    · exact Or.inl (hStep.trans hEnd)
    · exact Or.inr ⟨next, hStep.trans hNext, (hSame.source base).mpr hSource,
        hSame.detection.trans hAsks, hSame.isLastJob.trans hLast⟩

theorem mem_blame_run {pair : Option Int × Int} (hPair : pair ∈ exchange.blame)
    (turns : List (ReadPlan × Env)) : pair ∈ (Trace.run (step source) exchange turns).blame :=
  Trace.invariant_of_step (step source) (fun state => pair ∈ state.blame) hPair
    (fun _ _ hMem => List.mem_append_left _ hMem) turns

/-- A turn in which a file fails leaves an error message with a wrong number. -/
theorem Single.blame_of_failed (hSingle : exchange.Single base) {turn : ReadPlan × Env}
    (hFailed : failedIn source turn.1 exchange.jobs ≠ none) :
    ∃ pair ∈ (exchange.step source turn).blame, pair.1 ≠ some pair.2 := by
  rcases hSingle with hNone | ⟨job, hJob, hSource, hAsks, hLast⟩
  · simp [failedIn, hNone] at hFailed
  · have hFails : job.fails source turn.1 = true := by
      simpa [failedIn, hJob] using hFailed
    obtain ⟨error, hError⟩ := TransferJob.error_of_fails hSource hAsks hLast hFails
    refine ⟨(some job.fileNum, job.fileNum + 1), ?_, ?_⟩
    · apply List.mem_append_right
      rw [← hJob] at hError
      refine List.mem_filterMap.mpr ⟨_, hError, ?_⟩
      simp [JobMessage.errorNum, failedIn, hJob, hFails]
    · intro hSame
      have hNums := Option.some.inj hSame
      simp only at hNums
      omega

/-- If every error message carries the right number, no file has failed. -/
theorem Single.fine_of_blame (hSingle : exchange.Single base) {turns : List (ReadPlan × Env)}
    (hBlame : ∀ pair ∈ (Trace.run (Exchange.step source) exchange turns).blame,
      pair.1 = some pair.2) :
    Trace.Always (Exchange.step source)
      (fun exchange turn => failedIn source turn.1 exchange.jobs = none) exchange turns := by
  induction turns generalizing exchange with
  | nil => trivial
  | cons turn turns ih =>
      refine ⟨?_, ih (hSingle.step turn) hBlame⟩
      by_contra hFailed
      obtain ⟨pair, hPair, hWrong⟩ := hSingle.blame_of_failed hFailed
      exact hWrong (hBlame pair (mem_blame_run hPair turns))

end Blame

section Run
variable {exchange : Exchange} {source : Store} {base target : Text} {files : List FileEntry}
  {id : Int} {first : Nat} {platform : Platform}

theorem Finished.step (hFinished : exchange.Finished source base target files first)
    (turn : ReadPlan × Env) :
    (exchange.step source turn).Finished source base target files first := by
  have hIdle : exchange.step source turn = exchange := by
    obtain ⟨jobs, receiver, sent, blame⟩ := exchange
    obtain rfl : jobs = [] := hFinished.jobs
    simp [Exchange.step, handleReadJobs, initJobs, readFirst]
  rw [hIdle]
  exact hFinished

/-- A run in which no file fails ends with all files in place. -/
theorem Running.run {k pos : Nat} {content : Bytes}
    (hRunning : exchange.Running source base target files id first platform k pos content)
    (hApart : Apart platform target files) (hAgree : Agree source base platform target files)
    {turns : List (ReadPlan × Env)} (hCodec : ∀ turn ∈ turns, Codec turn)
    (hCompress : ∀ turn ∈ turns, ∀ data, (turn.1.zstdCompress data).isSome = true)
    (hFine : Trace.Always (Exchange.step source)
      (fun exchange turn => failedIn source turn.1 exchange.jobs = none) exchange turns) :
    (∃ k pos content, (Trace.run (Exchange.step source) exchange turns).Running source base target files
        id first platform k pos content) ∨
      (Trace.run (Exchange.step source) exchange turns).Finished source base target files first := by
  induction turns generalizing exchange k pos content with
  | nil => exact Or.inl ⟨k, pos, content, hRunning⟩
  | cons turn turns ih =>
      rcases hRunning.step hApart hAgree (hCodec turn List.mem_cons_self)
        (hCompress turn List.mem_cons_self) hFine.1 with ⟨k, pos, content, hNext⟩ | hDone
      · exact ih hNext (fun other hOther => hCodec other (List.mem_cons_of_mem turn hOther))
          (fun other hOther => hCompress other (List.mem_cons_of_mem turn hOther)) hFine.2
      · exact Or.inr (Trace.invariant_of_step (Exchange.step source)
          (fun state => state.Finished source base target files first) hDone
          (fun _ turn hState => hState.step turn) turns)

/-- A sender that starts with the file `first`, and a receiver. -/
def start (id : Int) (type : JobType) (base remote : Text) (first : Nat) (showHidden isRemote : Bool)
    (files : List FileEntry) (receiver : Receiver) : Exchange where
  jobs := [.newRead id type remote (.filePath base) first showHidden isRemote files false]
  receiver := receiver
  sent := []
  blame := []

/-- When the sender is done, the errors were contained if and only if there were
none: no file failed to open or to be read when its turn came. -/
theorem contained_iff (id : Int) (type : JobType) (base remote target : Text) (first : Nat)
    (showHidden isRemote : Bool) (files : List FileEntry) (source : Store) (receiver : Receiver)
    (job : TransferJob) (turns : List (ReadPlan × Env))
    (hJob : getJob id receiver.writeJobs = some job) (hAwaits : job.Awaits target files)
    (hApart : Apart receiver.store.platform target files)
    (hAgree : Agree source base receiver.store.platform target files)
    (hCodec : ∀ turn ∈ turns, Codec turn)
    (hCompress : ∀ turn ∈ turns, ∀ data, (turn.1.zstdCompress data).isSome = true)
    (hDone : (Trace.run (Exchange.step source)
      (start id type base remote first showHidden isRemote files receiver) turns).jobs = []) :
    Contained source base target files id
        (Trace.run (Exchange.step source)
          (start id type base remote first showHidden isRemote files receiver) turns) ↔
      Trace.Always (Exchange.step source)
        (fun exchange turn => failedIn source turn.1 exchange.jobs = none)
        (start id type base remote first showHidden isRemote files receiver) turns := by
  constructor
  · intro hContained
    have hSingle : (start id type base remote first showHidden isRemote files receiver).Single base :=
      Or.inr ⟨_, rfl, rfl, rfl, rfl⟩
    exact hSingle.fine_of_blame hContained.2
  · intro hFine
    have hStart : (start id type base remote first showHidden isRemote files receiver).Running source
        base target files id first receiver.store.platform first 0 [] :=
      ⟨⟨_, rfl, ⟨rfl, rfl, rfl, rfl, Or.inl ⟨rfl, rfl⟩⟩, rfl, rfl, rfl, fun hSome => absurd rfl hSome⟩,
        ⟨job, hJob, Or.inl ⟨rfl, rfl, hAwaits.type, hAwaits.dataSource, hAwaits.list, hAwaits.stream⟩⟩,
        rfl, Nat.le_refl _, by simp [start], rfl⟩
    rcases hStart.run hApart hAgree hCodec hCompress hFine with ⟨k, pos, content, hRunning⟩ | hEnd
    · obtain ⟨still, hStill, -⟩ := hRunning.sender
      rw [hDone] at hStill
      cases hStill
    · refine ⟨fun k entry hEntry hSent => ?_, ?_⟩
      · have hFirst : first ≤ k := by
          have hBegun := hEnd.sent _ hSent
          simpa using hBegun
        have hShort : k < files.length := (List.getElem?_eq_some_iff.mp hEntry).1
        exact hEnd.settled k entry hFirst hShort hEntry
      · rw [hEnd.blame]
        simp

end Run

/-- A connection manager with a new job to receive files into `/t`. -/
def newReceiver (files : List FileEntry) : Receiver :=
  .manager
    { store := { platform := .unix, disk := Storage.Disk.empty, ops := [] }
      writeJobs := [.newWrite 7 .generic [] (.filePath "/t".toList) 0 false false files false] }

theorem one_file_contained :
    Contained oneFile "/s".toList "/t".toList [⟨"a".toList, 2, 0⟩] 7
      (Trace.run (Exchange.step oneFile)
        (start 7 .generic "/s".toList [] 0 false false [⟨"a".toList, 2, 0⟩]
          (newReceiver [⟨"a".toList, 2, 0⟩])) [framed, framed, framed]) := by
  refine (contained_iff 7 .generic "/s".toList [] "/t".toList 0 false false [⟨"a".toList, 2, 0⟩]
    oneFile (newReceiver [⟨"a".toList, 2, 0⟩]) _ [framed, framed, framed] rfl ⟨rfl, rfl, rfl, rfl⟩
    ?_ ?_ ?_ ?_ ?_).mpr ?_
  · unfold Apart
    decide +kernel
  · unfold Agree
    decide +kernel
  · intro turn hTurn
    obtain rfl : turn = framed := by simpa using hTurn
    exact framed_codec
  · intro turn hTurn data
    obtain rfl : turn = framed := by simpa using hTurn
    rfl
  · exact List.length_eq_zero_iff.mp (by decide +kernel)
  · exact ⟨by decide +kernel, by decide +kernel, by decide +kernel, trivial⟩

/-- The first file cannot be opened, and the second never arrives. -/
theorem second_file_lost :
    (Trace.run (Exchange.step secondFileOnly)
        (start 7 .generic "/d".toList [] 0 false false twoFiles.files (newReceiver twoFiles.files))
        [framed, framed, framed, framed]).jobs.length = 0 ∧
      ¬ Contained secondFileOnly "/d".toList "/t".toList twoFiles.files 7
        (Trace.run (Exchange.step secondFileOnly)
          (start 7 .generic "/d".toList [] 0 false false twoFiles.files
            (newReceiver twoFiles.files)) [framed, framed, framed, framed]) := by
  refine ⟨by decide +kernel, fun hContained => ?_⟩
  have hArrived := hContained.1 1 ⟨"b".toList, 1, 0⟩ rfl (by decide +kernel)
  exact absurd hArrived (by decide +kernel)

end Exchange

end HibtDesk.FileTransfer
