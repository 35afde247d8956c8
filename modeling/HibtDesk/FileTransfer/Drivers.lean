import HibtDesk.Connection.Start
import HibtDesk.FileTransfer.Completion
import HibtDesk.FileTransfer.ReadSpec

/-! The two drivers of sending jobs. A connection that can read the files itself
calls `handle_read_jobs`; otherwise the connection manager keeps the jobs, and the
connection hands on what it hears from the manager about jobs it still knows. -/
namespace HibtDesk.FileTransfer

/-- What the connection manager tells the connection about its jobs. -/
inductive FromCm where
  | fileDigest (id fileNum : Int) (lastModified fileSize : Nat) (isResume : Bool)
  | fileBlock (block : FileTransferBlock)
  | fileReadDone (id fileNum : Int)
  | fileReadError (id fileNum : Int) (err : JobError)
  deriving DecidableEq, Repr

/-- `init_data_stream_for_cm`: when the file was modified and its size, if the
receiver is to be asked. -/
def TransferJob.initDataStreamForCm (store : Store) (plan : ReadPlan) (job : TransferJob) :
    Except JobError (Option (Nat × Nat)) × TransferJob :=
  match job.openDataStream store plan with
  | (.error error, job) => (.error error, job)
  | (.ok true, job) => (.ok none, job)
  | (.ok false, job) =>
      if job.type = .generic ∧ job.enableOverwriteDetection ∧ !job.fileConfirmed ∧
          !job.fileIsWaiting then
        match job.getCurrentDigest store plan with
        | .error error => (.error error, job)
        | .ok digest => (.ok (some digest), job.setFileIsWaiting true)
      else (.ok none, job)

/-- `init_read_job_for_cm`, with what it tells the connection. -/
def initReadJobForCm (store : Store) (plan : ReadPlan) (job : TransferJob) :
    Except JobError (List FromCm) × TransferJob :=
  match job.initDataStreamForCm store plan with
  | (.error error, job) => (.error error, job)
  | (.ok (some (lastModified, fileSize)), job) =>
      (.ok [.fileDigest job.id job.fileNum lastModified fileSize job.isResume], job)
  | (.ok none, job) => (.ok [], job)

/-- What a tick does with a job that is open: what it tells the connection, the
job, and whether it is finished. -/
def readJobForCm (store : Store) (plan : ReadPlan) (job : TransferJob) :
    List FromCm × TransferJob × Bool :=
  match job.read store plan with
  | (.error error, job) => ([.fileReadError job.id job.fileNum error], job, true)
  | (.ok (some block), job) => ([.fileBlock block], job, false)
  | (.ok none, job) =>
      if job.jobCompleted then
        match job.jobError with
        | some error => ([.fileReadError job.id job.fileNum error], job, true)
        | none => ([.fileReadDone job.id job.fileNum], job, true)
      else ([], job, false)

/-- The loop of `handle_read_jobs_tick`, with the ids of the jobs that are finished.
It goes on to the next job only past one that cannot be opened. -/
def tickLoop (store : Store) (plan : Nat → ReadPlan) :
    Nat → List TransferJob → List FromCm × List TransferJob × List Int
  | _, [] => ([], [], [])
  | i, job :: jobs =>
      if job.isLastJob then
        let (told, rest, finished) := tickLoop store plan (i + 1) jobs
        (told, job :: rest, finished)
      else
        match initReadJobForCm store (plan i) job with
        | (.error error, job) =>
            let (told, rest, finished) := tickLoop store plan (i + 1) jobs
            (.fileReadError job.id job.fileNum error :: told, job :: rest, job.id :: finished)
        | (.ok digest, job) =>
            let (told, job, finished) := readJobForCm store (plan i) job
            (digest ++ told, job :: jobs, if finished then [job.id] else [])

/-- `handle_read_jobs_tick`. -/
def handleReadJobsTick (store : Store) (plan : Nat → ReadPlan) (jobs : List TransferJob) :
    List FromCm × List TransferJob :=
  let (told, jobs, finished) := tickLoop store plan 0 jobs
  (told, finished.foldl (fun jobs id => (removeJob id jobs).2) jobs)

/-- The manager's answer to `SendConfirmForRead`, unless it panics. The number of
the file is filled in from the job. -/
def sendConfirmForRead (store : Store) (faults : SeekFaults) (id : Int) (skip : Bool)
    (offsetBlk : Nat) (jobs : List TransferJob) : List TransferJob :=
  match getJob id jobs with
  | some job =>
      let req : FileTransferSendConfirmRequest :=
        { id := id
          fileNum := job.fileNum
          union := some (if skip then .skip true else .offsetBlk offsetBlk) }
      match job.confirm store faults req with
      | some job => putJob id job jobs
      | none => []
  | none => jobs

namespace FileTransferSendConfirmRequest

/-- `r.skip()`. -/
def skip (r : FileTransferSendConfirmRequest) : Bool :=
  match r.union with
  | some (.skip skip) => skip
  | _ => false

/-- `r.offset_blk()`. -/
def offsetBlk (r : FileTransferSendConfirmRequest) : Nat :=
  match r.union with
  | some (.offsetBlk offset) => offset
  | _ => 0

end FileTransferSendConfirmRequest

namespace FromCm

def id : FromCm → Int
  | fileDigest id .. => id
  | fileBlock block => block.id
  | fileReadDone id _ => id
  | fileReadError id .. => id

/-- The job is not heard of again. -/
def ends : FromCm → Bool
  | fileDigest .. | fileBlock _ => false
  | fileReadDone .. | fileReadError .. => true

/-- What the peer is sent. -/
def message : FromCm → JobMessage
  | fileDigest id fileNum lastModified fileSize isResume =>
      .digest
        { id := id
          fileNum := fileNum
          lastModified := lastModified
          fileSize := fileSize
          isUpload := false
          isIdentical := false
          transferredSize := 0
          isResume := isResume }
  | fileBlock block => .block block
  | fileReadDone id fileNum => .done id fileNum
  | fileReadError id fileNum err => .error id err fileNum

/-- `handle_file_digest_from_cm`, `handle_file_block_from_cm`, `handle_file_read_done`
and `handle_file_read_error`: what is about a job the connection no longer knows is
dropped, and the last word about a job makes it forget the job. -/
def forward (cmReadJobIds : List Int) (told : FromCm) : List JobMessage × List Int :=
  if cmReadJobIds.contains told.id then
    ([told.message],
      if told.ends then cmReadJobIds.filter (· != told.id) else cmReadJobIds)
  else ([], cmReadJobIds)

/-- Hand on all the manager has told. -/
def forwardAll (cmReadJobIds : List Int) : List FromCm → List JobMessage × List Int
  | [] => ([], cmReadJobIds)
  | told :: later =>
      let (messages, cmReadJobIds) := forward cmReadJobIds told
      let (rest, cmReadJobIds) := forwardAll cmReadJobIds later
      (messages ++ rest, cmReadJobIds)

/-- The message of the manager, with the texts of the errors. -/
def toCm (text : JobError → String) : FromCm → CmMessage
  | fileDigest id fileNum lastModified fileSize isResume =>
      .fileDigestFromCm id fileNum lastModified fileSize isResume
  | fileBlock block => .fileBlockFromCm block.id block.fileNum block.data block.compressed
  | fileReadDone id fileNum => .fileReadDone id fileNum
  | fileReadError id fileNum err => .fileReadError id fileNum (text err)

end FromCm

/-- What a message looks like to the connection. -/
def JobMessage.toPeer (text : JobError → String) : JobMessage → PeerMessage
  | digest d =>
      .fileResponse (.digest d.id d.fileNum d.fileSize d.lastModified d.isResume)
  | block b => .fileResponse (.block b.id b.fileNum b.data b.compressed)
  | error id err fileNum => .fileError id (text err) fileNum
  | done id fileNum => .fileResponse (.done id fileNum)

/-- The connection hands on what the manager tells it as `forward` does. -/
theorem onCm_forward (fixed : Fixed) (env : HibtDesk.Env) (s : State) (text : JobError → String)
    (told : FromCm) :
    let t := (s.onCm fixed env (told.toCm text)).1
    t.conn.cmReadJobIds = (told.forward s.conn.cmReadJobIds).2 ∧
      t.effects = s.effects ++
        (told.forward s.conn.cmReadJobIds).1.map fun message => .send (message.toPeer text) := by
  have hJob : (s.onCm fixed env (told.toCm text)).1 =
      s.onCmReadJob told.id told.ends (told.message.toPeer text) := by
    cases told <;> rfl
  intro t
  rw [show t = _ from hJob]
  unfold State.onCmReadJob FromCm.forward
  cases s.conn.cmReadJobIds.contains told.id with
  | true => cases told.ends <;> exact ⟨rfl, rfl⟩
  | false => exact ⟨rfl, (List.append_nil _).symm⟩

end HibtDesk.FileTransfer
