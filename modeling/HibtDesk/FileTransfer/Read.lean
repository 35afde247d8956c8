import HibtDesk.FileTransfer.Job

/-! The sending side of a job: files are opened one after another, announced with
a digest if the receiver may object, and read in chunks. `handle_read_jobs` does
a turn of this for the jobs of a connection. -/
namespace HibtDesk.FileTransfer

open Lexical (Text Platform)

/-- How the operating system behaves in one turn: whether the file can be opened
and its metadata read, and how much each read returns, or that it fails; and
what the compressor makes of a chunk, unless it fails. -/
structure ReadPlan where
  openFails : Bool
  metadataFails : Bool
  pieces : List (Option Nat)
  zstdCompress : Bytes → Option Bytes

inductive JobMessage where
  | digest (digest : FileTransferDigest)
  | block (block : FileTransferBlock)
  | error (id : Int) (error : JobError) (fileNum : Int)
  | done (id : Int) (fileNum : Int)
  deriving DecidableEq, Repr

def bufSize : Nat := 128 * 1024

/-- The loop of `read`: fill the room in the buffer from what is left of the
file. A read returns nothing only at the end of the file. -/
def readLoop : List (Option Nat) → Bytes → Nat → Except JobError Bytes
  | [], left, room => .ok (left.take room)
  | none :: _, _, _ => .error .io
  | some piece :: pieces, left, room =>
      let n := min (max piece 1) (min room left.length)
      if n = 0 ∨ n = room then .ok (left.take n)
      else
        match readLoop pieces (left.drop n) (room - n) with
        | .ok rest => .ok (left.take n ++ rest)
        | .error error => .error error

/-- `Path::file_name`, empty if there is none. -/
def fileName (platform : Platform) (path : Text) : Text :=
  match (platform.segments path).getLast? with
  | some (.down name) => name
  | _ => []

/-- Fill the buffer from a stream; a file opened for writing cannot be read. -/
def DataStream.read (store : Store) (pieces : List (Option Nat)) :
    DataStream → Except JobError (Bytes × DataStream)
  | .fileStream file =>
      if file.writable then .error .io
      else
        match readLoop pieces ((store.disk.file file.node).content.drop file.pos) bufSize with
        | .ok data => .ok (data, .fileStream { file with pos := file.pos + data.length })
        | .error error => .error error
  | .bufStream buffer pos =>
      match readLoop pieces (buffer.drop pos) bufSize with
      | .ok data => .ok (data, .bufStream buffer (pos + data.length))
      | .error error => .error error

namespace TransferJob

/-- Leave the current file for the next one. -/
def nextFile (job : TransferJob) : TransferJob :=
  { job with
    fileNum := job.fileNum + 1
    dataStream := none
    fileConfirmed := false
    fileIsWaiting := false }

/-- `open_data_stream`; the answer tells whether the job is done. -/
def openDataStream (store : Store) (plan : ReadPlan) (job : TransferJob) :
    Except JobError Bool × TransferJob :=
  match job.dataSource with
  | .filePath base =>
      match job.currentFile with
      | none => (.ok true, { job with dataStream := none })
      | some entry =>
          match job.dataStream with
          | some _ => (.ok false, job)
          | none =>
              let path := join store.platform base entry.name
              match plan.openFails, store.disk.node (store.platform.location path) with
              | false, some node =>
                  (.ok false,
                    { job with
                      dataStream := some (.fileStream { node := node, pos := 0, writable := false })
                      fileConfirmed := false
                      fileIsWaiting := false })
              | _, _ =>
                  (.error .io,
                    { job with
                      fileNum := job.fileNum + 1, fileConfirmed := false, fileIsWaiting := false })
  | .memoryCursor data =>
      match job.dataStream with
      | some _ => (.ok false, job)
      | none =>
          (.ok false,
            { job with dataSource := .memoryCursor [], dataStream := some (.bufStream data 0) })

/-- `get_current_digest`: when the file was modified, and its size. -/
def getCurrentDigest (store : Store) (plan : ReadPlan) (job : TransferJob) :
    Except JobError (Nat × Nat) :=
  match job.dataStream with
  | none => .error .fileIsNone
  | some (.bufStream _ _) => .error .noDigestForBufStream
  | some (.fileStream file) =>
      if plan.metadataFails then .error .io
      else
        let found := store.disk.file file.node
        .ok (found.modified / nanosPerSec, found.content.length)

/-- `init_data_stream`, with the digest it sends. -/
def initDataStream (store : Store) (plan : ReadPlan) (job : TransferJob) :
    Except JobError (Option FileTransferDigest) × TransferJob :=
  match job.openDataStream store plan with
  | (.error error, job) => (.error error, job)
  | (.ok true, job) => (.ok none, job)
  | (.ok false, job) =>
      if job.type = .generic ∧ job.enableOverwriteDetection ∧ !job.fileConfirmed ∧
          !job.fileIsWaiting then
        match job.getCurrentDigest store plan with
        | .error error => (.error error, job)
        | .ok (lastModified, fileSize) =>
            (.ok (some
              { id := job.id
                fileNum := job.fileNum
                lastModified := lastModified
                fileSize := fileSize
                isUpload := false
                isIdentical := false
                transferredSize := 0
                isResume := job.isResume }), job.setFileIsWaiting true)
      else (.ok none, job)

/-- The name by which `read` decides whether to compress. -/
def chunkName (platform : Platform) (files : List FileEntry) (base : Text) (entry : FileEntry) :
    Text :=
  if files.length = 1 ∧ entry.name = [] then fileName platform base else entry.name

/-- Pack a chunk: compressed if the source is a file, its name does not say that
it is compressed already, and the result is shorter. -/
def packChunk (plan : ReadPlan) (name : Option Text) (data : Bytes) : Bytes × Bool :=
  match name with
  | some name =>
      let tmp := compress plan.zstdCompress data
      if !isCompressedFile name ∧ tmp.length < data.length then (tmp, true) else (data, false)
  | none => (data, false)

/-- The part of `read` that reads the stream and packs what it got. -/
def readChunk (store : Store) (plan : ReadPlan) (job : TransferJob)
    (name : Option Text) : Except JobError (Option FileTransferBlock) × TransferJob :=
  match job.dataStream with
  | none => (.error .dataStreamIsNone, job)
  | some stream =>
      match stream.read store plan.pieces with
      | .error error => (.error error, job.nextFile)
      | .ok (data, stream) =>
          if data = [] then
            match name with
            | none => (.ok none, { job with dataStream := none })
            | some _ =>
                (.ok (some { id := job.id, fileNum := job.fileNum, data := [], compressed := false }),
                  job.nextFile)
          else
            let (packed, compressed) := packChunk plan name data
            (.ok (some
              { id := job.id, fileNum := job.fileNum, data := packed, compressed := compressed }),
              { job with
                dataStream := some stream
                finishedSize := job.finishedSize + data.length
                transferred := job.transferred + packed.length })

def read (store : Store) (plan : ReadPlan) (job : TransferJob) :
    Except JobError (Option FileTransferBlock) × TransferJob :=
  if job.type = .generic ∧ job.enableOverwriteDetection ∧ !job.fileConfirmed then (.ok none, job)
  else
    match job.dataSource with
    | .memoryCursor _ => job.readChunk store plan none
    | .filePath base =>
        match job.currentFile with
        | none => (.ok none, { job with dataStream := none })
        | some entry =>
            job.readChunk store plan (some (chunkName store.platform job.files base entry))

end TransferJob

/-- `init_jobs`, with the messages sent. The jobs are numbered for the plans. -/
def initJobs (store : Store) (plan : Nat → ReadPlan) :
    Nat → List TransferJob → List JobMessage × List TransferJob
  | _, [] => ([], [])
  | i, job :: jobs =>
      let (later, rest) := initJobs store plan (i + 1) jobs
      if job.isLastJob then (later, job :: rest)
      else
        match job.initDataStream store (plan i) with
        | (.error error, job) => (.error job.id error job.fileNum :: later, job :: rest)
        | (.ok none, job) => (later, job :: rest)
        | (.ok (some digest), job) => (.digest digest :: later, job :: rest)

/-- What a turn of `handle_read_jobs` does with the one job it reads: the
messages, the job, and whether it is finished. -/
def readJob (store : Store) (plan : ReadPlan) (job : TransferJob) :
    List JobMessage × TransferJob × Bool :=
  match job.read store plan with
  | (.error error, job) => ([.error job.id error job.fileNum], job, false)
  | (.ok (some block), job) => ([.block block], job, false)
  | (.ok none, job) =>
      if job.jobCompleted then
        match job.jobError with
        | some error => ([.error job.id error job.fileNum], job, true)
        | none => ([.done job.id job.fileNum], job, true)
      else ([], job, false)

/-- Read the first job that is not left over from an earlier run. The job comes
back as well if it is finished. -/
def readFirst (store : Store) (plan : Nat → ReadPlan) :
    Nat → List TransferJob → List JobMessage × List TransferJob × Option TransferJob
  | _, [] => ([], [], none)
  | i, job :: jobs =>
      if job.isLastJob then
        let (messages, rest, finished) := readFirst store plan (i + 1) jobs
        (messages, job :: rest, finished)
      else
        let (messages, job, finished) := readJob store (plan i) job
        (messages, job :: jobs, if finished then some job else none)

/-- `handle_read_jobs`: the messages, the jobs that go on, and the job that is
put in `finished`. -/
def handleReadJobs (store : Store) (plan : Nat → ReadPlan) (jobs : List TransferJob) :
    List JobMessage × List TransferJob × Option TransferJob :=
  let (opened, jobs) := initJobs store plan 0 jobs
  let (messages, jobs, finished) := readFirst store plan 0 jobs
  (opened ++ messages,
    match finished with
    | some job => (removeJob job.id jobs).2
    | none => jobs,
    finished)

end HibtDesk.FileTransfer
