import HibtDesk.FileTransfer.Job

/-! The receiving side of a job: blocks are written to a file next to the
destination, which takes the destination's place when the job moves on. -/
namespace HibtDesk.FileTransfer

open Lexical (Text Platform)

/-- The operations of one call that the operating system refuses. -/
structure WriteFaults where
  removeDigest : Bool
  rename : Bool
  setMtime : Bool
  sync : Bool
  removeStale : Bool
  create : Bool
  writeDigest : Bool
  /-- The number of bytes written before `write_all` fails. -/
  writeAll : Option Nat
  deriving DecidableEq, Repr

/-- Nothing fails. -/
def WriteFaults.none : WriteFaults :=
  { removeDigest := false, rename := false, setMtime := false, sync := false,
    removeStale := false, create := false, writeDigest := false, writeAll := .none }

/-- What a block stands for once it is unpacked. -/
def FileTransferBlock.payload (env : Env) (block : FileTransferBlock) : Bytes :=
  if block.compressed then decompress env block.data else block.data

namespace TransferJob

/-- `modify_time`. Each operation is tried whatever became of those before it. -/
def modifyTime (faults : WriteFaults) (job : TransferJob) (store : Store) : Store :=
  match job.type, job.dataSource, job.currentFile with
  | .generic, .filePath base, some entry =>
      let path := join store.platform base entry.name
      let store := if faults.removeDigest then store else store.removeFile (digestPath path)
      let store := if faults.rename then store else store.rename (download path) path
      if faults.setMtime then store else store.setFileMtime path entry.modifiedTime
  | _, _, _ => store

def removeDownloadFile (job : TransferJob) (store : Store) : Store :=
  match job.type, job.dataSource, job.currentFile with
  | .generic, .filePath base, some entry =>
      let path := join store.platform base entry.name
      (store.removeFile (download path)).removeFile (digestPath path)
  | _, _, _ => store

/-- The files a job of this type writes for an entry: the stream, and the digest
if it keeps one. -/
def streamPaths (platform : Platform) (job : TransferJob) (base : Text) (entry : FileEntry) :
    Text × Option Text :=
  match job.type with
  | .printer => (base, none)
  | .generic =>
      let path := join platform base entry.name
      (download path, some (digestPath path))

/-- Remove the digest if it is there. -/
def clearDigest (store : Store) (digest : Option Text) : Store :=
  if digest.any store.pathExists then digest.elim store store.removeFile else store

/-- Write the digest of the job next to its stream. -/
def noteDigest (env : Env) (faults : WriteFaults) (job : TransferJob) (store : Store)
    (digest : Option Text) : Store :=
  if faults.writeDigest then store
  else digest.elim store fun path => store.put path (env.digestToJson job.digest) env.now

/-- Create the stream and note the digest, removing a digest that is there. -/
def createStream (env : Env) (faults : WriteFaults) (job : TransferJob) (store : Store)
    (path : Text) (digest : Option Text) : Except JobError Unit × Store × TransferJob :=
  if digest.any store.pathExists && faults.removeStale then (.error .io, store, job)
  else
    let store := clearDigest store digest
    if faults.create then (.error .io, store, job)
    else
      let (store, file) := store.create path env.now
      (.ok (), job.noteDigest env faults store digest,
        { job with dataStream := some (.fileStream file) })

/-- The job has a file open. -/
def streaming (job : TransferJob) : Bool :=
  match job.dataStream with
  | some (.fileStream _) => true
  | _ => false

/-- The part of `write` that moves on to the block's file. -/
def moveOn (env : Env) (faults : WriteFaults) (job : TransferJob) (store : Store) (base : Text)
    (fileNum : Int) (entry : FileEntry) : Except JobError Unit × Store × TransferJob :=
  let store := job.modifyTime faults store
  if job.streaming && faults.sync then (.error .io, store, job)
  else
    let job := { job with fileNum := fileNum }
    let (path, digest) := job.streamPaths store.platform base entry
    let store :=
      match job.type with
      | .printer => store
      | .generic => store.log (.createParents (join store.platform base entry.name))
    job.createStream env faults store path digest

/-- The part of `write` that makes sure there is a stream for the block. -/
def ensureStream (env : Env) (faults : WriteFaults) (job : TransferJob) (store : Store)
    (block : FileTransferBlock) : Except JobError Unit × Store × TransferJob :=
  match job.dataSource with
  | .filePath base =>
      match job.files[asUsize block.fileNum]? with
      | none => (.error .wrongFileNumber, store, job)
      | some entry =>
          if asUsize block.fileNum ≠ asUsize job.fileNum ∨ job.dataStream = none then
            job.moveOn env faults store base block.fileNum entry
          else (.ok (), store, job)
  | .memoryCursor data =>
      match job.dataStream with
      | none => (.ok (), store, { job with dataStream := some (.bufStream data 0) })
      | some _ => (.ok (), store, job)

/-- `write_all` on the stream. A file that was opened for reading takes nothing. -/
def writeAll (env : Env) (faults : WriteFaults) (store : Store) (stream : DataStream)
    (data : Bytes) : Except JobError Unit × Store × DataStream :=
  match stream with
  | .bufStream buffer pos =>
      (.ok (), store, .bufStream (Storage.overwrite 0 buffer pos data) (pos + data.length))
  | .fileStream file =>
      if !file.writable then (.error .io, store, stream)
      else
        let written :=
          match faults.writeAll with
          | none => data
          | some count => data.take count
        let disk := store.disk.write 0 file.node file.pos written env.now
        let stream := .fileStream { file with pos := file.pos + written.length }
        if faults.writeAll.isSome then (.error .io, { store with disk := disk }, stream)
        else (.ok (), { store with disk := disk }, stream)

/-- The part of `write` that writes the block. -/
def writeBlock (env : Env) (faults : WriteFaults) (job : TransferJob) (store : Store)
    (block : FileTransferBlock) : Except JobError Unit × Store × TransferJob :=
  match job.dataStream with
  | none =>
      (.error (if block.compressed then .dataStreamIsNone else .fileIsNone), store, job)
  | some stream =>
      match writeAll env faults store stream (block.payload env) with
      | (.error error, store, stream) =>
          (.error error, store, { job with dataStream := some stream })
      | (.ok (), store, stream) =>
          (.ok (), store,
            { job with
              dataStream := some stream
              finishedSize := job.finishedSize + (block.payload env).length
              transferred := job.transferred + block.data.length })

def write (env : Env) (faults : WriteFaults) (job : TransferJob) (store : Store)
    (block : FileTransferBlock) : Except JobError Unit × Store × TransferJob :=
  if block.id ≠ job.id then (.error .wrongId, store, job)
  else
    match job.ensureStream env faults store block with
    | (.error error, store, job) => (.error error, store, job)
    | (.ok (), store, job) => job.writeBlock env faults store block

end TransferJob

end HibtDesk.FileTransfer
