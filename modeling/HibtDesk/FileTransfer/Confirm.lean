import HibtDesk.FileTransfer.Read

/-! What an answer to a digest does to a job: the file is skipped, sent from its
start, or sent from an offset on. The same answer is given to both ends. -/
namespace HibtDesk.FileTransfer

open Lexical (Text Platform)

/-- What of `set_stream_offset` the operating system refuses. -/
structure SeekFaults where
  openFails : Bool
  seekFails : Bool
  deriving DecidableEq, Repr

/-- Nothing fails. -/
def SeekFaults.none : SeekFaults := { openFails := false, seekFails := false }

namespace TransferJob

/-- The file `set_stream_offset` opens for an entry: the unfinished one if there
is a digest with it, else the file itself. -/
def offsetHandle (store : Store) (path : Text) (offset : Nat) : Option Handle :=
  let handle (path : Text) (writable : Bool) : Option Handle :=
    (store.disk.node (store.platform.location path)).map fun node =>
      { node := node, pos := offset, writable := writable }
  if store.pathExists (download path) && store.pathExists (digestPath path) then
    handle (download path) true
  else handle path false

/-- `set_stream_offset`. A number that is not one of the list's makes it panic. -/
def setStreamOffset (store : Store) (faults : SeekFaults) (job : TransferJob) (fileNum offset : Nat) :
    Option TransferJob :=
  match job.dataSource with
  | .memoryCursor _ => some job
  | .filePath base =>
      match job.files[fileNum]? with
      | none => none
      | some entry =>
          let path := join store.platform base entry.name
          if faults.openFails || faults.seekFails then some job
          else
            match offsetHandle store path offset with
            | none => some job
            | some file =>
                some
                  { job with
                    dataStream := some (.fileStream file)
                    transferred := job.transferred + offset
                    finishedSize := job.finishedSize + offset }

/-- `confirm`, unless it panics. -/
def confirm (store : Store) (faults : SeekFaults) (job : TransferJob)
    (r : FileTransferSendConfirmRequest) : Option TransferJob :=
  if job.fileNum ≠ r.fileNum then some job
  else
    match r.union with
    | some (.skip true) => some job.setFileSkipped
    | some (.skip false) => some (job.setFileConfirmed true)
    | some (.offsetBlk offset) =>
        let job := job.setFileConfirmed true
        if 0 < offset then job.setStreamOffset store faults (asUsize r.fileNum) offset
        else some job
    | none => some job

end TransferJob

inductive DigestCheckResult where
  | isSame
  | needConfirm (digest : FileTransferDigest)
  | noSuchFile
  deriving DecidableEq, Repr

/-- The digest `is_write_need_confirmation` answers with if an unfinished file of
the same source is there. -/
def resumable (env : Env) (store : Store) (filePath : Text) (digest : FileTransferDigest) :
    Option FileTransferDigest :=
  match store.content (digestPath filePath), store.content (download filePath) with
  | some content, some unfinished =>
      match env.digestFromJson content with
      | some local' =>
          if local'.modified = digest.lastModified ∧ local'.size = digest.fileSize ∧
              0 < unfinished.length then
            some
              { id := digest.id
                fileNum := digest.fileNum
                lastModified := digest.lastModified
                fileSize := digest.fileSize
                isUpload := false
                isIdentical := true
                transferredSize := unfinished.length
                isResume := false }
          else none
      | none => none
  | _, _ => none

/-- `is_write_need_confirmation`, if all files can be read. -/
def isWriteNeedConfirmation (env : Env) (store : Store) (isResume : Bool) (filePath : Text)
    (digest : FileTransferDigest) : DigestCheckResult :=
  match if isResume then resumable env store filePath digest else none with
  | some found => .needConfirm found
  | none =>
      match store.disk.lookup (store.platform.location filePath) with
      | some file =>
          .needConfirm
            { id := digest.id
              fileNum := digest.fileNum
              lastModified := file.modified / nanosPerSec
              fileSize := file.content.length
              isUpload := false
              isIdentical :=
                digest.lastModified * nanosPerSec == file.modified &&
                  digest.fileSize == file.content.length
              transferredSize := 0
              isResume := false }
      | none => .noSuchFile

end HibtDesk.FileTransfer
