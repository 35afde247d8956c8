import HibtDesk.FileTransfer.Confirm
import HibtDesk.FileTransfer.Write

/-! The receiving jobs of the connection manager, to which the server passes on
what a client sends about files. -/
namespace HibtDesk.FileTransfer

open Lexical (Text Platform)

/-- The requests of `ipc::FS` about receiving jobs. -/
inductive FS where
  | newWrite (path : Text) (id fileNum : Int) (files : List (Text × Nat))
      (overwriteDetection : Bool) (totalSize : Nat)
  | cancelWrite (id : Int)
  | writeDone (id fileNum : Int)
  | writeError (id fileNum : Int) (error : JobError)
  | writeBlock (id fileNum : Int) (data : Bytes) (compressed : Bool)
  | checkDigest (id fileNum : Int) (fileSize lastModified : Nat) (isUpload isResume : Bool)
  | sendConfirm (r : FileTransferSendConfirmRequest)

/-- What the server makes of a message about a job. -/
def FS.ofMessage : JobMessage → FS
  | .block block => .writeBlock block.id block.fileNum block.data block.compressed
  | .done id fileNum => .writeDone id fileNum
  | .digest digest =>
      .checkDigest digest.id digest.fileNum digest.fileSize digest.lastModified true digest.isResume
  | .error id error fileNum => .writeError id fileNum error

/-- The reasons for which a list of names is refused. -/
inductive NameError where
  | nullBytes
  | pathTraversal
  | absolutePath
  | emptyName
  deriving DecidableEq, Repr

/-- `validate_file_name_no_traversal`. -/
def validateFileNameNoTraversal (platform : Platform) (name : Text) : Except NameError Unit :=
  if '\x00' ∈ name then .error .nullBytes
  else if ['.', '.'] ∈ name.splitOnP (fun c => c == '/' || c == '\\') then .error .pathTraversal
  else if platform.opensDrive name then .error .absolutePath
  else if name.head?.any (fun c => c == '/' || c == '\\') then .error .absolutePath
  else .ok ()

def isSingleFileWithEmptyName (files : List (Text × Nat)) : Bool :=
  files.length == 1 && files.head?.any fun file => file.1.isEmpty

/-- `validate_transfer_file_names`. -/
def validateTransferFileNames (platform : Platform) (files : List (Text × Nat)) :
    Except NameError Unit :=
  if isSingleFileWithEmptyName files then .ok ()
  else
    files.forM fun file =>
      if file.1.isEmpty then .error .emptyName
      else validateFileNameNoTraversal platform file.1

structure Manager where
  store : Store
  writeJobs : List TransferJob

/-- What the manager sends back. -/
inductive ManagerMessage where
  | error (id : Int) (error : JobError ⊕ NameError) (fileNum : Int)
  | done (id fileNum : Int)
  | digest (digest : FileTransferDigest)
  | sendConfirm (r : FileTransferSendConfirmRequest)
  deriving DecidableEq, Repr

namespace Manager

/-- The answer of the manager to the digest of a file that a client is about to send. -/
def checkDigest (env : Env) (digestFails : Bool) (manager : Manager) (id fileNum : Int)
    (fileSize lastModified : Nat) (isUpload isResume : Bool) : Manager × List ManagerMessage :=
  match getJob id manager.writeJobs with
  | none => (manager, [])
  | some job =>
      match job.files[asUsize fileNum]?, job.dataSource with
      | some file, .filePath base =>
          if digestFails then (manager, [.error id (.inl .io) fileNum])
          else
            let digest : FileTransferDigest :=
              { id := id
                fileNum := fileNum
                lastModified := lastModified
                fileSize := fileSize
                isUpload := false
                isIdentical := false
                transferredSize := 0
                isResume := false }
            let result := isWriteNeedConfirmation env manager.store isResume
              (TransferJob.join manager.store.platform base file.name) digest
            ({ manager with
                writeJobs := putJob id (job.setDigest fileSize lastModified) manager.writeJobs },
              match result with
              | .isSame => [.sendConfirm { id := id, fileNum := fileNum, union := some (.skip true) }]
              | .needConfirm found => [.digest { found with isUpload := isUpload }]
              | .noSuchFile =>
                  [.sendConfirm { id := id, fileNum := fileNum, union := some (.offsetBlk 0) }])
      | _, _ => (manager, [])

/-- `handle_fs`, unless it panics. -/
def handleFs (env : Env) (write : WriteFaults) (seek : SeekFaults) (digestFails : Bool)
    (manager : Manager) : FS → Option (Manager × List ManagerMessage)
  | .newWrite path id fileNum files overwriteDetection totalSize =>
      match validateTransferFileNames manager.store.platform files with
      | .error error => some (manager, [.error id (.inr error) fileNum])
      | .ok () =>
          let entries := files.map fun file =>
            ({ name := file.1, size := 0, modifiedTime := file.2 } : FileEntry)
          let job := TransferJob.newWrite id .generic [] (.filePath path) fileNum false false entries
            overwriteDetection
          some
            ({ manager with
                writeJobs := manager.writeJobs ++ [{ job with totalSize := totalSize }] }, [])
  | .cancelWrite id =>
      match removeJob id manager.writeJobs with
      | (some job, rest) =>
          some ({ store := job.removeDownloadFile manager.store, writeJobs := rest }, [])
      | (none, _) => some (manager, [])
  | .writeDone id fileNum =>
      match removeJob id manager.writeJobs with
      | (some job, rest) =>
          some ({ store := job.modifyTime write manager.store, writeJobs := rest },
            [.done id fileNum])
      | (none, _) => some (manager, [])
  | .writeError id fileNum error =>
      match removeJob id manager.writeJobs with
      | (some job, rest) =>
          some ({ manager with writeJobs := rest }, [.error job.id (.inl error) fileNum])
      | (none, _) => some (manager, [])
  | .writeBlock id fileNum data compressed =>
      match getJob id manager.writeJobs with
      | none => some (manager, [])
      | some job =>
          let (result, store, job) := job.write env write manager.store
            { id := id, fileNum := fileNum, data := data, compressed := compressed }
          some ({ store := store, writeJobs := putJob id job manager.writeJobs },
            match result with
            | .ok () => []
            | .error error => [.error id (.inl error) fileNum])
  | .checkDigest id fileNum fileSize lastModified isUpload isResume =>
      some (manager.checkDigest env digestFails id fileNum fileSize lastModified isUpload isResume)
  | .sendConfirm r =>
      match getJob r.id manager.writeJobs with
      | none => some (manager, [])
      | some job =>
          (job.confirm manager.store seek r).map fun job =>
            ({ manager with writeJobs := putJob r.id job manager.writeJobs }, [])

end Manager

end HibtDesk.FileTransfer
