import HibtDesk.FileTransfer.Confirm
import HibtDesk.FileTransfer.Write

/-! The client's side of file transfers: what its user asks for, and what it does
with the answers of the peer. The list of files of a receiving job is whatever
the peer says it is. -/
namespace HibtDesk.FileTransfer

open Lexical (Text Platform)

/-- The answers of a peer to requests about files. -/
inductive FileResponse where
  | dir (id : Int) (entries : List FileEntry)
  | job (message : JobMessage)

/-- How the operating system behaves while a message is handled. -/
structure IoPlan where
  env : Env
  write : WriteFaults
  seek : SeekFaults
  /-- The files a digest is compared with cannot be read. -/
  digestFails : Bool

structure Client where
  store : Store
  peerIsWindows : Bool
  /-- `is_support_file_transfer_resume_num` of the peer's version. -/
  supportsResume : Bool
  /-- `can_enable_overwrite_detection` of the peer's version. -/
  overwriteDetection : Bool
  writeJobs : List TransferJob
  readJobs : List TransferJob

/-- What the client sends to the peer, or asks its user. -/
inductive ClientMessage where
  | send (id : Int) (type : JobType) (path : Text) (fileNum : Int) (includeHidden : Bool)
  | receive (id : Int) (path : Text) (fileNum : Int) (files : List FileEntry) (totalSize : Nat)
  | sendConfirm (r : FileTransferSendConfirmRequest)
  | cancel (id : Int)
  | overrideFileConfirm (id fileNum : Int) (path : Text) (isUpload isIdentical : Bool)
  | jobStatus (id fileNum : Int) (error : Option JobError)
  deriving DecidableEq, Repr

/-- `transform_windows_path`. -/
def transformWindowsPath (entries : List FileEntry) : List FileEntry :=
  entries.map fun entry =>
    { entry with name := entry.name.map fun c => if c = '\\' then '/' else c }

/-- `as u32`. -/
def asU32 (n : Nat) : Nat := n % 4294967296

/-- `confirm` where it cannot panic. -/
def TransferJob.confirmed (store : Store) (faults : SeekFaults) (job : TransferJob)
    (r : FileTransferSendConfirmRequest) : TransferJob :=
  (job.confirm store faults r).getD job

/-- The answer to a digest that the strategy of the job, or an unfinished file,
decides; the user decides the others. -/
def strategyAnswer (job : TransferJob) (digest : FileTransferDigest) :
    Option FileTransferSendConfirmRequest :=
  let resumes := digest.isIdentical && job.isResume && decide (0 < digest.transferredSize)
  let strategy := if resumes then some true else job.defaultOverwriteStrategy
  let offset := if resumes then asU32 digest.transferredSize else 0
  strategy.map fun overwrite =>
    { id := digest.id
      fileNum := digest.fileNum
      union := some (if overwrite then .offsetBlk offset else .skip true) }

namespace Client

/-- A digest of an unfinished or existing file at the peer, for a sending job. -/
def handleUploadDigest (io : IoPlan) (client : Client) (digest : FileTransferDigest) :
    Client × List ClientMessage :=
  match getJob digest.id client.readJobs with
  | none => (client, [])
  | some job =>
      match job.files[asUsize digest.fileNum]?, job.dataSource with
      | some file, .filePath base =>
          match strategyAnswer job digest with
          | some r =>
              ({ client with
                  readJobs := putJob digest.id (job.confirmed client.store io.seek r) client.readJobs },
                [.sendConfirm r])
          | none =>
              (client,
                [.overrideFileConfirm digest.id digest.fileNum
                  (TransferJob.join client.store.platform base file.name) true digest.isIdentical])
      | _, _ => (client, [])

/-- The answer of a receiving job to the digest of a file the peer is about to
send: the job is told, then the peer. -/
def answer (io : IoPlan) (client : Client) (id : Int) (job : TransferJob)
    (r : FileTransferSendConfirmRequest) : Client × List ClientMessage :=
  ({ client with
      writeJobs := putJob id (job.confirmed client.store io.seek r) client.writeJobs },
    [.sendConfirm r])

def handleDownloadDigest (io : IoPlan) (client : Client) (digest : FileTransferDigest) :
    Client × List ClientMessage :=
  match getJob digest.id client.writeJobs with
  | none => (client, [])
  | some job =>
      match job.files[asUsize digest.fileNum]?, job.dataSource with
      | some file, .filePath base =>
          let writePath := TransferJob.join client.store.platform base file.name
          let job := job.setDigest digest.fileSize digest.lastModified
          let client := { client with writeJobs := putJob digest.id job client.writeJobs }
          if io.digestFails then (client, [])
          else
            match isWriteNeedConfirmation io.env client.store
                (client.supportsResume && job.isResume) writePath digest with
            | .isSame =>
                client.answer io digest.id job
                  { id := digest.id, fileNum := digest.fileNum, union := some (.skip true) }
            | .needConfirm found =>
                match strategyAnswer job found with
                | some r => client.answer io digest.id job r
                | none =>
                    (client,
                      [.overrideFileConfirm found.id found.fileNum writePath false
                        found.isIdentical])
            | .noSuchFile =>
                client.answer io digest.id job
                  { id := digest.id, fileNum := digest.fileNum, union := some (.offsetBlk 0) }
      | _, _ => (client, [])

/-- The entries of a list as the client takes them. -/
def entriesFromPeer (client : Client) (entries : List FileEntry) : List FileEntry :=
  if client.store.platform = .unix ∧ client.peerIsWindows then transformWindowsPath entries
  else entries

/-- `FileResponse` in `handle_msg_from_peer`. -/
def handleFileResponse (io : IoPlan) (client : Client) :
    FileResponse → Client × List ClientMessage
  | .dir id entries =>
      match getJob id client.writeJobs with
      | some job =>
          let job := (job.setFiles (client.entriesFromPeer entries)).setFinishedSizeOnResume
          ({ client with writeJobs := putJob id job client.writeJobs }, [])
      | none => (client, [])
  | .job (.digest digest) =>
      if digest.isUpload then client.handleUploadDigest io digest
      else client.handleDownloadDigest io digest
  | .job (.block block) =>
      match getJob block.id client.writeJobs with
      | some job =>
          let (_, store, job) := job.write io.env io.write client.store block
          ({ client with store := store, writeJobs := putJob block.id job client.writeJobs }, [])
      | none => (client, [])
  | .job (.done id fileNum) =>
      match removeJob id client.writeJobs with
      | (some job, rest) =>
          ({ client with store := job.modifyTime io.write client.store, writeJobs := rest },
            [.jobStatus id fileNum job.jobError])
      | (none, _) => (client, [.jobStatus id fileNum none])
  | .job (.error id error fileNum) =>
      match removeJob id client.writeJobs with
      | (some _, rest) =>
          ({ client with writeJobs := rest }, [.jobStatus id fileNum (some error)])
      | (none, _) =>
          ({ client with readJobs := (removeJob id client.readJobs).2 },
            [.jobStatus id fileNum (some error)])

/-- What the user asks for. -/
inductive Request where
  /-- `SendFiles`, with the files a sending job finds. -/
  | sendFiles (id : Int) (type : JobType) (path target : Text) (fileNum : Int)
      (includeHidden isRemote : Bool) (found : List FileEntry)
  | addJob (id : Int) (type : JobType) (path target : Text) (fileNum : Int)
      (includeHidden isRemote : Bool) (found : List FileEntry)
  | resumeJob (id : Int) (isRemote : Bool)
  | setConfirmOverrideFile (id fileNum : Int) (needOverride remember isUpload : Bool)
  | cancelJob (id : Int)

/-- The list of a sending job as the peer is told. -/
def filesForPeer (client : Client) (files : List FileEntry) : List FileEntry :=
  if client.store.platform = .windows ∧ !client.peerIsWindows then transformWindowsPath files
  else files

def resume (client : Client) (id : Int) (isRemote : Bool) : Client × List ClientMessage :=
  if isRemote then
    match getJob id client.writeJobs with
    | some job =>
        ({ client with
            writeJobs := putJob id { job with isLastJob := false, isResume := true }
              client.writeJobs },
          [.send id .generic job.remote job.fileNum job.showHidden])
    | none => (client, [])
  else
    match getJob id client.readJobs with
    | some job =>
        match job.dataSource with
        | .filePath _ =>
            let job := { job with isLastJob := false, isResume := true }.setFinishedSizeOnResume
            ({ client with readJobs := putJob id job client.readJobs },
              [.receive id job.remote job.fileNum (client.filesForPeer job.files) job.totalSize])
        | .memoryCursor _ => (client, [])
    | none => (client, [])

def setConfirmOverrideFile (io : IoPlan) (client : Client) (id fileNum : Int)
    (needOverride remember isUpload : Bool) : Client × List ClientMessage :=
  let r : FileTransferSendConfirmRequest :=
    { id := id
      fileNum := fileNum
      union := some (if needOverride then .offsetBlk 0 else .skip true) }
  let told (job : TransferJob) : TransferJob :=
    (if remember then job.setOverwriteStrategy (some needOverride) else job).confirmed client.store
      io.seek r
  if isUpload then
    match getJob id client.readJobs with
    | some job => ({ client with readJobs := putJob id (told job) client.readJobs }, [])
    | none => (client, [])
  else
    match getJob id client.writeJobs with
    | some job =>
        ({ client with writeJobs := putJob id (told job) client.writeJobs }, [.sendConfirm r])
    | none => (client, [])

/-- `handle_msg_from_ui`, the requests about transfers. -/
def handleRequest (io : IoPlan) (client : Client) : Request → Client × List ClientMessage
  | .sendFiles id type path target fileNum includeHidden true _ =>
      let source :=
        match type with
        | .generic => DataSource.filePath target
        | .printer => DataSource.memoryCursor []
      ({ client with
          writeJobs := client.writeJobs ++
            [.newWrite id type path source fileNum includeHidden true []
              client.overwriteDetection] },
        [.send id type path fileNum includeHidden])
  | .sendFiles id type path target fileNum includeHidden false found =>
      let job := TransferJob.newRead id type target (.filePath path) fileNum includeHidden false found
        client.overwriteDetection
      ({ client with readJobs := client.readJobs ++ [job] },
        [.receive id target fileNum (client.filesForPeer job.files) job.totalSize])
  | .addJob id type path target fileNum includeHidden true _ =>
      let job := TransferJob.newWrite id type path (.filePath target) fileNum includeHidden true []
        client.overwriteDetection
      ({ client with writeJobs := client.writeJobs ++ [{ job with isLastJob := true }] }, [])
  | .addJob id type path target fileNum includeHidden false found =>
      let job := TransferJob.newRead id type target (.filePath path) fileNum includeHidden false found
        client.overwriteDetection
      ({ client with readJobs := client.readJobs ++ [{ job with isLastJob := true }] }, [])
  | .resumeJob id isRemote => client.resume id isRemote
  | .setConfirmOverrideFile id fileNum needOverride remember isUpload =>
      client.setConfirmOverrideFile io id fileNum needOverride remember isUpload
  | .cancelJob id =>
      match removeJob id client.writeJobs with
      | (some job, rest) =>
          ({ client with
              store := job.removeDownloadFile client.store
              writeJobs := rest
              readJobs := (removeJob id client.readJobs).2 }, [.cancel id])
      | (none, _) =>
          ({ client with readJobs := (removeJob id client.readJobs).2 }, [.cancel id])

end Client

end HibtDesk.FileTransfer
