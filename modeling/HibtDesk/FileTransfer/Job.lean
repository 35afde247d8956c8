import Mathlib.Algebra.Order.Ring.Int
import Mathlib.Tactic.SplitIfs
import HibtDesk.Connection.Messages
import HibtDesk.Library.Disk
import HibtDesk.Library.Path

/-! Transfer jobs: the data of a job, the disk it works on, and the small
functions both directions share. Paths and file names are texts, read the way
the platform reads them; the disk is keyed by where a path leads. -/
namespace HibtDesk.FileTransfer

open Lexical (Text Platform)
open Storage (Disk)

structure FileEntry where
  name : Text
  size : Nat
  modifiedTime : Nat
  deriving DecidableEq, Repr

inductive DataSource where
  | filePath (path : Text)
  | memoryCursor (data : Bytes)
  deriving DecidableEq, Repr

/-- An open file: the file itself, the position in it, and what it was opened for. -/
structure Handle where
  node : Nat
  pos : Nat
  writable : Bool
  deriving DecidableEq, Repr

inductive DataStream where
  | fileStream (file : Handle)
  | bufStream (data : Bytes) (pos : Nat)
  deriving DecidableEq, Repr

structure FileDigest where
  size : Nat
  modified : Nat
  deriving DecidableEq, Repr

/-- `TransferJob`. File numbers are signed; sizes and counts stay far below
their 64 bits. -/
structure TransferJob where
  id : Int
  type : JobType
  remote : Text
  dataSource : DataSource
  showHidden : Bool
  isRemote : Bool
  isLastJob : Bool
  isResume : Bool
  fileNum : Int
  files : List FileEntry
  dataStream : Option DataStream
  totalSize : Nat
  finishedSize : Nat
  transferred : Nat
  enableOverwriteDetection : Bool
  fileConfirmed : Bool
  fileSkipped : Bool
  fileIsWaiting : Bool
  defaultOverwriteStrategy : Option Bool
  digest : FileDigest
  deriving DecidableEq, Repr

structure FileTransferBlock where
  id : Int
  fileNum : Int
  data : Bytes
  compressed : Bool
  deriving DecidableEq, Repr

structure FileTransferDigest where
  id : Int
  fileNum : Int
  lastModified : Nat
  fileSize : Nat
  isUpload : Bool
  isIdentical : Bool
  transferredSize : Nat
  isResume : Bool
  deriving DecidableEq, Repr

inductive ConfirmUnion where
  | skip (skip : Bool)
  | offsetBlk (offset : Nat)
  deriving DecidableEq, Repr

structure FileTransferSendConfirmRequest where
  id : Int
  fileNum : Int
  union : Option ConfirmUnion
  deriving DecidableEq, Repr

/-- The errors jobs stop with, named by their texts. -/
inductive JobError where
  | wrongId
  | wrongFileNumber
  | dataStreamIsNone
  | fileIsNone
  | noDigestForBufStream
  /-- An error of the operating system. -/
  | io
  | skipped
  deriving DecidableEq, Repr

/-- `file_num as usize`: a negative number turns into one beyond every list. -/
def asUsize (fileNum : Int) : Nat :=
  if fileNum < 0 then (fileNum + 18446744073709551616).toNat else fileNum.toNat

@[simp] theorem asUsize_natCast (n : Nat) : asUsize (n : Int) = n := by
  unfold asUsize
  rw [if_neg (by omega), Int.toNat_natCast]

/-- What the program does to files, in the order it does it. -/
inductive FileOp where
  | removeFile (path : Text)
  | rename (source target : Text)
  | setFileMtime (path : Text)
  /-- `create_dir_all` on the parent of the path. -/
  | createParents (path : Text)
  | create (path : Text)
  | write (path : Text)
  deriving DecidableEq, Repr

/-- Times of files are in nanoseconds, those of entries and digests in seconds. -/
def nanosPerSec : Nat := 1000000000

/-- The disk, with the operations on it so far. -/
structure Store where
  platform : Platform
  disk : Disk Lexical.Platform.Location UInt8
  ops : List FileOp

namespace Store

def content (store : Store) (path : Text) : Option Bytes :=
  store.disk.content (store.platform.location path)

def pathExists (store : Store) (path : Text) : Bool :=
  store.disk.isThere (store.platform.location path)

def log (store : Store) (op : FileOp) : Store := { store with ops := store.ops ++ [op] }

/-- `std::fs::remove_file`; it fails if there is no such file. -/
def removeFile (store : Store) (path : Text) : Store :=
  { store.log (.removeFile path) with disk := store.disk.remove (store.platform.location path) }

/-- `std::fs::rename`. -/
def rename (store : Store) (source target : Text) : Store :=
  { store.log (.rename source target) with
    disk := store.disk.rename (store.platform.location source) (store.platform.location target) }

/-- `filetime::set_file_mtime`, to a whole second. -/
def setFileMtime (store : Store) (path : Text) (seconds : Nat) : Store :=
  { store.log (.setFileMtime path) with
    disk := store.disk.setModified (store.platform.location path) (seconds * nanosPerSec) }

/-- `File::create`. -/
def create (store : Store) (path : Text) (now : Nat) : Store × Handle :=
  let (disk, node) := store.disk.create (store.platform.location path) now
  ({ store.log (.create path) with disk := disk }, { node := node, pos := 0, writable := true })

/-- `std::fs::write`. -/
def put (store : Store) (path : Text) (data : Bytes) (now : Nat) : Store :=
  { store.log (.write path) with
    disk := store.disk.put (store.platform.location path) data now }

end Store

/-- The time, and what a receiving job uses from outside: the decompressor and
the encoding of digests. -/
structure Env where
  now : Nat
  zstdDecodeAll : Bytes → Option Bytes
  digestToJson : FileDigest → Bytes
  digestFromJson : Bytes → Option FileDigest

/-- `compress`: empty if the compressor fails. -/
def compress (zstdCompress : Bytes → Option Bytes) (data : Bytes) : Bytes :=
  (zstdCompress data).getD []

/-- `decompress`: empty if the data is not what the compressor makes. -/
def decompress (env : Env) (data : Bytes) : Bytes := (env.zstdDecodeAll data).getD []

def download (path : Text) : Text := path ++ ".download".toList

def digestPath (path : Text) : Text := path ++ ".digest".toList

theorem plain_download (platform : Platform) : platform.Plain ".download".toList := by
  cases platform <;> exact ⟨by simp [Lexical.Platform.isSep], by decide, by decide⟩

theorem plain_digest (platform : Platform) : platform.Plain ".digest".toList := by
  cases platform <;> exact ⟨by simp [Lexical.Platform.isSep], by decide, by decide⟩

/-- An unfinished file never takes the place of a digest. -/
theorem location_download_ne_digest (platform : Platform) (path other : Text) :
    platform.location (download path) ≠ platform.location (digestPath other) := by
  apply Lexical.Platform.location_append_ne (plain_download platform) (plain_digest platform)
  intro first second hSame
  have hLast := congrArg List.getLast? hSame
  simp at hLast

/-- `get_ext`. -/
def getExt (name : Text) : Text :=
  if '.' ∈ name then (name.reverse.takeWhile (· ≠ '.')).reverse else []

def isCompressedFile (name : Text) : Bool :=
  ["xz", "gz", "zip", "7z", "rar", "bz2", "tgz", "png", "jpg"].any fun ext =>
    getExt name == ext.toList

namespace TransferJob

/-- `TransferJob::join`. -/
def join (platform : Platform) (path name : Text) : Text :=
  if name.isEmpty then path else platform.join path name

def newWrite (id : Int) (type : JobType) (remote : Text) (dataSource : DataSource) (fileNum : Int)
    (showHidden isRemote : Bool) (files : List FileEntry) (enableOverwriteDetection : Bool) :
    TransferJob where
  id := id
  type := type
  remote := remote
  dataSource := dataSource
  showHidden := showHidden
  isRemote := isRemote
  isLastJob := false
  isResume := false
  fileNum := fileNum
  files := files
  dataStream := none
  totalSize := (files.map FileEntry.size).sum
  finishedSize := 0
  transferred := 0
  enableOverwriteDetection := enableOverwriteDetection
  fileConfirmed := false
  fileSkipped := false
  fileIsWaiting := false
  defaultOverwriteStrategy := none
  digest := { size := 0, modified := 0 }

/-- `new_read`, with the files the directory of a `FilePath` source was found to hold. -/
def newRead (id : Int) (type : JobType) (remote : Text) (dataSource : DataSource) (fileNum : Int)
    (showHidden isRemote : Bool) (found : List FileEntry) (enableOverwriteDetection : Bool) :
    TransferJob :=
  match dataSource with
  | .filePath _ =>
      newWrite id type remote dataSource fileNum showHidden isRemote found enableOverwriteDetection
  | .memoryCursor data =>
      { newWrite id type remote dataSource fileNum showHidden isRemote []
          enableOverwriteDetection with totalSize := data.length }

def setFiles (job : TransferJob) (files : List FileEntry) : TransferJob :=
  { job with files := files }

def setDigest (job : TransferJob) (size modified : Nat) : TransferJob :=
  { job with digest := { size := size, modified := modified } }

/-- The file the job is at, if its number is one of the list's. -/
def currentFile (job : TransferJob) : Option FileEntry := job.files[asUsize job.fileNum]?

def setFinishedSizeOnResume (job : TransferJob) : TransferJob :=
  if job.isResume ∧ job.fileNum > 0 then
    { job with
      finishedSize := ((job.files.take (asUsize job.fileNum)).map FileEntry.size).sum }
  else job

def setOverwriteStrategy (job : TransferJob) (strategy : Option Bool) : TransferJob :=
  { job with defaultOverwriteStrategy := strategy }

def setFileConfirmed (job : TransferJob) (fileConfirmed : Bool) : TransferJob :=
  { job with fileConfirmed := fileConfirmed, fileSkipped := false }

def setFileIsWaiting (job : TransferJob) (fileIsWaiting : Bool) : TransferJob :=
  { job with fileIsWaiting := fileIsWaiting }

def setFileSkipped (job : TransferJob) : TransferJob :=
  let job := ({ job with dataStream := none }.setFileConfirmed false).setFileIsWaiting false
  { job with fileNum := job.fileNum + 1, fileSkipped := true }

def jobSkipped (job : TransferJob) : Bool := job.fileSkipped && job.files.length == 1

def jobCompleted (job : TransferJob) : Bool :=
  !job.enableOverwriteDetection || (!job.fileConfirmed && !job.fileIsWaiting)

def jobError (job : TransferJob) : Option JobError :=
  if job.jobSkipped then some .skipped else none

end TransferJob

/-- `remove_job`. -/
def removeJob (id : Int) (jobs : List TransferJob) : Option TransferJob × List TransferJob :=
  (jobs.find? (·.id == id), jobs.eraseP (·.id == id))

/-- `get_job`. -/
def getJob (id : Int) (jobs : List TransferJob) : Option TransferJob := jobs.find? (·.id == id)

/-- Put a job back where `get_job` found it. -/
def putJob (id : Int) (job : TransferJob) : List TransferJob → List TransferJob
  | [] => []
  | first :: jobs => if first.id == id then job :: jobs else first :: putJob id job jobs

end HibtDesk.FileTransfer
