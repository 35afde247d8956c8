import HibtDesk.Clipboard.LocalFile
import HibtDesk.Library.Casts

/-! Serving the contents of the copied files. A peer names a file by its place in the
list and asks for its size or for a range of it. The fields of its request are `i32`s,
and the numbers of 64 bits they stand for are put together again here. -/
namespace HibtDesk.Clipboard

open Lexical (Text)

/-- The request of a peer for the contents of a file. -/
structure ContentsRequest where
  streamId : BitVec 32
  listIndex : BitVec 32
  dwFlags : BitVec 32
  nPositionLow : BitVec 32
  nPositionHigh : BitVec 32
  cbRequested : BitVec 32
  haveClipDataId : Bool
  clipDataId : BitVec 32
  deriving DecidableEq, Repr

/-- What the two sides tell each other about copied files. -/
inductive ClipboardFile where
  | notifyCallback (type title text : String)
  | monitorReady
  | formatList (formatList : List (BitVec 32 × String))
  | formatListResponse (msgFlags : BitVec 32)
  | formatDataRequest (requestedFormatId : BitVec 32)
  | formatDataResponse (msgFlags : BitVec 32) (formatData : Bytes)
  | fileContentsRequest (request : ContentsRequest)
  | fileContentsResponse (msgFlags streamId : BitVec 32) (requestedData : Bytes)
  | tryEmpty
  | files (files : List (Text × Nat))
  deriving DecidableEq, Repr

/-- The request as `read_file_contents` reads it. -/
inductive FileContentsRequest where
  | size (streamId : BitVec 32) (fileIdx : Nat)
  | range (streamId : BitVec 32) (fileIdx offset length : Nat)
  deriving DecidableEq, Repr

structure ClipFiles where
  fileList : List LocalFile
  firstFileIndex : Nat
  deriving DecidableEq, Repr

/-- `a + b` of two `u64`s. In a build without overflow checks it wraps, with them it panics. -/
def addU64 (overflowChecks : Bool) (a b : Nat) : Option Nat :=
  if a + b < 2 ^ 64 then some (a + b)
  else if overflowChecks then none
  else some (a + b - 2 ^ 64)

/-- The eight bytes of `to_le_bytes`. -/
def toLeBytes (n : Nat) : Bytes := (List.range 8).map fun i => UInt8.ofNat (n / 256 ^ i)

/-- Open the next file that is not a directory. -/
def loadNext (fs : FileSystem) : List LocalFile → Except CliprdrError Unit × List LocalFile
  | [] => (.ok (), [])
  | nextFile :: rest =>
      if nextFile.isDir then
        let (result, rest) := loadNext fs rest
        (result, nextFile :: rest)
      else
        let (result, nextFile) := nextFile.loadHandle fs
        (result, nextFile :: rest)

namespace ClipFiles

def getFilesForAudit (fs : FileSystem) (clip : ClipFiles) : FileContentsRequest → Option ClipboardFile
  | .range _ fileIdx offset _ =>
      if fileIdx = clip.firstFileIndex ∧ offset = 0 then
        let files := clip.fileList.filterMap fun f =>
          if fs.isFile f.path then some (f.path, f.size) else none
        if files.isEmpty then none else some (.files files)
      else none
  | .size .. => none

/-- The end of `serve_file_contents`, with the response at hand. -/
def hotReload (fs : FileSystem) (clip : ClipFiles) (fileIdx : Nat) (response : ClipboardFile) :
    Except CliprdrError ClipboardFile × ClipFiles :=
  let (result, rest) := loadNext fs (clip.fileList.drop (fileIdx + 1))
  let clip := { clip with fileList := clip.fileList.take (fileIdx + 1) ++ rest }
  match result with
  | .ok () => (.ok response, clip)
  | .error error => (.error error, clip)

/-- How many bytes a range request reads of a file, unless that overflows. -/
def readSize (overflowChecks : Bool) (file : LocalFile) (offset length : Nat) : Option Nat :=
  (addU64 overflowChecks offset length).map fun last =>
    if file.size < last then file.size - offset else length

/-- `serve_file_contents`. There is no answer if it panics, as it does when the buffer
would be longer than an allocation can be. -/
def serveFileContents (overflowChecks : Bool) (fs : FileSystem) (faults : ReadFaults) (connId : Int)
    (clip : ClipFiles) : FileContentsRequest → Option (Except CliprdrError ClipboardFile) × ClipFiles
  | .size streamId fileIdx =>
      match clip.fileList[fileIdx]? with
      | none =>
          (some (.error (.invalidRequest
            s!"invalid file index {fileIdx} requested from conn: {connId}")), clip)
      | some file =>
          let (result, clip) := clip.hotReload fs fileIdx
            (.fileContentsResponse 1 streamId (toLeBytes file.size))
          (some result, clip)
  | .range streamId fileIdx offset length =>
      match clip.fileList[fileIdx]? with
      | none =>
          (some (.error (.invalidRequest
            s!"invalid file index {fileIdx} requested from conn: {connId}")), clip)
      | some file =>
          if file.size < offset then
            (some (.error (.invalidRequest
              s!"invalid reading offset requested from conn: {connId}")), clip)
          else
            match readSize overflowChecks file offset length with
            | none => (none, clip)
            | some readSize =>
                if 2 ^ 63 ≤ readSize then (none, clip)
                else
                  match file.readExactAt fs faults readSize offset with
                  | (.error error, file) =>
                      (some (.error error), { clip with fileList := clip.fileList.set fileIdx file })
                  | (.ok buf, file) =>
                      let (result, clip) :=
                        { clip with fileList := clip.fileList.set fileIdx file }.hotReload fs fileIdx
                          (.fileContentsResponse 1 streamId buf)
                      (some result, clip)

/-- The request `read_file_contents` makes of the fields, if the flags are known ones. -/
def decode (request : ContentsRequest) : Option FileContentsRequest :=
  let fileIdx := (Casts.widen 64 request.listIndex).toNat
  if request.dwFlags = 1 then some (.size request.streamId fileIdx)
  else if request.dwFlags = 2 then
    let offset := Casts.widen 64 request.nPositionHigh <<< 32 ||| Casts.widen 64 request.nPositionLow
    let length := Casts.widen 64 request.cbRequested
    some (.range request.streamId fileIdx offset.toNat length.toNat)
  else none

/-- `read_file_contents`, unless it panics. -/
def readFileContents (overflowChecks : Bool) (fs : FileSystem) (faults : ReadFaults) (connId : Int)
    (clip : ClipFiles) (request : ContentsRequest) :
    Option (List (Except CliprdrError ClipboardFile)) × ClipFiles :=
  match decode request with
  | none =>
      let dwFlags := request.dwFlags.toInt
      (some [.error (.invalidRequest
        s!"got invalid FileContentsRequest, dw_flats: {dwFlags}")], clip)
  | some fcr =>
      let audit := (clip.getFilesForAudit fs fcr).toList.map Except.ok
      let (result, clip) := clip.serveFileContents overflowChecks fs faults connId fcr
      (result.map fun result => audit ++ [result], clip)

def respFileContentsFail (streamId : BitVec 32) : ClipboardFile :=
  .fileContentsResponse 2 streamId []

/-- What the peer is sent for a result. -/
def reply (streamId : BitVec 32) : Except CliprdrError ClipboardFile → ClipboardFile
  | .ok data => data
  | .error _ => respFileContentsFail streamId

/-- What `serve_clip_messages` answers a request for the contents of a file. -/
def answer (overflowChecks : Bool) (fs : FileSystem) (faults : ReadFaults) (connId : Int)
    (clip : ClipFiles) (request : ContentsRequest) : Option (List ClipboardFile) × ClipFiles :=
  let (results, clip) := clip.readFileContents overflowChecks fs faults connId request
  (results.map fun results => results.map (reply request.streamId), clip)

end ClipFiles

end HibtDesk.Clipboard
