import HibtDesk.Clipboard.FileContents
import HibtDesk.Clipboard.FileDescription
import HibtDesk.Library.UnixNames

/-! Pasting the files of the peer into a directory. One file at a time is asked for in
blocks and written next to its place, which it takes when it is complete; empty files and
directories are made on the way from one file to the next. -/
namespace HibtDesk.Clipboard

open Lexical (Text)
open Lexical.Unix (parent fileStem extension withFileName)

/-- The file system as the task uses it. -/
structure FileOps (W H : Type) where
  isThere : W → Text → Bool
  createDirAll : W → Text → W × Option IoError
  create : W → Text → W × Except IoError H
  /-- Write some of the bytes. The number is that of the bytes written, less the first. -/
  write : W → H → Bytes → W × Except IoError Nat
  flush : W → H → W
  close : W → H → W
  rename : W → Text → Text → W
  remove : W → Text → W

structure FileContentsResponse where
  connId : Int
  msgFlags : Int
  streamId : Int
  requestedData : Bytes
  deriving DecidableEq, Repr

/-- A task and how often the peer has failed to read a file. -/
structure PasteTask (Handle : Type) where
  handle : Option Handle
  retryCount : Nat

namespace PasteTask

def recvRetryTimes : Nat := 3

def invalidFileIndex : Int := -1

structure Progress (H : Type) where
  listIndex : Int
  offset : Nat
  totalSize : Nat
  currentSize : Nat
  downloadFileIndex : Int
  downloadFileSize : Nat
  downloadFilePath : Text
  downloadFileCurrentSize : Nat
  fileHandle : Option H
  error : Option CliprdrError
  isCanceled : Bool

/-- `PasteTaskHandle`. -/
structure Handle (H : Type) where
  progress : Progress H
  targetDir : Text
  files : List FileDescription

def digits (i : Nat) : Text := Nat.toDigits 10 i

/-- The name that is tried next if `i - 1` ones with numbers are taken. -/
def numbered (path : Text) (kind : FileType) (i : Nat) : Text :=
  match kind, extension path with
  | .file, some ext =>
      withFileName path ((fileStem path).getD [] ++ '-' :: digits i ++ '.' :: ext)
  | _, _ => path ++ ' ' :: '(' :: digits i ++ [')']

def getFirstFilename (isThere : Text → Bool) (path : Text) (kind : FileType) : Option Text :=
  if !isThere path then some path
  else if kind = .symlink then none
  else ((List.range' 1 9999998).map (numbered path kind)).find? (!isThere ·)

def getNewFilename (isThere : Text → Bool) (targetDir : Text) (desc : FileDescription) :
    Option Text :=
  let path := Lexical.Platform.unix.join targetDir desc.name
  if isThere path then getFirstFilename isThere path desc.kind else some path

def download (path : Text) : Text := path ++ ['.', 'r', 'd', 'd', 'o', 'w', 'n', 'l', 'o', 'a', 'd']

/-- `files.len() as i32`. -/
def fileCount (files : List FileDescription) : Int := (BitVec.ofNat 32 files.length).toInt

namespace Handle
variable {W H : Type} (ops : FileOps W H) (w : W) (handle : Handle H)

/-- `files.get(i as usize)`. -/
def file (i : Int) : Option FileDescription := if i < 0 then none else handle.files[i.toNat]?

def isFinished : Bool :=
  handle.progress.isCanceled || handle.progress.error.isSome ||
    decide (fileCount handle.files ≤ handle.progress.listIndex)

def closeFile : W :=
  match handle.progress.fileHandle with
  | some file => ops.close w file
  | none => w

def onDone : W × Handle H :=
  match handle.progress.fileHandle with
  | none => (w, handle)
  | some file =>
      if handle.progress.downloadFileIndex = invalidFileIndex then (w, handle)
      else
        let w := ops.close (ops.flush w file) file
        let progress := { handle.progress with fileHandle := none }
        match handle.file progress.downloadFileIndex with
        | none => (w, { handle with progress := progress })
        | some desc =>
            match getNewFilename (ops.isThere w) handle.targetDir desc with
            | none => (w, { handle with progress := progress })
            | some renameTo =>
                (ops.rename w progress.downloadFilePath renameTo,
                  { handle with
                    progress :=
                      { progress with
                        downloadFilePath := []
                        downloadFileIndex := invalidFileIndex } })

def onCancelled : W × Handle H :=
  (ops.remove (handle.closeFile ops w) handle.progress.downloadFilePath,
    { handle with progress := { handle.progress with fileHandle := none } })

def onError (error : CliprdrError) : W × Handle H :=
  onCancelled ops w { handle with progress := { handle.progress with error := some error } }

def onFinished : W × Handle H :=
  let (w, handle) :=
    if handle.progress.error.isSome then handle.onCancelled ops w else handle.onDone ops w
  if handle.progress.currentSize ≠ handle.progress.totalSize then
    (w, { handle with
      progress :=
        { handle.progress with error := some (.invalidRequest "Failed to download all files") } })
  else (w, handle)

def openNewWriter : W × Handle H × Option CliprdrError :=
  match handle.file handle.progress.listIndex with
  | none =>
      let listIndex := handle.progress.listIndex
      let count := handle.files.length
      (w, handle, some (.invalidRequest s!"Invalid file index: {listIndex}, file count: {count}"))
  | some desc =>
      let original := Lexical.Platform.unix.join handle.targetDir desc.name
      let text := String.ofList original
      match getFirstFilename (ops.isThere w) (download original) desc.kind with
      | none => (w, handle, some (.commonError s!"Failed to get download file path: {text}"))
      | some path =>
          match parent path with
          | none =>
              (w, handle, some (.commonError s!"Failed to get parent of the download file path: {text}"))
          | some above =>
              let (w, failed) := if ops.isThere w above then (w, none) else ops.createDirAll w above
              match failed with
              | some err => (w, handle, some (.fileError above err))
              | none =>
                  match ops.create w path with
                  | (w, .error err) =>
                      (w, { handle with
                        progress := { handle.progress with error := some (.fileError path err) } }, none)
                  | (w, .ok file) =>
                      (handle.closeFile ops w, { handle with
                        progress :=
                          { handle.progress with
                            downloadFileIndex := handle.progress.listIndex
                            downloadFileSize := desc.size
                            downloadFilePath := path
                            downloadFileCurrentSize := 0
                            fileHandle := some file } }, none)

/-- An empty file is made at its place at once. -/
def createEmpty (desc : FileDescription) : W :=
  match getNewFilename (ops.isThere w) handle.targetDir desc with
  | none => w
  | some path =>
      match ops.create w path with
      | (w, .ok file) => ops.close w file
      | (w, .error _) => w

/-- The loop of `update_next` over the files that come next. -/
def advance : List (FileDescription × Nat) → W → Handle H → W × Handle H × Option CliprdrError
  | [], w, handle => (w, handle, none)
  | (desc, i) :: rest, w, handle =>
      match desc.kind with
      | .file =>
          if desc.size = 0 then advance rest (handle.createEmpty ops w desc) handle
          else
            openNewWriter ops w
              { handle with progress := { handle.progress with listIndex := i, offset := 0 } }
      | .directory =>
          let path := Lexical.Platform.unix.join handle.targetDir desc.name
          advance rest (if ops.isThere w path then w else (ops.createDirAll w path).1) handle
      | .symlink => advance rest w handle

/-- The files after the one at hand, with their indices. -/
def remaining : List (FileDescription × Nat) :=
  (handle.files.zipIdx.take (fileCount handle.files).toNat).drop (handle.progress.listIndex + 1).toNat

/-- The part of `update_next` that goes on with the file at hand, or with the next ones when
it is complete. -/
def stepOn (size : Nat) : W × Handle H × Option CliprdrError :=
  let progress := handle.progress
  if progress.listIndex = -1 then advance ops handle.remaining w handle
  else if progress.downloadFileSize ≤ (progress.offset + size) % 2 ^ 64 then
    let (w, handle) := handle.onDone ops w
    advance ops handle.remaining w handle
  else
    (w, { handle with
      progress :=
        { progress with
          offset := (progress.offset + size) % 2 ^ 64
          downloadFileCurrentSize := (progress.downloadFileCurrentSize + size) % 2 ^ 64 } }, none)

/-- Without a file that is being written there is none left. -/
def markEnd : Handle H :=
  if handle.progress.fileHandle.isNone then
    { handle with
      progress :=
        { handle.progress with
          listIndex := fileCount handle.files
          offset := 0
          downloadFileSize := 0
          downloadFileCurrentSize := 0 } }
  else handle

def updateNext (size : Nat) : W × Handle H × Option CliprdrError :=
  if handle.isFinished then (w, handle, none)
  else
    let currentSize := (handle.progress.currentSize + size) % 2 ^ 64
    let handle := { handle with progress := { handle.progress with currentSize := currentSize } }
    match handle.stepOn ops w size with
    | (w, handle, none) => (w, handle.markEnd, none)
    | (w, handle, some error) => (w, handle, some error)

/-- The loop of `handle_file_contents_response`. -/
def writeAll (file : H) : Nat → W → Bytes → W × Option IoError
  | 0, w, _ => (w, none)
  | fuel + 1, w, data =>
      if data = [] then (w, none)
      else
        match ops.write w file data with
        | (w, .ok more) => writeAll file fuel w (data.drop (more + 1))
        | (w, .error err) => (w, some err)

def handleFileContentsResponse (data : Bytes) : W × Handle H × Option CliprdrError :=
  match handle.progress.fileHandle with
  | none =>
      (w, handle,
        some (.fileError handle.progress.downloadFilePath (.notFound "file handle is not opened")))
  | some file =>
      match writeAll ops file data.length w data with
      | (w, some err) => (w, handle, some (.fileError handle.progress.downloadFilePath err))
      | (w, none) => handle.updateNext ops w data.length

/-- What a request is made of. -/
def asks : PasteTaskHandle where
  files := handle.files.map fun desc => (desc.size, desc.connId)
  listIndex := .ofInt 32 handle.progress.listIndex
  offset := handle.progress.offset
  error := handle.progress.error
  isCanceled := handle.progress.isCanceled

/-- Ask for the next block. An error that comes of it ends the task. -/
def sendFileContentsRequest : W × Handle H × Option ContentsRequest :=
  match handle.asks.sendFileContentsRequest with
  | .ok request => (w, handle, request)
  | .error error =>
      let (w, handle) := handle.onError ops w error
      (w, handle, none)

end Handle

section Task
variable {W H : Type} (ops : FileOps W H) (w : W) (task : PasteTask (Handle H))

def new : PasteTask (Handle H) where
  handle := none
  retryCount := 0

def isFinished : Bool := task.handle.all Handle.isFinished

/-- The handle a task starts with. -/
def Handle.initial (targetDir : Text) (files : List FileDescription) : Handle H where
  progress :=
    { listIndex := -1
      offset := 0
      totalSize := (files.map (·.size)).sum % 2 ^ 64
      currentSize := 0
      downloadFileIndex := invalidFileIndex
      downloadFileSize := 0
      downloadFilePath := []
      downloadFileCurrentSize := 0
      fileHandle := none
      error := none
      isCanceled := false }
  targetDir := targetDir
  files := files

/-- `start`, with the request it sends. -/
def start (targetDir : Text) (files : List FileDescription) :
    W × PasteTask (Handle H) × Option ContentsRequest :=
  if !task.isFinished then (w, task, none)
  else
    let (w, handle, _) := (Handle.initial targetDir files).updateNext ops w 0
    if handle.isFinished then
      let (w, handle) := handle.onFinished ops w
      (w, { task with handle := some handle }, none)
    else
      let (w, handle, request) := handle.sendFileContentsRequest ops w
      (w, { task with handle := some handle }, request)

def cancel : W × PasteTask (Handle H) :=
  match task.handle with
  | none => (w, task)
  | some handle =>
      let (w, handle) :=
        Handle.onCancelled ops w
          { handle with progress := { handle.progress with isCanceled := true } }
      (w, { task with handle := some handle })

/-- The end of a turn of the worker that got a response. -/
def settle (handle : Handle H) : W × PasteTask (Handle H) × Option ContentsRequest :=
  if !handle.isFinished then
    let (w, handle, request) := handle.sendFileContentsRequest ops w
    (w, { task with handle := some handle }, request)
  else
    let (w, handle) := handle.onFinished ops w
    (w, { handle := some handle, retryCount := 0 }, none)

/-- A turn of the worker that got a response. -/
def onResponse (response : FileContentsResponse) :
    W × PasteTask (Handle H) × Option ContentsRequest :=
  match task.handle with
  | none => (w, task, none)
  | some handle =>
      if handle.isFinished then (w, task, none)
      else if response.streamId ≠ handle.progress.listIndex then (w, task, none)
      else if response.msgFlags ≠ 1 then
        let task := { task with retryCount := task.retryCount + 1 }
        let streamId := response.streamId
        let msgFlags := response.msgFlags
        if recvRetryTimes < task.retryCount then
          settle ops w task
            { handle with
              progress :=
                { handle.progress with
                  error := some (.invalidRequest
                    s!"Failed to read file contents, stream id: {streamId}, msg_flags: {msgFlags}") } }
        else settle ops w task handle
      else
        match handle.file response.streamId with
        | none => (w, task, none)
        | some desc =>
            if desc.connId ≠ response.connId then (w, task, none)
            else
              match handle.handleFileContentsResponse ops w response.requestedData with
              | (w, handle, none) => settle ops w task handle
              | (w, handle, some error) =>
                  let (w, handle) := handle.onError ops w error
                  settle ops w task handle

/-- A turn of the worker that got none. The last request may have been sent too long ago. -/
def onTimeout (elapsed : Bool) : W × PasteTask (Handle H) :=
  match task.handle with
  | none => (w, task)
  | some handle =>
      if !handle.isFinished && elapsed then
        let (w, handle) :=
          Handle.onFinished ops w
            { handle with
              progress :=
                { handle.progress with
                  error := some (.invalidRequest "Failed to read file contents") } }
        (w, { handle := some handle, retryCount := 0 })
      else (w, task)

end Task

/-- What happens to a task that has been started. -/
inductive Event where
  | response (response : FileContentsResponse)
  | timeout (elapsed : Bool)
  | cancel
  deriving DecidableEq, Repr

variable {W H : Type}

def step (ops : FileOps W H) (s : W × PasteTask (Handle H)) : Event → W × PasteTask (Handle H)
  | .response response =>
      let (w, task, _) := s.2.onResponse ops s.1 response
      (w, task)
  | .timeout elapsed => s.2.onTimeout ops s.1 elapsed
  | .cancel => s.2.cancel ops s.1

def run (ops : FileOps W H) (s : W × PasteTask (Handle H)) (events : List Event) :
    W × PasteTask (Handle H) := events.foldl (step ops) s

end PasteTask

end HibtDesk.Clipboard
