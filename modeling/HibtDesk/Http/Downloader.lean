import HibtDesk.Library.Disk
import HibtDesk.Library.Trace

/-! Downloads of one URL. The record of a download stands in a map under the URL, where its
thread, the callers and the threads of other downloads of the URL find it. -/
namespace HibtDesk.Downloads

open Storage

abbrev Bytes := List UInt8
abbrev Path := String

/-- `tx_cancel` belongs to the channel of one thread, which closes with the record. -/
structure Downloader where
  data : Bytes
  path : Option Path
  totalSize : Option Nat
  downloadedSize : Nat
  error : Option String
  finished : Bool
  txCancel : Nat

structure DownloadData where
  data : Bytes
  path : Option Path
  totalSize : Option Nat
  downloadedSize : Nat
  error : Option String

/-- What the server answers to a request for the size. -/
inductive HeadResp where
  | success (contentLength : Option Nat)
  | failure (status : String)
  | error (error : String)

/-- What `response.chunk` gives: the next bytes of the body, `None` at its end, or an error. -/
inductive Chunk where
  | some (length : Nat)
  | none
  | error (error : String)

/-- How an operation on the file went. A write that fails may have written something. -/
inductive FileResult where
  | ok
  | error (written : Nat) (error : String)

/-- What a download thread waits for, or meets, in a step. -/
inductive Input where
  | go
  | rxCancel
  | head (resp : HeadResp)
  | get (resp : Except String Bytes)
  | chunk (chunk : Chunk)
  | file (result : FileResult)

/-- What a download thread does next. -/
inductive ThreadPc where
  | head
  | totalSize (totalSize : Nat)
  | get
  | create
  | chunk
  | write (chunk : Bytes)
  | downloadedSize (length : Nat)
  | extendData (chunk : Bytes)
  | flush (isAllDownloaded : Bool)
  | finished (isAllDownloaded : Bool)
  | returns (result : Except String Bool)
  | remove
  | error (error : String)
  | done

/-- A download thread. `dest` is the open file and the place in it, `rest` what is left of the body
of the response, and `deletes` says that an automatic deletion waits in the runtime. -/
structure Thread where
  path : Option Path
  autoDelDur : Bool
  canceled : Bool
  response : Option Bytes
  rest : Bytes
  dest : Option (Nat × Nat)
  deletes : Bool
  pc : ThreadPc

inductive CallPc where
  | pathExists | insert | done
  deriving DecidableEq

/-- A call of `download_file` under way. -/
structure Call where
  path : Option Path
  autoDelDur : Bool
  pc : CallPc

structure State where
  downloader : Option Downloader
  calls : List Call
  threads : List Thread
  disk : Disk Path UInt8

inductive Event where
  | downloadFile (path : Option Path) (autoDelDur : Bool)
  /-- The next step of a call. `createDir` says whether the directory can be made. -/
  | call (index : Nat) (createDir : Bool)
  | cancel
  | remove
  | thread (index : Nat) (input : Input)
  | autoDelete (index : Nat)

/-- The error text of the request for the size, or the size. -/
def HeadResp.totalSize : HeadResp → Except String Nat
  | .success (.some length) => .ok length
  | .success .none => .error "Failed to get content length"
  | .failure status => .error ("Failed to get content length: " ++ status)
  | .error message => .error message

namespace State
variable (s : State)

def setThread (i : Nat) (t : Thread) : State := { s with threads := s.threads.set i t }

/-- `get_mut` under the lock, which finds whatever record is there. -/
def updateDownloader (update : Downloader → Downloader) : State :=
  { s with downloader := s.downloader.map update }

/-- The receiver is woken by a message and when the sender is gone. -/
def rxCancel (i : Nat) (t : Thread) : Bool :=
  t.canceled || s.downloader.all fun downloader => downloader.txCancel != i

/-- `download_file`, once no record has been found. -/
def callStep (index : Nat) (call : Call) (createDir : Bool) : State :=
  match call.pc with
  | .pathExists =>
      let goOn := call.path.all fun path => !s.disk.isThere path && createDir
      { s with calls := s.calls.set index { call with pc := if goOn then .insert else .done } }
  | .insert =>
      { s with
        downloader := some
          { data := [], path := call.path, totalSize := none, downloadedSize := 0, error := none,
            finished := false, txCancel := s.threads.length }
        threads := s.threads ++
          [{ path := call.path, autoDelDur := call.autoDelDur, canceled := false, response := none,
             rest := [], dest := none, deletes := false, pc := .head }]
        calls := s.calls.set index { call with pc := .done } }
  | .done => s

/-- `do_download`, and what its thread does with the result. -/
def threadStep (i : Nat) (t : Thread) (input : Input) : State :=
  match t.pc, input with
  | .head, .rxCancel =>
      if s.rxCancel i t then s.setThread i { t with pc := .returns (.ok false) } else s
  | .head, .head resp =>
      match resp.totalSize with
      | .ok totalSize => s.setThread i { t with pc := .totalSize totalSize }
      | .error error => s.setThread i { t with pc := .returns (.error error) }
  | .totalSize totalSize, _ =>
      (s.updateDownloader fun downloader => { downloader with totalSize := some totalSize }).setThread i
        { t with pc := .get }
  | .get, .rxCancel =>
      if s.rxCancel i t then s.setThread i { t with pc := .returns (.ok false) } else s
  | .get, .get (.ok body) => s.setThread i { t with response := some body, rest := body, pc := .create }
  | .get, .get (.error error) => s.setThread i { t with pc := .returns (.error error) }
  | .create, .file result =>
      match t.path, result with
      | none, _ => s.setThread i { t with pc := .chunk }
      | some path, .ok =>
          { s with disk := (s.disk.create path 0).1 }.setThread i
            { t with dest := some ((s.disk.create path 0).2, 0), pc := .chunk }
      | some _, .error _ error => s.setThread i { t with pc := .returns (.error error) }
  | .chunk, .rxCancel =>
      if s.rxCancel i t then s.setThread i { t with pc := .flush false } else s
  | .chunk, .chunk (.some length) =>
      s.setThread i
        { t with
          rest := t.rest.drop length
          pc := if t.dest.isSome then .write (t.rest.take length) else .extendData (t.rest.take length) }
  | .chunk, .chunk .none => if t.rest.isEmpty then s.setThread i { t with pc := .flush true } else s
  | .chunk, .chunk (.error error) => s.setThread i { t with pc := .returns (.error error) }
  | .write chunk, .file result =>
      match t.dest, result with
      | none, _ => s
      | some (file, pos), .ok =>
          { s with disk := s.disk.write 0 file pos chunk 0 }.setThread i
            { t with dest := some (file, pos + chunk.length), pc := .downloadedSize chunk.length }
      | some (file, pos), .error written error =>
          { s with disk := s.disk.write 0 file pos (chunk.take written) 0 }.setThread i
            { t with pc := .returns (.error error) }
  | .downloadedSize length, _ =>
      (s.updateDownloader fun downloader =>
        { downloader with downloadedSize := downloader.downloadedSize + length }).setThread i
        { t with pc := .chunk }
  | .extendData chunk, _ =>
      (s.updateDownloader fun downloader =>
        { downloader with
          data := downloader.data ++ chunk
          downloadedSize := downloader.downloadedSize + chunk.length }).setThread i
        { t with pc := .chunk }
  | .flush isAllDownloaded, .file result =>
      match t.dest, result with
      | some _, .error _ error => s.setThread i { t with pc := .returns (.error error) }
      | _, _ => s.setThread i { t with pc := .finished isAllDownloaded }
  | .finished isAllDownloaded, _ =>
      (s.updateDownloader fun downloader => { downloader with finished := true }).setThread i
        { t with deletes := isAllDownloaded && t.autoDelDur, pc := .returns (.ok isAllDownloaded) }
  | .returns result, _ =>
      -- the runtime ends here, and with it a deletion that still waits
      s.setThread i
        { t with
          deletes := false
          pc :=
            match result with
            | .ok true => .done
            | .ok false => .remove
            | .error error => .error error }
  | .remove, _ =>
      -- the lock is held until the file is gone
      { s with
        downloader := none
        disk :=
          match s.downloader.bind Downloader.path with
          | some path => s.disk.remove path
          | none => s.disk }.setThread i { t with pc := .done }
  | .error error, _ =>
      (s.updateDownloader fun downloader => { downloader with error := some error }).setThread i
        { t with pc := .done }
  | _, _ => s

def cancel : State :=
  match s.downloader with
  | some downloader =>
      { s with threads := s.threads.modify downloader.txCancel fun t => { t with canceled := true } }
  | none => s

def step : Event → State
  | .downloadFile path autoDelDur =>
      if s.downloader.isSome then s else { s with calls := s.calls ++ [⟨path, autoDelDur, .pathExists⟩] }
  | .call index createDir =>
      match s.calls[index]? with
      | some call => s.callStep index call createDir
      | none => s
  | .cancel => s.cancel
  | .remove => { s with downloader := none }
  | .thread i input =>
      match s.threads[i]? with
      | some t => s.threadStep i t input
      | none => s
  | .autoDelete i =>
      match s.threads[i]? with
      | some t => if t.deletes then { s with downloader := none }.setThread i { t with deletes := false } else s
      | none => s

/-- `get_download_data`. -/
def getDownloadData : Option DownloadData :=
  s.downloader.map fun downloader =>
    { data :=
        if downloader.totalSize.getD 0 = downloader.downloadedSize ∧ downloader.path = none then
          downloader.data
        else []
      path := downloader.path
      totalSize := downloader.totalSize
      downloadedSize := downloader.downloadedSize
      error := downloader.error }

end State

def start : State where
  downloader := none
  calls := []
  threads := []
  disk := .empty

end HibtDesk.Downloads
