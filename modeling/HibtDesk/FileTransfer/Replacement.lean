import HibtDesk.FileTransfer.WriteSpec
import HibtDesk.Library.Trace

/-! What a receiving job puts in the place of the files that were there before.
An unfinished file takes the place of its destination when the job moves on or
is completed. The first block moves on too, from the file the job was made for,
and so brings an unfinished file of an earlier job into place. -/
namespace HibtDesk.FileTransfer

open Lexical (Text Platform)
open Lexical.Platform (Location)

/-- A call of `write`. -/
structure WriteCall where
  env : Env
  faults : WriteFaults
  block : FileTransferBlock

/-- A receiving job at work, with all it has written, by the number of the file. -/
structure Receiving where
  job : TransferJob
  store : Store
  written : Nat → Option Bytes

namespace Receiving

def step (receiving : Receiving) (call : WriteCall) : Receiving :=
  match receiving.job.write call.env call.faults receiving.store call.block with
  | (.ok (), store, job) =>
      { job := job
        store := store
        written :=
          Function.update receiving.written (asUsize call.block.fileNum)
            (some ((receiving.written (asUsize call.block.fileNum)).getD [] ++
              call.block.payload call.env)) }
  | (.error _, store, job) => { receiving with job := job, store := store }

/-- How a job ends. -/
inductive Stop where
  | disconnect
  | cancel
  | complete (faults : WriteFaults)

def stop (receiving : Receiving) : Stop → Store
  | .disconnect => receiving.store
  | .cancel => receiving.job.removeDownloadFile receiving.store
  | .complete faults => receiving.job.modifyTime faults receiving.store

/-- The job is done with a file: it has moved on, or it is completed. -/
def Closed (receiving : Receiving) (stop : Stop) (k : Nat) : Prop :=
  asUsize receiving.job.fileNum ≠ k ∨ ∃ faults, stop = .complete faults

/-- The place of an entry of the list. -/
def destination (platform : Platform) (base : Text) (entry : FileEntry) : Location :=
  platform.location (TransferJob.join platform base entry.name)

/-- Every destination holds what it held at the start, or all that was written
for a file that belongs there and that the job is done with. -/
def Replaced (start : Store) (base : Text) (files : List FileEntry) (receiving : Receiving)
    (stop : Stop) : Prop :=
  ∀ entry ∈ files,
    (receiving.stop stop).disk.content (destination start.platform base entry) =
        start.disk.content (destination start.platform base entry) ∨
      ∃ k other data,
        files[k]? = some other ∧
        destination start.platform base other = destination start.platform base entry ∧
        receiving.Closed stop k ∧ receiving.written k = some data ∧
        (receiving.stop stop).disk.content (destination start.platform base entry) = some data

/-- No entry of the list is the unfinished file or the digest of another. -/
def Apart (platform : Platform) (base : Text) (files : List FileEntry) : Prop :=
  ∀ entry ∈ files, ∀ other ∈ files,
    destination platform base entry ≠
        platform.location (download (TransferJob.join platform base other.name)) ∧
      destination platform base entry ≠
        platform.location (digestPath (TransferJob.join platform base other.name))

/-- Nothing unfinished lies next to the file the job was made for. -/
def Clean (start : Store) (base : Text) (files : List FileEntry) (fileNum : Int) : Prop :=
  ∀ entry, files[asUsize fileNum]? = some entry →
    start.disk.content
      (start.platform.location (download (TransferJob.join start.platform base entry.name))) = none

/-- What a job has done to the disk so far. -/
structure Faithful (start : Store) (base : Text) (files : List FileEntry)
    (receiving : Receiving) : Prop where
  platform : receiving.store.platform = start.platform
  type : receiving.job.type = .generic
  dataSource : receiving.job.dataSource = .filePath base
  list : receiving.job.files = files
  destinations : ∀ entry ∈ files,
    receiving.store.disk.content (destination start.platform base entry) =
        start.disk.content (destination start.platform base entry) ∨
      ∃ k other data,
        files[k]? = some other ∧
        destination start.platform base other = destination start.platform base entry ∧
        asUsize receiving.job.fileNum ≠ k ∧ receiving.written k = some data ∧
        receiving.store.disk.content (destination start.platform base entry) = some data
  /-- Nothing was written beyond the current file. -/
  ahead : ∀ k, asUsize receiving.job.fileNum < k → receiving.written k = none
  /-- Either nothing was written at all, or the stream holds what was written
  for the current file. -/
  current :
    (receiving.job.dataStream = none ∧ (∀ k, receiving.written k = none) ∧
      Clean receiving.store base files receiving.job.fileNum) ∨
    ∃ entry data,
      files[asUsize receiving.job.fileNum]? = some entry ∧
      receiving.job.Streams receiving.store
        (download (TransferJob.join start.platform base entry.name)) data ∧
      receiving.written (asUsize receiving.job.fileNum) = some data

section Step
variable {start : Store} {base : Text} {files : List FileEntry} {receiving : Receiving}

theorem Faithful.currentFile (hFaithful : Faithful start base files receiving) :
    receiving.job.currentFile = files[asUsize receiving.job.fileNum]? := by
  rw [TransferJob.currentFile, hFaithful.list]

/-- Closing the current file changes no destination, or brings what was written
for the file into place. -/
theorem Faithful.content_modifyTime (hFaithful : Faithful start base files receiving)
    (hApart : Apart start.platform base files) (faults : WriteFaults) {entry : FileEntry}
    (hEntry : entry ∈ files) :
    (receiving.job.modifyTime faults receiving.store).disk.content
        (destination start.platform base entry) =
        receiving.store.disk.content (destination start.platform base entry) ∨
      ∃ other data,
        files[asUsize receiving.job.fileNum]? = some other ∧
        destination start.platform base other = destination start.platform base entry ∧
        receiving.written (asUsize receiving.job.fileNum) = some data ∧
        (receiving.job.modifyTime faults receiving.store).disk.content
          (destination start.platform base entry) = some data := by
  cases hCurrent : files[asUsize receiving.job.fileNum]? with
  | none =>
      left
      rw [TransferJob.modifyTime_of_none faults (hFaithful.currentFile.trans hCurrent)]
  | some other =>
      have hOther : other ∈ files := List.mem_of_getElem? hCurrent
      obtain ⟨hDownload, hDigest⟩ := hApart entry hEntry other hOther
      have hClosed := @TransferJob.content_modifyTime receiving.job base other faults hFaithful.type
        hFaithful.dataSource (hFaithful.currentFile.trans hCurrent) receiving.store
        (destination start.platform base entry)
      simp only [hFaithful.platform] at hClosed
      rw [hClosed hDigest]
      rcases hFaithful.current with ⟨-, -, hClean⟩ | ⟨found, data, hFound, hStreams, hWritten⟩
      · -- There is nothing to bring into place.
        have hNone := hClean other hCurrent
        rw [hFaithful.platform] at hNone
        left
        rw [if_pos (Or.inr hNone)]
      · obtain rfl : other = found := by
          rw [hCurrent] at hFound
          exact Option.some.inj hFound
        have hUnfinished := hStreams.content
        rw [hFaithful.platform] at hUnfinished
        rw [hUnfinished]
        by_cases hRename : faults.rename = true
        · left
          rw [if_pos (Or.inl hRename)]
        · rw [if_neg (by simp [hRename])]
          by_cases hHere : destination start.platform base entry =
              destination start.platform base other
          · right
            exact ⟨other, data, rfl, hHere.symm, hWritten, if_pos hHere⟩
          · left
            exact (if_neg hHere).trans (if_neg hDownload)

/-- A destination that was in order before the current file was closed is in
order after it, with the current file closed. -/
theorem Faithful.closed (hFaithful : Faithful start base files receiving)
    (hApart : Apart start.platform base files) (faults : WriteFaults) {entry : FileEntry}
    (hEntry : entry ∈ files) :
    (receiving.job.modifyTime faults receiving.store).disk.content
        (destination start.platform base entry) =
        start.disk.content (destination start.platform base entry) ∨
      ∃ k other data,
        files[k]? = some other ∧
        destination start.platform base other = destination start.platform base entry ∧
        receiving.written k = some data ∧
        (receiving.job.modifyTime faults receiving.store).disk.content
          (destination start.platform base entry) = some data := by
  rcases hFaithful.content_modifyTime hApart faults hEntry with
    hSame | ⟨other, data, hOther, hPlace, hWritten, hContent⟩
  · rw [hSame]
    rcases hFaithful.destinations entry hEntry with
      hStart | ⟨k, other, data, hOther, hPlace, -, hWritten, hContent⟩
    · exact Or.inl hStart
    · exact Or.inr ⟨k, other, data, hOther, hPlace, hWritten, hContent⟩
  · exact Or.inr ⟨_, other, data, hOther, hPlace, hWritten, hContent⟩

theorem step_of_ok {call : WriteCall} {store : Store} {job : TransferJob}
    (hWrite : receiving.job.write call.env call.faults receiving.store call.block =
      (.ok (), store, job)) :
    receiving.step call =
      { job := job
        store := store
        written :=
          Function.update receiving.written (asUsize call.block.fileNum)
            (some ((receiving.written (asUsize call.block.fileNum)).getD [] ++
              call.block.payload call.env)) } := by
  unfold step
  rw [hWrite]

/-- A block the job does not take leaves everything as it was. -/
theorem step_of_rejected {call : WriteCall} (hSource : receiving.job.dataSource = .filePath base)
    (hRejected : call.block.id ≠ receiving.job.id ∨
      receiving.job.files[asUsize call.block.fileNum]? = none) :
    receiving.step call = receiving := by
  have hWrite : ∃ error, receiving.job.write call.env call.faults receiving.store call.block =
      (.error error, receiving.store, receiving.job) := by
    unfold TransferJob.write
    by_cases hId : call.block.id = receiving.job.id
    · have hNone := hRejected.resolve_left (fun hOther => hOther hId)
      rw [if_neg (fun hOther => hOther hId)]
      exact ⟨.wrongFileNumber, by simp [TransferJob.ensureStream, hSource, hNone]⟩
    · exact ⟨.wrongId, if_pos hId⟩
  obtain ⟨error, hError⟩ := hWrite
  unfold step
  rw [hError]

/-- A block for the current file is added to it. -/
theorem Faithful.step_same (hFaithful : Faithful start base files receiving)
    (hApart : Apart start.platform base files) {call : WriteCall} (hQuiet : call.faults.Quiet)
    (hId : call.block.id = receiving.job.id) {entry : FileEntry} {data : Bytes}
    (hNum : asUsize receiving.job.fileNum = asUsize call.block.fileNum)
    (hEntry : files[asUsize receiving.job.fileNum]? = some entry)
    (hStreams : receiving.job.Streams receiving.store
      (download (TransferJob.join start.platform base entry.name)) data)
    (hWritten : receiving.written (asUsize receiving.job.fileNum) = some data) :
    Faithful start base files (receiving.step call) ∧
      asUsize (receiving.step call).job.fileNum = asUsize call.block.fileNum := by
  have hHere : receiving.job.files[asUsize call.block.fileNum]? = some entry := by
    rw [hFaithful.list, ← hNum, hEntry]
  obtain ⟨after, next, hWrite, hWrote, hPlatform, hNext, hKept⟩ :=
    TransferJob.write_same call.env hQuiet hId hFaithful.dataSource hHere hNum hStreams
  rw [step_of_ok hWrite]
  have hSame : asUsize next.fileNum = asUsize receiving.job.fileNum := hWrote.fileNum.trans hNum.symm
  refine ⟨?_, hWrote.fileNum⟩
  refine ⟨hPlatform.trans hFaithful.platform, hWrote.type.trans hFaithful.type,
    hWrote.dataSource.trans hFaithful.dataSource, hWrote.files.trans hFaithful.list, ?_, ?_,
    Or.inr ⟨entry, data ++ call.block.payload call.env, ?_, hNext, ?_⟩⟩
  · intro found hFound
    rw [hFaithful.platform] at hKept
    rw [hKept _ (hApart found hFound entry (List.mem_of_getElem? hEntry)).1]
    rcases hFaithful.destinations found hFound with
      hStart | ⟨k, other, text, hOther, hPlace, hMoved, hText, hContent⟩
    · exact Or.inl hStart
    · refine Or.inr ⟨k, other, text, hOther, hPlace, hSame ▸ hMoved, ?_, hContent⟩
      exact (Function.update_of_ne (hNum ▸ Ne.symm hMoved) _ _).trans hText
  · intro k hk
    have hBeyond : asUsize receiving.job.fileNum < k := hSame ▸ hk
    exact (Function.update_of_ne (by omega) _ _).trans (hFaithful.ahead k hBeyond)
  · exact hSame ▸ hEntry
  · simp [hSame, ← hNum, hWritten]

/-- A block for another file closes the current one and opens its own. -/
theorem Faithful.step_new (hFaithful : Faithful start base files receiving)
    (hApart : Apart start.platform base files) {call : WriteCall} (hQuiet : call.faults.Quiet)
    (hId : call.block.id = receiving.job.id) {entry : FileEntry}
    (hEntry : files[asUsize call.block.fileNum]? = some entry)
    (hNew : receiving.job.dataStream = none ∨
      asUsize receiving.job.fileNum < asUsize call.block.fileNum) :
    Faithful start base files (receiving.step call) ∧
      asUsize (receiving.step call).job.fileNum = asUsize call.block.fileNum := by
  have hMember : entry ∈ files := List.mem_of_getElem? hEntry
  have hHere : receiving.job.files[asUsize call.block.fileNum]? = some entry := by
    rw [hFaithful.list, hEntry]
  have hOther : asUsize call.block.fileNum ≠ asUsize receiving.job.fileNum ∨
      receiving.job.dataStream = none := by
    rcases hNew with hNone | hLater
    · exact Or.inr hNone
    · exact Or.inl (by omega)
  obtain ⟨after, next, hWrite, hWrote, hPlatform, hNext, hKept⟩ :=
    TransferJob.write_new call.env hQuiet receiving.store hId hFaithful.dataSource hHere hOther
  simp only [TransferJob.streamPaths, hFaithful.type, hFaithful.platform, Option.some.injEq,
    forall_eq'] at hNext hKept
  -- Nothing was written for the new file, nor for any after it.
  have hAhead : ∀ k, asUsize call.block.fileNum ≤ k → receiving.written k = none := by
    intro k hk
    rcases hFaithful.current with ⟨-, hNothing, -⟩ | ⟨found, data, -, hStreams, -⟩
    · exact hNothing k
    · obtain ⟨node, hStream, -⟩ := hStreams
      have hLater := hNew.resolve_left (by simp [hStream])
      exact hFaithful.ahead k (by omega)
  rw [step_of_ok hWrite]
  refine ⟨?_, hWrote.fileNum⟩
  refine ⟨hPlatform.trans hFaithful.platform, hWrote.type.trans hFaithful.type,
    hWrote.dataSource.trans hFaithful.dataSource, hWrote.files.trans hFaithful.list, ?_, ?_,
    Or.inr ⟨entry, call.block.payload call.env, ?_, hNext, ?_⟩⟩
  · intro found hFound
    obtain ⟨hDownload, hDigest⟩ := hApart found hFound entry hMember
    rw [hKept _ hDownload hDigest]
    rcases hFaithful.closed hApart call.faults hFound with
      hStart | ⟨k, other, text, hOther, hPlace, hText, hContent⟩
    · exact Or.inl hStart
    · have hBefore : asUsize call.block.fileNum ≠ k := by
        rintro rfl
        rw [hAhead _ (Nat.le_refl _)] at hText
        cases hText
      refine Or.inr ⟨k, other, text, hOther, hPlace, hWrote.fileNum ▸ hBefore, ?_, hContent⟩
      exact (Function.update_of_ne (Ne.symm hBefore) _ _).trans hText
  · intro k hk
    have hBeyond : asUsize call.block.fileNum < k := hWrote.fileNum ▸ hk
    exact (Function.update_of_ne (by omega) _ _).trans (hAhead k (by omega))
  · rw [hWrote.fileNum, hEntry]
  · simp [hWrote.fileNum, hAhead _ (Nat.le_refl _)]

/-- A call of `write` keeps the destinations in order, if its block is not for a
file before the current one. -/
theorem Faithful.step (hFaithful : Faithful start base files receiving)
    (hApart : Apart start.platform base files) {call : WriteCall} (hQuiet : call.faults.Quiet)
    (hOrder : receiving.job.dataStream = none ∨
      asUsize receiving.job.fileNum ≤ asUsize call.block.fileNum) :
    Faithful start base files (receiving.step call) ∧
      (receiving.step call = receiving ∨
        asUsize (receiving.step call).job.fileNum = asUsize call.block.fileNum) := by
  by_cases hId : call.block.id = receiving.job.id
  · cases hEntry : files[asUsize call.block.fileNum]? with
    | none =>
        rw [step_of_rejected hFaithful.dataSource (Or.inr (hFaithful.list ▸ hEntry))]
        exact ⟨hFaithful, Or.inl rfl⟩
    | some entry =>
        refine And.imp_right Or.inr ?_
        rcases hFaithful.current with ⟨hNone, -, -⟩ | ⟨found, data, hFound, hStreams, hWritten⟩
        · exact hFaithful.step_new hApart hQuiet hId hEntry (Or.inl hNone)
        · obtain ⟨node, hStream, -⟩ := id hStreams
          have hLe := hOrder.resolve_left (by simp [hStream])
          rcases Nat.lt_or_eq_of_le hLe with hLater | hSame
          · exact hFaithful.step_new hApart hQuiet hId hEntry (Or.inr hLater)
          · exact hFaithful.step_same hApart hQuiet hId hSame hFound hStreams hWritten
  · rw [step_of_rejected hFaithful.dataSource (Or.inl hId)]
    exact ⟨hFaithful, Or.inl rfl⟩

/-- Blocks in order keep the destinations in order. -/
theorem Faithful.run (hFaithful : Faithful start base files receiving)
    (hApart : Apart start.platform base files) {calls : List WriteCall}
    (hQuiet : ∀ call ∈ calls, call.faults.Quiet)
    (hOrder : (calls.map fun call => asUsize call.block.fileNum).Pairwise (· ≤ ·))
    (hStart : ∀ call ∈ calls, receiving.job.dataStream = none ∨
      asUsize receiving.job.fileNum ≤ asUsize call.block.fileNum) :
    Faithful start base files (Trace.run Receiving.step receiving calls) := by
  induction calls generalizing receiving with
  | nil => exact hFaithful
  | cons call calls ih =>
      obtain ⟨hFirst, hSorted⟩ := List.pairwise_cons.mp hOrder
      obtain ⟨hNext, hNum⟩ := hFaithful.step hApart (hQuiet call List.mem_cons_self)
        (hStart call List.mem_cons_self)
      rw [Trace.run_cons]
      refine ih hNext (fun later hLater => hQuiet later (List.mem_cons_of_mem call hLater)) hSorted ?_
      intro later hLater
      rcases hNum with hSame | hHere
      · rw [hSame]
        exact hStart later (List.mem_cons_of_mem call hLater)
      · right
        rw [hHere]
        exact hFirst _ (List.mem_map_of_mem hLater)

/-- However the job stops, every destination is in order. -/
theorem Faithful.replaced (hFaithful : Faithful start base files receiving)
    (hApart : Apart start.platform base files) (stop : Stop) :
    Replaced start base files receiving stop := by
  intro entry hEntry
  cases stop with
  | disconnect =>
      rcases hFaithful.destinations entry hEntry with
        hStart | ⟨k, other, data, hOther, hPlace, hMoved, hWritten, hContent⟩
      · exact Or.inl hStart
      · exact Or.inr ⟨k, other, data, hOther, hPlace, Or.inl hMoved, hWritten, hContent⟩
  | cancel =>
      have hKept : (receiving.stop .cancel).disk.content (destination start.platform base entry) =
          receiving.store.disk.content (destination start.platform base entry) := by
        unfold stop TransferJob.removeDownloadFile
        rw [hFaithful.type, hFaithful.dataSource, hFaithful.currentFile]
        cases hCurrent : files[asUsize receiving.job.fileNum]? with
        | none => rfl
        | some other =>
            obtain ⟨hDownload, hDigest⟩ := hApart entry hEntry other (List.mem_of_getElem? hCurrent)
            simp [hFaithful.platform, Storage.Disk.content_remove, hDownload, hDigest]
      rw [hKept]
      rcases hFaithful.destinations entry hEntry with
        hStart | ⟨k, other, data, hOther, hPlace, hMoved, hWritten, hContent⟩
      · exact Or.inl hStart
      · exact Or.inr ⟨k, other, data, hOther, hPlace, Or.inl hMoved, hWritten, hContent⟩
  | complete faults =>
      rcases hFaithful.closed hApart faults hEntry with
        hStart | ⟨k, other, data, hOther, hPlace, hWritten, hContent⟩
      · exact Or.inl hStart
      · exact Or.inr ⟨k, other, data, hOther, hPlace, Or.inr ⟨faults, rfl⟩, hWritten, hContent⟩

end Step

/-- A new receiving job. -/
def start (id fileNum : Int) (base : Text) (files : List FileEntry) (remote : Text)
    (showHidden isRemote detection : Bool) (store : Store) : Receiving where
  job := .newWrite id .generic remote (.filePath base) fileNum showHidden isRemote files detection
  store := store
  written _ := none

/-- In every run of a new job in which nothing fails that `write` reports, whose
blocks come in order, and which finds nothing unfinished next to the file it was
made for, each destination holds its initial content or all that was written for
its file, wherever the job stops. -/
theorem replaced_of_clean (id fileNum : Int) (base : Text) (files : List FileEntry) (remote : Text)
    (showHidden isRemote detection : Bool) (store : Store) (calls : List WriteCall) (stop : Stop)
    (hOrder : (calls.map fun call => asUsize call.block.fileNum).Pairwise (· ≤ ·))
    (hQuiet : ∀ call ∈ calls, call.faults.Quiet) (hApart : Apart store.platform base files)
    (hClean : Clean store base files fileNum) :
    Replaced store base files
      (Trace.run step (start id fileNum base files remote showHidden isRemote detection store) calls)
      stop := by
  have hStart : Faithful store base files
      (start id fileNum base files remote showHidden isRemote detection store) :=
    ⟨rfl, rfl, rfl, rfl, fun entry _ => Or.inl rfl, fun k _ => rfl,
      Or.inl ⟨rfl, fun k => rfl, hClean⟩⟩
  exact (hStart.run hApart hQuiet hOrder fun call _ => Or.inl rfl).replaced hApart stop

/-- A disk with a file that is about to be replaced. -/
def oldFile : Store where
  platform := .unix
  disk := Storage.Disk.empty.put (Lexical.Platform.unix.location "/t/a".toList) [1] 0
  ops := []

/-- The same, with an unfinished file of an earlier job next to it. -/
def staleFile : Store :=
  oldFile.put "/t/a.download".toList [9] 0

def firstBlock : WriteCall where
  env :=
    { now := 1
      zstdDecodeAll := fun _ => none
      digestToJson := fun _ => []
      digestFromJson := fun _ => none }
  faults := .none
  block := { id := 7, fileNum := 0, data := [5], compressed := false }

theorem replaced_old_file :
    Replaced oldFile "/t".toList [⟨"a".toList, 1, 0⟩]
      (Trace.run step (start 7 0 "/t".toList [⟨"a".toList, 1, 0⟩] [] false false false oldFile)
        [firstBlock]) (.complete .none) := by
  refine replaced_of_clean 7 0 "/t".toList [⟨"a".toList, 1, 0⟩] [] false false false oldFile
    [firstBlock] (.complete .none) (by simp) ?_ ?_ ?_
  · intro call hCall
    rw [List.mem_singleton.mp hCall]
    exact WriteFaults.none_quiet
  · unfold Apart
    decide +kernel
  · intro entry hEntry
    cases hEntry
    decide +kernel

/-- The first block brings the unfinished file of the earlier job into place. -/
theorem stale_file_takes_place :
    ¬ Replaced staleFile "/t".toList [⟨"a".toList, 1, 0⟩]
      (Trace.run step (start 7 0 "/t".toList [⟨"a".toList, 1, 0⟩] [] false false false staleFile)
        [firstBlock]) .disconnect := by
  intro hReplaced
  rcases hReplaced ⟨"a".toList, 1, 0⟩ (List.mem_singleton.mpr rfl) with
    hSame | ⟨k, other, data, hOther, -, hClosed, -, -⟩
  · exact absurd hSame (by decide +kernel)
  · have hZero : k = 0 := by
      cases k with
      | zero => rfl
      | succ k => simp at hOther
    have hNum : asUsize (Trace.run step
        (start 7 0 "/t".toList [⟨"a".toList, 1, 0⟩] [] false false false staleFile)
        [firstBlock]).job.fileNum = 0 := by
      decide +kernel
    rcases hClosed with hMoved | ⟨faults, hStop⟩
    · exact hMoved (hNum.trans hZero.symm)
    · cases hStop

end Receiving

end HibtDesk.FileTransfer
