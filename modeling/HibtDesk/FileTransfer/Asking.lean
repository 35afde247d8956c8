import HibtDesk.FileTransfer.Errors
import HibtDesk.FileTransfer.Resume

/-! The turns of a sending job that asks before each file: it announces the file,
waits, and then reads it from where the answer says. -/
namespace HibtDesk.FileTransfer

open Lexical (Text Platform)

theorem pair_iff (store : Store) (path : Text) :
    (store.pathExists (download path) && store.pathExists (digestPath path)) = true ↔
      ∃ data, Unfinished store path data := by
  rw [Bool.and_eq_true, Store.pathExists, Store.pathExists, Storage.Disk.isThere_eq,
    Storage.Disk.isThere_eq]
  constructor
  · rintro ⟨hDownload, hDigest⟩
    obtain ⟨data, hData⟩ := Option.isSome_iff_exists.mp hDownload
    exact ⟨data, hData, hDigest⟩
  · rintro ⟨data, hDownload, hDigest⟩
    exact ⟨Option.isSome_iff_exists.mpr ⟨data, hDownload⟩, hDigest⟩

namespace TransferJob

/-- A job that sends files and asks before each. -/
structure Asks (job : TransferJob) (base : Text) (files : List FileEntry) (id : Int) : Prop where
  id : job.id = id
  type : job.type = .generic
  dataSource : job.dataSource = .filePath base
  files : job.files = files
  asks : job.enableOverwriteDetection = true
  isLastJob : job.isLastJob = false

/-- The job is about to announce the `k`th file. -/
structure Idle (job : TransferJob) (k : Nat) : Prop where
  fileNum : job.fileNum = k
  stream : job.dataStream = none
  confirmed : job.fileConfirmed = false
  waiting : job.fileIsWaiting = false

/-- The `k`th file is open and announced, and there is no answer yet. -/
structure Waits (job : TransferJob) (source : Store) (k : Nat) (text : Bytes) : Prop where
  fileNum : job.fileNum = k
  stream : ∃ node,
    job.dataStream = some (.fileStream { node := node, pos := 0, writable := false }) ∧
      (source.disk.file node).content = text
  confirmed : job.fileConfirmed = false
  waiting : job.fileIsWaiting = true

/-- The `k`th file was confirmed, and is read from `pos` on. -/
structure Confirmed (job : TransferJob) (source : Store) (k pos : Nat) (text : Bytes) : Prop where
  fileNum : job.fileNum = k
  stream : ∃ node,
    job.dataStream = some (.fileStream { node := node, pos := pos, writable := false }) ∧
      (source.disk.file node).content = text
  confirmed : job.fileConfirmed = true
  skipped : job.fileSkipped = false

/-- A turn of `handle_read_jobs` with a single job that announces a file and then
has nothing to read. -/
theorem handleReadJobs_announce (source : Store) (plan : ReadPlan) {job opened : TransferJob}
    {digest : FileTransferDigest} (hLast : job.isLastJob = false)
    (hLast' : opened.isLastJob = false)
    (hInit : job.initDataStream source plan = (.ok (some digest), opened))
    (hRead : readJob source plan opened = ([], opened, false)) :
    handleReadJobs source (fun _ => plan) [job] = ([.digest digest], [opened], none) := by
  simp [handleReadJobs, initJobs, hLast, hInit, readFirst, hLast', hRead]

section Asks
variable {job : TransferJob} {source : Store} {plan : ReadPlan} {base : Text}
  {files : List FileEntry} {id : Int} {k pos : Nat} {text : Bytes} {entry : FileEntry}

theorem Asks.currentFile (hAsks : job.Asks base files id) (hNum : job.fileNum = k) :
    job.currentFile = files[k]? := by
  simp [TransferJob.currentFile, hAsks.files, hNum]

/-- An idle job opens its file and announces it. -/
theorem Asks.announce (hAsks : job.Asks base files id) (hIdle : job.Idle k)
    (hEntry : files[k]? = some entry)
    (hText : source.content (join source.platform base entry.name) = some text)
    (hOpens : plan.openFails = false) (hMetadata : plan.metadataFails = false) :
    ∃ digest opened,
      handleReadJobs source (fun _ => plan) [job] = ([.digest digest], [opened], none) ∧
      digest.id = id ∧ digest.fileNum = k ∧ digest.isUpload = false ∧
      opened.Asks base files id ∧ opened.Waits source k text := by
  have hFile := hAsks.currentFile hIdle.fileNum
  rw [hEntry] at hFile
  obtain ⟨node, hFound, hNode⟩ : ∃ node,
      source.disk.node (source.platform.location (join source.platform base entry.name)) =
        some node ∧ (source.disk.file node).content = text := by
    simpa [Store.content, Storage.Disk.content, Storage.Disk.lookup] using hText
  refine ⟨
    { id := job.id
      fileNum := job.fileNum
      lastModified := (source.disk.file node).modified / nanosPerSec
      fileSize := (source.disk.file node).content.length
      isUpload := false
      isIdentical := false
      transferredSize := 0
      isResume := job.isResume },
    { job with
      dataStream := some (.fileStream { node := node, pos := 0, writable := false })
      fileConfirmed := false
      fileIsWaiting := true }, handleReadJobs_announce source plan hAsks.isLastJob hAsks.isLastJob ?_ ?_,
    hAsks.id, hIdle.fileNum, rfl,
    ⟨hAsks.id, hAsks.type, hAsks.dataSource, hAsks.files, hAsks.asks, hAsks.isLastJob⟩,
    ⟨hIdle.fileNum, ⟨node, rfl, hNode⟩, rfl, rfl⟩⟩
  · simp [initDataStream, openDataStream, hAsks.dataSource, hFile, hIdle.stream, hOpens, hFound,
      hAsks.type, hAsks.asks, getCurrentDigest, hMetadata, setFileIsWaiting]
  · simp [readJob, read, hAsks.type, hAsks.asks, jobCompleted]

/-- A job that waits for an answer goes on waiting. -/
theorem Asks.wait (hAsks : job.Asks base files id) (hWaits : job.Waits source k text)
    (hEntry : files[k]? = some entry) (plan : ReadPlan) :
    handleReadJobs source (fun _ => plan) [job] = ([], [job], none) := by
  have hFile := hAsks.currentFile hWaits.fileNum
  rw [hEntry] at hFile
  obtain ⟨node, hStream, -⟩ := hWaits.stream
  have hInit : job.initDataStream source plan = (.ok none, job) := by
    simp [initDataStream, openDataStream, hAsks.dataSource, hFile, hStream, hWaits.waiting]
  have hRead : readJob source plan job = ([], job, false) := by
    simp [readJob, read, hAsks.type, hAsks.asks, hWaits.confirmed, jobCompleted, hWaits.waiting]
  rw [handleReadJobs_single source plan hAsks.isLastJob hAsks.isLastJob hInit, hRead]
  rfl

/-- Past the last file the job ends, and says so, unless its only file was skipped. -/
theorem Asks.finish (hAsks : job.Asks base files id) (hIdle : job.Idle k)
    (hEnd : files[k]? = none) (plan : ReadPlan) :
    ∃ message ended,
      handleReadJobs source (fun _ => plan) [job] = ([message], [], some ended) ∧
      (message = .done id k ∨
        message = .error id .skipped k ∧ job.fileSkipped = true ∧ files.length = 1) := by
  have hFile := hAsks.currentFile hIdle.fileNum
  rw [hEnd] at hFile
  have hInit : job.initDataStream source plan = (.ok none, { job with dataStream := none }) := by
    simp [initDataStream, openDataStream, hAsks.dataSource, hFile]
  have hLast : ({ job with dataStream := none } : TransferJob).isLastJob = false := hAsks.isLastJob
  rw [handleReadJobs_single source plan hAsks.isLastJob hLast hInit]
  by_cases hSkipped : job.fileSkipped = true ∧ files.length = 1
  · refine ⟨.error id .skipped k, { job with dataStream := none }, ?_, Or.inr ⟨rfl, hSkipped⟩⟩
    simp [readJob, read, hAsks.type, hAsks.asks, hIdle.confirmed, jobCompleted, hIdle.waiting,
      jobError, jobSkipped, hSkipped, hAsks.files, hAsks.id, hIdle.fileNum, removeJob]
  · refine ⟨.done id k, { job with dataStream := none }, ?_, Or.inl rfl⟩
    simp [readJob, read, hAsks.type, hAsks.asks, hIdle.confirmed, jobCompleted, hIdle.waiting,
      jobError, jobSkipped, hSkipped, hAsks.files, hAsks.id, hIdle.fileNum, removeJob]

/-- A confirmed file needs no more asking. -/
theorem Confirmed.init (hAsks : job.Asks base files id) (hConfirmed : job.Confirmed source k pos text)
    (hEntry : files[k]? = some entry) (plan : ReadPlan) :
    job.initDataStream source plan = (.ok none, job) ∧
      job.read source plan =
        job.readChunk source plan (some (chunkName source.platform files base entry)) := by
  have hFile := hAsks.currentFile hConfirmed.fileNum
  rw [hEntry] at hFile
  obtain ⟨node, hStream, -⟩ := hConfirmed.stream
  constructor
  · simp [initDataStream, openDataStream, hAsks.dataSource, hFile, hStream, hConfirmed.confirmed]
  · simp [read, hAsks.dataSource, hFile, hConfirmed.confirmed, hAsks.files]

/-- A turn sends the next chunk of a confirmed file. -/
theorem Confirmed.turn_chunk (hAsks : job.Asks base files id)
    (hConfirmed : job.Confirmed source k pos text) (hEntry : files[k]? = some entry)
    (hReads : readLoop plan.pieces (text.drop pos) bufSize = .ok ((text.drop pos).take bufSize))
    (hLeft : (text.drop pos).take bufSize ≠ []) :
    ∃ next,
      handleReadJobs source (fun _ => plan) [job] =
        ([.block
          { id := id
            fileNum := k
            data := (packChunk plan (some (chunkName source.platform files base entry))
              ((text.drop pos).take bufSize)).1
            compressed := (packChunk plan (some (chunkName source.platform files base entry))
              ((text.drop pos).take bufSize)).2 }], [next], none) ∧
      next.Asks base files id ∧
      next.Confirmed source k (pos + ((text.drop pos).take bufSize).length) text := by
  obtain ⟨hInit, hRead⟩ := hConfirmed.init hAsks hEntry plan
  obtain ⟨node, hStream, hNode⟩ := hConfirmed.stream
  rw [readChunk_of_left hStream hNode hReads hLeft, hAsks.id, hConfirmed.fileNum] at hRead
  have hTurn : job.readTurn source plan = job.read source plan := by rw [readTurn, hInit]
  exact ⟨_, handleReadJobs_of_block hAsks.isLastJob (by rw [hInit]) (hTurn.trans hRead),
    ⟨rfl, hAsks.type, hAsks.dataSource, hAsks.files, hAsks.asks, hAsks.isLastJob⟩,
    ⟨rfl, ⟨node, rfl, hNode⟩, hConfirmed.confirmed, hConfirmed.skipped⟩⟩

/-- At the end of a confirmed file a turn sends an empty block. -/
theorem Confirmed.turn_end (hAsks : job.Asks base files id)
    (hConfirmed : job.Confirmed source k pos text) (hEntry : files[k]? = some entry)
    (hReads : readLoop plan.pieces (text.drop pos) bufSize = .ok ((text.drop pos).take bufSize))
    (hLeft : text.drop pos = []) :
    ∃ next,
      handleReadJobs source (fun _ => plan) [job] =
        ([.block { id := id, fileNum := k, data := [], compressed := false }], [next], none) ∧
      next.Asks base files id ∧ next.Idle (k + 1) ∧ next.fileSkipped = false := by
  obtain ⟨hInit, hRead⟩ := hConfirmed.init hAsks hEntry plan
  obtain ⟨node, hStream, hNode⟩ := hConfirmed.stream
  rw [readChunk_of_end hStream hNode hReads hLeft, hAsks.id, hConfirmed.fileNum] at hRead
  have hTurn : job.readTurn source plan = job.read source plan := by rw [readTurn, hInit]
  refine ⟨job.nextFile, handleReadJobs_of_block hAsks.isLastJob (by rw [hInit]) (hTurn.trans hRead),
    ⟨hAsks.id, hAsks.type, hAsks.dataSource, hAsks.files, hAsks.asks, hAsks.isLastJob⟩,
    ⟨?_, rfl, rfl, rfl⟩, hConfirmed.skipped⟩
  simp [nextFile, hConfirmed.fileNum]

section Answer
variable {id' : Int} {store : Store}

/-- A job that is elsewhere takes no notice of an answer. -/
theorem confirmed_of_ne {r : FileTransferSendConfirmRequest} (hNum : job.fileNum ≠ r.fileNum)
    (faults : SeekFaults) : job.confirmed store faults r = job := by
  simp [TransferJob.confirmed, confirm, hNum]

/-- An answer about the file at hand skips it, -/
theorem confirmed_skips (hNum : job.fileNum = k) :
    job.confirmed store .none { id := id', fileNum := k, union := some (.skip true) } =
      job.setFileSkipped := by
  simp [TransferJob.confirmed, confirm, hNum]

/-- or has it sent from its start, -/
theorem confirmed_starts (hNum : job.fileNum = k) :
    job.confirmed store .none { id := id', fileNum := k, union := some (.offsetBlk 0) } =
      job.setFileConfirmed true := by
  simp [TransferJob.confirmed, confirm, hNum]

/-- or from an offset on, if it can be opened there. -/
theorem confirmed_seeks (hNum : job.fileNum = k) (hSource : job.dataSource = .filePath base)
    (hEntry : job.files[k]? = some entry) {offset : Nat} (hOffset : 0 < offset) {handle : Handle}
    (hHandle : offsetHandle store (join store.platform base entry.name) offset = some handle) :
    job.confirmed store .none { id := id', fileNum := k, union := some (.offsetBlk offset) } =
      { job.setFileConfirmed true with
        dataStream := some (.fileStream handle)
        transferred := job.transferred + offset
        finishedSize := job.finishedSize + offset } := by
  simp [TransferJob.confirmed, confirm, hNum, hOffset, setStreamOffset, setFileConfirmed, hSource, hEntry,
    SeekFaults.none, hHandle]

/-- A skipped file is left for the next one. -/
theorem Waits.confirmed_skip (hAsks : job.Asks base files id) (hWaits : job.Waits source k text) :
    (job.confirmed source .none { id := id', fileNum := k, union := some (.skip true) }).Asks base
        files id ∧
      (job.confirmed source .none { id := id', fileNum := k, union := some (.skip true) }).Idle
        (k + 1) := by
  rw [confirmed_skips hWaits.fileNum]
  refine ⟨⟨hAsks.id, hAsks.type, hAsks.dataSource, hAsks.files, hAsks.asks, hAsks.isLastJob⟩,
    ⟨?_, rfl, rfl, rfl⟩⟩
  simp [setFileSkipped, setFileConfirmed, setFileIsWaiting, hWaits.fileNum]

/-- A file that is to be sent from its start is read from there. -/
theorem Waits.confirmed_start (hAsks : job.Asks base files id) (hWaits : job.Waits source k text) :
    (job.confirmed source .none { id := id', fileNum := k, union := some (.offsetBlk 0) }).Asks base
        files id ∧
      (job.confirmed source .none
        { id := id', fileNum := k, union := some (.offsetBlk 0) }).Confirmed source k 0 text := by
  rw [confirmed_starts hWaits.fileNum]
  exact ⟨⟨hAsks.id, hAsks.type, hAsks.dataSource, hAsks.files, hAsks.asks, hAsks.isLastJob⟩,
    ⟨hWaits.fileNum, hWaits.stream, rfl, rfl⟩⟩

/-- A file that is to be sent from an offset on is read from there, unless
something unfinished lies next to it. -/
theorem Waits.confirmed_offset (hAsks : job.Asks base files id) (hWaits : job.Waits source k text)
    (hEntry : files[k]? = some entry)
    (hText : source.content (join source.platform base entry.name) = some text)
    (hClean : ∀ data, ¬ Unfinished source (join source.platform base entry.name) data)
    {offset : Nat} (hOffset : 0 < offset) :
    (job.confirmed source .none
        { id := id', fileNum := k, union := some (.offsetBlk offset) }).Asks base files id ∧
      (job.confirmed source .none
        { id := id', fileNum := k, union := some (.offsetBlk offset) }).Confirmed source k offset
          text := by
  obtain ⟨node, hFound, hNode⟩ : ∃ node,
      source.disk.node (source.platform.location (join source.platform base entry.name)) =
        some node ∧ (source.disk.file node).content = text := by
    simpa [Store.content, Storage.Disk.content, Storage.Disk.lookup] using hText
  have hHandle : offsetHandle source (join source.platform base entry.name) offset =
      some { node := node, pos := offset, writable := false } := by
    have hPair := mt (pair_iff source (join source.platform base entry.name)).mp
      (not_exists.mpr hClean)
    unfold offsetHandle
    rw [if_neg hPair]
    simp [hFound]
  rw [confirmed_seeks hWaits.fileNum hAsks.dataSource (by rw [hAsks.files, hEntry]) hOffset hHandle]
  exact ⟨⟨hAsks.id, hAsks.type, hAsks.dataSource, hAsks.files, hAsks.asks, hAsks.isLastJob⟩,
    ⟨hWaits.fileNum, ⟨node, rfl, hNode⟩, rfl, rfl⟩⟩

end Answer

end Asks

end TransferJob

end HibtDesk.FileTransfer
