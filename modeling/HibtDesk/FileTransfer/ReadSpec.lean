import HibtDesk.FileTransfer.Read

/-! What a turn of the sending side reads: the next chunk of the file, however
the operating system cuts it into pieces. -/
namespace HibtDesk.FileTransfer

open Lexical (Text Platform)

/-- Nothing fails when the plan is followed. -/
structure ReadPlan.Sound (plan : ReadPlan) : Prop where
  opens : plan.openFails = false
  reads : ∀ piece ∈ plan.pieces, piece ≠ none

/-- What is read is what is left, as far as there is room. -/
theorem readLoop_ok {pieces : List (Option Nat)} {left data : Bytes} {room : Nat}
    (hRead : readLoop pieces left room = .ok data) (hRoom : 0 < room) :
    readLoop pieces left room = .ok (left.take room) := by
  induction pieces generalizing left data room with
  | nil => rfl
  | cons piece pieces ih =>
      cases piece with
      | none => simp [readLoop] at hRead
      | some piece =>
          unfold readLoop at hRead ⊢
          simp only at hRead ⊢
          generalize hCount : min (max piece 1) (min room left.length) = n at hRead ⊢
          split at hRead
          · rename_i hStop
            rw [if_pos hStop]
            rcases hStop with hNone | hFull
            · have hEmpty : left = [] := by
                apply List.eq_nil_of_length_eq_zero
                omega
              simp [hEmpty]
            · rw [hFull]
          · rename_i hGo
            rw [if_neg hGo]
            cases hRest : readLoop pieces (left.drop n) (room - n) with
            | error error => simp [hRest] at hRead
            | ok rest =>
                rw [← hRest, ih hRest (by omega)]
                simp only
                rw [← List.take_add, Nat.add_sub_of_le (by omega)]

theorem readLoop_isOk {pieces : List (Option Nat)} (hPieces : ∀ piece ∈ pieces, piece ≠ none)
    (left : Bytes) (room : Nat) : ∃ data, readLoop pieces left room = .ok data := by
  induction pieces generalizing left room with
  | nil => exact ⟨_, rfl⟩
  | cons piece pieces ih =>
      cases piece with
      | none => exact absurd rfl (hPieces none List.mem_cons_self)
      | some piece =>
          unfold readLoop
          simp only
          split
          · exact ⟨_, rfl⟩
          · obtain ⟨data, hData⟩ := ih
              (fun other hOther => hPieces other (List.mem_cons_of_mem _ hOther))
              (left.drop (min (max piece 1) (min room left.length)))
              (room - min (max piece 1) (min room left.length))
            rw [hData]
            exact ⟨_, rfl⟩

/-- The turn of a job goes well: a file that is to be opened can be opened, and
no read of it fails. -/
structure ReadPlan.Serves (plan : ReadPlan) (job : TransferJob) (left : Bytes) : Prop where
  opens : job.dataStream = none → plan.openFails = false
  reads : readLoop plan.pieces left bufSize = .ok (left.take bufSize)

theorem ReadPlan.Sound.serves {plan : ReadPlan} (hSound : plan.Sound) (job : TransferJob)
    (left : Bytes) : plan.Serves job left := by
  obtain ⟨data, hData⟩ := readLoop_isOk hSound.reads left bufSize
  exact ⟨fun _ => hSound.opens, readLoop_ok hData (by decide)⟩

namespace TransferJob

/-- The job is to read the `k`th file from `pos` on. -/
structure Sending (job : TransferJob) (source : Store) (base : Text) (files : List FileEntry)
    (k pos : Nat) (content : Bytes) : Prop where
  dataSource : job.dataSource = .filePath base
  files : job.files = files
  asks : job.enableOverwriteDetection = false
  fileNum : job.fileNum = k
  stream : (job.dataStream = none ∧ pos = 0) ∨
    ∃ node, job.dataStream = some (.fileStream { node := node, pos := pos, writable := false }) ∧
      (source.disk.file node).content = content

/-- What a turn of a sending job leaves as it was. -/
structure Kept (job next : TransferJob) : Prop where
  id : next.id = job.id
  dataSource : next.dataSource = job.dataSource
  files : next.files = job.files
  asks : next.enableOverwriteDetection = job.enableOverwriteDetection
  skipped : next.fileSkipped = job.fileSkipped
  isLastJob : next.isLastJob = job.isLastJob

/-- A turn of the job by itself: make sure that a file is open, and read. -/
def readTurn (source : Store) (plan : ReadPlan) (job : TransferJob) :
    Except JobError (Option FileTransferBlock) × TransferJob :=
  (job.initDataStream source plan).2.read source plan

section Turn
variable {job : TransferJob} {source : Store} {plan : ReadPlan} {base : Text}
  {files : List FileEntry} {k pos : Nat} {content : Bytes} {entry : FileEntry}

theorem Sending.currentFile (hSending : job.Sending source base files k pos content) :
    job.currentFile = files[k]? := by
  simp [TransferJob.currentFile, hSending.files, hSending.fileNum]

/-- After its turn to open a file the job has the file open where it left off. -/
theorem Sending.init (hSending : job.Sending source base files k pos content)
    (hEntry : files[k]? = some entry)
    (hContent : source.content (join source.platform base entry.name) = some content)
    (hOpens : job.dataStream = none → plan.openFails = false) :
    ∃ next node,
      job.initDataStream source plan = (.ok none, next) ∧ job.Kept next ∧
      next.fileNum = k ∧ next.finishedSize = job.finishedSize ∧
      next.dataStream = some (.fileStream { node := node, pos := pos, writable := false }) ∧
      (source.disk.file node).content = content := by
  have hCurrent := hSending.currentFile
  rw [hEntry] at hCurrent
  have hQuiet : ∀ opened : TransferJob, opened.enableOverwriteDetection = false →
      job.openDataStream source plan = (.ok false, opened) →
      job.initDataStream source plan = (.ok none, opened) := by
    intro opened hAsks hOpen
    simp [initDataStream, hOpen, hAsks]
  rcases hSending.stream with ⟨hNone, rfl⟩ | ⟨node, hStream, hNode⟩
  · obtain ⟨node, hFound, hNode⟩ : ∃ node,
        source.disk.node (source.platform.location (join source.platform base entry.name)) =
          some node ∧ (source.disk.file node).content = content := by
      simpa [Store.content, Storage.Disk.content, Storage.Disk.lookup] using hContent
    refine ⟨{ job with
        dataStream := some (.fileStream { node := node, pos := 0, writable := false })
        fileConfirmed := false
        fileIsWaiting := false }, node, hQuiet _ ?_ ?_, ⟨rfl, rfl, rfl, rfl, rfl, rfl⟩, hSending.fileNum, rfl,
      rfl, hNode⟩
    · exact hSending.asks
    · simp [openDataStream, hSending.dataSource, hCurrent, hNone, hOpens hNone, hFound]
  · refine ⟨job, node, hQuiet _ hSending.asks ?_, ⟨rfl, rfl, rfl, rfl, rfl, rfl⟩, hSending.fileNum, rfl,
      hStream, hNode⟩
    simp [openDataStream, hSending.dataSource, hCurrent, hStream]

/-- What is left of the open file is packed, as far as there is room. -/
theorem readChunk_of_left {node : Nat} {name : Text}
    (hStream : job.dataStream =
      some (.fileStream { node := node, pos := pos, writable := false }))
    (hNode : (source.disk.file node).content = content)
    (hReads : readLoop plan.pieces (content.drop pos) bufSize =
      .ok ((content.drop pos).take bufSize))
    (hLeft : (content.drop pos).take bufSize ≠ []) :
    job.readChunk source plan (some name) =
      (.ok (some
        { id := job.id
          fileNum := job.fileNum
          data := (packChunk plan (some name) ((content.drop pos).take bufSize)).1
          compressed := (packChunk plan (some name) ((content.drop pos).take bufSize)).2 }),
        { job with
          dataStream := some (.fileStream
            { node := node, pos := pos + ((content.drop pos).take bufSize).length
              writable := false })
          finishedSize := job.finishedSize + ((content.drop pos).take bufSize).length
          transferred := job.transferred +
            (packChunk plan (some name) ((content.drop pos).take bufSize)).1.length }) := by
  unfold readChunk DataStream.read
  simp only [hStream, Bool.false_eq_true, if_false, hNode]
  rw [hReads]
  simp only [if_neg hLeft]

/-- At the end of the open file the job moves on. -/
theorem readChunk_of_end {node : Nat} {name : Text}
    (hStream : job.dataStream =
      some (.fileStream { node := node, pos := pos, writable := false }))
    (hNode : (source.disk.file node).content = content)
    (hReads : readLoop plan.pieces (content.drop pos) bufSize =
      .ok ((content.drop pos).take bufSize))
    (hLeft : content.drop pos = []) :
    job.readChunk source plan (some name) =
      (.ok (some { id := job.id, fileNum := job.fileNum, data := [], compressed := false }),
        job.nextFile) := by
  unfold readChunk DataStream.read
  simp only [hStream, Bool.false_eq_true, if_false, hNode]
  rw [hReads, hLeft]
  simp only [List.take_nil, if_true]

/-- A turn reads from the file that it has opened. -/
theorem Sending.readTurn_eq (hSending : job.Sending source base files k pos content)
    (hEntry : files[k]? = some entry)
    (hContent : source.content (join source.platform base entry.name) = some content)
    (hOpens : job.dataStream = none → plan.openFails = false) :
    ∃ opened node,
      (job.initDataStream source plan).1 = .ok none ∧
      job.readTurn source plan =
        opened.readChunk source plan (some (chunkName source.platform files base entry)) ∧
      job.Kept opened ∧ opened.fileNum = k ∧ opened.finishedSize = job.finishedSize ∧
      opened.dataStream = some (.fileStream { node := node, pos := pos, writable := false }) ∧
      (source.disk.file node).content = content := by
  obtain ⟨opened, node, hInit, hKept, hNum, hFinished, hStream, hNode⟩ :=
    hSending.init hEntry hContent hOpens
  have hCurrent : opened.currentFile = some entry := by
    rw [TransferJob.currentFile, hKept.files, hSending.files, hNum, asUsize_natCast, hEntry]
  refine ⟨opened, node, by rw [hInit], ?_, hKept, hNum, hFinished, hStream, hNode⟩
  unfold readTurn read
  rw [hInit]
  simp only [hKept.asks, hSending.asks, Bool.false_eq_true, false_and, and_false, if_false,
    hKept.dataSource, hSending.dataSource, hCurrent, hKept.files, hSending.files]

/-- A turn sends the next chunk of the file. -/
theorem Sending.turn_chunk (hSending : job.Sending source base files k pos content)
    (hEntry : files[k]? = some entry)
    (hContent : source.content (join source.platform base entry.name) = some content)
    (hPlan : plan.Serves job (content.drop pos)) (hLeft : (content.drop pos).take bufSize ≠ []) :
    ∃ next,
      (job.initDataStream source plan).1 = .ok none ∧
      job.readTurn source plan =
        (.ok (some
          { id := job.id
            fileNum := k
            data := (packChunk plan (some (chunkName source.platform files base entry))
              ((content.drop pos).take bufSize)).1
            compressed := (packChunk plan (some (chunkName source.platform files base entry))
              ((content.drop pos).take bufSize)).2 }), next) ∧
      job.Kept next ∧
      next.Sending source base files k (pos + ((content.drop pos).take bufSize).length) content ∧
      next.finishedSize = job.finishedSize + ((content.drop pos).take bufSize).length := by
  obtain ⟨opened, node, hInit, hTurn, hKept, hNum, hFinished, hStream, hNode⟩ :=
    hSending.readTurn_eq hEntry hContent hPlan.opens
  rw [hTurn, readChunk_of_left hStream hNode hPlan.reads hLeft]
  simp only [hKept.id, hNum, hFinished]
  refine ⟨_, hInit, rfl,
    ⟨rfl, hKept.dataSource, hKept.files, hKept.asks, hKept.skipped, hKept.isLastJob⟩,
    ⟨?_, ?_, ?_, rfl, ?_⟩, rfl⟩
  · exact hKept.dataSource.trans hSending.dataSource
  · exact hKept.files.trans hSending.files
  · exact hKept.asks.trans hSending.asks
  · exact Or.inr ⟨node, rfl, hNode⟩

/-- At the end of the file a turn sends an empty block, and the job moves on. -/
theorem Sending.turn_end (hSending : job.Sending source base files k pos content)
    (hEntry : files[k]? = some entry)
    (hContent : source.content (join source.platform base entry.name) = some content)
    (hPlan : plan.Serves job (content.drop pos)) (hLeft : content.drop pos = []) :
    ∃ next,
      (job.initDataStream source plan).1 = .ok none ∧
      job.readTurn source plan =
        (.ok (some { id := job.id, fileNum := k, data := [], compressed := false }), next) ∧
      job.Kept next ∧ (∀ rest, next.Sending source base files (k + 1) 0 rest) ∧
      next.finishedSize = job.finishedSize := by
  obtain ⟨opened, node, hInit, hTurn, hKept, hNum, hFinished, hStream, hNode⟩ :=
    hSending.readTurn_eq hEntry hContent hPlan.opens
  rw [hTurn, readChunk_of_end hStream hNode hPlan.reads hLeft]
  simp only [hKept.id, hNum]
  refine ⟨_, hInit, rfl,
    ⟨hKept.id, hKept.dataSource, hKept.files, hKept.asks, hKept.skipped, hKept.isLastJob⟩,
    fun rest => ⟨?_, ?_, ?_, ?_, ?_⟩, hFinished⟩
  · exact hKept.dataSource.trans hSending.dataSource
  · exact hKept.files.trans hSending.files
  · exact hKept.asks.trans hSending.asks
  · simp [nextFile, hNum]
  · exact Or.inl ⟨rfl, rfl⟩

theorem read_of_past {job : TransferJob} (source : Store) (plan : ReadPlan)
    (hSource : job.dataSource = .filePath base) (hAsks : job.enableOverwriteDetection = false)
    (hEnd : job.currentFile = none) :
    job.read source plan = (.ok none, { job with dataStream := none }) := by
  simp [read, hAsks, hSource, hEnd]

/-- Past the last file nothing is sent any more. -/
theorem Sending.turn_idle (hSending : job.Sending source base files k pos content)
    (hEnd : files[k]? = none) (plan : ReadPlan) :
    ∃ next,
      (job.initDataStream source plan).1 = .ok none ∧
      job.readTurn source plan = (.ok none, next) ∧ job.Kept next ∧
      (∀ rest, next.Sending source base files k 0 rest) ∧
      next.finishedSize = job.finishedSize := by
  have hCurrent := hSending.currentFile
  rw [hEnd] at hCurrent
  have hInit : job.initDataStream source plan = (.ok none, { job with dataStream := none }) := by
    simp [initDataStream, openDataStream, hSending.dataSource, hCurrent]
  refine ⟨{ job with dataStream := none }, by rw [hInit], ?_, ⟨rfl, rfl, rfl, rfl, rfl, rfl⟩,
    fun rest => ⟨hSending.dataSource, hSending.files, hSending.asks, hSending.fileNum,
      Or.inl ⟨rfl, rfl⟩⟩, rfl⟩
  unfold readTurn
  rw [hInit]
  exact read_of_past source plan hSending.dataSource hSending.asks hCurrent

end Turn

end TransferJob

end HibtDesk.FileTransfer
