import HibtDesk.FileTransfer.Confirm
import HibtDesk.Library.Trace

/-! When a sending job ends. A job that asks before it overwrites is taken for
finished as soon as it has nothing to read while no answer is awaited, so a file
that cannot be opened, or whose digest cannot be taken, ends the job with the
files after it unsent. -/
namespace HibtDesk.FileTransfer

/-- What happens to the sending jobs of a connection. The disk may be another
one each time it is looked at. -/
inductive ReadEvent where
  | start (job : TransferJob) (hFresh : job.dataStream = none)
  | resume (id : Int)
  | cancel (id : Int)
  | confirm (store : Store) (faults : SeekFaults) (r : FileTransferSendConfirmRequest)
  | tick (store : Store) (plan : Nat → ReadPlan)

/-- `Data::ResumeJob` for a sending job: a job of an earlier run goes on. -/
def TransferJob.resumed (job : TransferJob) : TransferJob :=
  match job.dataSource with
  | .filePath _ => { job with isLastJob := false, isResume := true }.setFinishedSizeOnResume
  | .memoryCursor _ => job

def readStep (jobs : List TransferJob) : ReadEvent → List TransferJob
  | .start job _ => jobs ++ [job]
  | .resume id =>
      match getJob id jobs with
      | some job => putJob id job.resumed jobs
      | none => jobs
  | .cancel id => (removeJob id jobs).2
  | .confirm store faults r =>
      match getJob r.id jobs with
      | some job =>
          match job.confirm store faults r with
          | some job => putJob r.id job jobs
          -- A panic takes the connection down, and its jobs with it.
          | none => []
      | none => jobs
  | .tick store plan => (handleReadJobs store plan jobs).2.1

/-- The job that is done with after the event. -/
def finishedBy (jobs : List TransferJob) : ReadEvent → Option TransferJob
  | .tick store plan => (handleReadJobs store plan jobs).2.2
  | _ => none

namespace TransferJob

/-- The job sends files, and asks for each of them first. -/
def Detecting (job : TransferJob) : Prop :=
  job.type = .generic ∧ (∃ base, job.dataSource = .filePath base) ∧
    job.enableOverwriteDetection = true

/-- What a job over files reads from is a file. -/
def Sound (job : TransferJob) : Prop :=
  ∀ base data pos, job.dataSource = .filePath base → job.dataStream ≠ some (.bufStream data pos)

/-- The current file can be opened. -/
def opens (store : Store) (plan : ReadPlan) (job : TransferJob) : Bool :=
  match job.dataSource, job.currentFile with
  | .filePath base, some entry =>
      !plan.openFails && store.pathExists (join store.platform base entry.name)
  | _, _ => true

/-- The turn of the job goes well: a file that is to be opened opens, unless it is
the last one, and a digest that is due can be taken. -/
def TurnSucceeds (store : Store) (plan : ReadPlan) (job : TransferJob) : Prop :=
  job.currentFile.isSome = true →
    (job.dataStream = none → job.opens store plan = false →
      job.files.length ≤ asUsize (job.fileNum + 1)) ∧
    (job.dataStream = none ∧ job.opens store plan = true ∨
      job.dataStream ≠ none ∧ job.fileConfirmed = false ∧ job.fileIsWaiting = false →
        plan.metadataFails = false)

theorem currentFile_eq_none_iff (job : TransferJob) :
    job.currentFile = none ↔ job.files.length ≤ asUsize job.fileNum := by
  simp [currentFile]

theorem not_le_of_currentFile {job : TransferJob} (hFile : job.currentFile.isSome = true) :
    ¬ job.files.length ≤ asUsize job.fileNum := by
  intro hPast
  rw [(currentFile_eq_none_iff job).mpr hPast] at hFile
  exact Bool.false_ne_true hFile

/-- What opening can do to a job over files. -/
theorem openDataStream_cases (store : Store) (plan : ReadPlan) {job : TransferJob} {base : Lexical.Text}
    (hSource : job.dataSource = .filePath base) :
    (job.currentFile = none ∧
      job.openDataStream store plan = (.ok true, { job with dataStream := none })) ∨
    (job.currentFile.isSome = true ∧ job.dataStream ≠ none ∧
      job.openDataStream store plan = (.ok false, job)) ∨
    (job.currentFile.isSome = true ∧ job.dataStream = none ∧ job.opens store plan = true ∧
      ∃ file, job.openDataStream store plan =
        (.ok false,
          { job with
            dataStream := some (.fileStream file), fileConfirmed := false
            fileIsWaiting := false })) ∨
    (job.currentFile.isSome = true ∧ job.dataStream = none ∧ job.opens store plan = false ∧
      job.openDataStream store plan =
        (.error .io,
          { job with
            fileNum := job.fileNum + 1, fileConfirmed := false, fileIsWaiting := false })) := by
  unfold openDataStream opens
  rw [hSource]
  cases hFile : job.currentFile with
  | none => simp
  | some entry =>
      cases hStream : job.dataStream with
      | some stream => simp
      | none =>
          simp only [Store.pathExists, Storage.Disk.isThere]
          cases plan.openFails with
          | true => simp
          | false =>
              cases store.disk.node (store.platform.location (join store.platform base entry.name)) with
              | none => simp
              | some node => simp

/-- Reading a file always yields a block or an error. -/
theorem readChunk_ne_none (store : Store) (plan : ReadPlan) (job rest : TransferJob)
    (name : Lexical.Text) : job.readChunk store plan (some name) ≠ (.ok none, rest) := by
  unfold readChunk
  split
  · simp
  · split
    · simp
    · split
      · simp
      · simp

/-- Nothing to read leaves the flags as they were. -/
theorem jobCompleted_of_read {store : Store} {plan : ReadPlan} {job rest : TransferJob}
    {base : Lexical.Text} (hSource : job.dataSource = .filePath base)
    (hRead : job.read store plan = (.ok none, rest)) : rest.jobCompleted = job.jobCompleted := by
  unfold read at hRead
  split at hRead
  · cases hRead
    rfl
  · rw [hSource] at hRead
    cases hFile : job.currentFile with
    | none =>
        simp only [hFile] at hRead
        cases hRead
        rfl
    | some entry =>
        simp only [hFile] at hRead
        exact absurd hRead (readChunk_ne_none _ _ _ _ _)

theorem readJob_of_idle (store : Store) (plan : ReadPlan) {job : TransferJob}
    (hDetecting : job.Detecting) (hIdle : job.jobCompleted = true) :
    (readJob store plan job).2 = (job, true) := by
  obtain ⟨hType, -, hAsks⟩ := hDetecting
  have hFlag : job.fileConfirmed = false := by
    simp only [jobCompleted, hAsks, Bool.not_true, Bool.false_or, Bool.and_eq_true,
      Bool.not_eq_true'] at hIdle
    exact hIdle.1
  have hRead : job.read store plan = (.ok none, job) := by
    simp [read, hType, hAsks, hFlag]
  unfold readJob
  rw [hRead]
  simp only [hIdle, if_true]
  split <;> rfl

theorem readJob_of_busy (store : Store) (plan : ReadPlan) {job : TransferJob}
    (hDetecting : job.Detecting) (hBusy : job.jobCompleted = false) :
    (readJob store plan job).2.2 = false := by
  obtain ⟨-, ⟨base, hSource⟩, -⟩ := hDetecting
  unfold readJob
  split
  · rfl
  · rfl
  · rename_i rest hRead
    rw [jobCompleted_of_read hSource hRead, hBusy]
    rfl

/-- After its turn to open a file a job that asks first is idle with files left
exactly when the turn went wrong. -/
theorem turnSucceeds_iff (store : Store) (plan : ReadPlan) {job : TransferJob}
    (hDetecting : job.Detecting) (hSound : job.Sound) :
    job.TurnSucceeds store plan ↔
      ((job.initDataStream store plan).2.jobCompleted = true →
        (job.initDataStream store plan).2.files.length ≤
          asUsize (job.initDataStream store plan).2.fileNum) := by
  obtain ⟨hType, ⟨base, hSource⟩, hAsks⟩ := hDetecting
  unfold TurnSucceeds initDataStream
  rcases openDataStream_cases store plan hSource with
    ⟨hFile, hOpen⟩ | ⟨hFile, hStream, hOpen⟩ | ⟨hFile, hStream, hOpens, file, hOpen⟩ |
      ⟨hFile, hStream, hOpens, hOpen⟩
  · have hPast := (currentFile_eq_none_iff job).mp hFile
    simp [hOpen, hFile, hPast]
  · have hIn := not_le_of_currentFile hFile
    cases hKind : job.dataStream with
    | none => exact absurd hKind hStream
    | some stream =>
        cases stream with
        | bufStream data pos => exact absurd hKind (hSound base data pos hSource)
        | fileStream file =>
            by_cases hIdle : job.fileConfirmed = false ∧ job.fileIsWaiting = false
            · cases hMeta : plan.metadataFails <;>
                simp [hOpen, hFile, hIdle, hType, hAsks, getCurrentDigest, hKind, hMeta, jobCompleted,
                  setFileIsWaiting, hIn]
            · have hBusy : ¬ job.jobCompleted = true := by
                simpa [jobCompleted, hAsks] using hIdle
              have hNo : ¬ (job.type = .generic ∧ job.enableOverwriteDetection = true ∧
                  (!job.fileConfirmed) = true ∧ (!job.fileIsWaiting) = true) := by
                simpa [hType, hAsks] using hIdle
              simp only [hOpen, if_neg hNo, hBusy, Bool.false_eq_true, false_implies, iff_true]
              intro _
              refine ⟨fun hNone => by simp at hNone, ?_⟩
              rintro (⟨hNone, -⟩ | ⟨-, hFlags⟩)
              · simp at hNone
              · exact absurd hFlags hIdle
  · have hIn := not_le_of_currentFile hFile
    cases hMeta : plan.metadataFails <;>
      simp [hOpen, hFile, hStream, hOpens, hType, hAsks, getCurrentDigest, hMeta, jobCompleted,
        setFileIsWaiting, hIn]
  · simp [hOpen, hFile, hStream, hOpens, jobCompleted]

theorem sound_of_memory {job : TransferJob} {data : Bytes}
    (hSource : job.dataSource = .memoryCursor data) : job.Sound := by
  intro base buffer pos hPath
  simp [hSource] at hPath

theorem sound_of_none {job : TransferJob} (hStream : job.dataStream = none) : job.Sound := by
  intro base buffer pos _
  simp [hStream]

theorem sound_of_file {job : TransferJob} {file : Handle}
    (hStream : job.dataStream = some (.fileStream file)) : job.Sound := by
  intro base buffer pos _
  simp [hStream]

/-- Soundness depends on what is read and from where only. -/
theorem Sound.congr {job other : TransferJob} (hSound : job.Sound)
    (hSource : other.dataSource = job.dataSource) (hStream : other.dataStream = job.dataStream) :
    other.Sound := by
  intro base data pos hPath
  rw [hStream]
  exact hSound base data pos (hSource ▸ hPath)

theorem Sound.openDataStream {job : TransferJob} (hSound : job.Sound) (store : Store)
    (plan : ReadPlan) : (job.openDataStream store plan).2.Sound := by
  cases hSource : job.dataSource with
  | memoryCursor data =>
      unfold TransferJob.openDataStream
      rw [hSource]
      cases hStream : job.dataStream with
      | none => exact sound_of_memory rfl
      | some stream => exact hSound
  | filePath base =>
      rcases openDataStream_cases store plan hSource with
        ⟨-, hOpen⟩ | ⟨-, -, hOpen⟩ | ⟨-, -, -, file, hOpen⟩ | ⟨-, -, -, hOpen⟩
      · rw [hOpen]
        exact sound_of_none rfl
      · rw [hOpen]
        exact hSound
      · rw [hOpen]
        exact sound_of_file rfl
      · rw [hOpen]
        exact hSound.congr rfl rfl

theorem Sound.initDataStream {job : TransferJob} (hSound : job.Sound) (store : Store)
    (plan : ReadPlan) : (job.initDataStream store plan).2.Sound := by
  have hOpened := hSound.openDataStream store plan
  unfold TransferJob.initDataStream
  split
  · rename_i hOpen
    rw [hOpen] at hOpened
    exact hOpened
  · rename_i hOpen
    rw [hOpen] at hOpened
    exact hOpened
  · rename_i opened hOpen
    rw [hOpen] at hOpened
    split
    · split
      · exact hOpened
      · exact hOpened.congr rfl rfl
    · exact hOpened

/-- A stream stays of its kind. -/
theorem read_fileStream {store : Store} {pieces : List (Option Nat)} {file : Handle} {data : Bytes}
    {stream : DataStream} (hRead : (DataStream.fileStream file).read store pieces = .ok (data, stream)) :
    ∃ file, stream = .fileStream file := by
  unfold DataStream.read at hRead
  simp only at hRead
  split at hRead
  · cases hRead
  · split at hRead
    · cases hRead
      exact ⟨_, rfl⟩
    · cases hRead

theorem Sound.readChunk {job : TransferJob} (hSound : job.Sound) (store : Store) (plan : ReadPlan)
    (name : Option Lexical.Text) : (job.readChunk store plan name).2.Sound := by
  unfold TransferJob.readChunk
  cases hStream : job.dataStream with
  | none => exact hSound
  | some stream =>
      simp only
      split
      · exact sound_of_none rfl
      · rename_i data next hRead
        split
        · split
          · exact sound_of_none rfl
          · exact sound_of_none rfl
        · cases hSource : job.dataSource with
          | memoryCursor buffer => exact sound_of_memory rfl
          | filePath base =>
              cases stream with
              | bufStream buffer pos => exact absurd hStream (hSound base buffer pos hSource)
              | fileStream file =>
                  obtain ⟨file, rfl⟩ := read_fileStream hRead
                  exact sound_of_file rfl

theorem Sound.read {job : TransferJob} (hSound : job.Sound) (store : Store) (plan : ReadPlan) :
    (job.read store plan).2.Sound := by
  unfold TransferJob.read
  split
  · exact hSound
  · split
    · exact hSound.readChunk store plan _
    · split
      · exact sound_of_none rfl
      · exact hSound.readChunk store plan _

theorem Sound.readJob {job : TransferJob} (hSound : job.Sound) (store : Store) (plan : ReadPlan) :
    (FileTransfer.readJob store plan job).2.1.Sound := by
  have hRest := hSound.read store plan
  unfold FileTransfer.readJob
  split
  · rename_i hRead
    rw [hRead] at hRest
    exact hRest
  · rename_i hRead
    rw [hRead] at hRest
    exact hRest
  · rename_i hRead
    rw [hRead] at hRest
    split
    · split
      · exact hRest
      · exact hRest
    · exact hRest

theorem Sound.confirm {job rest : TransferJob} (hSound : job.Sound) {store : Store}
    {faults : SeekFaults} {r : FileTransferSendConfirmRequest}
    (hConfirm : job.confirm store faults r = some rest) : rest.Sound := by
  unfold TransferJob.confirm at hConfirm
  split at hConfirm
  · cases hConfirm
    exact hSound
  · split at hConfirm
    · cases hConfirm
      exact sound_of_none rfl
    · cases hConfirm
      exact hSound.congr rfl rfl
    · simp only at hConfirm
      split at hConfirm
      · unfold setStreamOffset at hConfirm
        split at hConfirm
        · cases hConfirm
          exact hSound.congr rfl rfl
        · split at hConfirm
          · cases hConfirm
          · simp only at hConfirm
            split at hConfirm
            · cases hConfirm
              exact hSound.congr rfl rfl
            · split at hConfirm
              · cases hConfirm
                exact hSound.congr rfl rfl
              · cases hConfirm
                exact sound_of_file rfl
      · cases hConfirm
        exact hSound.congr rfl rfl
    · cases hConfirm
      exact hSound

theorem Sound.resumed {job : TransferJob} (hSound : job.Sound) : job.resumed.Sound := by
  unfold TransferJob.resumed
  split
  · unfold setFinishedSizeOnResume
    split
    · exact hSound.congr rfl rfl
    · exact hSound.congr rfl rfl
  · exact hSound

end TransferJob

/-- The job whose turn it is to be read, with its place in the list. -/
def nextJob : Nat → List TransferJob → Option (Nat × TransferJob)
  | _, [] => none
  | i, job :: jobs => if job.isLastJob then nextJob (i + 1) jobs else some (i, job)

/-- Only a job that has come to the end of its list is finished. -/
def EndsComplete (jobs : List TransferJob) (event : ReadEvent) : Prop :=
  ∀ job, finishedBy jobs event = some job → job.Detecting → job.files.length ≤ asUsize job.fileNum

/-- The job whose turn it is can go on with the disk as it is. -/
def TurnsSucceed (jobs : List TransferJob) : ReadEvent → Prop
  | .tick store plan =>
      ∀ i job, nextJob 0 jobs = some (i, job) → job.Detecting → job.TurnSucceeds store (plan i)
  | _ => True

theorem nextJob_mem {i place : Nat} {jobs : List TransferJob} {job : TransferJob}
    (hNext : nextJob i jobs = some (place, job)) : job ∈ jobs ∧ job.isLastJob = false := by
  induction jobs generalizing i with
  | nil => simp [nextJob] at hNext
  | cons first jobs ih =>
      unfold nextJob at hNext
      split at hNext
      · obtain ⟨hMem, hLast⟩ := ih hNext
        exact ⟨List.mem_cons_of_mem first hMem, hLast⟩
      · rename_i hLast
        cases hNext
        exact ⟨List.mem_cons_self, by simpa using hLast⟩

/-- The parts of a job that its turns leave alone. -/
structure TransferJob.SameTask (job other : TransferJob) : Prop where
  isLastJob : other.isLastJob = job.isLastJob
  type : other.type = job.type
  detection : other.enableOverwriteDetection = job.enableOverwriteDetection
  source : ∀ base, other.dataSource = .filePath base ↔ job.dataSource = .filePath base

namespace TransferJob

theorem SameTask.detecting_iff {job other : TransferJob} (hSame : job.SameTask other) :
    other.Detecting ↔ job.Detecting := by
  simp only [Detecting, hSame.type, hSame.detection, hSame.source]

theorem SameTask.openDataStream (store : Store) (plan : ReadPlan) (job : TransferJob) :
    job.SameTask (job.openDataStream store plan).2 := by
  cases hSource : job.dataSource with
  | memoryCursor data =>
      unfold TransferJob.openDataStream
      rw [hSource]
      cases hStream : job.dataStream with
      | none => exact ⟨rfl, rfl, rfl, fun base => by simp [hSource]⟩
      | some stream => exact ⟨rfl, rfl, rfl, fun base => Iff.rfl⟩
  | filePath base =>
      rcases openDataStream_cases store plan hSource with
        ⟨-, hOpen⟩ | ⟨-, -, hOpen⟩ | ⟨-, -, -, file, hOpen⟩ | ⟨-, -, -, hOpen⟩
      all_goals
        rw [hOpen]
        exact ⟨rfl, rfl, rfl, fun base => Iff.rfl⟩

theorem SameTask.initDataStream (store : Store) (plan : ReadPlan) (job : TransferJob) :
    job.SameTask (job.initDataStream store plan).2 := by
  have hOpened := SameTask.openDataStream store plan job
  unfold TransferJob.initDataStream
  split
  · rename_i hOpen
    rw [hOpen] at hOpened
    exact hOpened
  · rename_i hOpen
    rw [hOpen] at hOpened
    exact hOpened
  · rename_i hOpen
    rw [hOpen] at hOpened
    split
    · split
      · exact hOpened
      · exact ⟨hOpened.isLastJob, hOpened.type, hOpened.detection, hOpened.source⟩
    · exact hOpened

theorem SameTask.trans {job other third : TransferJob} (hFirst : job.SameTask other)
    (hSecond : other.SameTask third) : job.SameTask third :=
  ⟨hSecond.isLastJob.trans hFirst.isLastJob, hSecond.type.trans hFirst.type,
    hSecond.detection.trans hFirst.detection,
    fun base => (hSecond.source base).trans (hFirst.source base)⟩

theorem SameTask.read (store : Store) (plan : ReadPlan) (job : TransferJob) :
    job.SameTask (job.read store plan).2 := by
  have hChunk : ∀ name, job.SameTask (job.readChunk store plan name).2 := by
    intro name
    unfold readChunk
    split
    · exact ⟨rfl, rfl, rfl, fun base => Iff.rfl⟩
    · split
      · exact ⟨rfl, rfl, rfl, fun base => Iff.rfl⟩
      · split
        · split
          · exact ⟨rfl, rfl, rfl, fun base => Iff.rfl⟩
          · exact ⟨rfl, rfl, rfl, fun base => Iff.rfl⟩
        · exact ⟨rfl, rfl, rfl, fun base => Iff.rfl⟩
  unfold TransferJob.read
  split
  · exact ⟨rfl, rfl, rfl, fun base => Iff.rfl⟩
  · split
    · exact hChunk _
    · split
      · exact ⟨rfl, rfl, rfl, fun base => Iff.rfl⟩
      · exact hChunk _

theorem SameTask.readJob (store : Store) (plan : ReadPlan) (job : TransferJob) :
    job.SameTask (FileTransfer.readJob store plan job).2.1 := by
  have hRest := SameTask.read store plan job
  unfold FileTransfer.readJob
  split
  · rename_i hRead
    rw [hRead] at hRest
    exact hRest
  · rename_i hRead
    rw [hRead] at hRest
    exact hRest
  · rename_i hRead
    rw [hRead] at hRest
    split
    · split
      · exact hRest
      · exact hRest
    · exact hRest

end TransferJob

theorem initJobs_cons (store : Store) (plan : Nat → ReadPlan) (i : Nat) (job : TransferJob)
    (jobs : List TransferJob) :
    (initJobs store plan i (job :: jobs)).2 =
      (if job.isLastJob then job else (job.initDataStream store (plan i)).2) ::
        (initJobs store plan (i + 1) jobs).2 := by
  simp only [initJobs]
  split
  · rfl
  · split <;> simp_all

/-- The job that a tick finishes is the one whose turn it was. -/
theorem readFirst_finished (store : Store) (plan : Nat → ReadPlan) (i : Nat)
    (jobs : List TransferJob) :
    (readFirst store plan i (initJobs store plan i jobs).2).2.2 =
      (nextJob i jobs).bind fun next =>
        let turn := readJob store (plan next.1) (next.2.initDataStream store (plan next.1)).2
        if turn.2.2 then some turn.2.1 else none := by
  induction jobs generalizing i with
  | nil => rfl
  | cons job jobs ih =>
      rw [initJobs_cons]
      by_cases hLast : job.isLastJob = true
      · simp only [hLast, if_true, readFirst, nextJob]
        exact ih (i + 1)
      · have hOpened := (TransferJob.SameTask.initDataStream store (plan i) job).isLastJob
        simp [hLast, readFirst, nextJob, hOpened]

theorem finishedBy_tick (store : Store) (plan : Nat → ReadPlan) (jobs : List TransferJob) :
    finishedBy jobs (.tick store plan) =
      (nextJob 0 jobs).bind fun next =>
        let turn := readJob store (plan next.1) (next.2.initDataStream store (plan next.1)).2
        if turn.2.2 then some turn.2.1 else none :=
  readFirst_finished store plan 0 jobs

/-- A step ends a job early exactly when the turn of that job goes wrong. -/
theorem endsComplete_iff {jobs : List TransferJob} (hSound : ∀ job ∈ jobs, job.Sound)
    (event : ReadEvent) : EndsComplete jobs event ↔ TurnsSucceed jobs event := by
  cases event with
  | tick store plan =>
      unfold EndsComplete TurnsSucceed
      rw [finishedBy_tick]
      cases hNext : nextJob 0 jobs with
      | none => simp
      | some next =>
          obtain ⟨i, job⟩ := next
          have hOpened := TransferJob.SameTask.initDataStream store (plan i) job
          have hRead := TransferJob.SameTask.readJob store (plan i)
            (job.initDataStream store (plan i)).2
          have hJob := hSound job (nextJob_mem hNext).1
          simp only [Option.bind_some]
          constructor
          · intro hEnds place found hFound hDetecting
            cases hFound
            rw [job.turnSucceeds_iff store (plan i) hDetecting hJob]
            intro hIdle
            have hAsks := hOpened.detecting_iff.mpr hDetecting
            have hTurn := TransferJob.readJob_of_idle store (plan i) hAsks hIdle
            exact hEnds _ (by rw [hTurn]; rfl) hAsks
          · intro hTurns found hFound hDetecting
            split at hFound
            · rename_i hDone
              cases hFound
              have hAsks := hRead.detecting_iff.mp hDetecting
              have hFirst := hOpened.detecting_iff.mp hAsks
              have hTurn := hTurns i job rfl hFirst
              rw [job.turnSucceeds_iff store (plan i) hFirst hJob] at hTurn
              cases hIdle : (job.initDataStream store (plan i)).2.jobCompleted with
              | false =>
                  rw [TransferJob.readJob_of_busy store (plan i) hAsks hIdle] at hDone
                  exact absurd hDone Bool.false_ne_true
              | true =>
                  rw [TransferJob.readJob_of_idle store (plan i) hAsks hIdle]
                  exact hTurn hIdle
            · cases hFound
  | start job hFresh => simp [EndsComplete, TurnsSucceed, finishedBy]
  | resume id => simp [EndsComplete, TurnsSucceed, finishedBy]
  | cancel id => simp [EndsComplete, TurnsSucceed, finishedBy]
  | confirm store faults r => simp [EndsComplete, TurnsSucceed, finishedBy]

theorem mem_putJob {id : Int} {job found : TransferJob} {jobs : List TransferJob}
    (hFound : found ∈ putJob id job jobs) : found = job ∨ found ∈ jobs := by
  induction jobs with
  | nil => simp [putJob] at hFound
  | cons first jobs ih =>
      unfold putJob at hFound
      split at hFound
      · rcases List.mem_cons.mp hFound with hHead | hTail
        · exact Or.inl hHead
        · exact Or.inr (List.mem_cons_of_mem first hTail)
      · rcases List.mem_cons.mp hFound with hHead | hTail
        · exact Or.inr (hHead ▸ List.mem_cons_self)
        · exact (ih hTail).imp_right (List.mem_cons_of_mem first)

theorem mem_removeJob {id : Int} {found : TransferJob} {jobs : List TransferJob}
    (hFound : found ∈ (removeJob id jobs).2) : found ∈ jobs :=
  List.mem_of_mem_eraseP hFound

theorem mem_of_getJob {id : Int} {job : TransferJob} {jobs : List TransferJob}
    (hJob : getJob id jobs = some job) : job ∈ jobs :=
  List.mem_of_find?_eq_some hJob

theorem getJob_id {id : Int} {job : TransferJob} {jobs : List TransferJob}
    (hJob : getJob id jobs = some job) : job.id = id := by
  simpa using List.find?_some hJob

theorem getJob_putJob {id : Int} {old job : TransferJob} {jobs : List TransferJob}
    (hOld : getJob id jobs = some old) (hId : job.id = id) :
    getJob id (putJob id job jobs) = some job := by
  induction jobs with
  | nil => simp [getJob] at hOld
  | cons head jobs ih =>
      unfold putJob
      by_cases hHead : head.id = id
      · simp [getJob, hHead, hId]
      · have hRest : getJob id jobs = some old := by simpa [getJob, hHead] using hOld
        simpa [getJob, hHead] using ih hRest

theorem sound_initJobs (store : Store) (plan : Nat → ReadPlan) (i : Nat) {jobs : List TransferJob}
    (hSound : ∀ job ∈ jobs, job.Sound) : ∀ job ∈ (initJobs store plan i jobs).2, job.Sound := by
  induction jobs generalizing i with
  | nil => simp [initJobs]
  | cons first jobs ih =>
      rw [initJobs_cons]
      intro job hJob
      have hFirst := hSound first List.mem_cons_self
      rcases List.mem_cons.mp hJob with rfl | hRest
      · split
        · exact hFirst
        · exact hFirst.initDataStream store (plan i)
      · exact ih (i + 1) (fun other hOther => hSound other (List.mem_cons_of_mem first hOther)) job hRest

theorem sound_readFirst (store : Store) (plan : Nat → ReadPlan) (i : Nat) {jobs : List TransferJob}
    (hSound : ∀ job ∈ jobs, job.Sound) : ∀ job ∈ (readFirst store plan i jobs).2.1, job.Sound := by
  induction jobs generalizing i with
  | nil => simp [readFirst]
  | cons first jobs ih =>
      have hFirst := hSound first List.mem_cons_self
      have hOthers : ∀ job ∈ jobs, job.Sound := fun other hOther =>
        hSound other (List.mem_cons_of_mem first hOther)
      unfold readFirst
      split
      · intro job hJob
        rcases List.mem_cons.mp hJob with rfl | hRest
        · exact hFirst
        · exact ih (i + 1) hOthers job hRest
      · intro job hJob
        rcases List.mem_cons.mp hJob with rfl | hRest
        · exact hFirst.readJob store (plan i)
        · exact hOthers job hRest

/-- Every step keeps the streams of the jobs in line with their sources. -/
theorem sound_readStep {jobs : List TransferJob} (hSound : ∀ job ∈ jobs, job.Sound)
    (event : ReadEvent) : ∀ job ∈ readStep jobs event, job.Sound := by
  intro found hFound
  cases event with
  | start job hFresh =>
      rcases List.mem_append.mp hFound with hOld | hNew
      · exact hSound found hOld
      · rw [List.mem_singleton.mp hNew]
        exact TransferJob.sound_of_none hFresh
  | resume id =>
      simp only [readStep] at hFound
      split at hFound
      · rename_i job hJob
        rcases mem_putJob hFound with rfl | hOld
        · exact (hSound job (mem_of_getJob hJob)).resumed
        · exact hSound found hOld
      · exact hSound found hFound
  | cancel id => exact hSound found (mem_removeJob hFound)
  | confirm store faults r =>
      simp only [readStep] at hFound
      split at hFound
      · rename_i job hJob
        split at hFound
        · rename_i rest hConfirm
          rcases mem_putJob hFound with rfl | hOld
          · exact (hSound job (mem_of_getJob hJob)).confirm hConfirm
          · exact hSound found hOld
        · simp at hFound
      · exact hSound found hFound
  | tick store plan =>
      have hTurn := sound_readFirst store plan 0 (sound_initJobs store plan 0 hSound)
      simp only [readStep, handleReadJobs] at hFound
      split at hFound
      · exact hTurn found (mem_removeJob hFound)
      · exact hTurn found hFound

/-- In every run, only jobs that have come to the end of their list are put in
`finished`, if and only if every turn of a job that asks first goes well. -/
theorem endsComplete_of_run (events : List ReadEvent) :
    Trace.Always readStep EndsComplete [] events ↔ Trace.Always readStep TurnsSucceed [] events := by
  suffices hRun : ∀ jobs : List TransferJob, (∀ job ∈ jobs, job.Sound) →
      (Trace.Always readStep EndsComplete jobs events ↔
        Trace.Always readStep TurnsSucceed jobs events) from hRun [] (by simp)
  induction events with
  | nil => exact fun jobs _ => Iff.rfl
  | cons event events ih =>
      intro jobs hSound
      exact and_congr (endsComplete_iff hSound event) (ih _ (sound_readStep hSound event))

/-- A disk that holds the second of the two files of `twoFiles` only. -/
def secondFileOnly : Store where
  platform := .unix
  disk := Storage.Disk.empty.put (Lexical.Platform.unix.location "/d/b".toList) [1] 0
  ops := []

def twoFiles : TransferJob :=
  .newRead 1 .generic [] (.filePath "/d".toList) 0 false false
    [⟨"a".toList, 1, 0⟩, ⟨"b".toList, 1, 0⟩] true

/-- Nothing fails, and nothing gets shorter. -/
def plainPlan : ReadPlan where
  openFails := false
  metadataFails := false
  pieces := []
  zstdCompress := some

/-- The first file is gone, and the job ends without the second. -/
theorem second_file_unsent :
    ¬ Trace.Always readStep EndsComplete []
      [.start twoFiles rfl, .tick secondFileOnly fun _ => plainPlan] := by
  intro hRun
  have hFinished :
      finishedBy [twoFiles] (.tick secondFileOnly fun _ => plainPlan) =
        some { twoFiles with fileNum := 1 } := by
    decide +kernel
  have hEnd := hRun.2.1 _ hFinished ⟨rfl, ⟨_, rfl⟩, rfl⟩
  exact absurd hEnd (by decide)

end HibtDesk.FileTransfer
