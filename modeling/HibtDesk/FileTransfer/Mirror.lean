import HibtDesk.FileTransfer.Drivers

/-! How a job the connection reads itself stands to the same job at the manager. The
connection opens a job before its turn comes, so the two need not be equal; but they
send the same in their turn, and a confirmation does the same to both. -/
namespace HibtDesk.FileTransfer

/-- The disk with the same names, whatever the files hold by now. -/
def Store.holding (store : Store) (file : Nat → Storage.File UInt8) : Store :=
  { store with disk := { store.disk with file := file } }

/-- Nothing the operating system is asked for fails; the reads return so many bytes. -/
def ReadPlan.smooth (zstdCompress : Bytes → Option Bytes) (pieces : List Nat) : ReadPlan where
  openFails := false
  metadataFails := false
  pieces := pieces.map some
  zstdCompress := zstdCompress

namespace TransferJob

/-- The job without the flags that only a job that asks looks at. -/
def forget (job : TransferJob) : TransferJob :=
  { job with fileConfirmed := false, fileIsWaiting := false }

/-- A job over files, as both drivers have them. -/
structure OverFiles (job : TransferJob) : Prop where
  type : job.type = .generic
  source : ∃ base, job.dataSource = .filePath base

/-- Past the last file nothing is open. -/
def AtRest (job : TransferJob) : Prop := job.currentFile = none → job.dataStream = none

/-- The receiver is yet to be asked about the current file. -/
def Unannounced (job : TransferJob) : Prop :=
  job.enableOverwriteDetection = true ∧ job.currentFile.isSome = true ∧
    (job.dataStream = none ∨ job.fileConfirmed = false ∧ job.fileIsWaiting = false)

instance (job : TransferJob) : Decidable job.Unannounced :=
  inferInstanceAs (Decidable (_ ∧ _ ∧ (_ ∨ _ ∧ _)))

end TransferJob

section Pieces
variable (store : Store) (zstdCompress : Bytes → Option Bytes) (pieces : List Nat)

theorem readLoop_smooth (left : Bytes) :
    readLoop (pieces.map some) left bufSize = .ok (left.take bufSize) := by
  have hPieces : ∀ piece ∈ pieces.map some, piece ≠ none := by simp
  obtain ⟨data, hData⟩ := readLoop_isOk hPieces left bufSize
  exact readLoop_ok hData (by decide)

/-- How a read is cut into pieces does not show. -/
theorem read_smooth (job : TransferJob) :
    job.read store (.smooth zstdCompress pieces) = job.read store (.smooth zstdCompress []) := by
  have hStream : ∀ stream : DataStream, stream.read store (pieces.map some) =
      stream.read store (([] : List Nat).map some) := by
    intro stream
    unfold DataStream.read
    cases stream <;> simp only [readLoop_smooth]
  have hChunk : ∀ name, job.readChunk store (.smooth zstdCompress pieces) name =
      job.readChunk store (.smooth zstdCompress []) name := by
    intro name
    unfold TransferJob.readChunk
    simp only [ReadPlan.smooth, hStream]
    rfl
  unfold TransferJob.read
  simp only [hChunk]

end Pieces

namespace TransferJob

/-- Opening as it goes if nothing fails but a file that is not there. -/
def opening (store : Store) (job : TransferJob) : Except JobError Bool × TransferJob :=
  job.openDataStream store (.smooth some [])

section Opening
variable {store : Store} {job : TransferJob}

theorem OverFiles.forget_opening (hFiles : job.OverFiles) (store : Store) :
    job.forget.opening store = ((job.opening store).1, (job.opening store).2.forget) := by
  obtain ⟨base, hSource⟩ := hFiles.source
  have hForget : job.forget.dataSource = .filePath base := hSource
  have hFile : job.forget.currentFile = job.currentFile := rfl
  have hStream : job.forget.dataStream = job.dataStream := rfl
  unfold opening openDataStream
  rw [hSource, hForget, hFile, hStream]
  cases job.currentFile with
  | none => rfl
  | some entry =>
      dsimp only
      split
      · rfl
      · split <;> rfl

theorem opening_of_past (job : TransferJob) {base : Lexical.Text} (hSource : job.dataSource = .filePath base)
    (hFile : job.currentFile = none) :
    job.opening store = (.ok true, { job with dataStream := none }) := by
  unfold opening openDataStream
  rw [hSource]
  simp only [hFile]

theorem opening_of_open (job : TransferJob) {base : Lexical.Text} (hSource : job.dataSource = .filePath base)
    (hFile : job.currentFile.isSome = true) (hStream : job.dataStream.isSome = true) :
    job.opening store = (.ok false, job) := by
  obtain ⟨entry, hEntry⟩ := Option.isSome_iff_exists.mp hFile
  obtain ⟨stream, hOpen⟩ := Option.isSome_iff_exists.mp hStream
  unfold opening openDataStream
  rw [hSource]
  simp only [hEntry, hOpen]

/-- What opening does to a job over files. -/
theorem OverFiles.opening_cases (hFiles : job.OverFiles) (store : Store) :
    (job.currentFile = none ∧ job.opening store = (.ok true, { job with dataStream := none })) ∨
    (job.currentFile.isSome = true ∧ job.dataStream.isSome = true ∧
      job.opening store = (.ok false, job)) ∨
    (job.currentFile.isSome = true ∧ job.dataStream = none ∧ ∃ file, job.opening store =
      (.ok false, { job.forget with dataStream := some (.fileStream file) })) ∨
    ∃ after, job.opening store = (.error .io, after) := by
  obtain ⟨base, hSource⟩ := hFiles.source
  rcases openDataStream_cases store (.smooth some []) hSource with
    ⟨hFile, hOpen⟩ | ⟨hFile, hStream, hOpen⟩ | ⟨hFile, hStream, -, file, hOpen⟩ | ⟨-, -, -, hOpen⟩
  · exact Or.inl ⟨hFile, hOpen⟩
  · exact Or.inr (Or.inl ⟨hFile, Option.isSome_iff_ne_none.mpr hStream, hOpen⟩)
  · exact Or.inr (Or.inr (Or.inl ⟨hFile, hStream, file, hOpen⟩))
  · exact Or.inr (Or.inr (Or.inr ⟨_, hOpen⟩))

/-- Opening twice is opening once. -/
theorem OverFiles.opening_opening (hFiles : job.OverFiles) {past : Bool}
    (hOpens : (job.opening store).1 = .ok past) :
    (job.opening store).2.opening store = job.opening store := by
  obtain ⟨base, hSource⟩ := hFiles.source
  rcases hFiles.opening_cases store with
    ⟨hFile, hOpen⟩ | ⟨hFile, hStream, hOpen⟩ | ⟨hFile, hStream, file, hOpen⟩ | ⟨after, hOpen⟩
  · rw [hOpen]
    exact opening_of_past { job with dataStream := none } hSource hFile
  · rw [hOpen]
    exact hOpen
  · rw [hOpen]
    exact opening_of_open { job.forget with dataStream := some (.fileStream file) } hSource
      hFile rfl
  · rw [hOpen] at hOpens
    cases hOpens

theorem OverFiles.opened (hFiles : job.OverFiles) (store : Store) :
    (job.opening store).2.OverFiles ∧ (job.opening store).2.id = job.id ∧
      (job.opening store).2.isLastJob = job.isLastJob ∧
      (job.opening store).2.enableOverwriteDetection = job.enableOverwriteDetection := by
  obtain ⟨base, hSource⟩ := hFiles.source
  rcases openDataStream_cases store (.smooth some []) hSource with
    ⟨-, hOpen⟩ | ⟨-, -, hOpen⟩ | ⟨-, -, -, file, hOpen⟩ | ⟨-, -, -, hOpen⟩
  all_goals
    unfold opening
    rw [hOpen]
    exact ⟨⟨hFiles.type, base, hSource⟩, rfl, rfl, rfl⟩

/-- A job that does not ask is opened, and that is all. -/
theorem OverFiles.init_of_silent (store : Store) (zstdCompress : Bytes → Option Bytes)
    (file : Nat → Storage.File UInt8) (hFiles : job.OverFiles)
    (hSilent : job.enableOverwriteDetection = false) :
    job.initDataStream (store.holding file) (.smooth zstdCompress []) =
      ((job.opening store).1.map fun _ => none, (job.opening store).2) := by
  have hAsks := (hFiles.opened store).2.2.2
  have hOpen : job.openDataStream (store.holding file) (.smooth zstdCompress []) =
      job.opening store := rfl
  unfold initDataStream
  rw [hOpen]
  rw [hSilent] at hAsks
  generalize job.opening store = opened at hAsks
  obtain ⟨result, after⟩ := opened
  dsimp only at hAsks
  cases result with
  | error error => rfl
  | ok past =>
      cases past with
      | true => rfl
      | false => simp [hAsks, Except.map]

end Opening

section Reading
variable {store : Store} {plan : ReadPlan} {job : TransferJob}

theorem forget_readChunk (store : Store) (plan : ReadPlan) (job : TransferJob)
    (name : Option Lexical.Text) :
    job.forget.readChunk store plan name =
      ((job.readChunk store plan name).1, (job.readChunk store plan name).2.forget) := by
  have hStream : job.forget.dataStream = job.dataStream := rfl
  unfold readChunk
  rw [hStream]
  cases job.dataStream with
  | none => rfl
  | some stream =>
      dsimp only
      cases stream.read store plan.pieces with
      | error error => rfl
      | ok found =>
          obtain ⟨data, stream⟩ := found
          dsimp only
          split
          · cases name <;> rfl
          · rfl

theorem forget_read (store : Store) (plan : ReadPlan) (hFiles : job.OverFiles)
    (hSilent : job.enableOverwriteDetection = false) :
    job.forget.read store plan = ((job.read store plan).1, (job.read store plan).2.forget) := by
  obtain ⟨base, hSource⟩ := hFiles.source
  have hForget : job.forget.dataSource = .filePath base := hSource
  have hFile : job.forget.currentFile = job.currentFile := rfl
  have hAsks : job.forget.enableOverwriteDetection = false := hSilent
  unfold read
  simp only [hSilent, hAsks, Bool.false_eq_true, false_and, and_false, if_false, hSource, hForget,
    hFile]
  cases job.currentFile with
  | none => rfl
  | some entry => exact forget_readChunk store plan job _

/-- The flags do not matter to a job that does not ask. -/
theorem forget_readJob (store : Store) (plan : ReadPlan) (hFiles : job.OverFiles)
    (hSilent : job.enableOverwriteDetection = false) :
    readJob store plan job.forget =
      ((readJob store plan job).1, (readJob store plan job).2.1.forget, (readJob store plan job).2.2) := by
  have hRead := forget_read store plan hFiles hSilent
  have hSame : (job.read store plan).2.enableOverwriteDetection = false :=
    (SameTask.read store plan job).detection.trans hSilent
  unfold readJob
  rw [hRead]
  generalize job.read store plan = found at hSame
  obtain ⟨result, after⟩ := found
  dsimp only at hSame
  cases result with
  | error error => rfl
  | ok block =>
      cases block with
      | some block => rfl
      | none =>
          have hDone : after.jobCompleted = true := by simp [jobCompleted, hSame]
          have hForgot : after.forget.jobCompleted = true := by
            simp [jobCompleted, forget, hSame]
          have hError : after.forget.jobError = after.jobError := rfl
          dsimp only
          rw [if_pos hDone, if_pos hForgot, hError]
          cases after.jobError <;> rfl

theorem AtRest.readChunk (hAtRest : job.AtRest) (hFile : job.currentFile.isSome = true)
    (name : Option Lexical.Text) : (job.readChunk store plan name).2.AtRest := by
  unfold TransferJob.readChunk
  split
  · exact hAtRest
  · split
    · exact fun _ => rfl
    · split
      · split
        · exact fun _ => rfl
        · exact fun _ => rfl
      · intro hNone
        have hPast : job.currentFile = none := hNone
        rw [hPast] at hFile
        cases hFile

theorem AtRest.readJob (hFiles : job.OverFiles) (hAtRest : job.AtRest) (store : Store)
    (plan : ReadPlan) : (FileTransfer.readJob store plan job).2.1.AtRest := by
  have hRead : (job.read store plan).2.AtRest := by
    obtain ⟨base, hSource⟩ := hFiles.source
    unfold TransferJob.read
    split
    · exact hAtRest
    · rw [hSource]
      dsimp only
      cases hFile : job.currentFile with
      | none => exact fun _ => rfl
      | some entry => exact hAtRest.readChunk (by rw [hFile]; rfl) _
  unfold FileTransfer.readJob
  split
  · simpa only [*] using hRead
  · simpa only [*] using hRead
  · split
    · split
      · simpa only [*] using hRead
      · simpa only [*] using hRead
    · simpa only [*] using hRead

theorem OverFiles.atRest_init (hFiles : job.OverFiles) (file : Nat → Storage.File UInt8)
    (zstdCompress : Bytes → Option Bytes) {digest : Option FileTransferDigest}
    (hOk : (job.initDataStream (store.holding file) (.smooth zstdCompress [])).1 = .ok digest) :
    (job.initDataStream (store.holding file) (.smooth zstdCompress [])).2.AtRest := by
  have hOpen : job.openDataStream (store.holding file) (.smooth zstdCompress []) =
      job.opening store := rfl
  have hOpened : ∀ past after, job.opening store = (.ok past, after) → after.AtRest := by
    intro past after hCase
    rcases hFiles.opening_cases store with
      ⟨-, hThis⟩ | ⟨hFile, -, hThis⟩ | ⟨hFile, -, found, hThis⟩ | ⟨lost, hThis⟩
    all_goals
      rw [hThis] at hCase
    · cases hCase
      exact fun _ => rfl
    · cases hCase
      intro hNone
      rw [hNone] at hFile
      cases hFile
    · cases hCase
      intro hNone
      have hPast : job.currentFile = none := hNone
      rw [hPast] at hFile
      cases hFile
    · cases hCase
  unfold initDataStream at hOk ⊢
  rw [hOpen] at hOk ⊢
  cases hCase : job.opening store with
  | mk result after =>
      cases result with
      | error error => simp [hCase] at hOk
      | ok past =>
          have hAtRest := hOpened past after hCase
          cases past with
          | true => exact hAtRest
          | false =>
              dsimp only
              split
              · split
                · exact hAtRest
                · exact hAtRest
              · exact hAtRest

end Reading

/-- How the job of the connection stands to that of the manager. Jobs that ask are
the same; one that does not may be open already while that of the manager is not,
and may differ in the flags nobody looks at. -/
structure Mirrors (source : Store) (job cmJob : TransferJob) : Prop where
  files : cmJob.OverFiles
  atRest : cmJob.AtRest
  same : job = cmJob ∨ cmJob.enableOverwriteDetection = false ∧
    (job.forget = cmJob.forget ∨
      (∃ past, (cmJob.opening source).1 = .ok past) ∧
        job.forget = (cmJob.opening source).2.forget)

section Mirrors
variable {source : Store} {job cmJob : TransferJob}

/-- What neither opening nor the flags change. -/
structure SameJob (job other : TransferJob) : Prop where
  id : job.id = other.id
  isLastJob : job.isLastJob = other.isLastJob
  asks : job.enableOverwriteDetection = other.enableOverwriteDetection
  type : job.type = other.type
  source : job.dataSource = other.dataSource
  fileNum : job.fileNum = other.fileNum
  files : job.files = other.files

theorem SameJob.trans {other : TransferJob} (h : job.SameJob cmJob) (h' : cmJob.SameJob other) :
    job.SameJob other :=
  ⟨h.id.trans h'.id, h.isLastJob.trans h'.isLastJob, h.asks.trans h'.asks, h.type.trans h'.type,
    h.source.trans h'.source, h.fileNum.trans h'.fileNum, h.files.trans h'.files⟩

theorem sameJob_of_forget (hForget : job.forget = cmJob.forget) : job.SameJob cmJob := by
  have hLeft : job.SameJob job.forget := ⟨rfl, rfl, rfl, rfl, rfl, rfl, rfl⟩
  have hRight : cmJob.forget.SameJob cmJob := ⟨rfl, rfl, rfl, rfl, rfl, rfl, rfl⟩
  rw [hForget] at hLeft
  exact hLeft.trans hRight

theorem OverFiles.sameJob_opening (hFiles : job.OverFiles) {past : Bool}
    (hOpens : (job.opening source).1 = .ok past) : (job.opening source).2.SameJob job := by
  rcases hFiles.opening_cases source with
    ⟨-, hOpen⟩ | ⟨-, -, hOpen⟩ | ⟨-, -, found, hOpen⟩ | ⟨after, hOpen⟩
  · rw [hOpen]
    exact ⟨rfl, rfl, rfl, rfl, rfl, rfl, rfl⟩
  · rw [hOpen]
    exact ⟨rfl, rfl, rfl, rfl, rfl, rfl, rfl⟩
  · rw [hOpen]
    exact ⟨rfl, rfl, rfl, rfl, rfl, rfl, rfl⟩
  · rw [hOpen] at hOpens
    cases hOpens

theorem Mirrors.sameJob (h : Mirrors source job cmJob) : job.SameJob cmJob := by
  rcases h.same with rfl | ⟨-, hForget | ⟨⟨past, hOpens⟩, hForget⟩⟩
  · exact ⟨rfl, rfl, rfl, rfl, rfl, rfl, rfl⟩
  · exact sameJob_of_forget hForget
  · exact (sameJob_of_forget hForget).trans (h.files.sameJob_opening hOpens)

theorem Mirrors.overFiles (h : Mirrors source job cmJob) : job.OverFiles := by
  obtain ⟨base, hSource⟩ := h.files.source
  exact ⟨h.sameJob.type.trans h.files.type, base, h.sameJob.source.trans hSource⟩

/-- Once both are open, only the flags can differ. -/
theorem Mirrors.opening (h : Mirrors source job cmJob) :
    (job.opening source).1 = (cmJob.opening source).1 ∧
      (job.opening source).2.forget = (cmJob.opening source).2.forget := by
  have hJob := h.overFiles.forget_opening source
  rcases h.same with rfl | ⟨-, hForget | ⟨⟨past, hOpens⟩, hForget⟩⟩
  · exact ⟨rfl, rfl⟩
  · rw [hForget, h.files.forget_opening source] at hJob
    exact ⟨(congrArg Prod.fst hJob).symm, (congrArg Prod.snd hJob).symm⟩
  · rw [hForget, (h.files.opened source).1.forget_opening source, h.files.opening_opening hOpens] at hJob
    exact ⟨(congrArg Prod.fst hJob).symm, (congrArg Prod.snd hJob).symm⟩

theorem SameTask.overFiles {other : TransferJob} (hSame : job.SameTask other)
    (hFiles : job.OverFiles) : other.OverFiles := by
  obtain ⟨base, hSource⟩ := hFiles.source
  exact ⟨hSame.type.trans hFiles.type, base, (hSame.source base).mpr hSource⟩

/-- The turn of a job goes alike in both drivers. -/
theorem Mirrors.turn (h : Mirrors source job cmJob) (file : Nat → Storage.File UInt8)
    (zstdCompress : Bytes → Option Bytes) {digest : Option FileTransferDigest}
    (hOk : (job.initDataStream (source.holding file) (.smooth zstdCompress [])).1 = .ok digest) :
    let store := source.holding file
    let plan := ReadPlan.smooth zstdCompress []
    let opened := (job.initDataStream store plan).2
    let cmOpened := (cmJob.initDataStream store plan).2
    (cmJob.initDataStream store plan).1 = .ok digest ∧
      (opened.read store plan).1 = (cmOpened.read store plan).1 ∧
      (readJob store plan opened).1 = (readJob store plan cmOpened).1 ∧
      (readJob store plan opened).2.2 = (readJob store plan cmOpened).2.2 ∧
      Mirrors source (readJob store plan opened).2.1 (readJob store plan cmOpened).2.1 := by
  intro store plan opened cmOpened
  have hInit := SameTask.initDataStream store plan cmJob
  have hFiles : cmOpened.OverFiles := hInit.overFiles h.files
  have hRest := (SameTask.readJob store plan cmOpened).overFiles hFiles
  rcases h.same with rfl | ⟨hSilent, -⟩
  · refine ⟨hOk, rfl, rfl, rfl, hRest, ?_, Or.inl rfl⟩
    exact AtRest.readJob hFiles (h.files.atRest_init file zstdCompress hOk) store plan
  · have hJobSilent := h.sameJob.asks.trans hSilent
    obtain ⟨hResult, hForget⟩ := h.opening
    have hJob := h.overFiles.init_of_silent source zstdCompress file hJobSilent
    have hCm := h.files.init_of_silent source zstdCompress file hSilent
    have hCmOk : (cmJob.initDataStream store plan).1 = .ok digest := by
      rw [← hOk, hJob, show cmJob.initDataStream store plan = _ from hCm, hResult]
    have hSame : opened.forget = cmOpened.forget := by
      change (job.initDataStream (source.holding file) (.smooth zstdCompress [])).2.forget =
        (cmJob.initDataStream (source.holding file) (.smooth zstdCompress [])).2.forget
      rw [hJob, hCm]
      exact hForget
    have hOpenedFiles : opened.OverFiles :=
      (SameTask.initDataStream store plan job).overFiles h.overFiles
    have hOpenedSilent : opened.enableOverwriteDetection = false :=
      (SameTask.initDataStream store plan job).detection.trans hJobSilent
    have hCmSilent : cmOpened.enableOverwriteDetection = false := hInit.detection.trans hSilent
    have hRead := forget_read store plan hOpenedFiles hOpenedSilent
    rw [hSame, forget_read store plan hFiles hCmSilent] at hRead
    have hTurn := forget_readJob store plan hOpenedFiles hOpenedSilent
    rw [hSame, forget_readJob store plan hFiles hCmSilent] at hTurn
    obtain ⟨hMessages, hAfter⟩ := Prod.mk.inj hTurn
    obtain ⟨hForgot, hFinished⟩ := Prod.mk.inj hAfter
    refine ⟨hCmOk, (Prod.mk.inj hRead).1.symm, hMessages.symm, hFinished.symm, hRest, ?_, Or.inr ⟨?_, ?_⟩⟩
    · exact AtRest.readJob hFiles (h.files.atRest_init file zstdCompress hCmOk) store plan
    · exact (SameTask.readJob store plan cmOpened).detection.trans hCmSilent
    · exact Or.inl hForgot.symm

/-- A job whose file is announced is left as it is. -/
theorem OverFiles.init_of_announced (hFiles : job.OverFiles) (hAtRest : job.AtRest)
    (hAsks : job.enableOverwriteDetection = true) (hAnnounced : ¬ job.Unannounced)
    (file : Nat → Storage.File UInt8) (zstdCompress : Bytes → Option Bytes)
    {digest : Option FileTransferDigest}
    (hOk : (job.initDataStream (source.holding file) (.smooth zstdCompress [])).1 = .ok digest) :
    job.initDataStream (source.holding file) (.smooth zstdCompress []) = (.ok none, job) := by
  have hOpening : job.openDataStream (source.holding file) (.smooth zstdCompress []) =
      job.opening source := rfl
  unfold initDataStream at hOk ⊢
  rw [hOpening] at hOk ⊢
  rcases hFiles.opening_cases source with
    ⟨hFile, hOpen⟩ | ⟨hFile, hStream, hOpen⟩ | ⟨hFile, hStream, found, hOpen⟩ | ⟨after, hOpen⟩
  · have hSame : ({ job with dataStream := none } : TransferJob) = job := by
      rw [← hAtRest hFile]
    rw [hOpen, hSame]
  · have hFlags : ¬ (job.fileConfirmed = false ∧ job.fileIsWaiting = false) :=
      fun hIdle => hAnnounced ⟨hAsks, hFile, Or.inr hIdle⟩
    rw [hOpen]
    dsimp only
    rw [if_neg]
    rintro ⟨-, -, hConfirmed, hWaiting⟩
    exact hFlags ⟨by simpa using hConfirmed, by simpa using hWaiting⟩
  · exact absurd ⟨hAsks, hFile, Or.inl hStream⟩ hAnnounced
  · rw [hOpen] at hOk
    cases hOk

/-- A job whose file is not announced yet announces it. -/
theorem OverFiles.init_of_unannounced (hFiles : job.OverFiles) (hLoud : job.Unannounced)
    (file : Nat → Storage.File UInt8) (zstdCompress : Bytes → Option Bytes)
    {digest : Option FileTransferDigest}
    (hOk : (job.initDataStream (source.holding file) (.smooth zstdCompress [])).1 = .ok digest) :
    ∃ sent, digest = some sent ∧ sent.id = job.id := by
  have hOpening : job.openDataStream (source.holding file) (.smooth zstdCompress []) =
      job.opening source := rfl
  obtain ⟨hAsks, hFile, hDue⟩ := hLoud
  unfold initDataStream at hOk
  rw [hOpening] at hOk
  rcases hFiles.opening_cases source with
    ⟨hPast, hOpen⟩ | ⟨-, hStream, hOpen⟩ | ⟨-, hStream, found, hOpen⟩ | ⟨after, hOpen⟩
  · rw [hPast] at hFile
    cases hFile
  · have hIdle : job.fileConfirmed = false ∧ job.fileIsWaiting = false := by
      rcases hDue with hNone | hIdle
      · rw [hNone] at hStream
        cases hStream
      · exact hIdle
    rw [hOpen] at hOk
    dsimp only at hOk
    rw [if_pos ⟨hFiles.type, hAsks, by simp [hIdle.1], by simp [hIdle.2]⟩] at hOk
    split at hOk
    · cases hOk
    · cases hOk
      exact ⟨_, rfl, rfl⟩
  · rw [hOpen] at hOk
    dsimp only at hOk
    have hType : ({ job.forget with dataStream := some (.fileStream found) } : TransferJob).type =
        .generic := hFiles.type
    rw [if_pos ⟨hType, hAsks, rfl, rfl⟩] at hOk
    split at hOk
    · cases hOk
    · cases hOk
      exact ⟨_, rfl, rfl⟩
  · rw [hOpen] at hOk
    cases hOk

/-- A job that waits behind another is opened by the connection only, and if its file
is announced nothing is sent. -/
theorem Mirrors.behind (h : Mirrors source job cmJob) (hAnnounced : ¬ cmJob.Unannounced)
    (file : Nat → Storage.File UInt8) (zstdCompress : Bytes → Option Bytes)
    {digest : Option FileTransferDigest}
    (hOk : (job.initDataStream (source.holding file) (.smooth zstdCompress [])).1 = .ok digest) :
    digest = none ∧
      Mirrors source (job.initDataStream (source.holding file) (.smooth zstdCompress [])).2 cmJob := by
  cases hAsks : cmJob.enableOverwriteDetection with
  | true =>
      rcases h.same with rfl | ⟨hSilent, -⟩
      · have hInit := h.files.init_of_announced h.atRest hAsks hAnnounced file zstdCompress hOk
        rw [hInit] at hOk ⊢
        exact ⟨(Except.ok.inj hOk).symm, h⟩
      · rw [hSilent] at hAsks
        cases hAsks
  | false =>
      have hInit := h.overFiles.init_of_silent source zstdCompress file (h.sameJob.asks.trans hAsks)
      obtain ⟨hResult, hForget⟩ := h.opening
      rw [hInit] at hOk ⊢
      cases hOpens : (job.opening source).1 with
      | error error =>
          rw [hOpens] at hOk
          cases hOk
      | ok past =>
          rw [hOpens] at hOk
          refine ⟨(Except.ok.inj hOk).symm, h.files, h.atRest, Or.inr ⟨hAsks, Or.inr ⟨⟨past, ?_⟩, hForget⟩⟩⟩
          rw [← hResult, hOpens]

theorem Mirrors.skipped (h : Mirrors source job cmJob) :
    Mirrors source job.setFileSkipped cmJob.setFileSkipped := by
  have hForgets : ∀ one : TransferJob, one.setFileSkipped = one.forget.setFileSkipped :=
    fun _ => rfl
  refine ⟨⟨h.files.type, h.files.source⟩, fun _ => rfl, Or.inl ?_⟩
  rcases h.same with rfl | ⟨-, hForget | ⟨⟨past, hOpens⟩, hForget⟩⟩
  · rfl
  · rw [hForgets job, hForget, ← hForgets]
  · rw [hForgets job, hForget]
    rcases h.files.opening_cases source with
      ⟨-, hOpen⟩ | ⟨-, -, hOpen⟩ | ⟨-, -, found, hOpen⟩ | ⟨after, hOpen⟩
    · rw [hOpen]
      rfl
    · rw [hOpen]
      rfl
    · rw [hOpen]
      rfl
    · rw [hOpen] at hOpens
      cases hOpens

theorem OverFiles.opening_confirmed (hFiles : job.OverFiles) (source : Store) (confirmed : Bool) :
    ((job.setFileConfirmed confirmed).opening source).1 = (job.opening source).1 ∧
      ((job.setFileConfirmed confirmed).opening source).2.forget =
        ((job.opening source).2.setFileConfirmed confirmed).forget := by
  obtain ⟨base, hSource⟩ := hFiles.source
  have hConfirmed : (job.setFileConfirmed confirmed).dataSource = .filePath base := hSource
  have hFile : (job.setFileConfirmed confirmed).currentFile = job.currentFile := rfl
  have hStream : (job.setFileConfirmed confirmed).dataStream = job.dataStream := rfl
  unfold TransferJob.opening openDataStream
  rw [hSource, hConfirmed, hFile, hStream]
  cases job.currentFile with
  | none => exact ⟨rfl, rfl⟩
  | some entry =>
      dsimp only
      split
      · exact ⟨rfl, rfl⟩
      · split <;> exact ⟨rfl, rfl⟩

theorem Mirrors.confirmed (h : Mirrors source job cmJob) (confirmed : Bool) :
    Mirrors source (job.setFileConfirmed confirmed) (cmJob.setFileConfirmed confirmed) := by
  have hForgets : ∀ one : TransferJob, (one.setFileConfirmed confirmed).forget =
      { one.forget with fileSkipped := false } := fun _ => rfl
  refine ⟨⟨h.files.type, h.files.source⟩, h.atRest, ?_⟩
  rcases h.same with rfl | ⟨hSilent, hForget | ⟨⟨past, hOpens⟩, hForget⟩⟩
  · exact Or.inl rfl
  · refine Or.inr ⟨hSilent, Or.inl ?_⟩
    rw [hForgets, hForgets, hForget]
  · obtain ⟨hResult, hSame⟩ := h.files.opening_confirmed source confirmed
    refine Or.inr ⟨hSilent, Or.inr ⟨⟨past, hResult.trans hOpens⟩, ?_⟩⟩
    rw [hSame, hForgets, hForgets, hForget]

/-- The job with its stream where `set_stream_offset` puts it. -/
def moved (handle : Handle) (offset : Nat) (job : TransferJob) : TransferJob :=
  { job with
    dataStream := some (.fileStream handle)
    transferred := job.transferred + offset
    finishedSize := job.finishedSize + offset }

theorem Mirrors.moved (h : Mirrors source job cmJob) (handle : Handle) (offset : Nat)
    (hFile : cmJob.currentFile.isSome = true) :
    Mirrors source (job.moved handle offset) (cmJob.moved handle offset) := by
  have hForgets : ∀ one : TransferJob,
      (one.moved handle offset).forget = one.forget.moved handle offset := fun _ => rfl
  refine ⟨⟨h.files.type, h.files.source⟩, fun hNone => ?_, ?_⟩
  · have hPast : cmJob.currentFile = none := hNone
    rw [hPast] at hFile
    cases hFile
  · rcases h.same with rfl | ⟨hSilent, hForget | ⟨⟨past, hOpens⟩, hForget⟩⟩
    · exact Or.inl rfl
    · refine Or.inr ⟨hSilent, Or.inl ?_⟩
      rw [hForgets, hForgets, hForget]
    · refine Or.inr ⟨hSilent, Or.inl ?_⟩
      rw [hForgets, hForget]
      rcases h.files.opening_cases source with
        ⟨-, hOpen⟩ | ⟨-, -, hOpen⟩ | ⟨-, -, found, hOpen⟩ | ⟨after, hOpen⟩
      · rw [hOpen]
        rfl
      · rw [hOpen]
        rfl
      · rw [hOpen]
        rfl
      · rw [hOpen] at hOpens
        cases hOpens

/-- What `set_stream_offset` does to a job over files, if nothing fails. -/
theorem OverFiles.setStreamOffset_cases (hFiles : job.OverFiles) (store : Store) (fileNum offset : Nat) :
    ∃ found : Option (Option Handle),
      (found = none ↔ job.files[fileNum]? = none) ∧
        ∀ other : TransferJob, other.SameJob job →
          other.setStreamOffset store .none fileNum offset =
            found.map fun handle => (handle.map fun handle => other.moved handle offset).getD other := by
  obtain ⟨base, hSource⟩ := hFiles.source
  cases hEntry : job.files[fileNum]? with
  | none =>
      refine ⟨none, by simp, fun other hSame => ?_⟩
      unfold setStreamOffset
      rw [hSame.source, hSource, hSame.files]
      simp [hEntry]
  | some entry =>
      refine ⟨some (offsetHandle store (join store.platform base entry.name) offset), by simp,
        fun other hSame => ?_⟩
      unfold setStreamOffset
      rw [hSame.source, hSource, hSame.files]
      simp only [hEntry, SeekFaults.none, Bool.or_self, Bool.false_eq_true, if_false]
      cases offsetHandle store (join store.platform base entry.name) offset with
      | none => rfl
      | some handle => simp [TransferJob.moved, hSame.source, hSource, hSame.files]

/-- A confirmation goes alike in both drivers. -/
theorem Mirrors.confirm (h : Mirrors source job cmJob) {r : FileTransferSendConfirmRequest}
    (hNum : r.fileNum = job.fileNum) (hUnion : r.union.isSome = true) :
    let req : FileTransferSendConfirmRequest :=
      { id := r.id
        fileNum := cmJob.fileNum
        union := some (if r.skip then .skip true else .offsetBlk r.offsetBlk) }
    (job.confirm source .none r = none ∧ cmJob.confirm source .none req = none) ∨
      ∃ after cmAfter, job.confirm source .none r = some after ∧
        cmJob.confirm source .none req = some cmAfter ∧ Mirrors source after cmAfter := by
  intro req
  have hConfirmed := h.confirmed true
  obtain ⟨union, hSome⟩ := Option.isSome_iff_exists.mp hUnion
  unfold TransferJob.confirm
  rw [if_neg (by rw [hNum]; simp), if_neg (by simp [req]), hSome]
  cases union with
  | skip skip =>
      cases skip with
      | true =>
          refine Or.inr ⟨_, _, rfl, ?_, h.skipped⟩
          simp [req, FileTransferSendConfirmRequest.skip, hSome]
      | false =>
          refine Or.inr ⟨_, _, rfl, ?_, hConfirmed⟩
          simp [req, FileTransferSendConfirmRequest.skip, FileTransferSendConfirmRequest.offsetBlk,
            hSome]
  | offsetBlk offset =>
      have hReq : req.union = some (.offsetBlk offset) := by
        simp [req, FileTransferSendConfirmRequest.skip, FileTransferSendConfirmRequest.offsetBlk,
          hSome]
      rw [hReq]
      dsimp only
      by_cases hMoves : 0 < offset
      · rw [if_pos hMoves, if_pos hMoves]
        have hFileNum : r.fileNum = cmJob.fileNum := hNum.trans h.sameJob.fileNum
        obtain ⟨found, hNone, hMove⟩ := hConfirmed.files.setStreamOffset_cases source
          (asUsize cmJob.fileNum) offset
        rw [hFileNum, hMove _ hConfirmed.sameJob, hMove _ ⟨rfl, rfl, rfl, rfl, rfl, rfl, rfl⟩]
        cases found with
        | none => exact Or.inl ⟨rfl, rfl⟩
        | some handle =>
            cases handle with
            | none => exact Or.inr ⟨_, _, rfl, rfl, hConfirmed⟩
            | some handle =>
                refine Or.inr ⟨_, _, rfl, rfl, hConfirmed.moved handle offset ?_⟩
                rw [Option.isSome_iff_ne_none]
                intro hPast
                exact absurd (hNone.mpr hPast) (by simp)
      · rw [if_neg hMoves, if_neg hMoves]
        exact Or.inr ⟨_, _, rfl, rfl, hConfirmed⟩

end Mirrors

section Ids
variable (store : Store) (plan : ReadPlan) (job : TransferJob)

theorem id_openDataStream : (job.openDataStream store plan).2.id = job.id := by
  unfold openDataStream
  split
  · split
    · rfl
    · split
      · rfl
      · dsimp only
        split <;> rfl
  · split <;> rfl

theorem id_initDataStream : (job.initDataStream store plan).2.id = job.id := by
  have hOpened := id_openDataStream store plan job
  unfold initDataStream
  generalize job.openDataStream store plan = opened at hOpened
  obtain ⟨result, after⟩ := opened
  cases result with
  | error error => exact hOpened
  | ok past =>
      cases past with
      | true => exact hOpened
      | false =>
          dsimp only
          split
          · split
            · exact hOpened
            · exact hOpened
          · exact hOpened

theorem id_readChunk (name : Option Lexical.Text) : (job.readChunk store plan name).2.id = job.id := by
  unfold readChunk
  split
  · rfl
  · split
    · rfl
    · split
      · split <;> rfl
      · rfl

theorem id_read : (job.read store plan).2.id = job.id := by
  unfold read
  split
  · rfl
  · split
    · exact id_readChunk store plan job none
    · split
      · rfl
      · exact id_readChunk store plan job _

/-- All that becomes of the job in a turn is what reading makes of it. -/
theorem readJob_job : (readJob store plan job).2.1 = (job.read store plan).2 := by
  unfold readJob
  obtain ⟨result, after⟩ := job.read store plan
  cases result with
  | error error => rfl
  | ok block =>
      cases block with
      | some block => rfl
      | none =>
          dsimp only
          split
          · split <;> rfl
          · rfl

theorem id_readJob : (readJob store plan job).2.1.id = job.id := by
  rw [readJob_job, id_read]

theorem block_id {block : FileTransferBlock} {after : TransferJob}
    (hRead : job.read store plan = (.ok (some block), after)) : block.id = job.id := by
  have hChunk : ∀ name after, job.readChunk store plan name = (.ok (some block), after) →
      block.id = job.id := by
    intro name after hRead
    unfold readChunk at hRead
    split at hRead
    · cases hRead
    · split at hRead
      · cases hRead
      · split at hRead
        · split at hRead
          · cases hRead
          · cases hRead
            rfl
        · cases hRead
          rfl
  unfold read at hRead
  split at hRead
  · cases hRead
  · split at hRead
    · exact hChunk _ _ hRead
    · split at hRead
      · cases hRead
      · exact hChunk _ _ hRead

end Ids

end TransferJob

end HibtDesk.FileTransfer
