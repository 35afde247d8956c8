import HibtDesk.FileTransfer.Drivers
import HibtDesk.FileTransfer.Write
import HibtDesk.Library.Trace

/-! What confirmations do to jobs in any state. A job that the connection manager
reads is confirmed by a request made anew from a flag and an offset, without the number
of the file; and no number is checked against the list before it is used. -/
namespace HibtDesk.FileTransfer

open Lexical (Text Platform)

namespace TransferJob

/-- What `handle_fs` does to the job, of `SendConfirmForRead` made from a request. -/
def confirmThroughCm (store : Store) (faults : SeekFaults) (job : TransferJob)
    (r : FileTransferSendConfirmRequest) : Option TransferJob :=
  job.confirm store faults
    { id := r.id
      fileNum := job.fileNum
      union := some (if r.skip then .skip true else .offsetBlk r.offsetBlk) }

/-- `set_stream_offset` would not get as far as the stream: the data is not in a file,
or the file is not there, or it cannot be opened or sought. -/
def KeepsStream (store : Store) (faults : SeekFaults) (job : TransferJob) : Prop :=
  match job.dataSource with
  | .memoryCursor _ => True
  | .filePath base =>
      ∃ entry, job.currentFile = some entry ∧
        (faults.openFails = true ∨ faults.seekFails = true ∨
          (let path := join store.platform base entry.name
           ¬ (store.pathExists (download path) = true ∧ store.pathExists (digestPath path) = true) ∧
             store.pathExists path = false))

/-- The current file is confirmed already, and it is not marked as skipped. -/
def Accepted (job : TransferJob) : Prop := job.fileConfirmed = true ∧ job.fileSkipped = false

/-- The request is for the current file, and says something or finds it accepted; or it is
stale, and what is made of it changes nothing about an accepted file. -/
def ConfirmedAlike (store : Store) (faults : SeekFaults) (job : TransferJob)
    (r : FileTransferSendConfirmRequest) : Prop :=
  (r.fileNum = job.fileNum ∧ (r.union ≠ none ∨ job.Accepted)) ∨
    (r.fileNum ≠ job.fileNum ∧ job.Accepted ∧ r.skip = false ∧
      (0 < r.offsetBlk → job.KeepsStream store faults))

/-- The job for which the connection manager has the answer, found in its list. -/
theorem sendConfirmForRead_eq (store : Store) (faults : SeekFaults)
    (r : FileTransferSendConfirmRequest) {jobs : List TransferJob} {job : TransferJob}
    (hJob : getJob r.id jobs = some job) :
    sendConfirmForRead store faults r.id r.skip r.offsetBlk jobs =
      match job.confirmThroughCm store faults r with
      | some job => putJob r.id job jobs
      | none => [] := by
  rw [sendConfirmForRead, hJob]
  rfl

section Forwarded
variable (store : Store) (faults : SeekFaults) (job : TransferJob)

theorem confirm_stale {r : FileTransferSendConfirmRequest} (hStale : r.fileNum ≠ job.fileNum) :
    job.confirm store faults r = some job := by
  rw [confirm, if_pos (Ne.symm hStale)]

theorem accepted_iff : some (job.setFileConfirmed true) = some job ↔ job.Accepted := by
  unfold Accepted setFileConfirmed
  constructor
  · intro hSame
    have hJob := Option.some.inj hSame
    rw [← hJob]
    exact ⟨rfl, rfl⟩
  · rintro ⟨hConfirmed, hSkipped⟩
    rw [← hConfirmed, ← hSkipped]

theorem pathExists_iff (path : Text) :
    store.pathExists path = true ↔ ∃ node, store.disk.node (store.platform.location path) = some node := by
  unfold Store.pathExists Storage.Disk.isThere
  rw [Option.isSome_iff_exists]

theorem offsetHandle_eq_none_iff (path : Text) (offset : Nat) :
    offsetHandle store path offset = none ↔
      ¬ (store.pathExists (download path) = true ∧ store.pathExists (digestPath path) = true) ∧
        store.pathExists path = false := by
  unfold offsetHandle
  dsimp only
  by_cases hBoth : store.pathExists (download path) = true ∧ store.pathExists (digestPath path) = true
  · obtain ⟨node, hNode⟩ := (pathExists_iff store _).mp hBoth.1
    rw [if_pos (by rw [hBoth.1, hBoth.2]; rfl), hNode]
    simp [hBoth]
  · rw [if_neg (by rwa [Bool.and_eq_true]), Option.map_eq_none_iff]
    simp only [hBoth, not_false_eq_true, true_and]
    rw [← Bool.not_eq_true, pathExists_iff]
    cases store.disk.node (store.platform.location path) <;> simp

/-- Confirming a file from an offset on leaves a job as it was exactly if it does not get
to the stream of an accepted file. -/
theorem setStreamOffset_eq_iff {offset : Nat} (hOffset : 0 < offset) :
    (job.setFileConfirmed true).setStreamOffset store faults (asUsize job.fileNum) offset = some job ↔
      job.Accepted ∧ job.KeepsStream store faults := by
  rw [← accepted_iff]
  unfold setStreamOffset KeepsStream currentFile
  rw [show (job.setFileConfirmed true).dataSource = job.dataSource from rfl,
    show (job.setFileConfirmed true).files = job.files from rfl]
  cases job.dataSource with
  | memoryCursor data => simp
  | filePath base =>
      dsimp only
      cases job.files[asUsize job.fileNum]? with
      | none => simp
      | some entry =>
          dsimp only
          have hHandle := offsetHandle_eq_none_iff store (join store.platform base entry.name) offset
          by_cases hFaults : (faults.openFails || faults.seekFails) = true
          · rw [if_pos hFaults]
            rw [Bool.or_eq_true] at hFaults
            constructor
            · intro hSame
              exact ⟨hSame, entry, rfl, hFaults.elim .inl fun hSeek => .inr (.inl hSeek)⟩
            · exact And.left
          · rw [if_neg hFaults]
            rw [Bool.or_eq_true, not_or] at hFaults
            cases hOpen : offsetHandle store (join store.platform base entry.name) offset with
            | none =>
                constructor
                · intro hSame
                  exact ⟨hSame, entry, rfl, .inr (.inr (hHandle.mp hOpen))⟩
                · exact And.left
            | some file =>
                constructor
                · intro hSame
                  have hTransferred := congrArg TransferJob.transferred (Option.some.inj hSame)
                  change job.transferred + offset = job.transferred at hTransferred
                  omega
                · rintro ⟨-, found, hFound, hKeeps⟩
                  obtain rfl := Option.some.inj hFound
                  have hNone := hHandle.mpr
                    ((hKeeps.resolve_left hFaults.1).resolve_left hFaults.2)
                  rw [hOpen] at hNone
                  cases hNone

theorem confirmThroughCm_eq (r : FileTransferSendConfirmRequest) :
    job.confirmThroughCm store faults r =
      if r.skip then some job.setFileSkipped
      else if 0 < r.offsetBlk then
        (job.setFileConfirmed true).setStreamOffset store faults (asUsize job.fileNum) r.offsetBlk
      else some (job.setFileConfirmed true) := by
  unfold confirmThroughCm confirm
  rw [if_neg (not_not.mpr rfl)]
  cases r.skip <;> rfl

/-- A stale request goes unnoticed through the manager only if what is made of it changes
nothing. -/
theorem confirmThroughCm_eq_some_iff (r : FileTransferSendConfirmRequest) :
    job.confirmThroughCm store faults r = some job ↔
      job.Accepted ∧ r.skip = false ∧ (0 < r.offsetBlk → job.KeepsStream store faults) := by
  rw [confirmThroughCm_eq]
  cases hSkip : r.skip with
  | true =>
      simp only [if_true, Bool.true_eq_false, false_and, and_false, iff_false]
      intro hSame
      have hNum := congrArg TransferJob.fileNum (Option.some.inj hSame)
      change job.fileNum + 1 = job.fileNum at hNum
      omega
  | false =>
      rw [if_neg Bool.false_ne_true]
      by_cases hOffset : 0 < r.offsetBlk
      · rw [if_pos hOffset, setStreamOffset_eq_iff store faults job hOffset]
        simp [hOffset]
      · rw [if_neg hOffset, accepted_iff]
        simp [hOffset]

/-- Of a request for the current file, only silence is made into something else. -/
theorem confirmThroughCm_current {r : FileTransferSendConfirmRequest}
    (hCurrent : r.fileNum = job.fileNum) :
    job.confirmThroughCm store faults r = job.confirm store faults r ↔
      r.union ≠ none ∨ job.Accepted := by
  rw [confirmThroughCm_eq, confirm, if_neg (not_not.mpr hCurrent.symm), hCurrent]
  unfold FileTransferSendConfirmRequest.skip FileTransferSendConfirmRequest.offsetBlk
  cases r.union with
  | none => simpa using accepted_iff job
  | some union =>
      simp only [ne_eq, reduceCtorEq, not_false_eq_true, true_or, iff_true]
      cases union with
      | skip skip => cases skip <;> rfl
      | offsetBlk offset => rfl

/-- The manager treats a request as the connection would, and ignores a stale one,
exactly if the request is for the current file and says something, or the file is accepted
and what is made of the request changes nothing. -/
theorem confirmThroughCm_iff (r : FileTransferSendConfirmRequest) :
    (job.confirmThroughCm store faults r = job.confirm store faults r ∧
      (r.fileNum ≠ job.fileNum →
        job.confirmThroughCm store faults r = some job ∧ job.confirm store faults r = some job)) ↔
      job.ConfirmedAlike store faults r := by
  unfold ConfirmedAlike
  by_cases hCurrent : r.fileNum = job.fileNum
  · simp only [hCurrent, ne_eq, not_true_eq_false, false_implies, and_true, true_and, false_and,
      or_false]
    exact confirmThroughCm_current store faults job hCurrent
  · rw [confirm_stale store faults job hCurrent, confirmThroughCm_eq_some_iff]
    simp [hCurrent]

end Forwarded

end TransferJob

/-- Nothing is on the disk. -/
def emptyStore : Store where
  platform := .unix
  disk := Storage.Disk.empty
  ops := []

/-- A late answer about the first of two files skips the second one. -/
theorem late_skip_through_cm :
    (let job := { TransferJob.newRead 1 .generic [] (.filePath "/d".toList) 0 false false
        [⟨"a".toList, 1, 0⟩, ⟨"b".toList, 1, 0⟩] true with fileNum := 1 }
     let r : FileTransferSendConfirmRequest := { id := 1, fileNum := 0, union := some (.skip true) }
     job.confirm emptyStore .none r = some job ∧
       (job.confirmThroughCm emptyStore .none r).map TransferJob.fileNum = some 2) := by
  decide +kernel

/-- What is done to a job, by a connection, a client or a connection manager. -/
inductive JobOp where
  | initDataStream (store : Store) (plan : ReadPlan)
  | initDataStreamForCm (store : Store) (plan : ReadPlan)
  | read (store : Store) (plan : ReadPlan)
  | write (env : Env) (faults : WriteFaults) (store : Store) (block : FileTransferBlock)
  | confirm (store : Store) (faults : SeekFaults) (r : FileTransferSendConfirmRequest)
  | setFileSkipped

namespace TransferJob

/-- The job after an operation; it panics if the program does. -/
def apply (job : TransferJob) : JobOp → Option TransferJob
  | .initDataStream store plan => some (job.initDataStream store plan).2
  | .initDataStreamForCm store plan => some (job.initDataStreamForCm store plan).2
  | .read store plan => some (job.read store plan).2
  | .write env faults store block => some (job.write env faults store block).2.2
  | .confirm store faults r => job.confirm store faults r
  | .setFileSkipped => some job.setFileSkipped

/-- A job that may have panicked, after an operation. -/
def step (state : Option TransferJob) (op : JobOp) : Option TransferJob := state.bind (·.apply op)

end TransferJob

end HibtDesk.FileTransfer
