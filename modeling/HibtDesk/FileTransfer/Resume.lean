import HibtDesk.FileTransfer.Containment
import HibtDesk.FileTransfer.Manager
import HibtDesk.FileTransfer.ReadSpec

/-! Both ends of a transfer that asks before it sends a file. Either the server
sends and the client receives, or the client sends and the connection manager
behind the server receives; in both cases it is the client that decides, and the
answer goes to the two jobs, each of which looks for its place by itself. -/
namespace HibtDesk.FileTransfer

open Lexical (Text Platform)

/-- Nothing fails while a client handles a message. -/
def IoPlan.faultless (env : Env) : IoPlan :=
  { env := env, write := .none, seek := .none, digestFails := false }

/-- A confirmation reaches the jobs of the end that sends. -/
def confirmJobs (source : Store) (r : FileTransferSendConfirmRequest) (jobs : List TransferJob) :
    List TransferJob :=
  match getJob r.id jobs with
  | some job => putJob r.id (job.confirmed source .none r) jobs
  | none => jobs

inductive Ends where
  /-- The server sends, from `source`. -/
  | download (source : Store) (jobs : List TransferJob) (client : Client)
  | upload (client : Client) (manager : Manager)

namespace Ends

/-- The disk of the end that sends. -/
def source : Ends → Store
  | download source _ _ => source
  | upload client _ => client.store

/-- The jobs of the end that sends. -/
def jobs : Ends → List TransferJob
  | download _ jobs _ => jobs
  | upload client _ => client.readJobs

def withJobs (jobs : List TransferJob) : Ends → Ends
  | download source _ client => download source jobs client
  | upload client manager => upload { client with readJobs := jobs } manager

/-- The disk of the end that receives. -/
def store : Ends → Store
  | download _ _ client => client.store
  | upload _ manager => manager.store

/-- The jobs of the end that receives. -/
def writeJobs : Ends → List TransferJob
  | download _ _ client => client.writeJobs
  | upload _ manager => manager.writeJobs

/-- The manager is asked, and nothing fails. -/
def tell (env : Env) (manager : Manager) (request : FS) : Manager × List ManagerMessage :=
  (manager.handleFs env .none .none false request).getD (manager, [])

/-- What the client says to the manager, in answer to a digest. -/
def pass (env : Env) (manager : Manager) : ClientMessage → Manager
  | .sendConfirm r => (tell env manager (.sendConfirm r)).1
  | _ => manager

/-- What the manager says to the client. -/
def reply (env : Env) (ends : Client × Manager) : ManagerMessage → Client × Manager
  | .sendConfirm r =>
      ({ ends.1 with readJobs := confirmJobs ends.1.store r ends.1.readJobs }, ends.2)
  | .digest digest =>
      let (client, answers) := ends.1.handleFileResponse (.faultless env) (.job (.digest digest))
      (client, answers.foldl (pass env) ends.2)
  | .done id fileNum =>
      ((ends.1.handleFileResponse (.faultless env) (.job (.done id fileNum))).1, ends.2)
  | .error id (.inl error) fileNum =>
      ((ends.1.handleFileResponse (.faultless env) (.job (.error id error fileNum))).1, ends.2)
  -- Lists of names are refused before a transfer begins.
  | .error _ (.inr _) _ => ends

/-- What the client that receives says to the server. -/
def answer (source : Store) (jobs : List TransferJob) : ClientMessage → List TransferJob
  | .sendConfirm r => confirmJobs source r jobs
  | _ => jobs

/-- A message of the end that sends reaches the other, and what they say to each
other about it. -/
def deliver (env : Env) (ends : Ends) (message : JobMessage) : Ends :=
  match ends with
  | download source jobs client =>
      let (client, answers) := client.handleFileResponse (.faultless env) (.job message)
      download source (answers.foldl (answer source) jobs) client
  | upload client manager =>
      let (manager, replies) := tell env manager (.ofMessage message)
      let (client, manager) := replies.foldl (reply env) (client, manager)
      upload client manager

/-- A turn of the end that sends, and its messages delivered in order. -/
def step (ends : Ends) (turn : ReadPlan × Env) : Ends :=
  let (messages, jobs, _) := handleReadJobs ends.source (fun _ => turn.1) ends.jobs
  messages.foldl (deliver turn.2) (ends.withJobs jobs)

/-- A turn sends a part of the `k`th file. -/
def Sends (k : Nat) (ends : Ends) (turn : ReadPlan × Env) : Prop :=
  ∃ block : FileTransferBlock, block.fileNum = k ∧
    JobMessage.block block ∈ (handleReadJobs ends.source (fun _ => turn.1) ends.jobs).1

end Ends

/-- An unfinished file lies at the path, with a digest. -/
def Unfinished (store : Store) (path : Text) (data : Bytes) : Prop :=
  store.content (download path) = some data ∧ (store.content (digestPath path)).isSome = true

/-- What the answer can be to the digest of a file that goes to the path: to skip
it, or to send it from the start or from where an unfinished file ends. -/
def Answers (store : Store) (path : Text) (union : ConfirmUnion) : Prop :=
  union = .skip true ∨
    ∃ offset, union = .offsetBlk offset ∧
      (offset ≠ 0 → ∃ data, Unfinished store path data ∧ offset = asU32 data.length)

theorem answers_offset_zero (store : Store) (path : Text) : Answers store path (.offsetBlk 0) :=
  Or.inr ⟨0, rfl, fun hZero => absurd rfl hZero⟩

section Answer
variable {env : Env} {store : Store} {isResume : Bool} {path : Text}
  {digest found : FileTransferDigest}

theorem resumable_spec (hFound : resumable env store path digest = some found) :
    found.id = digest.id ∧ found.fileNum = digest.fileNum ∧
      ∃ data, Unfinished store path data ∧ found.transferredSize = data.length := by
  unfold resumable at hFound
  split at hFound
  · rename_i content unfinished hDigest hDownload
    split at hFound
    · split at hFound
      · cases hFound
        exact ⟨rfl, rfl, unfinished, ⟨hDownload, by rw [hDigest]; rfl⟩, rfl⟩
      · cases hFound
    · cases hFound
  · cases hFound

/-- What is found at the path is a file of which something may have been sent. -/
theorem needConfirm_spec
    (hCheck : isWriteNeedConfirmation env store isResume path digest = .needConfirm found) :
    found.id = digest.id ∧ found.fileNum = digest.fileNum ∧
      (0 < found.transferredSize →
        ∃ data, Unfinished store path data ∧ found.transferredSize = data.length) := by
  unfold isWriteNeedConfirmation at hCheck
  split at hCheck
  · rename_i other hOther
    cases hCheck
    cases isResume with
    | true =>
        obtain ⟨hId, hNum, hData⟩ := resumable_spec hOther
        exact ⟨hId, hNum, fun _ => hData⟩
    | false => cases hOther
  · split at hCheck
    · cases hCheck
      exact ⟨rfl, rfl, fun hSome => absurd hSome (Nat.lt_irrefl 0)⟩
    · cases hCheck

theorem isWriteNeedConfirmation_ne_isSame (env : Env) (store : Store) (isResume : Bool)
    (path : Text) (digest : FileTransferDigest) :
    isWriteNeedConfirmation env store isResume path digest ≠ .isSame := by
  unfold isWriteNeedConfirmation
  split
  · exact DigestCheckResult.noConfusion
  · split
    · exact DigestCheckResult.noConfusion
    · exact DigestCheckResult.noConfusion

theorem strategyAnswer_spec {job : TransferJob} {r : FileTransferSendConfirmRequest}
    (hAnswer : strategyAnswer job found = some r)
    (hSent : 0 < found.transferredSize →
      ∃ data, Unfinished store path data ∧ found.transferredSize = data.length) :
    ∃ union, r = { id := found.id, fileNum := found.fileNum, union := some union } ∧
      Answers store path union := by
  unfold strategyAnswer at hAnswer
  obtain ⟨overwrite, -, rfl⟩ := Option.map_eq_some_iff.mp hAnswer
  refine ⟨_, rfl, ?_⟩
  cases overwrite with
  | false => exact Or.inl rfl
  | true =>
      refine Or.inr ⟨_, rfl, fun hOffset => ?_⟩
      split at hOffset
      · rename_i hResumes
        simp only [Bool.and_eq_true, decide_eq_true_eq] at hResumes
        obtain ⟨data, hData, hLength⟩ := hSent hResumes.2
        refine ⟨data, hData, ?_⟩
        rw [if_pos (by simpa using hResumes), hLength]
      · exact absurd rfl hOffset

end Answer

theorem putJob_single {id : Int} {job : TransferJob} (hId : job.id = id) (next : TransferJob) :
    putJob id next [job] = [next] := by
  simp [putJob, hId]

theorem confirmJobs_single (source : Store) (r : FileTransferSendConfirmRequest) {job : TransferJob}
    (hId : job.id = r.id) : confirmJobs source r [job] = [job.confirmed source .none r] := by
  simp [confirmJobs, getJob, hId, putJob_single hId]

namespace Ends

/-- The two ends after they talked about a file: the client asked its user, or
both jobs have got the answer. The manager is not told to receive a file from
its start. -/
def Talked (store source : Store) (path : Text) (digest : FileTransferDigest)
    (job heard job' heard' : TransferJob) : Prop :=
  (job' = job ∧ heard' = heard.setDigest digest.fileSize digest.lastModified) ∨
    ∃ union, Answers store path union ∧
      job' = job.confirmed source .none
        { id := digest.id, fileNum := digest.fileNum, union := some union } ∧
      (heard' = (heard.setDigest digest.fileSize digest.lastModified).confirmed store .none
          { id := digest.id, fileNum := digest.fileNum, union := some union } ∨
        union = .offsetBlk 0 ∧ heard' = heard.setDigest digest.fileSize digest.lastModified)

section Talk
variable (env : Env) {digest : FileTransferDigest} {job heard : TransferJob} {base target : Text}
  {entry copy : FileEntry}

theorem talk_download (source : Store) {client : Client} (hUpload : digest.isUpload = false)
    (hId : job.id = digest.id) (hHeard : getJob digest.id client.writeJobs = some heard)
    (hCopy : heard.files[asUsize digest.fileNum]? = some copy)
    (hTarget : heard.dataSource = .filePath target) :
    ∃ job' client' heard',
      (download source [job] client).deliver env (.digest digest) = download source [job'] client' ∧
      client'.store = client.store ∧ getJob digest.id client'.writeJobs = some heard' ∧
      Talked client.store source (TransferJob.join client.store.platform target copy.name) digest
        job heard job' heard' := by
  have hNoted := TransferJob.SameWork.setDigest heard digest.fileSize digest.lastModified
  have hMiddle := getJob_putJob hHeard (hNoted.id.trans (getJob_id hHeard))
  have hTold := fun r => getJob_putJob hMiddle
    (((TransferJob.SameWork.confirmed _ client.store .none r).id.trans hNoted.id).trans
      (getJob_id hHeard))
  have hDone : ∀ union, Answers client.store
        (TransferJob.join client.store.platform target copy.name) union →
      ∃ job' client' heard',
        download source
            (confirmJobs source
              { id := digest.id, fileNum := digest.fileNum, union := some union } [job])
            { client with
              writeJobs := putJob digest.id
                ((heard.setDigest digest.fileSize digest.lastModified).confirmed client.store .none
                  { id := digest.id, fileNum := digest.fileNum, union := some union })
                (putJob digest.id (heard.setDigest digest.fileSize digest.lastModified)
                  client.writeJobs) } =
          download source [job'] client' ∧
        client'.store = client.store ∧ getJob digest.id client'.writeJobs = some heard' ∧
        Talked client.store source (TransferJob.join client.store.platform target copy.name) digest
          job heard job' heard' := by
    intro union hAnswers
    rw [confirmJobs_single source
      { id := digest.id, fileNum := digest.fileNum, union := some union } hId]
    exact ⟨_, _, _, rfl, rfl, hTold _, Or.inr ⟨union, hAnswers, rfl, Or.inl rfl⟩⟩
  simp only [deliver, Client.handleFileResponse, hUpload, Bool.false_eq_true, if_false,
    Client.handleDownloadDigest, hHeard, hCopy, hTarget, IoPlan.faultless]
  split
  · rename_i hSame
    exact absurd hSame (isWriteNeedConfirmation_ne_isSame _ _ _ _ _)
  · rename_i found hFound
    obtain ⟨hFoundId, hFoundNum, hSent⟩ := needConfirm_spec hFound
    split
    · rename_i r hAnswer
      obtain ⟨union, rfl, hAnswers⟩ := strategyAnswer_spec hAnswer hSent
      rw [hFoundId, hFoundNum]
      exact hDone union hAnswers
    · exact ⟨_, _, _, rfl, rfl, hMiddle, Or.inl ⟨rfl, rfl⟩⟩
  · exact hDone _ (answers_offset_zero _ _)

/-- The manager tells its job what the client decided. -/
theorem pass_confirm (manager : Manager) (r : FileTransferSendConfirmRequest)
    (hHeard : getJob r.id manager.writeJobs = some heard) :
    (pass env manager (.sendConfirm r)).store = manager.store ∧
      getJob r.id (pass env manager (.sendConfirm r)).writeJobs =
        some (heard.confirmed manager.store .none r) := by
  simp only [pass, tell, Manager.handleFs, hHeard]
  cases hConfirm : heard.confirm manager.store .none r with
  | none => exact ⟨rfl, by simp [TransferJob.confirmed, hConfirm, hHeard]⟩
  | some next =>
      refine ⟨rfl, ?_⟩
      have hId : next.id = r.id :=
        (TransferJob.SameWork.confirm hConfirm).id.trans (getJob_id hHeard)
      simpa [TransferJob.confirmed, hConfirm] using getJob_putJob hHeard hId

theorem talk_upload {client : Client} {manager : Manager}
    (hId : job.id = digest.id) (hJobs : client.readJobs = [job])
    (hEntry : job.files[asUsize digest.fileNum]? = some entry)
    (hBase : job.dataSource = .filePath base)
    (hHeard : getJob digest.id manager.writeJobs = some heard)
    (hCopy : heard.files[asUsize digest.fileNum]? = some copy)
    (hTarget : heard.dataSource = .filePath target) :
    ∃ job' client' manager' heard',
      (upload client manager).deliver env (.digest digest) = upload client' manager' ∧
      client'.store = client.store ∧ client'.readJobs = [job'] ∧
      manager'.store = manager.store ∧ getJob digest.id manager'.writeJobs = some heard' ∧
      Talked manager.store client.store
        (TransferJob.join manager.store.platform target copy.name) digest
        job heard job' heard' := by
  have hNoted := TransferJob.SameWork.setDigest heard digest.fileSize digest.lastModified
  have hMiddle := getJob_putJob hHeard (hNoted.id.trans (getJob_id hHeard))
  simp only [deliver, tell, FS.ofMessage, Manager.handleFs, Manager.checkDigest, hHeard, hCopy,
    hTarget, Bool.false_eq_true, if_false, Option.getD_some]
  split
  · rename_i hSame
    exact absurd hSame (isWriteNeedConfirmation_ne_isSame _ _ _ _ _)
  · rename_i found hFound
    obtain ⟨hFoundId, hFoundNum, hSent⟩ := needConfirm_spec hFound
    simp only at hFoundId hFoundNum
    have hMine : getJob digest.id client.readJobs = some job := by simp [hJobs, getJob, hId]
    simp only [List.foldl_cons, List.foldl_nil, reply, Client.handleFileResponse, if_true,
      Client.handleUploadDigest, hFoundId, hFoundNum, hMine, hEntry, hBase]
    split
    · rename_i r hAnswer
      obtain ⟨union, rfl, hAnswers⟩ := strategyAnswer_spec hAnswer hSent
      obtain ⟨hStore, hTold⟩ := pass_confirm env
        { manager with
          writeJobs := putJob digest.id (heard.setDigest digest.fileSize digest.lastModified)
            manager.writeJobs }
        { id := digest.id, fileNum := digest.fileNum, union := some union } hMiddle
      refine ⟨_, _, _, _, rfl, rfl, ?_, hStore, hTold, Or.inr ⟨union, hAnswers, rfl, Or.inl rfl⟩⟩
      rw [hJobs, putJob_single hId]
      rfl
    · exact ⟨_, _, _, _, rfl, rfl, hJobs, rfl, hMiddle, Or.inl ⟨rfl, rfl⟩⟩
  · refine ⟨_, _, _, _, rfl, rfl, ?_, rfl, hMiddle,
      Or.inr ⟨_, answers_offset_zero _ _, rfl, Or.inr ⟨rfl, rfl⟩⟩⟩
    show confirmJobs client.store _ client.readJobs = _
    rw [hJobs]
    exact confirmJobs_single client.store _ hId

/-- The ends talk about a file that is about to be sent. -/
theorem talk {ends : Ends} (hUpload : digest.isUpload = false)
    (hId : job.id = digest.id) (hJobs : ends.jobs = [job])
    (hEntry : job.files[asUsize digest.fileNum]? = some entry)
    (hBase : job.dataSource = .filePath base)
    (hHeard : getJob digest.id ends.writeJobs = some heard)
    (hCopy : heard.files[asUsize digest.fileNum]? = some copy)
    (hTarget : heard.dataSource = .filePath target) :
    ∃ job' heard',
      (ends.deliver env (.digest digest)).source = ends.source ∧
      (ends.deliver env (.digest digest)).jobs = [job'] ∧
      (ends.deliver env (.digest digest)).store = ends.store ∧
      getJob digest.id (ends.deliver env (.digest digest)).writeJobs = some heard' ∧
      Talked ends.store ends.source (TransferJob.join ends.store.platform target copy.name) digest
        job heard job' heard' := by
  cases ends with
  | download source jobs client =>
      obtain rfl : jobs = [job] := hJobs
      obtain ⟨job', client', heard', hDeliver, hStore, hHeard', hTalked⟩ :=
        talk_download env source hUpload hId hHeard hCopy hTarget
      rw [hDeliver]
      exact ⟨job', heard', rfl, rfl, hStore, hHeard', hTalked⟩
  | upload client manager =>
      obtain ⟨job', client', manager', heard', hDeliver, hSource, hJobs', hStore, hHeard', hTalked⟩ :=
        talk_upload env hId hJobs hEntry hBase hHeard hCopy hTarget
      rw [hDeliver]
      exact ⟨job', heard', hSource, hJobs', hStore, hHeard', hTalked⟩

end Talk

section Deliver
variable {ends : Ends} {heard : TransferJob} (env : Env)

theorem deliver_block {block : FileTransferBlock} {after : Store} {next : TransferJob}
    (hHeard : getJob block.id ends.writeJobs = some heard)
    (hWrite : heard.write env .none ends.store block = (.ok (), after, next)) :
    (ends.deliver env (.block block)).source = ends.source ∧
      (ends.deliver env (.block block)).jobs = ends.jobs ∧
      (ends.deliver env (.block block)).store = after ∧
      (ends.deliver env (.block block)).writeJobs = putJob block.id next ends.writeJobs := by
  cases ends with
  | download source jobs client =>
      simp only [writeJobs, store] at hHeard hWrite
      simp [deliver, Client.handleFileResponse, hHeard, IoPlan.faultless, hWrite, Ends.source,
        Ends.jobs, store, writeJobs]
  | upload client manager =>
      simp only [writeJobs, store] at hHeard hWrite
      simp [deliver, tell, FS.ofMessage, Manager.handleFs, hHeard, hWrite, Ends.source, Ends.jobs,
        store, writeJobs]

/-- At the end of the transfer the last file is brought into place. -/
theorem deliver_done {id : Int} (fileNum : Int) (hHeard : getJob id ends.writeJobs = some heard) :
    (ends.deliver env (.done id fileNum)).jobs = ends.jobs ∧
      (ends.deliver env (.done id fileNum)).store = heard.modifyTime .none ends.store := by
  cases ends with
  | download source jobs client =>
      simp only [writeJobs, getJob] at hHeard
      simp [deliver, Client.handleFileResponse, removeJob, hHeard, IoPlan.faultless, Ends.jobs,
        store, answer]
  | upload client manager =>
      simp only [writeJobs, getJob] at hHeard
      simp only [deliver, tell, FS.ofMessage, Manager.handleFs, removeJob, hHeard, Option.getD_some,
        List.foldl_cons, List.foldl_nil, reply, Client.handleFileResponse]
      split
      · exact ⟨rfl, rfl⟩
      · exact ⟨rfl, rfl⟩

theorem deliver_error (id fileNum : Int) (error : JobError) (hJobs : ends.jobs = []) :
    (ends.deliver env (.error id error fileNum)).jobs = [] ∧
      (ends.deliver env (.error id error fileNum)).store = ends.store := by
  have hClient : ∀ client : Client, client.readJobs = [] → ∀ id' error',
      (client.handleFileResponse (.faultless env) (.job (.error id' error' fileNum))).1.readJobs = [] := by
    intro client hNone id' error'
    simp only [Client.handleFileResponse]
    split
    · exact hNone
    · simp [removeJob, hNone]
  cases ends with
  | download source jobs client =>
      simp only [Ends.jobs] at hJobs
      subst hJobs
      simp only [deliver, Client.handleFileResponse]
      split
      · exact ⟨rfl, rfl⟩
      · exact ⟨rfl, rfl⟩
  | upload client manager =>
      simp only [deliver, tell, FS.ofMessage, Manager.handleFs]
      split
      · exact ⟨hClient client hJobs _ _, rfl⟩
      · exact ⟨hJobs, rfl⟩

end Deliver

end Ends

end HibtDesk.FileTransfer
