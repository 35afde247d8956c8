import HibtDesk.FileTransfer.Client
import HibtDesk.FileTransfer.Completion
import HibtDesk.FileTransfer.WriteSpec

/-! Where a client writes the files of a peer. The list of names comes from the
peer and is joined to the directory the user chose without a check, so the client
stays inside that directory only as long as the peer sends names that do. -/
namespace HibtDesk.FileTransfer

open Lexical (Text Platform)
open Lexical.Platform (descends)

/-- The paths an operation is about. -/
def FileOp.paths : FileOp → List Text
  | .removeFile path => [path]
  | .rename source target => [source, target]
  | .setFileMtime path => [path]
  | .createParents path => [path]
  | .create path => [path]
  | .write path => [path]

/-- The path of an entry, with those of its unfinished file and of its digest. -/
def around (path : Text) : List Text := [path, download path, digestPath path]

/-- The operation is about files of an entry of the list. -/
def FileOp.Touches (platform : Platform) (base : Text) (files : List FileEntry) (op : FileOp) :
    Prop :=
  ∃ entry ∈ files, ∀ path ∈ op.paths, path ∈ around (TransferJob.join platform base entry.name)

/-- What was done to the second store since it was the first. -/
def Store.Extends (before after : Store) (P : FileOp → Prop) : Prop :=
  after.platform = before.platform ∧ ∃ ops, after.ops = before.ops ++ ops ∧ ∀ op ∈ ops, P op

section Extends
variable {P : FileOp → Prop}

theorem Store.Extends.refl (store : Store) : store.Extends store P := ⟨rfl, [], by simp, by simp⟩

theorem Store.Extends.trans {first second third : Store} (hFirst : first.Extends second P)
    (hSecond : second.Extends third P) : first.Extends third P := by
  obtain ⟨hPlatform, ops, hOps, hAll⟩ := hFirst
  obtain ⟨hPlatform', more, hMore, hAll'⟩ := hSecond
  refine ⟨hPlatform'.trans hPlatform, ops ++ more, by rw [hMore, hOps, List.append_assoc], ?_⟩
  intro op hOp
  rcases List.mem_append.mp hOp with hOld | hNew
  · exact hAll op hOld
  · exact hAll' op hNew

theorem Store.Extends.unless {store after : Store} {c : Bool} (hAfter : store.Extends after P) :
    store.Extends (if c then store else after) P := by
  cases c with
  | true => exact Store.Extends.refl store
  | false => exact hAfter

theorem Store.extends_log (store : Store) {op : FileOp} (hOp : P op) : store.Extends (store.log op) P :=
  ⟨rfl, [op], rfl, by simpa using hOp⟩

theorem Store.extends_removeFile (store : Store) {path : Text} (hOp : P (.removeFile path)) :
    store.Extends (store.removeFile path) P :=
  store.extends_log hOp

theorem Store.extends_rename (store : Store) {source target : Text}
    (hOp : P (.rename source target)) : store.Extends (store.rename source target) P :=
  store.extends_log hOp

theorem Store.extends_setFileMtime (store : Store) {path : Text} (hOp : P (.setFileMtime path))
    (seconds : Nat) : store.Extends (store.setFileMtime path seconds) P :=
  store.extends_log hOp

theorem Store.extends_create (store : Store) {path : Text} (hOp : P (.create path)) (now : Nat) :
    store.Extends (store.create path now).1 P :=
  store.extends_log hOp

theorem Store.extends_put (store : Store) {path : Text} (hOp : P (.write path)) (data : Bytes)
    (now : Nat) : store.Extends (store.put path data now) P :=
  store.extends_log hOp

end Extends

namespace TransferJob

section Touches
variable {job : TransferJob} {base : Text} {entry : FileEntry} {platform : Platform}

/-- What `modify_time` does is about the current entry. -/
theorem modifyTime_touches (faults : WriteFaults) (hSource : job.dataSource = .filePath base)
    {store : Store} (hPlatform : store.platform = platform) :
    store.Extends (job.modifyTime faults store) (FileOp.Touches platform base job.files) := by
  unfold modifyTime
  rw [hSource]
  split
  · rename_i root entry hGeneric hBase hEntry
    cases hBase
    have hMember : entry ∈ job.files := List.mem_of_getElem? hEntry
    rw [hPlatform]
    have hDigest := store.extends_removeFile
      (show FileOp.Touches platform base job.files
        (.removeFile (digestPath (join platform base entry.name))) from
        ⟨entry, hMember, by simp [FileOp.paths, around]⟩)
    have hRename := fun after : Store => after.extends_rename
      (show FileOp.Touches platform base job.files
        (.rename (download (join platform base entry.name)) (join platform base entry.name)) from
        ⟨entry, hMember, by simp [FileOp.paths, around]⟩)
    have hTime := fun after : Store => after.extends_setFileMtime
      (show FileOp.Touches platform base job.files
        (.setFileMtime (join platform base entry.name)) from
        ⟨entry, hMember, by simp [FileOp.paths, around]⟩) entry.modifiedTime
    exact (hDigest.unless.trans (hRename _).unless).trans (hTime _).unless
  · exact Store.Extends.refl store

/-- What `remove_download_file` does is about the current entry. -/
theorem removeDownloadFile_touches (hSource : job.dataSource = .filePath base) {store : Store}
    (hPlatform : store.platform = platform) :
    store.Extends (job.removeDownloadFile store) (FileOp.Touches platform base job.files) := by
  unfold removeDownloadFile
  rw [hSource]
  split
  · rename_i root entry hGeneric hBase hEntry
    cases hBase
    have hMember : entry ∈ job.files := List.mem_of_getElem? hEntry
    rw [hPlatform]
    refine (Store.extends_removeFile _ ?_).trans (Store.extends_removeFile _ ?_)
    · exact ⟨entry, hMember, by simp [FileOp.paths, around]⟩
    · exact ⟨entry, hMember, by simp [FileOp.paths, around]⟩
  · exact Store.Extends.refl store

/-- What is done to make a new stream is about its entry. -/
theorem createStream_touches (env : Env) (faults : WriteFaults) (job : TransferJob) {store : Store}
    {P : FileOp → Prop} {path digest : Text} (hRemove : P (.removeFile digest))
    (hCreate : P (.create path)) (hWrite : P (.write digest)) :
    store.Extends (job.createStream env faults store path (some digest)).2.1 P := by
  have hClear : store.Extends (clearDigest store (some digest)) P := by
    unfold clearDigest
    split
    · exact store.extends_removeFile hRemove
    · exact Store.Extends.refl store
  have hNote : ∀ after : Store, after.Extends (job.noteDigest env faults after (some digest)) P := by
    intro after
    unfold noteDigest
    split
    · exact Store.Extends.refl after
    · exact after.extends_put hWrite _ _
  unfold createStream
  split
  · exact Store.Extends.refl store
  · simp only
    split
    · exact hClear
    · exact (hClear.trans (Store.extends_create _ hCreate _)).trans (hNote _)

/-- What is written through a stream is no operation on paths. -/
theorem writeBlock_touches (env : Env) (faults : WriteFaults) (job : TransferJob) (store : Store)
    (block : FileTransferBlock) (P : FileOp → Prop) :
    store.Extends (job.writeBlock env faults store block).2.1 P := by
  have hSame : (job.writeBlock env faults store block).2.1.platform = store.platform ∧
      (job.writeBlock env faults store block).2.1.ops = store.ops := by
    unfold writeBlock writeAll
    cases job.dataStream with
    | none => exact ⟨rfl, rfl⟩
    | some stream =>
        cases stream with
        | bufStream data pos => exact ⟨rfl, rfl⟩
        | fileStream file =>
            simp only
            cases file.writable with
            | false => exact ⟨rfl, rfl⟩
            | true =>
                cases faults.writeAll with
                | none => exact ⟨rfl, rfl⟩
                | some count => exact ⟨rfl, rfl⟩
  exact ⟨hSame.1, [], by simpa using hSame.2, by simp⟩

/-- All that `write` does is about entries of the list. -/
theorem write_touches (env : Env) (faults : WriteFaults) (hType : job.type = .generic)
    (hSource : job.dataSource = .filePath base) {store : Store}
    (hPlatform : store.platform = platform) (block : FileTransferBlock) :
    store.Extends (job.write env faults store block).2.1
      (FileOp.Touches platform base job.files) := by
  have hEnsure : store.Extends (job.ensureStream env faults store block).2.1
      (FileOp.Touches platform base job.files) := by
    unfold ensureStream
    rw [hSource]
    simp only
    cases hEntry : job.files[asUsize block.fileNum]? with
    | none => exact Store.Extends.refl store
    | some entry =>
        have hMember : entry ∈ job.files := List.mem_of_getElem? hEntry
        simp only
        split
        · have hModified := job.modifyTime_touches faults hSource hPlatform
          have hAfter : (job.modifyTime faults store).platform = platform :=
            hModified.1.trans hPlatform
          unfold moveOn
          simp only
          split
          · exact hModified
          · simp only [hType, streamPaths, hAfter]
            refine hModified.trans ((Store.extends_log _ ?_).trans
              (createStream_touches env faults _ ?_ ?_ ?_))
            all_goals exact ⟨entry, hMember, by simp [FileOp.paths, around]⟩
        · exact Store.Extends.refl store
  unfold write
  split
  · exact Store.Extends.refl store
  · split
    · rename_i hError
      rw [hError] at hEnsure
      exact hEnsure
    · rename_i hOk
      rw [hOk] at hEnsure
      exact hEnsure.trans (writeBlock_touches env faults _ _ block _)

end Touches

theorem platform_createStream (env : Env) (faults : WriteFaults) (job : TransferJob) (store : Store)
    (path : Text) (digest : Option Text) :
    (job.createStream env faults store path digest).2.1.platform = store.platform := by
  have hClear : (clearDigest store digest).platform = store.platform := by
    unfold clearDigest
    split
    · cases digest <;> rfl
    · rfl
  have hNote : ∀ after : Store,
      (job.noteDigest env faults after digest).platform = after.platform := by
    intro after
    unfold noteDigest
    split
    · rfl
    · cases digest <;> rfl
  unfold createStream
  split
  · rfl
  · simp only
    split
    · exact hClear
    · exact (hNote _).trans hClear

theorem platform_ensureStream (env : Env) (faults : WriteFaults) (job : TransferJob) (store : Store)
    (block : FileTransferBlock) :
    (job.ensureStream env faults store block).2.1.platform = store.platform := by
  unfold ensureStream
  split
  · split
    · rfl
    · split
      · unfold moveOn
        simp only
        split
        · exact platform_modifyTime faults store
        · rw [platform_createStream]
          cases job.type <;> exact platform_modifyTime faults store
      · rfl
  · split
    · rfl
    · rfl

theorem platform_write (env : Env) (faults : WriteFaults) (job : TransferJob) (store : Store)
    (block : FileTransferBlock) :
    (job.write env faults store block).2.1.platform = store.platform := by
  have hEnsure := platform_ensureStream env faults job store block
  unfold write
  split
  · rfl
  · split
    · rename_i hError
      rw [hError] at hEnsure
      exact hEnsure
    · rename_i hOk
      rw [hOk] at hEnsure
      exact (writeBlock_touches env faults _ _ block fun _ => True).1.trans hEnsure

theorem platform_removeDownloadFile (job : TransferJob) (store : Store) :
    (job.removeDownloadFile store).platform = store.platform := by
  unfold removeDownloadFile
  split
  · rfl
  · rfl

end TransferJob

/-- The parts of a job that its work leaves alone. -/
structure TransferJob.SameWork (job next : TransferJob) : Prop where
  id : next.id = job.id
  type : next.type = job.type
  dataSource : next.dataSource = job.dataSource
  files : next.files = job.files

namespace TransferJob
variable {job next : TransferJob}

theorem SameWork.refl (job : TransferJob) : job.SameWork job := ⟨rfl, rfl, rfl, rfl⟩

theorem SameWork.trans {third : TransferJob} (hFirst : job.SameWork next)
    (hSecond : next.SameWork third) : job.SameWork third :=
  ⟨hSecond.id.trans hFirst.id, hSecond.type.trans hFirst.type,
    hSecond.dataSource.trans hFirst.dataSource, hSecond.files.trans hFirst.files⟩

theorem SameWork.setDigest (job : TransferJob) (size modified : Nat) :
    job.SameWork (job.setDigest size modified) := ⟨rfl, rfl, rfl, rfl⟩

theorem SameWork.setFinishedSizeOnResume (job : TransferJob) :
    job.SameWork job.setFinishedSizeOnResume := by
  unfold TransferJob.setFinishedSizeOnResume
  split
  · exact ⟨rfl, rfl, rfl, rfl⟩
  · exact .refl job

theorem SameWork.confirm {store : Store} {faults : SeekFaults} {r : FileTransferSendConfirmRequest}
    (hConfirm : job.confirm store faults r = some next) : job.SameWork next := by
  unfold TransferJob.confirm at hConfirm
  split at hConfirm
  · cases hConfirm
    exact SameWork.refl _
  · split at hConfirm
    · cases hConfirm
      exact ⟨rfl, rfl, rfl, rfl⟩
    · cases hConfirm
      exact ⟨rfl, rfl, rfl, rfl⟩
    · simp only at hConfirm
      split at hConfirm
      · unfold setStreamOffset at hConfirm
        split at hConfirm
        · cases hConfirm
          exact ⟨rfl, rfl, rfl, rfl⟩
        · split at hConfirm
          · cases hConfirm
          · simp only at hConfirm
            split at hConfirm
            · cases hConfirm
              exact ⟨rfl, rfl, rfl, rfl⟩
            · split at hConfirm
              · cases hConfirm
                exact ⟨rfl, rfl, rfl, rfl⟩
              · cases hConfirm
                exact ⟨rfl, rfl, rfl, rfl⟩
      · cases hConfirm
        exact ⟨rfl, rfl, rfl, rfl⟩
    · cases hConfirm
      exact SameWork.refl _

theorem SameWork.confirmed (job : TransferJob) (store : Store) (faults : SeekFaults)
    (r : FileTransferSendConfirmRequest) : job.SameWork (job.confirmed store faults r) := by
  unfold TransferJob.confirmed
  cases hConfirm : job.confirm store faults r with
  | none => exact SameWork.refl _
  | some next => exact SameWork.confirm hConfirm

theorem SameWork.createStream (env : Env) (faults : WriteFaults) (job : TransferJob) (store : Store)
    (path : Text) (digest : Option Text) :
    job.SameWork (job.createStream env faults store path digest).2.2 := by
  unfold TransferJob.createStream
  split
  · exact SameWork.refl _
  · simp only
    split
    · exact SameWork.refl _
    · exact ⟨rfl, rfl, rfl, rfl⟩

theorem SameWork.ensureStream (env : Env) (faults : WriteFaults) (job : TransferJob) (store : Store)
    (block : FileTransferBlock) : job.SameWork (job.ensureStream env faults store block).2.2 := by
  unfold TransferJob.ensureStream
  split
  · split
    · exact SameWork.refl _
    · split
      · unfold moveOn
        simp only
        split
        · exact SameWork.refl _
        · have hMoved : job.SameWork { job with fileNum := block.fileNum } := ⟨rfl, rfl, rfl, rfl⟩
          exact hMoved.trans (SameWork.createStream env faults _ _ _ _)
      · exact SameWork.refl _
  · split
    · exact ⟨rfl, rfl, rfl, rfl⟩
    · exact SameWork.refl _

theorem SameWork.writeBlock (env : Env) (faults : WriteFaults) (job : TransferJob) (store : Store)
    (block : FileTransferBlock) : job.SameWork (job.writeBlock env faults store block).2.2 := by
  unfold TransferJob.writeBlock
  split
  · exact SameWork.refl _
  · split
    · exact ⟨rfl, rfl, rfl, rfl⟩
    · exact ⟨rfl, rfl, rfl, rfl⟩

theorem SameWork.write (env : Env) (faults : WriteFaults) (job : TransferJob) (store : Store)
    (block : FileTransferBlock) : job.SameWork (job.write env faults store block).2.2 := by
  have hEnsure := SameWork.ensureStream env faults job store block
  unfold TransferJob.write
  split
  · exact SameWork.refl _
  · split
    · rename_i hError
      rw [hError] at hEnsure
      exact hEnsure
    · rename_i hOk
      rw [hOk] at hEnsure
      exact hEnsure.trans (SameWork.writeBlock env faults _ _ block)

end TransferJob

/-- The one entry of the list has no name: the path is the file itself. -/
def Unnamed (files : List FileEntry) : Prop := files.map FileEntry.name = [[]]

/-- A name that leads down from the directory it is joined to: a relative one that
never climbs above its start and ends below it, or one that replaces the
directory by a path inside it. -/
def Stays (platform : Platform) (target name : Text) : Prop :=
  name ≠ [] ∧
    (platform.relative name = true ∧ descends (platform.segments name) = true ∨
      platform.relative name = false ∧ platform.inside target (platform.join target name) = true ∧
        platform.stable (platform.join target name) = true)

def SafeList (platform : Platform) (target : Text) (files : List FileEntry) : Prop :=
  Unnamed files ∨ ∀ entry ∈ files, Stays platform target entry.name

/-- The operation stays inside the directory, or at the file itself if the list
names it so. -/
def FileOp.Within (platform : Platform) (target : Text) (files : List FileEntry) (op : FileOp) :
    Prop :=
  ∀ path ∈ op.paths, platform.inside target path = true ∨ Unnamed files ∧ path ∈ around target

section Within
variable {platform : Platform} {target name : Text} {files : List FileEntry}

theorem Stays.around (hStable : platform.stable target = true) (hStays : Stays platform target name)
    {path : Text} (hPath : path ∈ around (TransferJob.join platform target name)) :
    platform.inside target path = true := by
  obtain ⟨hName, hStays⟩ := hStays
  have hJoin : TransferJob.join platform target name = platform.join target name := by
    simp [TransferJob.join, hName]
  have hInside : platform.inside target (platform.join target name) = true ∧
      platform.stable (platform.join target name) = true := by
    rcases hStays with ⟨hRelative, hDescends⟩ | ⟨-, hInside, hSettled⟩
    · exact ⟨Lexical.Platform.inside_join hStable hRelative hDescends,
        Lexical.Platform.stable_join hStable hRelative⟩
    · exact ⟨hInside, hSettled⟩
  have hSuffix : ∀ suffix, platform.Plain suffix →
      platform.inside target (platform.join target name ++ suffix) = true := by
    intro suffix hPlain
    refine Lexical.Platform.inside_append_suffix hInside.2 hPlain.isSep hPlain.long ?_ hInside.1
    intro hColon
    exact hPlain.colon (List.mem_of_mem_head? hColon)
  rw [hJoin] at hPath
  simp only [FileTransfer.around, List.mem_cons, List.not_mem_nil, or_false] at hPath
  rcases hPath with rfl | rfl | rfl
  · exact hInside.1
  · exact hSuffix _ (plain_download platform)
  · exact hSuffix _ (plain_digest platform)

/-- What is about the entries of a safe list stays inside the directory. -/
theorem FileOp.Touches.within (hStable : platform.stable target = true)
    (hSafe : SafeList platform target files) {op : FileOp}
    (hTouches : op.Touches platform target files) : op.Within platform target files := by
  obtain ⟨entry, hEntry, hPaths⟩ := hTouches
  intro path hPath
  have hAround := hPaths path hPath
  rcases hSafe with hUnnamed | hStays
  · have hName : entry.name = [] := by
      have hMem : entry.name ∈ files.map FileEntry.name := List.mem_map_of_mem hEntry
      rw [hUnnamed] at hMem
      simpa using hMem
    have hJoin : TransferJob.join platform target entry.name = target := by
      simp [TransferJob.join, hName]
    rw [hJoin] at hAround
    exact Or.inr ⟨hUnnamed, hAround⟩
  · exact Or.inl ((hStays entry hEntry).around hStable hAround)

end Within

/-- What reaches a client with a receiving job: the answers of the peer, and what
its user says about files that are there already or about giving up. -/
inductive ClientInput where
  | fromPeer (response : FileResponse)
  | confirmOverrideFile (id fileNum : Int) (needOverride remember isUpload : Bool)
  | cancelJob (id : Int)

/-- The job a message of the peer is about. -/
def FileResponse.id : FileResponse → Int
  | .dir id _ => id
  | .job (.digest digest) => digest.id
  | .job (.block block) => block.id
  | .job (.done id _) => id
  | .job (.error id _ _) => id

def ClientInput.id : ClientInput → Int
  | .fromPeer response => response.id
  | .confirmOverrideFile id _ _ _ _ => id
  | .cancelJob id => id

namespace Client

def step (client : Client) (input : IoPlan × ClientInput) : Client :=
  match input.2 with
  | .fromPeer response => (client.handleFileResponse input.1 response).1
  | .confirmOverrideFile id fileNum needOverride remember isUpload =>
      (client.handleRequest input.1
        (.setConfirmOverrideFile id fileNum needOverride remember isUpload)).1
  | .cancelJob id => (client.handleRequest input.1 (.cancelJob id)).1

/-- What the step does for the job stays inside the directory. -/
def StepWithin (id : Int) (target : Text) (client : Client) (input : IoPlan × ClientInput) : Prop :=
  input.2.id = id →
    client.store.Extends (client.step input).store fun op =>
      ∃ job, getJob id client.writeJobs = some job ∧
        op.Within client.store.platform target job.files

/-- A list the peer sends for the job leads nowhere else. -/
def NamesStay (id : Int) (target : Text) (client : Client) (input : IoPlan × ClientInput) : Prop :=
  match input.2 with
  | .fromPeer (.dir listed entries) =>
      listed = id → SafeList client.store.platform target (client.entriesFromPeer entries)
  | _ => True

/-- The jobs with the number write below the directory, and their lists are safe. -/
structure Contained (id : Int) (target : Text) (platform : Platform) (client : Client) : Prop where
  samePlatform : client.store.platform = platform
  jobs : ∀ job ∈ client.writeJobs, job.id = id →
    job.type = .generic ∧ job.dataSource = .filePath target ∧ SafeList platform target job.files

/-- Each writing job of the second client is one of the first, after some work. -/
def Continues (client next : Client) : Prop :=
  next.store.platform = client.store.platform ∧
    ∀ found ∈ next.writeJobs, ∃ job ∈ client.writeJobs, job.SameWork found

section Continues
variable {client next : Client}

theorem Continues.of_mem (hPlatform : next.store.platform = client.store.platform)
    (hJobs : ∀ job ∈ next.writeJobs, job ∈ client.writeJobs) : client.Continues next :=
  ⟨hPlatform, fun found hFound => ⟨found, hJobs found hFound, .refl found⟩⟩

theorem Continues.refl (client : Client) : client.Continues client :=
  .of_mem rfl fun _ hJob => hJob

/-- One job did some work, perhaps in several steps. -/
theorem Continues.put {place : Int} {job after : TransferJob}
    (hJob : getJob place client.writeJobs = some job) (hSame : job.SameWork after)
    {middle : Client} (hMiddle : client.Continues middle)
    (hPlatform : next.store.platform = middle.store.platform)
    (hJobs : next.writeJobs = putJob place after middle.writeJobs) : client.Continues next := by
  refine ⟨hPlatform.trans hMiddle.1, fun found hFound => ?_⟩
  rw [hJobs] at hFound
  rcases mem_putJob hFound with rfl | hOld
  · exact ⟨job, mem_of_getJob hJob, hSame⟩
  · exact hMiddle.2 found hOld

theorem continues_uploadDigest (io : IoPlan) (client : Client) (digest : FileTransferDigest) :
    client.Continues (client.handleUploadDigest io digest).1 := by
  unfold handleUploadDigest
  split
  · exact .refl client
  · split
    · split
      · exact .of_mem rfl fun _ hJob => hJob
      · exact .refl client
    · exact .refl client

theorem continues_downloadDigest (io : IoPlan) (client : Client) (digest : FileTransferDigest) :
    client.Continues (client.handleDownloadDigest io digest).1 := by
  unfold handleDownloadDigest
  split
  · exact .refl client
  · rename_i job hJob
    split
    · have hNoted := TransferJob.SameWork.setDigest job digest.fileSize digest.lastModified
      have hMiddle : client.Continues
          { client with
            writeJobs := putJob digest.id (job.setDigest digest.fileSize digest.lastModified)
              client.writeJobs } :=
        .put hJob hNoted (.refl client) rfl rfl
      have hTold := fun r => hNoted.trans
        (TransferJob.SameWork.confirmed (job.setDigest digest.fileSize digest.lastModified)
          client.store io.seek r)
      simp only
      split
      · exact hMiddle
      · split
        · exact .put hJob (hTold _) hMiddle rfl rfl
        · split
          · exact .put hJob (hTold _) hMiddle rfl rfl
          · exact hMiddle
        · exact .put hJob (hTold _) hMiddle rfl rfl
    · exact .refl client

theorem continues_confirmOverrideFile (io : IoPlan) (client : Client) (id fileNum : Int)
    (needOverride remember isUpload : Bool) :
    client.Continues
      (client.setConfirmOverrideFile io id fileNum needOverride remember isUpload).1 := by
  unfold setConfirmOverrideFile
  cases isUpload with
  | true =>
      simp only [if_true]
      split
      · exact .of_mem rfl fun _ hJob => hJob
      · exact .refl client
  | false =>
      simp only [Bool.false_eq_true, if_false]
      split
      · rename_i job hJob
        refine .put hJob (TransferJob.SameWork.trans ?_ (TransferJob.SameWork.confirmed _ _ _ _))
          (.refl client) rfl rfl
        cases remember with
        | true => exact ⟨rfl, rfl, rfl, rfl⟩
        | false => exact .refl job
      · exact .refl client

end Continues

theorem store_uploadDigest (io : IoPlan) (client : Client) (digest : FileTransferDigest) :
    (client.handleUploadDigest io digest).1.store = client.store := by
  unfold handleUploadDigest
  split
  · rfl
  · split
    · split
      · rfl
      · rfl
    · rfl

theorem store_downloadDigest (io : IoPlan) (client : Client) (digest : FileTransferDigest) :
    (client.handleDownloadDigest io digest).1.store = client.store := by
  unfold handleDownloadDigest answer
  split
  · rfl
  · split
    · simp only
      split
      · rfl
      · split
        · rfl
        · split
          · rfl
          · rfl
        · rfl
    · rfl

theorem store_confirmOverrideFile (io : IoPlan) (client : Client) (id fileNum : Int)
    (needOverride remember isUpload : Bool) :
    (client.setConfirmOverrideFile io id fileNum needOverride remember isUpload).1.store =
      client.store := by
  unfold setConfirmOverrideFile
  simp only
  split
  · split
    · rfl
    · rfl
  · split
    · rfl
    · rfl

section Contained
variable {id : Int} {target : Text} {platform : Platform} {client next : Client}

theorem Contained.continues (hContained : client.Contained id target platform)
    (hContinues : client.Continues next) : next.Contained id target platform := by
  refine ⟨hContinues.1.trans hContained.samePlatform, fun found hFound hId => ?_⟩
  obtain ⟨job, hJob, hSame⟩ := hContinues.2 found hFound
  rw [hSame.type, hSame.dataSource, hSame.files]
  exact hContained.jobs job hJob (hSame.id.symm.trans hId)

/-- Every step keeps the jobs contained. -/
theorem Contained.step (hContained : client.Contained id target platform)
    (input : IoPlan × ClientInput) (hNames : NamesStay id target client input) :
    (client.step input).Contained id target platform := by
  obtain ⟨io, input⟩ := input
  cases input with
  | confirmOverrideFile job fileNum needOverride remember isUpload =>
      exact hContained.continues
        (continues_confirmOverrideFile io client job fileNum needOverride remember isUpload)
  | cancelJob job =>
      refine hContained.continues ?_
      simp only [Client.step, handleRequest]
      split
      · rename_i job rest hRemoved
        refine .of_mem (job.platform_removeDownloadFile client.store) fun found hFound => ?_
        exact mem_removeJob (by rw [hRemoved]; exact hFound)
      · exact .of_mem rfl fun _ hJob => hJob
  | fromPeer response =>
      cases response with
      | dir listed entries =>
          simp only [Client.step, handleFileResponse]
          split
          · rename_i job hJob
            refine ⟨hContained.samePlatform, fun found hFound hId => ?_⟩
            rcases mem_putJob hFound with rfl | hOld
            · have hWork := TransferJob.SameWork.setFinishedSizeOnResume
                (job.setFiles (client.entriesFromPeer entries))
              have hFoundId : job.id = id := hWork.id.symm.trans hId
              have hListed : listed = id := (getJob_id hJob).symm.trans hFoundId
              obtain ⟨hType, hSource, -⟩ := hContained.jobs job (mem_of_getJob hJob) hFoundId
              refine ⟨hWork.type.trans hType, hWork.dataSource.trans hSource, ?_⟩
              rw [hWork.files, ← hContained.samePlatform]
              exact hNames hListed
            · exact hContained.jobs found hOld hId
          · exact hContained
      | job message =>
          refine hContained.continues ?_
          simp only [Client.step]
          unfold handleFileResponse
          cases message with
          | digest digest =>
              simp only
              split
              · exact continues_uploadDigest io client digest
              · exact continues_downloadDigest io client digest
          | block block =>
              simp only
              split
              · rename_i job hJob
                exact .put hJob (TransferJob.SameWork.write io.env io.write job client.store block)
                  (.refl client) (job.platform_write io.env io.write client.store block) rfl
              · exact .refl client
          | done job fileNum =>
              simp only
              split
              · rename_i job rest hRemoved
                refine .of_mem (job.platform_modifyTime io.write client.store) fun found hFound => ?_
                exact mem_removeJob (by rw [hRemoved]; exact hFound)
              · exact .refl client
          | error job error fileNum =>
              simp only
              split
              · rename_i job rest hRemoved
                refine .of_mem rfl fun found hFound => ?_
                exact mem_removeJob (by rw [hRemoved]; exact hFound)
              · exact .of_mem rfl fun _ hJob => hJob

/-- What a step does to files is what one of the three operations of the job does. -/
theorem step_store (client : Client) (input : IoPlan × ClientInput) :
    (client.step input).store = client.store ∨
      ∃ job, getJob input.2.id client.writeJobs = some job ∧
        ((∃ block, (client.step input).store =
            (job.write input.1.env input.1.write client.store block).2.1) ∨
          (client.step input).store = job.modifyTime input.1.write client.store ∨
          (client.step input).store = job.removeDownloadFile client.store) := by
  obtain ⟨io, input⟩ := input
  cases input with
  | confirmOverrideFile job fileNum needOverride remember isUpload =>
      exact Or.inl (store_confirmOverrideFile io client job fileNum needOverride remember isUpload)
  | cancelJob job =>
      simp only [Client.step, handleRequest, ClientInput.id]
      split
      · rename_i job rest hRemoved
        exact Or.inr ⟨job, congrArg Prod.fst hRemoved, Or.inr (Or.inr rfl)⟩
      · exact Or.inl rfl
  | fromPeer response =>
      simp only [Client.step, ClientInput.id]
      unfold handleFileResponse
      cases response with
      | dir listed entries =>
          simp only
          split
          · exact Or.inl rfl
          · exact Or.inl rfl
      | job message =>
          cases message with
          | digest digest =>
              simp only
              split
              · exact Or.inl (store_uploadDigest io client digest)
              · exact Or.inl (store_downloadDigest io client digest)
          | block block =>
              simp only
              split
              · rename_i job hJob
                exact Or.inr ⟨job, hJob, Or.inl ⟨block, rfl⟩⟩
              · exact Or.inl rfl
          | done job fileNum =>
              simp only
              split
              · rename_i job rest hRemoved
                exact Or.inr ⟨job, congrArg Prod.fst hRemoved, Or.inr (Or.inl rfl)⟩
              · exact Or.inl rfl
          | error job error fileNum =>
              simp only
              split
              · exact Or.inl rfl
              · exact Or.inl rfl

/-- A step on contained jobs stays inside the directory. -/
theorem Contained.stepWithin (hContained : client.Contained id target platform)
    (hStable : platform.stable target = true) (input : IoPlan × ClientInput) :
    StepWithin id target client input := by
  intro hInput
  have hPlatform := hContained.samePlatform
  rcases client.step_store input with hStore | ⟨job, hJob, hDone⟩
  · rw [hStore]
    exact Store.Extends.refl client.store
  · rw [hInput] at hJob
    obtain ⟨hType, hSource, hSafe⟩ :=
      hContained.jobs job (mem_of_getJob hJob) (getJob_id hJob)
    have hTouches : client.store.Extends (client.step input).store
        (FileOp.Touches platform target job.files) := by
      rcases hDone with ⟨block, hStore⟩ | hStore | hStore
      · rw [hStore]
        exact TransferJob.write_touches input.1.env input.1.write hType hSource hPlatform block
      · rw [hStore]
        exact TransferJob.modifyTime_touches input.1.write hSource hPlatform
      · rw [hStore]
        exact TransferJob.removeDownloadFile_touches hSource hPlatform
    obtain ⟨hSame, ops, hOps, hAll⟩ := hTouches
    refine ⟨hSame, ops, hOps, fun op hOp => ⟨job, hJob, ?_⟩⟩
    rw [hPlatform]
    exact (hAll op hOp).within hStable hSafe

end Contained

/-- The client after its user asked for files of the peer. -/
def asked (client : Client) (io : IoPlan) (id : Int) (path target : Text) (fileNum : Int)
    (includeHidden : Bool) : Client :=
  (client.handleRequest io (.sendFiles id .generic path target fileNum includeHidden true [])).1

/-- Along every run in which the lists of the peer lead nowhere else, all that is
done for the job stays inside the directory it was asked to write to. -/
theorem within_of_names {client : Client} {id : Int} {target : Text}
    (hFresh : getJob id client.writeJobs = none)
    (hStable : client.store.platform.stable target = true) (io : IoPlan) (path : Text)
    (fileNum : Int) (includeHidden : Bool) {inputs : List (IoPlan × ClientInput)}
    (hNames : Trace.Always step (NamesStay id target)
      (client.asked io id path target fileNum includeHidden) inputs) :
    Trace.Always step (StepWithin id target)
      (client.asked io id path target fileNum includeHidden) inputs := by
  have hStart : (client.asked io id path target fileNum includeHidden).Contained id target
      client.store.platform := by
    refine ⟨rfl, fun job hJob hId => ?_⟩
    rcases List.mem_append.mp hJob with hOld | hNew
    · exact absurd hId (by simpa using List.find?_eq_none.mp hFresh job hOld)
    · obtain rfl := List.mem_singleton.mp hNew
      exact ⟨rfl, rfl, Or.inr (by simp [TransferJob.newWrite])⟩
  exact Trace.always_of_invariant step (Contained id target client.store.platform)
    (fun state input hNames hContained => hContained.step input hNames)
    (fun state input _ hContained => hContained.stepWithin hStable input) hStart hNames

/-- Nothing fails, and nothing is compressed. -/
def plainIo : IoPlan where
  env :=
    { now := 0
      zstdDecodeAll := fun data => some data
      digestToJson := fun _ => []
      digestFromJson := fun _ => none }
  write := WriteFaults.none
  seek := SeekFaults.none
  digestFails := false

/-- A client on an empty disk, asked for files of the peer to be put into `/d`. -/
def asking : Client :=
  asked
    { store := { platform := .unix, disk := Storage.Disk.empty, ops := [] }
      peerIsWindows := false
      supportsResume := true
      overwriteDetection := true
      writeJobs := []
      readJobs := [] }
    plainIo 1 "/p".toList "/d".toList 0 false

/-- The peer lists one file. -/
def listing (name : Text) : IoPlan × ClientInput := (plainIo, .fromPeer (.dir 1 [⟨name, 2, 0⟩]))

/-- The peer sends the beginning of the file. -/
def firstBlock : IoPlan × ClientInput :=
  (plainIo, .fromPeer (.job (.block { id := 1, fileNum := 0, data := [7], compressed := false })))

theorem named_file_within :
    Trace.Always step (NamesStay 1 "/d".toList) asking
        [listing "a/b".toList, firstBlock] ∧
      Trace.Always step (StepWithin 1 "/d".toList) asking
        [listing "a/b".toList, firstBlock] := by
  have hNames : Trace.Always step (NamesStay 1 "/d".toList) asking
        [listing "a/b".toList, firstBlock] := by
    refine ⟨fun _ => Or.inr fun entry hEntry => ?_, trivial, trivial⟩
    obtain rfl := List.mem_singleton.mp hEntry
    exact ⟨by decide, Or.inl ⟨by decide +kernel, by decide +kernel⟩⟩
  exact ⟨hNames, within_of_names rfl (by decide +kernel) plainIo _ 0 false hNames⟩

/-- A name that climbs out of the directory is written to where it leads. -/
theorem climbing_file_escapes :
    ¬ Trace.Always step (StepWithin 1 "/d".toList) asking
      [listing "../x".toList, firstBlock] := by
  rintro ⟨-, hBlock, -⟩
  obtain ⟨-, ops, hOps, hAll⟩ := hBlock rfl
  have hBefore : (asking.step (listing "../x".toList)).store.ops = [] := by decide +kernel
  have hAfter : ((asking.step (listing "../x".toList)).step firstBlock).store.ops =
      [.removeFile "/d/../x.digest".toList,
        .rename "/d/../x.download".toList "/d/../x".toList, .setFileMtime "/d/../x".toList,
        .createParents "/d/../x".toList, .create "/d/../x.download".toList,
        .write "/d/../x.digest".toList] := by
    decide +kernel
  rw [hBefore, hAfter, List.nil_append] at hOps
  subst hOps
  obtain ⟨job, hJob, hWithin⟩ := hAll (.create "/d/../x.download".toList) (by simp)
  rcases hWithin _ List.mem_cons_self with hInside | ⟨hUnnamed, -⟩
  · exact absurd hInside (by decide +kernel)
  · have hFiles : (getJob 1 (asking.step (listing "../x".toList)).writeJobs).map TransferJob.files =
        some [⟨"../x".toList, 2, 0⟩] := by
      decide +kernel
    rw [hJob] at hFiles
    rw [Option.some.inj hFiles] at hUnnamed
    exact absurd hUnnamed (by unfold Unnamed; decide)

end Client

end HibtDesk.FileTransfer
