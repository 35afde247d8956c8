import HibtDesk.FileTransfer.Write

/-! What the receiving side does to the disk, place by place. The lemmas about
`modify_time` and about the creation of a stream say which places change; the
one about `write` says what a block does, with the failures that `write` itself
passes over left open. -/
namespace HibtDesk.FileTransfer

open Lexical (Text Platform)
open Lexical.Platform (Location)

/-- Nothing fails that `write` would report. -/
structure WriteFaults.Quiet (faults : WriteFaults) : Prop where
  sync : faults.sync = false
  removeStale : faults.removeStale = false
  create : faults.create = false
  writeAll : faults.writeAll = Option.none

theorem WriteFaults.none_quiet : WriteFaults.none.Quiet := ⟨rfl, rfl, rfl, rfl⟩

namespace Store
variable (store : Store)

@[simp] theorem platform_log (op : FileOp) : (store.log op).platform = store.platform := rfl

@[simp] theorem disk_log (op : FileOp) : (store.log op).disk = store.disk := rfl

@[simp] theorem platform_removeFile (path : Text) :
    (store.removeFile path).platform = store.platform := rfl

@[simp] theorem disk_removeFile (path : Text) :
    (store.removeFile path).disk = store.disk.remove (store.platform.location path) := rfl

@[simp] theorem platform_rename (source target : Text) :
    (store.rename source target).platform = store.platform := rfl

@[simp] theorem disk_rename (source target : Text) :
    (store.rename source target).disk =
      store.disk.rename (store.platform.location source) (store.platform.location target) := rfl

@[simp] theorem platform_setFileMtime (path : Text) (seconds : Nat) :
    (store.setFileMtime path seconds).platform = store.platform := rfl

@[simp] theorem disk_setFileMtime (path : Text) (seconds : Nat) :
    (store.setFileMtime path seconds).disk =
      store.disk.setModified (store.platform.location path) (seconds * nanosPerSec) := rfl

@[simp] theorem platform_create (path : Text) (now : Nat) :
    (store.create path now).1.platform = store.platform := rfl

@[simp] theorem disk_create (path : Text) (now : Nat) :
    (store.create path now).1.disk = (store.disk.create (store.platform.location path) now).1 := rfl

@[simp] theorem handle_create (path : Text) (now : Nat) :
    (store.create path now).2 =
      { node := (store.disk.create (store.platform.location path) now).2, pos := 0
        writable := true } := rfl

@[simp] theorem platform_put (path : Text) (data : Bytes) (now : Nat) :
    (store.put path data now).platform = store.platform := rfl

@[simp] theorem disk_put (path : Text) (data : Bytes) (now : Nat) :
    (store.put path data now).disk =
      store.disk.put (store.platform.location path) data now := rfl

end Store

namespace TransferJob

/-- The stream of the job is a file that still has the name it was created
under, and the job is at the end of what it holds. -/
def Streams (job : TransferJob) (store : Store) (path : Text) (content : Bytes) : Prop :=
  ∃ node,
    job.dataStream =
        some (.fileStream { node := node, pos := content.length, writable := true }) ∧
      store.disk.node (store.platform.location path) = some node ∧
      (store.disk.file node).content = content

/-- The stream of the job is the file under a name, at some place in it. -/
def Holds (job : TransferJob) (store : Store) (path : Text) (pos : Nat) (content : Bytes) : Prop :=
  ∃ node,
    job.dataStream = some (.fileStream { node := node, pos := pos, writable := true }) ∧
      store.disk.node (store.platform.location path) = some node ∧
      (store.disk.file node).content = content

theorem Holds.content {job : TransferJob} {store : Store} {path : Text} {pos : Nat}
    {content : Bytes} (hHolds : job.Holds store path pos content) :
    store.disk.content (store.platform.location path) = some content := by
  obtain ⟨node, -, hNode, hContent⟩ := hHolds
  simp [Storage.Disk.content, Storage.Disk.lookup, hNode, hContent]

theorem holds_of_content {job : TransferJob} {store : Store} {path : Text} {pos : Nat}
    {content : Bytes} {node : Nat}
    (hStream : job.dataStream =
      some (.fileStream { node := node, pos := pos, writable := true }))
    (hNode : store.disk.node (store.platform.location path) = some node)
    (hContent : store.disk.content (store.platform.location path) = some content) :
    job.Holds store path pos content := by
  refine ⟨node, hStream, hNode, ?_⟩
  simpa [Storage.Disk.content, Storage.Disk.lookup, hNode] using hContent

theorem Streams.content {job : TransferJob} {store : Store} {path : Text} {content : Bytes}
    (hStreams : job.Streams store path content) :
    store.disk.content (store.platform.location path) = some content :=
  Holds.content hStreams

theorem streams_of_content {job : TransferJob} {store : Store} {path : Text} {content : Bytes}
    {node : Nat}
    (hStream : job.dataStream =
      some (.fileStream { node := node, pos := content.length, writable := true }))
    (hNode : store.disk.node (store.platform.location path) = some node)
    (hContent : store.disk.content (store.platform.location path) = some content) :
    job.Streams store path content :=
  holds_of_content hStream hNode hContent

section ModifyTime
variable {job : TransferJob} {base : Text} {entry : FileEntry}

theorem modifyTime_of_entry (faults : WriteFaults) (hType : job.type = .generic)
    (hSource : job.dataSource = .filePath base) (hEntry : job.currentFile = some entry)
    (store : Store) :
    job.modifyTime faults store =
      (let path := join store.platform base entry.name
       let store := if faults.removeDigest then store else store.removeFile (digestPath path)
       let store := if faults.rename then store else store.rename (download path) path
       if faults.setMtime then store else store.setFileMtime path entry.modifiedTime) := by
  unfold modifyTime
  rw [hType, hSource, hEntry]

@[simp] theorem platform_modifyTime (faults : WriteFaults) (store : Store) :
    (job.modifyTime faults store).platform = store.platform := by
  unfold modifyTime
  split
  · simp only
    split_ifs <;> rfl
  · rfl

/-- Without an entry there is nothing to rename. -/
theorem modifyTime_of_none (faults : WriteFaults) (hEntry : job.currentFile = none)
    (store : Store) : job.modifyTime faults store = store := by
  unfold modifyTime
  rw [hEntry]
  split
  · rename_i hSome
    cases hSome
  · rfl

/-- The unfinished file of the current entry takes its place; the other places
keep what they hold, the digest's apart. -/
theorem content_modifyTime (faults : WriteFaults) (hType : job.type = .generic)
    (hSource : job.dataSource = .filePath base) (hEntry : job.currentFile = some entry)
    (store : Store) {place : Location}
    (hPlace : place ≠ store.platform.location (digestPath (join store.platform base entry.name))) :
    (job.modifyTime faults store).disk.content place =
      (let path := join store.platform base entry.name
       let unfinished := store.disk.content (store.platform.location (download path))
       if faults.rename = true ∨ unfinished = none then store.disk.content place
       else if place = store.platform.location path then unfinished
       else if place = store.platform.location (download path) then none
       else store.disk.content place) := by
  rw [modifyTime_of_entry faults hType hSource hEntry]
  simp only
  have hApart := location_download_ne_digest store.platform (join store.platform base entry.name)
    (join store.platform base entry.name)
  -- What becomes of the time and of the digest does not show here.
  have hTime : ∀ after : Store,
      (if faults.setMtime = true then after
        else after.setFileMtime (join store.platform base entry.name) entry.modifiedTime).disk.content
          place = after.disk.content place := by
    intro after
    split
    · rfl
    · simp
  have hDigest : ∀ other ≠ store.platform.location (digestPath (join store.platform base entry.name)),
      (if faults.removeDigest = true then store
        else store.removeFile (digestPath (join store.platform base entry.name))).disk.content other =
          store.disk.content other := by
    intro other hOther
    split
    · rfl
    · simp [Storage.Disk.content_remove, hOther]
  have hPlatform :
      (if faults.removeDigest = true then store
        else store.removeFile (digestPath (join store.platform base entry.name))).platform =
          store.platform := by
    split <;> rfl
  rw [hTime]
  generalize (if faults.removeDigest = true then store
    else store.removeFile (digestPath (join store.platform base entry.name))) = after at *
  by_cases hRename : faults.rename = true
  · simp [hRename, hDigest place hPlace]
  · simp only [hRename, Bool.false_eq_true, if_false, Store.disk_rename, hPlatform, false_or,
      Storage.Disk.content_rename, hDigest _ hApart, hDigest place hPlace]
    simp [Option.isNone_iff_eq_none]

end ModifyTime

section Write
variable {job : TransferJob} {base : Text} {entry : FileEntry} {faults : WriteFaults}

/-- The digest of a file does not take the place of its stream. -/
theorem streamPaths_apart (platform : Platform) (job : TransferJob) (base : Text)
    (entry : FileEntry) {digest : Text}
    (hDigest : (job.streamPaths platform base entry).2 = some digest) :
    platform.location (job.streamPaths platform base entry).1 ≠ platform.location digest := by
  unfold streamPaths at *
  cases hType : job.type with
  | printer => simp [hType] at hDigest
  | generic =>
      simp only [hType, Option.some.injEq] at hDigest ⊢
      rw [← hDigest]
      exact location_download_ne_digest _ _ _

section Digest
variable {store : Store} {digest : Option Text} {place : Location}

theorem clearDigest_spec
    (hPlace : ∀ found, digest = some found → place ≠ store.platform.location found) :
    (clearDigest store digest).platform = store.platform ∧
      (clearDigest store digest).disk.content place = store.disk.content place := by
  unfold clearDigest
  cases digest with
  | none => simp
  | some found =>
      have hOther := hPlace found rfl
      simp only [Option.any_some, Option.elim_some]
      split
      · exact ⟨rfl, by simp [Storage.Disk.content_remove, hOther]⟩
      · exact ⟨rfl, rfl⟩

theorem noteDigest_spec (env : Env) (faults : WriteFaults) (job : TransferJob)
    (hPlace : ∀ found, digest = some found → place ≠ store.platform.location found) :
    (job.noteDigest env faults store digest).platform = store.platform ∧
      (job.noteDigest env faults store digest).disk.content place = store.disk.content place ∧
      (job.noteDigest env faults store digest).disk.node place = store.disk.node place := by
  unfold noteDigest
  split
  · exact ⟨rfl, rfl, rfl⟩
  · cases digest with
    | none => exact ⟨rfl, rfl, rfl⟩
    | some found =>
        have hOther := hPlace found rfl
        exact ⟨rfl, by simp [Storage.Disk.content_put, hOther],
          Storage.Disk.node_put_of_ne _ hOther _ _⟩

end Digest

/-- A new stream is empty, and only its place and the digest's change. -/
theorem createStream_spec (env : Env) (hQuiet : faults.Quiet) (job : TransferJob) (store : Store)
    {path : Text} {digest : Option Text}
    (hApart : ∀ found, digest = some found →
      store.platform.location path ≠ store.platform.location found) :
    ∃ after stream,
      job.createStream env faults store path digest =
        (.ok (), after, { job with dataStream := some stream }) ∧
      after.platform = store.platform ∧
      { job with dataStream := some stream }.Streams after path [] ∧
      ∀ place, place ≠ store.platform.location path →
        (∀ found, digest = some found → place ≠ store.platform.location found) →
        after.disk.content place = store.disk.content place := by
  obtain ⟨hCleared, -⟩ := clearDigest_spec hApart
  have hCreated : ((clearDigest store digest).create path env.now).1.platform = store.platform :=
    hCleared
  unfold createStream
  simp only [hQuiet.removeStale, hQuiet.create, Bool.and_false, Bool.false_eq_true, if_false]
  refine ⟨_, .fileStream ((clearDigest store digest).create path env.now).2, rfl, ?_, ?_, ?_⟩
  · rw [← hCreated] at hApart
    exact (noteDigest_spec env faults job hApart).1.trans hCreated
  · rw [← hCreated] at hApart
    obtain ⟨hSame, hContent, hNode⟩ := noteDigest_spec env faults job hApart
    refine streams_of_content rfl ?_ ?_
    · rw [hSame, hNode]
      exact Storage.Disk.node_create_self ..
    · rw [hSame, hContent]
      exact (Storage.Disk.content_create ..).trans (if_pos rfl)
  · intro place hPlace hDigest
    obtain ⟨-, hKept⟩ := clearDigest_spec hDigest
    rw [← hKept]
    rw [← hCreated] at hDigest
    rw [(noteDigest_spec env faults job hDigest).2.1, Store.disk_create, hCleared,
      Storage.Disk.content_create, if_neg hPlace]

/-- What a write changes in the job: the file it is at, its stream, and its
counters. -/
structure Wrote (job : TransferJob) (block : FileTransferBlock) (payload : Bytes)
    (next : TransferJob) : Prop where
  id : next.id = job.id
  type : next.type = job.type
  dataSource : next.dataSource = job.dataSource
  files : next.files = job.files
  fileNum : asUsize next.fileNum = asUsize block.fileNum
  finishedSize : next.finishedSize = job.finishedSize + payload.length

/-- Writing through a stream changes what it holds from its place on, and leaves
the other places alone. -/
theorem writeBlock_holds (env : Env) (hQuiet : faults.Quiet) {store : Store} {path : Text}
    {pos : Nat} {content : Bytes} (block : FileTransferBlock)
    (hHolds : job.Holds store path pos content)
    (hNum : asUsize job.fileNum = asUsize block.fileNum) :
    ∃ after next,
      job.writeBlock env faults store block = (.ok (), after, next) ∧
      job.Wrote block (block.payload env) next ∧
      after.platform = store.platform ∧
      next.Holds after path (pos + (block.payload env).length)
        (Storage.overwrite 0 content pos (block.payload env)) ∧
      ∀ place, place ≠ store.platform.location path →
        after.disk.content place = store.disk.content place := by
  have hBefore := hHolds.content
  obtain ⟨node, hStream, hNode, hContent⟩ := hHolds
  unfold writeBlock writeAll
  simp only [hStream, hQuiet.writeAll, Bool.not_true, Bool.false_eq_true, if_false,
    Option.isSome_none]
  refine ⟨_, _, rfl, ⟨rfl, rfl, rfl, rfl, hNum, rfl⟩, rfl, ?_, ?_⟩
  · refine holds_of_content rfl hNode ?_
    simp only [Storage.Disk.content_write hNode, hBefore, if_true, Option.map_some]
  · intro place hPlace
    simp only [Storage.Disk.content_write hNode, if_neg hPlace]

/-- Writing through a stream at its end appends to it. -/
theorem writeBlock_spec (env : Env) (hQuiet : faults.Quiet) {store : Store} {path : Text}
    {content : Bytes} (block : FileTransferBlock) (hStreams : job.Streams store path content)
    (hNum : asUsize job.fileNum = asUsize block.fileNum) :
    ∃ after next,
      job.writeBlock env faults store block = (.ok (), after, next) ∧
      job.Wrote block (block.payload env) next ∧
      after.platform = store.platform ∧
      next.Streams after path (content ++ block.payload env) ∧
      ∀ place, place ≠ store.platform.location path →
        after.disk.content place = store.disk.content place := by
  obtain ⟨after, next, hWrite, hWrote, hPlatform, hHolds, hKept⟩ :=
    writeBlock_holds env hQuiet block hStreams hNum
  rw [Storage.overwrite_end, ← List.length_append] at hHolds
  exact ⟨after, next, hWrite, hWrote, hPlatform, hHolds, hKept⟩

/-- A block for the file the job is at goes through its stream. -/
theorem write_of_open (env : Env) (faults : WriteFaults) {store : Store}
    {block : FileTransferBlock} (hId : block.id = job.id)
    (hSource : job.dataSource = .filePath base)
    (hEntry : job.files[asUsize block.fileNum]? = some entry)
    (hNum : asUsize job.fileNum = asUsize block.fileNum) (hOpen : job.dataStream ≠ none) :
    job.write env faults store block = job.writeBlock env faults store block := by
  have hEnsure : job.ensureStream env faults store block = (.ok (), store, job) := by
    unfold ensureStream
    rw [hSource]
    simp only [hEntry]
    rw [if_neg]
    rintro (hOther | hNone)
    · exact hOther hNum.symm
    · exact hOpen hNone
  unfold write
  rw [if_neg (fun hOther => hOther hId), hEnsure]

/-- A block for the file the job is at is appended to it. -/
theorem write_same (env : Env) (hQuiet : faults.Quiet) {store : Store} {path : Text}
    {content : Bytes} {block : FileTransferBlock} (hId : block.id = job.id)
    (hSource : job.dataSource = .filePath base)
    (hEntry : job.files[asUsize block.fileNum]? = some entry)
    (hNum : asUsize job.fileNum = asUsize block.fileNum)
    (hStreams : job.Streams store path content) :
    ∃ after next,
      job.write env faults store block = (.ok (), after, next) ∧
      job.Wrote block (block.payload env) next ∧
      after.platform = store.platform ∧
      next.Streams after path (content ++ block.payload env) ∧
      ∀ place, place ≠ store.platform.location path →
        after.disk.content place = store.disk.content place := by
  have hOpen : job.dataStream ≠ none := by
    obtain ⟨node, hStream, -⟩ := hStreams
    simp [hStream]
  rw [write_of_open env faults hId hSource hEntry hNum hOpen]
  exact writeBlock_spec env hQuiet block hStreams hNum

/-- A block for another file closes the current one, and starts a new stream. -/
theorem write_new (env : Env) (hQuiet : faults.Quiet) (store : Store)
    {block : FileTransferBlock} (hId : block.id = job.id)
    (hSource : job.dataSource = .filePath base)
    (hEntry : job.files[asUsize block.fileNum]? = some entry)
    (hNew : asUsize block.fileNum ≠ asUsize job.fileNum ∨ job.dataStream = none) :
    ∃ after next,
      job.write env faults store block = (.ok (), after, next) ∧
      job.Wrote block (block.payload env) next ∧
      after.platform = store.platform ∧
      next.Streams after (job.streamPaths store.platform base entry).1 (block.payload env) ∧
      ∀ place, place ≠ store.platform.location (job.streamPaths store.platform base entry).1 →
        (∀ digest, (job.streamPaths store.platform base entry).2 = some digest →
          place ≠ store.platform.location digest) →
        after.disk.content place = (job.modifyTime faults store).disk.content place := by
  -- The store in which the stream is made: the current file closed, the directory there.
  have hMove : ∃ ready : Store,
      ready.platform = store.platform ∧ ready.disk = (job.modifyTime faults store).disk ∧
      job.ensureStream env faults store block =
        { job with fileNum := block.fileNum }.createStream env faults ready
          (job.streamPaths store.platform base entry).1
          (job.streamPaths store.platform base entry).2 := by
    unfold ensureStream
    rw [hSource]
    simp only [hEntry, if_pos hNew]
    unfold moveOn
    simp only [hQuiet.sync, Bool.and_false, Bool.false_eq_true, if_false]
    cases hType : job.type with
    | printer =>
        refine ⟨job.modifyTime faults store, platform_modifyTime faults store, rfl, ?_⟩
        simp [streamPaths, hType, hSource]
    | generic =>
        refine ⟨(job.modifyTime faults store).log
          (.createParents (join (job.modifyTime faults store).platform base entry.name)),
          platform_modifyTime faults store, rfl, ?_⟩
        simp [streamPaths, hType, hSource]
  obtain ⟨ready, hPlatform, hDisk, hEnsure⟩ := hMove
  have hApart : ∀ found, (job.streamPaths store.platform base entry).2 = some found →
      ready.platform.location (job.streamPaths store.platform base entry).1 ≠
        ready.platform.location found := by
    intro found hFound
    rw [hPlatform]
    exact streamPaths_apart _ _ _ _ hFound
  obtain ⟨created, stream, hCreate, hCreated, hStreams, hKept⟩ :=
    createStream_spec env hQuiet { job with fileNum := block.fileNum } ready hApart
  obtain ⟨after, next, hWrite, hWrote, hAfter, hNext, hRest⟩ :=
    writeBlock_spec env hQuiet block hStreams rfl
  refine ⟨after, next, ?_, ?_, hAfter.trans (hCreated.trans hPlatform), hNext, ?_⟩
  · unfold write
    rw [if_neg (fun hOther => hOther hId), hEnsure, hCreate]
    exact hWrite
  · exact ⟨hWrote.id, hWrote.type, hWrote.dataSource, hWrote.files, hWrote.fileNum,
      hWrote.finishedSize⟩
  · intro place hPlace hDigest
    rw [hCreated, hPlatform] at hRest
    rw [hPlatform] at hKept
    rw [hRest place hPlace, hKept place hPlace hDigest, hDisk]

end Write

end TransferJob

end HibtDesk.FileTransfer
