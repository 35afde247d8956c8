import HibtDesk.FileTransfer.Asking

/-! A receiving job that follows a sender through the files of a task, some of
which are skipped and one of which may be taken up where an earlier transfer left
it. -/
namespace HibtDesk.FileTransfer

open Lexical (Text Platform)

/-- What is to be transferred: the files of a source, and where they go. The two
lists are those of the two jobs, which name each file in their own way. -/
structure Task where
  source : Store
  base : Text
  files : List FileEntry
  platform : Platform
  target : Text
  copies : List FileEntry

namespace Task

/-- Where the `k`th file comes from. -/
def origin (task : Task) (k : Nat) : Option Text :=
  task.files[k]?.map fun entry => TransferJob.join task.source.platform task.base entry.name

/-- What the `k`th file holds. -/
def text (task : Task) (k : Nat) : Option Bytes := (task.origin k).bind task.source.content

/-- Where the `k`th file goes. -/
def path (task : Task) (k : Nat) : Option Text :=
  task.copies[k]?.map fun copy => TransferJob.join task.platform task.target copy.name

/-- The files that were sent are in place. -/
def Placed (task : Task) (sent : Nat → Prop) (store : Store) : Prop :=
  ∀ i path, sent i → task.path i = some path → store.content path = task.text i

/-- The files are there, and each has a place to go to. No file goes to where
another one is kept until it is whole, and files that go to one place are alike. -/
structure Sound (task : Task) : Prop where
  length : task.copies.length = task.files.length
  there : ∀ k, k < task.files.length → (task.text k).isSome = true
  apart : Receiving.Apart task.platform task.target task.copies
  alike : ∀ i j first second, task.path i = some first → task.path j = some second →
    task.platform.location first = task.platform.location second → task.text i = task.text j

/-- What is unfinished at the target is the beginning of the file. -/
def Leftovers (task : Task) (store : Store) : Prop :=
  ∀ k path data text, task.path k = some path → task.text k = some text →
    Unfinished store path data → data <+: text

theorem apart_path {task : Task} (hSound : task.Sound) {i j : Nat} {first second : Text}
    (hFirst : task.path i = some first) (hSecond : task.path j = some second) :
    task.platform.location first ≠ task.platform.location (download second) ∧
      task.platform.location first ≠ task.platform.location (digestPath second) := by
  obtain ⟨entry, hEntry, rfl⟩ := Option.map_eq_some_iff.mp hFirst
  obtain ⟨other, hOther, rfl⟩ := Option.map_eq_some_iff.mp hSecond
  exact hSound.apart entry (List.mem_of_getElem? hEntry) other (List.mem_of_getElem? hOther)

theorem Sound.text_of_entry {task : Task} (hSound : task.Sound) {k : Nat} {entry : FileEntry}
    (hEntry : task.files[k]? = some entry) :
    ∃ text, task.text k = some text ∧
      task.source.content (TransferJob.join task.source.platform task.base entry.name) =
        some text := by
  have hThere : k < task.files.length := (List.getElem?_eq_some_iff.mp hEntry).1
  obtain ⟨text, hText⟩ := Option.isSome_iff_exists.mp (hSound.there k hThere)
  refine ⟨text, hText, ?_⟩
  rwa [Task.text, Task.origin, hEntry] at hText

theorem Sound.path_of_entry {task : Task} (hSound : task.Sound) {k : Nat} {entry : FileEntry}
    (hEntry : task.files[k]? = some entry) :
    ∃ copy, task.copies[k]? = some copy ∧
      task.path k = some (TransferJob.join task.platform task.target copy.name) := by
  have hThere : k < task.files.length := (List.getElem?_eq_some_iff.mp hEntry).1
  have hCopy := List.getElem?_eq_getElem (hSound.length ▸ hThere)
  refine ⟨_, hCopy, ?_⟩
  rw [Task.path, hCopy, Option.map_some]

/-- Files that go to different places are never mistaken for each other. -/
theorem alike_of_nodup {task : Task}
    (hNodup : (task.copies.map (Receiving.destination task.platform task.target)).Nodup)
    (i j : Nat) (first second : Text) (hFirst : task.path i = some first)
    (hSecond : task.path j = some second)
    (hSame : task.platform.location first = task.platform.location second) :
    task.text i = task.text j := by
  obtain ⟨entry, hEntry, rfl⟩ := Option.map_eq_some_iff.mp hFirst
  obtain ⟨other, hOther, rfl⟩ := Option.map_eq_some_iff.mp hSecond
  have hHere : (task.copies.map (Receiving.destination task.platform task.target))[i]? =
      (task.copies.map (Receiving.destination task.platform task.target))[j]? := by
    rw [List.getElem?_map, List.getElem?_map, hEntry, hOther]
    exact congrArg some hSame
  have hThere : i < (task.copies.map (Receiving.destination task.platform task.target)).length := by
    rw [List.length_map]
    exact (List.getElem?_eq_some_iff.mp hEntry).1
  rw [(List.getElem?_inj hThere hNodup).mp hHere]

theorem leftovers_of_lt {task : Task} {store : Store}
    (hAll : ∀ k, k < task.copies.length → ∀ path ∈ task.path k, ∀ text ∈ task.text k,
      ∀ data ∈ store.content (download path), data <+: text) : task.Leftovers store := by
  intro k path data text hPath hText hData
  obtain ⟨copy, hCopy, -⟩ := Option.map_eq_some_iff.mp hPath
  exact hAll k (List.getElem?_eq_some_iff.mp hCopy).1 path hPath text hText data hData.1

end Task

namespace TransferJob

/-- A job that receives the files of a task. -/
structure Takes (job : TransferJob) (task : Task) (id : Int) : Prop where
  id : job.id = id
  type : job.type = .generic
  dataSource : job.dataSource = .filePath task.target
  files : job.files = task.copies

/-- A receiving job when the sender is about to send the `k`th file: it is at the
same file and has received nothing, or it has the whole of an earlier file. -/
inductive Behind (task : Task) (sent : Nat → Prop) (k : Nat) (store : Store) (job : TransferJob) :
    Prop where
  | fresh (hNone : ∀ i, ¬ sent i) (hNum : job.fileNum = k) (hStream : job.dataStream = none)
      (hLeft : task.Leftovers store)
  | whole {j : Nat} {path : Text} {text : Bytes} (hBefore : j < k) (hPath : task.path j = some path)
      (hText : task.text j = some text) (hNum : asUsize job.fileNum = j)
      (hHolds : job.Holds store (download path) text.length text)
      (hPlaced : task.Placed (fun i => sent i ∧ i ≠ j) store) (hSent : ∀ i, sent i → i < k)

/-- A receiving job when the sender is at the `k`th file from `pos` on: nothing of
the file has come yet, or the job has the file up to `pos` or further. -/
inductive Follows (task : Task) (sent : Nat → Prop) (k pos : Nat) (store : Store)
    (job : TransferJob) : Prop where
  | behind (hBehind : job.Behind task sent k store) (hPos : pos = 0)
  | here (kept : Nat) {path : Text} {text : Bytes} (hPath : task.path k = some path)
      (hText : task.text k = some text) (hNum : asUsize job.fileNum = k) (hKept : pos ≤ kept)
      (hHolds : job.Holds store (download path) pos (text.take kept))
      (hPlaced : task.Placed (fun i => sent i ∧ i ≠ k) store) (hSent : ∀ i, sent i → i ≤ k)

section Follows
variable {task : Task} {sent : Nat → Prop} {k pos : Nat} {store : Store} {job : TransferJob}
  {id : Int}

theorem Takes.currentFile (hTakes : job.Takes task id) {j : Nat} {path : Text}
    (hNum : asUsize job.fileNum = j) (hPath : task.path j = some path) :
    ∃ copy, job.currentFile = some copy ∧ path = join task.platform task.target copy.name := by
  obtain ⟨copy, hCopy, rfl⟩ := Option.map_eq_some_iff.mp hPath
  exact ⟨copy, by rw [TransferJob.currentFile, hTakes.files, hNum, hCopy], rfl⟩

/-- Closing a whole file brings it into place. -/
theorem Takes.placed_modifyTime (hTakes : job.Takes task id) (hSound : task.Sound)
    (hPlatform : store.platform = task.platform) {j : Nat} {path : Text} {text : Bytes}
    (hPath : task.path j = some path) (hText : task.text j = some text)
    (hNum : asUsize job.fileNum = j) (hHolds : job.Holds store (download path) text.length text)
    (hPlaced : task.Placed (fun i => sent i ∧ i ≠ j) store) :
    task.Placed sent (job.modifyTime .none store) := by
  intro i other hSent hOther
  obtain ⟨copy, hCurrent, rfl⟩ := hTakes.currentFile hNum hPath
  obtain ⟨hDownload, hDigest⟩ := Task.apart_path hSound hOther hPath
  have hUnfinished := hHolds.content
  rw [← hPlatform] at hDownload hDigest hUnfinished
  rw [Store.content, platform_modifyTime,
    content_modifyTime .none hTakes.type hTakes.dataSource hCurrent store hDigest]
  simp only [hUnfinished, WriteFaults.none, Bool.false_eq_true, reduceCtorEq, or_self, if_false]
  by_cases hHere : store.platform.location other =
      store.platform.location (join store.platform task.target copy.name)
  · rw [if_pos hHere, ← hText]
    rw [hPlatform] at hHere
    exact (hSound.alike i j other _ hOther hPath hHere).symm
  · rw [if_neg hHere, if_neg hDownload]
    refine hPlaced i other ⟨hSent, ?_⟩ hOther
    rintro rfl
    rw [hPath] at hOther
    cases hOther
    exact hHere (by rw [hPlatform])

theorem Wrote.takes {block : FileTransferBlock} {payload : Bytes} {next : TransferJob}
    (hWrote : job.Wrote block payload next) (hTakes : job.Takes task id) : next.Takes task id :=
  ⟨hWrote.id.trans hTakes.id, hWrote.type.trans hTakes.type,
    hWrote.dataSource.trans hTakes.dataSource, hWrote.files.trans hTakes.files⟩

section Write
variable {block : FileTransferBlock} {path : Text}

/-- The first block of a file begins a new stream. -/
theorem Takes.write_first (hTakes : job.Takes task id) (hSound : task.Sound)
    (hPlatform : store.platform = task.platform) (env : Env) (hId : block.id = id)
    (hNum : block.fileNum = k) (hPath : task.path k = some path)
    (hFirst : k ≠ asUsize job.fileNum ∨ job.dataStream = none)
    (hPlaced : task.Placed sent (job.modifyTime .none store)) :
    ∃ after next,
      job.write env .none store block = (.ok (), after, next) ∧ next.Takes task id ∧
      after.platform = task.platform ∧ asUsize next.fileNum = k ∧
      next.Holds after (download path) (block.payload env).length (block.payload env) ∧
      task.Placed sent after := by
  obtain ⟨copy, hCopy, rfl⟩ := Option.map_eq_some_iff.mp hPath
  have hHere : job.files[asUsize block.fileNum]? = some copy := by
    rw [hTakes.files, hNum, asUsize_natCast, hCopy]
  have hNew : asUsize block.fileNum ≠ asUsize job.fileNum ∨ job.dataStream = none := by
    rwa [hNum, asUsize_natCast]
  obtain ⟨after, next, hWrite, hWrote, hAfter, hStreams, hKept⟩ :=
    write_new env WriteFaults.none_quiet store (hId.trans hTakes.id.symm) hTakes.dataSource hHere hNew
  simp only [streamPaths, hTakes.type, hPlatform, Option.some.injEq, forall_eq'] at hStreams hKept
  refine ⟨after, next, hWrite, hWrote.takes hTakes, hAfter.trans hPlatform, ?_, hStreams, ?_⟩
  · rw [hWrote.fileNum, hNum, asUsize_natCast]
  · intro i other hSent hOther
    obtain ⟨hDownload, hDigest⟩ := Task.apart_path hSound hOther hPath
    have hSame := hPlaced i other hSent hOther
    rw [Store.content, platform_modifyTime, hPlatform] at hSame
    rw [Store.content, hAfter, hPlatform, hKept _ hDownload hDigest]
    exact hSame

/-- A block of the current file keeps the receiver in step with the sender. -/
theorem Follows.write (hFollows : job.Follows task sent k pos store) (hTakes : job.Takes task id)
    (hSound : task.Sound) (hPlatform : store.platform = task.platform) (env : Env)
    (hId : block.id = id) (hNum : block.fileNum = k) (hPath : task.path k = some path)
    {text : Bytes} (hText : task.text k = some text) (hPos : pos ≤ text.length) {count : Nat}
    (hPayload : block.payload env = (text.drop pos).take count) :
    ∃ after next,
      job.write env .none store block = (.ok (), after, next) ∧ next.Takes task id ∧
      after.platform = task.platform ∧
      next.Follows task (fun i => sent i ∨ i = k) k (pos + (block.payload env).length) after := by
  have hCount : (block.payload env).length ≤ count := by
    rw [hPayload]
    exact List.length_take_le ..
  -- The files sent so far, with the one the block is of left out.
  have hOthers : ∀ {after : Store}, task.Placed sent after →
      task.Placed (fun i => (sent i ∨ i = k) ∧ i ≠ k) after := by
    rintro after hPlaced i other ⟨hSent | hHere, hOther⟩ hAt
    · exact hPlaced i other hSent hAt
    · exact absurd hHere hOther
  have hNew : ∀ (hFirst : k ≠ asUsize job.fileNum ∨ job.dataStream = none) (hZero : pos = 0)
      (hPlaced : task.Placed sent (job.modifyTime .none store)) (hSent : ∀ i, sent i → i < k),
      ∃ after next,
        job.write env .none store block = (.ok (), after, next) ∧ next.Takes task id ∧
        after.platform = task.platform ∧
        next.Follows task (fun i => sent i ∨ i = k) k (pos + (block.payload env).length) after := by
    rintro hFirst rfl hPlaced hSent
    obtain ⟨after, next, hWrite, hNext, hAfter, hAt, hHolds, hKept⟩ :=
      hTakes.write_first hSound hPlatform env hId hNum hPath hFirst hPlaced
    refine ⟨after, next, hWrite, hNext, hAfter, .here count hPath hText hAt
      (by omega) ?_ (hOthers hKept) ?_⟩
    · rw [List.drop_zero] at hPayload
      rw [← hPayload, Nat.zero_add]
      exact hHolds
    · rintro i (hOld | rfl)
      · exact Nat.le_of_lt (hSent i hOld)
      · exact Nat.le_refl _
  cases hFollows with
  | behind hBehind hZero =>
      cases hBehind with
      | fresh hNone hAt hStream hLeft =>
          exact hNew (Or.inr hStream) hZero (fun i other hSent _ => absurd hSent (hNone i))
            (fun i hSent => absurd hSent (hNone i))
      | whole hBefore hPrior hWhole hAt hHolds hPlaced hSent =>
          refine hNew (Or.inl ?_) hZero
            (hTakes.placed_modifyTime hSound hPlatform hPrior hWhole hAt hHolds hPlaced) hSent
          rw [hAt]
          exact Nat.ne_of_gt hBefore
  | here kept hSamePath hSameText hAt hKept hHolds hPlaced hSent =>
      rw [hPath] at hSamePath
      cases hSamePath
      rw [hText] at hSameText
      cases hSameText
      obtain ⟨copy, hCopy, rfl⟩ := Option.map_eq_some_iff.mp hPath
      have hHere : job.files[asUsize block.fileNum]? = some copy := by
        rw [hTakes.files, hNum, asUsize_natCast, hCopy]
      have hSame : asUsize job.fileNum = asUsize block.fileNum := by
        rw [hAt, hNum, asUsize_natCast]
      have hOpen : job.dataStream ≠ none := by
        obtain ⟨node, hStream, -⟩ := hHolds
        simp [hStream]
      obtain ⟨after, next, hWrite, hWrote, hAfter, hNext, hRest⟩ :=
        writeBlock_holds env WriteFaults.none_quiet block hHolds hSame
      rw [← write_of_open env .none (hId.trans hTakes.id.symm) hTakes.dataSource hHere hSame hOpen]
        at hWrite
      rw [hPayload, Storage.overwrite_take 0 _ hPos hKept, ← hPayload] at hNext
      refine ⟨after, next, hWrite, hWrote.takes hTakes, hAfter.trans hPlatform,
        .here _ hPath hText ?_ ?_ hNext ?_ ?_⟩
      · rw [hWrote.fileNum, hNum, asUsize_natCast]
      · omega
      · rintro i other ⟨hOld | hNow, hOther⟩ hElse
        · rw [Store.content, hAfter, hRest _ ?_]
          · exact hPlaced i other ⟨hOld, hOther⟩ hElse
          · rw [hPlatform]
            exact (Task.apart_path hSound hElse hPath).1
        · exact absurd hNow hOther
      · rintro i (hOld | rfl)
        · exact hSent i hOld
        · exact Nat.le_refl _

end Write

/-- A job that has got all of the file has it whole. -/
theorem Follows.whole (hFollows : job.Follows task sent k pos store) (hSent : sent k)
    {path : Text} {text : Bytes} (hPath : task.path k = some path)
    (hText : task.text k = some text) (hPos : pos = text.length) :
    job.Behind task sent (k + 1) store := by
  cases hFollows with
  | behind hBehind hZero =>
      cases hBehind with
      | fresh hNone => exact absurd hSent (hNone k)
      | whole hBefore hPrior hWhole hAt hHolds hPlaced hEarlier =>
          exact absurd (hEarlier k hSent) (Nat.lt_irrefl k)
  | here kept hSamePath hSameText hAt hKept hHolds hPlaced hEarlier =>
      rw [hPath] at hSamePath
      cases hSamePath
      rw [hText] at hSameText
      cases hSameText
      rw [hPos] at hKept
      rw [hPos, List.take_of_length_le hKept] at hHolds
      exact .whole (Nat.lt_succ_self k) hPath hText hAt hHolds hPlaced
        fun i hOld => Nat.lt_succ_of_le (hEarlier i hOld)

section Answer
variable {next : TransferJob}

theorem Behind.congr (hBehind : job.Behind task sent k store) (hNum : next.fileNum = job.fileNum)
    (hStream : next.dataStream = job.dataStream) : next.Behind task sent k store := by
  cases hBehind with
  | fresh hNone hAt hOpen hLeft => exact .fresh hNone (hNum.trans hAt) (hStream.trans hOpen) hLeft
  | whole hBefore hPath hText hAt hHolds hPlaced hSent =>
      refine .whole hBefore hPath hText (by rw [hNum, hAt]) ?_ hPlaced hSent
      obtain ⟨node, hOpen, hNode⟩ := hHolds
      exact ⟨node, hStream.trans hOpen, hNode⟩

theorem SameWork.takes (hSame : job.SameWork next) (hTakes : job.Takes task id) :
    next.Takes task id :=
  ⟨hSame.id.trans hTakes.id, hSame.type.trans hTakes.type,
    hSame.dataSource.trans hTakes.dataSource, hSame.files.trans hTakes.files⟩

/-- The receiver goes past a skipped file with the sender, or stays where it is. -/
theorem Behind.skip (hBehind : job.Behind task sent k store) (id' : Int) :
    (job.confirmed store .none
      { id := id', fileNum := k, union := some (.skip true) }).Behind task sent (k + 1) store := by
  cases hBehind with
  | fresh hNone hAt hOpen hLeft =>
      rw [confirmed_skips hAt]
      refine .fresh hNone ?_ rfl hLeft
      simp [setFileSkipped, setFileConfirmed, setFileIsWaiting, hAt]
  | whole hBefore hPath hText hAt hHolds hPlaced hSent =>
      rw [confirmed_of_ne]
      · exact .whole (Nat.lt_succ_of_lt hBefore) hPath hText hAt hHolds hPlaced
          fun i hOld => Nat.lt_succ_of_lt (hSent i hOld)
      · intro hSame
        rw [hSame, asUsize_natCast] at hAt
        omega

/-- To receive a file from its start changes nothing. -/
theorem Behind.start (hBehind : job.Behind task sent k store) (id' : Int) :
    (job.confirmed store .none
      { id := id', fileNum := k, union := some (.offsetBlk 0) }).Behind task sent k store := by
  by_cases hAt : job.fileNum = k
  · rw [confirmed_starts hAt]
    exact hBehind.congr rfl rfl
  · rw [confirmed_of_ne hAt]
    exact hBehind

/-- A job that is at the file goes on where the unfinished file says. -/
theorem Behind.resume (hBehind : job.Behind task sent k store) (hTakes : job.Takes task id)
    (hPlatform : store.platform = task.platform) (id' : Int) (hAt : job.fileNum = k) {path : Text}
    {text data : Bytes} (hPath : task.path k = some path) (hText : task.text k = some text)
    (hData : Unfinished store path data) {offset : Nat} (hOffset : 0 < offset)
    (hShort : offset ≤ data.length) :
    offset ≤ text.length ∧
      (job.confirmed store .none
        { id := id', fileNum := k, union := some (.offsetBlk offset) }).Follows task sent k offset
          store := by
  cases hBehind with
  | whole hBefore hPrior hWhole hNum hHolds hPlaced hSent =>
      rw [hAt, asUsize_natCast] at hNum
      omega
  | fresh hNone hNum hOpen hLeft =>
      obtain ⟨rest, hRest⟩ := hLeft k path data text hPath hText hData
      have hLength := congrArg List.length hRest
      rw [List.length_append] at hLength
      refine ⟨by omega, ?_⟩
      obtain ⟨copy, hCopy, rfl⟩ := Option.map_eq_some_iff.mp hPath
      obtain ⟨node, hFound, hNode⟩ : ∃ node,
          store.disk.node (store.platform.location
            (download (join task.platform task.target copy.name))) = some node ∧
          (store.disk.file node).content = data := by
        simpa [Store.content, Storage.Disk.content, Storage.Disk.lookup] using hData.1
      have hHandle : offsetHandle store (join task.platform task.target copy.name) offset =
          some { node := node, pos := offset, writable := true } := by
        unfold offsetHandle
        rw [if_pos ((pair_iff store _).mpr ⟨data, hData⟩)]
        simp [hFound]
      rw [confirmed_seeks hAt hTakes.dataSource (by rw [hTakes.files, hCopy]) hOffset
        (by rw [hPlatform, hHandle])]
      refine .here data.length hPath hText ?_ hShort ⟨node, rfl, hFound, ?_⟩ ?_ ?_
      · show asUsize job.fileNum = k
        rw [hAt, asUsize_natCast]
      · rw [hNode, ← hRest, List.take_left]
      · exact fun i other hSent => absurd hSent.1 (hNone i)
      · exact fun i hSent => absurd hSent (hNone i)

end Answer

end Follows

end TransferJob

end HibtDesk.FileTransfer
