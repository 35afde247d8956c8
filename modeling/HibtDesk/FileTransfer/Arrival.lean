import HibtDesk.FileTransfer.Replacement

/-! A receiving job that gets the files of a source one after another: those it
is done with are in place, with the content they have at the source. -/
namespace HibtDesk.FileTransfer

open Lexical (Text Platform)
open Receiving (destination Apart)

/-- Entries that lead to one place are copies of one content. -/
def Agree (source : Store) (base : Text) (platform : Platform) (target : Text)
    (files : List FileEntry) : Prop :=
  ∀ entry ∈ files, ∀ other ∈ files,
    destination platform target entry = destination platform target other →
      source.content (TransferJob.join source.platform base entry.name) =
        source.content (TransferJob.join source.platform base other.name)

/-- The files from the `first` up to the `last` are in place. -/
def Settled (source : Store) (base target : Text) (files : List FileEntry) (first last : Nat)
    (store : Store) : Prop :=
  ∀ k entry, first ≤ k → k < last → files[k]? = some entry →
    store.disk.content (destination store.platform target entry) =
      source.content (TransferJob.join source.platform base entry.name)

namespace TransferJob

/-- A job that receives `files`, has brought the files from the `first` up to the
`k`th into place, and streams the `k`th, of which it has `data`. -/
structure Receives (job : TransferJob) (source : Store) (base target : Text)
    (files : List FileEntry) (first k : Nat) (data : Bytes) (store : Store) : Prop where
  type : job.type = .generic
  dataSource : job.dataSource = .filePath target
  list : job.files = files
  settled : Settled source base target files first k store
  stream : ∃ entry, files[k]? = some entry ∧ asUsize job.fileNum = k ∧
    job.Streams store (download (join store.platform target entry.name)) data

/-- The job has the whole of its file. -/
def Whole (source : Store) (base : Text) (files : List FileEntry) (k : Nat) (data : Bytes) : Prop :=
  ∀ entry, files[k]? = some entry →
    source.content (join source.platform base entry.name) = some data

section Receives
variable {job : TransferJob} {source : Store} {base target : Text} {files : List FileEntry}
  {first k : Nat} {data : Bytes} {store : Store}

/-- Closing a whole file brings it into place. -/
theorem Receives.settled_modifyTime
    (hReceives : job.Receives source base target files first k data store)
    (hApart : Apart store.platform target files)
    (hAgree : Agree source base store.platform target files)
    (hWhole : Whole source base files k data) :
    Settled source base target files first (k + 1) (job.modifyTime .none store) := by
  intro i found hFirst hLast hFound
  obtain ⟨entry, hEntry, hNum, hStreams⟩ := hReceives.stream
  have hCurrent : job.currentFile = some entry := by
    rw [currentFile, hReceives.list, hNum, hEntry]
  obtain ⟨hDownload, hDigest⟩ :=
    hApart found (List.mem_of_getElem? hFound) entry (List.mem_of_getElem? hEntry)
  rw [platform_modifyTime,
    content_modifyTime .none hReceives.type hReceives.dataSource hCurrent store hDigest]
  simp only [hStreams.content, WriteFaults.none, Bool.false_eq_true, reduceCtorEq, or_self, if_false]
  by_cases hHere : destination store.platform target found = destination store.platform target entry
  · rw [hAgree found (List.mem_of_getElem? hFound) entry (List.mem_of_getElem? hEntry) hHere,
      hWhole entry hEntry]
    exact if_pos hHere
  · have hBefore : i < k := by
      rcases Nat.lt_or_eq_of_le (Nat.lt_succ_iff.mp hLast) with hLess | rfl
      · exact hLess
      · rw [hEntry] at hFound
        cases hFound
        exact absurd rfl hHere
    rw [← hReceives.settled i found hFirst hBefore hFound]
    exact (if_neg hHere).trans (if_neg hDownload)

/-- The job is ready for a block of the `k`th file, of which it has `data`:
nothing has come yet, the file before is whole, or the job is at the file. -/
def Ready (job : TransferJob) (source : Store) (base target : Text) (files : List FileEntry)
    (first k : Nat) (data : Bytes) (store : Store) : Prop :=
  (k = first ∧ data = [] ∧ job.type = .generic ∧ job.dataSource = .filePath target ∧
    job.files = files ∧ job.dataStream = none) ∨
  (∃ j whole, j + 1 = k ∧ first ≤ j ∧ data = [] ∧ Whole source base files j whole ∧
    job.Receives source base target files first j whole store) ∨
  job.Receives source base target files first k data store

/-- A block of the file is added to it. -/
theorem Ready.write (hReady : job.Ready source base target files first k data store)
    (hApart : Apart store.platform target files)
    (hAgree : Agree source base store.platform target files) (env : Env)
    {block : FileTransferBlock} (hId : block.id = job.id) (hNum : block.fileNum = k)
    {entry : FileEntry} (hEntry : files[k]? = some entry) :
    ∃ after next,
      job.write env .none store block = (.ok (), after, next) ∧ next.id = job.id ∧
      after.platform = store.platform ∧
      next.Receives source base target files first k (data ++ block.payload env) after := by
  have hMember := List.mem_of_getElem? hEntry
  -- What a block for a new file does, once the files before it are settled.
  have hNew : ∀ (hType : job.type = .generic) (hSource : job.dataSource = .filePath target)
      (hFiles : job.files = files)
      (hFresh : asUsize block.fileNum ≠ asUsize job.fileNum ∨ job.dataStream = none)
      (hSettled : Settled source base target files first k (job.modifyTime .none store)),
      ∃ after next,
        job.write env .none store block = (.ok (), after, next) ∧ next.id = job.id ∧
        after.platform = store.platform ∧
        next.Receives source base target files first k (block.payload env) after := by
    intro hType hSource hFiles hFresh hSettled
    have hHere : job.files[asUsize block.fileNum]? = some entry := by
      rw [hFiles, hNum, asUsize_natCast, hEntry]
    obtain ⟨after, next, hWrite, hWrote, hPlatform, hStreams, hKept⟩ :=
      write_new env WriteFaults.none_quiet store hId hSource hHere hFresh
    simp only [streamPaths, hType, Option.some.injEq, forall_eq'] at hStreams hKept
    refine ⟨after, next, hWrite, hWrote.id, hPlatform, hWrote.type.trans hType,
      hWrote.dataSource.trans hSource, hWrote.files.trans hFiles, ?_, entry, hEntry, ?_, ?_⟩
    · intro i found hFirst hLast hFound
      obtain ⟨hDownload, hDigest⟩ := hApart found (List.mem_of_getElem? hFound) entry hMember
      rw [hPlatform, hKept _ hDownload hDigest]
      have hPlace := hSettled i found hFirst hLast hFound
      rwa [platform_modifyTime] at hPlace
    · rw [hWrote.fileNum, hNum, asUsize_natCast]
    · rw [hPlatform]
      exact hStreams
  rcases hReady with ⟨rfl, rfl, hType, hSource, hFiles, hNone⟩ |
    ⟨j, whole, rfl, hFirst, rfl, hWhole, hReceives⟩ | hReceives
  · exact hNew hType hSource hFiles (Or.inr hNone)
      (fun i found hLow hHigh _ => absurd hHigh (by omega))
  · obtain ⟨-, -, hAt, -⟩ := hReceives.stream
    refine hNew hReceives.type hReceives.dataSource hReceives.list (Or.inl ?_)
      (hReceives.settled_modifyTime hApart hAgree hWhole)
    rw [hNum, asUsize_natCast, hAt]
    omega
  · obtain ⟨found, hFound, hAt, hStreams⟩ := hReceives.stream
    obtain rfl : entry = found := by
      rw [hEntry] at hFound
      exact Option.some.inj hFound
    have hHere : job.files[asUsize block.fileNum]? = some entry := by
      rw [hReceives.list, hNum, asUsize_natCast, hEntry]
    have hSame : asUsize job.fileNum = asUsize block.fileNum := by
      rw [hAt, hNum, asUsize_natCast]
    obtain ⟨after, next, hWrite, hWrote, hPlatform, hNext, hKept⟩ :=
      write_same env WriteFaults.none_quiet hId hReceives.dataSource hHere hSame hStreams
    refine ⟨after, next, hWrite, hWrote.id, hPlatform, hWrote.type.trans hReceives.type,
      hWrote.dataSource.trans hReceives.dataSource, hWrote.files.trans hReceives.list, ?_,
      entry, hEntry, ?_, ?_⟩
    · intro i other hFirst hLast hOther
      rw [hPlatform, hKept _ (hApart other (List.mem_of_getElem? hOther) entry hMember).1]
      exact hReceives.settled i other hFirst hLast hOther
    · rw [hWrote.fileNum, hNum, asUsize_natCast]
    · rw [hPlatform]
      exact hNext

end Receives

end TransferJob

end HibtDesk.FileTransfer
