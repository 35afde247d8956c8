import HibtDesk.Clipboard.PasteTask

/-! Which paths a task touches. What holds of the file system stays true through a run if
every operation on a path that the task may come up with keeps it. -/
namespace HibtDesk.Clipboard

open Lexical (Text)
open Lexical.Unix (parent)

/-- A path that is made a directory, or is written, renamed or removed. -/
inductive Touch where
  | dir (path : Text)
  | file (path : Text)
  deriving DecidableEq, Repr

section Ops
variable {W H : Type}

/-- Operations on the allowed paths keep a property of the file system. -/
structure FileOps.Keeps (ops : FileOps W H) (allowed : Touch → Prop) (keep : W → Prop) : Prop where
  createDirAll : ∀ w path, allowed (.dir path) → keep w → keep (ops.createDirAll w path).1
  create : ∀ w path, allowed (.file path) → keep w → keep (ops.create w path).1
  write : ∀ w file data, keep w → keep (ops.write w file data).1
  flush : ∀ w file, keep w → keep (ops.flush w file)
  close : ∀ w file, keep w → keep (ops.close w file)
  rename : ∀ w source target, allowed (.file source) → allowed (.file target) → keep w →
    keep (ops.rename w source target)
  remove : ∀ w path, allowed (.file path) → keep w → keep (ops.remove w path)

/-- The same operations with a record of the paths they touch. -/
def FileOps.logged (ops : FileOps W H) : FileOps (W × List Touch) H where
  isThere w path := ops.isThere w.1 path
  createDirAll w path :=
    let (fs, err) := ops.createDirAll w.1 path
    ((fs, w.2 ++ [.dir path]), err)
  create w path :=
    let (fs, file) := ops.create w.1 path
    ((fs, w.2 ++ [.file path]), file)
  write w file data :=
    let (fs, count) := ops.write w.1 file data
    ((fs, w.2), count)
  flush w file := (ops.flush w.1 file, w.2)
  close w file := (ops.close w.1 file, w.2)
  rename w source target := (ops.rename w.1 source target, w.2 ++ [.file source, .file target])
  remove w path := (ops.remove w.1 path, w.2 ++ [.file path])

/-- Every touched path was an allowed one. -/
theorem FileOps.logged_allowed (ops : FileOps W H) (allowed : Touch → Prop) :
    ops.logged.Keeps allowed fun w => ∀ touch ∈ w.2, allowed touch where
  createDirAll w path hPath hKeep := by simpa [logged, or_imp, forall_and, hPath] using hKeep
  create w path hPath hKeep := by simpa [logged, or_imp, forall_and, hPath] using hKeep
  write w file data hKeep := hKeep
  flush w file hKeep := hKeep
  close w file hKeep := hKeep
  rename w source target hSource hTarget hKeep := by
    simpa [logged, or_imp, forall_and, hSource, hTarget] using hKeep
  remove w path hPath hKeep := by simpa [logged, or_imp, forall_and, hPath] using hKeep

end Ops

namespace PasteTask

/-- The files a task comes to. From 2^31 on the count is negative, and there are none. -/
def reached (files : List FileDescription) : List FileDescription :=
  files.take (fileCount files).toNat

/-- What the task may touch for its files is allowed. -/
structure Allows (allowed : Touch → Prop) (targetDir : Text) (files : List FileDescription) :
    Prop where
  nothing : allowed (.file [])
  directory : ∀ desc ∈ reached files, desc.kind = .directory →
    allowed (.dir (Lexical.Platform.unix.join targetDir desc.name))
  final : ∀ desc ∈ reached files, desc.kind = .file → ∀ isThere path,
    getNewFilename isThere targetDir desc = some path → allowed (.file path)
  download : ∀ desc ∈ reached files, desc.kind = .file → ∀ isThere path,
    getFirstFilename isThere (download (Lexical.Platform.unix.join targetDir desc.name)) .file =
      some path → allowed (.file path)
  parent : ∀ desc ∈ reached files, desc.kind = .file → ∀ isThere path above,
    getFirstFilename isThere (PasteTask.download (Lexical.Platform.unix.join targetDir desc.name))
      .file = some path → parent path = some above → allowed (.dir above)

theorem fileCount_le (files : List FileDescription) : (fileCount files).toNat ≤ files.length := by
  have hLe := Nat.mod_le files.length (2 ^ 32)
  unfold fileCount
  rw [BitVec.toInt_eq_toNat_cond, BitVec.toNat_ofNat]
  split <;> omega

theorem length_reached (files : List FileDescription) :
    (reached files).length = (fileCount files).toNat := by
  rw [reached, List.length_take, Nat.min_eq_left (fileCount_le files)]

namespace Handle
variable {W H : Type} {handle : Handle H}

theorem remaining_eq :
    handle.remaining = (reached handle.files).zipIdx.drop (handle.progress.listIndex + 1).toNat := by
  unfold remaining reached
  congr 1
  refine List.ext_getElem? fun i => ?_
  by_cases hLt : i < (fileCount handle.files).toNat
  · simp [hLt]
  · simp [hLt]

theorem mem_remaining {desc : FileDescription} {i : Nat} (hMem : (desc, i) ∈ handle.remaining) :
    (reached handle.files)[i]? = some desc := by
  rw [remaining_eq] at hMem
  exact List.mem_zipIdx_iff_getElem?.mp (List.mem_of_mem_drop hMem)

theorem file_of_reached {i : Nat} {desc : FileDescription}
    (hFile : (reached handle.files)[i]? = some desc) : handle.file i = some desc := by
  unfold file
  rw [if_neg (by omega)]
  unfold reached at hFile
  rw [List.getElem?_take] at hFile
  split at hFile
  · exact hFile
  · cases hFile

variable {allowed : Touch → Prop} {keep : W → Prop} {targetDir : Text}
  {files : List FileDescription} {ops : FileOps W H} {w : W}

/-- The handle works on these files, and holds nothing but a file of theirs. -/
structure Holds (allowed : Touch → Prop) (targetDir : Text) (files : List FileDescription)
    (handle : Handle H) : Prop where
  sameDir : handle.targetDir = targetDir
  sameFiles : handle.files = files
  path : allowed (.file handle.progress.downloadFilePath)
  file : ∀ desc, handle.file handle.progress.downloadFileIndex = some desc →
    desc ∈ reached files ∧ desc.kind = .file

/-- What keeps a property of the file system and a handle that works on the files. -/
abbrev Kept (allowed : Touch → Prop) (keep : W → Prop) (targetDir : Text)
    (files : List FileDescription) (w : W) (handle : Handle H) : Prop :=
  keep w ∧ handle.Holds allowed targetDir files

section Keeps
variable (hOps : ops.Keeps allowed keep) (hAllows : Allows allowed targetDir files)
include hOps

theorem keep_closeFile (hKeep : keep w) : keep (handle.closeFile ops w) := by
  unfold closeFile
  split
  · exact hOps.close _ _ hKeep
  · exact hKeep

theorem keep_writeAll (file : H) (fuel : Nat) (w : W) (data : Bytes) (hKeep : keep w) :
    keep (writeAll ops file fuel w data).1 := by
  induction fuel generalizing w data with
  | zero => exact hKeep
  | succ fuel ih =>
      unfold writeAll
      split
      · exact hKeep
      · have hWrite := hOps.write w file data hKeep
        split
        · rename_i more hWritten
          rw [hWritten] at hWrite
          exact ih _ _ hWrite
        · rename_i err hWritten
          rw [hWritten] at hWrite
          exact hWrite

theorem kept_onCancelled (hKept : handle.Kept allowed keep targetDir files w) :
    Kept allowed keep targetDir files (handle.onCancelled ops w).1 (handle.onCancelled ops w).2 :=
  ⟨hOps.remove _ _ hKept.2.path (keep_closeFile hOps hKept.1), ⟨hKept.2.sameDir, hKept.2.sameFiles,
    hKept.2.path, hKept.2.file⟩⟩

theorem kept_onError (hKept : handle.Kept allowed keep targetDir files w) (error : CliprdrError) :
    Kept allowed keep targetDir files (handle.onError ops w error).1
      (handle.onError ops w error).2 :=
  kept_onCancelled hOps ⟨hKept.1, hKept.2.sameDir, hKept.2.sameFiles, hKept.2.path, hKept.2.file⟩

include hAllows

theorem kept_onDone (hKept : handle.Kept allowed keep targetDir files w) :
    Kept allowed keep targetDir files (handle.onDone ops w).1 (handle.onDone ops w).2 := by
  obtain ⟨hKeep, hTarget, hFiles, hPath, hFile⟩ := hKept
  unfold onDone
  cases hHandle : handle.progress.fileHandle with
  | none => exact ⟨hKeep, hTarget, hFiles, hPath, hFile⟩
  | some file =>
      have hClosed := hOps.close _ file (hOps.flush w file hKeep)
      dsimp only
      split
      · exact ⟨hKeep, hTarget, hFiles, hPath, hFile⟩
      · cases hDesc : handle.file handle.progress.downloadFileIndex with
        | none => exact ⟨hClosed, hTarget, hFiles, hPath, hFile⟩
        | some desc =>
            obtain ⟨hReached, hKind⟩ := hFile desc hDesc
            dsimp only
            split
            · exact ⟨hClosed, hTarget, hFiles, hPath, hFile⟩
            · rename_i renameTo hNew
              rw [hTarget] at hNew
              refine ⟨hOps.rename _ _ _ hPath (hAllows.final desc hReached hKind _ _ hNew) hClosed,
                hTarget, hFiles, hAllows.nothing, ?_⟩
              intro desc hNone
              cases hNone

theorem kept_onFinished (hKept : handle.Kept allowed keep targetDir files w) :
    Kept allowed keep targetDir files (handle.onFinished ops w).1 (handle.onFinished ops w).2 := by
  have hEnded : Kept allowed keep targetDir files
      (if handle.progress.error.isSome then handle.onCancelled ops w else handle.onDone ops w).1
      (if handle.progress.error.isSome then handle.onCancelled ops w else handle.onDone ops w).2 := by
    split
    · exact kept_onCancelled hOps hKept
    · exact kept_onDone hOps hAllows hKept
  unfold onFinished
  generalize (if handle.progress.error.isSome then handle.onCancelled ops w
    else handle.onDone ops w) = result at hEnded ⊢
  dsimp only
  split
  · exact ⟨hEnded.1, hEnded.2.sameDir, hEnded.2.sameFiles, hEnded.2.path, hEnded.2.file⟩
  · exact hEnded

theorem kept_openNewWriter {desc : FileDescription} (hDesc : handle.file handle.progress.listIndex = some desc)
    (hReached : desc ∈ reached files) (hKind : desc.kind = .file)
    (hKept : handle.Kept allowed keep targetDir files w) :
    Kept allowed keep targetDir files (handle.openNewWriter ops w).1
      (handle.openNewWriter ops w).2.1 := by
  obtain ⟨hKeep, hTarget, hFiles, hPath, hFile⟩ := hKept
  unfold openNewWriter
  rw [hDesc, hTarget]
  dsimp only
  rw [hKind]
  split
  · exact ⟨hKeep, hTarget, hFiles, hPath, hFile⟩
  · rename_i path hFirst
    have hDownload := hAllows.download desc hReached hKind _ _ hFirst
    split
    · exact ⟨hKeep, hTarget, hFiles, hPath, hFile⟩
    · rename_i above hParent
      have hAbove := hAllows.parent desc hReached hKind _ _ _ hFirst hParent
      have hMade : keep (if ops.isThere w above then (w, none) else ops.createDirAll w above).1 := by
        split
        · exact hKeep
        · exact hOps.createDirAll _ _ hAbove hKeep
      generalize (if ops.isThere w above then (w, none) else ops.createDirAll w above) = made at hMade ⊢
      split
      · exact ⟨hMade, hTarget, hFiles, hPath, hFile⟩
      · have hCreated := hOps.create made.1 path hDownload hMade
        split
        · rename_i err hCreate
          rw [hCreate] at hCreated
          exact ⟨hCreated, rfl, hFiles, hPath, hFile⟩
        · rename_i file hCreate
          rw [hCreate] at hCreated
          refine ⟨keep_closeFile hOps hCreated, rfl, hFiles, hDownload, ?_⟩
          intro found hFound
          obtain rfl := Option.some.inj (hDesc.symm.trans hFound)
          exact ⟨hReached, hKind⟩

theorem keep_createEmpty {desc : FileDescription} (hReached : desc ∈ reached files)
    (hKind : desc.kind = .file) (hTarget : handle.targetDir = targetDir) (hKeep : keep w) :
    keep (handle.createEmpty ops w desc) := by
  unfold createEmpty
  rw [hTarget]
  split
  · exact hKeep
  · rename_i path hNew
    have hCreated := hOps.create w path (hAllows.final desc hReached hKind _ _ hNew) hKeep
    split
    · rename_i file hCreate
      rw [hCreate] at hCreated
      exact hOps.close _ _ hCreated
    · rename_i err hCreate
      rw [hCreate] at hCreated
      exact hCreated

theorem kept_advance (rest : List (FileDescription × Nat))
    (hRest : ∀ desc i, (desc, i) ∈ rest → (reached files)[i]? = some desc)
    (hKept : handle.Kept allowed keep targetDir files w) :
    Kept allowed keep targetDir files (advance ops rest w handle).1
      (advance ops rest w handle).2.1 := by
  induction rest generalizing w with
  | nil => exact hKept
  | cons entry rest ih =>
      obtain ⟨desc, i⟩ := entry
      have hDesc := hRest desc i List.mem_cons_self
      have hReached := List.mem_of_getElem? hDesc
      have hLater : ∀ desc i, (desc, i) ∈ rest → (reached files)[i]? = some desc :=
        fun desc i hMem => hRest desc i (List.mem_cons_of_mem _ hMem)
      unfold advance
      cases hKind : desc.kind with
      | file =>
          dsimp only
          split
          · exact ih hLater ⟨keep_createEmpty hOps hAllows hReached hKind hKept.2.sameDir hKept.1,
              hKept.2⟩
          · refine kept_openNewWriter hOps hAllows ?_ hReached hKind
              ⟨hKept.1, hKept.2.sameDir, hKept.2.sameFiles, hKept.2.path, hKept.2.file⟩
            refine file_of_reached ?_
            rw [hKept.2.sameFiles]
            exact hDesc
      | directory =>
          refine ih hLater ⟨?_, hKept.2⟩
          split
          · exact hKept.1
          · have hAllowed := hAllows.directory desc hReached hKind
            rw [← hKept.2.sameDir] at hAllowed
            exact hOps.createDirAll _ _ hAllowed hKept.1
      | symlink => exact ih hLater hKept

theorem kept_updateNext (size : Nat) (hKept : handle.Kept allowed keep targetDir files w) :
    Kept allowed keep targetDir files (handle.updateNext ops w size).1
      (handle.updateNext ops w size).2.1 := by
  have hAdvance : ∀ (w : W) (handle : Handle H), handle.Kept allowed keep targetDir files w →
      Kept allowed keep targetDir files (advance ops handle.remaining w handle).1
        (advance ops handle.remaining w handle).2.1 := by
    intro w handle hKept
    refine kept_advance hOps hAllows _ ?_ hKept
    intro desc i hMem
    rw [← hKept.2.sameFiles]
    exact mem_remaining hMem
  have hStep : ∀ handle : Handle H, handle.Kept allowed keep targetDir files w →
      Kept allowed keep targetDir files (handle.stepOn ops w size).1
        (handle.stepOn ops w size).2.1 := by
    intro handle hKept
    unfold stepOn
    dsimp only
    split
    · exact hAdvance w handle hKept
    · split
      · exact hAdvance _ _ (kept_onDone hOps hAllows hKept)
      · exact ⟨hKept.1, hKept.2.sameDir, hKept.2.sameFiles, hKept.2.path, hKept.2.file⟩
  have hMark : ∀ (w : W) (handle : Handle H), handle.Kept allowed keep targetDir files w →
      handle.markEnd.Kept allowed keep targetDir files w := by
    intro w handle hKept
    unfold markEnd
    split
    · exact ⟨hKept.1, hKept.2.sameDir, hKept.2.sameFiles, hKept.2.path, hKept.2.file⟩
    · exact hKept
  unfold updateNext
  split
  · exact hKept
  · have hNext := hStep
      { handle with
        progress :=
          { handle.progress with currentSize := (handle.progress.currentSize + size) % 2 ^ 64 } }
      ⟨hKept.1, hKept.2.sameDir, hKept.2.sameFiles, hKept.2.path, hKept.2.file⟩
    dsimp only
    split
    · rename_i hResult
      rw [hResult] at hNext
      exact hMark _ _ hNext
    · rename_i hResult
      rw [hResult] at hNext
      exact hNext

theorem kept_handleFileContentsResponse (data : Bytes)
    (hKept : handle.Kept allowed keep targetDir files w) :
    Kept allowed keep targetDir files (handle.handleFileContentsResponse ops w data).1
      (handle.handleFileContentsResponse ops w data).2.1 := by
  unfold handleFileContentsResponse
  split
  · exact hKept
  · rename_i file hFile
    have hWritten := keep_writeAll hOps file data.length w data hKept.1
    split
    · rename_i hResult
      rw [hResult] at hWritten
      exact ⟨hWritten, hKept.2⟩
    · rename_i hResult
      rw [hResult] at hWritten
      exact kept_updateNext hOps hAllows data.length ⟨hWritten, hKept.2⟩

end Keeps

end Handle

section Run
variable {W H : Type} {allowed : Touch → Prop} {keep : W → Prop} {targetDir : Text}
  {files : List FileDescription} {ops : FileOps W H} {w : W} {task : PasteTask (Handle H)}

/-- The property of the file system holds, and the task works on the files if it works. -/
structure Kept (allowed : Touch → Prop) (keep : W → Prop) (targetDir : Text)
    (files : List FileDescription) (s : W × PasteTask (Handle H)) : Prop where
  keep : keep s.1
  handle : ∀ handle, s.2.handle = some handle → handle.Holds allowed targetDir files

variable (hOps : ops.Keeps allowed keep) (hAllows : Allows allowed targetDir files)
include hOps

theorem kept_sendFileContentsRequest {handle : Handle H}
    (hKept : handle.Kept allowed keep targetDir files w) :
    Handle.Kept allowed keep targetDir files (handle.sendFileContentsRequest ops w).1
      (handle.sendFileContentsRequest ops w).2.1 := by
  unfold Handle.sendFileContentsRequest
  split
  · exact hKept
  · exact Handle.kept_onError hOps hKept _

include hAllows

theorem kept_start (hFinished : task.isFinished = true) (hKeep : keep w) :
    Kept allowed keep targetDir files ((start ops w task targetDir files).1,
      (start ops w task targetDir files).2.1) := by
  have hInitial : (Handle.initial targetDir files : Handle H).Kept allowed keep targetDir files w := by
    refine ⟨hKeep, rfl, rfl, hAllows.nothing, ?_⟩
    intro desc hNone
    cases hNone
  have hFirst := Handle.kept_updateNext hOps hAllows 0 hInitial
  unfold start
  rw [hFinished, Bool.not_true, if_neg Bool.false_ne_true]
  dsimp only
  split
  · have hEnd := Handle.kept_onFinished hOps hAllows hFirst
    exact ⟨hEnd.1, fun _ hHandle => Option.some.inj hHandle ▸ hEnd.2⟩
  · have hSent := kept_sendFileContentsRequest hOps hFirst
    exact ⟨hSent.1, fun _ hHandle => Option.some.inj hHandle ▸ hSent.2⟩

theorem kept_settle {handle : Handle H} (hKept : handle.Kept allowed keep targetDir files w) :
    Kept allowed keep targetDir files ((settle ops w task handle).1,
      (settle ops w task handle).2.1) := by
  unfold settle
  split
  · have hSent := kept_sendFileContentsRequest hOps hKept
    exact ⟨hSent.1, fun _ hHandle => Option.some.inj hHandle ▸ hSent.2⟩
  · have hEnd := Handle.kept_onFinished hOps hAllows hKept
    exact ⟨hEnd.1, fun _ hHandle => Option.some.inj hHandle ▸ hEnd.2⟩

theorem kept_step {s : W × PasteTask (Handle H)} (hKept : Kept allowed keep targetDir files s)
    (event : Event) : Kept allowed keep targetDir files (step ops s event) := by
  obtain ⟨w, task⟩ := s
  cases hHandle : task.handle with
  | none =>
      have hIdle : step ops (w, task) event = (w, task) := by
        cases event <;> simp [step, onResponse, onTimeout, cancel, hHandle]
      rw [hIdle]
      exact hKept
  | some handle =>
      have hHandled : handle.Kept allowed keep targetDir files w :=
        ⟨hKept.keep, hKept.handle handle hHandle⟩
      cases event with
      | response response =>
          unfold step onResponse
          rw [hHandle]
          dsimp only
          split
          · exact hKept
          · split
            · exact hKept
            · split
              · split
                · exact kept_settle hOps hAllows ⟨hHandled.1, hHandled.2.sameDir,
                    hHandled.2.sameFiles, hHandled.2.path, hHandled.2.file⟩
                · exact kept_settle hOps hAllows hHandled
              · split
                · exact hKept
                · split
                  · exact hKept
                  · have hRead := Handle.kept_handleFileContentsResponse hOps hAllows
                      response.requestedData hHandled
                    split
                    · rename_i hResult
                      rw [hResult] at hRead
                      exact kept_settle hOps hAllows hRead
                    · rename_i error hResult
                      rw [hResult] at hRead
                      exact kept_settle hOps hAllows (Handle.kept_onError hOps hRead error)
      | timeout elapsed =>
          unfold step onTimeout
          rw [hHandle]
          dsimp only
          split
          · let failed := { handle with
              progress :=
                { handle.progress with
                  error := some (.invalidRequest "Failed to read file contents") } }
            have hFailed : failed.Kept allowed keep targetDir files w :=
              ⟨hHandled.1, hHandled.2.sameDir, hHandled.2.sameFiles, hHandled.2.path, hHandled.2.file⟩
            have hEnd := Handle.kept_onFinished hOps hAllows hFailed
            exact ⟨hEnd.1, fun _ hHandle => Option.some.inj hHandle ▸ hEnd.2⟩
          · exact hKept
      | cancel =>
          unfold step cancel
          rw [hHandle]
          let canceled := { handle with progress := { handle.progress with isCanceled := true } }
          have hCanceled : canceled.Kept allowed keep targetDir files w :=
            ⟨hHandled.1, hHandled.2.sameDir, hHandled.2.sameFiles, hHandled.2.path, hHandled.2.file⟩
          have hEnd := Handle.kept_onCancelled hOps hCanceled
          exact ⟨hEnd.1, fun _ hHandle => Option.some.inj hHandle ▸ hEnd.2⟩

/-- What each operation on an allowed path keeps holds through a whole run. -/
theorem kept_run {s : W × PasteTask (Handle H)} (hKept : Kept allowed keep targetDir files s)
    (events : List Event) : Kept allowed keep targetDir files (run ops s events) := by
  induction events generalizing s with
  | nil => exact hKept
  | cons event events ih => exact ih (kept_step hOps hAllows hKept event)

end Run

end PasteTask

end HibtDesk.Clipboard
