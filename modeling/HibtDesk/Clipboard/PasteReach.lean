import HibtDesk.Clipboard.PasteInside

/-! A disk on which nothing stands in the way. There a task gets to the place of every file
of its list, if the peer answers for each one with as many bytes as were asked for. -/
namespace HibtDesk.Clipboard

open Lexical (Text)

/-- A disk that is empty and does what it is told. -/
def FileOps.blank : FileOps Unit Unit where
  isThere _ _ := false
  createDirAll _ _ := ((), none)
  create _ _ := ((), .ok ())
  write _ _ data := ((), .ok (data.length - 1))
  flush _ _ := ()
  close _ _ := ()
  rename _ _ _ := ()
  remove _ _ := ()

namespace PasteTask

abbrev Blank : Type := Unit × List Touch

abbrev blankOps : FileOps Blank Unit := FileOps.blank.logged

variable {targetDir : Text} {files : List FileDescription} {w : Blank} {handle : Handle Unit}

/-- The places of the first `n` files have been touched. -/
def Passed (targetDir : Text) (files : List FileDescription) (n : Nat) (w : Blank) : Prop :=
  ∀ j desc, j < n → (reached files)[j]? = some desc → ∀ touch ∈ desc.place targetDir, touch ∈ w.2

theorem Passed.append {n : Nat} {later : Blank} {touches : List Touch}
    (hPassed : Passed targetDir files n w) (hLog : later.2 = w.2 ++ touches) :
    Passed targetDir files n later := by
  intro j desc hj hDesc touch hTouch
  rw [hLog]
  exact List.mem_append_left _ (hPassed j desc hj hDesc touch hTouch)

theorem Passed.succ {n : Nat} {desc : FileDescription} (hPassed : Passed targetDir files n w)
    (hDesc : (reached files)[n]? = some desc) (hPlace : ∀ touch ∈ desc.place targetDir, touch ∈ w.2) :
    Passed targetDir files (n + 1) w := by
  intro j found hj hFound
  rcases Nat.lt_succ_iff_lt_or_eq.mp hj with hLt | rfl
  · exact hPassed j found hLt hFound
  · obtain rfl := Option.some.inj (hDesc.symm.trans hFound)
    exact hPlace

/-- The file that is written next to a place lies in a directory. -/
theorem exists_parent_download (path : Text) :
    ∃ above, Lexical.Unix.parent (download path) = some above := by
  refine Lexical.Unix.parent_append_plain ⟨?_, ?_, ?_⟩ path
  · simp [Lexical.Platform.isSep]
  · simp
  · simp

namespace Handle

/-- The handle works on the files and has come to no harm. -/
structure Sound (targetDir : Text) (files : List FileDescription) (handle : Handle Unit) : Prop where
  sameDir : handle.targetDir = targetDir
  sameFiles : handle.files = files
  error : handle.progress.error = none
  isCanceled : handle.progress.isCanceled = false

/-- The task has opened a file and has nothing of it yet. -/
structure At (targetDir : Text) (files : List FileDescription) (k : Nat) (w : Blank)
    (handle : Handle Unit) : Prop extends Sound targetDir files handle where
  desc : ∃ desc, (reached files)[k]? = some desc ∧ desc.kind = .file ∧ desc.size ≠ 0 ∧
    handle.progress.downloadFileSize = desc.size
  listIndex : handle.progress.listIndex = k
  downloadFileIndex : handle.progress.downloadFileIndex = k
  offset : handle.progress.offset = 0
  fileHandle : handle.progress.fileHandle = some ()
  passed : Passed targetDir files k w

/-- The task has been to every file and has none open. -/
structure AtEnd (targetDir : Text) (files : List FileDescription) (w : Blank)
    (handle : Handle Unit) : Prop extends Sound targetDir files handle where
  fileHandle : handle.progress.fileHandle = none
  passed : Passed targetDir files (reached files).length w

theorem openNewWriter_blank {desc : FileDescription}
    (hDesc : handle.file handle.progress.listIndex = some desc) :
    ∃ later touches, later.2 = w.2 ++ touches ∧
      handle.openNewWriter blankOps w = (later, { handle with
        progress :=
          { handle.progress with
            downloadFileIndex := handle.progress.listIndex
            downloadFileSize := desc.size
            downloadFilePath := download (Lexical.Platform.unix.join handle.targetDir desc.name)
            downloadFileCurrentSize := 0
            fileHandle := some () } }, none) := by
  obtain ⟨above, hParent⟩ :=
    exists_parent_download (Lexical.Platform.unix.join handle.targetDir desc.name)
  have hFirst (path : Text) : getFirstFilename (blankOps.isThere w) path desc.kind = some path := rfl
  have hClose (w : Blank) : handle.closeFile blankOps w = w := by
    unfold closeFile
    split <;> rfl
  unfold openNewWriter
  rw [hDesc]
  simp only [hFirst, hParent]
  refine ⟨_, [.dir above, .file (download (Lexical.Platform.unix.join handle.targetDir desc.name))],
    ?_, Prod.ext (hClose _) rfl⟩
  simp [FileOps.logged, FileOps.blank]

theorem createEmpty_blank (desc : FileDescription) :
    (handle.createEmpty blankOps w desc).2 =
      w.2 ++ [.file (Lexical.Platform.unix.join handle.targetDir desc.name)] := rfl

/-- The files that come next are passed up to one that has to be asked for. -/
theorem advance_blank (rest : List (FileDescription × Nat)) (n : Nat)
    (hRest : rest = (reached files).zipIdx.drop n) (hSound : Sound targetDir files handle)
    (hFile : handle.progress.fileHandle = none) (hPassed : Passed targetDir files n w) :
    (advance blankOps rest w handle).2.2 = none ∧
      ((∃ k, n ≤ k ∧ At targetDir files k (advance blankOps rest w handle).1
          (advance blankOps rest w handle).2.1) ∨
        AtEnd targetDir files (advance blankOps rest w handle).1
          (advance blankOps rest w handle).2.1) := by
  induction rest generalizing n w with
  | nil =>
      have hAll : (reached files).length ≤ n := by
        have hLength := congrArg List.length hRest
        simp only [List.length_nil, List.length_drop, List.length_zipIdx] at hLength
        omega
      refine ⟨rfl, Or.inr ⟨hSound, hFile, ?_⟩⟩
      intro j desc hj hDesc
      exact hPassed j desc (by omega) hDesc
  | cons entry rest ih =>
      obtain ⟨desc, i⟩ := entry
      have hHead : (reached files).zipIdx[n]? = some (desc, i) := by
        rw [← List.head?_drop, ← hRest]
        rfl
      have hLater : rest = (reached files).zipIdx.drop (n + 1) := by
        rw [← List.tail_drop, ← hRest]
        rfl
      rw [List.getElem?_zipIdx, Nat.zero_add] at hHead
      obtain ⟨found, hDesc, hSame⟩ := Option.map_eq_some_iff.mp hHead
      obtain ⟨rfl, rfl⟩ := Prod.mk.inj hSame
      have hLift : ∀ {later : Blank}, Passed targetDir files (n + 1) later →
          (advance blankOps rest later handle).2.2 = none ∧
            ((∃ k, n ≤ k ∧ At targetDir files k (advance blankOps rest later handle).1
                (advance blankOps rest later handle).2.1) ∨
              AtEnd targetDir files (advance blankOps rest later handle).1
                (advance blankOps rest later handle).2.1) := by
        intro later hLaterPassed
        obtain ⟨hNone, hOutcome⟩ := ih (n + 1) hLater hLaterPassed
        exact ⟨hNone, hOutcome.imp_left fun ⟨k, hk, hAt⟩ => ⟨k, by omega, hAt⟩⟩
      unfold advance
      cases hKind : found.kind with
      | file =>
          dsimp only
          by_cases hSize : found.size = 0
          · rw [if_pos hSize]
            have hLog : (handle.createEmpty blankOps w found).2 = _ := createEmpty_blank found
            refine hLift ((hPassed.append hLog).succ hDesc fun touch hTouch => ?_)
            rw [FileDescription.place, hKind] at hTouch
            obtain rfl := Option.mem_some.mp hTouch
            rw [hLog, hSound.sameDir]
            simp
          · rw [if_neg hSize]
            have hFound : Handle.file { handle with
                progress := { handle.progress with listIndex := (n : Int), offset := 0 } } n =
                  some found :=
              file_of_reached (by rw [hSound.sameFiles]; exact hDesc)
            obtain ⟨later, touches, hLog, hOpen⟩ := openNewWriter_blank (w := w) hFound
            rw [hOpen]
            exact ⟨rfl, Or.inl ⟨n, Nat.le_refl n,
              { sameDir := hSound.sameDir
                sameFiles := hSound.sameFiles
                error := hSound.error
                isCanceled := hSound.isCanceled
                desc := ⟨found, hDesc, hKind, hSize, rfl⟩
                listIndex := rfl
                downloadFileIndex := rfl
                offset := rfl
                fileHandle := rfl
                passed := hPassed.append hLog }⟩⟩
      | directory =>
          have hLog : (blankOps.createDirAll w
              (Lexical.Platform.unix.join handle.targetDir found.name)).1.2 =
                w.2 ++ [.dir (Lexical.Platform.unix.join handle.targetDir found.name)] := rfl
          refine hLift ((hPassed.append hLog).succ hDesc fun touch hTouch => ?_)
          rw [FileDescription.place, hKind] at hTouch
          obtain rfl := Option.mem_some.mp hTouch
          rw [← hSound.sameDir]
          exact List.mem_append_right _ (List.mem_singleton.mpr rfl)
      | symlink =>
          refine hLift (hPassed.succ hDesc fun touch hTouch => ?_)
          rw [FileDescription.place, hKind] at hTouch
          cases hTouch

/-- A file that is complete takes its place. -/
theorem At.onDone {k : Nat} (hAt : At targetDir files k w handle) :
    Sound targetDir files (handle.onDone blankOps w).2 ∧
      (handle.onDone blankOps w).2.progress.fileHandle = none ∧
      (handle.onDone blankOps w).2.progress.listIndex = k ∧
      Passed targetDir files (k + 1) (handle.onDone blankOps w).1 := by
  obtain ⟨desc, hDesc, hKind, -, -⟩ := hAt.desc
  have hFound : handle.file k = some desc :=
    file_of_reached (by rw [hAt.sameFiles]; exact hDesc)
  have hValid : handle.progress.downloadFileIndex ≠ invalidFileIndex := by
    rw [hAt.downloadFileIndex]
    unfold invalidFileIndex
    omega
  have hNew (w : Blank) : getNewFilename (blankOps.isThere w) handle.targetDir desc =
      some (Lexical.Platform.unix.join handle.targetDir desc.name) := rfl
  unfold Handle.onDone
  rw [hAt.fileHandle]
  dsimp only
  rw [if_neg hValid, hAt.downloadFileIndex, hFound]
  simp only [hNew]
  refine ⟨⟨hAt.sameDir, hAt.sameFiles, hAt.error, hAt.isCanceled⟩, trivial, hAt.listIndex, ?_⟩
  refine (hAt.passed.append (by rfl)).succ hDesc fun touch hTouch => ?_
  rw [FileDescription.place, hKind] at hTouch
  obtain rfl := Option.mem_some.mp hTouch
  rw [hAt.sameDir]
  simp [FileOps.logged]

/-- What `update_next` comes to: a later file that has been opened, or the end. -/
def Onward (targetDir : Text) (files : List FileDescription) (n : Nat) (w : Blank)
    (handle : Handle Unit) : Prop :=
  (∃ k, n ≤ k ∧ At targetDir files k w handle) ∨
    AtEnd targetDir files w handle ∧ handle.isFinished = true

theorem onward_markEnd {n : Nat}
    (hOutcome : (∃ k, n ≤ k ∧ At targetDir files k w handle) ∨ AtEnd targetDir files w handle) :
    Onward targetDir files n w handle.markEnd := by
  rcases hOutcome with ⟨k, hk, hAt⟩ | hEnd
  · have hSame : handle.markEnd = handle := by
      rw [markEnd, hAt.fileHandle]
      rfl
    rw [hSame]
    exact Or.inl ⟨k, hk, hAt⟩
  · rw [markEnd, hEnd.fileHandle]
    refine Or.inr ⟨⟨⟨hEnd.sameDir, hEnd.sameFiles, hEnd.error, hEnd.isCanceled⟩, hEnd.fileHandle,
      hEnd.passed⟩, ?_⟩
    simp [isFinished]

/-- The handle has not come to the end of its list. -/
theorem Sound.isFinished (hSound : Sound targetDir files handle)
    (hLt : handle.progress.listIndex < fileCount files) : handle.isFinished = false := by
  unfold Handle.isFinished
  rw [hSound.isCanceled, hSound.error, hSound.sameFiles]
  simpa using hLt

/-- Once the bytes are counted, `update_next` gets on as far as `step_on` does. -/
theorem updateNext_blank {n size : Nat} {counted : Handle Unit} (hRunning : handle.isFinished = false)
    (hCounted : counted = { handle with
      progress :=
        { handle.progress with currentSize := (handle.progress.currentSize + size) % 2 ^ 64 } })
    (hStep : (counted.stepOn blankOps w size).2.2 = none ∧
      ((∃ k, n ≤ k ∧ At targetDir files k (counted.stepOn blankOps w size).1
          (counted.stepOn blankOps w size).2.1) ∨
        AtEnd targetDir files (counted.stepOn blankOps w size).1
          (counted.stepOn blankOps w size).2.1)) :
    (handle.updateNext blankOps w size).2.2 = none ∧
      Onward targetDir files n (handle.updateNext blankOps w size).1
        (handle.updateNext blankOps w size).2.1 := by
  unfold updateNext
  rw [hRunning, if_neg Bool.false_ne_true]
  subst hCounted
  dsimp only
  split
  · rename_i hResult
    rw [hResult] at hStep
    exact ⟨rfl, onward_markEnd hStep.2⟩
  · rename_i hResult
    rw [hResult] at hStep
    cases hStep.1

/-- The count of the files that is used is that of those the task comes to. -/
theorem lt_fileCount {k : Nat} {desc : FileDescription} (hDesc : (reached files)[k]? = some desc) :
    (k : Int) < fileCount files := by
  have hLt := (List.getElem?_eq_some_iff.mp hDesc).1
  rw [length_reached] at hLt
  omega

theorem At.isFinished {k : Nat} (hAt : At targetDir files k w handle) :
    handle.isFinished = false := by
  obtain ⟨desc, hDesc, -⟩ := hAt.desc
  exact hAt.toSound.isFinished (by rw [hAt.listIndex]; exact lt_fileCount hDesc)

/-- With all bytes of a file the task gets on to a later one, or to the end. -/
theorem At.updateNext {k : Nat} {desc : FileDescription} (hAt : At targetDir files k w handle)
    (hDesc : (reached files)[k]? = some desc) (hSize : desc.size < 2 ^ 64) :
    (handle.updateNext blankOps w desc.size).2.2 = none ∧
      Onward targetDir files (k + 1) (handle.updateNext blankOps w desc.size).1
        (handle.updateNext blankOps w desc.size).2.1 := by
  obtain ⟨found, hFound, hKind, hSome, hDownload⟩ := hAt.desc
  obtain rfl := Option.some.inj (hDesc.symm.trans hFound)
  refine updateNext_blank hAt.isFinished rfl ?_
  generalize hCounted : ({ handle with
    progress :=
      { handle.progress with
        currentSize := (handle.progress.currentSize + desc.size) % 2 ^ 64 } } : Handle Unit) = counted
  have hAtCounted : At targetDir files k w counted := by
    subst hCounted
    exact { hAt with desc := ⟨desc, hDesc, hKind, hSome, hDownload⟩ }
  have hSame : counted.progress.downloadFileSize = desc.size := by
    subst hCounted
    exact hDownload
  obtain ⟨hSound, hClosed, hIndex, hPassed⟩ := hAtCounted.onDone
  unfold stepOn
  dsimp only
  rw [if_neg (by rw [hAtCounted.listIndex]; omega), if_pos]
  · refine advance_blank _ (k + 1) ?_ hSound hClosed hPassed
    rw [remaining_eq, hSound.sameFiles, hIndex]
    rfl
  · rw [hAtCounted.offset, Nat.zero_add, Nat.mod_eq_of_lt hSize, hSame]

/-- A task opens the first file it has to ask for, unless there is none. -/
theorem initial_updateNext (hSome : 0 < fileCount files) (w : Blank) :
    Onward targetDir files 0 ((initial targetDir files).updateNext blankOps w 0).1
      ((initial targetDir files).updateNext blankOps w 0).2.1 := by
  have hSound : Sound targetDir files (initial targetDir files) := ⟨rfl, rfl, rfl, rfl⟩
  refine (updateNext_blank (hSound.isFinished ?_) rfl ?_).2
  · have hStart : (initial targetDir files : Handle Unit).progress.listIndex = -1 := rfl
    omega
  · refine advance_blank _ 0 ?_ ⟨rfl, rfl, rfl, rfl⟩ rfl ?_
    · rw [remaining_eq]
      rfl
    · intro j desc hj
      omega

theorem writeAll_blank (data : Bytes) (w : Blank) :
    writeAll blankOps () data.length w data = (w, none) := by
  cases data with
  | nil => rfl
  | cons byte data =>
      have hRest : ∀ fuel, writeAll blankOps () fuel w ([] : Bytes) = (w, none) := by
        intro fuel
        cases fuel <;> rfl
      have hWrite : blankOps.write w () (byte :: data) = (w, .ok data.length) := rfl
      rw [List.length_cons]
      unfold writeAll
      rw [if_neg (List.cons_ne_nil byte data), hWrite]
      dsimp only
      rw [List.drop_eq_nil_of_le (by simp), hRest]

/-- There is something to ask for while a file is open. -/
theorem At.sendFileContentsRequest {k : Nat} (hAt : At targetDir files k w handle) :
    ∃ request, handle.sendFileContentsRequest blankOps w = (w, handle, request) := by
  obtain ⟨desc, hDesc, -⟩ := hAt.desc
  have hLt := lt_fileCount hDesc
  have hSmall : k < 2 ^ 31 := by
    have hCount := BitVec.toInt_lt (x := BitVec.ofNat 32 files.length)
    unfold fileCount at hLt
    omega
  have hAsked : handle.files[k]? = some desc := by
    rw [hAt.sameFiles]
    unfold reached at hDesc
    rw [List.getElem?_take] at hDesc
    split at hDesc
    · exact hDesc
    · cases hDesc
  have hIndex : (Casts.widen 64 handle.asks.listIndex).toNat = k := by
    change (Casts.widen 64 (BitVec.ofInt 32 handle.progress.listIndex)).toNat = k
    rw [hAt.listIndex, BitVec.ofInt_natCast, Casts.toNat_widen (w := 31) (by decide),
      BitVec.toNat_ofNat, Nat.mod_eq_of_lt (by omega), if_pos hSmall]
  obtain ⟨request, hRequest⟩ : ∃ request, handle.asks.sendFileContentsRequest = .ok request := by
    unfold PasteTaskHandle.sendFileContentsRequest
    split
    · exact ⟨_, rfl⟩
    · rw [hIndex]
      simp only [asks, List.getElem?_map, hAsked, Option.map_some]
      exact ⟨_, rfl⟩
  refine ⟨request, ?_⟩
  unfold Handle.sendFileContentsRequest
  rw [hRequest]

end Handle

/-- The task has opened a file, or the places of all files have been touched. -/
def Reached (targetDir : Text) (files : List FileDescription) (n : Nat)
    (s : Blank × PasteTask (Handle Unit)) : Prop :=
  (∃ k handle, n ≤ k ∧ s.2.handle = some handle ∧ handle.At targetDir files k s.1) ∨
    Passed targetDir files (reached files).length s.1

/-- A task that has come to its end with nothing open leaves the disk as it is. -/
theorem onFinished_blank (hEnd : handle.AtEnd targetDir files w) :
    (handle.onFinished blankOps w).1 = w := by
  have hDone : handle.onDone blankOps w = (w, handle) := by
    unfold Handle.onDone
    rw [hEnd.fileHandle]
  unfold Handle.onFinished
  rw [hEnd.error, if_neg (by simp), hDone]
  dsimp only
  split <;> rfl

theorem reached_settle {n : Nat} {task : PasteTask (Handle Unit)}
    (hOnward : handle.Onward targetDir files n w) :
    Reached targetDir files n ((settle blankOps w task handle).1,
      (settle blankOps w task handle).2.1) := by
  unfold settle
  rcases hOnward with ⟨k, hk, hAt⟩ | ⟨hEnd, hFinished⟩
  · obtain ⟨request, hRequest⟩ := hAt.sendFileContentsRequest
    rw [hAt.isFinished, hRequest]
    exact Or.inl ⟨k, handle, hk, rfl, hAt⟩
  · have hSame := onFinished_blank hEnd
    rw [hFinished]
    refine Or.inr ?_
    change Passed targetDir files (reached files).length (handle.onFinished blankOps w).1
    rw [hSame]
    exact hEnd.passed

theorem reached_start {task : PasteTask (Handle Unit)} (hFinished : task.isFinished = true)
    (hSome : 0 < fileCount files) :
    Reached targetDir files 0 ((start blankOps w task targetDir files).1,
      (start blankOps w task targetDir files).2.1) := by
  have hOnward : Handle.Onward targetDir files 0 _ _ := Handle.initial_updateNext hSome w
  unfold start
  rw [hFinished, Bool.not_true, if_neg Bool.false_ne_true]
  dsimp only
  generalize (Handle.initial targetDir files).updateNext blankOps w 0 = result at hOnward ⊢
  rcases hOnward with ⟨k, hk, hAt⟩ | ⟨hEnd, hAtEnd⟩
  · obtain ⟨request, hRequest⟩ := hAt.sendFileContentsRequest
    rw [hAt.isFinished, if_neg Bool.false_ne_true, hRequest]
    exact Or.inl ⟨k, _, hk, rfl, hAt⟩
  · have hSame := onFinished_blank hEnd
    rw [hAtEnd, if_pos rfl]
    refine Or.inr ?_
    change Passed targetDir files (reached files).length (result.2.1.onFinished blankOps result.1).1
    rw [hSame]
    exact hEnd.passed

/-- The peer sends all of the file that is open. -/
def fullResponse (k : Nat) (desc : FileDescription) : FileContentsResponse where
  connId := desc.connId
  msgFlags := 1
  streamId := k
  requestedData := List.replicate desc.size 0

theorem reached_response {k : Nat} {desc : FileDescription} {task : PasteTask (Handle Unit)}
    (hHandle : task.handle = some handle) (hAt : handle.At targetDir files k w)
    (hDesc : (reached files)[k]? = some desc) (hSize : desc.size < 2 ^ 64) :
    Reached targetDir files (k + 1)
      (step blankOps (w, task) (.response (fullResponse k desc))) := by
  obtain ⟨hNone, hOnward⟩ := hAt.updateNext hDesc hSize
  generalize hUpdate : handle.updateNext blankOps w desc.size = result at hNone hOnward
  obtain ⟨later, next, error⟩ := result
  obtain rfl : error = none := hNone
  have hFile : handle.file (fullResponse k desc).streamId = some desc :=
    Handle.file_of_reached (by rw [hAt.sameFiles]; exact hDesc)
  have hWritten : handle.handleFileContentsResponse blankOps w (fullResponse k desc).requestedData =
      (later, next, none) := by
    unfold Handle.handleFileContentsResponse
    rw [hAt.fileHandle]
    dsimp only
    rw [Handle.writeAll_blank]
    simp only [fullResponse, List.length_replicate, hUpdate]
  have hIndex : ¬ (fullResponse k desc).streamId ≠ handle.progress.listIndex := by
    rw [hAt.listIndex]
    exact not_not.mpr rfl
  have hFlags : ¬ (fullResponse k desc).msgFlags ≠ 1 := not_not.mpr rfl
  have hConn : ¬ desc.connId ≠ (fullResponse k desc).connId := not_not.mpr rfl
  have hTurn : onResponse blankOps w task (fullResponse k desc) = settle blankOps later task next := by
    unfold onResponse
    rw [hHandle]
    dsimp only
    rw [hAt.isFinished, if_neg Bool.false_ne_true, if_neg hIndex, if_neg hFlags, hFile]
    dsimp only
    rw [if_neg hConn, hWritten]
  change Reached targetDir files (k + 1) ((onResponse blankOps w task (fullResponse k desc)).1,
    (onResponse blankOps w task (fullResponse k desc)).2.1)
  rw [hTurn]
  exact reached_settle hOnward

/-- With a full response for each file that is asked for, the task gets to all of them. -/
theorem exists_passed (hSizes : ∀ desc ∈ files, desc.size < 2 ^ 64) (n : Nat)
    {s : Blank × PasteTask (Handle Unit)} (hReached : Reached targetDir files n s) :
    ∃ events, Passed targetDir files (reached files).length (run blankOps s events).1 := by
  generalize hLeft : (reached files).length - n = left
  induction left using Nat.strong_induction_on generalizing n s with
  | _ left ih =>
      rcases hReached with ⟨k, handle, hk, hHandle, hAt⟩ | hPassed
      · obtain ⟨desc, hDesc, -⟩ := hAt.desc
        have hLt := (List.getElem?_eq_some_iff.mp hDesc).1
        have hSize := hSizes desc (List.mem_of_mem_take (List.mem_of_getElem? hDesc))
        have hNext : Reached targetDir files (k + 1) _ :=
          reached_response hHandle hAt hDesc hSize
        obtain ⟨events, hPassed⟩ := ih _ (by omega) (k + 1) hNext rfl
        exact ⟨.response (fullResponse k desc) :: events, hPassed⟩
      · exact ⟨[], hPassed⟩

/-- A task that stays in its directory has descriptions that belong there. -/
theorem namesInside_of_staysInside (hSizes : ∀ desc ∈ files, desc.size < 2 ^ 64)
    (hStays : StaysInside targetDir files) : NamesInside targetDir files := by
  intro desc hDesc touch hTouch
  obtain ⟨j, hj⟩ := List.mem_iff_getElem?.mp hDesc
  have hLt := (List.getElem?_eq_some_iff.mp hj).1
  have hSome := Handle.lt_fileCount hj
  have hFinished : (new : PasteTask (Handle Unit)).isFinished = true := rfl
  obtain ⟨events, hPassed⟩ := exists_passed hSizes 0
    (@reached_start targetDir files ((), []) new hFinished (by omega))
  exact hStays Unit Unit .blank () new events hFinished touch (hPassed j desc hLt hj touch hTouch)

end PasteTask

end HibtDesk.Clipboard
