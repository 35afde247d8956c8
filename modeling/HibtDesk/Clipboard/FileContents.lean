import HibtDesk.Clipboard.Fuse
import HibtDesk.Library.Trace

/-! Which range of a file the peer gets that asks for it. -/
namespace HibtDesk.Clipboard

open Lexical (Text)

def blockSize : Nat := 4 * 1024 * 1024

/-- What `send_file_contents_request` reads of a `PasteTaskHandle`: the sizes and the
connections of the files, and how far it is. -/
structure PasteTaskHandle where
  files : List (Nat × Int)
  listIndex : BitVec 32
  offset : Nat
  error : Option CliprdrError
  isCanceled : Bool

namespace PasteTaskHandle

def isFinished (task : PasteTaskHandle) : Bool :=
  task.isCanceled || task.error.isSome ||
    decide ((BitVec.ofNat 32 task.files.length).toInt ≤ task.listIndex.toInt)

/-- `send_file_contents_request`, with what it sends. -/
def sendFileContentsRequest (task : PasteTaskHandle) : Except CliprdrError (Option ContentsRequest) :=
  if task.isFinished then .ok none
  else
    match task.files[(Casts.widen 64 task.listIndex).toNat]? with
    | none =>
        let listIndex := task.listIndex.toInt
        .error (.invalidRequest s!"Invalid file index: {listIndex}")
    | some file =>
        let offset := BitVec.ofNat 64 task.offset
        .ok (some
          { streamId := task.listIndex
            listIndex := task.listIndex
            dwFlags := 2
            nPositionLow := (offset &&& 0xffffffff).setWidth 32
            nPositionHigh := (offset >>> 32).setWidth 32
            cbRequested := .ofNat 32 (min blockSize (file.1 - task.offset))
            haveClipDataId := false
            clipDataId := 0 })

end PasteTaskHandle

/-- What becomes of an offset on its way through two fields with a sign. -/
def received64 (o : Nat) : Nat :=
  if o % 2 ^ 32 < 2 ^ 31 then o else 2 ^ 64 - 2 ^ 32 + o % 2 ^ 32

/-- What becomes of a number of 32 bits on its way. -/
def received32 (s : Nat) : Nat := if s < 2 ^ 31 then s else s + (2 ^ 64 - 2 ^ 32)

theorem toNat_received64 {o : Nat} (hOffset : o < 2 ^ 63) {high low : BitVec 32}
    (hHigh : high.toNat = o / 2 ^ 32) (hLow : low.toNat = o % 2 ^ 32) :
    (Casts.widen 64 high <<< 32 ||| Casts.widen 64 low).toNat = received64 o := by
  have hWideHigh : (Casts.widen 64 high).toNat = o / 2 ^ 32 := by
    rw [Casts.toNat_widen (w := 31) (by decide), hHigh, if_pos (by omega)]
  have hWideLow := Casts.toNat_widen (w := 31) (v := 64) (by decide) low
  have hShift : (o / 2 ^ 32) <<< 32 % 2 ^ 64 = (o / 2 ^ 32) <<< 32 := by
    rw [Nat.shiftLeft_eq]
    exact Nat.mod_eq_of_lt (by omega)
  rw [hLow] at hWideLow
  rw [BitVec.toNat_or, BitVec.toNat_shiftLeft, hWideHigh, hWideLow, hShift]
  unfold received64
  split
  · rw [← Nat.shiftLeft_add_eq_or_of_lt (Nat.mod_lt _ (by decide)), Nat.shiftLeft_eq]
    omega
  · rw [Nat.add_comm (o % 2 ^ 32)]
    exact Casts.shiftLeft_or_negative (w := 32) (by omega) (by omega)

theorem toNat_received32 {s : Nat} (hSize : s < 2 ^ 32) :
    (Casts.widen 64 (BitVec.ofNat 32 s)).toNat = received32 s := by
  have hNat : (BitVec.ofNat 32 s).toNat = s := by
    rw [BitVec.toNat_ofNat, Nat.mod_eq_of_lt hSize]
  have hWide := Casts.toNat_widen (w := 31) (v := 64) (by decide) (BitVec.ofNat 32 s)
  rwa [hNat] at hWide

section Fields
variable {o : Nat} (hOffset : o < 2 ^ 63)
include hOffset

theorem toNat_low : ((BitVec.ofNat 64 o &&& 0xffffffff).setWidth 32).toNat = o % 2 ^ 32 := by
  have hOnes : ((0xffffffff : BitVec 64)).toNat = 2 ^ 32 - 1 := by decide
  rw [BitVec.toNat_setWidth, BitVec.toNat_and, hOnes, Nat.and_two_pow_sub_one_eq_mod,
    BitVec.toNat_ofNat, Nat.mod_eq_of_lt (by omega : o < 2 ^ 64), Nat.mod_mod]

theorem toNat_high : ((BitVec.ofNat 64 o >>> 32).setWidth 32).toNat = o / 2 ^ 32 := by
  rw [BitVec.toNat_setWidth, BitVec.toNat_ushiftRight, BitVec.toNat_ofNat,
    Nat.mod_eq_of_lt (by omega : o < 2 ^ 64), Nat.shiftRight_eq_div_pow]
  exact Nat.mod_eq_of_lt (by omega)

/-- A shift of a number that is not negative is the same with and without a sign. -/
theorem sshiftRight_eq : (BitVec.ofNat 64 o).sshiftRight 32 = BitVec.ofNat 64 o >>> 32 := by
  apply BitVec.sshiftRight_eq_of_msb_false
  rw [BitVec.msb_eq_decide, BitVec.toNat_ofNat, Nat.mod_eq_of_lt (by omega : o < 2 ^ 64)]
  simp
  omega

end Fields

/-- The request of `read_node` as it is read. -/
theorem decode_request (node : FuseNode) (hIndex : node.index < 2 ^ 32) {o s : Nat}
    (hOffset : o < 2 ^ 63) (hSize : s < 2 ^ 32) :
    ClipFiles.decode (node.request (.ofNat 64 o) (.ofNat 32 s)) =
      some (.range node.streamId (received32 node.index) (received64 o) (received32 s)) := by
  have hPosition := toNat_received64 hOffset (toNat_high hOffset) (toNat_low hOffset)
  unfold ClipFiles.decode FuseNode.request
  rw [sshiftRight_eq hOffset]
  dsimp only
  rw [if_neg (by decide), if_pos rfl, hPosition, toNat_received32 hIndex, toNat_received32 hSize]

/-- The request of a paste task as it is read. -/
theorem decode_sendFileContentsRequest {task : PasteTaskHandle} {request : ContentsRequest}
    (hSent : task.sendFileContentsRequest = .ok (some request)) (hOffset : task.offset < 2 ^ 63) :
    request.streamId = task.listIndex ∧
      ∃ file, task.files[(Casts.widen 64 task.listIndex).toNat]? = some file ∧
        ClipFiles.decode request =
          some (.range task.listIndex (Casts.widen 64 task.listIndex).toNat (received64 task.offset)
            (min blockSize (file.1 - task.offset))) := by
  have hPosition := toNat_received64 hOffset (toNat_high hOffset) (toNat_low hOffset)
  unfold PasteTaskHandle.sendFileContentsRequest at hSent
  split at hSent
  · cases hSent
  · split at hSent
    · cases hSent
    · rename_i file hFile
      cases hSent
      have hSmall : min blockSize (file.1 - task.offset) ≤ blockSize := min_le_left _ _
      have hBlock : blockSize < 2 ^ 31 := by decide
      have hLength := toNat_received32 (s := min blockSize (file.1 - task.offset)) (by omega)
      unfold received32 at hLength
      rw [if_pos (by omega)] at hLength
      refine ⟨rfl, file, hFile, ?_⟩
      unfold ClipFiles.decode
      dsimp only
      rw [if_neg (by decide), if_pos rfl, hPosition, hLength]

/-- The file is there and holds what it held, and reading works. -/
structure Unchanged (path : Text) (node : Nat) (content : Bytes) (fs : FileSystem)
    (faults : ReadFaults) : Prop where
  found : fs.node path = some node
  holds : fs.content node = content
  smooth : faults.seekFails = false ∧ faults.readFails = false

/-- The file in a place of the list is still the one that was put there, and its
reader is where it should be. -/
structure Kept (first : LocalFile) (idx node : Nat) (clip : ClipFiles) : Prop where
  count : clip.fileList.length ≤ 2 ^ 32
  steady : ∃ file, clip.fileList[idx]? = some file ∧ first.SameFile file ∧ file.Steady node

section Serving
variable {first : LocalFile} {idx node : Nat} {clip : ClipFiles} {fs : FileSystem}

theorem loadNext_getElem (fs : FileSystem) {list : List LocalFile} {i : Nat} {file : LocalFile}
    (hFile : list[i]? = some file) :
    (loadNext fs list).2[i]? = some file ∨ (loadNext fs list).2[i]? = some (file.loadHandle fs).2 := by
  induction list generalizing i with
  | nil => simp at hFile
  | cons nextFile rest ih =>
      unfold loadNext
      split
      · cases i with
        | zero => exact Or.inl (by simpa using hFile)
        | succ i => simpa using ih (by simpa using hFile)
      · cases i with
        | zero =>
            obtain rfl : nextFile = file := by simpa using hFile
            exact Or.inr (by simp)
        | succ i => exact Or.inl (by simpa using hFile)

theorem length_loadNext (fs : FileSystem) (list : List LocalFile) :
    (loadNext fs list).2.length = list.length := by
  induction list with
  | nil => rfl
  | cons nextFile rest ih =>
      unfold loadNext
      split
      · simpa using ih
      · simp

/-- The next file that is not a directory is open, or can be opened. -/
def NextLoads (fs : FileSystem) (list : List LocalFile) : Prop :=
  ∀ file ∈ list.find? (fun file => !file.isDir), file.handle = none → (fs.node file.path).isSome = true

instance (fs : FileSystem) (list : List LocalFile) : Decidable (NextLoads fs list) :=
  inferInstanceAs (Decidable (∀ _ ∈ _, _ → _))

theorem loadNext_eq_ok_iff (fs : FileSystem) (list : List LocalFile) :
    (loadNext fs list).1 = .ok () ↔ NextLoads fs list := by
  induction list with
  | nil => simp [loadNext, NextLoads]
  | cons nextFile rest ih =>
      unfold loadNext NextLoads
      cases hDir : nextFile.isDir with
      | true => simpa [hDir, NextLoads] using ih
      | false =>
          have hOk := LocalFile.loadHandle_eq_ok_iff fs nextFile
          simpa [hDir] using hOk

/-- The response goes out if and only if the next file can be opened. -/
theorem hotReload_fst (fs : FileSystem) (clip : ClipFiles) (fileIdx : Nat)
    (response : ClipboardFile) :
    (NextLoads fs (clip.fileList.drop (fileIdx + 1)) →
      (clip.hotReload fs fileIdx response).1 = .ok response) ∧
    (¬ NextLoads fs (clip.fileList.drop (fileIdx + 1)) →
      ∃ error, (clip.hotReload fs fileIdx response).1 = .error error) := by
  have hOk := loadNext_eq_ok_iff fs (clip.fileList.drop (fileIdx + 1))
  unfold ClipFiles.hotReload
  generalize loadNext fs (clip.fileList.drop (fileIdx + 1)) = loaded at hOk
  obtain ⟨result, rest⟩ := loaded
  rw [← hOk]
  cases result with
  | ok _ => simp
  | error error => simp

theorem fileList_hotReload (fs : FileSystem) (clip : ClipFiles) (fileIdx : Nat)
    (response : ClipboardFile) :
    (clip.hotReload fs fileIdx response).2.fileList =
      clip.fileList.take (fileIdx + 1) ++ (loadNext fs (clip.fileList.drop (fileIdx + 1))).2 := by
  unfold ClipFiles.hotReload
  generalize loadNext fs (clip.fileList.drop (fileIdx + 1)) = loaded
  obtain ⟨result, rest⟩ := loaded
  cases result <;> rfl

theorem Kept.hotReload (hKept : Kept first idx node clip) (hDir : first.isDir = false)
    (hNode : fs.node first.path = some node) (fileIdx : Nat) (response : ClipboardFile) :
    Kept first idx node (clip.hotReload fs fileIdx response).2 := by
  obtain ⟨file, hFile, hSame, hSteady⟩ := hKept.steady
  have hList := fileList_hotReload fs clip fileIdx response
  have hLength : idx < clip.fileList.length := (List.getElem?_eq_some_iff.mp hFile).1
  refine ⟨?_, ?_⟩
  · rw [hList, List.length_append, length_loadNext, ← List.length_append, List.take_append_drop]
    exact hKept.count
  rw [hList]
  by_cases hBefore : idx < fileIdx + 1
  · refine ⟨file, ?_, hSame, hSteady⟩
    rw [List.getElem?_append_left (by rw [List.length_take]; omega), List.getElem?_take_of_lt hBefore,
      hFile]
  · have hTake : (clip.fileList.take (fileIdx + 1)).length = fileIdx + 1 := by
      rw [List.length_take]
      omega
    have hDrop : (clip.fileList.drop (fileIdx + 1))[idx - (fileIdx + 1)]? = some file := by
      rw [List.getElem?_drop, Nat.add_sub_cancel' (by omega), hFile]
    rw [List.getElem?_append_right (by omega), hTake]
    rcases loadNext_getElem fs hDrop with hStill | hLoaded
    · exact ⟨file, hStill, hSame, hSteady⟩
    · refine ⟨_, hLoaded, hSame.trans (LocalFile.sameFile_loadHandle fs file), ?_⟩
      exact hSteady.loadHandle (hSame.isDir.trans hDir) (hSame.path ▸ hNode)

theorem Kept.set (hKept : Kept first idx node clip) (fileIdx : Nat) {file : LocalFile}
    (hFile : fileIdx = idx → first.SameFile file ∧ file.Steady node) :
    Kept first idx node { clip with fileList := clip.fileList.set fileIdx file } := by
  obtain ⟨old, hOld, hSame, hSteady⟩ := hKept.steady
  have hLength : idx < clip.fileList.length := (List.getElem?_eq_some_iff.mp hOld).1
  refine ⟨(List.length_set ..).trans_le hKept.count, ?_⟩
  by_cases hIdx : fileIdx = idx
  · obtain ⟨hSame, hSteady⟩ := hFile hIdx
    refine ⟨file, ?_, hSame, hSteady⟩
    rw [hIdx]
    exact List.getElem?_set_self hLength
  · refine ⟨old, ?_, hSame, hSteady⟩
    rw [List.getElem?_set_ne hIdx]
    exact hOld

end Serving

section ReadSize
variable {overflowChecks : Bool} {file : LocalFile} {offset length : Nat}

theorem readSize_of_fits (hOffset : offset ≤ file.size) (hFits : offset + length < 2 ^ 64) :
    ClipFiles.readSize overflowChecks file offset length = some (min length (file.size - offset)) := by
  unfold ClipFiles.readSize addU64
  rw [if_pos hFits, Option.map_some]
  congr 1
  split <;> omega

/-- A sum that does not fit panics, or wraps below the offset and leaves the length as it was. -/
theorem readSize_of_overflow (hOffset : offset ≤ file.size) (hWidth : length < 2 ^ 64)
    (hOver : 2 ^ 64 ≤ offset + length) :
    ClipFiles.readSize overflowChecks file offset length = none ∨
      ClipFiles.readSize overflowChecks file offset length = some length := by
  unfold ClipFiles.readSize addU64
  rw [if_neg (Nat.not_lt.mpr hOver)]
  cases overflowChecks with
  | true => exact Or.inl rfl
  | false =>
      refine Or.inr ?_
      rw [if_neg Bool.false_ne_true, Option.map_some, if_neg (by omega)]

/-- A range that is read at all lies inside the file, for files of the lengths there are. -/
theorem readSize_inside {readSize : Nat} (hSize : file.size < 2 ^ 63) (hOffset : ¬ file.size < offset)
    (hRead : ClipFiles.readSize overflowChecks file offset length = some readSize)
    (hFits : ¬ 2 ^ 63 ≤ readSize) : offset + readSize ≤ file.size := by
  by_cases hSum : offset + length < 2 ^ 64
  · rw [readSize_of_fits (Nat.not_lt.mp hOffset) hSum] at hRead
    obtain rfl := Option.some.inj hRead
    omega
  · unfold ClipFiles.readSize at hRead
    obtain ⟨last, -, hLast⟩ := Option.map_eq_some_iff.mp hRead
    split at hLast <;> omega

end ReadSize

section Serving
variable {first : LocalFile} {idx node : Nat} {clip : ClipFiles} {fs : FileSystem}
  {faults : ReadFaults} {content : Bytes} (hKept : Kept first idx node clip)
  (hDir : first.isDir = false) (hSize : first.size = content.length)
  (hLength : content.length < 2 ^ 63) (hNow : Unchanged first.path node content fs faults)
include hKept hDir hSize hNow

theorem Kept.readExactAt {file : LocalFile} (hFile : clip.fileList[idx]? = some file)
    {length offset : Nat} (hInside : offset + length ≤ file.size) :
    (file.readExactAt fs faults length offset).1 = .ok ((content.drop offset).take length) ∧
      first.SameFile (file.readExactAt fs faults length offset).2 ∧
      (file.readExactAt fs faults length offset).2.Steady node := by
  obtain ⟨found, hFound, hSame, hSteady⟩ := hKept.steady
  obtain rfl : found = file := Option.some.inj (hFound.symm.trans hFile)
  obtain ⟨hNode, rfl, hSmooth⟩ := hNow
  rw [hSame.size, hSize] at hInside
  obtain ⟨hRead, hAfter⟩ := hSteady.readExactAt (hSame.isDir.trans hDir) (hSame.path ▸ hNode)
    hSmooth hInside
  exact ⟨hRead, hSame.trans (LocalFile.sameFile_readExactAt ..), hAfter⟩

include hLength

/-- No request spoils the reader of a file that does not change. -/
theorem Kept.serveFileContents (overflowChecks : Bool) (connId : Int)
    (request : FileContentsRequest) :
    Kept first idx node (clip.serveFileContents overflowChecks fs faults connId request).2 := by
  cases request with
  | size streamId fileIdx =>
      rw [ClipFiles.serveFileContents]
      cases clip.fileList[fileIdx]? with
      | none => exact hKept
      | some file => exact hKept.hotReload hDir hNow.found _ _
  | range streamId fileIdx offset length =>
      rw [ClipFiles.serveFileContents]
      cases hFile : clip.fileList[fileIdx]? with
      | none => exact hKept
      | some file =>
          by_cases hBeyond : file.size < offset
          · simp only [if_pos hBeyond]
            exact hKept
          simp only [if_neg hBeyond]
          cases hRead : ClipFiles.readSize overflowChecks file offset length with
          | none => exact hKept
          | some readSize =>
              by_cases hHuge : 2 ^ 63 ≤ readSize
              · simp only [if_pos hHuge]
                exact hKept
              simp only [if_neg hHuge]
              have hAfter : fileIdx = idx →
                  first.SameFile (file.readExactAt fs faults readSize offset).2 ∧
                    (file.readExactAt fs faults readSize offset).2.Steady node := by
                rintro rfl
                obtain ⟨found, hFound, hSame, -⟩ := hKept.steady
                obtain rfl : found = file := Option.some.inj (hFound.symm.trans hFile)
                have hFits : found.size < 2 ^ 63 := (hSame.size.trans hSize).trans_lt hLength
                have hInside := readSize_inside hFits hBeyond hRead hHuge
                exact (hKept.readExactAt hDir hSize hNow hFile hInside).2
              have hSet := hKept.set fileIdx hAfter
              generalize file.readExactAt fs faults readSize offset = found at hSet
              obtain ⟨result, after⟩ := found
              cases result with
              | error error => exact hSet
              | ok buf => exact hSet.hotReload hDir hNow.found _ _

theorem Kept.answer (overflowChecks : Bool) (connId : Int) (request : ContentsRequest) :
    Kept first idx node (clip.answer overflowChecks fs faults connId request).2 := by
  unfold ClipFiles.answer ClipFiles.readFileContents
  cases ClipFiles.decode request with
  | none => exact hKept
  | some fcr => exact hKept.serveFileContents hDir hSize hLength hNow overflowChecks connId fcr

/-- What becomes of a range request for a file that does not change. -/
theorem Kept.range_cases (overflowChecks : Bool) (connId : Int) (streamId : BitVec 32)
    {offset length : Nat} (hWidth : length < 2 ^ 64) :
    let result := (clip.serveFileContents overflowChecks fs faults connId
      (.range streamId idx offset length)).1
    (content.length < offset ∧ ∃ error, result = some (.error error)) ∨
    (offset ≤ content.length ∧ 2 ^ 64 ≤ offset + length ∧ result = none) ∨
    (offset ≤ content.length ∧ offset + length < 2 ^ 64 ∧
      if NextLoads fs (clip.fileList.drop (idx + 1)) then
        result = some (.ok (.fileContentsResponse 1 streamId ((content.drop offset).take length)))
      else ∃ error, result = some (.error error)) := by
  obtain ⟨file, hFile, hSame, -⟩ := hKept.steady
  have hFileSize : file.size = content.length := hSame.size.trans hSize
  intro result
  have hResult : result = (clip.serveFileContents overflowChecks fs faults connId
    (.range streamId idx offset length)).1 := rfl
  rw [ClipFiles.serveFileContents, hFile] at hResult
  dsimp only at hResult
  by_cases hBeyond : file.size < offset
  · rw [if_pos hBeyond] at hResult
    exact Or.inl ⟨hFileSize ▸ hBeyond, _, hResult⟩
  rw [if_neg hBeyond] at hResult
  have hOffset : offset ≤ file.size := Nat.not_lt.mp hBeyond
  by_cases hOver : 2 ^ 64 ≤ offset + length
  · refine Or.inr (Or.inl ⟨by omega, hOver, ?_⟩)
    rcases readSize_of_overflow hOffset hWidth hOver with hNone | hSame
    · rw [hResult, hNone]
    · rw [hResult, hSame]
      dsimp only
      rw [if_pos (by omega)]
  · refine Or.inr (Or.inr ⟨by omega, by omega, ?_⟩)
    obtain ⟨hOk, -⟩ := hKept.readExactAt hDir hSize hNow hFile
      (show offset + min length (file.size - offset) ≤ file.size by omega)
    have hBytes : (content.drop offset).take (min length (file.size - offset)) =
        (content.drop offset).take length := by
      rw [hFileSize, ← List.length_drop, ← List.take_eq_take_min]
    rw [readSize_of_fits hOffset (Nat.not_le.mp hOver)] at hResult
    dsimp only at hResult
    rw [if_neg (by omega)] at hResult
    generalize file.readExactAt fs faults (min length (file.size - offset)) offset = found
      at hResult hOk
    obtain ⟨bytes, after⟩ := found
    rw [hBytes] at hOk
    subst hOk
    dsimp only at hResult
    obtain ⟨hLoads, hFails⟩ := hotReload_fst fs
      { clip with fileList := clip.fileList.set idx after } idx
      (.fileContentsResponse 1 streamId ((content.drop offset).take length))
    have hDrop : (clip.fileList.set idx after).drop (idx + 1) = clip.fileList.drop (idx + 1) :=
      List.drop_set_of_lt (by omega)
    rw [hDrop] at hLoads hFails
    rw [hResult]
    split
    · rename_i hNext
      rw [hLoads hNext]
    · rename_i hNext
      obtain ⟨error, hError⟩ := hFails hNext
      exact ⟨error, by rw [hError]⟩

end Serving

namespace FileContentsRequest

def streamId : FileContentsRequest → BitVec 32
  | .size streamId _ => streamId
  | .range streamId .. => streamId

end FileContentsRequest

section Response
variable {overflowChecks : Bool} {fs : FileSystem} {faults : ReadFaults} {connId : Int}
  {clip : ClipFiles}

theorem eq_of_hotReload {fileIdx : Nat} {response served : ClipboardFile}
    (hServed : (clip.hotReload fs fileIdx response).1 = .ok served) : served = response := by
  unfold ClipFiles.hotReload at hServed
  generalize loadNext fs (clip.fileList.drop (fileIdx + 1)) = loaded at hServed
  obtain ⟨result, rest⟩ := loaded
  cases result with
  | ok _ => exact (Except.ok.inj hServed).symm
  | error error => cases hServed

theorem response_of_serveFileContents {fcr : FileContentsRequest} {served : ClipboardFile}
    (hServed : (clip.serveFileContents overflowChecks fs faults connId fcr).1 = some (.ok served)) :
    ∃ data, served = .fileContentsResponse 1 fcr.streamId data := by
  cases fcr with
  | size streamId fileIdx =>
      rw [ClipFiles.serveFileContents] at hServed
      split at hServed
      · cases hServed
      · exact ⟨_, eq_of_hotReload (Option.some.inj hServed)⟩
  | range streamId fileIdx offset length =>
      rw [ClipFiles.serveFileContents] at hServed
      split at hServed
      · cases hServed
      · split at hServed
        · cases hServed
        · split at hServed
          · cases hServed
          · split at hServed
            · cases hServed
            · split at hServed
              · cases hServed
              · exact ⟨_, eq_of_hotReload (Option.some.inj hServed)⟩

end Response

/-- The responses among the messages. -/
def response? : ClipboardFile → Option (BitVec 32 × BitVec 32 × Bytes)
  | .fileContentsResponse msgFlags streamId requestedData => some (msgFlags, streamId, requestedData)
  | _ => none

theorem files_of_getFilesForAudit {fs : FileSystem} {clip : ClipFiles} {fcr : FileContentsRequest}
    {audit : ClipboardFile} (hAudit : clip.getFilesForAudit fs fcr = some audit) :
    ∃ files, audit = .files files := by
  cases fcr with
  | size streamId fileIdx => cases hAudit
  | range streamId fileIdx offset length =>
      rw [ClipFiles.getFilesForAudit] at hAudit
      split at hAudit
      · dsimp only at hAudit
        split at hAudit
        · cases hAudit
        · exact ⟨_, (Option.some.inj hAudit).symm⟩
      · cases hAudit

/-- Besides the list for the audit there is one message. -/
theorem responses_answer {request : ContentsRequest} {fcr : FileContentsRequest}
    (hDecode : ClipFiles.decode request = some fcr) (overflowChecks : Bool) (fs : FileSystem)
    (faults : ReadFaults) (connId : Int) (clip : ClipFiles) :
    (clip.answer overflowChecks fs faults connId request).1.map (List.filterMap response?) =
      (clip.serveFileContents overflowChecks fs faults connId fcr).1.map fun result =>
        (response? (ClipFiles.reply request.streamId result)).toList := by
  have hAudit : ((clip.getFilesForAudit fs fcr).toList.map Except.ok).filterMap
      (fun result => response? (ClipFiles.reply request.streamId result)) = [] := by
    cases hFiles : clip.getFilesForAudit fs fcr with
    | none => rfl
    | some audit =>
        obtain ⟨files, rfl⟩ := files_of_getFilesForAudit hFiles
        rfl
  unfold ClipFiles.answer ClipFiles.readFileContents
  rw [hDecode]
  dsimp only
  cases (clip.serveFileContents overflowChecks fs faults connId fcr).1 with
  | none => rfl
  | some result =>
      rw [Option.map_some, Option.map_some, Option.map_some, List.map_append, List.filterMap_append,
        List.filterMap_map]
      congr 1
      exact hAudit ▸ List.nil_append _

/-- One response with the bytes of the range, or a failure if it starts past the end. -/
def Served (content : Bytes) (o s : Nat) (streamId : BitVec 32) (answer : Option (List ClipboardFile)) :
    Prop :=
  answer.map (List.filterMap response?) =
    some [if o ≤ content.length then (1, streamId, (content.drop o).take s) else (2, streamId, [])]

section Served
variable {content : Bytes} {o s : Nat} {streamId : BitVec 32} {request : ContentsRequest}
  {fcr : FileContentsRequest} (hDecode : ClipFiles.decode request = some fcr) {overflowChecks : Bool}
  {fs : FileSystem} {faults : ReadFaults} {connId : Int} {clip : ClipFiles}
include hDecode

theorem served_of_error (hStream : request.streamId = streamId) {error : CliprdrError}
    (hResult : (clip.serveFileContents overflowChecks fs faults connId fcr).1 = some (.error error)) :
    Served content o s streamId (clip.answer overflowChecks fs faults connId request).1 ↔
      content.length < o := by
  unfold Served
  rw [responses_answer hDecode, hResult, hStream]
  by_cases hOffset : o ≤ content.length
  · simp [ClipFiles.reply, ClipFiles.respFileContentsFail, response?, hOffset]
  · simp [ClipFiles.reply, ClipFiles.respFileContentsFail, response?, hOffset, Nat.not_le.mp hOffset]

theorem not_served_of_none
    (hResult : (clip.serveFileContents overflowChecks fs faults connId fcr).1 = none) :
    ¬ Served content o s streamId (clip.answer overflowChecks fs faults connId request).1 := by
  unfold Served
  rw [responses_answer hDecode, hResult]
  simp

theorem served_of_ok {bytes : Bytes} (hOffset : o ≤ content.length)
    (hResult : (clip.serveFileContents overflowChecks fs faults connId fcr).1 =
      some (.ok (.fileContentsResponse 1 streamId bytes))) :
    Served content o s streamId (clip.answer overflowChecks fs faults connId request).1 ↔
      bytes = (content.drop o).take s := by
  unfold Served
  rw [responses_answer hDecode, hResult]
  simp [ClipFiles.reply, response?, hOffset]

end Served

/-- When a size arrives so that the range stays what it was. -/
theorem take_received32_iff {content : Bytes} {o s : Nat} (hOffset : o < 2 ^ 63)
    (hSize : s < 2 ^ 32) (hPast : ¬ content.length < o) :
    o + received32 s < 2 ^ 64 ∧ (content.drop o).take (received32 s) = (content.drop o).take s ↔
      s < 2 ^ 31 ∨ o + s < 2 ^ 32 ∧ content.length ≤ o + s := by
  rw [List.take_eq_take_iff, List.length_drop]
  unfold received32
  split <;> omega

section Requests
variable {first : LocalFile} {idx node : Nat} {clip : ClipFiles} {fs : FileSystem}
  {faults : ReadFaults} {content : Bytes} (hKept : Kept first idx node clip)
  (hDir : first.isDir = false) (hSize : first.size = content.length)
  (hLength : content.length < 2 ^ 63) (hNow : Unchanged first.path node content fs faults)
  {overflowChecks : Bool} {connId : Int}
include hKept hDir hSize hLength hNow

/-- A range request for a file that does not change is served as it should be if and
only if it starts past the end, or its fields arrive as they were meant. -/
theorem Kept.served_iff {request : ContentsRequest} {o s length : Nat} (hWidth : length < 2 ^ 64)
    (hDecode : ClipFiles.decode request =
      some (.range request.streamId idx (received64 o) length)) :
    Served content o s request.streamId (clip.answer overflowChecks fs faults connId request).1 ↔
      content.length < o ∨
        o % 2 ^ 32 < 2 ^ 31 ∧ o + length < 2 ^ 64 ∧
          (content.drop o).take length = (content.drop o).take s ∧
          NextLoads fs (clip.fileList.drop (idx + 1)) := by
  have hReceived : received64 o = o ∧ o % 2 ^ 32 < 2 ^ 31 ∨
      2 ^ 63 ≤ received64 o ∧ ¬ o % 2 ^ 32 < 2 ^ 31 := by
    unfold received64
    split
    · exact Or.inl ⟨rfl, by assumption⟩
    · exact Or.inr ⟨by omega, by assumption⟩
  rcases hKept.range_cases hDir hSize hLength hNow overflowChecks connId request.streamId hWidth with
    ⟨hBeyond, error, hResult⟩ | ⟨hInside, hOver, hResult⟩ | ⟨hInside, hFits, hResult⟩
  · rw [served_of_error hDecode rfl hResult]
    constructor
    · exact Or.inl
    · rintro (hPast | ⟨hLow, -⟩)
      · exact hPast
      · omega
  · refine iff_of_false (not_served_of_none hDecode hResult) ?_
    omega
  · have hSame : received64 o = o ∧ o % 2 ^ 32 < 2 ^ 31 := by omega
    rw [hSame.1] at hDecode hInside hFits hResult
    by_cases hNext : NextLoads fs (clip.fileList.drop (idx + 1))
    · rw [if_pos hNext] at hResult
      rw [served_of_ok hDecode hInside hResult]
      constructor
      · intro hBytes
        exact Or.inr ⟨hSame.2, hFits, hBytes, hNext⟩
      · rintro (hPast | ⟨-, -, hBytes, -⟩)
        · omega
        · exact hBytes
    · rw [if_neg hNext] at hResult
      obtain ⟨error, hError⟩ := hResult
      rw [served_of_error hDecode rfl hError]
      constructor
      · exact Or.inl
      · rintro (hPast | ⟨-, -, -, hLoads⟩)
        · exact hPast
        · exact absurd hLoads hNext

omit hDir hSize hLength hNow in
/-- A place from 2^31 on is past every list by the time it is read. -/
theorem Kept.error_of_large (hLarge : ¬ idx < 2 ^ 31) (streamId : BitVec 32) (offset length : Nat) :
    ∃ error, (clip.serveFileContents overflowChecks fs faults connId
      (.range streamId (received32 idx) offset length)).1 = some (.error error) := by
  have hNone : clip.fileList[received32 idx]? = none := by
    have hBound := hKept.count
    rw [List.getElem?_eq_none_iff]
    unfold received32
    rw [if_neg hLarge]
    omega
  rw [ClipFiles.serveFileContents, hNone]
  exact ⟨_, rfl⟩

/-- A request of `read_node`. -/
theorem Kept.fuse_served_iff {fuse : FuseNode} (hIdx : fuse.index < 2 ^ 32) (hIndex : fuse.index = idx)
    {o s : Nat} (hOffset : o < 2 ^ 63) (hRange : s < 2 ^ 32) :
    Served content o s fuse.streamId (clip.answer overflowChecks fs faults connId
        (fuse.request (.ofNat 64 o) (.ofNat 32 s))).1 ↔
      content.length < o ∨
        idx < 2 ^ 31 ∧ o % 2 ^ 32 < 2 ^ 31 ∧
          (s < 2 ^ 31 ∨ o + s < 2 ^ 32 ∧ content.length ≤ o + s) ∧
          NextLoads fs (clip.fileList.drop (idx + 1)) := by
  have hDecode := decode_request fuse hIdx hOffset hRange
  rw [hIndex] at hDecode
  by_cases hSmall : idx < 2 ^ 31
  · have hSame : received32 idx = idx := if_pos hSmall
    have hWidth : received32 s < 2 ^ 64 := by
      unfold received32
      split <;> omega
    rw [hSame] at hDecode
    refine (hKept.served_iff hDir hSize hLength hNow hWidth hDecode).trans ?_
    by_cases hPast : content.length < o
    · simp only [hPast, true_or]
    · simp only [hPast, false_or, hSmall, true_and]
      rw [← take_received32_iff hOffset hRange hPast]
      tauto
  · obtain ⟨error, hError⟩ := hKept.error_of_large hSmall fuse.streamId (received64 o) (received32 s)
    refine (served_of_error hDecode rfl hError).trans ?_
    rw [or_iff_left fun hRest => hSmall hRest.1]

/-- A request of a paste task, which starts inside the file and is short. -/
theorem Kept.paste_served_iff {task : PasteTaskHandle} {request : ContentsRequest}
    (hSent : task.sendFileContentsRequest = .ok (some request))
    (hIndex : (Casts.widen 64 task.listIndex).toNat = idx)
    (hFiles : ∀ file, task.files[idx]? = some file → file.1 = content.length)
    (hInside : task.offset < content.length) :
    Served content task.offset (min blockSize (content.length - task.offset)) task.listIndex
        (clip.answer overflowChecks fs faults connId request).1 ↔
      task.offset % 2 ^ 32 < 2 ^ 31 ∧ NextLoads fs (clip.fileList.drop (idx + 1)) := by
  obtain ⟨hStream, file, hTaskFile, hDecode⟩ :=
    decode_sendFileContentsRequest hSent (hInside.trans hLength)
  rw [hIndex] at hTaskFile hDecode
  rw [← hStream, hFiles file hTaskFile] at hDecode
  have hBlock : min blockSize (content.length - task.offset) < 2 ^ 64 := by omega
  rw [← hStream, hKept.served_iff hDir hSize hLength hNow hBlock hDecode]
  simp only [Nat.not_lt.mpr hInside.le, false_or, true_and]
  constructor
  · rintro ⟨hLow, -, hLoads⟩
    exact ⟨hLow, hLoads⟩
  · rintro ⟨hLow, hLoads⟩
    exact ⟨hLow, by omega, hLoads⟩

end Requests

/-- A request that is to be answered, with the files as they are then. -/
structure ServeEvent where
  fs : FileSystem
  faults : ReadFaults
  connId : Int
  request : ContentsRequest

namespace ClipFiles

def serve (overflowChecks : Bool) (clip : ClipFiles) (event : ServeEvent) : ClipFiles :=
  (clip.answer overflowChecks event.fs event.faults event.connId event.request).2

end ClipFiles

/-- The reader of a file that does not change is in its place after any requests. -/
theorem kept_run (overflowChecks : Bool) {clip : ClipFiles} {first : LocalFile} {idx node : Nat}
    (hKept : Kept first idx node clip) (hDir : first.isDir = false) {content : Bytes}
    (hSize : first.size = content.length) (hLength : content.length < 2 ^ 63)
    {events : List ServeEvent}
    (hUnchanged : ∀ event ∈ events, Unchanged first.path node content event.fs event.faults) :
    Kept first idx node (Trace.run (ClipFiles.serve overflowChecks) clip events) := by
  induction events generalizing clip with
  | nil => exact hKept
  | cons event events ih =>
      have hNow := hUnchanged event List.mem_cons_self
      refine ih ?_ fun later hLater => hUnchanged later (List.mem_cons_of_mem _ hLater)
      exact hKept.answer hDir hSize hLength hNow overflowChecks event.connId event.request

/-- A peer that asks for a range of a file gets the bytes of that range, or a failure if
the range starts past the end, if and only if it starts past the end, or bit 31 of the
offset and of the size do no harm and the next file can be opened. -/
theorem range_served_iff (overflowChecks : Bool) {clip : ClipFiles} {relativeRoot path : Text}
    {mt : Metadata} {idx node : Nat} {content : Bytes}
    (hFile : clip.fileList[idx]? = some (LocalFile.tryOpen relativeRoot path mt))
    (hCount : clip.fileList.length ≤ 2 ^ 32) (hDir : mt.isDir = false)
    (hLen : mt.len = content.length) (hLength : content.length < 2 ^ 63) {earlier : List ServeEvent}
    (hEarlier : ∀ event ∈ earlier, Unchanged path node content event.fs event.faults)
    {fs : FileSystem} {faults : ReadFaults} (hNow : Unchanged path node content fs faults)
    (connId : Int) :
    let now := Trace.run (ClipFiles.serve overflowChecks) clip earlier
    let loads := NextLoads fs (now.fileList.drop (idx + 1))
    (∀ (fuse : FuseNode) (o s : Nat), fuse.index = idx → o < 2 ^ 63 → s < 2 ^ 32 →
      (Served content o s fuse.streamId (now.answer overflowChecks fs faults connId
          (fuse.request (.ofNat 64 o) (.ofNat 32 s))).1 ↔
        content.length < o ∨
          idx < 2 ^ 31 ∧ o % 2 ^ 32 < 2 ^ 31 ∧
            (s < 2 ^ 31 ∨ o + s < 2 ^ 32 ∧ content.length ≤ o + s) ∧ loads)) ∧
    ∀ (task : PasteTaskHandle) (request : ContentsRequest),
      task.sendFileContentsRequest = .ok (some request) →
      (Casts.widen 64 task.listIndex).toNat = idx →
      (∀ file, task.files[idx]? = some file → file.1 = content.length) →
      task.offset < content.length →
      (Served content task.offset (min blockSize (content.length - task.offset)) task.listIndex
          (now.answer overflowChecks fs faults connId request).1 ↔
        task.offset % 2 ^ 32 < 2 ^ 31 ∧ loads) := by
  have hKept : Kept (LocalFile.tryOpen relativeRoot path mt) idx node
      (Trace.run (ClipFiles.serve overflowChecks) clip earlier) :=
    kept_run overflowChecks ⟨hCount, _, hFile, .refl _, LocalFile.steady_tryOpen node relativeRoot path mt⟩
      hDir hLen hLength hEarlier
  have hIdx : idx < 2 ^ 32 := (List.getElem?_eq_some_iff.mp hFile).1.trans_le hCount
  refine ⟨fun fuse o s hIndex hOffset hSize => ?_, fun task request hSent hIndex hFiles hInside => ?_⟩
  · exact hKept.fuse_served_iff hDir hLen hLength hNow (hIndex ▸ hIdx) hIndex hOffset hSize
  · exact hKept.paste_served_iff hDir hLen hLength hNow hSent hIndex hFiles hInside

/-- The metadata of a plain file. -/
def fileOf (len : Nat) : Metadata where
  len := len
  isDir := false
  readonly := false
  mode := 0o644
  modified := none

def noFaults : ReadFaults where
  seekFails := false
  readFails := false
  stopsAt := 0

/-- Two files that are copied. -/
def twoCopied : ClipFiles where
  fileList := [.tryOpen "/d".toList "/d/a".toList (fileOf 3), .tryOpen "/d".toList "/d/b".toList (fileOf 1)]
  firstFileIndex := 0

def twoOnDisk : FileSystem where
  node := fun path => if path = "/d/a".toList then some 0 else if path = "/d/b".toList then some 1 else none
  isFile := fun _ => true
  content := fun node => if node = 0 then [1, 2, 3] else [4]

/-- The end of the first file is read after its start. -/
theorem range_served_after_start :
    let fuse : FuseNode := { connId := 1, streamId := 7, index := 0 }
    let start : ServeEvent :=
      { fs := twoOnDisk, faults := noFaults, connId := 1, request := fuse.request 0 1 }
    Served [1, 2, 3] 1 5 7 ((Trace.run (ClipFiles.serve true) twoCopied [start]).answer true twoOnDisk
      noFaults 1 (fuse.request 1 5)).1 := by
  intro fuse start
  have hUnchanged : Unchanged "/d/a".toList 0 [1, 2, 3] twoOnDisk noFaults := ⟨by decide, rfl, rfl, rfl⟩
  have hFile : twoCopied.fileList[0]? = some (.tryOpen "/d".toList "/d/a".toList (fileOf 3)) := rfl
  have hEarlier : ∀ event ∈ [start], Unchanged "/d/a".toList 0 [1, 2, 3] event.fs event.faults := by
    intro event hEvent
    rw [List.mem_singleton.mp hEvent]
    exact hUnchanged
  refine ((range_served_iff true hFile (by decide) rfl rfl (by decide) hEarlier hUnchanged 1).1
    fuse 1 5 rfl (by decide) (by decide)).mpr ?_
  exact Or.inr ⟨by decide, by decide, Or.inl (by decide), by decide +kernel⟩

/-- A file that goes on after its first two gibibytes. -/
def bigContent : Bytes := List.replicate (2 ^ 31 + 1) 0

theorem length_bigContent : bigContent.length = 2 ^ 31 + 1 := List.length_replicate

/-- The byte at two gibibytes is there, but is not sent. -/
theorem past_two_gibibytes_unserved :
    ¬ ∀ (overflowChecks : Bool) (clip : ClipFiles) (relativeRoot path : Text) (mt : Metadata)
      (idx node : Nat) (content : Bytes) (fs : FileSystem) (faults : ReadFaults) (connId : Int)
      (fuse : FuseNode) (o s : Nat),
      clip.fileList[idx]? = some (LocalFile.tryOpen relativeRoot path mt) →
      clip.fileList.length ≤ 2 ^ 32 → mt.isDir = false → mt.len = content.length →
      content.length < 2 ^ 63 → Unchanged path node content fs faults → fuse.index = idx →
      o < 2 ^ 63 → s < 2 ^ 32 →
      Served content o s fuse.streamId (clip.answer overflowChecks fs faults connId
        (fuse.request (.ofNat 64 o) (.ofNat 32 s))).1 := by
  intro hClaim
  let file := LocalFile.tryOpen "/d".toList "/d/a".toList (fileOf (2 ^ 31 + 1))
  let fs : FileSystem :=
    { node := fun _ => some 0, isFile := fun _ => true, content := fun _ => bigContent }
  let fuse : FuseNode := { connId := 1, streamId := 7, index := 0 }
  have hSmooth : noFaults.seekFails = false ∧ noFaults.readFails = false := ⟨rfl, rfl⟩
  have hServed := hClaim true { fileList := [file], firstFileIndex := 0 } "/d".toList "/d/a".toList
    (fileOf (2 ^ 31 + 1)) 0 0 bigContent fs noFaults 1 fuse (2 ^ 31) 1 rfl (by decide) rfl
    length_bigContent.symm (by rw [length_bigContent]; decide) ⟨rfl, rfl, hSmooth⟩ rfl (by decide)
    (by decide)
  have hKept : Kept file 0 0 { fileList := [file], firstFileIndex := 0 } :=
    ⟨by decide, file, rfl, .refl file, LocalFile.steady_tryOpen ..⟩
  have hDecode := decode_request fuse (by decide) (o := 2 ^ 31) (s := 1) (by decide) (by decide)
  have hNow : Unchanged file.path 0 bigContent fs noFaults := ⟨rfl, rfl, hSmooth⟩
  have hLength : bigContent.length = 2 ^ 31 + 1 := length_bigContent
  rcases (hKept.served_iff rfl hLength.symm (by omega) hNow (by decide) hDecode).mp hServed with
    hPast | ⟨hLow, -⟩
  · omega
  · omega

end HibtDesk.Clipboard
