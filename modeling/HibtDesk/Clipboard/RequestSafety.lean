import HibtDesk.Clipboard.ReaderState

/-! What a request for the contents of a file can do to the side that serves it. The
numbers in it are the peer's, so that their sum may not fit, and a failed read leaves the
reader of the file for the next request. -/
namespace HibtDesk.Clipboard

namespace LocalFile

/-- The reader of a file, if it has one, is where the offset says. -/
structure Usable (file : LocalFile) : Prop where
  closed : file.handle = none → file.offset = 0
  placed : ∀ reader, file.handle = some reader → reader.pos = file.offset

theorem usable_tryOpen (relativeRoot path : Lexical.Text) (mt : Metadata) :
    (tryOpen relativeRoot path mt).Usable where
  closed := fun _ => rfl
  placed := fun _ hHandle => by cases hHandle

section Usable
variable {file : LocalFile} {fs : FileSystem} {faults : ReadFaults} {length offset : Nat}

theorem Usable.reader (hUsable : file.Usable) {reader : Reader} (hReader : file.reader fs = some reader) :
    reader.pos = file.offset := by
  rcases reader_cases hReader with hKept | ⟨hNone, -, hPos⟩
  · exact hUsable.placed reader hKept
  · rw [hPos, hUsable.closed hNone]

theorem Usable.loaded (hUsable : file.Usable) (fs : FileSystem) :
    { file with handle := file.reader fs : LocalFile }.Usable where
  closed := fun hNone => hUsable.closed (handle_eq_none_of_reader hNone)
  placed := fun _ hReader => hUsable.reader hReader

theorem Usable.loadHandle (hUsable : file.Usable) (fs : FileSystem) : (file.loadHandle fs).2.Usable := by
  rw [loadHandle_snd]
  exact hUsable.loaded fs

theorem usable_of_handle {after : LocalFile} {reader : Reader} (hHandle : after.handle = some reader) :
    after.Usable ↔ reader.pos = after.offset := by
  constructor
  · intro hUsable
    exact hUsable.placed reader hHandle
  · intro hPlaced
    refine ⟨fun hNone => ?_, fun found hFound => ?_⟩
    · rw [hHandle] at hNone
      cases hNone
    · rw [hHandle] at hFound
      rw [← Option.some.inj hFound]
      exact hPlaced

/-- A read leaves the reader in its place if and only if it does not fail midway, or the
place where it stops happens to be that one. -/
theorem Usable.readExactAt_iff (hUsable : file.Usable) :
    (file.readExactAt fs faults length offset).2.Usable ↔
      (FailsMidway fs faults file length offset → faults.stopsAt = file.offset) := by
  rcases readExactAt_cases fs faults file length offset with
    ⟨hNot, -, error, hCase⟩ | ⟨hMidway, reader, error, -, hCase⟩ |
      ⟨hNot, reader, after, hReader, -, hCase, rfl | rfl⟩
  · rw [hCase]
    exact iff_of_true (hUsable.loaded fs) fun hMidway => absurd hMidway hNot
  · rw [hCase, usable_of_handle rfl]
    exact ⟨fun hPlaced _ => hPlaced, fun hPlaced => hPlaced hMidway⟩
  · rw [hCase]
    refine iff_of_true ⟨fun _ => rfl, fun _ hNone => ?_⟩ fun hMidway => absurd hMidway hNot
    cases hNone
  · rw [hCase]
    refine iff_of_true ((usable_of_handle rfl).mpr ?_) fun hMidway => absurd hMidway hNot
    show (if offset ≠ file.offset then offset else reader.pos) + length = offset + length
    by_cases hOffset : offset = file.offset
    · rw [if_neg (not_not.mpr hOffset), hUsable.reader hReader, hOffset]
    · rw [if_pos hOffset]

/-- A read that fails midway is answered with an error. -/
theorem error_of_failsMidway (hMidway : FailsMidway fs faults file length offset) :
    ∃ error, (file.readExactAt fs faults length offset).1 = .error error := by
  rcases readExactAt_cases fs faults file length offset with
    ⟨hNot, -⟩ | ⟨-, reader, error, -, hCase⟩ | ⟨hNot, -⟩
  · exact absurd hMidway hNot
  · exact ⟨error, congrArg Prod.fst hCase⟩
  · exact absurd hMidway hNot

end Usable

end LocalFile

theorem usable_loadNext (fs : FileSystem) {list : List LocalFile} (hList : ∀ file ∈ list, file.Usable) :
    ∀ file ∈ (loadNext fs list).2, file.Usable := by
  induction list with
  | nil => exact hList
  | cons nextFile rest ih =>
      obtain ⟨hNext, hRest⟩ := List.forall_mem_cons.mp hList
      unfold loadNext
      split
      · exact List.forall_mem_cons.mpr ⟨hNext, ih hRest⟩
      · exact List.forall_mem_cons.mpr ⟨hNext.loadHandle fs, hRest⟩

namespace ClipFiles

/-- The readers of all files are where their offsets say. -/
def Usable (clip : ClipFiles) : Prop := ∀ file ∈ clip.fileList, file.Usable

theorem Usable.hotReload {clip : ClipFiles} (hUsable : clip.Usable) (fs : FileSystem) (fileIdx : Nat)
    (response : ClipboardFile) : (clip.hotReload fs fileIdx response).2.Usable := by
  intro file hFile
  rw [fileList_hotReload] at hFile
  rcases List.mem_append.mp hFile with hBefore | hAfter
  · exact hUsable file (List.mem_of_mem_take hBefore)
  · exact usable_loadNext fs (fun file hMem => hUsable file (List.mem_of_mem_drop hMem)) file hAfter

theorem Usable.set {clip : ClipFiles} (hUsable : clip.Usable) (idx : Nat) {file : LocalFile}
    (hFile : file.Usable) : Usable { clip with fileList := clip.fileList.set idx file } := by
  intro other hOther
  rcases List.mem_or_eq_of_mem_set hOther with hOld | rfl
  · exact hUsable other hOld
  · exact hFile

/-- What a request is answered with: an error, or a response for its stream. -/
def Answers (streamId : BitVec 32) (result : Except CliprdrError ClipboardFile) : Prop :=
  (∃ error, result = .error error) ∨ ∃ data, result = .ok (.fileContentsResponse 1 streamId data)

/-- A request is served without harm: the sum in it fits, no buffer is longer than what
is left of the file, there is an answer, and all readers are in their places after it. -/
structure Safe (overflowChecks : Bool) (clip : ClipFiles) (event : ServeEvent) : Prop where
  inside : ∀ streamId idx offset length, decode event.request = some (.range streamId idx offset length) →
    ∀ file ∈ clip.fileList[idx]?, offset ≤ file.size →
      offset + length < 2 ^ 64 ∧
        ∃ size, readSize overflowChecks file offset length = some size ∧ size ≤ file.size - offset
  answered : ∃ audit result,
    (clip.readFileContents overflowChecks event.fs event.faults event.connId event.request).1 =
      some (audit ++ [result]) ∧ Answers event.request.streamId result
  usable : (clip.readFileContents overflowChecks event.fs event.faults event.connId event.request).2.Usable

/-- What a request must not ask for. -/
def Within (clip : ClipFiles) (fs : FileSystem) (faults : ReadFaults) : FileContentsRequest → Prop
  | .size .. => True
  | .range _ idx offset length =>
      ∀ file ∈ clip.fileList[idx]?, offset ≤ file.size →
        offset + length < 2 ^ 64 ∧ min length (file.size - offset) < 2 ^ 63 ∧
          (LocalFile.FailsMidway fs faults file (min length (file.size - offset)) offset →
            faults.stopsAt = file.offset)

instance (clip : ClipFiles) (fs : FileSystem) (faults : ReadFaults) :
    (request : FileContentsRequest) → Decidable (clip.Within fs faults request)
  | .size .. => .isTrue trivial
  | .range .. => inferInstanceAs (Decidable (∀ _ ∈ _, _ → _))

/-- The request asks for no more than fits, and if a read of it fails midway, the reader
is left where the offset says. -/
def Harmless (clip : ClipFiles) (event : ServeEvent) : Prop :=
  ∀ request ∈ decode event.request, clip.Within event.fs event.faults request

instance (clip : ClipFiles) (event : ServeEvent) : Decidable (clip.Harmless event) :=
  inferInstanceAs (Decidable (∀ _ ∈ _, _))

section Serving
variable {clip : ClipFiles} {overflowChecks : Bool} {fs : FileSystem} {faults : ReadFaults} {connId : Int}

/-- The response goes out, or the next file cannot be opened. -/
theorem answers_hotReload (fs : FileSystem) (clip : ClipFiles) (fileIdx : Nat) (streamId : BitVec 32)
    (data : Bytes) :
    Answers streamId (clip.hotReload fs fileIdx (.fileContentsResponse 1 streamId data)).1 := by
  have hFirst := hotReload_fst fs clip fileIdx (.fileContentsResponse 1 streamId data)
  by_cases hNext : NextLoads fs (clip.fileList.drop (fileIdx + 1))
  · exact Or.inr ⟨data, hFirst.1 hNext⟩
  · exact Or.inl (hFirst.2 hNext)

/-- A range that fits is answered, and leaves the readers in their places if the read does. -/
theorem Usable.serve_range (hUsable : clip.Usable) (overflowChecks : Bool) (fs : FileSystem)
    (faults : ReadFaults) (connId : Int) (streamId : BitVec 32) {idx offset length : Nat}
    {file : LocalFile} (hFile : clip.fileList[idx]? = some file) (hOffset : offset ≤ file.size)
    (hSum : offset + length < 2 ^ 64) (hFits : min length (file.size - offset) < 2 ^ 63) :
    ∃ result after,
      clip.serveFileContents overflowChecks fs faults connId (.range streamId idx offset length) =
        (some result, after) ∧
      Answers streamId result ∧
      (after.Usable ↔
        (file.readExactAt fs faults (min length (file.size - offset)) offset).2.Usable) := by
  have hOld : file.Usable := hUsable file (List.mem_of_getElem? hFile)
  have hIdx : idx < clip.fileList.length := (List.getElem?_eq_some_iff.mp hFile).1
  rw [serveFileContents, hFile]
  dsimp only
  rw [if_neg (Nat.not_lt.mpr hOffset), readSize_of_fits hOffset hSum]
  dsimp only
  rw [if_neg (Nat.not_le.mpr hFits)]
  generalize min length (file.size - offset) = size
  have hRead : (file.readExactAt fs faults size offset).2.Usable ↔
      (LocalFile.FailsMidway fs faults file size offset → faults.stopsAt = file.offset) :=
    hOld.readExactAt_iff
  have hError : LocalFile.FailsMidway fs faults file size offset →
      ∃ error, (file.readExactAt fs faults size offset).1 = .error error :=
    LocalFile.error_of_failsMidway
  generalize file.readExactAt fs faults size offset = read at hRead hError
  obtain ⟨result, after⟩ := read
  cases result with
  | error error =>
      refine ⟨.error error, _, rfl, Or.inl ⟨error, rfl⟩, ?_⟩
      constructor
      · intro hAll
        exact hAll after (List.mem_set hIdx after)
      · exact hUsable.set idx
  | ok buf =>
      have hAfter : after.Usable := hRead.mpr fun hMidway => by
        obtain ⟨error, hSame⟩ := hError hMidway
        cases hSame
      refine ⟨_, _, rfl, answers_hotReload .., iff_of_true ?_ hAfter⟩
      exact (hUsable.set idx hAfter).hotReload fs idx _

/-- A request that is known goes to `serve_file_contents`. -/
theorem readFileContents_of_decode {request : ContentsRequest} {fcr : FileContentsRequest}
    (hDecode : decode request = some fcr) {result : Except CliprdrError ClipboardFile}
    {after : ClipFiles}
    (hServe : clip.serveFileContents overflowChecks fs faults connId fcr = (some result, after)) :
    clip.readFileContents overflowChecks fs faults connId request =
      (some ((clip.getFilesForAudit fs fcr).toList.map Except.ok ++ [result]), after) := by
  rw [readFileContents, hDecode]
  dsimp only
  rw [hServe]
  rfl

theorem streamId_decode {request : ContentsRequest} {fcr : FileContentsRequest}
    (hDecode : decode request = some fcr) :
    (∃ idx, fcr = .size request.streamId idx) ∨
      ∃ idx offset length, fcr = .range request.streamId idx offset length := by
  unfold decode at hDecode
  split at hDecode
  · exact Or.inl ⟨_, (Option.some.inj hDecode).symm⟩
  · split at hDecode
    · exact Or.inr ⟨_, _, _, (Option.some.inj hDecode).symm⟩
    · cases hDecode

end Serving

/-- A request for the size of a file does no harm. -/
theorem Usable.safe_size {clip : ClipFiles} (hUsable : clip.Usable) (overflowChecks : Bool)
    {event : ServeEvent} {idx : Nat}
    (hDecode : decode event.request = some (.size event.request.streamId idx)) :
    clip.Safe overflowChecks event := by
  have hServe : ∃ result after, clip.serveFileContents overflowChecks event.fs event.faults event.connId
      (.size event.request.streamId idx) = (some result, after) ∧
      Answers event.request.streamId result ∧ after.Usable := by
    rw [serveFileContents]
    cases clip.fileList[idx]? with
    | none => exact ⟨_, _, rfl, Or.inl ⟨_, rfl⟩, hUsable⟩
    | some file =>
        have hAfter := hUsable.hotReload event.fs idx
          (.fileContentsResponse 1 event.request.streamId (toLeBytes file.size))
        exact ⟨_, _, rfl, answers_hotReload .., hAfter⟩
  obtain ⟨result, after, hResult, hAnswers, hAfter⟩ := hServe
  have hRead := readFileContents_of_decode hDecode hResult
  refine ⟨?_, ?_, ?_⟩
  · intro streamId idx offset length hRange
    rw [hDecode] at hRange
    cases hRange
  · rw [hRead]
    exact ⟨_, result, rfl, hAnswers⟩
  · rw [hRead]
    exact hAfter

/-- A request for a range does no harm if and only if it asks for no more than fits and
no read of it leaves the reader astray. -/
theorem Usable.safe_range_iff {clip : ClipFiles} (hUsable : clip.Usable) (overflowChecks : Bool)
    {event : ServeEvent} {idx offset length : Nat}
    (hDecode : decode event.request = some (.range event.request.streamId idx offset length)) :
    clip.Safe overflowChecks event ↔
      clip.Within event.fs event.faults (.range event.request.streamId idx offset length) := by
  have hRefused : ∀ error, clip.serveFileContents overflowChecks event.fs event.faults event.connId
      (.range event.request.streamId idx offset length) = (some (.error error), clip) →
      (∀ file ∈ clip.fileList[idx]?, ¬ offset ≤ file.size) →
      (clip.Safe overflowChecks event ↔
        clip.Within event.fs event.faults (.range event.request.streamId idx offset length)) := by
    intro error hServe hOutside
    have hRead := readFileContents_of_decode hDecode hServe
    refine iff_of_true ⟨?_, ?_, ?_⟩ ?_
    · intro streamId idx' offset' length' hRange file hFile hOffset
      rw [hDecode] at hRange
      cases hRange
      exact absurd hOffset (hOutside file hFile)
    · rw [hRead]
      exact ⟨_, _, rfl, Or.inl ⟨error, rfl⟩⟩
    · rw [hRead]
      exact hUsable
    · intro file hFile hOffset
      exact absurd hOffset (hOutside file hFile)
  cases hFile : clip.fileList[idx]? with
  | none =>
      refine hRefused _ (by rw [serveFileContents, hFile]) ?_
      simp [hFile]
  | some file =>
      by_cases hOffset : offset ≤ file.size
      · have hWithin : clip.Within event.fs event.faults (.range event.request.streamId idx offset length) ↔
            offset + length < 2 ^ 64 ∧ min length (file.size - offset) < 2 ^ 63 ∧
              (LocalFile.FailsMidway event.fs event.faults file (min length (file.size - offset)) offset →
                event.faults.stopsAt = file.offset) := by
          rw [Within, hFile]
          simp [hOffset]
        have hOld : file.Usable := hUsable file (List.mem_of_getElem? hFile)
        rw [hWithin, ← hOld.readExactAt_iff]
        constructor
        · intro hSafe
          obtain ⟨hSum, -⟩ := hSafe.inside _ _ _ _ hDecode file hFile hOffset
          obtain ⟨audit, result, hAnswer, -⟩ := hSafe.answered
          have hFits : min length (file.size - offset) < 2 ^ 63 := by
            by_contra hLarge
            have hPanic : clip.serveFileContents overflowChecks event.fs event.faults event.connId
                (.range event.request.streamId idx offset length) = (none, clip) := by
              rw [serveFileContents, hFile]
              dsimp only
              rw [if_neg (Nat.not_lt.mpr hOffset), readSize_of_fits hOffset hSum]
              exact if_pos (Nat.not_lt.mp hLarge)
            rw [readFileContents, hDecode] at hAnswer
            dsimp only at hAnswer
            rw [hPanic] at hAnswer
            cases hAnswer
          obtain ⟨result, after, hServe, -, hAfter⟩ :=
            hUsable.serve_range overflowChecks event.fs event.faults event.connId event.request.streamId
              hFile hOffset hSum hFits
          refine ⟨hSum, hFits, hAfter.mp ?_⟩
          have hLast := hSafe.usable
          rw [readFileContents_of_decode hDecode hServe] at hLast
          exact hLast
        · rintro ⟨hSum, hFits, hPlaced⟩
          obtain ⟨result, after, hServe, hAnswers, hAfter⟩ :=
            hUsable.serve_range overflowChecks event.fs event.faults event.connId event.request.streamId
              hFile hOffset hSum hFits
          have hRead := readFileContents_of_decode hDecode hServe
          refine ⟨?_, ?_, ?_⟩
          · intro streamId idx' offset' length' hRange found hFound _
            rw [hDecode] at hRange
            cases hRange
            obtain rfl : file = found := Option.some.inj (hFile.symm.trans hFound)
            exact ⟨hSum, _, readSize_of_fits hOffset hSum, min_le_right _ _⟩
          · rw [hRead]
            exact ⟨_, result, rfl, hAnswers⟩
          · rw [hRead]
            exact hAfter.mpr hPlaced
      · refine hRefused _ (by rw [serveFileContents, hFile]; exact if_pos (Nat.not_le.mp hOffset)) ?_
        simpa [hFile] using hOffset

/-- A request does no harm if and only if it asks for no more than fits and no read of it
leaves the reader astray. -/
theorem Usable.safe_iff_harmless {clip : ClipFiles} (hUsable : clip.Usable) (overflowChecks : Bool)
    (event : ServeEvent) : clip.Safe overflowChecks event ↔ clip.Harmless event := by
  unfold Harmless
  cases hDecode : decode event.request with
  | none =>
      refine iff_of_true ⟨?_, ?_, ?_⟩ (by simp)
      · intro streamId idx offset length hRange
        rw [hDecode] at hRange
        cases hRange
      · rw [readFileContents, hDecode]
        exact ⟨[], _, rfl, Or.inl ⟨_, rfl⟩⟩
      · rw [readFileContents, hDecode]
        exact hUsable
  | some fcr =>
      rcases streamId_decode hDecode with ⟨idx, rfl⟩ | ⟨idx, offset, length, rfl⟩
      · refine iff_of_true (hUsable.safe_size overflowChecks hDecode) ?_
        intro request hRequest
        rw [← Option.some.inj hRequest]
        trivial
      · rw [hUsable.safe_range_iff overflowChecks hDecode]
        simp

/-- A run of requests does no harm if and only if each asks for no more than fits, and
each read that fails midway leaves the reader where the offset says. -/
theorem safe_run_iff (overflowChecks : Bool) {clip : ClipFiles} (hUsable : clip.Usable)
    (events : List ServeEvent) :
    Trace.Always (serve overflowChecks) (Safe overflowChecks) clip events ↔
      Trace.Always (serve overflowChecks) Harmless clip events := by
  refine Trace.always_iff_of_invariant _ Usable ?_ ?_ hUsable events
  · intro clip event hNow
    exact hNow.safe_iff_harmless overflowChecks event
  · intro clip event hSafe
    exact hSafe.usable

theorem usable_twoCopied : twoCopied.Usable := by
  intro file hFile
  simp only [twoCopied, List.mem_cons, List.not_mem_nil, or_false] at hFile
  rcases hFile with rfl | rfl
  · exact LocalFile.usable_tryOpen ..
  · exact LocalFile.usable_tryOpen ..

/-- A request of a peer for a range of the first file. -/
def rangeEvent (position requested : BitVec 32) : ServeEvent where
  fs := twoOnDisk
  faults := noFaults
  connId := 1
  request :=
    { streamId := 7
      listIndex := 0
      dwFlags := 2
      nPositionLow := position
      nPositionHigh := 0
      cbRequested := requested
      haveClipDataId := false
      clipDataId := 0 }

/-- Asking for all of a file, with a size below zero, does no harm. -/
theorem whole_file_safe :
    Trace.Always (serve true) (Safe true) twoCopied [rangeEvent 1 2, rangeEvent 0 0xffffffff] :=
  (safe_run_iff true usable_twoCopied [rangeEvent 1 2, rangeEvent 0 0xffffffff]).mpr (by decide +kernel)

/-- The same size from the second byte on makes the sum overflow. -/
theorem overflowing_request_unsafe :
    ¬ ∀ (overflowChecks : Bool) (clip : ClipFiles) (event : ServeEvent),
      clip.Usable → clip.Safe overflowChecks event := by
  intro hClaim
  have hSafe := hClaim true twoCopied (rangeEvent 1 0xffffffff) usable_twoCopied
  have hSum := (hSafe.inside 7 0 1 (2 ^ 64 - 1) (by decide) (.tryOpen "/d".toList "/d/a".toList (fileOf 3))
    rfl (by decide)).1
  omega

end ClipFiles

end HibtDesk.Clipboard
