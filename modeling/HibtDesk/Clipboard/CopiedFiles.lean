import HibtDesk.Clipboard.FileContents
import HibtDesk.Clipboard.FileList

/-! The copied files over a run. There is one list for all peers, and a new selection
replaces it. A peer that has fetched the list names a file by its place in it, so what it
gets depends on what the list holds by then. -/
namespace HibtDesk.Clipboard

open Lexical (Text)

/-- What answering takes of the machine at one moment. -/
structure Moment where
  overflowChecks : Bool
  fs : FileSystem
  faults : ReadFaults

def fileContentsFormatName : String := "FileContents"
def fileDescriptorWFormatName : String := "FileGroupDescriptorW"

/-- `serve_clip_messages`, as far as the copied files go. There are no messages if it
panics. -/
def serveClipMessages (now : Moment) (connId : Int) (copied : CopiedFiles) :
    ClipboardFile → Option (List ClipboardFile) × CopiedFiles
  | .formatList formatList =>
      if !formatList.any fun format => format.2 == fileContentsFormatName then (some [], copied)
      else
        match formatList.find? fun format => format.2 == fileDescriptorWFormatName with
        | none => (some [], copied)
        | some format => (some [.formatDataRequest format.1], copied)
  | .formatDataRequest _ =>
      if copied.filesPdu.isEmpty then (some [.formatDataResponse 2 []], copied)
      else (some [.formatDataResponse 1 copied.filesPdu], copied)
  | .fileContentsRequest request =>
      let (answers, clip) := copied.clip.answer now.overflowChecks now.fs now.faults connId request
      (answers, { copied with clip := clip })
  | _ => (some [], copied)

/-- What is done with the copied files: a new selection, none any more, or a message of a
peer that is served. -/
inductive ClipEvent where
  | sync (listing : Listing) (depth : Nat) (files : List Text)
  | clear
  | message (now : Moment) (connId : Int) (clip : ClipboardFile)

def CopiedFiles.after (copied : CopiedFiles) : ClipEvent → CopiedFiles
  | .sync listing depth files => (copied.syncFiles listing depth files).2
  | .clear => copied.clear
  | .message now connId clip => (serveClipMessages now connId copied clip).2

/-- The side that serves the files, with the list its bytes were made of, and the list
each peer has fetched. -/
structure Sender where
  copied : CopiedFiles
  listed : List LocalFile
  fetched : Int → Option (List LocalFile)

namespace Sender

def new : Sender where
  copied := .new
  listed := []
  fetched := fun _ => none

def step (s : Sender) (event : ClipEvent) : Sender where
  copied := s.copied.after event
  listed :=
    match event with
    | .sync listing depth files =>
        match s.copied.syncFiles listing depth files with
        | (.returned (.ok ()), copied) =>
            if s.copied.files = files then s.listed else copied.clip.fileList
        | _ => s.listed
    | .clear => []
    | .message .. => s.listed
  fetched :=
    match event with
    | .message _ connId (.formatDataRequest _) =>
        if s.copied.filesPdu.isEmpty then s.fetched
        else fun c => if c = connId then some s.listed else s.fetched c
    | _ => s.fetched

/-- The messages a peer is sent at a step. -/
def sent (s : Sender) : ClipEvent → List ClipboardFile
  | .message now connId clip => ((serveClipMessages now connId s.copied clip).1).getD []
  | _ => []

end Sender

/-- The place in the list that a request names. -/
def ContentsRequest.place (request : ContentsRequest) : Nat :=
  (Casts.widen 64 request.listIndex).toNat

/-- A path has led to a file when some peer was served. -/
def Led (events : List ClipEvent) (path : Text) (node : Nat) : Prop :=
  ∃ now connId clip, ClipEvent.message now connId clip ∈ events ∧ now.fs.node path = some node

/-- Data for a file: its size, or bytes that are in a file its path has led to. -/
def HoldsBytes (past : List ClipEvent) (fs : FileSystem) (file : LocalFile)
    (request : ContentsRequest) (data : Bytes) : Prop :=
  request.dwFlags = 1 ∧ data = toLeBytes file.size ∨
    request.dwFlags = 2 ∧ ∃ node, Led past file.path node ∧ data <:+: fs.content node

/-- The peer gets what belongs to the file that its own list has in the place. -/
def ServesFetched (past : List ClipEvent) (s : Sender) : ClipEvent → Prop
  | event@(.message now connId (.fileContentsRequest request)) =>
      ∀ list file, s.fetched connId = some list → list[request.place]? = some file →
        ∀ streamId data, .fileContentsResponse 1 streamId data ∈ s.sent event →
          HoldsBytes (past ++ [event]) now.fs file request data
  | _ => True

/-- Whatever stands in the place by now is the file that the list of the peer has there,
and has its size if that is what is asked for. -/
def KeepsPlace (s : Sender) : ClipEvent → Prop
  | .message _ connId (.fileContentsRequest request) =>
      ∀ list file, s.fetched connId = some list → list[request.place]? = some file →
        ∀ found, s.copied.clip.fileList[request.place]? = some found →
          found.path = file.path ∧ (request.dwFlags = 1 → found.size = file.size)
  | _ => True

section Opened
variable {led : Text → Nat → Prop} {fs : FileSystem} {file : LocalFile}

/-- The file that is open, if it is, is one its path has led to. -/
def Opened (led : Text → Nat → Prop) (file : LocalFile) : Prop :=
  ∀ reader, file.handle = some reader → led file.path reader.node

theorem Opened.mono {led' : Text → Nat → Prop} (hOpened : Opened led file)
    (hMore : ∀ path node, led path node → led' path node) : Opened led' file :=
  fun reader hReader => hMore _ _ (hOpened reader hReader)

theorem opened_of_fresh (hFresh : Fresh file) : Opened led file := by
  intro reader hReader
  rw [hFresh] at hReader
  cases hReader

variable (hLed : ∀ path node, fs.node path = some node → led path node)
include hLed

theorem Opened.loadHandle (hOpened : Opened led file) : Opened led (file.loadHandle fs).2 := by
  unfold LocalFile.loadHandle
  split
  · split
    · rename_i node hNode
      intro reader hReader
      obtain rfl := Option.some.inj hReader
      exact hLed _ _ hNode
    · exact hOpened
  · exact hOpened

/-- A read gives bytes of the file that is open. -/
theorem Opened.readExactAt (hOpened : Opened led file) (faults : ReadFaults) (length offset : Nat) :
    Opened led (file.readExactAt fs faults length offset).2 ∧
      ∀ buf, (file.readExactAt fs faults length offset).1 = .ok buf →
        ∃ node, led file.path node ∧ buf <:+: fs.content node := by
  have hLoaded := hOpened.loadHandle hLed
  have hSame := LocalFile.sameFile_loadHandle fs file
  unfold LocalFile.readExactAt
  generalize file.loadHandle fs = loaded at hLoaded hSame
  obtain ⟨result, after⟩ := loaded
  cases result with
  | error error => exact ⟨hLoaded, fun buf hBuf => by cases hBuf⟩
  | ok _ =>
      dsimp only at hLoaded hSame ⊢
      cases hHandle : after.handle with
      | none => exact ⟨hLoaded, fun buf hBuf => by cases hBuf⟩
      | some reader =>
          have hReader := hLoaded reader hHandle
          dsimp only
          unfold LocalFile.readFrom
          by_cases hSeek : offset ≠ after.offset ∧ faults.seekFails = true
          · rw [if_pos hSeek]
            exact ⟨hLoaded, fun buf hBuf => by cases hBuf⟩
          · rw [if_neg hSeek]
            dsimp only
            generalize (if offset ≠ after.offset then offset else reader.pos) = pos
            split
            · refine ⟨fun other hOther => ?_, fun buf hBuf => by cases hBuf⟩
              obtain rfl := Option.some.inj hOther
              exact hReader
            · have hBytes : ((fs.content reader.node).drop pos).take length <:+:
                  fs.content reader.node :=
                (List.take_prefix _ _).isInfix.trans (List.drop_suffix _ _).isInfix
              have hBuf : ∃ node, led file.path node ∧
                  ((fs.content reader.node).drop pos).take length <:+: fs.content node :=
                ⟨reader.node, hSame.path ▸ hReader, hBytes⟩
              split
              · refine ⟨fun other hOther => ?_, fun buf hOk => ?_⟩
                · cases hOther
                · obtain rfl := Except.ok.inj hOk
                  exact hBuf
              · refine ⟨fun other hOther => ?_, fun buf hOk => ?_⟩
                · obtain rfl := Option.some.inj hOther
                  exact hReader
                · obtain rfl := Except.ok.inj hOk
                  exact hBuf

theorem opened_loadNext {list : List LocalFile} (hList : ∀ file ∈ list, Opened led file) :
    ∀ file ∈ (loadNext fs list).2, Opened led file := by
  induction list with
  | nil => simp [loadNext]
  | cons nextFile rest ih =>
      obtain ⟨hNext, hRest⟩ := List.forall_mem_cons.mp hList
      unfold loadNext
      split
      · exact List.forall_mem_cons.mpr ⟨hNext, ih hRest⟩
      · exact List.forall_mem_cons.mpr ⟨hNext.loadHandle hLed, hRest⟩

theorem opened_hotReload {clip : ClipFiles} (hList : ∀ file ∈ clip.fileList, Opened led file)
    (fileIdx : Nat) (response : ClipboardFile) :
    ∀ file ∈ (clip.hotReload fs fileIdx response).2.fileList, Opened led file := by
  have hRest := opened_loadNext hLed fun file hFile =>
    hList file ((List.drop_suffix (fileIdx + 1) _).subset hFile)
  unfold ClipFiles.hotReload
  generalize loadNext fs (clip.fileList.drop (fileIdx + 1)) = loaded at hRest
  obtain ⟨result, rest⟩ := loaded
  have hAll : ∀ file ∈ clip.fileList.take (fileIdx + 1) ++ rest, Opened led file := by
    intro file hFile
    rcases List.mem_append.mp hFile with hTake | hLater
    · exact hList file (List.mem_of_mem_take hTake)
    · exact hRest file hLater
  cases result <;> exact hAll

/-- What is sent for a request that is served: the size of the file in the place, or bytes
of it. -/
def OfPlace (led : Text → Nat → Prop) (fs : FileSystem) (list : List LocalFile) :
    FileContentsRequest → Bytes → Prop
  | .size _ fileIdx, data => ∃ file, list[fileIdx]? = some file ∧ data = toLeBytes file.size
  | .range _ fileIdx _ _, data =>
      ∃ file, list[fileIdx]? = some file ∧ ∃ node, led file.path node ∧ data <:+: fs.content node

/-- Serving keeps the files that are open, and sends what belongs to the place. -/
theorem opened_serveFileContents {clip : ClipFiles}
    (hList : ∀ file ∈ clip.fileList, Opened led file) (overflowChecks : Bool) (faults : ReadFaults)
    (connId : Int) (request : FileContentsRequest) :
    (∀ file ∈ (clip.serveFileContents overflowChecks fs faults connId request).2.fileList,
      Opened led file) ∧
    ∀ streamId data,
      (clip.serveFileContents overflowChecks fs faults connId request).1 =
        some (.ok (.fileContentsResponse 1 streamId data)) →
      OfPlace led fs clip.fileList request data := by
  cases request with
  | size streamId fileIdx =>
      rw [ClipFiles.serveFileContents]
      cases hFile : clip.fileList[fileIdx]? with
      | none => exact ⟨hList, fun _ _ hSent => by cases hSent⟩
      | some file =>
          refine ⟨opened_hotReload hLed hList _ _, fun _ data hSent => ⟨file, hFile, ?_⟩⟩
          have hSame := eq_of_hotReload (Option.some.inj hSent)
          cases hSame
          rfl
  | range streamId fileIdx offset length =>
      rw [ClipFiles.serveFileContents]
      cases hFile : clip.fileList[fileIdx]? with
      | none => exact ⟨hList, fun _ _ hSent => by cases hSent⟩
      | some file =>
          by_cases hBeyond : file.size < offset
          · simp only [if_pos hBeyond]
            exact ⟨hList, fun _ _ hSent => by cases hSent⟩
          simp only [if_neg hBeyond]
          cases ClipFiles.readSize overflowChecks file offset length with
          | none => exact ⟨hList, fun _ _ hSent => by cases hSent⟩
          | some readSize =>
              by_cases hHuge : 2 ^ 63 ≤ readSize
              · simp only [if_pos hHuge]
                exact ⟨hList, fun _ _ hSent => by cases hSent⟩
              simp only [if_neg hHuge]
              obtain ⟨hAfter, hBytes⟩ := (hList file (List.mem_of_getElem? hFile)).readExactAt hLed
                faults readSize offset
              generalize file.readExactAt fs faults readSize offset = read at hAfter hBytes
              obtain ⟨result, after⟩ := read
              have hSet : ∀ file ∈ clip.fileList.set fileIdx after, Opened led file := by
                intro file hMem
                rcases List.mem_or_eq_of_mem_set hMem with hOld | rfl
                · exact hList file hOld
                · exact hAfter
              cases result with
              | error error => exact ⟨hSet, fun _ _ hSent => by cases hSent⟩
              | ok buf =>
                  refine ⟨opened_hotReload hLed hSet _ _, fun _ data hSent => ⟨file, hFile, ?_⟩⟩
                  have hSame := eq_of_hotReload (Option.some.inj hSent)
                  cases hSame
                  exact hBytes buf rfl

/-- What is sent for a request belongs to the file in its place. -/
theorem opened_answer {clip : ClipFiles} (hList : ∀ file ∈ clip.fileList, Opened led file)
    (overflowChecks : Bool) (faults : ReadFaults) (connId : Int) (request : ContentsRequest) :
    (∀ file ∈ (clip.answer overflowChecks fs faults connId request).2.fileList, Opened led file) ∧
    ∀ streamId data,
      .fileContentsResponse 1 streamId data ∈
        ((clip.answer overflowChecks fs faults connId request).1).getD [] →
      ∃ fcr, ClipFiles.decode request = some fcr ∧ OfPlace led fs clip.fileList fcr data := by
  unfold ClipFiles.answer ClipFiles.readFileContents
  cases hDecode : ClipFiles.decode request with
  | none => exact ⟨hList, fun _ _ hSent => by simp [ClipFiles.reply, ClipFiles.respFileContentsFail] at hSent⟩
  | some fcr =>
      obtain ⟨hAfter, hServed⟩ := opened_serveFileContents hLed hList overflowChecks faults connId fcr
      dsimp only
      generalize clip.serveFileContents overflowChecks fs faults connId fcr = served at hAfter hServed
      obtain ⟨result, after⟩ := served
      refine ⟨hAfter, fun streamId data hSent => ⟨fcr, rfl, ?_⟩⟩
      cases result with
      | none => simp at hSent
      | some result =>
          -- The list of the files that an audit gets is no response.
          have hAudit : .fileContentsResponse 1 streamId data ∉
              ((ClipFiles.getFilesForAudit fs clip fcr).toList.map
                (Except.ok (ε := CliprdrError))).map (ClipFiles.reply request.streamId) := by
            simp only [List.mem_map, Option.mem_toList, not_exists, not_and]
            rintro _ ⟨found, hFound, rfl⟩ hSame
            obtain ⟨files, rfl⟩ := files_of_getFilesForAudit hFound
            cases hSame
          simp only [Option.map_some, Option.getD_some, List.map_append, List.mem_append,
            or_iff_right hAudit, List.map_cons, List.map_nil, List.mem_singleton] at hSent
          cases result with
          | error error => cases hSent
          | ok response =>
              obtain rfl : response = .fileContentsResponse 1 streamId data := hSent.symm
              exact hServed streamId data rfl

end Opened

section Run
variable {past : List ClipEvent} {event : ClipEvent} {s : Sender}

theorem Led.later {path : Text} {node : Nat} (hLed : Led past path node) (event : ClipEvent) :
    Led (past ++ [event]) path node := by
  obtain ⟨now, connId, clip, hMem, hNode⟩ := hLed
  exact ⟨now, connId, clip, List.mem_append_left _ hMem, hNode⟩

theorem led_now {now : Moment} {connId : Int} {clip : ClipboardFile} {path : Text} {node : Nat}
    (hNode : now.fs.node path = some node) :
    Led (past ++ [.message now connId clip]) path node :=
  ⟨now, connId, clip, List.mem_append_right past List.mem_cons_self, hNode⟩

/-- Every file that is open was found under its path. -/
def AllLed (past : List ClipEvent) (s : Sender) : Prop :=
  ∀ file ∈ s.copied.clip.fileList, Opened (Led past) file

theorem AllLed.later (hAll : AllLed past s) (event : ClipEvent) : AllLed (past ++ [event]) s :=
  fun file hFile => (hAll file hFile).mono fun _ _ hLed => hLed.later event

theorem AllLed.step (hAll : AllLed past s) (event : ClipEvent) :
    AllLed (past ++ [event]) (s.step event) := by
  have hLater := hAll.later event
  cases event with
  | sync listing depth files =>
      have hCopied : (s.step (.sync listing depth files)).copied =
          (s.copied.syncFiles listing depth files).2 := rfl
      intro file hFile
      rw [hCopied] at hFile
      rcases CopiedFiles.fileList_syncFiles listing depth files s.copied with
        hSame | ⟨fileList, hList, hNew⟩
      · exact hLater file (hSame ▸ hFile)
      · exact opened_of_fresh (fresh_constructFileList hList file (hNew ▸ hFile))
  | clear =>
      intro file hFile
      cases hFile
  | message now connId clip =>
      cases clip with
      | fileContentsRequest request =>
          exact (opened_answer (fun _ _ hNode => led_now hNode) hLater now.overflowChecks now.faults
            connId request).1
      | formatList formatList =>
          unfold AllLed Sender.step CopiedFiles.after serveClipMessages
          dsimp only
          split
          · exact hLater
          · split <;> exact hLater
      | formatDataRequest requestedFormatId =>
          unfold AllLed Sender.step CopiedFiles.after serveClipMessages
          dsimp only
          split <;> exact hLater
      | _ => exact hLater

theorem allLed_run (events : List ClipEvent) : AllLed events (Trace.run Sender.step .new events) := by
  refine Trace.invariant Sender.step (C := fun _ _ => True) AllLed ?_ ?_ events
    fun _ _ _ _ => trivial
  · intro file hFile
    cases hFile
  · intro past event _ hAll
    exact hAll.step event

/-- A peer gets what belongs to its own list if that still has its place. -/
theorem servesFetched_of_keepsPlace (hAll : AllLed past s) (hKeeps : KeepsPlace s event) :
    ServesFetched past s event := by
  cases event with
  | message now connId clip =>
      cases clip with
      | fileContentsRequest request =>
          intro list file hFetched hFile streamId data hSent
          have hLater := hAll.later (.message now connId (.fileContentsRequest request))
          obtain ⟨fcr, hDecode, hPlace⟩ := (opened_answer (fun _ _ hNode => led_now hNode) hLater
            now.overflowChecks now.faults connId request).2 streamId data hSent
          have hKept := hKeeps list file hFetched hFile
          unfold ClipFiles.decode at hDecode
          dsimp only at hDecode
          split at hDecode
          · rename_i hSize
            obtain rfl := Option.some.inj hDecode
            obtain ⟨found, hFound, rfl⟩ := hPlace
            exact Or.inl ⟨hSize, by rw [(hKept found hFound).2 hSize]⟩
          · split at hDecode
            · rename_i hRange
              obtain rfl := Option.some.inj hDecode
              obtain ⟨found, hFound, node, hLed, hBytes⟩ := hPlace
              exact Or.inr ⟨hRange, node, (hKept found hFound).1 ▸ hLed, hBytes⟩
            · cases hDecode
      | _ => trivial
  | _ => trivial

/-- If at each request for contents whatever stands in the place is the file that the
list of the peer has there, then no peer ever gets bytes of another file. -/
theorem contents_of_fetched {events : List ClipEvent}
    (hKeeps : Trace.Along (fun past event => KeepsPlace (Trace.run Sender.step .new past) event)
      events) :
    Trace.Along (fun past event => ServesFetched past (Trace.run Sender.step .new past) event)
      events :=
  fun past event rest hSplit =>
    servesFetched_of_keepsPlace (allLed_run past) (hKeeps past event rest hSplit)

end Run

/-- The bytes a peer can fetch are those of the list that is kept for them. -/
theorem pdu_of_listed (events : List ClipEvent) :
    (Trace.run Sender.step .new events).copied.filesPdu = [] ∨
      buildFileListPdu (Trace.run Sender.step .new events).listed =
        some (Trace.run Sender.step .new events).copied.filesPdu := by
  refine Trace.invariant_of_step Sender.step
    (fun s => s.copied.filesPdu = [] ∨ buildFileListPdu s.listed = some s.copied.filesPdu)
    (Or.inl rfl) ?_ events
  intro s event hBytes
  cases event with
  | sync listing depth files =>
      unfold Sender.step CopiedFiles.after CopiedFiles.syncFiles
      by_cases hSame : s.copied.files = files
      · simpa only [if_pos hSame] using hBytes
      · simp only [if_neg hSame]
        cases constructFileList listing depth files with
        | none => exact hBytes
        | some result =>
            cases result with
            | error error => exact hBytes
            | ok fileList =>
                dsimp only
                cases hPdu : buildFileListPdu fileList with
                | none => exact hBytes
                | some pdu => exact Or.inr hPdu
  | clear => exact Or.inl rfl
  | message now connId clip =>
      have hKeeps : (serveClipMessages now connId s.copied clip).2.filesPdu = s.copied.filesPdu := by
        unfold serveClipMessages
        split
        · split
          · rfl
          · split <;> rfl
        · split <;> rfl
        · rfl
        · rfl
      have hAfter : (s.step (.message now connId clip)).copied.filesPdu = s.copied.filesPdu := hKeeps
      rw [hAfter]
      exact hBytes

/-- Two files in one directory. -/
def twoListed : Listing where
  metadata := fun path =>
    if path = "/d/a".toList then some (fileOf 3)
    else if path = "/d/b".toList then some (fileOf 1)
    else none
  readDir := fun _ => none

def aMoment : Moment where
  overflowChecks := true
  fs := twoOnDisk
  faults := noFaults

/-- A request for the first byte of the first file. -/
def firstByte : ContentsRequest where
  streamId := 7
  listIndex := 0
  dwFlags := 2
  nPositionLow := 0
  nPositionHigh := 0
  cbRequested := 1
  haveClipDataId := false
  clipDataId := 0

/-- One file is copied and a peer fetches the list. -/
def fetchOne : List ClipEvent :=
  [.sync twoListed 1 ["/d/a".toList], .message aMoment 1 (.formatDataRequest 0)]

def askOne : ClipEvent := .message aMoment 1 (.fileContentsRequest firstByte)

theorem fetched_fetchOne : (Trace.run Sender.step .new fetchOne).fetched 1 =
    some [.tryOpen "/d".toList "/d/a".toList (fileOf 3)] := by
  decide +kernel

/-- With the selection as it was the peer gets the byte it asks for. -/
theorem contents_after_fetch :
    Trace.Along (fun past event => ServesFetched past (Trace.run Sender.step .new past) event)
      (fetchOne ++ [askOne]) := by
  refine contents_of_fetched ((Trace.along_concat _ _).mpr ⟨?_, ?_⟩)
  · exact (Trace.along_concat [_] _).mpr ⟨(Trace.along_singleton _).mpr trivial, trivial⟩
  · intro list file hFetched hFile found hFound
    have hList := Option.some.inj (hFetched.symm.trans fetched_fetchOne)
    subst hList
    have hSame : (Trace.run Sender.step .new fetchOne).copied.clip.fileList =
        [.tryOpen "/d".toList "/d/a".toList (fileOf 3)] := by
      decide +kernel
    rw [hSame] at hFound
    have hEq := Option.some.inj (hFound.symm.trans hFile)
    exact ⟨congrArg LocalFile.path hEq, fun _ => congrArg LocalFile.size hEq⟩

/-- Another file is copied before the peer asks, which then gets a byte of that one. -/
theorem new_selection_mixes :
    ¬ ∀ events, Trace.Along
      (fun past event => ServesFetched past (Trace.run Sender.step .new past) event) events := by
  intro hClaim
  let past := fetchOne ++ [.sync twoListed 1 ["/d/b".toList]]
  have hFetched : (Trace.run Sender.step .new past).fetched 1 =
      some [.tryOpen "/d".toList "/d/a".toList (fileOf 3)] := by
    decide +kernel
  have hSent : .fileContentsResponse 1 7 [4] ∈ (Trace.run Sender.step .new past).sent askOne := by
    decide +kernel
  have hServes := hClaim (past ++ [askOne]) past askOne [] rfl _ _ hFetched rfl 7 [4] hSent
  rcases hServes with ⟨hSize, -⟩ | ⟨-, node, hLed, hBytes⟩
  · exact absurd hSize (by decide)
  · obtain ⟨now, connId, clip, hMem, hNode⟩ := hLed
    have hFs : now.fs = twoOnDisk := by
      simp only [past, fetchOne, List.cons_append, List.nil_append, List.mem_cons,
        List.not_mem_nil, or_false, reduceCtorEq, false_or, ClipEvent.message.injEq] at hMem
      rcases hMem with ⟨rfl, -⟩ | ⟨rfl, -⟩ <;> rfl
    rw [hFs] at hNode
    have hFirst : twoOnDisk.node "/d/a".toList = some 0 := by decide
    obtain rfl : 0 = node := Option.some.inj (hFirst.symm.trans hNode)
    have hNot : ¬ [4] <:+: twoOnDisk.content 0 := by decide
    exact hNot hBytes

end HibtDesk.Clipboard
