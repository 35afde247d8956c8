import HibtDesk.Library.Growing
import HibtDesk.Library.Trace
import HibtDesk.Common.Options
import Mathlib.Data.List.Basic

/-! A recording is uploaded while it is made. Parts are sent as the file gets longer, and when
it is finished its head is sent once more, as it is written again at the end. -/
namespace HibtDesk.RecordUpload

open Growing Storage

def maxHeaderLen : Nat := 1024

/-- In milliseconds. -/
def shouldSendTime : Nat := 1000

def shouldSendSize : Nat := 1024 * 1024

/-- A request to the server, with the name of the file. -/
inductive Request where
  | new (file : String)
  | part (file : String) (offset : Nat) (body : Bytes)
  | tail (file : String) (body : Bytes)
  | remove (file : String)
  deriving DecidableEq, Repr

/-- What becomes of a request: whether the server takes it, and what comes back, which is nothing
or an HTTP response, with the keys of its body if that is a JSON object. -/
structure Answer where
  accepted : Bool
  response : Option (Option (List String))
  deriving DecidableEq, Repr

/-- The result of `RecordUploader::send`, which does not look at the status of the response. -/
def Answer.ok (answer : Answer) : Bool :=
  match answer.response with
  | none => false
  | some none => true
  | some (some keys) => !keys.contains "error"

structure RecordUploader where
  filepath : String
  filename : String
  uploadSize : Nat
  running : Bool
  lastSend : Nat
  deriving DecidableEq, Repr

/-- The uploader, and what it has sent, with whether the server accepted it. -/
structure Session where
  uploader : RecordUploader
  sent : List (Request × Bool)
  deriving DecidableEq, Repr

/-- Nothing has been sent yet. -/
def Session.start (uploader : RecordUploader) : Session := ⟨uploader, []⟩

/-- What happens while a part is sent. The file is looked at, then it is read, each read at a
time and with room for some bytes, and `now` and `sentAt` are the times before and after. -/
structure FrameEnv where
  now : Nat
  opened : Bool
  metadata : Bool
  metadataAt : Nat
  seek : Bool
  reads : List (Nat × Nat)
  answer : Answer
  sentAt : Nat
  later : ∀ read ∈ reads, metadataAt ≤ read.1
  room : ∀ read ∈ reads, 0 < read.2

structure TailEnv where
  opened : Bool
  read : Bool
  readAt : Nat
  answer : Answer

inductive Event where
  | newFile (filepath : String) (now : Nat) (answer : Answer)
  | newFrame (env : FrameEnv)
  | writeTail (frame : FrameEnv) (env : TailEnv)
  | removeFile (answer : Answer)

/-- What a recorder tells of one file. -/
def recording (filepath : String) (now : Nat) (answer : Answer) (frames : List FrameEnv) (frame : FrameEnv)
    (env : TailEnv) : List Event :=
  .newFile filepath now answer :: (frames.map .newFrame ++ [.writeTail frame env])

/-- `RecordUploader::send`. -/
def send (request : Request) (answer : Answer) (s : Session) : Session :=
  { s with sent := s.sent ++ [(request, answer.accepted)] }

section Uploader
variable (fileName : String → Option String) (file : History UInt8 maxHeaderLen)

/-- The result tells whether it went well. `fileName` is `Path::file_name` of the platform. -/
def handleNewFile (filepath : String) (now : Nat) (answer : Answer) (s : Session) : Session × Bool :=
  match fileName filepath with
  | some filename =>
      let uploader : RecordUploader := { filepath, filename, uploadSize := 0, running := true, lastSend := now }
      (send (.new filename) answer { s with uploader }, answer.ok)
  | none => (s, false)

def handleFrame (flush : Bool) (env : FrameEnv) (s : Session) : Session × Bool :=
  if !flush && decide (env.now - s.uploader.lastSend < shouldSendTime) then (s, true)
  else if env.opened && env.metadata then
    let len := (file.content env.metadataAt).length
    if len ≤ s.uploader.uploadSize then (s, true)
    else if !flush && decide (len - s.uploader.uploadSize < shouldSendSize) then (s, true)
    else if env.seek then
      match file.readToEnd s.uploader.uploadSize env.reads with
      | some buf =>
          let s := send (.part s.uploader.filename s.uploader.uploadSize buf) env.answer s
          if env.answer.ok then
            ({ s with uploader := { s.uploader with uploadSize := len, lastSend := env.sentAt } }, true)
          else (s, false)
      | none => (s, false)
    else (s, false)
  else (s, false)

def handleTail (frame : FrameEnv) (env : TailEnv) (s : Session) : Session × Bool :=
  let flushed := handleFrame file true frame s
  if flushed.2 then
    if env.opened && env.read then
      let buf := (file.content env.readAt).take maxHeaderLen
      (send (.tail flushed.1.uploader.filename buf) env.answer flushed.1, env.answer.ok)
    else (flushed.1, false)
  else (flushed.1, false)

def handleRemove (answer : Answer) (s : Session) : Session × Bool :=
  (send (.remove s.uploader.filename) answer s, answer.ok)

/-- After an error the uploader does nothing until the next file. -/
def settle (result : Session × Bool) : Session :=
  if result.2 then result.1
  else { result.1 with uploader := { result.1.uploader with running := false } }

/-- A round of the loop of `run`. -/
def step (s : Session) : Event → Session
  | .newFile filepath now answer => settle (handleNewFile fileName filepath now answer s)
  | .newFrame env => if s.uploader.running then settle (handleFrame file false env s) else s
  | .writeTail frame env => if s.uploader.running then settle (handleTail file frame env s) else s
  | .removeFile answer => if s.uploader.running then settle (handleRemove answer s) else s

/-- A part goes out at the frame. -/
def sendsPart (flush : Bool) (env : FrameEnv) (s : Session) : Bool :=
  let len := (file.content env.metadataAt).length
  !(!flush && decide (env.now - s.uploader.lastSend < shouldSendTime)) && (env.opened && env.metadata) &&
    !decide (len ≤ s.uploader.uploadSize) &&
    !(!flush && decide (len - s.uploader.uploadSize < shouldSendSize)) && env.seek &&
    (file.readToEnd s.uploader.uploadSize env.reads).isSome

/-- A part that the server does not take is not taken for accepted. -/
def Told (s : Session) : Event → Prop
  | .newFrame env => sendsPart file false env s = true → env.answer.ok = true → env.answer.accepted = true
  | .writeTail frame _ =>
      sendsPart file true frame s = true → frame.answer.ok = true → frame.answer.accepted = true
  | .newFile .. | .removeFile _ => True

/-- The file is there and is read to its end, and the server does not complain. -/
structure FrameEnv.Smooth (env : FrameEnv) : Prop where
  opened : env.opened = true
  metadata : env.metadata = true
  seek : env.seek = true
  read : ∀ pos, (file.readToEnd pos env.reads).isSome = true
  ok : env.answer.ok = true

def Event.Smooth : Event → Prop
  | .newFile filepath _ answer => (fileName filepath).isSome = true ∧ answer.ok = true
  | .newFrame env => env.Smooth file
  | .writeTail frame env => frame.Smooth file ∧ env.opened = true ∧ env.read = true
  | .removeFile answer => answer.ok = true

end Uploader

/-- What the server has of the file: the bodies that it accepted, each written at its offset. -/
def received (sent : List (Request × Bool)) : Bytes :=
  sent.foldl
    (fun content entry =>
      match entry with
      | (.part _ offset body, true) => overwrite 0 content offset body
      | (.tail _ body, true) => overwrite 0 content 0 body
      | _ => content) []

def NoTail (sent : List (Request × Bool)) : Prop :=
  ∀ name body ok, (Request.tail name body, ok) ∉ sent

/-- The bytes before `size` were all in parts that the server accepted. -/
def CoversUpTo (sent : List (Request × Bool)) (size : Nat) : Prop :=
  ∀ i < size, ∃ name offset body, (Request.part name offset body, true) ∈ sent ∧
    offset ≤ i ∧ i < offset + body.length

/-- Every part that was sent was accepted. -/
def AllAccepted (sent : List (Request × Bool)) : Prop :=
  ∀ name offset body accepted, (Request.part name offset body, accepted) ∈ sent → accepted = true

/-- The upload so far: the server has a copy that lags behind. -/
structure Lagging (file : History UInt8 maxHeaderLen) (s : Session) : Prop where
  accepted : AllAccepted s.sent
  noTail : NoTail s.sent
  grows : Grows maxHeaderLen (received s.sent) file.whole
  size : s.uploader.uploadSize ≤ (received s.sent).length
  covers : CoversUpTo s.sent s.uploader.uploadSize

/-- Either the upload goes on, or it was given up before a tail was sent. -/
def Going (file : History UInt8 maxHeaderLen) (s : Session) : Prop :=
  NoTail s.sent ∧
    (s.uploader.running = true → Lagging file s)

section Spec
variable {fileName : String → Option String} {file : History UInt8 maxHeaderLen}

theorem received_concat (sent : List (Request × Bool)) (entry : Request × Bool) :
    received (sent ++ [entry]) =
      match entry with
      | (.part _ offset body, true) => overwrite 0 (received sent) offset body
      | (.tail _ body, true) => overwrite 0 (received sent) 0 body
      | _ => received sent := by
  unfold received
  rw [List.foldl_append]
  rfl

theorem noTail_send {s : Session} {request : Request} {answer : Answer}
    (hBefore : NoTail s.sent) (hRequest : ∀ name body, request ≠ .tail name body) :
    NoTail (send request answer s).sent := by
  intro name body ok hMem
  rcases List.mem_append.mp hMem with hOld | hNew
  · exact hBefore name body ok hOld
  · exact hRequest name body (congrArg Prod.fst (List.mem_singleton.mp hNew)).symm

/-- An accepted part brings the copy on, up to the length that was looked up before. -/
theorem Lagging.part {s : Session} (hLagging : Lagging file s) {env : FrameEnv} {buf : Bytes} {time : Nat}
    (hRead : file.readToEnd s.uploader.uploadSize env.reads = some buf) :
    Lagging file
      { uploader := { s.uploader with uploadSize := (file.content env.metadataAt).length, lastSend := time }
        sent := s.sent ++ [(.part s.uploader.filename s.uploader.uploadSize buf, true)] } := by
  have hInside : s.uploader.uploadSize ≤ file.whole.length :=
    Nat.le_trans hLagging.size hLagging.grows.length_le
  obtain ⟨hReach, hEnd, hSame⟩ := file.readToEnd_spec env.later env.room hInside hRead
  have hReceived := received_concat s.sent (.part s.uploader.filename s.uploader.uploadSize buf, true)
  dsimp only at hReceived
  refine ⟨?_, ?_, ?_, ?_, ?_⟩
  · intro name offset body accepted hMem
    rcases List.mem_append.mp hMem with hOld | hNew
    · exact hLagging.accepted name offset body accepted hOld
    · exact congrArg Prod.snd (List.mem_singleton.mp hNew)
  · exact @noTail_send s _ ⟨true, none⟩ hLagging.noTail fun _ _ hSame => by cases hSame
  · rw [hReceived]
    exact hLagging.grows.written 0 hLagging.size hEnd hSame
  · rw [hReceived, length_overwrite 0 _ buf hLagging.size]
    exact Nat.le_trans hReach (Nat.le_max_right _ _)
  · intro i hLess
    by_cases hOld : i < s.uploader.uploadSize
    · obtain ⟨name, offset, body, hMem, hIn⟩ := hLagging.covers i hOld
      exact ⟨name, offset, body, List.mem_append_left _ hMem, hIn⟩
    · refine ⟨s.uploader.filename, s.uploader.uploadSize, buf,
        List.mem_append_right _ (List.mem_singleton.mpr rfl), by omega, ?_⟩
      dsimp only at hLess
      omega

/-- After a frame the copy still lags behind, or the upload has failed; and if all was to be
sent, then the copy goes as far as the file did. -/
theorem handleFrame_spec {s : Session} (hLagging : Lagging file s) (flush : Bool) (env : FrameEnv)
    (hTold : sendsPart file flush env s = true → env.answer.ok = true → env.answer.accepted = true) :
    NoTail (handleFrame file flush env s).1.sent ∧
      ((handleFrame file flush env s).2 = true →
        Lagging file (handleFrame file flush env s).1 ∧
          (handleFrame file flush env s).1.uploader.running = s.uploader.running ∧
          (flush = true → (file.content env.metadataAt).length ≤
            (handleFrame file flush env s).1.uploader.uploadSize)) := by
  unfold handleFrame
  split
  · rename_i hEarly
    refine ⟨hLagging.noTail, fun _ => ⟨hLagging, rfl, fun hFlush => ?_⟩⟩
    rw [hFlush] at hEarly
    cases hEarly
  · rename_i hDue
    split
    · rename_i hOpened
      dsimp only
      split
      · rename_i hNothing
        exact ⟨hLagging.noTail, fun _ => ⟨hLagging, rfl, fun _ => hNothing⟩⟩
      · split
        · rename_i hSmall
          refine ⟨hLagging.noTail, fun _ => ⟨hLagging, rfl, fun hFlush => ?_⟩⟩
          rw [hFlush] at hSmall
          cases hSmall
        · rename_i hSome hLarge
          split
          · rename_i hSeek
            split
            · rename_i buf hRead
              have hNoTail : NoTail
                  (send (.part s.uploader.filename s.uploader.uploadSize buf) env.answer s).sent :=
                noTail_send hLagging.noTail fun _ _ hSame => by cases hSame
              split
              · rename_i hOk
                have hAccepted : env.answer.accepted = true := by
                  refine hTold ?_ hOk
                  unfold sendsPart
                  simp only [hDue, hOpened, hSome, hLarge, hSeek, hRead, decide_false, Option.isSome_some,
                    Bool.not_false, Bool.and_true]
                refine ⟨hNoTail, fun _ => ⟨?_, rfl, fun _ => Nat.le_refl _⟩⟩
                have hPart := @Lagging.part _ _ hLagging _ _ env.sentAt hRead
                rw [← hAccepted] at hPart
                exact hPart
              · exact ⟨hNoTail, fun hFailed => by cases hFailed⟩
            · exact ⟨hLagging.noTail, fun hFailed => by cases hFailed⟩
          · exact ⟨hLagging.noTail, fun hFailed => by cases hFailed⟩
    · exact ⟨hLagging.noTail, fun hFailed => by cases hFailed⟩

/-- A frame at which nothing goes wrong. -/
theorem FrameEnv.Smooth.handleFrame {env : FrameEnv} (hSmooth : env.Smooth file) (flush : Bool) (s : Session) :
    (handleFrame file flush env s).2 = true ∧
      (handleFrame file flush env s).1.uploader.running = s.uploader.running := by
  obtain ⟨hOpened, hMetadata, hSeek, hRead, hOk⟩ := hSmooth
  obtain ⟨buf, hBuf⟩ := Option.isSome_iff_exists.mp (hRead s.uploader.uploadSize)
  unfold RecordUpload.handleFrame
  simp only [hOpened, hMetadata, hSeek, hBuf, hOk, Bool.and_self, if_true]
  split_ifs
  all_goals exact ⟨rfl, rfl⟩

theorem going_newFile (uploader : RecordUploader) (filepath : String) (now : Nat) (answer : Answer) :
    Going file (step fileName file (.start uploader) (.newFile filepath now answer)) := by
  unfold step handleNewFile
  dsimp only
  cases fileName filepath with
  | none =>
      exact ⟨(fun _ _ _ hMem => by cases hMem), (fun hRunning => by cases hRunning)⟩
  | some filename =>
      have hNoTail : NoTail [((.new filename : Request), answer.accepted)] := by
        intro name body ok hMem
        cases List.mem_singleton.mp hMem
      dsimp only
      rw [settle]
      cases hOk : answer.ok with
      | false => exact ⟨hNoTail, fun hRunning => by cases hRunning⟩
      | true =>
          refine ⟨hNoTail, fun _ => ⟨?_, hNoTail, grows_nil _ _, Nat.le_refl _, ?_⟩⟩
          · intro name offset body accepted hMem
            cases List.mem_singleton.mp hMem
          · exact fun i hLess => absurd hLess (Nat.not_lt_zero i)

theorem going_newFrame {s : Session} (hGoing : Going file s) (env : FrameEnv)
    (hTold : Told file s (.newFrame env)) :
    Going file (step fileName file s (.newFrame env)) := by
  unfold step
  dsimp only
  split
  · rename_i hRunning
    obtain ⟨hNoTail, hFine⟩ := handleFrame_spec (hGoing.2 hRunning) false env hTold
    unfold settle
    split
    · rename_i hOk
      exact ⟨hNoTail, fun _ => (hFine hOk).1⟩
    · exact ⟨hNoTail, fun hStill => by cases hStill⟩
  · exact hGoing

theorem going_frames {s : Session} (hGoing : Going file s) (frames : List FrameEnv)
    (hTold : Trace.Always (step fileName file) (Told file) s (frames.map .newFrame)) :
    Going file (Trace.run (step fileName file) s (frames.map .newFrame)) := by
  induction frames generalizing s with
  | nil => exact hGoing
  | cons env rest ih => exact ih (going_newFrame hGoing env hTold.1) hTold.2

theorem running_frames {s : Session} (hRunning : s.uploader.running = true) {frames : List FrameEnv}
    (hSmooth : ∀ env ∈ frames, env.Smooth file) :
    (Trace.run (step fileName file) s (frames.map .newFrame)).uploader.running = true := by
  induction frames generalizing s with
  | nil => exact hRunning
  | cons env rest ih =>
      obtain ⟨hOk, hSame⟩ := (hSmooth env List.mem_cons_self).handleFrame false s
      refine ih ?_ fun later hLater => hSmooth later (List.mem_cons_of_mem env hLater)
      rw [step, if_pos hRunning, settle, if_pos hOk, hSame]
      exact hRunning

/-- A tail is sent when all of the file has been accepted, and completes the copy. -/
structure TailRight (file : History UInt8 maxHeaderLen) (sent : List (Request × Bool)) : Prop where
  before : ∀ past name body ok rest, sent = past ++ (Request.tail name body, ok) :: rest →
    AllAccepted past ∧ CoversUpTo past file.whole.length
  whole : ∀ name body, (Request.tail name body, true) ∈ sent → received sent = file.whole

theorem tailRight_of_noTail {sent : List (Request × Bool)}
    (hNoTail : NoTail sent) : TailRight file sent where
  before past name body ok rest hSplit := by
    refine absurd ?_ (hNoTail name body ok)
    rw [hSplit]
    exact List.mem_append_right _ List.mem_cons_self
  whole name body hMem := absurd hMem (hNoTail name body true)

theorem tailRight_concat {s : Session} (hLagging : Lagging file s)
    (hFull : file.whole.length ≤ s.uploader.uploadSize) (name : String) (ok : Bool) :
    TailRight file (s.sent ++ [(.tail name (file.whole.take maxHeaderLen), ok)]) where
  before past name' body ok' rest hSplit := by
    rcases List.eq_nil_or_concat' rest with rfl | ⟨front, last, rfl⟩
    · obtain ⟨rfl, -⟩ := List.append_inj' hSplit rfl
      exact ⟨hLagging.accepted, fun i hLess => hLagging.covers i (by omega)⟩
    · have hSent : s.sent = past ++ (.tail name' body, ok') :: front := by
        rw [← List.cons_append, ← List.append_assoc] at hSplit
        exact (List.append_inj' hSplit rfl).1
      refine absurd ?_ (hLagging.noTail name' body ok')
      rw [hSent]
      exact List.mem_append_right _ List.mem_cons_self
  whole name' body hMem := by
    have hAccepted : ok = true := by
      rcases List.mem_append.mp hMem with hOld | hNew
      · exact absurd hOld (hLagging.noTail name' body true)
      · exact (congrArg Prod.snd (List.mem_singleton.mp hNew)).symm
    subst hAccepted
    rw [received_concat]
    refine hLagging.grows.headWritten 0 (Nat.le_antisymm hLagging.grows.length_le ?_)
    exact Nat.le_trans hFull hLagging.size

theorem sent_settle (result : Session × Bool) : (settle result).sent = result.1.sent := by
  unfold settle
  split <;> rfl

theorem tailRight_writeTail {s : Session} (hGoing : Going file s) (frame : FrameEnv) (env : TailEnv)
    (hTold : Told file s (.writeTail frame env))
    (hFrame : file.finished ≤ frame.metadataAt) (hTail : file.finished ≤ env.readAt) :
    TailRight file (step fileName file s (.writeTail frame env)).sent := by
  unfold step
  dsimp only
  split
  · rename_i hRunning
    obtain ⟨hNoTail, hFine⟩ := handleFrame_spec (hGoing.2 hRunning) true frame hTold
    rw [sent_settle]
    unfold handleTail
    dsimp only
    split
    · rename_i hOk
      obtain ⟨hLagging, -, hFlushed⟩ := hFine hOk
      have hFull := hFlushed rfl
      rw [file.final _ hFrame] at hFull
      split
      · have hRight := tailRight_concat hLagging hFull
          (handleFrame file true frame s).1.uploader.filename env.answer.accepted
        unfold History.whole at hRight
        rw [← file.final _ hTail] at hRight
        exact hRight
      · exact tailRight_of_noTail hNoTail
    · exact tailRight_of_noTail hNoTail
  · exact tailRight_of_noTail hGoing.1

end Spec

/-- What the server has of a recording is the file, and it gets the tail only after the rest, if
no part that it does not take is taken for accepted. The tail is sent if nothing goes wrong. -/
theorem uploaded_is_local (fileName : String → Option String) (file : History UInt8 maxHeaderLen)
    (uploader : RecordUploader) (filepath : String) (now : Nat) (answer : Answer) (frames : List FrameEnv)
    (frame : FrameEnv) (env : TailEnv) (hFrame : file.finished ≤ frame.metadataAt)
    (hTail : file.finished ≤ env.readAt)
    (hTold : Trace.Always (step fileName file) (Told file) (.start uploader)
      (recording filepath now answer frames frame env)) :
    let events := recording filepath now answer frames frame env
    let sent := (Trace.run (step fileName file) (.start uploader) events).sent
    TailRight file sent ∧
      ((∀ event ∈ events, event.Smooth fileName file) →
        ∃ name body, (Request.tail name body, env.answer.accepted) ∈ sent) := by
  intro events sent
  obtain ⟨-, hRest⟩ := hTold
  obtain ⟨hFrames, hLast, -⟩ := (Trace.always_append _ _ (frames.map Event.newFrame) _).mp hRest
  have hSent : sent = (step fileName file (Trace.run (step fileName file)
      (step fileName file (.start uploader) (.newFile filepath now answer))
      (frames.map .newFrame)) (.writeTail frame env)).sent :=
    congrArg Session.sent (Trace.run_append ..)
  rw [hSent]
  constructor
  · exact tailRight_writeTail (going_frames (going_newFile uploader filepath now answer) frames hFrames)
      frame env hLast hFrame hTail
  · intro hSmooth
    obtain ⟨hName, hOk⟩ := hSmooth (.newFile filepath now answer) List.mem_cons_self
    obtain ⟨hFlush, hOpened, hRead⟩ := hSmooth (.writeTail frame env) (by simp [events, recording])
    have hStarted : (step fileName file (.start uploader)
        (.newFile filepath now answer)).uploader.running = true := by
      obtain ⟨filename, hFilename⟩ := Option.isSome_iff_exists.mp hName
      rw [step, handleNewFile, hFilename]
      dsimp only
      rw [settle, if_pos hOk]
      rfl
    have hRunning := @running_frames fileName file _ hStarted frames fun part hPart =>
      hSmooth (.newFrame part) (by simp [events, recording, hPart])
    generalize Trace.run (step fileName file) _ (frames.map .newFrame) = s at hRunning
    obtain ⟨hDone, -⟩ := hFlush.handleFrame true s
    refine ⟨(handleFrame file true frame s).1.uploader.filename,
      (file.content env.readAt).take maxHeaderLen, ?_⟩
    have hGoes : handleTail file frame env s = (send (.tail (handleFrame file true frame s).1.uploader.filename
        ((file.content env.readAt).take maxHeaderLen)) env.answer (handleFrame file true frame s).1,
        env.answer.ok) := by
      simp only [handleTail, hDone, hOpened, hRead, Bool.and_self, if_true]
    rw [step, if_pos hRunning, sent_settle, hGoes]
    exact List.mem_append_right _ List.mem_cons_self

/-- Two bytes to which a third comes, and then the first is written again. -/
def shortFile : History UInt8 maxHeaderLen where
  content time := if time < 3 then [1, 2] else if time < 5 then [1, 2, 3] else [9, 2, 3]
  finished := 5
  grows earlier later hLater := by
    refine ⟨?_, fun i hHead hLess => ?_⟩
    · split_ifs <;> simp <;> omega
    · exfalso
      unfold maxHeaderLen at hHead
      split_ifs at hLess <;> simp at hLess <;> omega
  final time hTime := by
    rw [if_neg (by omega), if_neg (by omega)]
    rfl

def flushing (answer : Answer) : FrameEnv where
  now := 5
  opened := true
  metadata := true
  metadataAt := 5
  seek := true
  reads := [(5, 2), (6, 2), (7, 2)]
  answer := answer
  sentAt := 8
  later := by decide
  room := by decide

/-- The server takes what it gets and answers with an empty object. -/
def taken : Answer := ⟨true, some (some [])⟩

theorem shortFile_uploaded :
    let events := recording "a.webm" 0 taken [] (flushing taken) ⟨true, true, 9, taken⟩
    let sent := (Trace.run (step some shortFile) (.start ⟨"", "", 0, false, 0⟩) events).sent
    TailRight shortFile sent ∧
      ((∀ event ∈ events, event.Smooth some shortFile) →
        ∃ name body, (Request.tail name body, true) ∈ sent) :=
  uploaded_is_local some shortFile ⟨"", "", 0, false, 0⟩ "a.webm" 0 taken [] (flushing taken)
    ⟨true, true, 9, taken⟩ (by decide) (by decide) ⟨trivial, fun _ _ => rfl, trivial⟩

/-- A part that is refused with a page of text is taken for accepted, and the tail follows. -/
theorem refused_part_is_passed_over : ¬ TailRight shortFile
    (Trace.run (step some shortFile) (.start ⟨"", "", 0, false, 0⟩)
      (recording "a.webm" 0 taken [] (flushing ⟨false, some none⟩) ⟨true, true, 9, taken⟩)).sent := by
  intro hRight
  have hAll := (hRight.before [(.new "a.webm", true), (.part "a.webm" 0 [9, 2, 3], false)] "a.webm" [9, 2, 3]
    true [] (by decide)).1
  exact absurd (hAll "a.webm" 0 [9, 2, 3] false (by decide)) (by decide)

end HibtDesk.RecordUpload
