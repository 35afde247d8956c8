import HibtDesk.Video.CodecNegotiation
import Mathlib.Algebra.Order.Ring.Int
import Mathlib.Data.List.ReduceOption

/-! What is recorded of the pictures. The recorder goes on with its file as long as format
and size stay and the time does not go backward, and begins another one otherwise. A file
that nothing was written to, or that is too short, is removed when it is closed. -/
namespace HibtDesk.Video.Record

open Codec (CodecFormat)

/-- `MIN_SECS`. -/
def minSecs : Nat := 1

structure RecorderContext2 where
  filename : String
  width : Nat
  height : Nat
  format : CodecFormat
  deriving DecidableEq, Repr

/-- `pts` is an `i64`. -/
structure EncodedVideoFrame (Data : Type) where
  data : Data
  key : Bool
  pts : Int
  deriving DecidableEq, Repr

/-- `video_frame::Union`. The colors are not encoded. -/
inductive VideoFrame (Data : Type) where
  | vp8s (frames : List (EncodedVideoFrame Data))
  | vp9s (frames : List (EncodedVideoFrame Data))
  | av1s (frames : List (EncodedVideoFrame Data))
  | h264s (frames : List (EncodedVideoFrame Data))
  | h265s (frames : List (EncodedVideoFrame Data))
  | rgb
  | yuv

namespace VideoFrame
variable {Data : Type}

def format : VideoFrame Data → CodecFormat
  | vp8s _ => .vp8
  | vp9s _ => .vp9
  | av1s _ => .av1
  | h264s _ => .h264
  | h265s _ => .h265
  | rgb | yuv => .unknown

def frames : VideoFrame Data → List (EncodedVideoFrame Data)
  | vp8s frames | vp9s frames | av1s frames | h264s frames | h265s frames => frames
  | rgb | yuv => []

end VideoFrame

inductive RecordState where
  | newFile (filename : String)
  | newFrame
  | writeTail
  | removeFile
  deriving DecidableEq, Repr

/-- A frame as a muxer has taken it, with what `write_frame` was told. Only webm is told the
time. -/
structure Shot (Data : Type) where
  frame : EncodedVideoFrame Data
  width : Nat
  height : Nat
  format : CodecFormat
  timestamp : Option Nat
  deriving DecidableEq, Repr

/-- What comes of the calls, in order: messages, with the file that they are about, frames
that go to a file, and files that could not be created. -/
inductive Output (Data : Type) where
  | sent (file : Option Nat) (state : RecordState)
  | wrote (file : Nat) (shot : Shot Data)
  | failed
  deriving DecidableEq, Repr

/-- What the platform does when it is asked for the n-th time: the name of a file, if its
directory is there, whether the file could be created, and the seconds that passed. -/
structure Platform where
  hwcodec : Bool
  setFilename : Nat → Option String
  creates : Nat → Bool
  elapsedSecs : Nat → Nat

/-- `WebmRecorder`, or `HwRecorder`. -/
structure Inner where
  file : Nat
  webm : Bool
  ctx2 : RecorderContext2
  key : Bool
  written : Bool
  deriving DecidableEq, Repr

/-- A recorder, with how often the platform was asked, and what has come of it. -/
structure Recorder (Data : Type) where
  inner : Option Inner
  ctx2 : Option RecorderContext2
  pts : Option Int
  checkFailed : Bool
  asked : Nat
  log : List (Output Data)

namespace Recorder
variable {Data : Type} (platform : Platform)

def new : Recorder Data := ⟨none, none, none, false, 0, []⟩

def emit (r : Recorder Data) (output : Output Data) : Recorder Data := { r with log := r.log ++ [output] }

/-- The platform is asked. -/
def ask (r : Recorder Data) : Recorder Data := { r with asked := r.asked + 1 }

/-- `Recorder::send_state`. -/
def sendState (r : Recorder Data) (state : RecordState) : Recorder Data :=
  r.emit (.sent (r.inner.map Inner.file) state)

/-- `self.inner = None`, with the `drop` of what was there. -/
def dropInner (r : Recorder Data) : Recorder Data :=
  match r.inner with
  | none => r
  | some inner =>
      let short := !inner.written || decide (platform.elapsedSecs r.asked < minSecs)
      { r.ask.emit (.sent (some inner.file) (if short then .removeFile else .writeTail)) with inner := none }

/-- Another file is named, and the one before is closed. -/
def setContext (r : Recorder Data) (w h : Nat) (format : CodecFormat) : Recorder Data × Bool :=
  match platform.setFilename r.asked with
  | none => (r.ask.emit .failed, false)
  | some filename => ({ r.ask with ctx2 := some ⟨filename, w, h, format⟩ }.dropInner platform, true)

/-- A new file, and the message about it. -/
def opened (r : Recorder Data) (webm : Bool) (ctx2 : RecorderContext2) : Recorder Data :=
  { r.ask with inner := some ⟨r.asked, webm, ctx2, false, false⟩, pts := none }.sendState
    (.newFile ctx2.filename)

/-- `WebmRecorder::new` and `HwRecorder::new`, for the context that is set. -/
def create (r : Recorder Data) (ctx2 : RecorderContext2) (format : CodecFormat) : Recorder Data × Bool :=
  let webm := decide (format = .vp8 ∨ format = .vp9 ∨ format = .av1)
  if (webm || platform.hwcodec) && platform.creates r.asked then (r.opened webm ctx2, true)
  else (r.ask.emit .failed, false)

/-- The context is the one for such frames. -/
def sameContext (r : Recorder Data) (w h : Nat) (format : CodecFormat) : Bool :=
  r.ctx2.any fun ctx2 => ctx2.width = w ∧ ctx2.height = h ∧ ctx2.format = format

/-- `Recorder::check`. -/
def check (r : Recorder Data) (w h : Nat) (format : CodecFormat) : Recorder Data × Bool :=
  let (r, named) := if r.sameContext w h format then (r, true) else r.setContext platform w h format
  if !named then (r, false)
  else
    match r.ctx2 with
    | none => (r, false)
    | some ctx2 => if r.inner.isNone then r.create platform ctx2 format else (r, true)

/-- What became of `check`, where it is called. -/
def checked (r : Recorder Data) (w h : Nat) (format : CodecFormat) : Recorder Data × Bool :=
  let (r, ok) := r.check platform w h format
  (if ok then r else { r with checkFailed := true }, ok)

/-- `Recorder::check_pts`. -/
def checkPts (r : Recorder Data) (pts : Int) (key : Bool) (w h : Nat) (format : CodecFormat) :
    Recorder Data × Bool :=
  if r.pts.isNone && !key then (r, false)
  else
    let oldPts := r.pts
    let r := { r with pts := some pts }
    if oldPts.getD 0 > pts then
      let (r, ok) := { r.dropInner platform with ctx2 := none }.checked platform w h format
      (if ok then { r with pts := some pts } else r, ok)
    else (r, true)

/-- `frame.pts as u64 * 1_000_000`. -/
def timestamp (pts : Int) : Nat := (pts % 2 ^ 64).toNat * 1000000 % 2 ^ 64

/-- `write_video` of whatever there is. -/
def writeVideo (r : Recorder Data) (frame : EncodedVideoFrame Data) (w h : Nat) (format : CodecFormat) :
    Recorder Data :=
  match r.inner with
  | none => r
  | some inner =>
      let inner := { inner with key := inner.key || frame.key }
      if inner.key then
        let shot : Shot Data := ⟨frame, w, h, format, if inner.webm then some (timestamp frame.pts) else none⟩
        { r.emit (.wrote inner.file shot) with inner := some { inner with written := true } }
      else { r with inner := some inner }

/-- The loop over the frames of a message. -/
def writeFrames (w h : Nat) (format : CodecFormat) :
    List (EncodedVideoFrame Data) → Recorder Data → Recorder Data × Bool
  | [], r => (r, true)
  | frame :: rest, r =>
      let (r, ok) := r.checkPts platform frame.pts frame.key w h format
      if ok then writeFrames w h format rest (r.writeVideo frame w h format) else (r, false)

/-- `Recorder::write_frame`. -/
def writeFrame (r : Recorder Data) (frame : VideoFrame Data) (w h : Nat) : Recorder Data × Bool :=
  if r.checkFailed then (r, false)
  else if frame.format = .unknown then (r, false)
  else
    let (r, ok) := r.checked platform w h frame.format
    if !ok then (r, false)
    else
      let (r, ok) := r.writeFrames platform w h frame.format frame.frames
      if ok then (r.sendState .newFrame, true) else (r, false)

end Recorder

def Output.isFailed {Data : Type} : Output Data → Bool
  | failed => true
  | _ => false

/-- A file from its creation on: what went to it and the messages about it, and whether it
was removed in the end. -/
structure Recording (Data : Type) where
  file : Nat
  ctx2 : RecorderContext2
  body : List (Option (Shot Data))
  removed : Bool

namespace Recording
variable {Data : Type}

/-- The frames in the file. -/
def shots (recording : Recording Data) : List (Shot Data) := recording.body.reduceOption

def entry (file : Nat) : Option (Shot Data) → Output Data
  | some shot => .wrote file shot
  | none => .sent (some file) .newFrame

/-- The group of a file that is still open. -/
def opening (recording : Recording Data) : List (Output Data) :=
  .sent (some recording.file) (.newFile recording.ctx2.filename) :: recording.body.map (entry recording.file)

/-- The group of a file. -/
def log (recording : Recording Data) : List (Output Data) :=
  recording.opening ++
    [.sent (some recording.file) (if recording.removed then .removeFile else .writeTail)]

/-- One format and size, a key frame first, and the time does not go backward. -/
structure WellFormed (recording : Recording Data) : Prop where
  alike : ∀ shot ∈ recording.shots, shot.format = recording.ctx2.format ∧
    shot.width = recording.ctx2.width ∧ shot.height = recording.ctx2.height
  keyFirst : ∀ shot ∈ recording.shots.head?, shot.frame.key = true
  ordered : recording.shots.Pairwise fun a b => a.frame.pts ≤ b.frame.pts

theorem shots_append (draft : Recording Data) (shot : Shot Data) :
    shots { draft with body := draft.body ++ [some shot] } = draft.shots ++ [shot] := by
  simp [Recording.shots, List.reduceOption]

/-- A file that is well formed stays so with a frame like the others that is not before them,
if it is a key frame or not the first. -/
theorem WellFormed.append {draft : Recording Data} (hDraft : draft.WellFormed) {shot : Shot Data}
    (hAlike : shot.format = draft.ctx2.format ∧ shot.width = draft.ctx2.width ∧ shot.height = draft.ctx2.height)
    (hKey : draft.shots = [] → shot.frame.key = true)
    (hBefore : ∀ old ∈ draft.shots, old.frame.pts ≤ shot.frame.pts) :
    WellFormed { draft with body := draft.body ++ [some shot] } := by
  refine ⟨?_, ?_, ?_⟩
  · intro other hOther
    rw [shots_append] at hOther
    rcases List.mem_append.mp hOther with hOld | hNew
    · exact hDraft.alike other hOld
    · rw [List.mem_singleton.mp hNew]
      exact hAlike
  · rw [shots_append]
    cases hFirst : draft.shots with
    | nil =>
        intro first hHead
        obtain rfl := Option.some.inj hHead
        exact hKey hFirst
    | cons first rest =>
        have hHead := hDraft.keyFirst
        rw [hFirst] at hHead
        exact hHead
  · rw [shots_append]
    refine List.pairwise_append.mpr ⟨hDraft.ordered, List.pairwise_singleton _ _, ?_⟩
    intro old hOld new hNew
    rw [List.mem_singleton.mp hNew]
    exact hBefore old hOld

end Recording

/-- After a file could not be created no frame is written. -/
def SilentAfterFailure {Data : Type} (log : List (Output Data)) : Prop :=
  ∀ before after, log = before ++ .failed :: after → ∀ file shot, .wrote file shot ∉ after

section Log
variable {Data : Type}

/-- Without the files that could not be created. -/
def kept (log : List (Output Data)) : List (Output Data) := log.filter (!·.isFailed)

theorem kept_append (log rest : List (Output Data)) : kept (log ++ rest) = kept log ++ kept rest :=
  List.filter_append ..

theorem kept_failed (log : List (Output Data)) : kept (log ++ [.failed]) = kept log := by
  rw [kept_append]
  exact List.append_nil _

theorem kept_sent (log : List (Output Data)) (file : Option Nat) (state : RecordState) :
    kept (log ++ [.sent file state]) = kept log ++ [.sent file state] := kept_append ..

theorem clean_wrote {log : List (Output Data)} (hClean : .failed ∉ log) (file : Nat) (shot : Shot Data) :
    .failed ∉ log ++ [.wrote file shot] := by
  intro hMem
  rcases List.mem_append.mp hMem with hOld | hNew
  · exact hClean hOld
  · cases List.mem_singleton.mp hNew

theorem silentAfterFailure_of_clean {log : List (Output Data)} (hClean : .failed ∉ log) :
    SilentAfterFailure log := by
  rintro before after rfl
  exact absurd (List.mem_append_right before (List.mem_cons_self ..)) hClean

/-- Whatever is no frame may follow. -/
theorem SilentAfterFailure.concat {log : List (Output Data)} (hLog : SilentAfterFailure log)
    {output : Output Data} (hOutput : ∀ file shot, output ≠ .wrote file shot) :
    SilentAfterFailure (log ++ [output]) := by
  intro before after hSplit file shot hMem
  rcases List.eq_nil_or_concat after with rfl | ⟨middle, last, rfl⟩
  · exact List.not_mem_nil hMem
  · rw [List.concat_eq_append, ← List.cons_append, ← List.append_assoc] at hSplit
    obtain ⟨rfl, hLast⟩ := List.append_inj' hSplit rfl
    rw [List.concat_eq_append] at hMem
    rcases List.mem_append.mp hMem with hMiddle | hFound
    · exact hLog before middle rfl file shot hMiddle
    · rw [← hLast] at hFound
      exact hOutput file shot (List.mem_singleton.mp hFound).symm

end Log

namespace Recorder
variable {Data : Type} (platform : Platform)

/-- What the log falls into: the files that are closed, and the one that is open. -/
structure Shape (r : Recorder Data) (given : List (EncodedVideoFrame Data))
    (done : List (Recording Data)) (current : Option (Recording Data)) : Prop where
  log : kept r.log = done.flatMap Recording.log ++ (current.toList.flatMap Recording.opening)
  wellFormed : ∀ recording ∈ done ++ current.toList, recording.WellFormed
  files : (done ++ current.toList).Pairwise fun a b => a.file < b.file
  asked : ∀ recording ∈ done ++ current.toList, recording.file < r.asked
  shots : (((done ++ current.toList).flatMap Recording.shots).map Shot.frame).Sublist given
  inner : r.inner.map Inner.file = current.map Recording.file

/-- The recorder of a file knows the context and whether there was a key frame, and no frame
is later than the time of the last one. -/
structure Drawn (r : Recorder Data) (inner : Inner) (draft : Recording Data) : Prop where
  ctx2 : draft.ctx2 = inner.ctx2
  context : r.ctx2 = some inner.ctx2
  key : inner.key = false ↔ draft.shots = []
  past : ∀ shot ∈ draft.shots, ∃ pts, r.pts = some pts ∧ shot.frame.pts ≤ pts

/-- The invariant of a recorder that was given some frames. -/
def Ready (r : Recorder Data) (given : List (EncodedVideoFrame Data)) : Prop :=
  ∃ done current, Shape r given done current ∧
    ∀ inner draft, r.inner = some inner → current = some draft → Drawn r inner draft

section Shape
variable {r : Recorder Data} {given : List (EncodedVideoFrame Data)} {done : List (Recording Data)}
  {current : Option (Recording Data)}

theorem Shape.askFailed (h : Shape r given done current) :
    Shape (r.ask.emit .failed) given done current where
  log := (kept_failed _).trans h.log
  wellFormed := h.wellFormed
  files := h.files
  asked := fun recording hMem => Nat.lt_succ_of_lt (h.asked recording hMem)
  shots := h.shots
  inner := h.inner

/-- A file that is closed stays as it is, but for its removal. -/
theorem Shape.dropInner (h : Shape r given done current) :
    ∃ closed, Shape (r.dropInner platform) given closed none := by
  unfold Recorder.dropInner
  cases hInner : r.inner with
  | none =>
      have hNone : current = none := by
        have hFile := h.inner
        rw [hInner] at hFile
        exact Option.map_eq_none_iff.mp hFile.symm
      subst hNone
      exact ⟨done, h⟩
  | some inner =>
      obtain ⟨draft, rfl, hFile⟩ : ∃ draft, current = some draft ∧ draft.file = inner.file := by
        have hFile := h.inner
        rw [hInner] at hFile
        exact Option.map_eq_some_iff.mp hFile.symm
      dsimp only
      generalize (!inner.written || decide (platform.elapsedSecs r.asked < minSecs)) = short
      have hMembers : ∀ P : Recording Data → Prop, (∀ recording ∈ done ++ [draft], P recording) →
          P { draft with removed := short } → ∀ recording ∈ done ++ [{ draft with removed := short }] ++ [],
            P recording := by
        intro P hAll hLast recording hMem
        rw [List.append_nil] at hMem
        rcases List.mem_append.mp hMem with hDone | hDraft
        · exact hAll recording (List.mem_append_left _ hDone)
        · rw [List.mem_singleton.mp hDraft]
          exact hLast
      refine ⟨done ++ [{ draft with removed := short }], ?_, ?_, ?_, ?_, ?_, rfl⟩
      · refine (kept_sent _ _ _).trans ?_
        rw [show kept r.ask.log = _ from h.log]
        simp [Recording.log, Recording.opening, hFile]
      · exact hMembers _ h.wellFormed
          ⟨(h.wellFormed draft (by simp)).alike, (h.wellFormed draft (by simp)).keyFirst,
            (h.wellFormed draft (by simp)).ordered⟩
      · have hFiles := h.files
        simp only [Option.toList_some, List.pairwise_append] at hFiles ⊢
        simpa using hFiles
      · exact hMembers _ (fun recording hMem => Nat.lt_succ_of_lt (h.asked recording hMem))
          (Nat.lt_succ_of_lt (h.asked draft (by simp)))
      · have hShots := h.shots
        simpa [Recording.shots] using hShots

/-- A new file. -/
theorem Shape.opened (h : Shape r given done none) (webm : Bool) (ctx2 : RecorderContext2) :
    Shape (r.opened webm ctx2) given done (some ⟨r.asked, ctx2, [], false⟩) where
  log := by
    refine (kept_sent r.log _ _).trans ?_
    rw [h.log]
    simp [Recording.opening]
  wellFormed := by
    intro recording hMem
    rcases List.mem_append.mp hMem with hDone | hNew
    · exact h.wellFormed recording (List.mem_append_left _ hDone)
    · rw [List.mem_singleton.mp hNew]
      exact ⟨fun _ hShot => absurd hShot List.not_mem_nil, fun _ hShot => absurd hShot (Option.not_mem_none _),
        List.Pairwise.nil⟩
  files := by
    have hFiles := h.files
    rw [Option.toList_none, List.append_nil] at hFiles
    refine List.pairwise_append.mpr ⟨hFiles, List.pairwise_singleton _ _, ?_⟩
    intro old hOld new hNew
    rw [List.mem_singleton.mp hNew]
    exact h.asked old (List.mem_append_left _ hOld)
  asked := by
    intro recording hMem
    rcases List.mem_append.mp hMem with hDone | hNew
    · exact Nat.lt_succ_of_lt (h.asked recording (List.mem_append_left _ hDone))
    · rw [List.mem_singleton.mp hNew]
      exact Nat.lt_succ_self _
  shots := by simpa [Recording.shots, List.reduceOption_nil] using h.shots
  inner := rfl

variable {inner : Inner} {draft : Recording Data}

/-- What is added to the open file, if it stays well formed. -/
theorem Shape.extend (h : Shape r given done (some draft)) {next : Recorder Data}
    {frames : List (EncodedVideoFrame Data)} {entry : Option (Shot Data)}
    (hLog : next.log = r.log ++ [Recording.entry draft.file entry])
    (hAsked : next.asked = r.asked) (hInner : next.inner.map Inner.file = r.inner.map Inner.file)
    (hFormed : Recording.WellFormed { draft with body := draft.body ++ [entry] })
    (hFrames : (entry.toList.map Shot.frame).Sublist frames) :
    Shape next (given ++ frames) done (some { draft with body := draft.body ++ [entry] }) where
  log := by
    have hEntry : kept [Recording.entry draft.file entry] = [Recording.entry draft.file entry] := by
      cases entry <;> rfl
    rw [hLog, kept_append, hEntry, h.log]
    simp [Recording.opening]
  wellFormed := by
    intro recording hMem
    rcases List.mem_append.mp hMem with hDone | hDraft
    · exact h.wellFormed recording (List.mem_append_left _ hDone)
    · rw [List.mem_singleton.mp hDraft]
      exact hFormed
  files := by
    have hFiles := h.files
    simp only [Option.toList_some, List.pairwise_append] at hFiles ⊢
    simpa using hFiles
  asked := by
    intro recording hMem
    rw [hAsked]
    rcases List.mem_append.mp hMem with hDone | hDraft
    · exact h.asked recording (List.mem_append_left _ hDone)
    · rw [List.mem_singleton.mp hDraft]
      exact h.asked draft (by simp)
  shots := by
    have hBoth := h.shots.append hFrames
    rw [← List.map_append] at hBoth
    have hEntry : [entry].reduceOption = entry.toList := by
      cases entry <;> rfl
    simpa [Recording.shots, List.reduceOption_append, hEntry] using hBoth
  inner := hInner.trans h.inner

end Shape

/-- The context is the one for such frames. -/
def RecorderContext2.Fits (ctx2 : RecorderContext2) (w h : Nat) (format : CodecFormat) : Prop :=
  ctx2.width = w ∧ ctx2.height = h ∧ ctx2.format = format

theorem dropInner_inner (r : Recorder Data) : (r.dropInner platform).inner = none := by
  unfold dropInner
  split
  · assumption
  · rfl

theorem dropInner_ctx2 (r : Recorder Data) : (r.dropInner platform).ctx2 = r.ctx2 := by
  unfold dropInner
  split <;> rfl

/-- What `check` can do: nothing, where a file for such frames is open; fail to name a file; or
go on to create one, with the one before closed. -/
theorem check_cases (r : Recorder Data) (w h : Nat) (format : CodecFormat) :
    (r.check platform w h format = (r, true) ∧ r.inner ≠ none ∧
        ∃ ctx2, r.ctx2 = some ctx2 ∧ RecorderContext2.Fits ctx2 w h format) ∨
      r.check platform w h format = (r.ask.emit .failed, false) ∨
      ∃ next ctx2, next.inner = none ∧ next.ctx2 = some ctx2 ∧ RecorderContext2.Fits ctx2 w h format ∧
        (next = r ∨ ∃ context, next = { r.ask with ctx2 := context }.dropInner platform) ∧
        (r.check platform w h format = (next.ask.emit .failed, false) ∨
          ∃ webm, r.check platform w h format = (next.opened webm ctx2, true)) := by
  have hCreate : ∀ (next : Recorder Data) (ctx2 : RecorderContext2),
      next.create platform ctx2 format = (next.ask.emit .failed, false) ∨
        ∃ webm, next.create platform ctx2 format = (next.opened webm ctx2, true) := by
    intro next ctx2
    unfold create
    dsimp only
    split_ifs
    · exact Or.inr ⟨_, rfl⟩
    · exact Or.inl rfl
  unfold check
  by_cases hSame : r.sameContext w h format = true
  · obtain ⟨ctx2, hContext, hFits⟩ : ∃ ctx2, r.ctx2 = some ctx2 ∧ RecorderContext2.Fits ctx2 w h format := by
      unfold sameContext at hSame
      obtain ⟨ctx2, hContext, hFits⟩ := (Option.any_eq_true _ _).mp hSame
      exact ⟨ctx2, hContext, by simpa [RecorderContext2.Fits] using hFits⟩
    rw [if_pos hSame]
    dsimp only
    rw [hContext]
    dsimp only
    by_cases hNone : r.inner = none
    · refine Or.inr (Or.inr ⟨r, ctx2, hNone, hContext, hFits, Or.inl rfl, ?_⟩)
      simp only [hNone, Option.isNone_none, Bool.not_true, Bool.false_eq_true, if_true, if_false]
      exact hCreate r ctx2
    · refine Or.inl ⟨?_, hNone, ctx2, rfl, hFits⟩
      simp [hNone]
  · rw [if_neg hSame]
    unfold setContext
    cases hName : platform.setFilename r.asked with
    | none => exact Or.inr (Or.inl rfl)
    | some filename =>
        have hContext := dropInner_ctx2 platform { r.ask with ctx2 := some ⟨filename, w, h, format⟩ }
        have hNone := dropInner_inner platform { r.ask with ctx2 := some ⟨filename, w, h, format⟩ }
        refine Or.inr (Or.inr ⟨_, ⟨filename, w, h, format⟩, hNone, hContext, ⟨rfl, rfl, rfl⟩,
          Or.inr ⟨_, rfl⟩, ?_⟩)
        dsimp only
        rw [hContext]
        dsimp only
        rw [hNone]
        exact hCreate _ _

/-- The log with some messages more. -/
def Sends (log next : List (Output Data)) : Prop :=
  ∃ rest, next = log ++ rest ∧ ∀ output ∈ rest, ∃ file state, output = .sent file state

theorem Sends.clean {log next : List (Output Data)} (hSends : Sends log next) (hClean : .failed ∉ log) :
    .failed ∉ next := by
  obtain ⟨rest, rfl, hRest⟩ := hSends
  intro hMem
  rcases List.mem_append.mp hMem with hLog | hNew
  · exact hClean hLog
  · obtain ⟨file, state, hSent⟩ := hRest _ hNew
    cases hSent

theorem Sends.refl (log : List (Output Data)) : Sends log log :=
  ⟨[], (List.append_nil log).symm, fun _ hMem => absurd hMem List.not_mem_nil⟩

theorem Sends.sent {log next : List (Output Data)} (hSends : Sends log next) (file : Option Nat)
    (state : RecordState) : Sends log (next ++ [.sent file state]) := by
  obtain ⟨rest, rfl, hRest⟩ := hSends
  refine ⟨rest ++ [.sent file state], List.append_assoc .., fun output hMem => ?_⟩
  rcases List.mem_append.mp hMem with hOld | hNew
  · exact hRest output hOld
  · exact ⟨file, state, List.mem_singleton.mp hNew⟩

theorem Sends.silent {log next : List (Output Data)} (hSends : Sends log next)
    (hSilent : SilentAfterFailure log) : SilentAfterFailure next := by
  obtain ⟨rest, rfl, hRest⟩ := hSends
  induction rest using List.reverseRecOn with
  | nil => rwa [List.append_nil]
  | append_singleton rest output ih =>
      rw [← List.append_assoc]
      refine (ih fun output hMem => hRest output (List.mem_append_left _ hMem)).concat ?_
      rintro file shot rfl
      obtain ⟨_, _, hSent⟩ := hRest _ (List.mem_append_right _ (List.mem_singleton_self _))
      cases hSent

theorem dropInner_sends (r : Recorder Data) : Sends r.log (r.dropInner platform).log := by
  unfold dropInner
  split
  · exact Sends.refl _
  · exact (Sends.refl _).sent _ _

/-- A `check` that succeeds sends messages, and one that fails a failure after them. -/
theorem check_sends (r : Recorder Data) (w h : Nat) (format : CodecFormat) :
    ∃ next, Sends r.log next ∧ (r.check platform w h format).1.log =
      if (r.check platform w h format).2 then next else next ++ [.failed] := by
  rcases check_cases platform r w h format with
    ⟨hKept, -⟩ | hFailed | ⟨next, ctx2, -, -, -, hNext, hCreated⟩
  · rw [hKept]
    exact ⟨_, Sends.refl _, rfl⟩
  · rw [hFailed]
    exact ⟨_, Sends.refl _, rfl⟩
  · have hSends : Sends r.log next.log := by
      rcases hNext with rfl | ⟨context, rfl⟩
      · exact Sends.refl _
      · exact dropInner_sends platform { r.ask with ctx2 := context }
    rcases hCreated with hFailed | ⟨webm, hOpened⟩
    · rw [hFailed]
      exact ⟨_, hSends, rfl⟩
    · rw [hOpened]
      exact ⟨_, hSends.sent _ _, rfl⟩

section Ready
variable {r : Recorder Data} {given : List (EncodedVideoFrame Data)} {w h : Nat} {format : CodecFormat}

theorem Ready.askFailed (hReady : Ready r given) : Ready (r.ask.emit .failed) given := by
  obtain ⟨done, current, hShape, hDrawn⟩ := hReady
  refine ⟨done, current, hShape.askFailed, fun inner draft hInner hDraft => ?_⟩
  obtain ⟨hCtx2, hContext, hKey, hPast⟩ := hDrawn inner draft hInner hDraft
  exact ⟨hCtx2, hContext, hKey, hPast⟩

/-- Without a file the context and the time do not matter. -/
theorem Ready.dropInner (hReady : Ready r given) (context : Option RecorderContext2)
    (pts : Option Int) : Ready ({ r with ctx2 := context, pts := pts }.dropInner platform) given := by
  obtain ⟨done, current, hShape, -⟩ := hReady
  have hAny : Shape { r with ctx2 := context, pts := pts } given done current :=
    ⟨hShape.log, hShape.wellFormed, hShape.files, hShape.asked, hShape.shots, hShape.inner⟩
  obtain ⟨closed, hClosed⟩ := hAny.dropInner platform
  exact ⟨closed, none, hClosed, fun inner draft _ hDraft => absurd hDraft (Option.some_ne_none draft).symm⟩

theorem Ready.ask (hReady : Ready r given) : Ready r.ask given := by
  obtain ⟨done, current, hShape, hDrawn⟩ := hReady
  refine ⟨done, current, ⟨hShape.log, hShape.wellFormed, hShape.files, ?_, hShape.shots, hShape.inner⟩,
    fun inner draft hInner hDraft => ?_⟩
  · exact fun recording hMem => Nat.lt_succ_of_lt (hShape.asked recording hMem)
  · obtain ⟨hCtx2, hContext, hKey, hPast⟩ := hDrawn inner draft hInner hDraft
    exact ⟨hCtx2, hContext, hKey, hPast⟩

theorem Ready.opened (hReady : Ready r given) (hInner : r.inner = none) {ctx2 : RecorderContext2}
    (hContext : r.ctx2 = some ctx2) (webm : Bool) : Ready (r.opened webm ctx2) given := by
  obtain ⟨done, current, hShape, -⟩ := hReady
  obtain rfl : current = none := by
    have hFile := hShape.inner
    rw [hInner] at hFile
    exact Option.map_eq_none_iff.mp hFile.symm
  refine ⟨done, _, hShape.opened webm ctx2, fun inner draft hOpened hDraft => ?_⟩
  obtain rfl := Option.some.inj hOpened
  obtain rfl := Option.some.inj hDraft
  exact ⟨rfl, hContext, iff_of_true rfl rfl, fun shot hShot => absurd hShot List.not_mem_nil⟩

/-- `check` keeps the invariant, whether it succeeds or not. -/
theorem Ready.check (hReady : Ready r given) : Ready (r.check platform w h format).1 given := by
  rcases check_cases platform r w h format with
    ⟨hKept, -⟩ | hFailed | ⟨next, ctx2, hNone, hContext, -, hNext, hCreated⟩
  · rw [hKept]
    exact hReady
  · rw [hFailed]
    exact hReady.askFailed
  · have hReadyNext : Ready next given := by
      rcases hNext with rfl | ⟨context, rfl⟩
      · exact hReady
      · exact hReady.ask.dropInner platform context r.pts
    rcases hCreated with hFailed | ⟨webm, hOpened⟩
    · rw [hFailed]
      exact hReadyNext.askFailed
    · rw [hOpened]
      exact hReadyNext.opened hNone hContext webm

/-- After a successful `check` a file for such frames is open. -/
def Opened (r : Recorder Data) (w h : Nat) (format : CodecFormat) : Prop :=
  r.inner ≠ none ∧ ∃ ctx2, r.ctx2 = some ctx2 ∧ RecorderContext2.Fits ctx2 w h format

theorem check_opened (hOk : (r.check platform w h format).2 = true) :
    Opened (r.check platform w h format).1 w h format := by
  rcases check_cases platform r w h format with
    ⟨hKept, hOpened⟩ | hFailed | ⟨next, ctx2, hNone, hContext, hFits, hNext, hCreated⟩
  · rw [hKept]
    exact hOpened
  · rw [hFailed] at hOk
    exact absurd hOk Bool.false_ne_true
  · rcases hCreated with hFailed | ⟨webm, hOpened⟩
    · rw [hFailed] at hOk
      exact absurd hOk Bool.false_ne_true
    · rw [hOpened]
      exact ⟨Option.some_ne_none _, ctx2, hContext, hFits⟩

/-- Without a file, a successful `check` forgets the time. -/
theorem check_pts (hInner : r.inner = none) (hOk : (r.check platform w h format).2 = true) :
    (r.check platform w h format).1.pts = none := by
  rcases check_cases platform r w h format with
    ⟨-, hSome, -⟩ | hFailed | ⟨next, ctx2, -, -, -, -, hFailed | ⟨webm, hOpened⟩⟩
  · exact absurd hInner hSome
  · rw [hFailed] at hOk
    exact absurd hOk Bool.false_ne_true
  · rw [hFailed] at hOk
    exact absurd hOk Bool.false_ne_true
  · rw [hOpened]
    rfl

theorem Ready.mono {more : List (EncodedVideoFrame Data)} (hReady : Ready r given)
    (hMore : given.Sublist more) : Ready r more := by
  obtain ⟨done, current, hShape, hDrawn⟩ := hReady
  exact ⟨done, current, ⟨hShape.log, hShape.wellFormed, hShape.files, hShape.asked,
    hShape.shots.trans hMore, hShape.inner⟩, hDrawn⟩

theorem Ready.stop (hReady : Ready r given) : Ready { r with checkFailed := true } given := by
  obtain ⟨done, current, hShape, hDrawn⟩ := hReady
  refine ⟨done, current, ⟨hShape.log, hShape.wellFormed, hShape.files, hShape.asked, hShape.shots,
    hShape.inner⟩, fun inner draft hInner hDraft => ?_⟩
  obtain ⟨hCtx2, hContext, hKey, hPast⟩ := hDrawn inner draft hInner hDraft
  exact ⟨hCtx2, hContext, hKey, hPast⟩

/-- The time goes on. -/
theorem Ready.advance (hReady : Ready r given) {pts : Int} (hPts : ∀ old, r.pts = some old → old ≤ pts) :
    Ready { r with pts := some pts } given := by
  obtain ⟨done, current, hShape, hDrawn⟩ := hReady
  refine ⟨done, current, ⟨hShape.log, hShape.wellFormed, hShape.files, hShape.asked, hShape.shots,
    hShape.inner⟩, fun inner draft hInner hDraft => ?_⟩
  obtain ⟨hCtx2, hContext, hKey, hPast⟩ := hDrawn inner draft hInner hDraft
  refine ⟨hCtx2, hContext, hKey, fun shot hShot => ?_⟩
  obtain ⟨old, hOld, hLe⟩ := hPast shot hShot
  exact ⟨pts, rfl, hLe.trans (hPts old hOld)⟩

/-- A `newFrame` is about the file that is open. -/
theorem Ready.newFrame (hReady : Ready r given) (hInner : r.inner ≠ none) :
    Ready (r.sendState .newFrame) given := by
  obtain ⟨inner, hSome⟩ := Option.ne_none_iff_exists'.mp hInner
  obtain ⟨done, current, hShape, hDrawn⟩ := hReady
  obtain ⟨draft, rfl, hFile⟩ : ∃ draft, current = some draft ∧ draft.file = inner.file := by
    have hFile := hShape.inner
    rw [hSome] at hFile
    exact Option.map_eq_some_iff.mp hFile.symm
  have hShots : Recording.shots { draft with body := draft.body ++ [none] } = draft.shots := by
    simp [Recording.shots, List.reduceOption]
  have hDraft := hShape.wellFormed draft (by simp)
  have hNext : Shape (r.sendState .newFrame) (given ++ []) done
      (some { draft with body := draft.body ++ [none] }) := by
    refine hShape.extend ?_ rfl rfl ⟨?_, ?_, ?_⟩ (List.nil_sublist _)
    · unfold sendState emit Recording.entry
      rw [hSome, hFile]
      rfl
    · rw [hShots]
      exact hDraft.alike
    · rw [hShots]
      exact hDraft.keyFirst
    · rw [hShots]
      exact hDraft.ordered
  rw [List.append_nil] at hNext
  refine ⟨done, _, hNext, fun other drawn hOther hSome => ?_⟩
  obtain ⟨hCtx2, hContext, hKey, hPast⟩ := hDrawn other draft hOther rfl
  obtain rfl := Option.some.inj hSome
  exact ⟨hCtx2, hContext, by rw [hShots]; exact hKey, by rw [hShots]; exact hPast⟩

/-- A frame goes to the open file, or is passed over until there is a key frame. -/
theorem Ready.writeVideo (hReady : Ready r given) (frame : EncodedVideoFrame Data)
    (hOpened : Opened r w h format) (hPts : r.pts = some frame.pts) :
    Ready (r.writeVideo frame w h format) (given ++ [frame]) := by
  obtain ⟨hInner, context, hContext, hFits⟩ := hOpened
  obtain ⟨inner, hSome⟩ := Option.ne_none_iff_exists'.mp hInner
  obtain ⟨done, current, hShape, hDrawn⟩ := hReady
  obtain ⟨draft, rfl, hFile⟩ : ∃ draft, current = some draft ∧ draft.file = inner.file := by
    have hFile := hShape.inner
    rw [hSome] at hFile
    exact Option.map_eq_some_iff.mp hFile.symm
  obtain ⟨hCtx2, hKnown, hKey, hPast⟩ := hDrawn inner draft hSome rfl
  obtain rfl : context = inner.ctx2 := Option.some.inj (hContext.symm.trans hKnown)
  have hDraft := hShape.wellFormed draft (by simp)
  unfold Recorder.writeVideo
  rw [hSome]
  dsimp only
  by_cases hWrites : (inner.key || frame.key) = true
  · rw [if_pos hWrites]
    generalize hShot : Shot.mk frame w h format (if inner.webm then some (timestamp frame.pts) else none) = shot
    have hFrame : shot.frame = frame := by
      rw [← hShot]
    have hBefore : ∀ old ∈ draft.shots, old.frame.pts ≤ frame.pts := by
      intro old hOld
      obtain ⟨pts, hOldPts, hLe⟩ := hPast old hOld
      obtain rfl := Option.some.inj (hPts.symm.trans hOldPts)
      exact hLe
    refine ⟨done, some { draft with body := draft.body ++ [some shot] }, ?_, ?_⟩
    · refine hShape.extend ?_ rfl ?_ (hDraft.append ?_ ?_ ?_) ?_
      · rw [hFile]
        rfl
      · rw [hSome]
        rfl
      · rw [← hShot, hCtx2]
        exact ⟨hFits.2.2.symm, hFits.1.symm, hFits.2.1.symm⟩
      · intro hFirst
        rw [hFrame]
        rwa [hKey.mpr hFirst, Bool.false_or] at hWrites
      · rw [hFrame]
        exact hBefore
      · rw [Option.toList_some, List.map_singleton, hFrame]
    · intro other drawn hOther hSomeDraft
      obtain rfl := Option.some.inj hOther
      obtain rfl := Option.some.inj hSomeDraft
      refine ⟨hCtx2, hKnown, iff_of_false ?_ ?_, ?_⟩
      · rw [hWrites]
        exact Bool.true_eq_false.mp
      · rw [Recording.shots_append]
        exact List.append_ne_nil_of_right_ne_nil _ (List.cons_ne_nil _ _)
      · intro old hOld
        rw [Recording.shots_append] at hOld
        refine ⟨frame.pts, hPts, ?_⟩
        rcases List.mem_append.mp hOld with hOld | hNew
        · exact hBefore old hOld
        · rw [List.mem_singleton.mp hNew, hFrame]
  · have hNone := hWrites
    rw [Bool.or_eq_true, not_or] at hNone
    have hKeyFalse : inner.key = false := Bool.eq_false_of_not_eq_true hNone.1
    rw [if_neg hWrites]
    refine ⟨done, some draft, ⟨hShape.log, hShape.wellFormed, hShape.files, hShape.asked,
      hShape.shots.trans (List.sublist_append_left _ _), ?_⟩, ?_⟩
    · rw [← hShape.inner, hSome]
      rfl
    · intro other drawn hOther hSomeDraft
      obtain rfl := Option.some.inj hOther
      obtain rfl := Option.some.inj hSomeDraft
      refine ⟨hCtx2, hKnown, iff_of_true ?_ (hKey.mp hKeyFalse), hPast⟩
      exact Bool.eq_false_of_not_eq_true hWrites

theorem writeVideo_opened (hOpened : Opened r w h format) (frame : EncodedVideoFrame Data) :
    Opened (r.writeVideo frame w h format) w h format := by
  obtain ⟨hInner, hContext⟩ := hOpened
  unfold Recorder.writeVideo
  split
  · contradiction
  · dsimp only
    split_ifs <;> exact ⟨Option.some_ne_none _, hContext⟩

theorem writeVideo_clean (hClean : .failed ∉ r.log) (frame : EncodedVideoFrame Data) :
    .failed ∉ (r.writeVideo frame w h format).log := by
  unfold Recorder.writeVideo
  split
  · exact hClean
  · dsimp only
    split_ifs <;> first | exact hClean | exact clean_wrote hClean _ _

/-- The invariant between two calls. -/
structure Inv (r : Recorder Data) (given : List (EncodedVideoFrame Data)) : Prop where
  ready : Ready r given
  clean : r.checkFailed = false → .failed ∉ r.log
  silent : SilentAfterFailure r.log

theorem inv_of_clean (hReady : Ready r given) (hClean : .failed ∉ r.log) : Inv r given :=
  ⟨hReady, fun _ => hClean, silentAfterFailure_of_clean hClean⟩

/-- A file is created or one is open for such frames, or nothing more is to be written. -/
theorem checked_inv (hReady : Ready r given) (hClean : .failed ∉ r.log) :
    Inv (r.checked platform w h format).1 given ∧
      ((r.checked platform w h format).2 = true →
        (r.checked platform w h format).1 = (r.check platform w h format).1 ∧
          (r.check platform w h format).2 = true ∧ .failed ∉ (r.check platform w h format).1.log) := by
  obtain ⟨next, hSends, hLog⟩ := check_sends platform r w h format
  have hNext := hSends.clean hClean
  have hReadyNext := @Ready.check _ platform _ _ w h format hReady
  unfold checked
  dsimp only
  cases hOk : (r.check platform w h format).2 with
  | true =>
      rw [hOk, if_pos rfl] at hLog
      rw [← hLog] at hNext
      rw [if_pos rfl]
      exact ⟨inv_of_clean hReadyNext hNext, fun _ => ⟨rfl, rfl, hNext⟩⟩
  | false =>
      rw [hOk, if_neg Bool.false_ne_true] at hLog
      rw [if_neg Bool.false_ne_true]
      refine ⟨⟨hReadyNext.stop, fun hFalse => absurd hFalse Bool.true_eq_false.mp, ?_⟩,
        fun hTrue => absurd hTrue Bool.false_ne_true⟩
      show SilentAfterFailure (r.check platform w h format).1.log
      rw [hLog]
      exact (silentAfterFailure_of_clean hNext).concat fun _ _ hOutput => by cases hOutput

/-- The recorder without a file, once the time went backward. -/
theorem closed_ready (hReady : Ready r given) (hClean : .failed ∉ r.log) (pts : Int) :
    let closed : Recorder Data := { Recorder.dropInner platform { r with pts := some pts } with ctx2 := none }
    Ready closed given ∧ .failed ∉ closed.log ∧ closed.inner = none := by
  have hSame : ({ Recorder.dropInner platform { r with pts := some pts } with ctx2 := none } :
      Recorder Data) = Recorder.dropInner platform { r with ctx2 := none, pts := some pts } := by
    unfold Recorder.dropInner
    cases hInner : r.inner <;> rfl
  dsimp only
  rw [hSame]
  exact ⟨hReady.dropInner platform none (some pts), (dropInner_sends platform _).clean hClean,
    dropInner_inner platform _⟩

/-- What `check_pts` lets through can be written to the file that is open then. -/
theorem checkPts_inv (hReady : Ready r given) (hClean : .failed ∉ r.log) (hOpened : Opened r w h format)
    (pts : Int) (key : Bool) :
    Inv (r.checkPts platform pts key w h format).1 given ∧
      ((r.checkPts platform pts key w h format).2 = true →
        Ready (r.checkPts platform pts key w h format).1 given ∧
          .failed ∉ (r.checkPts platform pts key w h format).1.log ∧
          Opened (r.checkPts platform pts key w h format).1 w h format ∧
          (r.checkPts platform pts key w h format).1.pts = some pts) := by
  unfold checkPts
  by_cases hFirst : (r.pts.isNone && !key) = true
  · rw [if_pos hFirst]
    exact ⟨inv_of_clean hReady hClean, fun hTrue => absurd hTrue Bool.false_ne_true⟩
  rw [if_neg hFirst]
  dsimp only
  by_cases hBack : r.pts.getD 0 > pts
  · rw [if_pos hBack]
    have hClosed := closed_ready platform hReady hClean pts
    generalize ({ Recorder.dropInner platform { r with pts := some pts } with ctx2 := none } :
      Recorder Data) = closed at hClosed ⊢
    obtain ⟨hReadyClosed, hCleanClosed, hNone⟩ := hClosed
    obtain ⟨hInv, hGoesOn⟩ := @checked_inv _ platform _ _ w h format hReadyClosed hCleanClosed
    cases hOk : (closed.checked platform w h format).2 with
    | false => exact ⟨hInv, fun hTrue => absurd hTrue Bool.false_ne_true⟩
    | true =>
        obtain ⟨hChecked, hCheck, hCleanNext⟩ := hGoesOn hOk
        have hForgot := check_pts platform hNone hCheck
        have hOpenedNext := check_opened platform hCheck
        rw [if_pos rfl]
        rw [← hChecked] at hForgot hOpenedNext hCleanNext
        have hLater : Ready { (closed.checked platform w h format).1 with pts := some pts } given := by
          refine hInv.ready.advance fun old hOld => ?_
          rw [hForgot] at hOld
          exact absurd hOld (Option.some_ne_none old).symm
        exact ⟨inv_of_clean hLater hCleanNext, fun _ => ⟨hLater, hCleanNext, hOpenedNext, rfl⟩⟩
  · rw [if_neg hBack]
    have hLater : Ready { r with pts := some pts } given := by
      refine hReady.advance fun old hOld => ?_
      rw [hOld] at hBack
      exact not_lt.mp hBack
    exact ⟨inv_of_clean hLater hClean, fun _ => ⟨hLater, hClean, hOpened, rfl⟩⟩

theorem Inv.mono {more : List (EncodedVideoFrame Data)} (hInv : Inv r given)
    (hMore : given.Sublist more) : Inv r more :=
  ⟨hInv.ready.mono hMore, hInv.clean, hInv.silent⟩

/-- The loop over the frames of a message. -/
theorem writeFrames_inv (frames : List (EncodedVideoFrame Data)) (hReady : Ready r given)
    (hClean : .failed ∉ r.log) (hOpened : Opened r w h format) :
    Inv (r.writeFrames platform w h format frames).1 (given ++ frames) ∧
      ((r.writeFrames platform w h format frames).2 = true →
        .failed ∉ (r.writeFrames platform w h format frames).1.log ∧
          (r.writeFrames platform w h format frames).1.inner ≠ none) := by
  induction frames generalizing r given with
  | nil =>
      rw [List.append_nil]
      exact ⟨inv_of_clean hReady hClean, fun _ => ⟨hClean, hOpened.1⟩⟩
  | cons frame rest ih =>
      obtain ⟨hInv, hGoesOn⟩ := checkPts_inv platform hReady hClean hOpened frame.pts frame.key
      unfold writeFrames
      dsimp only
      cases hOk : (r.checkPts platform frame.pts frame.key w h format).2 with
      | false =>
          rw [if_neg Bool.false_ne_true]
          exact ⟨hInv.mono (List.sublist_append_left _ _), fun hTrue => absurd hTrue Bool.false_ne_true⟩
      | true =>
          obtain ⟨hReadyNext, hCleanNext, hOpenedNext, hPts⟩ := hGoesOn hOk
          rw [if_pos rfl, List.append_cons]
          exact ih (hReadyNext.writeVideo frame hOpenedNext hPts) (writeVideo_clean hCleanNext frame)
            (writeVideo_opened hOpenedNext frame)

/-- One call. -/
theorem writeFrame_inv (hInv : Inv r given) (frame : VideoFrame Data) (w h : Nat) :
    Inv (r.writeFrame platform frame w h).1 (given ++ frame.frames) := by
  have hStays : Inv r (given ++ frame.frames) := hInv.mono (List.sublist_append_left _ _)
  unfold writeFrame
  by_cases hStopped : r.checkFailed = true
  · rw [if_pos hStopped]
    exact hStays
  rw [if_neg hStopped]
  by_cases hUnknown : frame.format = .unknown
  · rw [if_pos hUnknown]
    exact hStays
  rw [if_neg hUnknown]
  have hClean := hInv.clean (Bool.eq_false_of_not_eq_true hStopped)
  obtain ⟨hChecked, hGoesOn⟩ := @checked_inv _ platform _ _ w h frame.format hInv.ready hClean
  dsimp only
  cases hOk : (r.checked platform w h frame.format).2 with
  | false => exact hChecked.mono (List.sublist_append_left _ _)
  | true =>
      obtain ⟨hSame, hCheck, hCleanNext⟩ := hGoesOn hOk
      have hOpened := check_opened platform hCheck
      rw [← hSame] at hOpened hCleanNext
      obtain ⟨hWritten, hDone⟩ := writeFrames_inv platform frame.frames hChecked.ready hCleanNext hOpened
      rw [if_neg (by simp)]
      cases hAll : ((r.checked platform w h frame.format).1.writeFrames platform w h frame.format
        frame.frames).2 with
      | false => exact hWritten
      | true =>
          obtain ⟨hCleanLast, hInner⟩ := hDone hAll
          refine inv_of_clean (hWritten.ready.newFrame hInner) ?_
          exact ((Sends.refl _).sent _ _).clean hCleanLast

end Ready

/-- A call of `write_frame`. -/
structure Call (Data : Type) where
  frame : VideoFrame Data
  width : Nat
  height : Nat

/-- The calls one after the other. -/
def afterCalls (platform : Platform) (calls : List (Call Data)) : Recorder Data :=
  Trace.run (fun r call => (r.writeFrame platform call.frame call.width call.height).1) new calls

theorem inv_afterCalls (calls : List (Call Data)) :
    Inv (afterCalls platform calls) (calls.flatMap fun call => call.frame.frames) := by
  unfold afterCalls
  induction calls using List.reverseRecOn with
  | nil =>
      refine inv_of_clean ⟨[], none, ⟨rfl, ?_, List.Pairwise.nil, ?_, List.Sublist.refl _, rfl⟩, ?_⟩
        List.not_mem_nil
      · exact fun recording hMem => absurd hMem List.not_mem_nil
      · exact fun recording hMem => absurd hMem List.not_mem_nil
      · exact fun inner draft hInner => absurd hInner (Option.some_ne_none inner).symm
  | append_singleton calls call ih =>
      rw [Trace.run_append, List.flatMap_append, List.flatMap_singleton]
      exact writeFrame_inv platform ih call.frame call.width call.height

/-- The log of any calls and the final drop falls into the groups of files. Every file is well
formed, no frame is in two files or twice in one, and nothing is written after a failure. -/
theorem recordings_wellFormed (platform : Platform) (calls : List (Call Data)) :
    ∃ recordings : List (Recording Data),
      kept ((afterCalls platform calls).dropInner platform).log = recordings.flatMap Recording.log ∧
        (∀ recording ∈ recordings, recording.WellFormed) ∧
        (recordings.Pairwise fun a b => a.file < b.file) ∧
        ((recordings.flatMap Recording.shots).map Shot.frame).Sublist
          (calls.flatMap fun call => call.frame.frames) ∧
        SilentAfterFailure ((afterCalls platform calls).dropInner platform).log := by
  have hInv := inv_afterCalls platform calls
  obtain ⟨done, current, hShape, -⟩ := hInv.ready
  obtain ⟨recordings, hClosed⟩ := hShape.dropInner platform
  have hLog := hClosed.log
  have hFormed := hClosed.wellFormed
  have hFiles := hClosed.files
  have hShots := hClosed.shots
  simp only [Option.toList_none, List.flatMap_nil, List.append_nil] at hLog hFormed hFiles hShots
  exact ⟨recordings, hLog, hFormed, hFiles, hShots, (dropInner_sends platform _).silent hInv.silent⟩

end Recorder

end HibtDesk.Video.Record
