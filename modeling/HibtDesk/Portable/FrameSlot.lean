import HibtDesk.Common.Options
import HibtDesk.Library.Trace

/-! How the portable service hands over frames: one process captures them into shared memory,
another reads them there. Every access to the memory is a step of its own. -/
namespace HibtDesk.PortableService

structure CapturerPara where
  recreate : Bool
  currentDisplay : Nat
  timeoutMs : Int

structure FrameInfo where
  length : Nat
  width : Nat
  height : Nat

/-- The shared memory. The flag for frames that would block is left out. -/
structure Shmem where
  para : CapturerPara
  info : FrameInfo
  data : Bytes
  write : Int
  read : Int

/-- `memset` with zero. -/
def Shmem.clear (shmem : Shmem) : Shmem where
  para := { recreate := false, currentDisplay := 0, timeoutMs := 0 }
  info := { length := 0, width := 0, height := 0 }
  data := shmem.data.map fun _ => 0
  write := 0
  read := 0

/-- `SharedMemory::write` at the address of the frame. -/
def Shmem.writeFrame (shmem : Shmem) (frame : Bytes) : Shmem :=
  { shmem with data := frame ++ shmem.data.drop frame.length }

def i32Max : Int := 2147483647

/-- What a counter is increased to. -/
def plus1 (iw : Int) : Int := if iw = i32Max then 0 else iw + 1

structure Display where
  width : Nat
  height : Nat

/-- A captured frame. Frames are numbered as they are captured. -/
structure Captured where
  number : Nat
  display : Nat
  width : Nat
  height : Nat
  data : Bytes

def Captured.info (f : Captured) : FrameInfo := ⟨f.data.length, f.width, f.height⟩

structure Capturer where
  display : Nat
  width : Nat
  height : Nat

/-- What `run_capture` does next, with what it has read. -/
inductive CapturePc where
  | readRecreate
  | readDisplay (recreate : Bool)
  | decide (recreate : Bool) (currentDisplay : Nat)
  | copyDisplay
  | copyTimeout (currentDisplay : Nat)
  | setPara (currentDisplay : Nat) (timeoutMs : Int)
  | counterWrite
  | counterRead (iw : Int)
  | capture
  | setFrameInfo (f : Captured)
  | writeFrame (f : Captured)
  | increase (f : Captured)
  | increaseAgain (f : Captured) (iw : Int)
  | increaseWrite (f : Captured) (iw ir : Int)
  | adjust (iw ir : Int)
  | exit

structure Capturing where
  pc : CapturePc
  c : Option Capturer
  lastCurrentDisplay : Nat
  firstFrameCaptured : Bool
  dxgiFailedTimes : Nat
  displayWidth : Nat
  displayHeight : Nat

inductive Outcome where
  | frame (data : Bytes)
  | texture
  | desktopChanged
  | wouldBlock
  | error (isGdi : Bool)

/-- What the system answers, if `run_capture` asks in this step. -/
structure System where
  displays : Option (List Display)
  created : Bool
  outcome : Outcome

structure CapturerPortable where
  display : Nat
  width : Nat
  height : Nat

/-- The call under way in the reading process, with what it has read. The lock of the memory is
held until it returns. -/
inductive ReadPc where
  | idle
  | clear (currentDisplay : Nat)
  | newPara (currentDisplay : Nat)
  | sizes (currentDisplay : Nat)
  | timeout (capturer : Nat) (timeoutMs : Int)
  | keepRecreate (capturer : Nat) (timeoutMs : Int)
  | keepDisplay (capturer : Nat) (timeoutMs : Int) (recreate : Bool)
  | setTimeout (capturer : Nat) (para : CapturerPara)
  | counterWrite (capturer : Nat)
  | counterRead (capturer : Nat) (iw : Int)
  | copyFrom (capturer : Nat)
  | copyTo (capturer : Nat) (iw : Int)
  | width (capturer : Nat)
  | height (capturer : Nat)
  | length (capturer : Nat)

/-- A frame that has been returned: so many bytes of the memory, and which frame was there. -/
structure Held where
  length : Nat
  frame : Option Captured

/-- Both processes. Besides what they have themselves there is the frame that was last written
to the memory, the display of the capturer that was made last, and which frames were returned. -/
structure State where
  shmem : Shmem
  capturing : Capturing
  reading : ReadPc
  capturers : List CapturerPortable
  held : Nat → Option Held
  frames : Nat
  origin : Option Captured
  newest : Option Nat
  returned : List Nat

inductive Event where
  | capture (system : System)
  | new (currentDisplay : Nat)
  | frame (capturer : Nat) (timeoutMs : Int)
  /-- The call under way goes on. It may ask for the displays. -/
  | read (displays : Option (List Display))
  | drop (capturer : Nat)

def maxDxgiFailTime : Nat := 5

/-- A step of `run_capture` that leaves the memory alone. -/
def Capturing.next (c : Capturing) (system : System) (frames : Nat) : Capturing :=
  match c.pc with
  | .decide recreate currentDisplay =>
      match c.c with
      | none =>
          match system.displays.bind (·[currentDisplay]?) with
          | none => { c with pc := .exit }
          | some display =>
              let c := { c with displayWidth := display.width, displayHeight := display.height }
              if system.created then
                { c with
                  pc := .copyDisplay
                  c := some ⟨currentDisplay, display.width, display.height⟩
                  lastCurrentDisplay := currentDisplay
                  firstFrameCaptured := false
                  dxgiFailedTimes := if c.dxgiFailedTimes > maxDxgiFailTime then 0 else c.dxgiFailedTimes }
              else { c with pc := .readRecreate }
      | some _ =>
          if recreate || currentDisplay != c.lastCurrentDisplay then
            { c with pc := .readRecreate, c := none }
          else { c with pc := if c.firstFrameCaptured then .counterWrite else .capture }
  | .capture =>
      match c.c, system.outcome with
      | none, _ => { c with pc := .readRecreate }
      | some capturer, .frame data =>
          { c with pc := .setFrameInfo ⟨frames, capturer.display, capturer.width, capturer.height, data⟩ }
      | some _, .texture => { c with pc := .readRecreate }
      | some _, .desktopChanged => { c with pc := .readRecreate, c := none }
      | some _, .wouldBlock => { c with pc := .readRecreate }
      | some capturer, .error isGdi =>
          let failed := if isGdi then c.dxgiFailedTimes else c.dxgiFailedTimes + 1
          { c with
            pc := .readRecreate
            dxgiFailedTimes := failed
            c := if failed > maxDxgiFailTime then none else some capturer }
  | _ => c

namespace State
variable (s : State)

def toPc (pc : CapturePc) : State := { s with capturing := { s.capturing with pc := pc } }

/-- A step of `run_capture`. -/
def captureStep (system : System) : State :=
  match s.capturing.pc with
  | .readRecreate => s.toPc (.readDisplay s.shmem.para.recreate)
  | .readDisplay recreate => s.toPc (.decide recreate s.shmem.para.currentDisplay)
  | .decide _ _ => { s with capturing := s.capturing.next system s.frames }
  | .copyDisplay => s.toPc (.copyTimeout s.shmem.para.currentDisplay)
  | .copyTimeout currentDisplay => s.toPc (.setPara currentDisplay s.shmem.para.timeoutMs)
  | .setPara currentDisplay timeoutMs =>
      { s.toPc (if s.capturing.firstFrameCaptured then .counterWrite else .capture) with
        shmem := { s.shmem with para := ⟨false, currentDisplay, timeoutMs⟩ } }
  | .counterWrite => s.toPc (.counterRead s.shmem.write)
  | .counterRead iw => s.toPc (if iw = s.shmem.read then .capture else .readRecreate)
  | .capture => { s with capturing := s.capturing.next system s.frames, frames := s.frames + 1 }
  | .setFrameInfo f =>
      { s.toPc (.writeFrame f) with
        shmem :=
          { s.shmem with info := ⟨f.data.length, s.capturing.displayWidth, s.capturing.displayHeight⟩ } }
  | .writeFrame f =>
      { s.toPc (.increase f) with shmem := s.shmem.writeFrame f.data, origin := some f }
  | .increase f => s.toPc (.increaseAgain f s.shmem.write)
  -- the write counter is read once more, in place of the read counter
  | .increaseAgain f iw => s.toPc (.increaseWrite f iw s.shmem.write)
  | .increaseWrite _ iw ir => { s.toPc (.adjust iw ir) with shmem := { s.shmem with write := plus1 iw } }
  | .adjust iw ir =>
      { s with
        shmem := if ir = plus1 iw then { s.shmem with read := iw } else s.shmem
        capturing :=
          { s.capturing with pc := .readRecreate, firstFrameCaptured := true, dxgiFailedTimes := 0 } }
  | .exit => s

/-- A step of the call under way. -/
def readStep (displays : Option (List Display)) : State :=
  match s.reading with
  | .idle => s
  | .clear currentDisplay =>
      { s with
        shmem := s.shmem.clear
        origin := none
        newest := some currentDisplay
        reading := .newPara currentDisplay }
  | .newPara currentDisplay =>
      { s with
        shmem := { s.shmem with para := ⟨true, currentDisplay, 33⟩ }
        reading := .sizes currentDisplay }
  | .sizes currentDisplay =>
      let display := (displays.bind (·[currentDisplay]?)).getD ⟨0, 0⟩
      { s with
        capturers := s.capturers ++ [⟨currentDisplay, display.width, display.height⟩]
        reading := .idle }
  | .timeout i timeoutMs =>
      { s with
        reading := if timeoutMs = s.shmem.para.timeoutMs then .counterWrite i else .keepRecreate i timeoutMs }
  | .keepRecreate i timeoutMs => { s with reading := .keepDisplay i timeoutMs s.shmem.para.recreate }
  | .keepDisplay i timeoutMs recreate =>
      { s with reading := .setTimeout i ⟨recreate, s.shmem.para.currentDisplay, timeoutMs⟩ }
  | .setTimeout i para => { s with shmem := { s.shmem with para := para }, reading := .counterWrite i }
  | .counterWrite i => { s with reading := .counterRead i s.shmem.write }
  | .counterRead i iw => { s with reading := if s.shmem.read ≠ iw then .copyFrom i else .idle }
  | .copyFrom i => { s with reading := .copyTo i s.shmem.write }
  | .copyTo i iw => { s with shmem := { s.shmem with read := iw }, reading := .width i }
  | .width i =>
      { s with
        reading := if (s.capturers[i]?.map (·.width)) = some s.shmem.info.width then .height i else .idle }
  | .height i =>
      { s with
        reading := if (s.capturers[i]?.map (·.height)) = some s.shmem.info.height then .length i else .idle }
  | .length i =>
      { s with
        held := fun j => if j = i then some ⟨s.shmem.info.length, s.origin⟩ else s.held j
        returned := (s.origin.map (·.number)).toList ++ s.returned
        reading := .idle }

def release (i : Nat) : State := { s with held := fun j => if j = i then none else s.held j }

def step : Event → State
  | .capture system => s.captureStep system
  | .read displays => s.readStep displays
  | .new currentDisplay =>
      match s.reading with
      | .idle => { s with reading := .clear currentDisplay }
      | _ => s
  | .frame i timeoutMs =>
      match s.reading, s.capturers[i]? with
      | .idle, some _ => { s.release i with reading := .timeout i timeoutMs }
      | _, _ => s
  | .drop i => s.release i

end State

/-- Memory of some size, and nothing has happened yet. -/
def start (size : Nat) : State where
  shmem :=
    { para := ⟨false, 0, 0⟩, info := ⟨0, 0, 0⟩, data := List.replicate size 0, write := 0, read := 0 }
  capturing :=
    { pc := .readRecreate, c := none, lastCurrentDisplay := 2 ^ 64 - 1, firstFrameCaptured := false
      dxgiFailedTimes := 0, displayWidth := 0, displayHeight := 0 }
  reading := .idle
  capturers := []
  held _ := none
  frames := 0
  origin := none
  newest := none
  returned := []

/-- The frames in use are whole, and none was returned twice. -/
structure Whole (s : State) : Prop where
  frame : ∀ i h, s.held i = some h → ∃ c f, s.capturers[i]? = some c ∧ h.frame = some f ∧
    f.display = c.display ∧ f.width = c.width ∧ f.height = c.height ∧ h.length = f.data.length ∧
    s.shmem.info = f.info ∧ s.shmem.data.take h.length = f.data
  once : s.returned.Nodup

/-- The frame has been begun and is not counted yet. -/
def CapturePc.midway : CapturePc → Bool
  | .writeFrame _ | .increase _ | .increaseAgain .. | .increaseWrite .. => true
  | _ => false

/-- The call of `frame` on a capturer. -/
def ReadPc.frameCall : ReadPc → Option Nat
  | .timeout i _ | .keepRecreate i _ | .keepDisplay i _ _ | .setTimeout i _ | .counterWrite i
  | .counterRead i _ | .copyFrom i | .copyTo i _ | .width i | .height i | .length i => some i
  | _ => none

/-- A frame may be put into the memory: the last one has been fetched and is no longer in use,
none is being fetched, and it is of the display that is wanted. -/
structure Free (s : State) (f : Captured) : Prop where
  counters : s.shmem.write = s.shmem.read
  noCall : s.reading.frameCall = none
  noHeld : ∀ i, s.held i = none
  display : s.newest = some f.display

/-- The two processes keep apart: a frame is put into free memory only, the memory is cleared
neither in the middle of that nor under a frame in use, and frames are fetched by the last
capturer only. -/
def Apart (s : State) : Event → Prop
  | .capture _ =>
      match s.capturing.pc with
      | .setFrameInfo f | .writeFrame f => Free s f
      | _ => True
  | .read _ =>
      match s.reading with
      | .clear _ => s.capturing.pc.midway = false ∧ ∀ i, s.held i = none
      | _ => True
  | .frame i _ => i + 1 = s.capturers.length
  | _ => True

/-- The frame is in the memory, with what belongs to it. -/
structure Slot (s : State) (f : Captured) : Prop where
  info : s.shmem.info = f.info
  origin : s.origin = some f
  data : s.shmem.data.take f.data.length = f.data
  display : s.newest = some f.display

/-- The frame was captured and has not been returned. -/
def New (s : State) (f : Captured) : Prop := f.number < s.frames ∧ f.number ∉ s.returned

/-- What is known while a frame is handed over. -/
def CaptureInv (s : State) : CapturePc → Prop
  | .setFrameInfo f =>
      f.width = s.capturing.displayWidth ∧ f.height = s.capturing.displayHeight ∧ New s f ∧
        ∀ g, s.origin = some g → g.number ≠ f.number
  | .writeFrame f => s.shmem.info = f.info ∧ s.shmem.write = s.shmem.read ∧ New s f
  | .increase f => Slot s f ∧ s.shmem.write = s.shmem.read ∧ New s f
  | .increaseAgain f iw => Slot s f ∧ s.shmem.write = s.shmem.read ∧ New s f ∧ iw = s.shmem.write
  | .increaseWrite f iw ir =>
      Slot s f ∧ s.shmem.write = s.shmem.read ∧ New s f ∧ iw = s.shmem.write ∧ ir = s.shmem.write
  | .adjust iw ir => ir ≠ plus1 iw
  | _ => True

/-- The frame has been counted as fetched. -/
structure Fetched (s : State) (f : Captured) : Prop where
  slot : Slot s f
  counters : s.shmem.write = s.shmem.read
  calm : s.capturing.pc.midway = false

/-- What is known while a frame is fetched, or a capturer is made. -/
def ReadInv (s : State) : ReadPc → Prop
  | .newPara currentDisplay | .sizes currentDisplay =>
      s.newest = some currentDisplay ∧ ∀ i, s.held i = none
  | .counterRead _ iw => iw = s.shmem.read ∨ iw = s.shmem.write
  | .copyFrom _ => s.shmem.read ≠ s.shmem.write
  | .copyTo _ iw => s.shmem.read ≠ s.shmem.write ∧ iw = s.shmem.write
  | .width _ => ∃ f, Fetched s f ∧ New s f
  | .height i => ∃ f, Fetched s f ∧ New s f ∧ (s.capturers[i]?.map (·.width)) = some f.width
  | .length i => ∃ f, Fetched s f ∧ New s f ∧ (s.capturers[i]?.map (·.width)) = some f.width ∧
      (s.capturers[i]?.map (·.height)) = some f.height
  | _ => True

structure Inv (s : State) : Prop where
  early : ∀ n ∈ s.returned, n < s.frames
  once : s.returned.Nodup
  old : ∀ f, s.origin = some f → f.number < s.frames
  size : ∀ c, s.capturing.c = some c → c.width = s.capturing.displayWidth ∧ c.height = s.capturing.displayHeight
  capture : CaptureInv s s.capturing.pc
  unread : s.shmem.read ≠ s.shmem.write → s.capturing.pc.midway = false ∧ ∃ f, Slot s f ∧ New s f
  read : ReadInv s s.reading
  call : ∀ i, s.reading.frameCall = some i → i + 1 = s.capturers.length ∧ ∀ j, s.held j = none
  wanted : (∀ d, s.reading ≠ .newPara d ∧ s.reading ≠ .sizes d) →
    ∀ c, s.capturers.getLast? = some c → s.newest = some c.display
  held : ∀ i h, s.held i = some h → i + 1 = s.capturers.length ∧ ∃ c f, s.capturers[i]? = some c ∧
    h.frame = some f ∧ h.length = f.data.length ∧ f.width = c.width ∧ f.height = c.height ∧
      f.display = c.display ∧ Fetched s f

section Inv
variable {s : State}

theorem plus1_ne (iw : Int) : iw ≠ plus1 iw := by
  unfold plus1 i32Max
  split <;> omega

theorem inv_start (size : Nat) : Inv (start size) where
  early _ hMem := absurd hMem List.not_mem_nil
  once := List.nodup_nil
  old f hF := by cases hF
  size c hC := by cases hC
  capture := trivial
  unread hNot := absurd rfl hNot
  read := trivial
  call i hCall := by cases hCall
  wanted _ c hLast := by cases hLast
  held i h hHeld := by cases hHeld

/-- What is in use is whole. -/
theorem Inv.whole (h : Inv s) : Whole s := by
  refine ⟨fun i held hHeld => ?_, h.once⟩
  obtain ⟨-, c, f, hC, hFrame, hLength, hWidth, hHeight, hDisplay, hFetched⟩ := h.held i held hHeld
  refine ⟨c, f, hC, hFrame, hDisplay, hWidth, hHeight, hLength, hFetched.slot.info, ?_⟩
  rw [hLength]
  exact hFetched.slot.data

/-- Nothing is known of where `run_capture` is outside of handing over a frame. -/
def CapturePc.calm : CapturePc → Bool
  | .setFrameInfo _ | .writeFrame _ | .increase _ | .increaseAgain .. | .increaseWrite .. | .adjust .. => false
  | _ => true

theorem CaptureInv.mono {t : State} {pc : CapturePc} (h : CaptureInv s pc)
    (hCounters : t.shmem.write = s.shmem.write ∧ t.shmem.read = s.shmem.read)
    (hInfo : t.shmem.info = s.shmem.info) (hOrigin : t.origin = s.origin)
    (hCapturing : t.capturing = s.capturing) (hSlot : ∀ f, Slot s f → Slot t f)
    (hNew : ∀ f, New s f → New t f) : CaptureInv t pc := by
  have hEqual : s.shmem.write = s.shmem.read → t.shmem.write = t.shmem.read :=
    fun hSame => hCounters.1.trans (hSame.trans hCounters.2.symm)
  cases pc with
  | setFrameInfo f =>
      obtain ⟨hWidth, hHeight, hN, hOther⟩ := h
      exact ⟨hCapturing ▸ hWidth, hCapturing ▸ hHeight, hNew f hN, fun g hG => hOther g (hOrigin ▸ hG)⟩
  | writeFrame f => exact ⟨hInfo.trans h.1, hEqual h.2.1, hNew f h.2.2⟩
  | increase f => exact ⟨hSlot f h.1, hEqual h.2.1, hNew f h.2.2⟩
  | increaseAgain f iw =>
      obtain ⟨hF, hSame, hN, hIw⟩ := h
      exact ⟨hSlot f hF, hEqual hSame, hNew f hN, hIw.trans hCounters.1.symm⟩
  | increaseWrite f iw ir =>
      obtain ⟨hF, hSame, hN, hIw, hIr⟩ := h
      exact ⟨hSlot f hF, hEqual hSame, hNew f hN, hIw.trans hCounters.1.symm, hIr.trans hCounters.1.symm⟩
  | adjust iw ir => exact h
  | _ => trivial

theorem ReadInv.mono {t : State} {pc : ReadPc} (h : ReadInv s pc)
    (hCounters : t.shmem.write = s.shmem.write ∧ t.shmem.read = s.shmem.read)
    (hNewest : t.newest = s.newest) (hHeld : (∀ i, s.held i = none) → ∀ i, t.held i = none)
    (hCapturers : t.capturers = s.capturers)
    (hFetched : ∀ f, Fetched s f → New s f → Fetched t f ∧ New t f) : ReadInv t pc := by
  cases pc with
  | newPara d => exact ⟨hNewest.trans h.1, hHeld h.2⟩
  | sizes d => exact ⟨hNewest.trans h.1, hHeld h.2⟩
  | counterRead i iw => exact h.imp (·.trans hCounters.2.symm) (·.trans hCounters.1.symm)
  | copyFrom i => exact fun hSame => h (hCounters.2.symm.trans (hSame.trans hCounters.1))
  | copyTo i iw =>
      exact ⟨fun hSame => h.1 (hCounters.2.symm.trans (hSame.trans hCounters.1)), h.2.trans hCounters.1.symm⟩
  | width i =>
      obtain ⟨f, hF, hN⟩ := h
      exact ⟨f, hFetched f hF hN⟩
  | height i =>
      obtain ⟨f, hF, hN, hWidth⟩ := h
      exact ⟨f, (hFetched f hF hN).1, (hFetched f hF hN).2, hCapturers ▸ hWidth⟩
  | length i =>
      obtain ⟨f, hF, hN, hWidth, hHeight⟩ := h
      exact ⟨f, (hFetched f hF hN).1, (hFetched f hF hN).2, hCapturers ▸ hWidth, hCapturers ▸ hHeight⟩
  | _ => trivial

/-- `run_capture` moves on, and leaves all of the memory but the parameters alone. -/
theorem Inv.moves (h : Inv s) {c : Capturing} (para : CapturerPara) {frames : Nat}
    (hFrames : s.frames ≤ frames) (hMidway : c.pc.midway = false)
    (hCapture : CaptureInv { s with shmem := { s.shmem with para := para }, capturing := c, frames := frames } c.pc)
    (hSize : ∀ d, c.c = some d → d.width = c.displayWidth ∧ d.height = c.displayHeight) :
    Inv { s with shmem := { s.shmem with para := para }, capturing := c, frames := frames } := by
  have hSlot : ∀ f, Slot s f →
      Slot { s with shmem := { s.shmem with para := para }, capturing := c, frames := frames } f :=
    fun f hF => ⟨hF.info, hF.origin, hF.data, hF.display⟩
  refine ⟨fun n hMem => (h.early n hMem).trans_le hFrames, h.once,
    fun f hF => (h.old f hF).trans_le hFrames, hSize, hCapture, fun hNot => ?_,
    h.read.mono ⟨rfl, rfl⟩ rfl id rfl fun f hF hN =>
      ⟨⟨hSlot f hF.slot, hF.counters, hMidway⟩, hN.1.trans_le hFrames, hN.2⟩,
    h.call, h.wanted, fun i held hHeld => ?_⟩
  · obtain ⟨-, f, hF, hN⟩ := h.unread hNot
    exact ⟨hMidway, f, hSlot f hF, hN.1.trans_le hFrames, hN.2⟩
  · obtain ⟨hLast, d, f, hD, hFrame, hLength, hWidth, hHeight, hDisplay, hF⟩ := h.held i held hHeld
    exact ⟨hLast, d, f, hD, hFrame, hLength, hWidth, hHeight, hDisplay,
      hSlot f hF.slot, hF.counters, hMidway⟩

/-- Outside of handing over a frame nothing need be known. -/
theorem Inv.calm (h : Inv s) {c : Capturing} (para : CapturerPara) {frames : Nat}
    (hFrames : s.frames ≤ frames) (hCalm : c.pc.calm = true)
    (hSize : ∀ d, c.c = some d → d.width = c.displayWidth ∧ d.height = c.displayHeight) :
    Inv { s with shmem := { s.shmem with para := para }, capturing := c, frames := frames } := by
  refine h.moves para hFrames ?_ ?_ hSize
  · cases hPc : c.pc <;> rw [hPc] at hCalm <;> first | rfl | cases hCalm
  · cases hPc : c.pc <;> rw [hPc] at hCalm <;> trivial

/-- While a frame is put into the memory the counters are the same. -/
theorem Inv.midway (h : Inv s) (hMidway : s.capturing.pc.midway = true) :
    s.shmem.read = s.shmem.write ∧ (∀ f, ¬ Fetched s f) ∧ ∀ i, s.held i = none := by
  have hNot : ∀ f, ¬ Fetched s f := by
    intro f hF
    rw [hF.calm] at hMidway
    cases hMidway
  refine ⟨?_, hNot, fun i => ?_⟩
  · by_contra hDiffer
    rw [(h.unread hDiffer).1] at hMidway
    cases hMidway
  · refine Option.eq_none_iff_forall_ne_some.mpr fun held hHeld => ?_
    obtain ⟨-, _, f, -, -, -, -, -, -, hF⟩ := h.held i held hHeld
    exact hNot f hF

/-- `run_capture` moves on while it puts a frame into the memory. -/
theorem Inv.stillMidway (h : Inv s) {pc : CapturePc} (hMidway : s.capturing.pc.midway = true)
    (hCapture : CaptureInv s pc) (hSame : CaptureInv s pc → CaptureInv (s.toPc pc) pc) :
    Inv (s.toPc pc) := by
  obtain ⟨hCounters, hNot, hNone⟩ := h.midway hMidway
  refine ⟨h.early, h.once, h.old, h.size, hSame hCapture, fun hDiffer => absurd hCounters hDiffer, ?_,
    h.call, h.wanted, fun i held hHeld => ?_⟩
  · exact h.read.mono ⟨rfl, rfl⟩ rfl id rfl fun f hF => absurd hF (hNot f)
  · cases (hNone i).symm.trans hHeld

theorem ReadInv.of_noCall {t : State} {pc : ReadPc} (h : ReadInv s pc) (hNone : pc.frameCall = none)
    (hNewest : t.newest = s.newest) (hHeld : t.held = s.held) : ReadInv t pc := by
  cases pc with
  | newPara d => exact ⟨hNewest.trans h.1, fun i => (congrFun hHeld i).trans (h.2 i)⟩
  | sizes d => exact ⟨hNewest.trans h.1, fun i => (congrFun hHeld i).trans (h.2 i)⟩
  | idle => trivial
  | clear d => trivial
  | _ => cases hNone

/-- Before the frame is counted nobody has found one. -/
theorem ReadInv.counted {t : State} {pc : ReadPc} (h : ReadInv s pc)
    (hCounters : s.shmem.read = s.shmem.write) (hNot : ∀ f, ¬ Fetched s f)
    (hSame : t.shmem.read = s.shmem.read) (hNewest : t.newest = s.newest) (hHeld : t.held = s.held) :
    ReadInv t pc := by
  cases pc with
  | newPara d => exact ⟨hNewest.trans h.1, fun i => (congrFun hHeld i).trans (h.2 i)⟩
  | sizes d => exact ⟨hNewest.trans h.1, fun i => (congrFun hHeld i).trans (h.2 i)⟩
  | counterRead i iw => exact Or.inl ((h.elim id (·.trans hCounters.symm)).trans hSame.symm)
  | copyFrom i => exact absurd hCounters h
  | copyTo i iw => exact absurd hCounters h.1
  | width i =>
      obtain ⟨g, hG, -⟩ := h
      exact absurd hG (hNot g)
  | height i =>
      obtain ⟨g, hG, -⟩ := h
      exact absurd hG (hNot g)
  | length i =>
      obtain ⟨g, hG, -⟩ := h
      exact absurd hG (hNot g)
  | _ => trivial

theorem Inv.setFrameInfo (h : Inv s) {f : Captured} (system : System)
    (hPc : s.capturing.pc = .setFrameInfo f) (hFree : Free s f) : Inv (s.captureStep system) := by
  have hStep : s.captureStep system =
      { s.toPc (.writeFrame f) with
        shmem :=
          { s.shmem with info := ⟨f.data.length, s.capturing.displayWidth, s.capturing.displayHeight⟩ } } := by
    unfold State.captureStep
    rw [hPc]
  obtain ⟨hWidth, hHeight, hNew, -⟩ : CaptureInv s (.setFrameInfo f) := hPc ▸ h.capture
  rw [hStep]
  refine ⟨h.early, h.once, h.old, h.size, ⟨?_, hFree.counters, hNew⟩,
    fun hDiffer => absurd hFree.counters.symm hDiffer, h.read.of_noCall hFree.noCall rfl rfl, h.call,
    h.wanted, fun i held hHeld => ?_⟩
  · unfold Captured.info
    rw [hWidth, hHeight]
  · cases (hFree.noHeld i).symm.trans hHeld

theorem Inv.writeFrame (h : Inv s) {f : Captured} (system : System)
    (hPc : s.capturing.pc = .writeFrame f) (hFree : Free s f) : Inv (s.captureStep system) := by
  have hStep : s.captureStep system =
      { s.toPc (.increase f) with shmem := s.shmem.writeFrame f.data, origin := some f } := by
    unfold State.captureStep
    rw [hPc]
  obtain ⟨hInfo, hCounters, hNew⟩ : CaptureInv s (.writeFrame f) := hPc ▸ h.capture
  rw [hStep]
  refine ⟨h.early, h.once, fun g hG => ?_, h.size, ⟨⟨hInfo, rfl, ?_, hFree.display⟩, hCounters, hNew⟩,
    fun hDiffer => absurd hCounters.symm hDiffer, h.read.of_noCall hFree.noCall rfl rfl, h.call,
    h.wanted, fun i held hHeld => ?_⟩
  · obtain rfl := Option.some.inj hG
    exact hNew.1
  · exact List.take_left ..
  · cases (hFree.noHeld i).symm.trans hHeld

/-- The frame is counted, and may be fetched from then on. -/
theorem Inv.increaseWrite (h : Inv s) {f : Captured} {iw ir : Int} (system : System)
    (hPc : s.capturing.pc = .increaseWrite f iw ir) : Inv (s.captureStep system) := by
  have hStep : s.captureStep system =
      { s.toPc (.adjust iw ir) with shmem := { s.shmem with write := plus1 iw } } := by
    unfold State.captureStep
    rw [hPc]
  obtain ⟨hSlot, -, hNew, rfl, rfl⟩ : CaptureInv s (.increaseWrite f iw ir) := hPc ▸ h.capture
  obtain ⟨hCounters, hNot, hNone⟩ := h.midway (by rw [hPc]; rfl)
  rw [hStep]
  refine ⟨h.early, h.once, h.old, h.size, plus1_ne _,
    fun _ => ⟨rfl, f, ⟨hSlot.info, hSlot.origin, hSlot.data, hSlot.display⟩, hNew⟩, ?_, h.call, h.wanted,
    fun i held hHeld => ?_⟩
  · exact h.read.counted hCounters hNot rfl rfl rfl
  · cases (hNone i).symm.trans hHeld

end Inv

/-- The capturer has the size that is remembered. -/
def Sized (c : Capturing) : Prop :=
  ∀ d, c.c = some d → d.width = c.displayWidth ∧ d.height = c.displayHeight

/-- Deciding what to capture hands nothing over. -/
theorem next_decide {c : Capturing} (hSize : Sized c) {recreate : Bool} {currentDisplay : Nat}
    (hPc : c.pc = .decide recreate currentDisplay) (system : System) (frames : Nat) :
    (c.next system frames).pc.calm = true ∧ Sized (c.next system frames) := by
  obtain ⟨pc, capturer, last, first, failed, width, height⟩ := c
  obtain rfl : pc = _ := hPc
  unfold Capturing.next
  dsimp only
  cases capturer with
  | none =>
      cases hDisplay : system.displays.bind (·[currentDisplay]?) with
      | none =>
          refine ⟨rfl, fun d hD => ?_⟩
          cases hD
      | some display =>
          cases hCreated : system.created with
          | true =>
              refine ⟨rfl, fun d hD => ?_⟩
              obtain rfl := Option.some.inj hD
              exact ⟨rfl, rfl⟩
          | false =>
              refine ⟨rfl, fun d hD => ?_⟩
              cases hD
  | some capturer =>
      dsimp only
      split
      · exact ⟨rfl, fun d hD => by cases hD⟩
      · refine ⟨?_, hSize⟩
        dsimp only
        split <;> rfl

/-- What is captured is of the capturer's display, and gets the next number. -/
theorem next_capture {c : Capturing} (hSize : Sized c) (hPc : c.pc = .capture) (system : System)
    (frames : Nat) : ((c.next system frames).pc.calm = true ∧ Sized (c.next system frames)) ∨
      ∃ capturer data, c.c = some capturer ∧ c.next system frames =
        { c with pc := .setFrameInfo ⟨frames, capturer.display, capturer.width, capturer.height, data⟩ } := by
  obtain ⟨pc, capturer, last, first, failed, width, height⟩ := c
  obtain rfl : pc = _ := hPc
  unfold Capturing.next
  dsimp only
  cases capturer with
  | none => exact .inl ⟨rfl, hSize⟩
  | some capturer =>
      cases hOutcome : system.outcome with
      | frame data => exact .inr ⟨capturer, data, rfl, rfl⟩
      | texture => exact .inl ⟨rfl, hSize⟩
      | desktopChanged => exact .inl ⟨rfl, fun d hD => by cases hD⟩
      | wouldBlock => exact .inl ⟨rfl, hSize⟩
      | error isGdi =>
          refine .inl ⟨rfl, fun d hD => hSize d ?_⟩
          dsimp only at hD
          generalize (if isGdi = true then failed else failed + 1) = failures at hD
          by_cases hMany : failures > maxDxgiFailTime
          · rw [if_pos hMany] at hD
            cases hD
          · rwa [if_neg hMany] at hD

section Capture
variable {s : State}

/-- A step that leaves all of the memory alone. -/
theorem Inv.calmStep (h : Inv s) {c : Capturing} {frames : Nat} (hFrames : s.frames ≤ frames)
    (hCalm : c.pc.calm = true) (hSize : Sized c) : Inv { s with capturing := c, frames := frames } :=
  h.calm s.shmem.para hFrames hCalm hSize

theorem Inv.captureStep (h : Inv s) (system : System) (hApart : Apart s (.capture system)) :
    Inv (s.captureStep system) := by
  cases hPc : s.capturing.pc with
  | setFrameInfo f =>
      unfold Apart at hApart
      rw [hPc] at hApart
      exact h.setFrameInfo system hPc hApart
  | writeFrame f =>
      unfold Apart at hApart
      rw [hPc] at hApart
      exact h.writeFrame system hPc hApart
  | increaseWrite f iw ir => exact h.increaseWrite system hPc
  | increase f =>
      unfold State.captureStep
      rw [hPc]
      obtain ⟨hSlot, hCounters, hNew⟩ : CaptureInv s (.increase f) := hPc ▸ h.capture
      refine h.stillMidway (by rw [hPc]; rfl) ⟨hSlot, hCounters, hNew, rfl⟩ ?_
      rintro ⟨hSlot, hRest⟩
      exact ⟨⟨hSlot.info, hSlot.origin, hSlot.data, hSlot.display⟩, hRest⟩
  | increaseAgain f iw =>
      unfold State.captureStep
      rw [hPc]
      obtain ⟨hSlot, hCounters, hNew, hIw⟩ : CaptureInv s (.increaseAgain f iw) := hPc ▸ h.capture
      refine h.stillMidway (by rw [hPc]; rfl) ⟨hSlot, hCounters, hNew, hIw, rfl⟩ ?_
      rintro ⟨hSlot, hRest⟩
      exact ⟨⟨hSlot.info, hSlot.origin, hSlot.data, hSlot.display⟩, hRest⟩
  | adjust iw ir =>
      unfold State.captureStep
      rw [hPc]
      have hOther : ir ≠ plus1 iw := by
        have hCapture := h.capture
        rwa [hPc] at hCapture
      dsimp only
      rw [if_neg hOther]
      exact h.calmStep (Nat.le_refl _) rfl h.size
  | decide recreate currentDisplay =>
      unfold State.captureStep
      rw [hPc]
      obtain ⟨hCalm, hSize⟩ := next_decide h.size hPc system s.frames
      exact h.calmStep (Nat.le_refl _) hCalm hSize
  | capture =>
      unfold State.captureStep
      rw [hPc]
      rcases next_capture h.size hPc system s.frames with ⟨hCalm, hSize⟩ | ⟨capturer, data, hC, hNext⟩
      · exact h.calmStep (Nat.le_succ _) hCalm hSize
      · dsimp only
        rw [hNext]
        obtain ⟨hWidth, hHeight⟩ := h.size capturer hC
        refine h.moves s.shmem.para (Nat.le_succ s.frames) rfl
          ⟨hWidth, hHeight, ⟨Nat.lt_succ_self _, fun hMem => ?_⟩, fun g hG => ?_⟩ h.size
        · exact Nat.lt_irrefl _ (h.early _ hMem)
        · exact Nat.ne_of_lt (h.old g hG)
  | setPara currentDisplay timeoutMs =>
      unfold State.captureStep
      rw [hPc]
      refine h.calm ⟨false, currentDisplay, timeoutMs⟩ (Nat.le_refl _) ?_ h.size
      dsimp only [State.toPc]
      split <;> rfl
  | counterRead iw =>
      unfold State.captureStep
      rw [hPc]
      refine h.calmStep (Nat.le_refl _) ?_ h.size
      dsimp only
      split <;> rfl
  | readRecreate =>
      unfold State.captureStep
      rw [hPc]
      exact h.calmStep (Nat.le_refl _) rfl h.size
  | readDisplay recreate =>
      unfold State.captureStep
      rw [hPc]
      exact h.calmStep (Nat.le_refl _) rfl h.size
  | copyDisplay =>
      unfold State.captureStep
      rw [hPc]
      exact h.calmStep (Nat.le_refl _) rfl h.size
  | copyTimeout currentDisplay =>
      unfold State.captureStep
      rw [hPc]
      exact h.calmStep (Nat.le_refl _) rfl h.size
  | counterWrite =>
      unfold State.captureStep
      rw [hPc]
      exact h.calmStep (Nat.le_refl _) rfl h.size
  | exit =>
      unfold State.captureStep
      rw [hPc]
      exact h

end Capture

section Read
variable {s : State}

/-- The call under way goes on, and changes nothing but the parameters. -/
theorem Inv.reads (h : Inv s) {pc : ReadPc} (para : CapturerPara)
    (hRead : ReadInv { s with shmem := { s.shmem with para := para }, reading := pc } pc)
    (hCall : ∀ i, pc.frameCall = some i → i + 1 = s.capturers.length ∧ ∀ j, s.held j = none)
    (hWanted : (∀ d, pc ≠ .newPara d ∧ pc ≠ .sizes d) →
      ∀ d, s.reading ≠ .newPara d ∧ s.reading ≠ .sizes d) :
    Inv { s with shmem := { s.shmem with para := para }, reading := pc } := by
  have hSlot : ∀ f, Slot s f → Slot { s with shmem := { s.shmem with para := para }, reading := pc } f :=
    fun f hF => ⟨hF.info, hF.origin, hF.data, hF.display⟩
  refine ⟨h.early, h.once, h.old, h.size, ?_, fun hNot => ?_, hRead, hCall,
    fun hNot => h.wanted (hWanted hNot), fun i held hHeld => ?_⟩
  · exact h.capture.mono ⟨rfl, rfl⟩ rfl rfl rfl hSlot fun _ hN => hN
  · obtain ⟨hMidway, f, hF, hN⟩ := h.unread hNot
    exact ⟨hMidway, f, hSlot f hF, hN⟩
  · obtain ⟨hLast, d, f, hD, hFrame, hLength, hWidth, hHeight, hDisplay, hF⟩ := h.held i held hHeld
    exact ⟨hLast, d, f, hD, hFrame, hLength, hWidth, hHeight, hDisplay, hSlot f hF.slot, hF.counters, hF.calm⟩

theorem Inv.release (h : Inv s) (i : Nat) : Inv (s.release i) := by
  have hSlot : ∀ f, Slot s f → Slot (s.release i) f := fun f hF => ⟨hF.info, hF.origin, hF.data, hF.display⟩
  have hStays : ∀ j held, (s.release i).held j = some held → s.held j = some held := by
    intro j held hHeld
    unfold State.release at hHeld
    dsimp only at hHeld
    split at hHeld
    · cases hHeld
    · exact hHeld
  have hNone : (∀ j, s.held j = none) → ∀ j, (s.release i).held j = none := by
    intro hAll j
    refine Option.eq_none_iff_forall_ne_some.mpr fun held hHeld => ?_
    cases (hAll j).symm.trans (hStays j held hHeld)
  refine ⟨h.early, h.once, h.old, h.size, ?_, fun hNot => ?_, ?_, fun j hJ => ?_, h.wanted, fun j held hHeld => ?_⟩
  · exact h.capture.mono ⟨rfl, rfl⟩ rfl rfl rfl hSlot fun _ hN => hN
  · obtain ⟨hMidway, f, hF, hN⟩ := h.unread hNot
    exact ⟨hMidway, f, hSlot f hF, hN⟩
  · exact h.read.mono ⟨rfl, rfl⟩ rfl hNone rfl fun f hF hN => ⟨⟨hSlot f hF.slot, hF.counters, hF.calm⟩, hN⟩
  · obtain ⟨hLast, hAll⟩ := h.call j hJ
    exact ⟨hLast, hNone hAll⟩
  · obtain ⟨hLast, d, f, hD, hFrame, hLength, hWidth, hHeight, hDisplay, hF⟩ := h.held j held (hStays j held hHeld)
    exact ⟨hLast, d, f, hD, hFrame, hLength, hWidth, hHeight, hDisplay, hSlot f hF.slot, hF.counters, hF.calm⟩

/-- The memory is cleared for a new capturer. -/
theorem Inv.clear (h : Inv s) {currentDisplay : Nat} (displays : Option (List Display))
    (hReading : s.reading = .clear currentDisplay) (hCalm : s.capturing.pc.midway = false)
    (hNone : ∀ i, s.held i = none) : Inv (s.readStep displays) := by
  have hStep : s.readStep displays =
      { s with
        shmem := s.shmem.clear
        origin := none
        newest := some currentDisplay
        reading := .newPara currentDisplay } := by
    unfold State.readStep
    rw [hReading]
  rw [hStep]
  refine ⟨h.early, h.once, (fun f hF => by cases hF), h.size, ?_, fun hNot => absurd rfl hNot,
    ⟨rfl, hNone⟩, (fun i hI => by cases hI), fun hNot => absurd rfl (hNot currentDisplay).1,
    fun i held hHeld => ?_⟩
  · have hCapture := h.capture
    dsimp only
    cases hPc : s.capturing.pc with
    | setFrameInfo f =>
        rw [hPc] at hCapture
        obtain ⟨hWidth, hHeight, hN, -⟩ := hCapture
        exact ⟨hWidth, hHeight, hN, fun g hG => by cases hG⟩
    | adjust iw ir =>
        rw [hPc] at hCapture
        exact hCapture
    | _ =>
        rw [hPc] at hCalm
        trivial
  · cases (hNone i).symm.trans hHeld

/-- The capturer that is made last is of the display that is wanted. -/
theorem Inv.sizes (h : Inv s) {currentDisplay : Nat} (displays : Option (List Display))
    (hReading : s.reading = .sizes currentDisplay) : Inv (s.readStep displays) := by
  obtain ⟨hNewest, hNone⟩ : ReadInv s (.sizes currentDisplay) := hReading ▸ h.read
  unfold State.readStep
  rw [hReading]
  refine ⟨h.early, h.once, h.old, h.size, ?_, fun hNot => ?_, trivial, (fun i hI => by cases hI),
    fun _ c hLast => ?_, fun i held hHeld => ?_⟩
  · exact h.capture.mono ⟨rfl, rfl⟩ rfl rfl rfl (fun f hF => ⟨hF.info, hF.origin, hF.data, hF.display⟩)
      fun _ hN => hN
  · obtain ⟨hMidway, f, hF, hN⟩ := h.unread hNot
    exact ⟨hMidway, f, ⟨hF.info, hF.origin, hF.data, hF.display⟩, hN⟩
  · obtain rfl := Option.some.inj (List.getLast?_concat.symm.trans hLast)
    exact hNewest
  · cases (hNone i).symm.trans hHeld

/-- The read counter takes the value of the write counter, which stands for a whole frame. -/
theorem Inv.copyTo (h : Inv s) {i : Nat} {iw : Int} (displays : Option (List Display))
    (hReading : s.reading = .copyTo i iw) : Inv (s.readStep displays) := by
  obtain ⟨hDiffer, rfl⟩ : ReadInv s (.copyTo i iw) := hReading ▸ h.read
  obtain ⟨hMidway, f, hF, hN⟩ := h.unread hDiffer
  obtain ⟨hLast, hNone⟩ := h.call i (by rw [hReading]; rfl)
  unfold State.readStep
  rw [hReading]
  refine ⟨h.early, h.once, h.old, h.size, ?_, fun hNot => absurd rfl hNot,
    ⟨f, ⟨⟨hF.info, hF.origin, hF.data, hF.display⟩, rfl, hMidway⟩, hN⟩, fun j hJ => ?_, fun _ => ?_,
    fun j held hHeld => ?_⟩
  · have hCapture := h.capture
    dsimp only
    cases hPc : s.capturing.pc with
    | setFrameInfo g =>
        rw [hPc] at hCapture
        exact hCapture
    | adjust iw ir =>
        rw [hPc] at hCapture
        exact hCapture
    | _ =>
        rw [hPc] at hMidway
        trivial
  · obtain rfl := Option.some.inj hJ
    exact ⟨hLast, hNone⟩
  · refine h.wanted fun d => ?_
    rw [hReading]
    exact ⟨fun hSame => (by cases hSame), fun hSame => (by cases hSame)⟩
  · cases (hNone j).symm.trans hHeld

/-- A whole frame that has not been returned before is returned. -/
theorem Inv.length (h : Inv s) {i : Nat} (displays : Option (List Display))
    (hReading : s.reading = .length i) : Inv (s.readStep displays) := by
  obtain ⟨f, hF, hN, hWidth, hHeight⟩ : ReadInv s (.length i) := hReading ▸ h.read
  obtain ⟨hLast, hNone⟩ := h.call i (by rw [hReading]; rfl)
  obtain ⟨c, hC, hCWidth⟩ := Option.map_eq_some_iff.mp hWidth
  have hCHeight : c.height = f.height := by simpa [hC] using hHeight
  have hNotMaking : ∀ d, s.reading ≠ .newPara d ∧ s.reading ≠ .sizes d := by
    intro d
    rw [hReading]
    exact ⟨fun hSame => (by cases hSame), fun hSame => (by cases hSame)⟩
  have hDisplay : f.display = c.display := by
    have hGet : s.capturers.getLast? = some c := by
      rw [List.getLast?_eq_getElem?, ← hLast]
      exact hC
    exact Option.some.inj (hF.slot.display.symm.trans (h.wanted hNotMaking c hGet))
  unfold State.readStep
  rw [hReading]
  dsimp only
  rw [hF.slot.origin]
  refine ⟨fun n hMem => ?_, List.nodup_cons.mpr ⟨hN.2, h.once⟩, ?_, h.size, ?_,
    fun hNot => absurd hF.counters.symm hNot, trivial, (fun j hJ => by cases hJ), fun _ => h.wanted hNotMaking,
    fun j held hHeld => ?_⟩
  · rcases List.mem_cons.mp hMem with rfl | hBefore
    · exact hN.1
    · exact h.early n hBefore
  · exact fun g hG => h.old g (hF.slot.origin.trans hG)
  · have hCapture := h.capture
    have hMidway := hF.calm
    dsimp only
    cases hPc : s.capturing.pc with
    | setFrameInfo g =>
        rw [hPc] at hCapture
        obtain ⟨hW, hH, hNew, hOther⟩ := hCapture
        refine ⟨hW, hH, ⟨hNew.1, fun hMem => ?_⟩, fun other hSame => hOther other (hF.slot.origin.trans hSame)⟩
        rcases List.mem_cons.mp hMem with hSame | hBefore
        · exact hOther f hF.slot.origin hSame.symm
        · exact hNew.2 hBefore
    | adjust iw ir =>
        rw [hPc] at hCapture
        exact hCapture
    | _ =>
        rw [hPc] at hMidway
        trivial
  · dsimp only at hHeld
    split at hHeld
    · rename_i hSame
      subst hSame
      obtain rfl := Option.some.inj hHeld
      refine ⟨hLast, c, f, hC, rfl, ?_, hCWidth.symm, hCHeight.symm, hDisplay,
        ⟨hF.slot.info, rfl, hF.slot.data, hF.slot.display⟩, hF.counters, hF.calm⟩
      rw [hF.slot.info]
      rfl
    · cases (hNone j).symm.trans hHeld

/-- The call of `frame` goes on, or ends without a frame. -/
theorem Inv.goesOn (h : Inv s) {i : Nat} {pc : ReadPc} (para : CapturerPara)
    (hNow : s.reading.frameCall = some i) (hNext : pc.frameCall = some i ∨ pc = .idle)
    (hRead : ReadInv { s with shmem := { s.shmem with para := para }, reading := pc } pc) :
    Inv { s with shmem := { s.shmem with para := para }, reading := pc } := by
  refine h.reads para hRead (fun j hJ => ?_) fun _ d => ?_
  · rcases hNext with hSame | hIdle
    · exact h.call j (hNow.trans (hSame.symm.trans hJ))
    · rw [hIdle] at hJ
      cases hJ
  · refine ⟨fun hMaking => ?_, fun hMaking => ?_⟩
    · rw [hMaking] at hNow
      cases hNow
    · rw [hMaking] at hNow
      cases hNow

theorem Inv.readStep (h : Inv s) (displays : Option (List Display)) (hApart : Apart s (.read displays)) :
    Inv (s.readStep displays) := by
  cases hReading : s.reading with
  | clear currentDisplay =>
      unfold Apart at hApart
      rw [hReading] at hApart
      exact h.clear displays hReading hApart.1 hApart.2
  | sizes currentDisplay => exact h.sizes displays hReading
  | copyTo i iw => exact h.copyTo displays hReading
  | length i => exact h.length displays hReading
  | idle =>
      unfold State.readStep
      rw [hReading]
      exact h
  | newPara currentDisplay =>
      unfold State.readStep
      rw [hReading]
      have hRead : ReadInv s (.newPara currentDisplay) := hReading ▸ h.read
      exact h.reads ⟨true, currentDisplay, 33⟩ hRead (fun i hI => by cases hI)
        fun hNot => absurd rfl (hNot currentDisplay).2
  | timeout i timeoutMs =>
      unfold State.readStep
      rw [hReading]
      refine h.goesOn s.shmem.para (by rw [hReading]; rfl) ?_ ?_
      · split <;> exact .inl rfl
      · split <;> trivial
  | keepRecreate i timeoutMs =>
      unfold State.readStep
      rw [hReading]
      exact h.goesOn s.shmem.para (by rw [hReading]; rfl) (.inl rfl) trivial
  | keepDisplay i timeoutMs recreate =>
      unfold State.readStep
      rw [hReading]
      exact h.goesOn s.shmem.para (by rw [hReading]; rfl) (.inl rfl) trivial
  | setTimeout i para =>
      unfold State.readStep
      rw [hReading]
      exact h.goesOn para (by rw [hReading]; rfl) (.inl rfl) trivial
  | counterWrite i =>
      unfold State.readStep
      rw [hReading]
      exact h.goesOn s.shmem.para (by rw [hReading]; rfl) (.inl rfl) (.inr rfl)
  | counterRead i iw =>
      have hRead : ReadInv s (.counterRead i iw) := hReading ▸ h.read
      unfold State.readStep
      rw [hReading]
      refine h.goesOn s.shmem.para (by rw [hReading]; rfl) ?_ ?_
      · split
        · exact .inl rfl
        · exact .inr rfl
      · split
        · rename_i hDiffer
          rcases hRead with hOld | hNew
          · exact absurd hOld.symm hDiffer
          · exact fun hSame => hDiffer (hSame.trans hNew.symm)
        · trivial
  | copyFrom i =>
      have hRead : ReadInv s (.copyFrom i) := hReading ▸ h.read
      unfold State.readStep
      rw [hReading]
      exact h.goesOn s.shmem.para (by rw [hReading]; rfl) (.inl rfl) ⟨hRead, rfl⟩
  | width i =>
      obtain ⟨f, hF, hN⟩ : ReadInv s (.width i) := hReading ▸ h.read
      unfold State.readStep
      rw [hReading]
      refine h.goesOn s.shmem.para (by rw [hReading]; rfl) ?_ ?_
      · split
        · exact .inl rfl
        · exact .inr rfl
      · split
        · rename_i hWidth
          refine ⟨f, ⟨⟨hF.slot.info, hF.slot.origin, hF.slot.data, hF.slot.display⟩, hF.counters, hF.calm⟩,
            hN, ?_⟩
          rw [hWidth, hF.slot.info]
          rfl
        · trivial
  | height i =>
      obtain ⟨f, hF, hN, hWidth⟩ : ReadInv s (.height i) := hReading ▸ h.read
      unfold State.readStep
      rw [hReading]
      refine h.goesOn s.shmem.para (by rw [hReading]; rfl) ?_ ?_
      · split
        · exact .inl rfl
        · exact .inr rfl
      · split
        · rename_i hHeight
          refine ⟨f, ⟨⟨hF.slot.info, hF.slot.origin, hF.slot.data, hF.slot.display⟩, hF.counters, hF.calm⟩,
            hN, hWidth, ?_⟩
          rw [hHeight, hF.slot.info]
          rfl
        · trivial

/-- A call of `frame` waits for the lock, and ends the use of the frame before. -/
theorem step_frame (s : State) (i : Nat) (timeoutMs : Int) : s.step (.frame i timeoutMs) = s ∨
    s.reading = .idle ∧
      s.step (.frame i timeoutMs) = { s.release i with reading := .timeout i timeoutMs } := by
  cases hReading : s.reading with
  | idle =>
      cases hC : s.capturers[i]? with
      | none => exact .inl (by simp [State.step, hReading, hC])
      | some c => exact .inr ⟨rfl, by simp [State.step, hReading, hC]⟩
  | _ => exact .inl (by simp [State.step, hReading])

theorem Inv.step (h : Inv s) (event : Event) (hApart : Apart s event) : Inv (s.step event) := by
  cases event with
  | capture system => exact h.captureStep system hApart
  | read displays => exact h.readStep displays hApart
  | drop i => exact h.release i
  | new currentDisplay =>
      cases hReading : s.reading with
      | idle =>
          have hStep : s.step (.new currentDisplay) = { s with reading := .clear currentDisplay } := by
            simp [State.step, hReading]
          rw [hStep]
          refine h.reads s.shmem.para trivial (fun i hI => by cases hI) fun _ d => ?_
          rw [hReading]
          exact ⟨fun hSame => (by cases hSame), fun hSame => (by cases hSame)⟩
      | _ =>
          have hStep : s.step (.new currentDisplay) = s := by simp [State.step, hReading]
          rw [hStep]
          exact h
  | frame i timeoutMs =>
      rcases step_frame s i timeoutMs with hStep | ⟨hReading, hStep⟩
      · rw [hStep]
        exact h
      · rw [hStep]
        refine (h.release i).reads s.shmem.para trivial (fun j hJ => ?_) fun _ d => ?_
        · obtain rfl := Option.some.inj hJ
          refine ⟨hApart, fun j => ?_⟩
          unfold State.release
          dsimp only
          split
          · rfl
          · rename_i hOther
            refine Option.eq_none_iff_forall_ne_some.mpr fun held hHeld => hOther ?_
            exact Nat.succ_injective ((h.held j held hHeld).1.trans hApart.symm)
        · change s.reading ≠ _ ∧ s.reading ≠ _
          rw [hReading]
          exact ⟨fun hSame => (by cases hSame), fun hSame => (by cases hSame)⟩

end Read

/-- While the two processes keep apart every frame in use is whole, and none is returned twice. -/
theorem whole_of_apart (size : Nat) {events : List Event}
    (hApart : Trace.Always State.step Apart (start size) events) :
    Whole (Trace.run State.step (start size) events) :=
  (Trace.invariant_of_always _ Inv (fun _ event hA h => h.step event hA) (inv_start size) hApart).whole

/-- One display, with a frame of it. -/
def onlyDisplay (data : Bytes) : System where
  displays := some [⟨2, 1⟩]
  created := true
  outcome := .frame data

/-- A capturer is made, the first frame is captured, and the capturer fetches it. -/
def firstFrame : List Event :=
  [.new 0, .read none, .read none, .read (some [⟨2, 1⟩])] ++
    List.replicate 13 (.capture (onlyDisplay [7, 7])) ++ .frame 0 33 :: List.replicate 8 (.read none)

theorem first_frame_is_whole : Whole (Trace.run State.step (start 2) firstFrame) := by
  refine whole_of_apart 2 ?_
  have hNothing : ∀ i, (start 2).held i = none := fun _ => rfl
  refine ⟨trivial, ⟨rfl, hNothing⟩, trivial, trivial, trivial, trivial, trivial, trivial, trivial, trivial,
    trivial, ⟨rfl, rfl, hNothing, rfl⟩, ⟨rfl, rfl, hNothing, rfl⟩, trivial, trivial, trivial, trivial,
    rfl, trivial, trivial, trivial, trivial, trivial, trivial, trivial, trivial, trivial⟩

/-- The counters are equal as soon as a frame has been fetched, and the next one is put into its
place while it is in use. -/
theorem frame_in_use_is_overwritten : ¬ Whole (Trace.run State.step (start 2)
    (firstFrame ++ List.replicate 8 (.capture (onlyDisplay [9, 9])))) := by
  intro hWhole
  obtain ⟨c, f, -, hFrame, -, -, -, -, -, hData⟩ := hWhole.frame 0 ⟨2, some ⟨0, 0, 2, 1, [7, 7]⟩⟩ rfl
  obtain rfl := Option.some.inj hFrame
  exact absurd hData (by decide)

end HibtDesk.PortableService
