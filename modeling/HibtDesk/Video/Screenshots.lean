import HibtDesk.Library.Trace

/-! Screenshots. A request waits in a table for a frame of its display. Monitors and cameras
are numbered alike, and the table has one place for each number. -/
namespace HibtDesk.Video.Screenshots

inductive Source where
  | monitor
  | camera
  deriving DecidableEq, Repr

/-- A request for the display of an index, by a connection. -/
structure Request where
  conn : Nat
  display : Nat
  deriving DecidableEq, Repr

/-- The entry made for a request, given by its number. What answers it goes to `conn`. -/
structure Screenshot where
  sid : String
  conn : Nat
  restoreVram : Bool
  request : Nat
  deriving DecidableEq, Repr

/-- A frame as it is captured. A buffer comes with its pixels in RGBA or with the error. -/
inductive Frame where
  | pixelBuffer (width height : Nat) (rgba : Except String (List UInt8))
  | texture

/-- The entry is answered with the frame: it is no texture, or the entry was put back before. -/
def Frame.Final (screenshot : Screenshot) : Frame → Prop
  | .pixelBuffer _ _ _ => True
  | .texture => screenshot.restoreVram = true

structure ScreenshotResponse where
  sid : String
  msg : String
  data : List UInt8
  deriving DecidableEq, Repr

/-- A response that was made, with the frame it was made from. -/
structure Answer where
  conn : Nat
  response : ScreenshotResponse
  request : Nat
  source : Source
  display : Nat
  deriving DecidableEq, Repr

/-- Where an entry is: in the table, or with a service that is about to put it back. -/
inductive Place where
  | table
  | service (source : Source)
  deriving DecidableEq, Repr

/-- An entry that was in the table when another connection's, or its own, took its place. -/
structure Loss where
  lost : Screenshot
  conn : Nat
  deriving DecidableEq, Repr

/-- The entries there are, with all requests and answers and the entries that were lost. -/
structure State where
  screenshots : Place → Nat → Option Screenshot
  requests : List Request
  answers : List Answer
  discarded : List Loss

inductive Event where
  | request (conn display : Nat) (sid : String)
  /-- A service captures a frame, which may not be valid. -/
  | frame (source : Source) (display : Nat) (valid : Bool) (frame : Frame)
  /-- A service puts back what it took for a texture. -/
  | putBack (source : Source) (display : Nat)

/-- The response made of a request and what came of the frame. -/
def handleScreenshot (encodePng : Nat → Nat → List UInt8 → Except String (List UInt8))
    (sid msg : String) (width height : Nat) (data : List UInt8) : ScreenshotResponse :=
  if msg = "" then
    if data = [] then
      { sid := sid, msg := "Failed to take screenshot, please try again later.", data := [] }
    else
      match encodePng width height data with
      | .ok png => { sid := sid, msg := "", data := png }
      | .error e => { sid := sid, msg := "Error encoding png: " ++ e, data := [] }
  else { sid := sid, msg := msg, data := [] }

namespace State

def start : State where
  screenshots _ _ := none
  requests := []
  answers := []
  discarded := []

/-- An entry comes to a place, or none. -/
def put (s : State) (place : Place) (display : Nat) (entry : Option Screenshot) : State :=
  { s with
    screenshots := fun other index =>
      if other = place ∧ index = display then entry else s.screenshots other index }

/-- The table takes an entry for a display, and forgets the one it had. -/
def insert (s : State) (display : Nat) (screenshot : Screenshot) : State :=
  { s.put .table display (some screenshot) with
    discarded := s.discarded ++
      (s.screenshots .table display).toList.map fun lost => ⟨lost, screenshot.conn⟩ }

def setTakeScreenshot (s : State) (conn display : Nat) (sid : String) : State :=
  let screenshot := { sid := sid, conn := conn, restoreVram := false, request := s.requests.length }
  { s.insert display screenshot with requests := s.requests ++ [⟨conn, display⟩] }

section Frames
variable (encodePng : Nat → Nat → List UInt8 → Except String (List UInt8))

/-- A response is on its way, in a thread of its own. -/
def answer (s : State) (source : Source) (display : Nat) (screenshot : Screenshot) (msg : String)
    (width height : Nat) (data : List UInt8) : State :=
  let response := handleScreenshot encodePng screenshot.sid msg width height data
  { s with answers := s.answers ++ [⟨screenshot.conn, response, screenshot.request, source, display⟩] }

/-- What a service does with an entry it has taken out of the table. -/
def respond (s : State) (source : Source) (display : Nat) (screenshot : Screenshot) : Frame → State
  | .pixelBuffer width height (.ok rgba) =>
      s.answer encodePng source display screenshot "" width height rgba
  | .pixelBuffer _ _ (.error serr) =>
      s.answer encodePng source display screenshot ("Convert pixfmt: " ++ serr) 0 0 []
  | .texture =>
      if screenshot.restoreVram then
        -- The service was restarted for this entry before.
        s.answer encodePng source display screenshot "Please change codec and try again." 0 0 []
      else s.put (.service source) display (some { screenshot with restoreVram := true })

/-- A valid frame takes the entry out of the table. A service that still has an entry to put
back captures nothing before it has. -/
def handleFrame (s : State) (source : Source) (display : Nat) (valid : Bool) (frame : Frame) : State :=
  if s.screenshots (.service source) display = none ∧ valid = true then
    match s.screenshots .table display with
    | some screenshot => (s.put .table display none).respond encodePng source display screenshot frame
    | none => s
  else s

def step (s : State) : Event → State
  | .request conn display sid => s.setTakeScreenshot conn display sid
  | .frame source display valid frame => s.handleFrame encodePng source display valid frame
  | .putBack source display =>
      match s.screenshots (.service source) display with
      | some screenshot => (s.put (.service source) display none).insert display screenshot
      | none => s

end Frames

/-- Every response is made from a frame of the monitor its connection asked for, there is at
most one to a request, and no request was lost to one of another connection. -/
structure Honest (s : State) : Prop where
  asked : ∀ answer ∈ s.answers, answer.source = .monitor ∧
    s.requests[answer.request]? = some ⟨answer.conn, answer.display⟩
  once : (s.answers.map Answer.request).Nodup
  kept : ∀ loss ∈ s.discarded, loss.lost.conn = loss.conn

/-- The table has no entry of another connection for the display. -/
def Free (s : State) (display conn : Nat) : Prop :=
  ∀ other ∈ s.screenshots .table display, other.conn = conn

/-- An entry comes into the table where no other connection has one, and no camera answers. -/
def Separate (s : State) : Event → Prop
  | .request conn display _ => s.Free display conn
  | .frame source display valid frame =>
      source = .camera → s.screenshots (.service source) display = none → valid = true →
        ∀ screenshot ∈ s.screenshots .table display, ¬ frame.Final screenshot
  | .putBack source display =>
      ∀ screenshot ∈ s.screenshots (.service source) display, s.Free display screenshot.conn

/-- An entry stands for a request that was not answered, and is in one place only. -/
structure Booked (s : State) : Prop where
  known : ∀ place display, ∀ screenshot ∈ s.screenshots place display,
    s.requests[screenshot.request]? = some ⟨screenshot.conn, display⟩
  unanswered : ∀ place display, ∀ screenshot ∈ s.screenshots place display,
    ∀ answer ∈ s.answers, answer.request ≠ screenshot.request
  apart : ∀ place display, ∀ screenshot ∈ s.screenshots place display,
    ∀ place', ∀ screenshot' ∈ s.screenshots place' display,
      screenshot.request = screenshot'.request → place = place'
  honest : s.Honest

theorem booked_start : start.Booked where
  known := nofun
  unanswered := nofun
  apart := nofun
  honest := ⟨nofun, List.nodup_nil, nofun⟩

section Steps
variable {s : State}

theorem mem_put {place other : Place} {display index : Nat} {entry : Option Screenshot}
    {screenshot : Screenshot} (h : screenshot ∈ (s.put place display entry).screenshots other index) :
    (other = place ∧ index = display ∧ screenshot ∈ entry) ∨
      (¬ (other = place ∧ index = display) ∧ screenshot ∈ s.screenshots other index) := by
  by_cases hHere : other = place ∧ index = display
  · have hPlace : (s.put place display entry).screenshots other index = entry := if_pos hHere
    exact Or.inl ⟨hHere.1, hHere.2, hPlace ▸ h⟩
  · have hPlace : (s.put place display entry).screenshots other index = s.screenshots other index :=
      if_neg hHere
    exact Or.inr ⟨hHere, hPlace ▸ h⟩

/-- Nothing is wrong where an entry is gone. -/
theorem Booked.remove (hBooked : s.Booked) (place : Place) (display : Nat) :
    (s.put place display none).Booked := by
  have hOld : ∀ other index, ∀ screenshot ∈ (s.put place display none).screenshots other index,
      screenshot ∈ s.screenshots other index := by
    intro other index screenshot h
    rcases mem_put h with ⟨-, -, hNone⟩ | ⟨-, hThere⟩
    · cases hNone
    · exact hThere
  exact {
    known := fun other index screenshot h => hBooked.known other index _ (hOld _ _ _ h)
    unanswered := fun other index screenshot h => hBooked.unanswered other index _ (hOld _ _ _ h)
    apart := fun other index screenshot h other' screenshot' h' =>
      hBooked.apart other index _ (hOld _ _ _ h) other' _ (hOld _ _ _ h')
    honest := ⟨hBooked.honest.asked, hBooked.honest.once, hBooked.honest.kept⟩ }

/-- An entry may come to a place when its request is known, open and nowhere else. -/
theorem Booked.put (hBooked : s.Booked) {place : Place} {display : Nat} {screenshot : Screenshot}
    (hKnown : s.requests[screenshot.request]? = some ⟨screenshot.conn, display⟩)
    (hOpen : ∀ answer ∈ s.answers, answer.request ≠ screenshot.request)
    (hNowhere : ∀ place, ∀ other ∈ s.screenshots place display, other.request ≠ screenshot.request) :
    (s.put place display (some screenshot)).Booked := by
  refine ⟨fun other index old h => ?_, fun other index old h => ?_, fun other index old h => ?_,
    hBooked.honest.asked, hBooked.honest.once, hBooked.honest.kept⟩
  · rcases mem_put h with ⟨rfl, rfl, hNew⟩ | ⟨-, hThere⟩
    · cases hNew
      exact hKnown
    · exact hBooked.known other index old hThere
  · rcases mem_put h with ⟨rfl, rfl, hNew⟩ | ⟨-, hThere⟩
    · cases hNew
      exact hOpen
    · exact hBooked.unanswered other index old hThere
  · intro other' old' h' hSame
    rcases mem_put h with ⟨rfl, rfl, hNew⟩ | ⟨-, hThere⟩ <;>
      rcases mem_put h' with ⟨hPlace, hIndex, hNew'⟩ | ⟨-, hThere'⟩
    · exact hPlace.symm
    · cases hNew
      exact absurd hSame.symm (hNowhere other' old' hThere')
    · subst hIndex
      cases hNew'
      exact absurd hSame (hNowhere other old hThere)
    · exact hBooked.apart other index old hThere other' old' hThere' hSame

/-- What the table forgets is noted. -/
theorem Booked.insert (hBooked : s.Booked) {display : Nat} {screenshot : Screenshot}
    (hKnown : s.requests[screenshot.request]? = some ⟨screenshot.conn, display⟩)
    (hOpen : ∀ answer ∈ s.answers, answer.request ≠ screenshot.request)
    (hNowhere : ∀ place, ∀ other ∈ s.screenshots place display, other.request ≠ screenshot.request)
    (hFree : s.Free display screenshot.conn) : (s.insert display screenshot).Booked := by
  have hPut : (s.put .table display (some screenshot)).Booked := hBooked.put hKnown hOpen hNowhere
  refine ⟨hPut.known, hPut.unanswered, hPut.apart, hPut.honest.asked, hPut.honest.once, ?_⟩
  intro loss hLoss
  rcases List.mem_append.mp hLoss with hOld | hNew
  · exact hBooked.honest.kept loss hOld
  · obtain ⟨lost, hLost, rfl⟩ := List.mem_map.mp hNew
    exact hFree lost (Option.mem_toList.mp hLost)

/-- A new request has a number that no entry and no answer has. -/
theorem Booked.request (hBooked : s.Booked) (conn display : Nat) :
    { s with requests := s.requests ++ [(⟨conn, display⟩ : Request)] }.Booked ∧
      (∀ answer ∈ s.answers, answer.request ≠ s.requests.length) ∧
      ∀ place, ∀ other ∈ s.screenshots place display, other.request ≠ s.requests.length := by
  have hOld : ∀ (n : Nat) (request : Request), s.requests[n]? = some request →
      (s.requests ++ [(⟨conn, display⟩ : Request)])[n]? = some request := by
    intro n request h
    obtain ⟨hLt, -⟩ := List.getElem?_eq_some_iff.mp h
    rw [List.getElem?_append_left hLt]
    exact h
  have hBelow : ∀ (n : Nat) (request : Request), s.requests[n]? = some request → n ≠ s.requests.length := by
    intro n request h
    obtain ⟨hLt, -⟩ := List.getElem?_eq_some_iff.mp h
    exact Nat.ne_of_lt hLt
  refine ⟨⟨?_, hBooked.unanswered, hBooked.apart, ?_, hBooked.honest.once, hBooked.honest.kept⟩, ?_, ?_⟩
  · exact fun place index screenshot h => hOld _ _ (hBooked.known place index screenshot h)
  · exact fun answer h => (hBooked.honest.asked answer h).imp_right (hOld _ _)
  · exact fun answer h => hBelow _ _ (hBooked.honest.asked answer h).2
  · exact fun place other h => hBelow _ _ (hBooked.known place display other h)

section Respond
variable (encodePng : Nat → Nat → List UInt8 → Except String (List UInt8))

/-- An entry that is nowhere else may be answered from a monitor. -/
theorem Booked.answer (hBooked : s.Booked) {display : Nat} {screenshot : Screenshot}
    (hKnown : s.requests[screenshot.request]? = some ⟨screenshot.conn, display⟩)
    (hOpen : ∀ answer ∈ s.answers, answer.request ≠ screenshot.request)
    (hNowhere : ∀ place, ∀ other ∈ s.screenshots place display, other.request ≠ screenshot.request)
    (msg : String) (width height : Nat) (data : List UInt8) :
    (s.answer encodePng .monitor display screenshot msg width height data).Booked := by
  refine ⟨hBooked.known, ?_, hBooked.apart, ?_, ?_, hBooked.honest.kept⟩
  · intro place index other hThere answer hAnswer
    rcases List.mem_append.mp hAnswer with hOld | hNew
    · exact hBooked.unanswered place index other hThere answer hOld
    · rw [List.mem_singleton.mp hNew]
      intro hSame
      -- The numbers being equal, both are for this display.
      have hIndex : index = display := by
        have hOther := hBooked.known place index other hThere
        rw [← hSame, hKnown] at hOther
        exact (congrArg Request.display (Option.some.inj hOther)).symm
      subst hIndex
      exact hNowhere place other hThere hSame.symm
  · intro answer hAnswer
    rcases List.mem_append.mp hAnswer with hOld | hNew
    · exact hBooked.honest.asked answer hOld
    · rw [List.mem_singleton.mp hNew]
      exact ⟨rfl, hKnown⟩
  · have hOnce := hBooked.honest.once
    change ((s.answers ++ [_]).map _).Nodup
    rw [List.map_append, List.nodup_append]
    refine ⟨hOnce, by simp, fun n hOld m hNew => ?_⟩
    obtain ⟨answer, hAnswer, rfl⟩ := List.mem_map.mp hOld
    rw [List.map_singleton, List.mem_singleton] at hNew
    rw [hNew]
    exact hOpen answer hAnswer

/-- The entry is answered, or it goes with the service. -/
theorem Booked.respond (hBooked : s.Booked) {source : Source} {display : Nat}
    {screenshot : Screenshot} {frame : Frame}
    (hKnown : s.requests[screenshot.request]? = some ⟨screenshot.conn, display⟩)
    (hOpen : ∀ answer ∈ s.answers, answer.request ≠ screenshot.request)
    (hNowhere : ∀ place, ∀ other ∈ s.screenshots place display, other.request ≠ screenshot.request)
    (hSource : source = .camera → ¬ frame.Final screenshot) :
    (s.respond encodePng source display screenshot frame).Booked := by
  have hMonitor : frame.Final screenshot → source = .monitor := by
    intro hFinal
    cases source with
    | monitor => rfl
    | camera => exact absurd hFinal (hSource rfl)
  cases frame with
  | pixelBuffer width height rgba =>
      obtain rfl := hMonitor trivial
      cases rgba with
      | ok rgba => exact hBooked.answer encodePng hKnown hOpen hNowhere _ _ _ _
      | error serr => exact hBooked.answer encodePng hKnown hOpen hNowhere _ _ _ _
  | texture =>
      by_cases hAgain : screenshot.restoreVram = true
      · obtain rfl := hMonitor hAgain
        rw [State.respond, if_pos hAgain]
        exact hBooked.answer encodePng hKnown hOpen hNowhere _ _ _ _
      · rw [State.respond, if_neg hAgain]
        exact hBooked.put hKnown hOpen hNowhere

/-- With an entry out of its place it is nowhere. -/
theorem Booked.nowhere (hBooked : s.Booked) {place : Place} {display : Nat} {screenshot : Screenshot}
    (hThere : screenshot ∈ s.screenshots place display) :
    ∀ other, ∀ entry ∈ (s.put place display none).screenshots other display,
      entry.request ≠ screenshot.request := by
  intro other entry hEntry hSame
  rcases mem_put hEntry with ⟨-, -, hNone⟩ | ⟨hElse, hStays⟩
  · cases hNone
  · exact hElse ⟨hBooked.apart other display entry hStays place screenshot hThere hSame, rfl⟩

theorem Booked.step (hBooked : s.Booked) (event : Event) (hSeparate : s.Separate event) :
    (s.step encodePng event).Booked := by
  cases event with
  | request conn display sid =>
      obtain ⟨hNext, hOpen, hNowhere⟩ := hBooked.request conn display
      exact hNext.insert List.getElem?_concat_length hOpen hNowhere hSeparate
  | frame source display valid frame =>
      change (s.handleFrame encodePng source display valid frame).Booked
      unfold handleFrame
      split
      · rename_i hTakes
        cases hTable : s.screenshots .table display with
        | none => exact hBooked
        | some screenshot =>
            refine (hBooked.remove .table display).respond encodePng
              (hBooked.known .table display screenshot hTable)
              (hBooked.unanswered .table display screenshot hTable) (hBooked.nowhere hTable) ?_
            exact fun hCamera => hSeparate hCamera hTakes.1 hTakes.2 screenshot hTable
      · exact hBooked
  | putBack source display =>
      change (match s.screenshots (.service source) display with
        | some screenshot => (s.put (.service source) display none).insert display screenshot
        | none => s).Booked
      cases hTaken : s.screenshots (.service source) display with
      | none => exact hBooked
      | some screenshot =>
          refine (hBooked.remove _ display).insert (hBooked.known _ display screenshot hTaken)
            (hBooked.unanswered _ display screenshot hTaken) (hBooked.nowhere hTaken) ?_
          intro other hOther
          rcases mem_put hOther with ⟨-, -, hNone⟩ | ⟨-, hStays⟩
          · cases hNone
          · exact hSeparate screenshot hTaken other hStays

/-- An entry that takes another connection's place leaves a loss behind. -/
theorem insert_loses {display : Nat} {screenshot : Screenshot}
    (hNot : ¬ s.Free display screenshot.conn) :
    ∃ loss ∈ (s.insert display screenshot).discarded, loss.lost.conn ≠ loss.conn := by
  obtain ⟨other, hOther⟩ := Classical.not_forall.mp hNot
  obtain ⟨hThere, hConn⟩ := Classical.not_imp.mp hOther
  have hLoss : (⟨other, screenshot.conn⟩ : Loss) ∈ (s.insert display screenshot).discarded :=
    List.mem_append_right _ (List.mem_map.mpr ⟨other, Option.mem_toList.mpr hThere, rfl⟩)
  exact ⟨_, hLoss, hConn⟩

theorem respond_camera_not_honest {display : Nat} {screenshot : Screenshot} {frame : Frame}
    (hFinal : frame.Final screenshot) :
    ¬ (s.respond encodePng .camera display screenshot frame).Honest := by
  have hAnswers : ∀ msg width height data,
      ¬ (s.answer encodePng .camera display screenshot msg width height data).Honest := by
    intro msg width height data hHonest
    have hSource := (hHonest.asked _ (List.mem_append_right _ (List.mem_singleton_self _))).1
    cases hSource
  cases frame with
  | pixelBuffer width height rgba => cases rgba <;> exact hAnswers _ _ _ _
  | texture =>
      change screenshot.restoreVram = true at hFinal
      rw [State.respond, if_pos hFinal]
      exact hAnswers _ _ _ _

theorem breaks (event : Event) (hNot : ¬ s.Separate event) : ¬ (s.step encodePng event).Honest := by
  cases event with
  | request conn display sid =>
      intro hHonest
      obtain ⟨loss, hLoss, hConn⟩ := (insert_loses hNot :
        ∃ loss ∈ (s.insert display ⟨sid, conn, false, s.requests.length⟩).discarded, _)
      exact hConn (hHonest.kept loss hLoss)
  | frame source display valid frame =>
      simp only [Separate, not_forall, not_not] at hNot
      obtain ⟨rfl, hIdle, rfl, screenshot, hTable, hFinal⟩ := hNot
      have hStep : s.step encodePng (.frame .camera display true frame) =
          (s.put .table display none).respond encodePng .camera display screenshot frame := by
        change s.handleFrame encodePng .camera display true frame = _
        rw [handleFrame, if_pos ⟨hIdle, rfl⟩, Option.mem_def.mp hTable]
      rw [hStep]
      exact respond_camera_not_honest encodePng hFinal
  | putBack source display =>
      obtain ⟨screenshot, hScreenshot⟩ := Classical.not_forall.mp hNot
      obtain ⟨hTaken, hTable⟩ := Classical.not_imp.mp hScreenshot
      have hStep : s.step encodePng (.putBack source display) =
          (s.put (.service source) display none).insert display screenshot := by
        change (match s.screenshots (.service source) display with
          | some screenshot => (s.put (.service source) display none).insert display screenshot
          | none => s) = _
        rw [Option.mem_def.mp hTaken]
      have hNot : ¬ (s.put (.service source) display none).Free display screenshot.conn :=
        fun hFree => hTable fun other hOther => hFree other hOther
      obtain ⟨loss, hLoss, hConn⟩ := insert_loses hNot
      rw [hStep]
      exact fun hHonest => hConn (hHonest.kept loss hLoss)

end Respond

end Steps

/-- Screenshots are honest throughout a run exactly if every step of it is separate. -/
theorem honest_iff_separate (encodePng : Nat → Nat → List UInt8 → Except String (List UInt8))
    (events : List Event) :
    (∀ past, past <+: events → (Trace.run (step encodePng) start past).Honest) ↔
      Trace.Always (step encodePng) Separate start events := by
  have hGives : ∀ s : State, s.Booked → s.Honest := fun _ hBooked => hBooked.honest
  have hKeeps : ∀ s event, Booked s → True → s.Separate event → (s.step encodePng event).Booked :=
    fun _ event hBooked _ hSeparate => hBooked.step encodePng event hSeparate
  have hBreaks : ∀ s event, Booked s → True → ¬ s.Separate event → ¬ (s.step encodePng event).Honest :=
    fun _ event _ _ hNot => breaks encodePng event hNot
  exact Trace.agrees_iff_always (step encodePng) hGives hKeeps hBreaks booked_start
    (Trace.always_of_forall _ (fun _ _ => trivial) _ _)

/-- Two connections ask for the same display, and the second one takes the place of the first. -/
theorem second_request_discards_first :
    ¬ (Trace.run (step fun _ _ data => .ok data) start
      [.request 1 0 "a", .request 2 0 "b"]).Honest := by
  intro hHonest
  have hSame := hHonest.kept ⟨⟨"a", 1, false, 0⟩, 2⟩ (List.mem_singleton_self _)
  exact absurd hSame (by decide)

end State

end HibtDesk.Video.Screenshots
