import HibtDesk.Session.KeyReleases

/-! The loop that grabs the keyboard, on its own thread, while the user interface changes the
grab state and relative mouse mode goes on and off. -/
namespace HibtDesk.Keyboard

inductive Os where
  | windows | linux
  deriving DecidableEq

/-- What the grab loop does next with the event it handles. -/
inductive GrabPc where
  | idle
  | isHooked (event : KeyEvent)
  | exitKeyUp (event : KeyEvent)
  | exitShortcut (event : KeyEvent)
  | canExit (event : KeyEvent)
  | exitKeyDown (event : KeyEvent)
  | dispatch (event : KeyEvent)
  | process (queue : List KeyEvent) (stage : Stage)
  deriving DecidableEq

/-- What the user interface does next to change the grab state. -/
inductive UiPc where
  | idle
  | enableGrab
  | clone
  | clear (toRelease : List (Key × Nat))
  | process (queue : List KeyEvent) (stage : Stage)
  | unhook
  | disableGrab

/-- The flags and tables of the program, and which of the keys it looks at are held. -/
structure State where
  tables : Tables
  exitShortcutKeyDown : Bool
  relativeMouseModeActive : Bool
  keyboardHooked : Bool
  grabEnabled : Bool
  grab : GrabPc
  ui : UiPc
  resetting : Bool
  held : Key → Bool

inductive Event where
  | key (event : KeyEvent)
  /-- A step of the grab loop. `eligible` says whether the session may exit relative mouse mode. -/
  | grab (eligible : Bool)
  | run
  | wait
  /-- A step of the change of the grab state. -/
  | ui
  | setRelativeMouseModeState (active : Bool)
  | reset

/-- `is_exit_relative_mouse_shortcut`. -/
def isExitRelativeMouseShortcut (modifiersState : Key → Bool) (key : Key) : Bool :=
  let ctrl := modifiersState .controlLeft || modifiersState .controlRight
  let alt := modifiersState .alt || modifiersState .altGr
  key.isControl && alt || key.isAlt && ctrl

/-- Keys the loop passes on or drops at once. -/
def Os.ignores : Os → Key → Bool
  | .windows, key => key == .capsLock || key == .numLock
  | .linux, .unknown _ => true
  | .linux, _ => false

namespace State
variable (os : Os) (keycode : Nat → Option Nat) (s : State)

def grabStep (eligible : Bool) : State :=
  match s.grab with
  | .idle => s
  | .isHooked event => { s with grab := if s.keyboardHooked then .exitKeyUp event else .dispatch event }
  | .exitKeyUp event =>
      if (event.key.isControl || event.key.isAlt) && !event.press then
        { s with
          exitShortcutKeyDown := false
          grab := if s.exitShortcutKeyDown then .idle else .exitShortcut event }
      else { s with grab := .exitShortcut event }
  | .exitShortcut event =>
      { s with
        grab :=
          if isExitRelativeMouseShortcut s.tables.modifiersState event.key then .canExit event
          else .dispatch event }
  | .canExit event =>
      { s with
        grab :=
          if s.relativeMouseModeActive && eligible then
            if event.press then .exitKeyDown event else .idle
          else .dispatch event }
  | .exitKeyDown _ => { s with exitShortcutKeyDown := true, grab := .idle }
  | .dispatch event =>
      { s with
        grab := if os = .windows ∧ s.keyboardHooked = false then .idle else .process [event] .isLongPress }
  | .process queue stage =>
      let (tables, queue, stage) := s.tables.process keycode queue stage
      { s with tables := tables, grab := if queue.isEmpty then .idle else .process queue stage }

def uiStep : State :=
  match s.ui with
  | .idle => s
  | .enableGrab => { s with grabEnabled := true, ui := .idle }
  | .clone => { s with ui := .clear s.tables.toRelease.entries }
  | .clear toRelease =>
      { s with
        tables := { s.tables with toRelease := .empty }
        ui := .process (releases toRelease) .isLongPress }
  | .process queue stage =>
      let (tables, queue, stage) := s.tables.process keycode queue stage
      { s with tables := tables, ui := if queue.isEmpty then .unhook else .process queue stage }
  | .unhook =>
      { s with keyboardHooked := false, ui := if os = .linux then .disableGrab else .idle }
  | .disableGrab => { s with grabEnabled := false, ui := .idle }

/-- The keyboard reports a key. The loop takes it when it is done with the one before. -/
def keyStep (event : KeyEvent) : State :=
  match s.grab with
  | .idle =>
      if os.ignores event.key then s
      else
        { s with
          held := fun key => if key = event.key then event.press else s.held key
          grab := if os = .linux ∧ s.grabEnabled = false then .idle else .isHooked event }
  | _ => s

def step : Event → State
  | .key event => s.keyStep os event
  | .grab eligible => s.grabStep os keycode eligible
  | .run =>
      match s.ui with
      | .idle => { s with keyboardHooked := true, ui := if os = .linux then .enableGrab else .idle }
      | _ => s
  | .wait =>
      match s.ui with
      | .idle => { s with ui := .clone }
      | _ => s
  | .ui => s.uiStep os keycode
  | .setRelativeMouseModeState active =>
      if s.resetting then s else { s with relativeMouseModeActive := active, resetting := !active }
  | .reset =>
      if s.resetting then { s with exitShortcutKeyDown := false, resetting := false } else s

end State

def start : State where
  tables := { toRelease := .empty, modifiersState := fun _ => false, sent := [] }
  exitShortcutKeyDown := false
  relativeMouseModeActive := false
  keyboardHooked := false
  grabEnabled := false
  grab := .idle
  ui := .idle
  resetting := false
  held _ := false

/-- The event that has been taken up and is not processed yet. -/
def GrabPc.taken : GrabPc → Option KeyEvent
  | .isHooked event | .exitKeyUp event | .exitShortcut event | .canExit event | .exitKeyDown event
  | .dispatch event => some event
  | .idle | .process .. => none

def GrabPc.queue : GrabPc → List KeyEvent
  | .process queue _ => queue
  | _ => []

def GrabPc.stage : GrabPc → Stage
  | .process _ stage => stage
  | _ => .isLongPress

/-- A release is taken for the shortcut's. -/
def State.swallows (s : State) (eligible : Bool) : Bool :=
  match s.grab with
  | .exitKeyUp event => (event.key.isControl || event.key.isAlt) && !event.press && s.exitShortcutKeyDown
  | .canExit event => s.relativeMouseModeActive && eligible && !event.press
  | _ => false

/-- What a step of the grab loop may do to the tables and to its place in the loop. -/
inductive GrabMove (os : Os) (keycode : Nat → Option Nat) (s : State) (eligible : Bool) :
    Tables → GrabPc → Prop where
  | rests (hGrab : s.grab = .idle) : GrabMove os keycode s eligible s.tables .idle
  | goesOn {event : KeyEvent} {next : GrabPc} (hTaken : s.grab.taken = some event)
      (hNext : next.taken = some event) (hDown : next = .exitKeyDown event → event.press = true) :
      GrabMove os keycode s eligible s.tables next
  | drops {event : KeyEvent} (hTaken : s.grab.taken = some event)
      (hReason : s.grab = .exitKeyDown event ∨ s.swallows eligible = true ∨
        os = .windows ∧ s.keyboardHooked = false) :
      GrabMove os keycode s eligible s.tables .idle
  | begins {event : KeyEvent} (hGrab : s.grab = .dispatch event)
      (hReaches : ¬ (os = .windows ∧ s.keyboardHooked = false)) :
      GrabMove os keycode s eligible s.tables (.process [event] .isLongPress)
  | processes {queue : List KeyEvent} {stage : Stage} (hGrab : s.grab = .process queue stage) :
      GrabMove os keycode s eligible (s.tables.process keycode queue stage).1
        (if (s.tables.process keycode queue stage).2.1.isEmpty then .idle
          else .process (s.tables.process keycode queue stage).2.1
            (s.tables.process keycode queue stage).2.2)

section GrabMove
variable (os : Os) (keycode : Nat → Option Nat) (s : State) (eligible : Bool)

theorem State.grabMove : GrabMove os keycode s eligible (s.grabStep os keycode eligible).tables
    (s.grabStep os keycode eligible).grab := by
  cases hGrab : s.grab with
  | idle =>
      simp only [State.grabStep, hGrab]
      exact .rests hGrab
  | isHooked event =>
      simp only [State.grabStep, hGrab]
      refine .goesOn (congrArg GrabPc.taken hGrab) ?_ fun hNext => ?_
      · split <;> rfl
      · split at hNext <;> cases hNext
  | exitKeyUp event =>
      have hTaken := congrArg GrabPc.taken hGrab
      simp only [State.grabStep, hGrab]
      split
      · rename_i hUp
        dsimp only
        split
        · rename_i hFlag
          refine .drops hTaken (.inr (.inl ?_))
          simp only [State.swallows, hGrab]
          rw [hUp, hFlag]
          rfl
        · exact .goesOn hTaken rfl fun hNext => by cases hNext
      · exact .goesOn hTaken rfl fun hNext => by cases hNext
  | exitShortcut event =>
      simp only [State.grabStep, hGrab]
      refine .goesOn (congrArg GrabPc.taken hGrab) ?_ fun hNext => ?_
      · split <;> rfl
      · split at hNext <;> cases hNext
  | canExit event =>
      have hTaken := congrArg GrabPc.taken hGrab
      simp only [State.grabStep, hGrab]
      split
      · rename_i hExits
        split
        · rename_i hPress
          exact .goesOn hTaken rfl fun _ => hPress
        · rename_i hRelease
          refine .drops hTaken (.inr (.inl ?_))
          simp only [State.swallows, hGrab]
          rw [hExits, Bool.eq_false_iff.mpr hRelease]
          rfl
      · exact .goesOn hTaken rfl fun hNext => by cases hNext
  | exitKeyDown event =>
      simp only [State.grabStep, hGrab]
      exact .drops (congrArg GrabPc.taken hGrab) (.inl hGrab)
  | dispatch event =>
      simp only [State.grabStep, hGrab]
      split
      · rename_i hPasses
        exact .drops (congrArg GrabPc.taken hGrab) (.inr (.inr hPasses))
      · rename_i hReaches
        exact .begins hGrab hReaches
  | process queue stage =>
      simp only [State.grabStep, hGrab]
      exact .processes hGrab

/-- The loop leaves the rest of the state alone. -/
theorem State.grabStep_rest : (s.grabStep os keycode eligible).ui = s.ui ∧
    (s.grabStep os keycode eligible).keyboardHooked = s.keyboardHooked ∧
    (s.grabStep os keycode eligible).grabEnabled = s.grabEnabled ∧
    (s.grabStep os keycode eligible).held = s.held := by
  unfold State.grabStep
  split
  case h_3 =>
    split
    · exact ⟨rfl, rfl, rfl, rfl⟩
    · exact ⟨rfl, rfl, rfl, rfl⟩
  all_goals exact ⟨rfl, rfl, rfl, rfl⟩

end GrabMove

end HibtDesk.Keyboard
