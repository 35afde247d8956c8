import HibtDesk.Connection.Start
import HibtDesk.Library.Trace
import HibtDesk.Session.KeyEvents

/-! The modifiers that a connection takes for pressed, and those that its key events left
down. The input thread plays the events one after the other, and what the connection takes
for pressed when it is dropped is released. -/
namespace HibtDesk

open Keyboard (lastDown lastDown_cons)

/-- Keys going down and up, in order. -/
abbrev Strokes := List (Nat × Bool)

/-- What the system makes of raw keys. `virtualKey` and `hotkey` are the keys that Windows
has for a virtual key and at its scan code, `modifierState` tells whether a key is down after
the strokes, and `legacy` plays the events of the other modes. -/
structure Injection where
  isX11 : Bool
  keyCode : Nat → Nat
  virtualKey : Nat → Nat
  hotkey : Nat → Nat
  unicodeSent : Nat → Bool
  shiftLeft : Nat
  shiftRight : Nat
  modifierState : Strokes → Nat → Bool
  isHotKeyModifiersDown : Strokes → Bool
  legacy : Strokes → KeyEvent → Strokes

section Playing
variable (fixed : Fixed) (inj : Injection)

/-- `sim_rdev_rawkey_position`. -/
def simRdevRawkeyPosition (code : Nat) (keydown : Bool) : Strokes :=
  [(fixed.deps.keycodeToRdevKey (inj.keyCode code), keydown)]

/-- `map_keyboard_mode`. On Wayland a key code has sixteen bits. -/
def mapKeyboardMode (event : KeyEvent) : Strokes :=
  if fixed.build.targetOs = .linux ∧ inj.isX11 = false then
    [(fixed.deps.keycodeToRdevKey (event.chr % 2 ^ 16), event.down)]
  else simRdevRawkeyPosition fixed inj event.chr event.down

/-- `translate_process_code`. -/
def translateProcessCode (code : Nat) (down : Bool) : Strokes :=
  match code / 2 ^ 16 with
  | 0 => simRdevRawkeyPosition fixed inj code down
  | vkCode => [(inj.virtualKey vkCode, down)]

/-- `simulate_win2win_hotkey`: a character is sent as such where that works. -/
def simulateWin2winHotkey (code : Nat) (down : Bool) : Strokes :=
  if down && inj.unicodeSent (code % 2 ^ 16) then []
  else [(inj.hotkey (code / 2 ^ 16 % 2 ^ 16), down)]

/-- Shift is let go before text is typed. -/
def releaseShift (before : Strokes) : Strokes :=
  (if inj.modifierState before inj.shiftLeft then [(inj.shiftLeft, false)] else []) ++
    if inj.modifierState before inj.shiftRight then [(inj.shiftRight, false)] else []

/-- `translate_keyboard_mode`. The strokes that type a text leave no key down. -/
def translateKeyboardMode (before : Strokes) (event : KeyEvent) : Strokes :=
  match event.union with
  | some (.seq _) =>
      if fixed.build.targetOs = .macos ∨
          (fixed.build.targetOs = .windows ∧ inj.isHotKeyModifiersDown before = true) then []
      else releaseShift inj before
  | some (.chr code) =>
      if fixed.build.targetOs = .windows then translateProcessCode fixed inj code event.down
      else simRdevRawkeyPosition fixed inj code event.down
  | some (.win2winHotkey code) =>
      if fixed.build.targetOs = .windows then simulateWin2winHotkey inj code event.down else []
  | _ => []

/-- `handle_key_`, without the lock keys that it clicks. -/
def handleKey (before : Strokes) (event : KeyEvent) : Strokes :=
  match event.mode with
  | some .map => mapKeyboardMode fixed inj event
  | some .translate => translateKeyboardMode fixed inj before event
  | _ => inj.legacy before event

/-- A key of the input channel, played after the strokes so far. -/
def handleInputKey (before : Strokes) (event : KeyEvent) (press : Bool) : Strokes :=
  let event := { event with press := false }
  if press then
    let down := handleKey fixed inj before { event with down := true }
    down ++ handleKey fixed inj (before ++ down) { event with down := false }
  else handleKey fixed inj before event

/-- What the input thread played of what was put on its channel. -/
def injected (effects : List Effect) : Strokes :=
  effects.foldl
    (fun before effect =>
      match effect with
      | .input (.key event press) => before ++ handleInputKey fixed inj before event press
      | _ => before) []

/-- `release_pressed_modifiers`. -/
def releasePressedModifiers (conn : Connection) : Strokes :=
  conn.pressedModifiers.map fun key => (key, false)

/-- The connection takes for pressed what is down, and leaves nothing down. -/
structure TracksModifiers (s : State) : Prop where
  exact : ∀ key, key ∈ s.conn.pressedModifiers ↔
    fixed.deps.isModifierKey key = true ∧ lastDown (injected fixed inj s.effects).reverse key = true
  released : ∀ key, fixed.deps.isModifierKey key = true →
    lastDown (injected fixed inj s.effects ++ releasePressedModifiers s.conn).reverse key = false

/-- The key that goes down for an event whose key goes down. -/
def struckKey (event : KeyEvent) : Option Nat :=
  match event.mode, event.union with
  | some .map, _ =>
      if fixed.build.targetOs = .linux ∧ inj.isX11 = false then
        some (fixed.deps.keycodeToRdevKey (event.chr % 2 ^ 16))
      else some (fixed.deps.keycodeToRdevKey (inj.keyCode event.chr))
  | some .translate, some (.chr code) =>
      if fixed.build.targetOs = .windows ∧ code / 2 ^ 16 ≠ 0 then
        some (inj.virtualKey (code / 2 ^ 16))
      else some (fixed.deps.keycodeToRdevKey (inj.keyCode code))
  | some .translate, some (.win2winHotkey code) =>
      if fixed.build.targetOs = .windows ∧ inj.unicodeSent (code % 2 ^ 16) = false then
        some (inj.hotkey (code / 2 ^ 16 % 2 ^ 16))
      else none
  | _, _ => none

/-- The event presses no modifier: neither the one it is taken for nor the one it strikes. -/
structure PressesNoModifier (event : KeyEvent) : Prop where
  taken : fixed.build.targetOs ≠ .linux → (State.modifierKey fixed event).isSome →
    event.press = false
  struck : ∀ key, struckKey fixed inj event = some key → fixed.deps.isModifierKey key = true →
    event.down = true →
      if fixed.build.targetOs = .linux then State.modifierKey fixed event = none
      else event.press = true

/-- What is relied on of the other crates: no modifier has the key code zero, and only
control keys are modifiers by their event. -/
structure Injection.Lawful : Prop where
  keyCodeZero : inj.keyCode 0 = 0
  zero : fixed.deps.isModifierKey (fixed.deps.keycodeToRdevKey 0) = false
  isModifier : ∀ event, fixed.deps.isModifier event = true → ∃ key, event.union = some (.controlKey key)

end Playing

section LastDown
variable {before strokes : Strokes}

/-- Strokes upwards leave no key down that was up, nor one that they are about. -/
theorem lastDown_append_ups (hUps : ∀ stroke ∈ strokes, stroke.2 = false) {key : Nat}
    (hUp : lastDown before.reverse key = false ∨ (key, false) ∈ strokes) :
    lastDown (before ++ strokes).reverse key = false := by
  induction strokes using List.reverseRecOn with
  | nil =>
      rw [List.append_nil]
      exact hUp.resolve_right (by simp)
  | append_singleton strokes last ih =>
      obtain ⟨other, down⟩ := last
      have hLast : down = false := hUps (other, down) (by simp)
      rw [← List.append_assoc, List.reverse_append, List.reverse_singleton, List.singleton_append,
        lastDown_cons, hLast]
      split
      · rfl
      · rename_i hOther
        apply ih fun stroke hStroke => hUps stroke (List.mem_append_left _ hStroke)
        refine hUp.imp_right fun hMem => ?_
        rcases List.mem_append.mp hMem with hFront | hSame
        · exact hFront
        · cases List.mem_singleton.mp hSame
          exact absurd rfl hOther

theorem lastDown_append_down (before : Strokes) (key other : Nat) :
    lastDown (before ++ [(key, true)]).reverse other =
      if key = other then true else lastDown before.reverse other := by
  rw [List.reverse_append, List.reverse_singleton, List.singleton_append, lastDown_cons]

end LastDown

section Played
variable {fixed : Fixed} {inj : Injection} {before : Strokes} {event : KeyEvent}

theorem releaseShift_ups : ∀ stroke ∈ releaseShift inj before, stroke.2 = false := by
  intro stroke hMem
  rcases List.mem_append.mp hMem with hLeft | hRight
  · split at hLeft
    · cases List.mem_singleton.mp hLeft
      rfl
    · cases hLeft
  · split at hRight
    · cases List.mem_singleton.mp hRight
      rfl
    · cases hRight

/-- An event is played as one stroke of the key it strikes, or it presses nothing. -/
theorem handleKey_cases (fixed : Fixed) (inj : Injection) (before : Strokes) (event : KeyEvent)
    (hMode : event.mode = some .map ∨ event.mode = some .translate) :
    (∃ key, struckKey fixed inj event = some key ∧
      handleKey fixed inj before event = [(key, event.down)]) ∨
    (struckKey fixed inj event = none ∧
      ∀ stroke ∈ handleKey fixed inj before event, stroke.2 = false) := by
  obtain ⟨down, press, union, modifiers, mode⟩ := event
  rcases hMode with rfl | rfl
  · left
    unfold handleKey mapKeyboardMode struckKey
    simp only
    by_cases hWayland : fixed.build.targetOs = .linux ∧ inj.isX11 = false
    · rw [if_pos hWayland, if_pos hWayland]
      exact ⟨_, rfl, rfl⟩
    · rw [if_neg hWayland, if_neg hWayland]
      exact ⟨_, rfl, rfl⟩
  · unfold handleKey translateKeyboardMode struckKey
    cases union with
    | none => exact Or.inr ⟨rfl, fun _ hMem => by cases hMem⟩
    | some union =>
        cases union with
        | controlKey key => exact Or.inr ⟨rfl, fun _ hMem => by cases hMem⟩
        | unicode code => exact Or.inr ⟨rfl, fun _ hMem => by cases hMem⟩
        | seq text =>
            right
            refine ⟨rfl, ?_⟩
            simp only
            split
            · exact fun _ hMem => by cases hMem
            · exact releaseShift_ups
        | chr code =>
            left
            simp only
            by_cases hWindows : fixed.build.targetOs = .windows
            · rw [if_pos hWindows]
              unfold translateProcessCode
              cases hHigh : code / 2 ^ 16 with
              | zero => exact ⟨_, if_neg fun hBoth => hBoth.2 rfl, rfl⟩
              | succ high => exact ⟨_, if_pos ⟨hWindows, Nat.succ_ne_zero high⟩, rfl⟩
            · rw [if_neg hWindows]
              exact ⟨_, if_neg fun hBoth => hWindows hBoth.1, rfl⟩
        | win2winHotkey code =>
            simp only
            by_cases hWindows : fixed.build.targetOs = .windows
            · rw [if_pos hWindows]
              unfold simulateWin2winHotkey
              cases hSent : inj.unicodeSent (code % 2 ^ 16) with
              | false =>
                  left
                  rw [Bool.and_false]
                  exact ⟨_, if_pos ⟨hWindows, rfl⟩, rfl⟩
              | true =>
                  right
                  refine ⟨if_neg (fun hBoth => by cases hBoth.2), ?_⟩
                  cases down with
                  | true => exact fun _ hMem => by cases hMem
                  | false =>
                      intro stroke hMem
                      cases List.mem_singleton.mp hMem
                      rfl
            · rw [if_neg hWindows]
              exact Or.inr ⟨if_neg fun hBoth => hWindows hBoth.1, fun _ hMem => by cases hMem⟩

/-- No modifier is down after a key was pressed and released, if none was before. -/
theorem lastDown_press (hMode : event.mode = some .map ∨ event.mode = some .translate) {key : Nat}
    (hUp : lastDown before.reverse key = false) :
    lastDown (before ++ handleInputKey fixed inj before event true).reverse key = false := by
  unfold handleInputKey
  simp only [if_true]
  generalize hStrokes : handleKey fixed inj before
    { event with press := false, down := true } = strokes
  rw [← List.append_assoc]
  have hDown := handleKey_cases fixed inj before { event with press := false, down := true } hMode
  have hRelease :=
    handleKey_cases fixed inj (before ++ strokes) { event with press := false, down := false } hMode
  rw [hStrokes] at hDown
  rcases hDown with ⟨struck, hStruck, hOne⟩ | ⟨hNone, hUps⟩
  · rcases hRelease with ⟨other, hOther, hAfter⟩ | ⟨hNone, -⟩
    · obtain rfl := Option.some.inj (hStruck.symm.trans hOther)
      rw [hAfter, hOne]
      by_cases hSame : struck = key
      · apply lastDown_append_ups (by simp)
        rw [hSame]
        exact Or.inr (List.mem_singleton_self _)
      · apply lastDown_append_ups (by simp)
        rw [lastDown_append_down, if_neg hSame]
        exact Or.inl hUp
    · exact absurd (hStruck.symm.trans hNone) (Option.some_ne_none struck)
  · apply lastDown_append_ups
    · rcases hRelease with ⟨other, hOther, -⟩ | ⟨-, hAfter⟩
      · exact absurd (hOther.symm.trans hNone) (Option.some_ne_none other)
      · exact hAfter
    · exact Or.inl (lastDown_append_ups hUps (Or.inl hUp))

/-- A key that just moves is down afterwards if it went down and is the one that is struck. -/
theorem lastDown_move (hMode : event.mode = some .map ∨ event.mode = some .translate) {key : Nat}
    (hUp : lastDown before.reverse key = false) :
    lastDown (before ++ handleInputKey fixed inj before event false).reverse key = true ↔
      struckKey fixed inj event = some key ∧ event.down = true := by
  have hPlayed := handleKey_cases fixed inj before { event with press := false } hMode
  unfold handleInputKey
  simp only [Bool.false_eq_true, if_false]
  rcases hPlayed with ⟨struck, hStruck, hOne⟩ | ⟨hNone, hUps⟩
  · rw [hOne, show struckKey fixed inj event = some struck from hStruck]
    simp only
    cases event.down with
    | true =>
        rw [lastDown_append_down, hUp, Option.some_inj]
        simp
    | false =>
        rw [lastDown_append_ups (by simp) (Or.inl hUp)]
        simp
  · rw [lastDown_append_ups hUps (Or.inl hUp), show struckKey fixed inj event = none from hNone]
    simp

end Played

/-- Whether the event is put on the input channel as a press. -/
def keyAsPress (fixed : Fixed) (event : KeyEvent) : Bool :=
  match event.union with
  | some (.unicode _) | some (.seq _) => false
  | _ => State.isPress fixed event

/-- The connection takes no modifier for pressed and left none down. -/
structure State.Released (fixed : Fixed) (inj : Injection) (s : State) : Prop where
  authorized : s.conn.authorized = true
  noTunnel : s.conn.portForwardSocket = none
  noCamera : s.conn.isAuthedViewCameraConn = false
  keyboard : s.conn.peerKeyboardEnabled = true
  pressed : s.conn.pressedModifiers = []
  up : ∀ key, fixed.deps.isModifierKey key = true →
    lastDown (injected fixed inj s.effects).reverse key = false

/-- One key event of the peer. -/
def State.keyStep (fixed : Fixed) (s : State) (input : Env × KeyEvent) : State :=
  (s.onMessage fixed input.1 (.keyEvent input.2)).1

section Step
variable {fixed : Fixed} {inj : Injection} {s : State}

theorem injected_concat (effects : List Effect) (event : KeyEvent) (press : Bool) :
    injected fixed inj (effects ++ [.input (.key event press)]) =
      injected fixed inj effects ++ handleInputKey fixed inj (injected fixed inj effects) event press := by
  unfold injected
  rw [List.foldl_append]
  rfl

/-- What a key event does to a connection that took no modifier for pressed. -/
theorem State.Released.step (h : s.Released fixed inj) (input : Env × KeyEvent) :
    (s.keyStep fixed input).effects = s.effects ++ [.input (.key input.2 (keyAsPress fixed input.2))] ∧
    (s.keyStep fixed input).conn.pressedModifiers =
      (if State.isPress fixed input.2 then (State.modifierKey fixed input.2).toList else []) ∧
    (s.keyStep fixed input).conn.authorized = s.conn.authorized ∧
    (s.keyStep fixed input).conn.portForwardSocket = s.conn.portForwardSocket ∧
    (s.keyStep fixed input).conn.isAuthedViewCameraConn = s.conn.isAuthedViewCameraConn ∧
    (s.keyStep fixed input).conn.peerKeyboardEnabled = s.conn.peerKeyboardEnabled := by
  obtain ⟨env, event⟩ := input
  have hStep : s.keyStep fixed (env, event) = s.onKeyEvent fixed env event := by
    unfold keyStep onMessage
    simp only [h.authorized, h.noTunnel, Option.isNone_none, Bool.and_self, if_true]
    rfl
  rw [hStep]
  unfold onKeyEvent
  rw [if_neg (Bool.eq_false_iff.mp h.noCamera), if_pos h.keyboard]
  refine ⟨rfl, ?_, rfl, rfl, rfl, rfl⟩
  have hOld := h.pressed
  simp only [updateAutoDisconnectTimer, emit, hOld]
  cases State.modifierKey fixed event with
  | none => simp
  | some key => cases isPress fixed event <;> rfl

/-- Key codes of other events are zero, which no modifier has. -/
theorem Injection.Lawful.chr_ne_zero (hLawful : inj.Lawful fixed) {event : KeyEvent}
    (hModifier : fixed.deps.isModifierKey (fixed.deps.keycodeToRdevKey event.chr) = true) :
    ∃ code, event.union = some (.chr code) := by
  unfold KeyEvent.chr at hModifier
  split at hModifier
  · rename_i code hUnion
    exact ⟨code, hUnion⟩
  · rw [hLawful.zero] at hModifier
    cases hModifier

/-- A modifier that the event is taken for has a key code of its own. -/
theorem Injection.Lawful.union_of_taken (hLawful : inj.Lawful fixed) {event : KeyEvent} {key : Nat}
    (hTaken : State.modifierKey fixed event = some key) : ∃ code, event.union = some (.chr code) := by
  unfold State.modifierKey at hTaken
  obtain ⟨hKey, hModifier⟩ := Option.filter_eq_some_iff.mp hTaken
  split at hKey
  · obtain rfl := Option.some.inj hKey
    exact hLawful.chr_ne_zero hModifier
  · rename_i code _ hUnion
    exact ⟨code, hUnion⟩
  · cases hKey

/-- A modifier that the event strikes has a key code of its own. -/
theorem Injection.Lawful.union_of_struck (hLawful : inj.Lawful fixed) {event : KeyEvent} {key : Nat}
    (hStruck : struckKey fixed inj event = some key) (hModifier : fixed.deps.isModifierKey key = true) :
    (∃ code, event.union = some (.chr code)) ∨ ∃ code, event.union = some (.win2winHotkey code) := by
  unfold struckKey at hStruck
  split at hStruck
  · left
    have hZero : event.chr ≠ 0 := by
      intro hZero
      rw [hZero, hLawful.keyCodeZero, Nat.zero_mod, ite_self] at hStruck
      rw [← Option.some.inj hStruck, hLawful.zero] at hModifier
      cases hModifier
    unfold KeyEvent.chr at hZero
    split at hZero
    · rename_i code hUnion
      exact ⟨code, hUnion⟩
    · exact absurd rfl hZero
  · rename_i code _ hUnion
    exact Or.inl ⟨code, hUnion⟩
  · rename_i code _ hUnion
    exact Or.inr ⟨code, hUnion⟩
  · cases hStruck

theorem keyAsPress_of_chr {event : KeyEvent} {code : Nat} (hUnion : event.union = some (.chr code)) :
    keyAsPress fixed event = State.isPress fixed event := by
  unfold keyAsPress
  rw [hUnion]

/-- What strikes a modifier is put on the channel for what it is. -/
theorem Injection.Lawful.keyAsPress_of_struck (hLawful : inj.Lawful fixed) {event : KeyEvent} {key : Nat}
    (hStruck : struckKey fixed inj event = some key) (hModifier : fixed.deps.isModifierKey key = true) :
    keyAsPress fixed event = State.isPress fixed event ∧ fixed.deps.isModifier event = false := by
  have hOther : ∀ control, event.union ≠ some (.controlKey control) ∧
      keyAsPress fixed event = State.isPress fixed event := by
    intro control
    unfold keyAsPress
    rcases hLawful.union_of_struck hStruck hModifier with ⟨code, hUnion⟩ | ⟨code, hUnion⟩
    · rw [hUnion]
      exact ⟨(fun hSame => by cases hSame), rfl⟩
    · rw [hUnion]
      exact ⟨(fun hSame => by cases hSame), rfl⟩
  refine ⟨(hOther 0).2, Bool.eq_false_iff.mpr fun hControl => ?_⟩
  obtain ⟨control, hUnion⟩ := hLawful.isModifier event hControl
  exact (hOther control).1 hUnion

/-- Away from Linux a press is what the event says, and on Linux no event that is taken
for a modifier is one. -/
theorem isPress_of_not_linux (hOs : fixed.build.targetOs ≠ .linux) (event : KeyEvent) :
    State.isPress fixed event = event.press := by
  unfold State.isPress
  rw [if_neg hOs]

theorem isPress_of_linux (hOs : fixed.build.targetOs = .linux) {event : KeyEvent} (hDown : event.down = true)
    (hControl : fixed.deps.isModifier event = false) :
    State.isPress fixed event = true ↔ State.modifierKey fixed event = none := by
  unfold State.isPress
  rw [if_pos hOs, hDown, hControl]
  cases State.modifierKey fixed event <;> simp

theorem isPress_of_taken (hOs : fixed.build.targetOs = .linux) {event : KeyEvent}
    (hTaken : (State.modifierKey fixed event).isSome) : State.isPress fixed event = false := by
  unfold State.isPress
  rw [if_pos hOs, hTaken, Bool.or_true]
  simp

/-- The event presses no modifier if what is taken for one is no press and what strikes
one is no stroke downwards alone. -/
theorem Injection.Lawful.pressesNoModifier_iff (hLawful : inj.Lawful fixed) (event : KeyEvent) :
    PressesNoModifier fixed inj event ↔
      ((State.modifierKey fixed event).isSome → State.isPress fixed event = false) ∧
      ∀ key, struckKey fixed inj event = some key → fixed.deps.isModifierKey key = true →
        event.down = true → State.isPress fixed event = true := by
  by_cases hOs : fixed.build.targetOs = .linux
  · constructor
    · intro h
      refine ⟨fun hTaken => isPress_of_taken hOs hTaken, fun key hStruck hModifier hDown => ?_⟩
      have hNot := h.struck key hStruck hModifier hDown
      rw [if_pos hOs] at hNot
      exact (isPress_of_linux hOs hDown (hLawful.keyAsPress_of_struck hStruck hModifier).2).mpr hNot
    · rintro ⟨-, hStrikes⟩
      refine ⟨fun hOther => absurd hOs hOther, fun key hStruck hModifier hDown => ?_⟩
      rw [if_pos hOs]
      exact (isPress_of_linux hOs hDown (hLawful.keyAsPress_of_struck hStruck hModifier).2).mp
        (hStrikes key hStruck hModifier hDown)
  · rw [isPress_of_not_linux hOs]
    constructor
    · intro h
      refine ⟨h.taken hOs, fun key hStruck hModifier hDown => ?_⟩
      have hPress := h.struck key hStruck hModifier hDown
      rw [if_neg hOs] at hPress
      exact hPress
    · rintro ⟨hTaken, hStrikes⟩
      refine ⟨fun _ => hTaken, fun key hStruck hModifier hDown => ?_⟩
      rw [if_neg hOs]
      exact hStrikes key hStruck hModifier hDown

/-- What is taken for pressed is released, so nothing stays down if that is all. -/
theorem TracksModifiers.of_exact
    (hExact : ∀ key, key ∈ s.conn.pressedModifiers ↔ fixed.deps.isModifierKey key = true ∧
      lastDown (injected fixed inj s.effects).reverse key = true) : TracksModifiers fixed inj s := by
  refine ⟨hExact, fun key hModifier => ?_⟩
  have hUps : ∀ stroke ∈ releasePressedModifiers s.conn, stroke.2 = false := by
    intro stroke hMem
    obtain ⟨other, -, rfl⟩ := List.mem_map.mp hMem
    rfl
  apply lastDown_append_ups hUps
  cases hDown : lastDown (injected fixed inj s.effects).reverse key with
  | false => exact Or.inl rfl
  | true => exact Or.inr (List.mem_map.mpr ⟨key, (hExact key).mpr ⟨hModifier, hDown⟩, rfl⟩)

theorem State.Released.tracks (h : s.Released fixed inj) : TracksModifiers fixed inj s := by
  apply TracksModifiers.of_exact
  intro key
  rw [h.pressed]
  refine iff_of_false (by simp) ?_
  rintro ⟨hModifier, hDown⟩
  exact Bool.false_ne_true ((h.up key hModifier).symm.trans hDown)

/-- Events that press no modifier leave all of them released. -/
theorem State.Released.keyStep (hLawful : inj.Lawful fixed) (h : s.Released fixed inj)
    {input : Env × KeyEvent} (hMode : input.2.mode = some .map ∨ input.2.mode = some .translate)
    (hNone : PressesNoModifier fixed inj input.2) : (s.keyStep fixed input).Released fixed inj := by
  obtain ⟨hTaken, hStrikes⟩ := (hLawful.pressesNoModifier_iff input.2).mp hNone
  obtain ⟨hEffects, hPressed, hAuthorized, hTunnel, hCamera, hKeyboard⟩ := h.step input
  refine ⟨hAuthorized.trans h.authorized, hTunnel.trans h.noTunnel, hCamera.trans h.noCamera,
    hKeyboard.trans h.keyboard, ?_, fun key hModifier => ?_⟩
  · rw [hPressed]
    split
    · rename_i hPress
      cases hKey : State.modifierKey fixed input.2 with
      | none => rfl
      | some key =>
          rw [hTaken (by rw [hKey]; rfl)] at hPress
          cases hPress
    · rfl
  · rw [hEffects, injected_concat]
    have hUp := h.up key hModifier
    cases hAs : keyAsPress fixed input.2 with
    | true => exact lastDown_press hMode hUp
    | false =>
        apply Bool.eq_false_iff.mpr
        rw [Ne, lastDown_move hMode hUp]
        rintro ⟨hStruck, hDown⟩
        rw [(hLawful.keyAsPress_of_struck hStruck hModifier).1,
          hStrikes key hStruck hModifier hDown] at hAs
        cases hAs

/-- An event that presses a modifier is not tracked. -/
theorem State.Released.not_tracks (hLawful : inj.Lawful fixed) (h : s.Released fixed inj)
    {input : Env × KeyEvent} (hMode : input.2.mode = some .map ∨ input.2.mode = some .translate)
    (hSome : ¬ PressesNoModifier fixed inj input.2) :
    ¬ TracksModifiers fixed inj (s.keyStep fixed input) := by
  intro hTracks
  apply hSome
  obtain ⟨hEffects, hPressed, -⟩ := h.step input
  rw [hLawful.pressesNoModifier_iff]
  constructor
  · intro hTaken
    obtain ⟨key, hKey⟩ := Option.isSome_iff_exists.mp hTaken
    obtain ⟨code, hUnion⟩ := hLawful.union_of_taken hKey
    by_contra hPress
    rw [Bool.not_eq_false] at hPress
    have hMem : key ∈ (s.keyStep fixed input).conn.pressedModifiers := by
      rw [hPressed, if_pos hPress, hKey]
      exact List.mem_singleton_self key
    -- The key went down and up, and is taken for pressed.
    obtain ⟨hModifier, hDown⟩ := (hTracks.exact key).mp hMem
    rw [hEffects, injected_concat, keyAsPress_of_chr hUnion, hPress,
      lastDown_press hMode (h.up key hModifier)] at hDown
    cases hDown
  · intro key hStruck hModifier hDown
    by_contra hPress
    rw [Bool.not_eq_true] at hPress
    -- The key went down, and nothing is taken for pressed.
    have hMem : key ∈ (s.keyStep fixed input).conn.pressedModifiers := by
      refine (hTracks.exact key).mpr ⟨hModifier, ?_⟩
      rw [hEffects, injected_concat, (hLawful.keyAsPress_of_struck hStruck hModifier).1, hPress]
      exact (lastDown_move hMode (h.up key hModifier)).mpr ⟨hStruck, hDown⟩
    rw [hPressed, hPress, if_neg Bool.false_ne_true] at hMem
    cases hMem

end Step

/-- A connection that has released all modifiers keeps track of them through key events in
the two modes exactly as long as none of them presses a modifier. -/
theorem State.tracksModifiers_iff {fixed : Fixed} {inj : Injection} (hLawful : inj.Lawful fixed)
    {s : State} (hReleased : s.Released fixed inj) {inputs : List (Env × KeyEvent)}
    (hModes : ∀ input ∈ inputs, input.2.mode = some .map ∨ input.2.mode = some .translate) :
    (∀ past, past <+: inputs → TracksModifiers fixed inj (Trace.run (State.keyStep fixed) s past)) ↔
      ∀ input ∈ inputs, PressesNoModifier fixed inj input.2 := by
  rw [← Trace.always_iff_forall_mem (State.keyStep fixed) s inputs,
    Trace.agrees_iff_always (State.keyStep fixed) (fun _ h => h.tracks)
      (fun _ _ h hMode hNone => h.keyStep hLawful hMode hNone)
      (fun _ _ h hMode hSome => h.not_tracks hLawful hMode hSome) hReleased
      ((Trace.always_iff_forall_mem (State.keyStep fixed) s inputs).mpr hModes)]

/-- Keys under X11, with the codes of Shift, Control, Super and Alt for modifiers. -/
def x11Keys : Fixed :=
  { (default : Fixed) with
    deps :=
      { (default : Deps) with
        isModifierKey := fun key => [50, 62, 37, 105, 133, 134, 64, 108].contains key
        isModifier := fun event =>
          match event.union with
          | some (.controlKey key) => [1, 29, 4, 23, 75, 73, 74, 64].contains key
          | _ => false } }

def x11Injection : Injection where
  isX11 := true
  keyCode := id
  virtualKey := id
  hotkey := id
  unicodeSent := fun _ => false
  shiftLeft := 50
  shiftRight := 62
  modifierState := fun before key => lastDown before.reverse key
  isHotKeyModifiersDown := fun _ => false
  legacy := fun _ _ => []

theorem lawful_x11Injection : x11Injection.Lawful x11Keys where
  keyCodeZero := rfl
  zero := by decide
  isModifier := by
    intro event hControl
    simp only [x11Keys] at hControl
    split at hControl
    · rename_i key hUnion
      exact ⟨key, hUnion⟩
    · cases hControl

/-- A remote desktop connection before its first key. -/
def typing : State :=
  let start := Loop.start x11Keys default none 0 1 "10.0.0.1" "salt" "challenge" none none
  { start.state with
    conn := { start.state.conn with authorized := true, authedConnId := some .remote, keyboard := true } }

theorem released_typing : typing.Released x11Keys x11Injection where
  authorized := rfl
  noTunnel := rfl
  noCamera := rfl
  keyboard := rfl
  pressed := rfl
  up := fun _ _ => rfl

/-- The key with the code, up or down. -/
def mapKey (code : Nat) (down : Bool) : Env × KeyEvent :=
  (default, ⟨down, false, some (.chr code), [], some .map⟩)

theorem letter_tracked :
    TracksModifiers x11Keys x11Injection
      (Trace.run (State.keyStep x11Keys) typing [mapKey 50 false, mapKey 38 true]) := by
  refine (State.tracksModifiers_iff lawful_x11Injection released_typing ?_).mpr ?_ _ List.prefix_rfl
  · intro input hMem
    rcases List.mem_cons.mp hMem with rfl | hMem
    · exact Or.inl rfl
    · cases List.mem_singleton.mp hMem
      exact Or.inl rfl
  · intro input hMem
    refine ⟨fun hOs => absurd rfl hOs, fun key hStruck hModifier hDown => ?_⟩
    rcases List.mem_cons.mp hMem with rfl | hMem
    · cases hDown
    · cases List.mem_singleton.mp hMem
      obtain rfl := Option.some.inj hStruck
      exact absurd hModifier (by decide)

/-- Shift goes down on Linux, and the connection does not know of it. -/
theorem shift_left_down :
    ¬ ∀ (fixed : Fixed) (inj : Injection) (s : State) (inputs : List (Env × KeyEvent)),
      inj.Lawful fixed → s.Released fixed inj →
      (∀ input ∈ inputs, input.2.mode = some .map ∨ input.2.mode = some .translate) →
        TracksModifiers fixed inj (Trace.run (State.keyStep fixed) s inputs) := by
  intro hClaim
  have hTracks := hClaim x11Keys x11Injection typing [mapKey 50 true] lawful_x11Injection
    released_typing (fun input hMem => by cases List.mem_singleton.mp hMem; exact Or.inl rfl)
  have hReleased := hTracks.released 50 (by decide)
  exact absurd hReleased (by decide +kernel)

end HibtDesk
