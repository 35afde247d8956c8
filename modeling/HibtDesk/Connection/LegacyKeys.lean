import HibtDesk.Library.Trace
import Mathlib.Algebra.Order.Ring.Int
import Mathlib.Data.Nat.Notation
import Mathlib.Data.List.Basic

/-! The keys of the legacy mode. Modifiers that an event asks for are pressed for as long as
the event lasts, keys that are held are recorded by their numbers, and what is recorded is
released when the process ends. -/
namespace HibtDesk.LegacyKeyboard

/-- `enigo::Key`, as far as a key event can name it. -/
inductive Key where
  | alt | backspace | capsLock | control | delete | downArrow | endKey | escape | f1 | f10 | f11
  | f12 | f2 | f3 | f4 | f5 | f6 | f7 | f8 | f9 | home | leftArrow | metaKey | option | pageDown
  | pageUp | returnKey | rightArrow | shift | space | tab | upArrow | numpad0 | numpad1
  | numpad2 | numpad3 | numpad4 | numpad5 | numpad6 | numpad7 | numpad8 | numpad9 | cancel
  | clear | pause | kana | hangul | junja | finalKey | hanja | kanji | convert | select | print
  | execute | snapshot | insert | help | sleep | separator | scroll | numLock | rWin | apps
  | multiply | add | subtract | decimal | divide | equals | numpadEnter | rightAlt
  | rightControl | rightShift
  | layout (chr : Nat)
  deriving DecidableEq, Repr

def Key.isLayout : Key → Bool
  | .layout _ => true
  | _ => false

inductive System where
  | windows | linux
  deriving DecidableEq, Repr

/-- The `union` of a key event. A control key is a number that need not be known. -/
inductive Union where
  | controlKey (value : Int32)
  | chr (code : Nat)
  | unicode (code : Nat)
  | seq (text : String)
  | win2winHotkey (code : Nat)
  deriving DecidableEq, Repr

structure KeyEvent where
  down : Bool
  union : Option Union
  modifiers : List Int32
  deriving DecidableEq, Repr

inductive KeysDown where
  | rdevKey (raw : Nat)
  | enigoKey (record : Nat)
  deriving DecidableEq, Repr

/-- What is injected. Text is typed without a key staying down. -/
inductive Stroke where
  | down (key : Key)
  | up (key : Key)
  | rawUp (raw : Nat)
  | chr (code : Nat) (uppercase : Bool)
  | text (sequence : String)
  deriving DecidableEq, Repr

/-- What the system answers, after the strokes so far: whether a key is down, and whether it
takes a key going down. -/
structure Enigo where
  getKeyState : List Stroke → Key → Bool
  keyDown : List Stroke → Key → Bool

/-- `KEYS_DOWN`, and what was injected, the last first. -/
structure Keyboard where
  keysDown : List KeysDown
  strokes : List Stroke
  deriving DecidableEq, Repr

def Keyboard.inject (keyboard : Keyboard) (stroke : Stroke) : Keyboard :=
  { keyboard with strokes := stroke :: keyboard.strokes }

/-- The last stroke of the key was one down. -/
def held : List Stroke → Key → Bool
  | [], _ => false
  | .down key :: rest, other => if key = other then true else held rest other
  | .up key :: rest, other => if key = other then false else held rest other
  | .rawUp _ :: rest, other => held rest other
  | .chr _ _ :: rest, other => held rest other
  | .text _ :: rest, other => held rest other

def keyCharStart : Nat := 9999

namespace ControlKey

def alt : Int := 1
def control : Int := 4
def meta' : Int := 23
def shift : Int := 29
def rWin : Int := 64
def rShift : Int := 73
def rControl : Int := 74
def rAlt : Int := 75
def ctrlAltDel : Int := 100
def lockScreen : Int := 101

end ControlKey

/-- `KEY_MAP`. -/
def keyMap : List (Int × Key) :=
  [(1, .alt), (2, .backspace), (3, .capsLock), (4, .control), (5, .delete), (6, .downArrow),
    (7, .endKey), (8, .escape), (9, .f1), (10, .f10), (11, .f11), (12, .f12), (13, .f2),
    (14, .f3), (15, .f4), (16, .f5), (17, .f6), (18, .f7), (19, .f8), (20, .f9), (21, .home),
    (22, .leftArrow), (23, .metaKey), (24, .option), (25, .pageDown), (26, .pageUp),
    (27, .returnKey), (28, .rightArrow), (29, .shift), (30, .space), (31, .tab), (32, .upArrow),
    (33, .numpad0), (34, .numpad1), (35, .numpad2), (36, .numpad3), (37, .numpad4),
    (38, .numpad5), (39, .numpad6), (40, .numpad7), (41, .numpad8), (42, .numpad9),
    (43, .cancel), (44, .clear), (45, .alt), (46, .pause), (47, .kana), (48, .hangul),
    (49, .junja), (50, .finalKey), (51, .hanja), (52, .kanji), (53, .convert), (54, .select),
    (55, .print), (56, .execute), (57, .snapshot), (58, .insert), (59, .help), (60, .sleep),
    (61, .separator), (62, .scroll), (63, .numLock), (64, .rWin), (65, .apps), (66, .multiply),
    (67, .add), (68, .subtract), (69, .decimal), (70, .divide), (71, .equals),
    (72, .numpadEnter), (73, .rightShift), (74, .rightControl), (75, .rightAlt)]

def controlKeyValueToKey (value : Int) : Option Key :=
  (keyMap.find? fun entry => entry.1 = value).map (·.2)

/-- `char::from_u32`, with zero where there is no such character. -/
def charValueToKey (value : Nat) : Key :=
  .layout (if value.isValidChar then value else 0)

def recordKeyIsControlKey (record : Nat) : Bool := decide (record < keyCharStart)

def recordKeyIsChr (record : Nat) : Bool := decide (record < keyCharStart)

def recordKeyToKey (record : Nat) : Option Key :=
  if recordKeyIsControlKey record then controlKeyValueToKey record
  else if recordKeyIsChr record then some (charValueToKey (record - keyCharStart))
  else none

def recordPressedKey (record : KeysDown) (down : Bool) (keyboard : Keyboard) : Keyboard :=
  if down then
    { keyboard with keysDown := record :: keyboard.keysDown.filter (· ≠ record) }
  else { keyboard with keysDown := keyboard.keysDown.filter (· ≠ record) }

def releaseRecordKey (record : KeysDown) (keyboard : Keyboard) : Keyboard :=
  match record with
  | .rdevKey raw => keyboard.inject (.rawUp raw)
  | .enigoKey record =>
      match recordKeyToKey record with
      | some key => keyboard.inject (.up key)
      | none => keyboard

/-- `fix_key_down_timeout`, with the milliseconds since each key went down. -/
def fixKeyDownTimeout (force : Bool) (elapsed : KeysDown → Nat) (keyboard : Keyboard) : Keyboard :=
  keyboard.keysDown.foldl
    (fun keyboard record =>
      if force || decide (360000 ≤ elapsed record) then
        releaseRecordKey record (recordPressedKey record false keyboard)
      else keyboard)
    keyboard

section Enigo
variable (system : System) (en : Enigo)

def getModifierState (key : Key) (keyboard : Keyboard) : Bool :=
  let x := en.getKeyState keyboard.strokes key
  match key with
  | .shift => x || en.getKeyState keyboard.strokes .rightShift
  | .control => x || en.getKeyState keyboard.strokes .rightControl
  | .alt => x || en.getKeyState keyboard.strokes .rightAlt
  | .metaKey => x || en.getKeyState keyboard.strokes .rWin
  | .rightShift => x || en.getKeyState keyboard.strokes .shift
  | .rightControl => x || en.getKeyState keyboard.strokes .control
  | .rightAlt => x || en.getKeyState keyboard.strokes .alt
  | .rWin => x || en.getKeyState keyboard.strokes .metaKey
  | _ => x

/-- `en.key_down(key).ok()`. -/
def keyDown (key : Key) (keyboard : Keyboard) : Keyboard :=
  if en.keyDown keyboard.strokes key then keyboard.inject (.down key) else keyboard

def keyUp (key : Key) (keyboard : Keyboard) : Keyboard := keyboard.inject (.up key)

def fixModifier (modifiers : List Int32) (key0 : Int) (key1 : Key) (keyboard : Keyboard) : Keyboard :=
  if getModifierState en key1 keyboard && !modifiers.any (fun modifier => decide (modifier.toInt = key0)) then
    -- AltGr is Control and Alt on Windows.
    if system = .windows ∧ key0 = ControlKey.control ∧ getModifierState en .alt keyboard = true then
      keyboard
    else keyUp key1 keyboard
  else keyboard

/-- The control key that spares a modifier, the one that keeps it down, and the modifier. -/
def modifierTable : List (Int × Int × Key) :=
  [(ControlKey.shift, ControlKey.shift, .shift), (ControlKey.rShift, ControlKey.shift, .rightShift),
    (ControlKey.alt, ControlKey.alt, .alt), (ControlKey.rAlt, ControlKey.alt, .rightAlt),
    (ControlKey.control, ControlKey.control, .control),
    (ControlKey.rControl, ControlKey.control, .rightControl),
    (ControlKey.meta', ControlKey.meta', .metaKey), (ControlKey.rWin, ControlKey.meta', .rWin)]

def fixModifiers (modifiers : List Int32) (ck : Int) (keyboard : Keyboard) : Keyboard :=
  modifierTable.foldl
    (fun keyboard entry =>
      if ck ≠ entry.1 then fixModifier system en modifiers entry.2.1 entry.2.2 keyboard else keyboard)
    keyboard

def getControlKeyValue (event : KeyEvent) : Int :=
  match event.union with
  | some (.controlKey value) => value.toInt
  | _ => -1

def releaseUnpressedModifiers (event : KeyEvent) (keyboard : Keyboard) : Keyboard :=
  fixModifiers system en event.modifiers (getControlKeyValue event) keyboard

def isAltgrPressed (keyboard : Keyboard) : Bool :=
  keyboard.keysDown.contains (.rdevKey ControlKey.rAlt.toNat)

/-- One modifier of `press_modifiers`, with those that are to be released. -/
def pressModifier (pressed : Keyboard × List Key) (value : Int32) : Keyboard × List Key :=
  match controlKeyValueToKey value.toInt with
  | some key =>
      if getModifierState en key pressed.1 then pressed
      else if system = .linux ∧ key = .alt ∧ isAltgrPressed pressed.1 = true then pressed
      else (keyDown en key pressed.1, pressed.2 ++ [key])
  | none => pressed

def pressModifiers (event : KeyEvent) (keyboard : Keyboard) : Keyboard × List Key :=
  event.modifiers.foldl (pressModifier system en) (keyboard, [])

def syncModifiers (event : KeyEvent) (keyboard : Keyboard) : Keyboard × List Key :=
  if event.down then
    pressModifiers system en event (releaseUnpressedModifiers system en event keyboard)
  else (keyboard, [])

def processControlKey (value : Int) (down : Bool) (keyboard : Keyboard) : Keyboard :=
  match controlKeyValueToKey value with
  | some key => if down then keyDown en key keyboard else keyUp key keyboard
  | none => keyboard

def needToUppercase (keyboard : Keyboard) : Bool :=
  getModifierState en .shift keyboard || getModifierState en .capsLock keyboard

/-- A character that no key types is entered as text. -/
def processChr (chr : Nat) (down : Bool) (keyboard : Keyboard) : Keyboard :=
  if down then
    if en.keyDown keyboard.strokes (charValueToKey chr) then
      keyboard.inject (.down (charValueToKey chr))
    else if chr.isValidChar then keyboard.inject (.chr chr (needToUppercase en keyboard))
    else keyboard
  else keyUp (charValueToKey chr) keyboard

def processUnicode (chr : Nat) (keyboard : Keyboard) : Keyboard :=
  if chr.isValidChar then keyboard.inject (.chr chr false) else keyboard

def processSeq (sequence : String) (keyboard : Keyboard) : Keyboard := keyboard.inject (.text sequence)

def releaseKeys (toRelease : List Key) (keyboard : Keyboard) : Keyboard :=
  toRelease.foldl (fun keyboard key => keyUp key keyboard) keyboard

/-- Keys that are carried out by the system and not by a stroke. -/
def isFunctionKey (value : Int) : Bool :=
  decide (value = ControlKey.ctrlAltDel) || decide (value = ControlKey.lockScreen)

/-- A number of 32 bits with a sign, as one of 64 bits without. -/
def asU64 (value : Int32) : Nat := (value.toInt % 2 ^ 64).toNat

def legacyKeyboardMode (event : KeyEvent) (keyboard : Keyboard) : Keyboard :=
  let synced := syncModifiers system en event keyboard
  match event.union with
  | some (.controlKey ck) =>
      if isFunctionKey ck.toInt then synced.1
      else
        releaseKeys synced.2 (processControlKey en ck.toInt event.down
          (recordPressedKey (.enigoKey (asU64 ck)) event.down synced.1))
  | some (.chr chr) =>
      releaseKeys synced.2 (processChr en chr event.down
        (recordPressedKey (.enigoKey (chr + keyCharStart)) event.down synced.1))
  | some (.unicode chr) => releaseKeys synced.2 (processUnicode chr synced.1)
  | some (.seq sequence) => releaseKeys synced.2 (processSeq sequence synced.1)
  | _ => releaseKeys synced.2 synced.1

end Enigo

section Spec

/-- A record that is released when the process ends holds the key. -/
def Keyboard.Recorded (keyboard : Keyboard) (key : Key) : Prop :=
  ∃ record, KeysDown.enigoKey record ∈ keyboard.keysDown ∧ recordKeyToKey record = some key

/-- Every key that is down is recorded. -/
def Keyboard.Covered (keyboard : Keyboard) : Prop :=
  ∀ key, held keyboard.strokes key = true → keyboard.Recorded key

/-- Once the process has released what it takes for down, nothing is. -/
structure Keyboard.Released (elapsed : KeysDown → Nat) (keyboard : Keyboard) : Prop where
  forgotten : (fixKeyDownTimeout true elapsed keyboard).keysDown = []
  up : ∀ key, held (fixKeyDownTimeout true elapsed keyboard).strokes key = false

theorem controlKeyValueToKey_mem {value : Int} {key : Key} (hKey : controlKeyValueToKey value = some key) :
    (value, key) ∈ keyMap := by
  unfold controlKeyValueToKey at hKey
  obtain ⟨entry, hFound, rfl⟩ := Option.map_eq_some_iff.mp hKey
  have hValue := List.find?_some hFound
  rw [← of_decide_eq_true hValue]
  exact List.mem_of_find?_eq_some hFound

theorem controlKey_bounds {value : Int} {key : Key} (hKey : controlKeyValueToKey value = some key) :
    0 ≤ value ∧ value < 9999 := by
  have hAll : ∀ entry ∈ keyMap, 0 ≤ entry.1 ∧ entry.1 < 9999 := by decide
  exact hAll (value, key) (controlKeyValueToKey_mem hKey)

/-- No control key is a character. -/
theorem controlKey_ne_layout {value : Int} {key : Key} (hKey : controlKeyValueToKey value = some key)
    (chr : Nat) : key ≠ .layout chr := by
  rintro rfl
  have hAll : ∀ entry ∈ keyMap, entry.2.isLayout = false := by decide
  have hNot := hAll _ (controlKeyValueToKey_mem hKey)
  cases hNot

theorem recordKeyToKey_eq_some {record : Nat} {key : Key} :
    recordKeyToKey record = some key ↔
      record < keyCharStart ∧ controlKeyValueToKey record = some key := by
  unfold recordKeyToKey recordKeyIsControlKey recordKeyIsChr
  by_cases hRecord : record < keyCharStart <;> simp [hRecord]

theorem Keyboard.recorded_ne_layout {keyboard : Keyboard} {key : Key} (hKey : keyboard.Recorded key)
    (chr : Nat) : key ≠ .layout chr := by
  obtain ⟨record, -, hRecord⟩ := hKey
  exact controlKey_ne_layout (recordKeyToKey_eq_some.mp hRecord).2 chr

/-- The record of a control key on the map is its number. -/
theorem recordKeyToKey_asU64 (value : Int32) :
    recordKeyToKey (asU64 value) = controlKeyValueToKey value.toInt := by
  have hLow : -2 ^ 31 ≤ value.toInt := Int32.le_toInt value
  have hHigh : value.toInt < 2 ^ 31 := Int32.toInt_lt value
  ext key
  rw [recordKeyToKey_eq_some]
  unfold asU64 keyCharStart
  by_cases hSign : 0 ≤ value.toInt
  · have hSame : ((value.toInt % 2 ^ 64).toNat : Int) = value.toInt := by omega
    rw [hSame]
    constructor
    · exact fun hBoth => hBoth.2
    · intro hKey
      have hBounds := controlKey_bounds hKey
      exact ⟨by omega, hKey⟩
  · constructor
    · rintro ⟨hSmall, -⟩
      omega
    · intro hKey
      have hBounds := controlKey_bounds hKey
      omega

theorem held_keyUp (keyboard : Keyboard) (key other : Key) :
    held (keyUp key keyboard).strokes other = true ↔ held keyboard.strokes other = true ∧ other ≠ key := by
  show (if key = other then false else held keyboard.strokes other) = true ↔ _
  by_cases hSame : key = other
  · simp [hSame]
  · simp [hSame, Ne.symm hSame]

theorem held_keyDown (en : Enigo) (keyboard : Keyboard) (key other : Key) :
    held (keyDown en key keyboard).strokes other = true ↔
      held keyboard.strokes other = true ∨ other = key ∧ en.keyDown keyboard.strokes key = true := by
  unfold keyDown
  cases hTaken : en.keyDown keyboard.strokes key with
  | false => simp
  | true =>
      show (if key = other then true else held keyboard.strokes other) = true ↔ _
      by_cases hSame : key = other
      · simp [hSame]
      · simp [hSame, Ne.symm hSame]

theorem keysDown_keyDown (en : Enigo) (keyboard : Keyboard) (key : Key) :
    (keyDown en key keyboard).keysDown = keyboard.keysDown := by
  unfold keyDown
  split <;> rfl

/-- Modifiers that are not asked for are let go, and nothing is pressed. -/
theorem fixModifier_held (system : System) (en : Enigo) (modifiers : List Int32) (key0 : Int) (key1 : Key)
    (keyboard : Keyboard) :
    (fixModifier system en modifiers key0 key1 keyboard).keysDown = keyboard.keysDown ∧
      ∀ key, held (fixModifier system en modifiers key0 key1 keyboard).strokes key = true →
        held keyboard.strokes key = true := by
  unfold fixModifier
  split
  · split
    · exact ⟨rfl, fun _ hHeld => hHeld⟩
    · exact ⟨rfl, fun key hHeld => ((held_keyUp keyboard key1 key).mp hHeld).1⟩
  · exact ⟨rfl, fun _ hHeld => hHeld⟩

theorem fixModifiers_held (system : System) (en : Enigo) (modifiers : List Int32) (ck : Int)
    (keyboard : Keyboard) :
    (fixModifiers system en modifiers ck keyboard).keysDown = keyboard.keysDown ∧
      ∀ key, held (fixModifiers system en modifiers ck keyboard).strokes key = true →
        held keyboard.strokes key = true := by
  unfold fixModifiers
  generalize modifierTable = table
  induction table generalizing keyboard with
  | nil => exact ⟨rfl, fun _ hHeld => hHeld⟩
  | cons entry rest ih =>
      rw [List.foldl_cons]
      split
      · obtain ⟨hKeys, hHeld⟩ := fixModifier_held system en modifiers entry.2.1 entry.2.2 keyboard
        obtain ⟨hKeysRest, hHeldRest⟩ := ih (fixModifier system en modifiers entry.2.1 entry.2.2 keyboard)
        exact ⟨hKeysRest.trans hKeys, fun key hLater => hHeld key (hHeldRest key hLater)⟩
      · exact ih keyboard

/-- What the modifiers of an event bring: what is pressed is on the list of what is to be
released, and is no character. -/
structure Pressing (keyboard : Keyboard) (pressed : Keyboard × List Key) : Prop where
  keysDown : pressed.1.keysDown = keyboard.keysDown
  held : ∀ key, held pressed.1.strokes key = true → held keyboard.strokes key = true ∨ key ∈ pressed.2
  named : ∀ key ∈ pressed.2, ∀ chr, key ≠ .layout chr

theorem Pressing.pressModifier {system : System} {en : Enigo} {keyboard : Keyboard}
    {pressed : Keyboard × List Key} (hPressing : Pressing keyboard pressed) (value : Int32) :
    Pressing keyboard (pressModifier system en pressed value) := by
  unfold LegacyKeyboard.pressModifier
  split
  · rename_i key hKey
    split
    · exact hPressing
    · split
      · exact hPressing
      · refine ⟨(keysDown_keyDown en pressed.1 key).trans hPressing.keysDown, ?_, ?_⟩
        · intro other hOther
          rcases (held_keyDown en pressed.1 key other).mp hOther with hBefore | ⟨rfl, -⟩
          · rcases hPressing.held other hBefore with hHeld | hListed
            · exact Or.inl hHeld
            · exact Or.inr (List.mem_append_left _ hListed)
          · exact Or.inr (List.mem_append_right _ (List.mem_singleton.mpr rfl))
        · intro other hOther
          rcases List.mem_append.mp hOther with hBefore | hLast
          · exact hPressing.named other hBefore
          · rw [List.mem_singleton.mp hLast]
            exact controlKey_ne_layout hKey
  · exact hPressing

theorem Pressing.foldl {system : System} {en : Enigo} {keyboard : Keyboard} (modifiers : List Int32)
    {pressed : Keyboard × List Key} (hPressing : Pressing keyboard pressed) :
    Pressing keyboard (modifiers.foldl (LegacyKeyboard.pressModifier system en) pressed) := by
  induction modifiers generalizing pressed with
  | nil => exact hPressing
  | cons value rest ih => exact ih (hPressing.pressModifier value)

theorem pressing_syncModifiers (system : System) (en : Enigo) (event : KeyEvent) (keyboard : Keyboard) :
    Pressing keyboard (syncModifiers system en event keyboard) := by
  unfold syncModifiers
  split
  · obtain ⟨hKeys, hHeld⟩ :=
      fixModifiers_held system en event.modifiers (getControlKeyValue event) keyboard
    have hStart : Pressing keyboard (releaseUnpressedModifiers system en event keyboard, []) :=
      ⟨hKeys, fun key hKey => Or.inl (hHeld key hKey), fun _ hKey => by cases hKey⟩
    exact hStart.foldl event.modifiers
  · exact ⟨rfl, fun _ hKey => Or.inl hKey, fun _ hKey => by cases hKey⟩

theorem releaseKeys_spec (keys : List Key) (keyboard : Keyboard) :
    (releaseKeys keys keyboard).keysDown = keyboard.keysDown ∧
      ∀ key, held (releaseKeys keys keyboard).strokes key = true ↔
        held keyboard.strokes key = true ∧ key ∉ keys := by
  unfold releaseKeys
  induction keys generalizing keyboard with
  | nil => exact ⟨rfl, fun key => by simp⟩
  | cons first rest ih =>
      obtain ⟨hKeys, hHeld⟩ := ih (keyUp first keyboard)
      refine ⟨hKeys, fun key => ?_⟩
      rw [List.foldl_cons, hHeld, held_keyUp, List.mem_cons, not_or, and_assoc]

/-- What releasing a record of the keys does. -/
theorem releaseRecordKey_spec (record : KeysDown) (keyboard : Keyboard) :
    (releaseRecordKey record keyboard).keysDown = keyboard.keysDown ∧
      ∀ key, held (releaseRecordKey record keyboard).strokes key = true ↔
        held keyboard.strokes key = true ∧
          ¬ ∃ number, record = .enigoKey number ∧ recordKeyToKey number = some key := by
  cases record with
  | rdevKey raw =>
      refine ⟨rfl, fun key => ?_⟩
      have hNone : ¬ ∃ number, KeysDown.rdevKey raw = .enigoKey number ∧
          recordKeyToKey number = some key := by
        rintro ⟨number, hSame, -⟩
        cases hSame
      exact (and_iff_left hNone).symm
  | enigoKey number =>
      cases hKey : recordKeyToKey number with
      | none => simp [releaseRecordKey, hKey]
      | some found =>
          have hStep : releaseRecordKey (.enigoKey number) keyboard = keyUp found keyboard := by
            simp only [releaseRecordKey, hKey]
            rfl
          refine ⟨by rw [hStep]; rfl, fun key => ?_⟩
          rw [hStep, held_keyUp]
          refine and_congr_right fun _ => not_congr ?_
          constructor
          · rintro rfl
            exact ⟨number, rfl, hKey⟩
          · rintro ⟨other, hSame, hOther⟩
            cases hSame
            exact Option.some.inj (hOther.symm.trans hKey)

/-- What is released by force, record after record. -/
theorem fix_foldl_spec (elapsed : KeysDown → Nat) (records : List KeysDown) (keyboard : Keyboard) :
    let fixed := records.foldl
      (fun keyboard record =>
        if true || decide (360000 ≤ elapsed record) then
          releaseRecordKey record (recordPressedKey record false keyboard)
        else keyboard) keyboard
    (∀ record, record ∈ fixed.keysDown ↔ record ∈ keyboard.keysDown ∧ record ∉ records) ∧
      ∀ key, held fixed.strokes key = true ↔ held keyboard.strokes key = true ∧
        ¬ ∃ number, KeysDown.enigoKey number ∈ records ∧ recordKeyToKey number = some key := by
  induction records generalizing keyboard with
  | nil => simp
  | cons first rest ih =>
      obtain ⟨hKeys, hHeld⟩ := releaseRecordKey_spec first (recordPressedKey first false keyboard)
      obtain ⟨hKeysRest, hHeldRest⟩ := ih (releaseRecordKey first (recordPressedKey first false keyboard))
      constructor
      · intro record
        have hForget : (recordPressedKey first false keyboard).keysDown =
            keyboard.keysDown.filter (· ≠ first) := rfl
        rw [List.foldl_cons, Bool.true_or, if_pos rfl, hKeysRest, hKeys, hForget]
        rw [List.mem_filter, List.mem_cons, not_or, decide_eq_true_iff, and_assoc]
      · intro key
        rw [List.foldl_cons, Bool.true_or, if_pos rfl, hHeldRest, hHeld]
        have hSame : (recordPressedKey first false keyboard).strokes = keyboard.strokes := rfl
        rw [hSame, and_assoc]
        refine and_congr_right fun _ => ?_
        rw [← not_or]
        refine not_congr ?_
        constructor
        · rintro (⟨number, rfl, hKey⟩ | ⟨number, hMem, hKey⟩)
          · exact ⟨number, List.mem_cons_self, hKey⟩
          · exact ⟨number, List.mem_cons_of_mem _ hMem, hKey⟩
        · rintro ⟨number, hMem, hKey⟩
          rcases List.mem_cons.mp hMem with rfl | hLater
          · exact Or.inl ⟨number, rfl, hKey⟩
          · exact Or.inr ⟨number, hLater, hKey⟩

/-- All is released at the end if and only if what is down is recorded. -/
theorem released_iff_covered (elapsed : KeysDown → Nat) (keyboard : Keyboard) :
    keyboard.Released elapsed ↔ keyboard.Covered := by
  obtain ⟨hKeys, hHeld⟩ := fix_foldl_spec elapsed keyboard.keysDown keyboard
  constructor
  · intro hReleased key hDown
    by_contra hNot
    have hStill := (hHeld key).mpr ⟨hDown, hNot⟩
    exact Bool.false_ne_true ((hReleased.up key).symm.trans hStill)
  · intro hCovered
    refine ⟨?_, fun key => ?_⟩
    · rw [List.eq_nil_iff_forall_not_mem]
      intro record hRecord
      obtain ⟨hThere, hNot⟩ := (hKeys record).mp hRecord
      exact hNot hThere
    · rw [Bool.eq_false_iff]
      intro hStill
      obtain ⟨hDown, hNot⟩ := (hHeld key).mp hStill
      exact hNot (hCovered key hDown)

end Spec

section Run
variable (system : System)

/-- An event leaves nothing down that is not recorded: a function key presses no modifier
that is not held anyway, and no character goes down. -/
def Harmless (keyboard : Keyboard) (input : Enigo × KeyEvent) : Prop :=
  match input.2.union with
  | some (.controlKey ck) =>
      isFunctionKey ck.toInt = true →
        ∀ key ∈ (syncModifiers system input.1 input.2 keyboard).2,
          held (syncModifiers system input.1 input.2 keyboard).1.strokes key = true → keyboard.Recorded key
  | some (.chr chr) =>
      input.2.down = true →
        input.1.keyDown (syncModifiers system input.1 input.2 keyboard).1.strokes (charValueToKey chr) = false
  | _ => True

/-- An event, with what the system answers while it is handled. -/
def step (keyboard : Keyboard) (input : Enigo × KeyEvent) : Keyboard :=
  legacyKeyboardMode system input.1 input.2 keyboard

section Step
variable {system} {keyboard : Keyboard} {en : Enigo} {event : KeyEvent}

/-- After the modifiers of an event are released, only what was down before is. -/
theorem covered_releaseKeys (hCovered : keyboard.Covered) {pressed : Keyboard × List Key}
    (hPressing : Pressing keyboard pressed) : (releaseKeys pressed.2 pressed.1).Covered := by
  intro key hDown
  obtain ⟨hKeys, hHeld⟩ := releaseKeys_spec pressed.2 pressed.1
  obtain ⟨hStill, hNot⟩ := (hHeld key).mp hDown
  obtain ⟨record, hRecord, hKey⟩ := hCovered key ((hPressing.held key hStill).resolve_right hNot)
  refine ⟨record, ?_, hKey⟩
  rw [hKeys, hPressing.keysDown]
  exact hRecord

/-- A record that stands for no key can be forgotten. -/
theorem Keyboard.Recorded.record {key : Key} (hRecorded : keyboard.Recorded key) {number : Nat}
    (hOther : recordKeyToKey number ≠ some key) (down : Bool) :
    (recordPressedKey (.enigoKey number) down keyboard).Recorded key := by
  obtain ⟨record, hRecord, hKey⟩ := hRecorded
  have hNot : KeysDown.enigoKey record ≠ .enigoKey number := by
    intro hSame
    cases hSame
    exact hOther hKey
  have hKept : KeysDown.enigoKey record ∈ keyboard.keysDown.filter (· ≠ .enigoKey number) :=
    List.mem_filter.mpr ⟨hRecord, decide_eq_true hNot⟩
  refine ⟨record, ?_, hKey⟩
  unfold recordPressedKey
  split
  · exact List.mem_cons_of_mem _ hKept
  · exact hKept

theorem strokes_recordPressedKey (record : KeysDown) (down : Bool) (keyboard : Keyboard) :
    (recordPressedKey record down keyboard).strokes = keyboard.strokes := by
  unfold recordPressedKey
  split <;> rfl

theorem keysDown_processControlKey (value : Int) (down : Bool) (keyboard : Keyboard) :
    (processControlKey en value down keyboard).keysDown = keyboard.keysDown := by
  unfold processControlKey
  split
  · split
    · exact keysDown_keyDown en _ _
    · rfl
  · rfl

theorem keysDown_processChr (chr : Nat) (down : Bool) (keyboard : Keyboard) :
    (processChr en chr down keyboard).keysDown = keyboard.keysDown := by
  unfold processChr
  split
  · split
    · rfl
    · split <;> rfl
  · rfl

/-- What was down before an event, and is not pressed for it only, is recorded, and stays so
while another key is. -/
theorem Keyboard.Covered.recorded (hCovered : keyboard.Covered) {pressed : Keyboard × List Key}
    (hPressing : Pressing keyboard pressed) {key : Key} (hHeld : held pressed.1.strokes key = true)
    (hNot : key ∉ pressed.2) {number : Nat} (hOther : recordKeyToKey number ≠ some key) (down : Bool) :
    (recordPressedKey (.enigoKey number) down pressed.1).Recorded key := by
  obtain ⟨record, hRecord, hKey⟩ := hCovered key ((hPressing.held key hHeld).resolve_right hNot)
  have hRecorded : pressed.1.Recorded key := ⟨record, by rw [hPressing.keysDown]; exact hRecord, hKey⟩
  exact hRecorded.record hOther down

/-- A control key that goes down is recorded, and one that goes up is not down. -/
theorem covered_controlKey (hCovered : keyboard.Covered) {pressed : Keyboard × List Key}
    (hPressing : Pressing keyboard pressed) (ck : Int32) (down : Bool) :
    (releaseKeys pressed.2 (processControlKey en ck.toInt down
      (recordPressedKey (.enigoKey (asU64 ck)) down pressed.1))).Covered := by
  intro key hDown
  obtain ⟨hKeys, hHeld⟩ := releaseKeys_spec pressed.2 (processControlKey en ck.toInt down
    (recordPressedKey (.enigoKey (asU64 ck)) down pressed.1))
  obtain ⟨hStill, hNot⟩ := (hHeld key).mp hDown
  suffices hRecorded : (recordPressedKey (.enigoKey (asU64 ck)) down pressed.1).Recorded key by
    obtain ⟨record, hRecord, hKey⟩ := hRecorded
    exact ⟨record, by rw [hKeys, keysDown_processControlKey]; exact hRecord, hKey⟩
  by_cases hOwn : controlKeyValueToKey ck.toInt = some key
  · cases down with
    | true => exact ⟨asU64 ck, List.mem_cons_self, by rw [recordKeyToKey_asU64]; exact hOwn⟩
    | false =>
        unfold processControlKey at hStill
        rw [hOwn] at hStill
        exact absurd rfl ((held_keyUp _ key key).mp hStill).2
  · refine hCovered.recorded hPressing ?_ hNot (by rw [recordKeyToKey_asU64]; exact hOwn) down
    unfold processControlKey at hStill
    split at hStill
    · rename_i found hFound
      have hOther : key ≠ found := fun hSame => hOwn (hSame ▸ hFound)
      split at hStill
      · rcases (held_keyDown en _ found key).mp hStill with hThere | ⟨hSame, -⟩
        · rw [strokes_recordPressedKey] at hThere
          exact hThere
        · exact absurd hSame hOther
      · have hThere := ((held_keyUp _ found key).mp hStill).1
        rw [strokes_recordPressedKey] at hThere
        exact hThere
    · rw [strokes_recordPressedKey] at hStill
      exact hStill

/-- A character that goes down is down after the event, and is not recorded. -/
theorem covered_chr_iff (hCovered : keyboard.Covered) {pressed : Keyboard × List Key}
    (hPressing : Pressing keyboard pressed) (chr : Nat) (down : Bool) :
    (releaseKeys pressed.2 (processChr en chr down
      (recordPressedKey (.enigoKey (chr + keyCharStart)) down pressed.1))).Covered ↔
        (down = true → en.keyDown pressed.1.strokes (charValueToKey chr) = false) := by
  have hNone : recordKeyToKey (chr + keyCharStart) = none := by
    rw [Option.eq_none_iff_forall_ne_some]
    intro key hKey
    have hSmall := (recordKeyToKey_eq_some.mp hKey).1
    omega
  obtain ⟨hKeys, hHeld⟩ := releaseKeys_spec pressed.2 (processChr en chr down
    (recordPressedKey (.enigoKey (chr + keyCharStart)) down pressed.1))
  constructor
  · intro hAfter hYes
    rw [Bool.eq_false_iff]
    intro hTaken
    subst hYes
    have hDown : held (processChr en chr true
        (recordPressedKey (.enigoKey (chr + keyCharStart)) true pressed.1)).strokes (charValueToKey chr) =
          true := by
      unfold processChr
      rw [if_pos rfl, strokes_recordPressedKey, if_pos hTaken]
      show (if charValueToKey chr = charValueToKey chr then true else _) = true
      rw [if_pos rfl]
    have hStill := (hHeld (charValueToKey chr)).mpr
      ⟨hDown, fun hListed => hPressing.named _ hListed _ rfl⟩
    exact Keyboard.recorded_ne_layout (hAfter _ hStill) _ rfl
  · intro hRefused key hDown
    obtain ⟨hStill, hNot⟩ := (hHeld key).mp hDown
    have hThere : held pressed.1.strokes key = true := by
      unfold processChr at hStill
      rw [strokes_recordPressedKey] at hStill
      cases down with
      | true =>
          rw [if_pos rfl, if_neg (by rw [hRefused rfl]; exact Bool.false_ne_true)] at hStill
          split at hStill
          · rw [← strokes_recordPressedKey]
            exact hStill
          · rw [← strokes_recordPressedKey]
            exact hStill
      | false =>
          rw [← strokes_recordPressedKey]
          exact ((held_keyUp _ _ key).mp hStill).1
    have hNumber : recordKeyToKey (chr + keyCharStart) ≠ some key := by
      rw [hNone]
      exact (Option.some_ne_none key).symm
    obtain ⟨other, hOther, hOtherKey⟩ := hCovered.recorded hPressing hThere hNot hNumber down
    exact ⟨other, by rw [hKeys, keysDown_processChr]; exact hOther, hOtherKey⟩

theorem covered_step_iff (hCovered : keyboard.Covered) (input : Enigo × KeyEvent) :
    (step system keyboard input).Covered ↔ Harmless system keyboard input := by
  obtain ⟨en, event⟩ := input
  have hPressing := pressing_syncModifiers system en event keyboard
  unfold step legacyKeyboardMode Harmless
  dsimp only
  cases event.union with
  | none => exact iff_of_true (covered_releaseKeys hCovered hPressing) trivial
  | some union =>
      cases union with
      | win2winHotkey code => exact iff_of_true (covered_releaseKeys hCovered hPressing) trivial
      | unicode code =>
          refine iff_of_true ?_ trivial
          dsimp only [processUnicode]
          split
          · exact @covered_releaseKeys _ hCovered
              ((syncModifiers system en event keyboard).1.inject (.chr code false), _)
              ⟨hPressing.keysDown, hPressing.held, hPressing.named⟩
          · exact covered_releaseKeys hCovered hPressing
      | seq sequence =>
          exact iff_of_true (@covered_releaseKeys _ hCovered
            ((syncModifiers system en event keyboard).1.inject (.text sequence), _)
            ⟨hPressing.keysDown, hPressing.held, hPressing.named⟩) trivial
      | chr code => exact covered_chr_iff hCovered hPressing code event.down
      | controlKey ck =>
          dsimp only
          by_cases hFunction : isFunctionKey ck.toInt = true
          · rw [if_pos hFunction]
            constructor
            · intro hAfter _ key _ hDown
              obtain ⟨record, hRecord, hKey⟩ := hAfter key hDown
              rw [hPressing.keysDown] at hRecord
              exact ⟨record, hRecord, hKey⟩
            · intro hListed key hDown
              have hRecorded : keyboard.Recorded key := by
                rcases hPressing.held key hDown with hBefore | hPressed
                · exact hCovered key hBefore
                · exact hListed hFunction key hPressed hDown
              obtain ⟨record, hRecord, hKey⟩ := hRecorded
              exact ⟨record, by rw [hPressing.keysDown]; exact hRecord, hKey⟩
          · rw [if_neg hFunction]
            exact iff_of_true (covered_controlKey hCovered hPressing ck event.down)
              fun hYes => absurd hYes hFunction

end Step

/-- At every point of a run of events, releasing what is recorded would release all that was
pressed, if and only if all events are harmless. -/
theorem released_run_iff (elapsed : KeysDown → Nat) (keysDown : List KeysDown)
    (inputs : List (Enigo × KeyEvent)) :
    (∀ past, past <+: inputs →
      (Trace.run (step system) { keysDown := keysDown, strokes := [] } past).Released elapsed) ↔
        Trace.Always (step system) (Harmless system) { keysDown := keysDown, strokes := [] } inputs := by
  have hStart : ({ keysDown := keysDown, strokes := [] } : Keyboard).Covered := by
    intro key hDown
    cases hDown
  rw [← Trace.invariant_iff_always (step system) Keyboard.Covered
    (fun keyboard input hCovered => covered_step_iff hCovered input) hStart]
  exact forall₂_congr fun past _ => released_iff_covered elapsed _

/-- A system on which no key is down that takes all keys. -/
def plainEnigo : Enigo where
  getKeyState strokes key := held strokes key
  keyDown _ _ := true

/-- The key of a character that goes down stays down. -/
theorem character_stays_down :
    ¬ ∀ (system : System) (elapsed : KeysDown → Nat) (inputs : List (Enigo × KeyEvent)),
      (Trace.run (step system) { keysDown := [], strokes := [] } inputs).Released elapsed := by
  intro hClaim
  have hReleased := hClaim .windows (fun _ => 0)
    [(plainEnigo, { down := true, union := some (.chr 97), modifiers := [] })]
  exact absurd (hReleased.up (.layout 97)) (by decide)

end Run

end HibtDesk.LegacyKeyboard
