import HibtDesk.Library.Trace
import HibtDesk.Session.GrabLoop

/-! No key sticks at the peer in a run whose steps leave the tables of keys in order. -/
namespace HibtDesk.Keyboard

/-- The grab state is being changed to `Wait`. -/
def UiPc.waiting : UiPc → Bool
  | .idle | .enableGrab => false
  | _ => true

/-- No event is being handled, and all keys have been released or the keyboard is not hooked. -/
structure Settled (s : State) : Prop where
  grab : s.grab = .idle
  ui : s.ui.waiting = false
  keys : s.keyboardHooked = false ∨ ∀ key, s.held key = false

/-- No release of a key that is down at the peer is taken for the shortcut's, no press is handled
while the keys are released for a change to `Wait`, and a key is released where it was pressed. -/
def Orderly (s : State) : Event → Prop
  | .key event => s.grab = .idle → (s.ui.waiting = true → event.press = false) ∧
      ∀ position, s.tables.toRelease.lookup event.key = some position → event.positionCode = position
  | .wait => ∀ event, s.grab.taken = some event ∨ event ∈ s.grab.queue → event.press = false
  | .grab eligible => s.swallows eligible = true → s.ui.waiting = false →
      ∀ event, s.grab.taken = some event → s.tables.toRelease.lookup event.key = none
  | _ => True

instance Orderly.decidable (s : State) : ∀ event, Decidable (Orderly s event)
  | .key event => inferInstanceAs (Decidable (s.grab = .idle → (s.ui.waiting = true → event.press = false) ∧
      ∀ position ∈ s.tables.toRelease.lookup event.key, event.positionCode = position))
  | .wait => decidable_of_iff ((∀ event ∈ s.grab.taken, event.press = false) ∧
      ∀ event ∈ s.grab.queue, event.press = false) (by simp [Orderly, or_imp, forall_and])
  | .grab eligible => inferInstanceAs (Decidable (s.swallows eligible = true → s.ui.waiting = false →
      ∀ event ∈ s.grab.taken, s.tables.toRelease.lookup event.key = none))
  | .run | .ui | .setRelativeMouseModeState _ | .reset => .isTrue trivial

/-- Key events can get as far as the tables. -/
def State.live (os : Os) (s : State) : Bool := s.keyboardHooked && (os == .windows || s.grabEnabled)

section Invariant
variable (os : Os) (keycode : Nat → Option Nat) (t : Tables) (live : Bool) (held : Key → Bool)

/-- Before an event is processed: what is to be released is held, but for the key of the event. -/
structure Handling (event : KeyEvent) : Prop where
  steady : Steady keycode t [] .isLongPress
  position : ∀ position, t.toRelease.lookup event.key = some position → event.positionCode = position
  reaches : os = .linux → live = true ∨ event.press = false
  keeps : ∀ key, t.toRelease.contains key = true → held key = true ∨ key = event.key ∧ event.press = false
  pressed : event.press = true → held event.key = true

/-- The grab loop, while the keys are not being released. -/
def GrabInv : GrabPc → Prop
  | .idle => Steady keycode t [] .isLongPress ∧ ∀ key, t.toRelease.contains key = true → held key = true
  | .isHooked event | .exitKeyUp event | .exitShortcut event | .canExit event | .dispatch event =>
      Handling os keycode t live held event
  | .exitKeyDown event => Handling os keycode t live held event ∧ event.press = true
  | .process queue stage => ∃ event, queue = [event] ∧ Steady keycode t [event] stage ∧
      (live = true ∨ event.press = false) ∧ (event.press = true → held event.key = true) ∧
      ∀ key, t.toRelease.contains key = true →
        held key = true ∨ key = event.key ∧ event.press = false ∧ stage ≠ .send

/-- The grab loop handles a release, if anything. -/
def Up : GrabPc → Prop
  | .idle => True
  | .isHooked event | .exitKeyUp event | .exitShortcut event | .canExit event | .dispatch event =>
      event.press = false
  | .exitKeyDown _ => False
  | .process queue _ => ∃ event, queue = [event] ∧ event.press = false

/-- The event that has been taken up is for the place where its key was pressed. -/
def Placed (grab : GrabPc) : Prop := ∀ event, grab.taken = some event →
  ∀ position, t.toRelease.lookup event.key = some position → event.positionCode = position

def UiInv (keyboardHooked : Bool) (grab : GrabPc) : UiPc → Prop
  | .clone => Steady keycode t grab.queue grab.stage ∧ Placed t grab
  | .clear toRelease => Steady keycode t grab.queue grab.stage ∧ Placed t grab ∧
      ∀ key position, t.toRelease.lookup key = some position → (key, position) ∈ toRelease
  | .process queue stage => Draining keycode t queue stage grab.queue grab.stage
  | .unhook => Steady keycode t grab.queue grab.stage ∧ ∀ key, t.toRelease.lookup key = none
  | .disableGrab => Steady keycode t grab.queue grab.stage ∧ (∀ key, t.toRelease.lookup key = none) ∧
      keyboardHooked = false
  | _ => True

structure Inv (s : State) : Prop where
  linux : s.grabEnabled = true → os = .linux ∧ (s.keyboardHooked = true ∨ s.ui = .disableGrab)
  enabling : s.ui = .enableGrab → os = .linux ∧ s.keyboardHooked = true
  grabs : s.ui.waiting = false → GrabInv os keycode s.tables (s.live os) s.held s.grab
  dead : s.ui.waiting = false → s.live os = false → ∀ key, s.tables.toRelease.lookup key = none
  waits : s.ui.waiting = true → Up s.grab ∧ UiInv keycode s.tables s.keyboardHooked s.grab s.ui

end Invariant

section Inv
variable {os : Os} {keycode : Nat → Option Nat} {s : State}

theorem steady_start : Steady keycode start.tables [] .isLongPress := by
  refine ⟨(fun code hDown => by cases hDown), (fun key hOn => by cases hOn), (fun key hOn => by cases hOn),
    fun event hMem => ?_, fun event hMem => ?_, (fun hStage => by cases hStage), fun hStage => by cases hStage⟩
  · exact absurd hMem List.not_mem_nil
  · exact absurd hMem List.not_mem_nil

theorem inv_start : Inv os keycode start := by
  refine ⟨(fun hGrab => by cases hGrab), (fun hUi => by cases hUi),
    fun _ => ⟨steady_start, fun key hMem => by cases hMem⟩,
    fun _ _ _ => rfl, fun hWaits => by cases hWaits⟩

theorem contains_eq_false {table : Table Key Nat} (hEmpty : ∀ key, table.lookup key = none) (key : Key) :
    ¬ table.contains key = true := by
  unfold Table.contains
  rw [hEmpty key]
  exact Bool.false_ne_true

theorem Inv.clean (h : Inv os keycode s) (hSettled : Settled s) : s.tables.Clean := by
  have hIdle : GrabInv os keycode s.tables (s.live os) s.held .idle := hSettled.grab ▸ h.grabs hSettled.ui
  obtain ⟨hSteady, hHeld⟩ := hIdle
  refine hSteady.clean fun key => ?_
  rcases hSettled.keys with hUnhooked | hReleased
  · refine h.dead hSettled.ui ?_ key
    rw [State.live, hUnhooked, Bool.false_and]
  · refine Option.eq_none_iff_forall_ne_some.mpr fun position hSome => ?_
    have hDown := hHeld key (Table.contains_iff.mpr ⟨position, hSome⟩)
    rw [hReleased key] at hDown
    cases hDown

/-- The grab loop goes on while the keys are not being released, and may change the tables if
events get that far. -/
theorem Inv.goesOn (h : Inv os keycode s) {t : State} (hUi : s.ui.waiting = false)
    (hSame : t.ui = s.ui ∧ t.keyboardHooked = s.keyboardHooked ∧ t.grabEnabled = s.grabEnabled)
    (hGrab : GrabInv os keycode t.tables (s.live os) t.held t.grab)
    (hDead : s.live os = false → ∀ key, t.tables.toRelease.lookup key = none) : Inv os keycode t := by
  obtain ⟨hUiSame, hHooked, hEnabled⟩ := hSame
  have hLive : t.live os = s.live os := by rw [State.live, State.live, hHooked, hEnabled]
  refine ⟨fun hGrabs => ?_, fun hEnabling => ?_, fun _ => hLive ▸ hGrab, fun _ hOff => hDead (hLive ▸ hOff),
    fun hWaits => ?_⟩
  · rw [hHooked, hUiSame]
    exact h.linux (hEnabled ▸ hGrabs)
  · rw [hHooked]
    exact h.enabling (hUiSame ▸ hEnabling)
  · rw [hUiSame, hUi] at hWaits
    cases hWaits

/-- The grab loop goes on while the keys are being released. -/
theorem Inv.goesOnWaiting (h : Inv os keycode s) {t : State} (hWaits : s.ui.waiting = true)
    (hSame : t.ui = s.ui ∧ t.keyboardHooked = s.keyboardHooked ∧ t.grabEnabled = s.grabEnabled)
    (hUp : Up t.grab) (hUi : UiInv keycode t.tables s.keyboardHooked t.grab s.ui) : Inv os keycode t := by
  obtain ⟨hUiSame, hHooked, hEnabled⟩ := hSame
  refine ⟨fun hGrabs => ?_, fun hEnabling => ?_, fun hNot => ?_, fun hNot => ?_, fun _ => ⟨hUp, ?_⟩⟩
  · rw [hHooked, hUiSame]
    exact h.linux (hEnabled ▸ hGrabs)
  · rw [hHooked]
    exact h.enabling (hUiSame ▸ hEnabling)
  · rw [hUiSame, hWaits] at hNot
    cases hNot
  · rw [hUiSame, hWaits] at hNot
    cases hNot
  · rw [hHooked, hUiSame]
    exact hUi

section Handling
variable {t : Tables} {live : Bool} {held : Key → Bool} {event : KeyEvent}

/-- An event whose release is not needed is done with. -/
theorem Handling.done (h : Handling os keycode t live held event)
    (hNone : event.press = false → t.toRelease.lookup event.key = none) :
    GrabInv os keycode t live held .idle := by
  refine ⟨h.steady, fun key hMem => ?_⟩
  rcases h.keeps key hMem with hHeld | ⟨rfl, hUp⟩
  · exact hHeld
  · obtain ⟨position, hSome⟩ := Table.contains_iff.mp hMem
    cases (hNone hUp).symm.trans hSome

theorem GrabInv.mono {liveToo : Bool} {pc : GrabPc} (h : GrabInv os keycode t live held pc)
    (hLive : live = true → liveToo = true) : GrabInv os keycode t liveToo held pc := by
  have hHandling : ∀ {event}, Handling os keycode t live held event →
      Handling os keycode t liveToo held event :=
    fun hEvent => { hEvent with reaches := fun hOs => (hEvent.reaches hOs).imp_left hLive }
  cases pc with
  | idle => exact h
  | exitKeyDown event => exact ⟨hHandling h.1, h.2⟩
  | process queue stage =>
      obtain ⟨event, hQueue, hSteady, hOn, hRest⟩ := h
      exact ⟨event, hQueue, hSteady, hOn.imp_left hLive, hRest⟩
  | _ => exact hHandling h

end Handling

/-- The tables before and after a step of processing the one event. -/
theorem process_one {t : Tables} {event : KeyEvent} {stage : Stage} :
    ((t.process keycode [event] stage).2.1 = [] ∧
        (t.process keycode [event] stage).1.toRelease = t.toRelease ∧
        ((t.process keycode [event] stage).2.2 = .isLongPress) ∧ (stage = .send ∨ event.press = true)) ∨
      ((t.process keycode [event] stage).2.1 = [event] ∧
        ∀ key, (t.process keycode [event] stage).1.toRelease.contains key = true →
          (t.toRelease.contains key = true ∧
              (stage = .toRelease → event.press = false → key ≠ event.key) ∧
              ((t.process keycode [event] stage).2.2 = .send → stage = .toRelease)) ∨
            key = event.key ∧ event.press = true) := by
  cases stage with
  | isLongPress =>
      cases hLong : event.press && t.modifiersState event.key with
      | true =>
          have hStep : t.process keycode [event] .isLongPress = (t, [], .isLongPress) := if_pos hLong
          rw [hStep]
          exact .inl ⟨rfl, rfl, rfl, .inr (Bool.and_eq_true_iff.mp hLong).1⟩
      | false =>
          have hStep : t.process keycode [event] .isLongPress = (t, [event], .updateModifiersState) :=
            if_neg (by rw [hLong]; exact Bool.false_ne_true)
          rw [hStep]
          exact .inr ⟨rfl, fun key hMem => .inl ⟨hMem, (fun hStage => by cases hStage),
            fun hStage => by cases hStage⟩⟩
  | updateModifiersState =>
      exact .inr ⟨rfl, fun key hMem => .inl ⟨hMem, (fun hStage => by cases hStage),
        fun hStage => by cases hStage⟩⟩
  | toRelease =>
      refine .inr ⟨rfl, fun key hMem => ?_⟩
      cases hPress : event.press with
      | true =>
          by_cases hKey : key = event.key
          · exact .inr ⟨hKey, rfl⟩
          · refine .inl ⟨?_, (fun _ hUp => by cases hUp), fun _ => rfl⟩
            simpa [Tables.process, hPress, Table.contains, hKey] using hMem
      | false =>
          have hKey : key ≠ event.key ∧ t.toRelease.contains key = true := by
            by_cases hSame : key = event.key
            · simp [Tables.process, hPress, Table.contains, hSame] at hMem
            · refine ⟨hSame, ?_⟩
              simpa [Tables.process, hPress, Table.contains, hSame] using hMem
          exact .inl ⟨hKey.2, fun _ _ => hKey.1, fun _ => rfl⟩
  | send => exact .inl ⟨rfl, rfl, rfl, .inl rfl⟩

section GrabMove
variable {t : Tables} {live : Bool} {held : Key → Bool} {event : KeyEvent} {grab : GrabPc}

theorem GrabPc.queue_of_taken (h : grab.taken = some event) : grab.queue = [] ∧ grab.stage = .isLongPress := by
  cases grab with
  | process queue stage => cases h
  | _ => exact ⟨rfl, rfl⟩

theorem grabInv_of_taken (h : grab.taken = some event) : GrabInv os keycode t live held grab ↔
    Handling os keycode t live held event ∧ (grab = .exitKeyDown event → event.press = true) := by
  cases grab with
  | idle | process queue stage => cases h
  | exitKeyDown other =>
      obtain rfl := Option.some.inj h
      exact ⟨fun hInv => ⟨hInv.1, fun _ => hInv.2⟩, fun hInv => ⟨hInv.1, hInv.2 rfl⟩⟩
  | isHooked other | exitKeyUp other | exitShortcut other | canExit other | dispatch other =>
      obtain rfl := Option.some.inj h
      exact ⟨fun hInv => ⟨hInv, fun hSame => by cases hSame⟩, fun hInv => hInv.1⟩

theorem up_of_taken (h : grab.taken = some event) :
    Up grab ↔ event.press = false ∧ grab ≠ .exitKeyDown event := by
  cases grab with
  | idle | process queue stage => cases h
  | exitKeyDown other =>
      obtain rfl := Option.some.inj h
      exact ⟨fun hUp => hUp.elim, fun hUp => hUp.2 rfl⟩
  | isHooked other | exitKeyUp other | exitShortcut other | canExit other | dispatch other =>
      obtain rfl := Option.some.inj h
      exact ⟨fun hUp => ⟨hUp, fun hSame => by cases hSame⟩, fun hUp => hUp.1⟩

/-- The loop processes its event. -/
theorem grabInv_process {stage : Stage} (hInv : GrabInv os keycode t live held (.process [event] stage)) :
    GrabInv os keycode (t.process keycode [event] stage).1 live held
      (if (t.process keycode [event] stage).2.1.isEmpty then .idle
        else .process (t.process keycode [event] stage).2.1 (t.process keycode [event] stage).2.2) := by
  obtain ⟨other, hSame, hSteady, hLive, hPressed, hHeld⟩ := hInv
  obtain rfl : event = other := List.singleton_inj.mp hSame
  have hNext := hSteady.process
  rcases process_one with ⟨hQueue, hTable, hStage, hDone⟩ | ⟨hQueue, hTable⟩
  · rw [hQueue, hStage] at hNext
    rw [hQueue]
    refine ⟨hNext, fun key hMem => ?_⟩
    rw [hTable] at hMem
    rcases hHeld key hMem with hDown | ⟨-, hUp, hOther⟩
    · exact hDown
    · rcases hDone with hSend | hPress
      · exact absurd hSend hOther
      · cases hUp.symm.trans hPress
  · rw [hQueue] at hNext
    rw [hQueue]
    refine ⟨event, rfl, hNext, hLive, hPressed, fun key hMem => ?_⟩
    rcases hTable key hMem with ⟨hBefore, hRemoved, hSend⟩ | ⟨rfl, hPress⟩
    · rcases hHeld key hBefore with hDown | ⟨hKey, hUp, -⟩
      · exact .inl hDown
      · refine .inr ⟨hKey, hUp, fun hStage => ?_⟩
        exact hRemoved (hSend hStage) hUp hKey
    · exact .inl (hPressed hPress)

/-- The loop takes a step while the keys are not being released. -/
theorem GrabMove.grabInv {eligible : Bool} {tables : Tables} (hMove : GrabMove os keycode s eligible tables grab)
    (hInv : GrabInv os keycode s.tables (s.live os) held s.grab)
    (hSwallows : s.swallows eligible = true → ∀ event, s.grab.taken = some event →
      s.tables.toRelease.lookup event.key = none)
    (hDead : s.live os = false → ∀ key, s.tables.toRelease.lookup key = none) :
    GrabInv os keycode tables (s.live os) held grab ∧
      (s.live os = false → ∀ key, tables.toRelease.lookup key = none) := by
  cases hMove with
  | rests hGrab =>
      rw [hGrab] at hInv
      exact ⟨hInv, hDead⟩
  | goesOn hTaken hNext hDown =>
      exact ⟨(grabInv_of_taken hNext).mpr ⟨((grabInv_of_taken hTaken).mp hInv).1, hDown⟩, hDead⟩
  | drops hTaken hReason =>
      obtain ⟨hHandling, hPress⟩ := (grabInv_of_taken hTaken).mp hInv
      refine ⟨hHandling.done fun hUp => ?_, hDead⟩
      rcases hReason with hDown | hSwallowed | ⟨hOs, hUnhooked⟩
      · cases hUp.symm.trans (hPress hDown)
      · exact hSwallows hSwallowed _ hTaken
      · refine hDead ?_ _
        rw [State.live, hUnhooked, Bool.false_and]
  | @begins event hGrab hReaches =>
      rw [hGrab] at hInv
      have hHandling : Handling os keycode s.tables (s.live os) held event := hInv
      refine ⟨⟨event, rfl, hHandling.steady.begins hHandling.position, ?_, hHandling.pressed,
        fun key hMem => ?_⟩, hDead⟩
      · cases hOs : os with
        | linux => exact hOs ▸ hHandling.reaches hOs
        | windows =>
            have hOn : s.keyboardHooked = true := by
              cases hCase : s.keyboardHooked with
              | true => rfl
              | false => exact absurd ⟨hOs, hCase⟩ hReaches
            left
            rw [State.live, hOn]
            rfl
      · refine (hHandling.keeps key hMem).imp id ?_
        rintro ⟨hKey, hUp⟩
        exact ⟨hKey, hUp, fun hStage => by cases hStage⟩
  | @processes queue stage hGrab =>
      rw [hGrab] at hInv
      obtain ⟨event, rfl, -, hLive, -⟩ := id hInv
      refine ⟨grabInv_process hInv, fun hOff key => ?_⟩
      refine Option.eq_none_iff_forall_ne_some.mpr fun position hSome => ?_
      rcases hLive with hOn | hUp
      · cases hOff.symm.trans hOn
      · cases (hDead hOff key).symm.trans (lookup_of_release hUp hSome)

end GrabMove

theorem UiInv.goesOn {t : Tables} {hooked : Bool} {grab next : GrabPc} {ui : UiPc}
    (h : UiInv keycode t hooked grab ui) (hQueue : next.queue = grab.queue) (hStage : next.stage = grab.stage)
    (hTaken : next.taken = none ∨ next.taken = grab.taken) : UiInv keycode t hooked next ui := by
  have hPlaced : Placed t grab → Placed t next := by
    intro hPlaced event hEvent
    rcases hTaken with hNone | hSame
    · cases hNone.symm.trans hEvent
    · exact hPlaced event (hSame ▸ hEvent)
  cases ui with
  | clone =>
      unfold UiInv at h ⊢
      rw [hQueue, hStage]
      exact ⟨h.1, hPlaced h.2⟩
  | clear toRelease =>
      unfold UiInv at h ⊢
      rw [hQueue, hStage]
      exact ⟨h.1, hPlaced h.2.1, h.2.2⟩
  | process queue stage | unhook | disableGrab =>
      unfold UiInv at h ⊢
      rw [hQueue, hStage]
      exact h
  | idle | enableGrab => trivial

/-- A release is taken up. -/
theorem UiInv.takes {t : Tables} {hooked : Bool} {event : KeyEvent} {ui : UiPc}
    (h : UiInv keycode t hooked .idle ui)
    (hPosition : ∀ position, t.toRelease.lookup event.key = some position → event.positionCode = position) :
    UiInv keycode t hooked (.isHooked event) ui := by
  have hPlaced : Placed t (.isHooked event) := by
    intro other hOther
    obtain rfl := Option.some.inj hOther
    exact hPosition
  cases ui with
  | clone => exact ⟨h.1, hPlaced⟩
  | clear toRelease => exact ⟨h.1, hPlaced, h.2.2⟩
  | process queue stage | unhook | disableGrab => exact h
  | idle | enableGrab => trivial

/-- A release begins to be processed. -/
theorem UiInv.begins {t : Tables} {hooked : Bool} {event : KeyEvent} {ui : UiPc}
    (h : UiInv keycode t hooked (.dispatch event) ui) :
    UiInv keycode t hooked (.process [event] .isLongPress) ui := by
  have hPlaced : Placed t (.process [event] .isLongPress) := fun _ hEvent => by cases hEvent
  have hVacuous : (∀ key, t.toRelease.lookup key = none) →
      ∀ position, t.toRelease.lookup event.key = some position → event.positionCode = position :=
    fun hEmpty position hSome => by cases (hEmpty event.key).symm.trans hSome
  cases ui with
  | clone => exact ⟨Steady.begins h.1 (h.2 event rfl), hPlaced⟩
  | clear toRelease => exact ⟨Steady.begins h.1 (h.2.1 event rfl), hPlaced, h.2.2⟩
  | process queue stage => exact Draining.begins h event
  | unhook => exact ⟨Steady.begins h.1 (hVacuous h.2), h.2⟩
  | disableGrab => exact ⟨Steady.begins h.1 (hVacuous h.2.1), h.2⟩
  | idle | enableGrab => trivial

/-- A release is processed. -/
theorem UiInv.process {t : Tables} {hooked : Bool} {event : KeyEvent} {stage : Stage} {grab : GrabPc}
    {ui : UiPc} (h : UiInv keycode t hooked (.process [event] stage) ui) (hUp : event.press = false)
    (hQueue : grab.queue = (t.process keycode [event] stage).2.1)
    (hStage : grab.stage = (t.process keycode [event] stage).2.2) (hTaken : grab.taken = none) :
    UiInv keycode (t.process keycode [event] stage).1 hooked grab ui := by
  have hPlaced : Placed (t.process keycode [event] stage).1 grab :=
    fun _ hEvent => by cases hTaken.symm.trans hEvent
  have hEmpty : (∀ key, t.toRelease.lookup key = none) →
      ∀ key, (t.process keycode [event] stage).1.toRelease.lookup key = none :=
    fun hBefore key => Option.eq_none_iff_forall_ne_some.mpr fun position hSome => by
      cases (hBefore key).symm.trans (lookup_of_release hUp hSome)
  cases ui with
  | clone =>
      unfold UiInv at h ⊢
      rw [hQueue, hStage]
      exact ⟨Steady.process h.1, hPlaced⟩
  | clear toRelease =>
      unfold UiInv at h ⊢
      rw [hQueue, hStage]
      exact ⟨Steady.process h.1, hPlaced, fun key position hSome =>
        h.2.2 key position (lookup_of_release hUp hSome)⟩
  | process queue uiStage =>
      unfold UiInv at h ⊢
      rw [hQueue, hStage]
      exact Draining.release h hUp
  | unhook =>
      unfold UiInv at h ⊢
      rw [hQueue, hStage]
      exact ⟨Steady.process h.1, hEmpty h.2⟩
  | disableGrab =>
      unfold UiInv at h ⊢
      rw [hQueue, hStage]
      exact ⟨Steady.process h.1, hEmpty h.2.1, h.2.2⟩
  | idle | enableGrab => trivial

/-- The loop takes a step while the keys are being released. -/
theorem GrabMove.waiting {eligible hooked : Bool} {tables : Tables} {grab : GrabPc} {ui : UiPc}
    (hMove : GrabMove os keycode s eligible tables grab) (hUp : Up s.grab)
    (hUi : UiInv keycode s.tables hooked s.grab ui) :
    Up grab ∧ UiInv keycode tables hooked grab ui := by
  cases hMove with
  | rests hGrab =>
      rw [hGrab] at hUi
      exact ⟨trivial, hUi⟩
  | goesOn hTaken hNext hDown =>
      obtain ⟨hRelease, -⟩ := (up_of_taken hTaken).mp hUp
      obtain ⟨hQueue, hStage⟩ := GrabPc.queue_of_taken hTaken
      obtain ⟨hNextQueue, hNextStage⟩ := GrabPc.queue_of_taken hNext
      refine ⟨(up_of_taken hNext).mpr ⟨hRelease, fun hSame => ?_⟩,
        hUi.goesOn (hNextQueue.trans hQueue.symm) (hNextStage.trans hStage.symm)
          (.inr (hNext.trans hTaken.symm))⟩
      cases hRelease.symm.trans (hDown hSame)
  | drops hTaken hReason =>
      obtain ⟨hQueue, hStage⟩ := GrabPc.queue_of_taken hTaken
      exact ⟨trivial, hUi.goesOn hQueue.symm hStage.symm (.inl rfl)⟩
  | @begins event hGrab hReaches =>
      rw [hGrab] at hUp hUi
      exact ⟨⟨event, rfl, hUp⟩, hUi.begins⟩
  | @processes queue stage hGrab =>
      rw [hGrab] at hUp hUi
      obtain ⟨event, rfl, hRelease⟩ := hUp
      rcases process_one with ⟨hQueue, -, hStage, -⟩ | ⟨hQueue, -⟩
      · refine ⟨by rw [hQueue]; trivial, hUi.process hRelease (by rw [hQueue]; rfl) ?_ (by rw [hQueue]; rfl)⟩
        rw [hQueue, hStage]
        rfl
      · refine ⟨by rw [hQueue]; exact ⟨event, rfl, hRelease⟩, hUi.process hRelease (by rw [hQueue]; rfl) ?_
          (by rw [hQueue]; rfl)⟩
        rw [hQueue]
        rfl

theorem Inv.grabStep (h : Inv os keycode s) (eligible : Bool) (hOrderly : Orderly s (.grab eligible)) :
    Inv os keycode (s.grabStep os keycode eligible) := by
  have hMove := s.grabMove os keycode eligible
  obtain ⟨hUi, hHooked, hEnabled, hHeld⟩ := s.grabStep_rest os keycode eligible
  cases hWaits : s.ui.waiting with
  | true =>
      obtain ⟨hUp, hInv⟩ := h.waits hWaits
      obtain ⟨hNextUp, hNext⟩ := hMove.waiting hUp hInv
      exact h.goesOnWaiting hWaits ⟨hUi, hHooked, hEnabled⟩ hNextUp hNext
  | false =>
      obtain ⟨hNext, hDead⟩ := hMove.grabInv (h.grabs hWaits) (fun hSwallows => hOrderly hSwallows hWaits)
        (h.dead hWaits)
      exact h.goesOn hWaits ⟨hUi, hHooked, hEnabled⟩ (hHeld ▸ hNext) hDead

theorem Inv.keyStep (h : Inv os keycode s) (event : KeyEvent) (hOrderly : Orderly s (.key event)) :
    Inv os keycode (s.keyStep os event) := by
  cases hGrab : s.grab with
  | idle =>
      obtain ⟨hRelease, hPosition⟩ := hOrderly hGrab
      unfold State.keyStep
      rw [hGrab]
      dsimp only
      split
      · exact h
      cases hWaits : s.ui.waiting with
      | true =>
          have hUi := (h.waits hWaits).2
          rw [hGrab] at hUi
          refine h.goesOnWaiting hWaits ⟨rfl, rfl, rfl⟩ ?_ ?_
          · dsimp only
            split
            · trivial
            · exact hRelease hWaits
          · dsimp only
            split
            · exact hUi
            · exact hUi.takes hPosition
      | false =>
          have hIdle : GrabInv os keycode s.tables (s.live os) s.held .idle := hGrab ▸ h.grabs hWaits
          obtain ⟨hSteady, hHeld⟩ := hIdle
          refine h.goesOn hWaits ⟨rfl, rfl, rfl⟩ ?_ (h.dead hWaits)
          dsimp only
          split
          · rename_i hFree
            -- nothing gets to the tables, so there is nothing in them
            have hDead : s.live os = false := by
              rw [State.live, hFree.1, hFree.2]
              exact Bool.and_false _
            exact ⟨hSteady, fun key hMem => absurd hMem (contains_eq_false (h.dead hWaits hDead) key)⟩
          · rename_i hGrabbed
            refine ⟨hSteady, hPosition, fun hOs => .inl ?_, fun key hMem => ?_, fun hPress => ?_⟩
            · have hEnabled : s.grabEnabled = true := by
                cases hCase : s.grabEnabled with
                | true => rfl
                | false => exact absurd ⟨hOs, hCase⟩ hGrabbed
              rw [State.live, hEnabled, Bool.or_true, Bool.and_true]
              refine (h.linux hEnabled).2.resolve_right fun hUi => ?_
              rw [hUi] at hWaits
              cases hWaits
            · by_cases hKey : key = event.key
              · rw [if_pos hKey]
                cases hPress : event.press with
                | true => exact .inl rfl
                | false => exact .inr ⟨hKey, rfl⟩
              · rw [if_neg hKey]
                exact .inl (hHeld key hMem)
            · exact (if_pos rfl).trans hPress
  | _ =>
      have hStep : s.keyStep os event = s := by
        unfold State.keyStep
        rw [hGrab]
      rw [hStep]
      exact h

/-- The change to `Wait` goes on, with the keyboard still hooked as it was. -/
theorem Inv.releasesOn (h : Inv os keycode s) {tables : Tables} {ui : UiPc} (hWaits : s.ui.waiting = true)
    (hOther : s.ui ≠ .disableGrab) (hNext : ui.waiting = true)
    (hUi : UiInv keycode tables s.keyboardHooked s.grab ui) :
    Inv os keycode { s with tables := tables, ui := ui } := by
  refine ⟨fun hGrabs => ⟨(h.linux hGrabs).1, .inl ((h.linux hGrabs).2.resolve_right hOther)⟩,
    fun hEnabling => ?_, fun hNot => ?_, fun hNot => ?_, fun _ => ⟨(h.waits hWaits).1, hUi⟩⟩
  · rw [show ui = .enableGrab from hEnabling] at hNext
    cases hNext
  · cases hNot.symm.trans hNext
  · cases hNot.symm.trans hNext

theorem Up.release {grab : GrabPc} (h : Up grab) :
    (∀ event ∈ grab.queue, event.press = false) ∧ grab.queue.length ≤ 1 := by
  cases grab with
  | process queue stage =>
      obtain ⟨event, rfl, hRelease⟩ := h
      exact ⟨fun other hMem => List.mem_singleton.mp hMem ▸ hRelease, Nat.le_refl 1⟩
  | _ => exact ⟨fun other hMem => absurd hMem List.not_mem_nil, Nat.zero_le 1⟩

/-- The grab loop when the change to `Wait` is over. -/
theorem Up.grabInv {t : Tables} {live : Bool} {held : Key → Bool} {grab : GrabPc} (h : Up grab)
    (hSteady : Steady keycode t grab.queue grab.stage) (hEmpty : ∀ key, t.toRelease.lookup key = none) :
    GrabInv os keycode t live held grab := by
  have hVacuous : ∀ key, ¬ t.toRelease.contains key = true := contains_eq_false hEmpty
  have hHandling : ∀ event, event.press = false → Steady keycode t [] .isLongPress →
      Handling os keycode t live held event := by
    intro event hRelease hNothing
    refine ⟨hNothing, fun position hSome => ?_, fun _ => .inr hRelease,
      fun key hMem => absurd hMem (hVacuous key), fun hPress => ?_⟩
    · cases (hEmpty event.key).symm.trans hSome
    · cases hRelease.symm.trans hPress
  cases grab with
  | idle => exact ⟨hSteady, fun key hMem => absurd hMem (hVacuous key)⟩
  | exitKeyDown event => exact h.elim
  | process queue stage =>
      obtain ⟨event, rfl, hRelease⟩ := h
      refine ⟨event, rfl, hSteady, .inr hRelease, fun hPress => ?_, fun key hMem => absurd hMem (hVacuous key)⟩
      cases hRelease.symm.trans hPress
  | isHooked event | exitKeyUp event | exitShortcut event | canExit event | dispatch event =>
      exact hHandling event h hSteady

theorem Inv.uiStep (h : Inv os keycode s) : Inv os keycode (s.uiStep os keycode) := by
  cases hUi : s.ui with
  | idle =>
      have hStep : s.uiStep os keycode = s := by
        unfold State.uiStep
        rw [hUi]
      rw [hStep]
      exact h
  | enableGrab =>
      have hStep : s.uiStep os keycode = { s with grabEnabled := true, ui := .idle } := by
        unfold State.uiStep
        rw [hUi]
      obtain ⟨hOs, hHooked⟩ := h.enabling hUi
      have hLive : State.live os { s with grabEnabled := true, ui := .idle } = true := by
        rw [State.live, hHooked, Bool.or_true]
        rfl
      rw [hStep]
      refine ⟨fun _ => ⟨hOs, .inl hHooked⟩, (fun hSame => by cases hSame),
        fun _ => (h.grabs (by rw [hUi]; rfl)).mono fun _ => hLive, fun _ hDead => ?_,
        fun hNot => by cases hNot⟩
      cases hDead.symm.trans hLive
  | clone =>
      obtain ⟨-, hInv⟩ := h.waits (by rw [hUi]; rfl)
      have hStep : s.uiStep os keycode = { s with ui := .clear s.tables.toRelease.entries } := by
        unfold State.uiStep
        rw [hUi]
      rw [hUi] at hInv
      rw [hStep]
      exact h.releasesOn (by rw [hUi]; rfl) (by rw [hUi]; exact fun hSame => by cases hSame) rfl
        ⟨hInv.1, hInv.2, fun key position hSome => Table.lookup_eq_some_iff.mp hSome⟩
  | clear toRelease =>
      obtain ⟨hUp, hInv⟩ := h.waits (by rw [hUi]; rfl)
      have hStep : s.uiStep os keycode =
          { s with
            tables := { s.tables with toRelease := .empty }
            ui := .process (releases toRelease) .isLongPress } := by
        unfold State.uiStep
        rw [hUi]
      rw [hUi] at hInv
      obtain ⟨hSteady, -, hAll⟩ := hInv
      rw [hStep]
      exact h.releasesOn (by rw [hUi]; rfl) (by rw [hUi]; exact fun hSame => by cases hSame) rfl
        (hSteady.draining hUp.release.1 hAll)
  | process queue stage =>
      obtain ⟨hUp, hInv⟩ := h.waits (by rw [hUi]; rfl)
      have hStep : s.uiStep os keycode =
          { s with
            tables := (s.tables.process keycode queue stage).1
            ui :=
              if (s.tables.process keycode queue stage).2.1.isEmpty then .unhook
              else .process (s.tables.process keycode queue stage).2.1
                (s.tables.process keycode queue stage).2.2 } := by
        unfold State.uiStep
        rw [hUi]
      rw [hUi] at hInv
      have hNext := Draining.process hInv
      rw [hStep]
      cases hQueue : (s.tables.process keycode queue stage).2.1 with
      | nil =>
          rw [hQueue] at hNext
          exact h.releasesOn (by rw [hUi]; rfl) (by rw [hUi]; exact fun hSame => by cases hSame) rfl
            (hNext.steady hUp.release.1 hUp.release.2)
      | cons event rest =>
          rw [hQueue] at hNext
          exact h.releasesOn (by rw [hUi]; rfl) (by rw [hUi]; exact fun hSame => by cases hSame) rfl hNext
  | unhook =>
      obtain ⟨hUp, hInv⟩ := h.waits (by rw [hUi]; rfl)
      have hStep : s.uiStep os keycode =
          { s with keyboardHooked := false, ui := if os = .linux then .disableGrab else .idle } := by
        unfold State.uiStep
        rw [hUi]
      rw [hUi] at hInv
      obtain ⟨hSteady, hEmpty⟩ := hInv
      rw [hStep]
      by_cases hOs : os = .linux
      · rw [if_pos hOs]
        exact ⟨fun _ => ⟨hOs, .inr rfl⟩, (fun hSame => by cases hSame), (fun hNot => by cases hNot),
          (fun hNot => by cases hNot), fun _ => ⟨hUp, hSteady, hEmpty, rfl⟩⟩
      · rw [if_neg hOs]
        exact ⟨fun hGrabs => absurd (h.linux hGrabs).1 hOs, (fun hSame => by cases hSame),
          fun _ => hUp.grabInv hSteady hEmpty, fun _ _ => hEmpty, fun hNot => by cases hNot⟩
  | disableGrab =>
      obtain ⟨hUp, hInv⟩ := h.waits (by rw [hUi]; rfl)
      have hStep : s.uiStep os keycode = { s with grabEnabled := false, ui := .idle } := by
        unfold State.uiStep
        rw [hUi]
      rw [hUi] at hInv
      obtain ⟨hSteady, hEmpty, -⟩ := hInv
      rw [hStep]
      exact ⟨(fun hGrabs => by cases hGrabs), (fun hSame => by cases hSame),
        fun _ => hUp.grabInv hSteady hEmpty, fun _ _ => hEmpty, fun hNot => by cases hNot⟩

/-- A change to `Wait` begins. -/
theorem GrabInv.waits {t : Tables} {live : Bool} {held : Key → Bool} {grab : GrabPc}
    (h : GrabInv os keycode t live held grab)
    (hReleases : ∀ event, grab.taken = some event ∨ event ∈ grab.queue → event.press = false) :
    Up grab ∧ Steady keycode t grab.queue grab.stage ∧ Placed t grab := by
  have hHandling : ∀ {event}, Handling os keycode t live held event → grab.taken = some event →
      Placed t grab := by
    intro event hEvent hTaken other hOther
    obtain rfl := Option.some.inj (hTaken.symm.trans hOther)
    exact hEvent.position
  cases grab with
  | idle => exact ⟨trivial, h.1, fun _ hTaken => by cases hTaken⟩
  | exitKeyDown event => cases h.2.symm.trans (hReleases event (.inl rfl))
  | process queue stage =>
      obtain ⟨event, rfl, hSteady, -⟩ := h
      exact ⟨⟨event, rfl, hReleases event (.inr (List.mem_singleton_self event))⟩, hSteady,
        fun _ hTaken => by cases hTaken⟩
  | isHooked event | exitKeyUp event | exitShortcut event | canExit event | dispatch event =>
      exact ⟨hReleases event (.inl rfl), h.steady, hHandling h rfl⟩

theorem Inv.step (h : Inv os keycode s) (event : Event) (hOrderly : Orderly s event) :
    Inv os keycode (s.step os keycode event) := by
  cases event with
  | key event => exact h.keyStep event hOrderly
  | grab eligible => exact h.grabStep eligible hOrderly
  | ui => exact h.uiStep
  | run =>
      cases hUi : s.ui with
      | idle =>
          have hStep : s.step os keycode .run =
              { s with keyboardHooked := true, ui := if os = .linux then .enableGrab else .idle } := by
            simp [State.step, hUi]
          have hNotWaiting : s.ui.waiting = false := by rw [hUi]; rfl
          have hLive : s.live os = true → State.live os
              { s with keyboardHooked := true, ui := if os = .linux then .enableGrab else .idle } = true :=
            fun hOn => (Bool.and_eq_true_iff.mp hOn).2
          rw [hStep]
          refine ⟨fun hGrabs => ⟨(h.linux hGrabs).1, .inl rfl⟩, fun hSame => ?_,
            fun _ => (h.grabs hNotWaiting).mono hLive, fun _ hDead => h.dead hNotWaiting ?_, fun hWaits => ?_⟩
          · refine ⟨?_, rfl⟩
            by_contra hOs
            dsimp only at hSame
            rw [if_neg hOs] at hSame
            cases hSame
          · refine Bool.eq_false_iff.mpr fun hOn => ?_
            cases hDead.symm.trans (hLive hOn)
          · dsimp only at hWaits
            split at hWaits <;> cases hWaits
      | _ =>
          have hStep : s.step os keycode .run = s := by simp [State.step, hUi]
          rw [hStep]
          exact h
  | wait =>
      cases hUi : s.ui with
      | idle =>
          have hStep : s.step os keycode .wait = { s with ui := .clone } := by simp [State.step, hUi]
          have hGrabs := h.grabs (by rw [hUi]; rfl)
          rw [hStep]
          refine ⟨fun hGrabs => ⟨(h.linux hGrabs).1, .inl ?_⟩, (fun hSame => by cases hSame),
            (fun hNot => by cases hNot), (fun hNot => by cases hNot), fun _ => hGrabs.waits hOrderly⟩
          refine (h.linux hGrabs).2.resolve_right fun hSame => ?_
          cases hUi.symm.trans hSame
      | _ =>
          have hStep : s.step os keycode .wait = s := by simp [State.step, hUi]
          rw [hStep]
          exact h
  | setRelativeMouseModeState active =>
      have hStep : s.step os keycode (.setRelativeMouseModeState active) =
          if s.resetting then s else { s with relativeMouseModeActive := active, resetting := !active } :=
        rfl
      rw [hStep]
      split
      · exact h
      · exact ⟨h.linux, h.enabling, h.grabs, h.dead, h.waits⟩
  | reset =>
      have hStep : s.step os keycode .reset =
          if s.resetting then { s with exitShortcutKeyDown := false, resetting := false } else s := rfl
      rw [hStep]
      split
      · exact ⟨h.linux, h.enabling, h.grabs, h.dead, h.waits⟩
      · exact h

end Inv

/-- In a run made of orderly steps nothing is stuck: whenever the keys have been released, or the
keyboard is not hooked any more, nothing is down at the peer. -/
theorem clean_of_orderly (os : Os) (keycode : Nat → Option Nat) {events : List Event}
    (hOrderly : Trace.Always (State.step os keycode) Orderly start events)
    (hSettled : Settled (Trace.run (State.step os keycode) start events)) :
    (Trace.run (State.step os keycode) start events).tables.Clean :=
  (Trace.invariant_of_always _ (Inv os keycode) (fun _ event hO h => h.step event hO) inv_start
    hOrderly).clean hSettled

/-- A key with what the grab loop does with it. -/
def keyTaken (key : Key) (position : Nat) (press : Bool) : List Event :=
  .key ⟨key, position, press⟩ :: List.replicate 8 (.grab true)

/-- Control is held, and Alt makes the shortcut of it and is released first. Then a key is down
while a change to `Wait` begins, and is released in the middle of it. -/
def shortcutThenWait : List Event :=
  .run :: keyTaken .controlLeft 29 true ++ .setRelativeMouseModeState true :: keyTaken .alt 56 true ++
    keyTaken .alt 56 false ++ keyTaken .controlLeft 29 false ++ keyTaken (.other 0) 30 true ++
    .wait :: .ui :: keyTaken (.other 0) 30 false ++ List.replicate 8 .ui

theorem shortcut_then_wait_is_clean :
    (Trace.run (State.step .windows some) start shortcutThenWait).tables.Clean :=
  clean_of_orderly .windows some (by decide +kernel) ⟨rfl, rfl, .inl rfl⟩

/-- Control is held, and Alt makes the shortcut of it. The shortcut's key-down is noted for
Alt, but it is the release of Control that comes first and is dropped for it. -/
def shortcutReleased : List Event :=
  .run :: keyTaken .controlLeft 29 true ++ .setRelativeMouseModeState true :: keyTaken .alt 56 true ++
    keyTaken .controlLeft 29 false ++ keyTaken .alt 56 false

theorem control_is_stuck : ¬ (Settled (Trace.run (State.step .windows some) start shortcutReleased) →
    (Trace.run (State.step .windows some) start shortcutReleased).tables.Clean) := by
  intro hClean
  have hReleased : ∀ key,
      (Trace.run (State.step .windows some) start shortcutReleased).held key = false := by
    intro key
    change (if key = Key.alt then false else if key = Key.controlLeft then false
      else if key = Key.alt then true else if key = Key.controlLeft then true else false) = false
    by_cases hAlt : key = .alt
    · exact if_pos hAlt
    · rw [if_neg hAlt]
      by_cases hControl : key = .controlLeft
      · exact if_pos hControl
      · rw [if_neg hControl, if_neg hAlt, if_neg hControl]
  have hDown :
      lastDown (Trace.run (State.step .windows some) start shortcutReleased).tables.sent 29 = true := rfl
  cases hDown.symm.trans ((hClean ⟨rfl, rfl, .inr hReleased⟩).up 29)

end HibtDesk.Keyboard
