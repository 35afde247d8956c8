import HibtDesk.Session.KeyEvents

/-! All keys of the table are released, while the other thread may be releasing one of them. -/
namespace HibtDesk.Keyboard

/-- Control and Alt, which make the shortcut to exit. -/
def Key.isControl (key : Key) : Bool := key == .controlLeft || key == .controlRight

def Key.isAlt (key : Key) : Bool := key == .alt || key == .altGr

/-- What `release_remote_keys` processes for a key. Alt gets another stroke. -/
def releases (toRelease : List (Key × Nat)) : List KeyEvent :=
  toRelease.flatMap fun (key, position) =>
    ⟨key, position, false⟩ ::
      if key.isAlt then [⟨key, position, true⟩, ⟨key, position, false⟩] else []

/-- Every press among the events is followed by a release of its key at the same place. -/
def Closed : List KeyEvent → Prop
  | [] => True
  | event :: rest =>
      (event.press = true → ∃ other ∈ rest, other.press = false ∧ other.key = event.key ∧
        other.positionCode = event.positionCode) ∧ Closed rest

/-- Whatever is down, whichever modifier is, and what is in the table is about to be released by
one of two threads. -/
structure Draining (keycode : Nat → Option Nat) (t : Tables) (queue : List KeyEvent) (stage : Stage)
    (others : List KeyEvent) (othersStage : Stage) : Prop where
  down : ∀ code, lastDown t.sent code = true →
    ∃ event, (event ∈ queue ∨ event ∈ others) ∧ event.press = false ∧
      keycode event.positionCode = some code
  modifiers : ∀ key, t.modifiersState key = true →
    Releases (stage.updates queue) key ∨ Releases (othersStage.updates others) key
  only : ∀ key, t.modifiersState key = true → key.isModifier = true
  covered : ∀ key, t.toRelease.contains key = true →
    Releases (if stage = .send then queue.tail else queue) key
  closed : Closed queue

section Releases
variable {keycode : Nat → Option Nat} {t : Tables} {event : KeyEvent} {rest queue others : List KeyEvent}
  {stage othersStage : Stage} {toRelease : List (Key × Nat)}

theorem Closed.append {first second : List KeyEvent} (hFirst : Closed first) (hSecond : Closed second) :
    Closed (first ++ second) := by
  induction first with
  | nil => exact hSecond
  | cons event rest ih =>
      refine ⟨fun hPress => ?_, ih hFirst.2⟩
      obtain ⟨other, hMem, hOther⟩ := hFirst.1 hPress
      exact ⟨other, List.mem_append_left _ hMem, hOther⟩

theorem closed_releases (toRelease : List (Key × Nat)) : Closed (releases toRelease) := by
  induction toRelease with
  | nil => trivial
  | cons entry rest ih =>
      obtain ⟨key, position⟩ := entry
      have hStrokes : Closed (⟨key, position, false⟩ ::
          if key.isAlt then [⟨key, position, true⟩, ⟨key, position, false⟩] else []) := by
        refine ⟨(fun hPress => by cases hPress), ?_⟩
        split
        · refine ⟨fun _ => ⟨⟨key, position, false⟩, List.mem_singleton_self _, rfl, rfl, rfl⟩, ?_, trivial⟩
          exact fun hPress => by cases hPress
        · trivial
      exact hStrokes.append ih

/-- Every key in the table is released, at the place where it was pressed. -/
theorem release_mem {key : Key} {position : Nat} (hMem : (key, position) ∈ toRelease) :
    ⟨key, position, false⟩ ∈ releases toRelease :=
  List.mem_flatMap.mpr ⟨(key, position), hMem, List.mem_cons_self⟩

theorem releases_of_tail {key : Key} (h : Releases (event :: rest) key)
    (hNot : event.press = true ∨ key ≠ event.key) : Releases rest key := by
  obtain ⟨other, hMem, hUp, hKey⟩ := h
  rcases List.mem_cons.mp hMem with rfl | hLater
  · rcases hNot with hPress | hOther
    · cases hUp.symm.trans hPress
    · exact absurd hKey.symm hOther
  · exact ⟨other, hLater, hUp, hKey⟩

/-- The table is emptied, and what was in it is about to be released. -/
theorem Steady.draining (h : Steady keycode t others othersStage) (hUp : ∀ event ∈ others, event.press = false)
    (hAll : ∀ key position, t.toRelease.lookup key = some position → (key, position) ∈ toRelease) :
    Draining keycode { t with toRelease := .empty } (releases toRelease) .isLongPress others othersStage := by
  refine ⟨fun code hDown => ?_, fun key hOn => ?_, h.only, (fun key hMem => by cases hMem),
    closed_releases toRelease⟩
  · rcases h.down code hDown with ⟨key, position, hSome, hCode⟩ | ⟨event, hMem, hEvent⟩
    · exact ⟨_, .inl (release_mem (hAll key position hSome)), rfl, hCode⟩
    · exact ⟨event, .inr hMem, hEvent⟩
  · rcases h.modifiers key hOn with hIn | hReleases | ⟨-, event, hHead, hPress, -⟩
    · obtain ⟨position, hSome⟩ := Table.contains_iff.mp hIn
      exact .inl ⟨_, release_mem (hAll key position hSome), rfl, rfl⟩
    · exact .inr hReleases
    · cases (hUp event (List.mem_of_head? hHead)).symm.trans hPress

/-- When all has been released, only the other thread may have something left to release. -/
theorem Draining.steady (h : Draining keycode t [] stage others othersStage)
    (hUp : ∀ event ∈ others, event.press = false) (hOne : others.length ≤ 1) :
    Steady keycode t others othersStage ∧ ∀ key, t.toRelease.lookup key = none := by
  have hNothing : ∀ key, ¬ Releases [] key := fun key ⟨event, hMem, _⟩ => absurd hMem List.not_mem_nil
  have hEmpty : ∀ key, t.toRelease.lookup key = none := by
    intro key
    refine Option.eq_none_iff_forall_ne_some.mpr fun position hSome => hNothing key ?_
    have hReleases := h.covered key (Table.contains_iff.mpr ⟨position, hSome⟩)
    split at hReleases
    · exact hReleases
    · exact hReleases
  have hModifiers : ∀ key, t.modifiersState key = true → Releases (othersStage.updates others) key := by
    intro key hOn
    refine (h.modifiers key hOn).resolve_left fun hReleases => hNothing key ?_
    cases stage <;> exact hReleases
  refine ⟨⟨fun code hDown => ?_, fun key hOn => .inr (.inl (hModifiers key hOn)), h.only,
    fun event _ position hSome => ?_, fun event hMem other hOther _ => ?_, fun _ event hHead hPress => ?_,
    fun hStage event hHead _ => ?_⟩, hEmpty⟩
  · obtain ⟨event, hMem, hEvent⟩ := h.down code hDown
    exact .inr ⟨event, hMem.resolve_left List.not_mem_nil, hEvent⟩
  · cases (hEmpty event.key).symm.trans hSome
  · cases others with
    | nil => exact absurd hMem List.not_mem_nil
    | cons first rest =>
        obtain rfl : rest = [] := List.length_eq_zero_iff.mp (by simpa using hOne)
        rw [List.mem_singleton.mp hMem, List.mem_singleton.mp hOther]
  · cases (hUp event (List.mem_of_head? hHead)).symm.trans hPress
  · refine Bool.eq_false_iff.mpr fun hOn => hNothing event.key ?_
    have hReleases := hModifiers event.key hOn
    cases others with
    | nil => cases hHead
    | cons first rest =>
        obtain rfl : rest = [] := List.length_eq_zero_iff.mp (by simpa using hOne)
        rw [hStage] at hReleases
        exact hReleases

/-- A step of the thread that releases everything. -/
theorem Draining.process (h : Draining keycode t queue stage others othersStage) :
    Draining keycode (t.process keycode queue stage).1 (t.process keycode queue stage).2.1
      (t.process keycode queue stage).2.2 others othersStage := by
  cases queue with
  | nil =>
      refine ⟨h.down, fun key hOn => ?_, h.only, fun key hMem => ?_, trivial⟩
      · refine (h.modifiers key hOn).imp_left fun hReleases => ?_
        cases stage <;> exact hReleases
      · have hReleases := h.covered key hMem
        split at hReleases
        · exact hReleases
        · exact hReleases
  | cons event rest =>
      have hTail : event.press = true → Releases rest event.key := fun hPress =>
        (h.closed.1 hPress).imp fun other ⟨hMem, hUp, hKey, _⟩ => ⟨hMem, hUp, hKey⟩
      cases stage with
      | isLongPress =>
          cases hLong : event.press && t.modifiersState event.key with
          | true =>
              have hPress : event.press = true := (Bool.and_eq_true_iff.mp hLong).1
              have hStep : t.process keycode (event :: rest) .isLongPress = (t, rest, .isLongPress) :=
                if_pos hLong
              rw [hStep]
              refine ⟨fun code hDown => ?_, fun key hOn => ?_, h.only, fun key hMem => ?_, h.closed.2⟩
              · obtain ⟨other, hMem, hUp, hCode⟩ := h.down code hDown
                refine ⟨other, hMem.imp_left fun hIn => ?_, hUp, hCode⟩
                refine (List.mem_cons.mp hIn).resolve_left ?_
                rintro rfl
                cases hUp.symm.trans hPress
              · exact (h.modifiers key hOn).imp_left fun hReleases =>
                  releases_of_tail hReleases (.inl hPress)
              · exact releases_of_tail (h.covered key hMem) (.inl hPress)
          | false =>
              have hStep : t.process keycode (event :: rest) .isLongPress =
                  (t, event :: rest, .updateModifiersState) :=
                if_neg (by rw [hLong]; exact Bool.false_ne_true)
              rw [hStep]
              exact ⟨h.down, h.modifiers, h.only, h.covered, h.closed⟩
      | updateModifiersState =>
          refine ⟨h.down, fun key hOn => ?_, fun key hOn => ?_, h.covered, h.closed⟩
          · dsimp only [Tables.process] at hOn
            split at hOn
            · rename_i hThis
              exact .inl (hThis.1 ▸ hTail hOn)
            · rename_i hOther
              refine (h.modifiers key hOn).imp_left fun hReleases => ?_
              exact releases_of_tail hReleases (.inr fun hKey => hOther ⟨hKey, h.only key hOn⟩)
          · dsimp only [Tables.process] at hOn
            split at hOn
            · rename_i hThis
              exact hThis.2
            · exact h.only key hOn
      | toRelease =>
          refine ⟨h.down, h.modifiers, h.only, fun key hMem => ?_, h.closed⟩
          change Releases rest key
          by_cases hKey : key = event.key
          · cases hPress : event.press with
            | true => exact hKey ▸ hTail hPress
            | false => simp [Tables.process, hPress, Table.contains, hKey] at hMem
          · refine releases_of_tail (h.covered key ?_) (.inr hKey)
            cases hPress : event.press with
            | true => simpa [Tables.process, hPress, Table.contains, hKey] using hMem
            | false => simpa [Tables.process, hPress, Table.contains, hKey] using hMem
      | send =>
          refine ⟨fun code hDown => ?_, h.modifiers, h.only, h.covered, h.closed.2⟩
          rcases lastDown_send hDown with ⟨hCode, hPress⟩ | ⟨hOther, hBefore⟩
          · obtain ⟨other, hMem, hUp, -, hPosition⟩ := h.closed.1 hPress
            exact ⟨other, .inl hMem, hUp, hPosition ▸ hCode⟩
          · obtain ⟨other, hMem, hUp, hCode⟩ := h.down code hBefore
            refine ⟨other, hMem.imp_left fun hIn => ?_, hUp, hCode⟩
            refine (List.mem_cons.mp hIn).resolve_left ?_
            rintro rfl
            exact hOther hCode

/-- A step of the other thread, which releases one key. -/
theorem Draining.release (h : Draining keycode t queue stage [event] othersStage)
    (hUp : event.press = false) :
    Draining keycode (t.process keycode [event] othersStage).1 queue stage
      (t.process keycode [event] othersStage).2.1 (t.process keycode [event] othersStage).2.2 := by
  cases othersStage with
  | isLongPress =>
      have hStep : t.process keycode [event] .isLongPress = (t, [event], .updateModifiersState) :=
        if_neg (by rw [hUp]; exact Bool.false_ne_true)
      rw [hStep]
      exact ⟨h.down, h.modifiers, h.only, h.covered, h.closed⟩
  | updateModifiersState =>
      have hNot : ∀ key, (if key = event.key ∧ key.isModifier = true then event.press
          else t.modifiersState key) = true → t.modifiersState key = true ∧
            ¬ (key = event.key ∧ key.isModifier = true) := by
        intro key hOn
        split at hOn
        · cases hUp.symm.trans hOn
        · rename_i hOther
          exact ⟨hOn, hOther⟩
      refine ⟨h.down, fun key hOn => ?_, fun key hOn => h.only key (hNot key hOn).1, h.covered, h.closed⟩
      obtain ⟨hBefore, hOther⟩ := hNot key hOn
      refine (h.modifiers key hBefore).imp_right fun hReleases => ?_
      exact releases_of_tail hReleases (.inr fun hKey => hOther ⟨hKey, h.only key hBefore⟩)
  | toRelease =>
      refine ⟨h.down, h.modifiers, h.only, fun key hMem => h.covered key ?_, h.closed⟩
      by_cases hKey : key = event.key
      · simp [Tables.process, hUp, Table.contains, hKey] at hMem
      · simpa [Tables.process, hUp, Table.contains, hKey] using hMem
  | send =>
      refine ⟨fun code hDown => ?_, h.modifiers, h.only, h.covered, h.closed⟩
      rcases lastDown_send hDown with ⟨-, hPress⟩ | ⟨hOther, hBefore⟩
      · cases hUp.symm.trans hPress
      · obtain ⟨other, hMem, hOtherUp, hCode⟩ := h.down code hBefore
        rcases hMem with hIn | hThis
        · exact ⟨other, .inl hIn, hOtherUp, hCode⟩
        · rw [List.mem_singleton.mp hThis] at hCode
          exact absurd hCode hOther

/-- The other thread begins to release a key. -/
theorem Draining.begins (h : Draining keycode t queue stage [] .isLongPress) (event : KeyEvent) :
    Draining keycode t queue stage [event] .isLongPress := by
  refine ⟨fun code hDown => ?_, fun key hOn => .inl ?_, h.only, h.covered, h.closed⟩
  · obtain ⟨other, hMem, hUp, hCode⟩ := h.down code hDown
    exact ⟨other, .inl (hMem.resolve_right List.not_mem_nil), hUp, hCode⟩
  · refine (h.modifiers key hOn).resolve_right ?_
    rintro ⟨other, hMem, -⟩
    exact absurd hMem List.not_mem_nil

/-- A release leaves in the table what it does not remove. -/
theorem lookup_of_release {key : Key} {position : Nat} (hUp : event.press = false)
    (h : (t.process keycode [event] stage).1.toRelease.lookup key = some position) :
    t.toRelease.lookup key = some position := by
  cases stage with
  | isLongPress =>
      have hStep : t.process keycode [event] .isLongPress = (t, [event], .updateModifiersState) :=
        if_neg (by rw [hUp]; exact Bool.false_ne_true)
      rwa [hStep] at h
  | updateModifiersState => exact h
  | toRelease =>
      by_cases hKey : key = event.key
      · simp [Tables.process, hUp, hKey] at h
      · simpa [Tables.process, hUp, hKey] using h
  | send => exact h

end Releases

end HibtDesk.Keyboard
