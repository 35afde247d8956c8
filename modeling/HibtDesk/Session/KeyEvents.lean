import HibtDesk.Library.Table

/-! How key events go to the peer in map mode. A press is noted in a table of keys to release,
and the modifiers have a table of their own, by which their repeated presses are dropped. -/
namespace HibtDesk.Keyboard

/-- The keys the tables tell apart. -/
inductive Key where
  | shiftLeft | shiftRight | controlLeft | controlRight | alt | altGr | metaLeft | metaRight
  | capsLock | numLock
  | unknown (code : Nat)
  | other (key : Nat)
  deriving DecidableEq

/-- The keys of `MODIFIERS_STATE`. -/
def Key.isModifier : Key → Bool
  | .shiftLeft | .shiftRight | .controlLeft | .controlRight | .alt | .altGr | .metaLeft | .metaRight => true
  | _ => false

structure KeyEvent where
  key : Key
  positionCode : Nat
  press : Bool
  deriving DecidableEq

/-- Both tables, and what has been sent to the peer, the last event first: a key code, and
whether the key is down. Of an event to release its key again only the position is needed. -/
structure Tables where
  toRelease : Table Key Nat
  modifiersState : Key → Bool
  sent : List (Nat × Bool)

/-- What `process_event` does next with an event. -/
inductive Stage where
  | isLongPress | updateModifiersState | toRelease | send
  deriving DecidableEq

/-- A step of processing events one after another. `keycode` is what `map_keyboard_mode` makes of a
position for the peer. -/
def Tables.process (keycode : Nat → Option Nat) (t : Tables) :
    List KeyEvent → Stage → Tables × List KeyEvent × Stage
  | [], _ => (t, [], .isLongPress)
  | event :: rest, .isLongPress =>
      if event.press && t.modifiersState event.key then (t, rest, .isLongPress)
      else (t, event :: rest, .updateModifiersState)
  | event :: rest, .updateModifiersState =>
      ({ t with
          modifiersState := fun key =>
            if key = event.key ∧ key.isModifier = true then event.press else t.modifiersState key },
        event :: rest, .toRelease)
  | event :: rest, .toRelease =>
      ({ t with
          toRelease :=
            if event.press then t.toRelease.insert event.key event.positionCode
            else t.toRelease.remove event.key },
        event :: rest, .send)
  | event :: rest, .send =>
      ({ t with
          sent :=
            match keycode event.positionCode with
            | some code => (code, event.press) :: t.sent
            | none => t.sent },
        rest, .isLongPress)

/-- The last event for the key code was a press. -/
def lastDown (sent : List (Nat × Bool)) (code : Nat) : Bool :=
  match sent.find? (·.1 == code) with
  | some (_, down) => down
  | none => false

theorem lastDown_cons (sent : List (Nat × Bool)) (first : Nat) (down : Bool) (code : Nat) :
    lastDown ((first, down) :: sent) code = if first = code then down else lastDown sent code := by
  unfold lastDown
  by_cases hSame : first = code
  · simp [hSame]
  · simp [hSame]

/-- Nothing is down at the peer, and no modifier would be dropped. -/
structure Tables.Clean (t : Tables) : Prop where
  up : ∀ code, lastDown t.sent code = false
  modifiers : ∀ key, t.modifiersState key = false

/-- The events whose modifiers are not updated yet. -/
def Stage.updates (stage : Stage) (queue : List KeyEvent) : List KeyEvent :=
  match stage with
  | .isLongPress | .updateModifiersState => queue
  | _ => queue.tail

/-- A release of the key is among the events. -/
def Releases (queue : List KeyEvent) (key : Key) : Prop :=
  ∃ event ∈ queue, event.press = false ∧ event.key = key

/-- Whatever is down at the peer, and whichever modifier is, is in the table or about to be
released, as long as a key is always at the same position. -/
structure Steady (keycode : Nat → Option Nat) (t : Tables) (queue : List KeyEvent) (stage : Stage) :
    Prop where
  down : ∀ code, lastDown t.sent code = true →
    (∃ key position, t.toRelease.lookup key = some position ∧ keycode position = some code) ∨
      ∃ event ∈ queue, event.press = false ∧ keycode event.positionCode = some code
  modifiers : ∀ key, t.modifiersState key = true →
    t.toRelease.contains key = true ∨ Releases (stage.updates queue) key ∨
      stage = .toRelease ∧ ∃ event, queue.head? = some event ∧ event.press = true ∧ event.key = key
  only : ∀ key, t.modifiersState key = true → key.isModifier = true
  same : ∀ event ∈ queue, ∀ position, t.toRelease.lookup event.key = some position →
    event.positionCode = position
  twins : ∀ event ∈ queue, ∀ other ∈ queue, event.key = other.key → event.positionCode = other.positionCode
  inserted : stage = .send → ∀ event, queue.head? = some event → event.press = true →
    t.toRelease.lookup event.key = some event.positionCode
  updated : stage = .toRelease → ∀ event, queue.head? = some event → event.press = false →
    t.modifiersState event.key = false

section Steady
variable {keycode : Nat → Option Nat} {t : Tables} {event : KeyEvent} {rest queue : List KeyEvent}
  {stage : Stage}

theorem Releases.mono {more : List KeyEvent} {key : Key} (h : Releases queue key)
    (hMore : ∀ event ∈ queue, event.press = false → event ∈ more) : Releases more key := by
  obtain ⟨event, hMem, hUp, hKey⟩ := h
  exact ⟨event, hMore event hMem hUp, hUp, hKey⟩

/-- Where nothing is under way and nothing is to be released, nothing is down. -/
theorem Steady.clean (h : Steady keycode t [] .isLongPress)
    (hEmpty : ∀ key, t.toRelease.lookup key = none) : t.Clean := by
  refine ⟨fun code => ?_, fun key => ?_⟩
  · refine Bool.eq_false_iff.mpr fun hDown => ?_
    rcases h.down code hDown with ⟨key, position, hSome, -⟩ | ⟨event, hMem, -⟩
    · cases (hEmpty key).symm.trans hSome
    · exact absurd hMem List.not_mem_nil
  · refine Bool.eq_false_iff.mpr fun hOn => ?_
    rcases h.modifiers key hOn with hIn | ⟨event, hMem, -⟩ | ⟨hStage, -⟩
    · obtain ⟨position, hSome⟩ := Table.contains_iff.mp hIn
      cases (hEmpty key).symm.trans hSome
    · exact absurd hMem List.not_mem_nil
    · cases hStage

/-- An event begins to be processed. -/
theorem Steady.begins (h : Steady keycode t [] .isLongPress)
    (hPosition : ∀ position, t.toRelease.lookup event.key = some position → event.positionCode = position) :
    Steady keycode t [event] .isLongPress := by
  refine ⟨fun code hDown => ?_, fun key hOn => ?_, h.only, fun other hMem position hSome => ?_,
    fun other hMem third hThird _ => ?_, (fun hStage => by cases hStage), fun hStage => by cases hStage⟩
  · rcases h.down code hDown with hIn | ⟨other, hMem, -⟩
    · exact .inl hIn
    · exact absurd hMem List.not_mem_nil
  · rcases h.modifiers key hOn with hIn | ⟨other, hMem, -⟩ | ⟨hStage, -⟩
    · exact .inl hIn
    · exact absurd hMem List.not_mem_nil
    · cases hStage
  · obtain rfl := List.mem_singleton.mp hMem
    exact hPosition position hSome
  · rw [List.mem_singleton.mp hMem, List.mem_singleton.mp hThird]

/-- A repeated press of a modifier is dropped. -/
theorem Steady.drop (h : Steady keycode t (event :: rest) .isLongPress) (hPress : event.press = true) :
    Steady keycode t rest .isLongPress := by
  have hTail : ∀ other ∈ event :: rest, other.press = false → other ∈ rest := by
    intro other hMem hUp
    rcases List.mem_cons.mp hMem with rfl | hRest
    · rw [hPress] at hUp
      cases hUp
    · exact hRest
  refine ⟨fun code hDown => ?_, fun key hOn => ?_, h.only,
    fun other hMem => h.same other (List.mem_cons_of_mem _ hMem),
    fun other hMem third hThird =>
      h.twins other (List.mem_cons_of_mem _ hMem) third (List.mem_cons_of_mem _ hThird),
    (fun hStage => by cases hStage), fun hStage => by cases hStage⟩
  · refine (h.down code hDown).imp id ?_
    rintro ⟨other, hMem, hUp, hCode⟩
    exact ⟨other, hTail other hMem hUp, hUp, hCode⟩
  · rcases h.modifiers key hOn with hIn | hReleases | ⟨hStage, -⟩
    · exact .inl hIn
    · exact .inr (.inl (hReleases.mono hTail))
    · cases hStage

/-- Nothing happens to the tables before the modifiers are updated. -/
theorem Steady.goOn (h : Steady keycode t queue .isLongPress) : Steady keycode t queue .updateModifiersState := by
  refine ⟨h.down, fun key hOn => ?_, h.only, h.same, h.twins, (fun hStage => by cases hStage),
    fun hStage => by cases hStage⟩
  rcases h.modifiers key hOn with hIn | hReleases | ⟨hStage, -⟩
  · exact .inl hIn
  · exact .inr (.inl hReleases)
  · cases hStage

theorem Steady.update (h : Steady keycode t (event :: rest) .updateModifiersState) :
    Steady keycode
      { t with
        modifiersState := fun key =>
          if key = event.key ∧ key.isModifier = true then event.press else t.modifiersState key }
      (event :: rest) .toRelease := by
  refine ⟨h.down, fun key hOn => ?_, fun key hOn => ?_, h.same, h.twins, (fun hStage => by cases hStage),
    fun _ head hHead hUp => ?_⟩
  · dsimp only at hOn
    split at hOn
    · rename_i hThis
      exact .inr (.inr ⟨rfl, event, rfl, hOn, hThis.1.symm⟩)
    · rename_i hOther
      rcases h.modifiers key hOn with hIn | hReleases | ⟨hStage, -⟩
      · exact .inl hIn
      · obtain ⟨found, hMem, hUp, hKey⟩ := hReleases
        rcases List.mem_cons.mp hMem with rfl | hRest
        · exact absurd ⟨hKey.symm, h.only key hOn⟩ hOther
        · exact .inr (.inl ⟨found, hRest, hUp, hKey⟩)
      · cases hStage
  · dsimp only at hOn
    split at hOn
    · rename_i hThis
      exact hThis.2
    · exact h.only key hOn
  · obtain rfl := Option.some.inj hHead
    dsimp only
    split
    · exact hUp
    · rename_i hOther
      refine Bool.eq_false_iff.mpr fun hOn => hOther ⟨rfl, h.only _ hOn⟩

theorem Steady.insert (h : Steady keycode t (event :: rest) .toRelease) :
    Steady keycode { t with toRelease := t.toRelease.insert event.key event.positionCode }
      (event :: rest) .send := by
  refine ⟨fun code hDown => ?_, fun key hOn => ?_, h.only, fun other hMem position hSome => ?_, h.twins,
    fun _ head hHead _ => ?_, fun hStage => by cases hStage⟩
  · refine (h.down code hDown).imp ?_ id
    rintro ⟨key, position, hSome, hCode⟩
    refine ⟨key, position, ?_, hCode⟩
    rw [Table.lookup_insert]
    split
    · rename_i hThis
      subst hThis
      rw [h.same event List.mem_cons_self position hSome]
    · exact hSome
  · rcases h.modifiers key hOn with hIn | hReleases | ⟨-, head, hHead, -, hKey⟩
    · left
      unfold Table.contains at hIn ⊢
      rw [Table.lookup_insert]
      split
      · rfl
      · exact hIn
    · exact .inr (.inl hReleases)
    · left
      obtain rfl := Option.some.inj hHead
      rw [← hKey, Table.contains, Table.lookup_insert, if_pos rfl]
      rfl
  · rw [Table.lookup_insert] at hSome
    split at hSome
    · rename_i hThis
      exact (h.twins other hMem event List.mem_cons_self hThis).trans (Option.some.inj hSome)
    · exact h.same other hMem position hSome
  · obtain rfl := Option.some.inj hHead
    exact (Table.lookup_insert ..).trans (if_pos rfl)

theorem Steady.remove (h : Steady keycode t (event :: rest) .toRelease) (hUp : event.press = false) :
    Steady keycode { t with toRelease := t.toRelease.remove event.key } (event :: rest) .send := by
  refine ⟨fun code hDown => ?_, fun key hOn => ?_, h.only, fun other hMem position hSome => ?_, h.twins,
    fun _ head hHead hPress => ?_, fun hStage => by cases hStage⟩
  · rcases h.down code hDown with ⟨key, position, hSome, hCode⟩ | hReleases
    · by_cases hKey : key = event.key
      · subst hKey
        right
        refine ⟨event, List.mem_cons_self, hUp, ?_⟩
        rw [h.same event List.mem_cons_self position hSome]
        exact hCode
      · exact .inl ⟨key, position, (Table.lookup_remove ..).trans ((if_neg hKey).trans hSome), hCode⟩
    · exact .inr hReleases
  · rcases h.modifiers key hOn with hIn | hReleases | ⟨-, head, hHead, hPress, -⟩
    · left
      have hKey : key ≠ event.key := by
        rintro rfl
        have hOff := h.updated rfl event rfl hUp
        cases hOff.symm.trans hOn
      unfold Table.contains at hIn ⊢
      rwa [Table.lookup_remove, if_neg hKey]
    · exact .inr (.inl hReleases)
    · obtain rfl := Option.some.inj hHead
      rw [hUp] at hPress
      cases hPress
  · rw [Table.lookup_remove] at hSome
    split at hSome
    · cases hSome
    · exact h.same other hMem position hSome
  · obtain rfl := Option.some.inj hHead
    rw [hUp] at hPress
    cases hPress

/-- What is down after an event has been sent. -/
theorem lastDown_send {code : Nat}
    (h : lastDown (t.process keycode (event :: rest) .send).1.sent code = true) :
    keycode event.positionCode = some code ∧ event.press = true ∨
      keycode event.positionCode ≠ some code ∧ lastDown t.sent code = true := by
  unfold Tables.process at h
  dsimp only at h
  cases hCode : keycode event.positionCode with
  | none =>
      rw [hCode] at h
      exact .inr ⟨(fun hSame => by cases hSame), h⟩
  | some sent =>
      rw [hCode] at h
      dsimp only at h
      rw [lastDown_cons] at h
      by_cases hSame : sent = code
      · rw [if_pos hSame] at h
        exact .inl ⟨congrArg some hSame, h⟩
      · rw [if_neg hSame] at h
        exact .inr ⟨fun hThis => hSame (Option.some.inj hThis), h⟩

theorem Steady.sent (h : Steady keycode t (event :: rest) .send) :
    Steady keycode (t.process keycode (event :: rest) .send).1 rest .isLongPress := by
  refine ⟨fun code hDown => ?_, fun key hOn => ?_, h.only,
    fun other hMem => h.same other (List.mem_cons_of_mem _ hMem),
    fun other hMem third hThird =>
      h.twins other (List.mem_cons_of_mem _ hMem) third (List.mem_cons_of_mem _ hThird),
    (fun hStage => by cases hStage), fun hStage => by cases hStage⟩
  · rcases lastDown_send hDown with ⟨hCode, hPress⟩ | ⟨hOther, hBefore⟩
    · exact .inl ⟨event.key, event.positionCode, h.inserted rfl event rfl hPress, hCode⟩
    · refine (h.down code hBefore).imp id ?_
      rintro ⟨other, hMem, hUp, hCode⟩
      refine ⟨other, (List.mem_cons.mp hMem).resolve_left ?_, hUp, hCode⟩
      rintro rfl
      exact hOther hCode
  · rcases h.modifiers key hOn with hIn | hReleases | ⟨hStage, -⟩
    · exact .inl hIn
    · exact .inr (.inl hReleases)
    · cases hStage

theorem Steady.nil (h : Steady keycode t [] stage) : Steady keycode t [] .isLongPress := by
  refine ⟨h.down, fun key hOn => ?_, h.only, h.same, h.twins, (fun hStage => by cases hStage),
    fun hStage => by cases hStage⟩
  rcases h.modifiers key hOn with hIn | ⟨event, hMem, -⟩ | ⟨-, event, hHead, -⟩
  · exact .inl hIn
  · cases stage <;> exact absurd hMem List.not_mem_nil
  · cases hHead

/-- What is known of the tables while events are processed is kept by each step. -/
theorem Steady.process (h : Steady keycode t queue stage) :
    Steady keycode (t.process keycode queue stage).1 (t.process keycode queue stage).2.1
      (t.process keycode queue stage).2.2 := by
  cases queue with
  | nil => exact h.nil
  | cons event rest =>
      cases stage with
      | isLongPress =>
          cases hLong : event.press && t.modifiersState event.key with
          | true =>
              have hStep : t.process keycode (event :: rest) .isLongPress = (t, rest, .isLongPress) :=
                if_pos hLong
              rw [hStep]
              exact h.drop (Bool.and_eq_true_iff.mp hLong).1
          | false =>
              have hStep : t.process keycode (event :: rest) .isLongPress =
                  (t, event :: rest, .updateModifiersState) :=
                if_neg (by rw [hLong]; exact Bool.false_ne_true)
              rw [hStep]
              exact h.goOn
      | updateModifiersState => exact h.update
      | toRelease =>
          cases hPress : event.press with
          | true =>
              have hStep : t.process keycode (event :: rest) .toRelease =
                  ({ t with toRelease := t.toRelease.insert event.key event.positionCode },
                    event :: rest, .send) := by
                simp [Tables.process, hPress]
              rw [hStep]
              exact h.insert
          | false =>
              have hStep : t.process keycode (event :: rest) .toRelease =
                  ({ t with toRelease := t.toRelease.remove event.key }, event :: rest, .send) := by
                simp [Tables.process, hPress]
              rw [hStep]
              exact h.remove hPress
      | send => exact h.sent

end Steady

end HibtDesk.Keyboard
