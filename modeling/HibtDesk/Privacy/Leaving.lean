import HibtDesk.Privacy.Ownership

/-! What is left of privacy mode when its connection has ended. A connection looks at the
owner once before it ends; a thread that comes to the lock after that turns the mode on
for nobody. -/
namespace HibtDesk.Privacy

/-- The platform can start neither implementation. -/
def Platform.Refuses (platform : Platform) : Prop :=
  platform.showsWindow ≠ .ok true ∧ platform.addsDisplay ≠ .ok ()

section Owner
variable {build : Build} {platform : Platform} {mode : Mode} {c id : Int}

theorem owner_of_turnOnWindow {impl : PrivacyModeImpl}
    (hOwner : (impl.turnOnWindow platform id).2.connId = c) :
    impl.connId = c ∨ c = id ∧ ¬ platform.Refuses := by
  unfold PrivacyModeImpl.turnOnWindow at hOwner
  cases hCheck : impl.checkOnConnId id with
  | error e => exact Or.inl (by simpa [hCheck] using hOwner)
  | ok mine =>
      cases mine with
      | true => exact Or.inl (by simpa [hCheck] using hOwner)
      | false =>
          cases hShows : platform.showsWindow with
          | error e => exact Or.inl (by simpa [hCheck, hShows] using hOwner)
          | ok shown =>
              cases shown with
              | false => exact Or.inl (by simpa [hCheck, hShows] using hOwner)
              | true =>
                  refine Or.inr ⟨by simpa [hCheck, hShows] using hOwner.symm, ?_⟩
                  intro hRefuses
                  exact hRefuses.1 hShows

theorem owner_of_turnOnDisplay {impl : PrivacyModeImpl} (hOwned : c ≠ invalidPrivacyModeConnId)
    (hOwner : (impl.turnOnDisplay platform id).2.connId = c) :
    impl.connId = c ∨ c = id ∧ ¬ platform.Refuses := by
  unfold PrivacyModeImpl.turnOnDisplay at hOwner
  split at hOwner
  · exact Or.inl hOwner
  · cases hCheck : impl.checkOnConnId id with
    | error e => exact Or.inl (by simpa [hCheck] using hOwner)
    | ok mine =>
        cases mine with
        | true => exact Or.inl (by simpa [hCheck] using hOwner)
        | false =>
            cases hAdds : platform.addsDisplay with
            | error e =>
                left
                have hOff : (impl.turnOffPrivacy platform invalidPrivacyModeConnId).2.connId = c := by
                  simpa [hCheck, hAdds] using hOwner
                have hSome : getPrivacyModeConnId (some impl) = some c :=
                  owner_of_turnOffPrivacy hOwned (congrArg some hOff)
                exact Option.some.inj hSome
            | ok _ =>
                refine Or.inr ⟨by simpa [hCheck, hAdds] using hOwner.symm, ?_⟩
                intro hRefuses
                exact hRefuses.2 hAdds

theorem owner_of_turnOnPrivacy {impl : PrivacyModeImpl} (hOwned : c ≠ invalidPrivacyModeConnId)
    (hOwner : (impl.turnOnPrivacy platform id).2.connId = c) :
    impl.connId = c ∨ c = id ∧ ¬ platform.Refuses := by
  unfold PrivacyModeImpl.turnOnPrivacy at hOwner
  cases hMethod : impl.method with
  | topmostWindow => exact owner_of_turnOnWindow (by simpa [hMethod] using hOwner)
  | virtualDisplay => exact owner_of_turnOnDisplay hOwned (by simpa [hMethod] using hOwner)

theorem owner_of_switchAndTurnOn {implKey : String} (hOwned : c ≠ invalidPrivacyModeConnId)
    (hOwner : getPrivacyModeConnId (switchAndTurnOn build platform implKey id mode).2 = some c) :
    getPrivacyModeConnId mode = some c ∨ c = id ∧ ¬ platform.Refuses := by
  unfold switchAndTurnOn at hOwner
  dsimp only at hOwner
  split at hOwner
  · exact Or.inl hOwner
  · exact absurd hOwner (by simp [getPrivacyModeConnId])
  · rename_i impl hSwitched
    have hImpl := Option.some.inj hOwner
    rcases owner_of_turnOnPrivacy hOwned hImpl with hOld | hNew
    · split at hSwitched
      · split at hSwitched
        · obtain rfl := Option.some.inj (Except.ok.inj hSwitched)
          exact absurd hOld.symm hOwned
        · cases hSwitched
      · left
        rw [Except.ok.inj hSwitched]
        exact congrArg some hOld
    · exact Or.inr hNew

/-- After a connection has turned the mode on, the owner is the old one or it. -/
theorem owner_of_turnOnPrivacySync {implKey : String} (hOwned : c ≠ invalidPrivacyModeConnId)
    (hOwner : getPrivacyModeConnId (turnOnPrivacySync build platform implKey id mode).2 = some c) :
    getPrivacyModeConnId mode = some c ∨ c = id ∧ ¬ platform.Refuses := by
  unfold turnOnPrivacySync at hOwner
  dsimp only at hOwner
  split at hOwner
  · exact owner_of_switchAndTurnOn hOwned hOwner
  · split at hOwner
    · exact Or.inl hOwner
    · split at hOwner
      · exact Or.inl hOwner
      · exact owner_of_switchAndTurnOn hOwned hOwner
    · exact owner_of_switchAndTurnOn hOwned hOwner

theorem owner_of_switch {implKey : String} (hOwned : c ≠ invalidPrivacyModeConnId)
    (hOwner : getPrivacyModeConnId (switch build implKey mode) = some c) :
    getPrivacyModeConnId mode = some c := by
  unfold switch at hOwner
  split at hOwner
  · exact hOwner
  · split at hOwner
    · exact absurd (Option.some.inj hOwner).symm hOwned
    · exact hOwner

end Owner

namespace System

/-- A connection that has ended leaves nothing: no thread of it is late, unless the mode
is another's by then or cannot be turned on, and what it gives back can be turned off. -/
def GivesBack (s : System) : Platform × Event → Prop
  | (platform, .runThread i) =>
      ∀ thread, s.threads[i]? = some thread → thread.result = none → s.phase thread.connId = .ended →
        s.OwnedByOther thread.connId ∨ platform.Refuses
  | (platform, .giveBack id) =>
      s.phase id = .leavingOff → s.owner = some id → platform.unhook.isOk = true
  | _ => True

/-- The mode is not that of a connection that has ended. -/
structure NotLeftOn (s : System) : Prop where
  owner_ne : ∀ c, c ≠ invalidPrivacyModeConnId → s.phase c = .ended → s.owner ≠ some c

/-- None of the threads the connection started is still running. -/
def Settled (s : System) (c : Int) : Prop :=
  ∀ thread ∈ s.threads, thread.connId = c → thread.result.isSome = true

section Step
variable {build : Build} {s : System}

theorem NotLeftOn.withMode (h : s.NotLeftOn) {mode : Mode}
    (hOwner : ∀ c, c ≠ invalidPrivacyModeConnId → getPrivacyModeConnId mode = some c →
      s.owner = some c ∨ s.phase c ≠ .ended) : NotLeftOn { s with mode := mode } := by
  constructor
  intro c hOwned hEnded hNow
  rcases hOwner c hOwned hNow with hOld | hPhase
  · exact h.owner_ne c hOwned hEnded hOld
  · exact hPhase hEnded

theorem NotLeftOn.withThreads (h : s.NotLeftOn) (threads : List Thread) :
    NotLeftOn { s with threads := threads } :=
  ⟨h.owner_ne⟩

theorem NotLeftOn.enter (h : s.NotLeftOn) {id : Int} {phase : Phase}
    (hPhase : phase = .ended → s.owner ≠ some id) : (s.enter id phase).NotLeftOn := by
  constructor
  intro c hOwned hEnded
  rw [phase_enter] at hEnded
  split at hEnded
  · rename_i hSame
    rw [hSame]
    exact hPhase hEnded
  · exact h.owner_ne c hOwned hEnded

theorem NotLeftOn.send (h : s.NotLeftOn) (id : Int) (msg : PrivacyModeMsg) : (s.send id msg).NotLeftOn :=
  ⟨h.owner_ne⟩

theorem NotLeftOn.answered (h : s.NotLeftOn) (platform : Platform) (id : Int) (implKey : String)
    (result : Option (Except String Bool)) : (s.onAnswer platform id implKey result).NotLeftOn := by
  unfold onAnswer
  split
  · split
    · exact (h.send ..).enter (by simp)
    · exact h.enter (by simp)
  · exact (h.send ..).enter (by simp)
  · dsimp only
    split
    · exact h.enter (by simp)
    · exact (h.send ..).enter (by simp)
  · exact (h.send ..).enter (by simp)

theorem NotLeftOn.turnedOff (h : s.NotLeftOn) (platform : Platform) (id : Int) :
    NotLeftOn { s with mode := (turnOffPrivacy platform id s.mode).2 } :=
  h.withMode fun _ hOwned hNow => Or.inl (owner_of_turnOffPrivacy hOwned hNow)

theorem NotLeftOn.step (h : s.NotLeftOn) (hSound : s.Sound) {event : Platform × Event}
    (hGives : s.GivesBack event) : (s.step build event).NotLeftOn := by
  obtain ⟨platform, event⟩ := event
  cases event with
  | turnOn id implKey =>
      rw [System.step]
      split
      · split
        · exact h.send ..
        · split
          · exact (h.withThreads _).enter (by simp)
          · exact h.enter (by simp)
      · exact h
  | turnOff id implKey =>
      rw [System.step]
      split
      · split
        · exact h.send ..
        · exact h.enter (by simp)
      · exact h
  | runSync id =>
      rw [System.step]
      split
      · rename_i hPhase
        refine (h.withMode ?_).enter (by simp)
        intro c hOwned hNow
        rcases owner_of_turnOnPrivacySync hOwned hNow with hOld | ⟨rfl, -⟩
        · exact Or.inl hOld
        · exact Or.inr (by simp [hPhase])
      · exact h
  | runThread i =>
      rw [System.step]
      split
      · rename_i thread hThread
        split
        · exact h
        · rename_i hRunning
          have hLate := hGives thread hThread (by simpa using hRunning)
          refine (h.withMode ?_).withThreads _
          intro c hOwned hNow
          rcases owner_of_turnOnPrivacySync hOwned hNow with hOld | ⟨rfl, hStarts⟩
          · exact Or.inl hOld
          · by_cases hEnded : s.phase thread.connId = .ended
            · rcases hLate hEnded with ⟨c, hOwner, hTheirs, hOther⟩ | hRefuses
              · have hSame := @turnOnPrivacySync_of_other build platform _ _ _ hOwner hTheirs
                  (Ne.symm hOther) thread.implKey
                exact Or.inl ((congrArg (getPrivacyModeConnId ·.2) hSame).symm.trans hNow)
              · exact absurd hRefuses hStarts
            · exact Or.inr hEnded
      · exact h
  | receive id =>
      rw [System.step]
      split
      · split
        · exact h.enter (by simp)
        · exact h
      · exact h
  | timeout id =>
      rw [System.step]
      split
      · exact h.enter (by simp)
      · exact h
  | answer id =>
      rw [System.step]
      split
      · exact h.answered ..
      · exact h
  | callTurnOff id =>
      rw [System.step]
      split
      · exact ((h.turnedOff ..).send ..).enter (by simp)
      · exact h
  | leave id =>
      rw [System.step]
      split
      · exact h.enter (by simp)
      · exact h
  | look id =>
      rw [System.step]
      split
      · refine h.enter ?_
        split
        · simp
        · rename_i hOther
          exact fun _ => hOther
      · exact h
  | giveBack id =>
      rw [System.step]
      split
      · rename_i hPhase
        refine (h.turnedOff ..).enter ?_
        intro _ hNow
        have hId := hSound.named id (by simp [hPhase])
        have hUnhook := hGives hPhase (owner_of_turnOffPrivacy hId hNow)
        exact owner_turnOffPrivacy_self hUnhook hId hNow
      · exact h
  | resetAll id =>
      rw [System.step]
      split
      · exact h.turnedOff ..
      · exact h
  | userOff => exact h.turnedOff ..
  | userSwitch implKey =>
      exact h.withMode fun _ hOwned hNow => Or.inl (owner_of_switch hOwned hNow)

end Step

/-- In a run in which everything is given back, no connection that has ended and has no
thread running is left as the owner. -/
theorem not_left_on_of_givesBack (build : Build) (mode : Mode) (events : List (Platform × Event))
    (hGives : Trace.Always (step build) GivesBack (new mode) events) :
    ∀ past, past <+: events → ∀ c, c ≠ invalidPrivacyModeConnId →
      (Trace.run (step build) (new mode) past).phase c = .ended →
      (Trace.run (step build) (new mode) past).Settled c →
      (Trace.run (step build) (new mode) past).owner ≠ some c := by
  intro past hPast c hOwned hEnded _
  obtain ⟨rest, rfl⟩ := hPast
  have hBoth := Trace.invariant_of_always (step build) (fun s => s.Sound ∧ s.NotLeftOn)
    (fun s event hNow h => ⟨h.1.step event, h.2.step h.1 hNow⟩)
    ⟨sound_new mode, ⟨fun c _ hPhase => by cases hPhase⟩⟩
    ((Trace.always_append (step build) (new mode) past rest).mp hGives).1
  exact hBoth.2.owner_ne c hOwned hEnded

/-- A connection that turns the mode on and ends gives it back. -/
theorem not_left_on_after_leaving :
    let events := [Event.turnOn 1 "privacy_mode_impl_mag", .runSync 1, .answer 1, .leave 1, .look 1,
      .giveBack 1].map fun event => (workingPlatform, event)
    (Trace.run (step windowBuild) (new none) events).phase 1 = .ended ∧
      (Trace.run (step windowBuild) (new none) events).owner ≠ some 1 := by
  intro events
  have hEnded : (Trace.run (step windowBuild) (new none) events).phase 1 = .ended := by
    decide +kernel
  refine ⟨hEnded, not_left_on_of_givesBack windowBuild none events ?_ events List.prefix_rfl 1
    (by decide) hEnded ?_⟩
  · exact ⟨trivial, trivial, trivial, trivial, trivial, fun _ _ => rfl, trivial⟩
  · intro thread hThread
    have hNone : (Trace.run (step windowBuild) (new none) events).threads = [] := by decide +kernel
    rw [hNone] at hThread
    cases hThread

/-- The thread comes to the lock when the request has timed out and the connection has
ended. -/
theorem late_thread_leaves_it_on :
    ¬ ∀ (build : Build) (mode : Mode) (events : List (Platform × Event)) (c : Int),
      c ≠ invalidPrivacyModeConnId → (Trace.run (step build) (new mode) events).phase c = .ended →
      (Trace.run (step build) (new mode) events).Settled c →
      (Trace.run (step build) (new mode) events).owner ≠ some c := by
  intro h
  let build : Build := { defaultImpl := "privacy_mode_impl_virtual_display"
                         creator := fun _ => some .virtualDisplay }
  let platform := { workingPlatform with isAmyuniIdd := true }
  let events := [Event.turnOn 1 "", .timeout 1, .answer 1, .leave 1, .look 1, .runThread 0].map
    fun event => (platform, event)
  have hOff := h build (some (.new "privacy_mode_impl_virtual_display" .virtualDisplay)) events 1
    (by decide) (by decide +kernel) (by unfold Settled; decide +kernel)
  exact absurd hOff (by decide +kernel)

end System

end HibtDesk.Privacy
