import HibtDesk.Library.Trace
import HibtDesk.Privacy.PrivacyMode

/-! Who may turn privacy mode off. The lock of the mode and the check of the owner keep
the requests of other connections away; the calls that turn it off in nobody's name are
the ones that reach it. -/
namespace HibtDesk.Privacy

section Owner
variable {build : Build} {platform : Platform} {mode : Mode} {c id : Int}

theorem checkOnConnId_of_other {impl : PrivacyModeImpl} (hOwned : impl.connId ≠ invalidPrivacyModeConnId)
    (hOther : impl.connId ≠ id) : impl.checkOnConnId id = .error occupied := by
  unfold PrivacyModeImpl.checkOnConnId
  rw [if_neg hOther, if_pos hOwned]

/-- While the mode is owned, another connection cannot turn it on. -/
theorem turnOnPrivacySync_of_other (hOwner : getPrivacyModeConnId mode = some c)
    (hOwned : c ≠ invalidPrivacyModeConnId) (hOther : c ≠ id) (implKey : String) :
    turnOnPrivacySync build platform implKey id mode = (some (.error occupied), mode) := by
  obtain ⟨impl, rfl, rfl⟩ := Option.map_eq_some_iff.mp hOwner
  unfold turnOnPrivacySync
  simp only [checkOnConnId_of_other hOwned hOther]

/-- Nor can it turn it off in its own name. -/
theorem turnOffPrivacy_of_other (hOwner : getPrivacyModeConnId mode = some c)
    (hOwned : c ≠ invalidPrivacyModeConnId) (hId : id ≠ invalidPrivacyModeConnId)
    (hOther : c ≠ id) :
    turnOffPrivacy platform id mode = (some (.error turnOffOtherId), mode) := by
  obtain ⟨impl, rfl, rfl⟩ := Option.map_eq_some_iff.mp hOwner
  unfold turnOffPrivacy PrivacyModeImpl.turnOffPrivacy PrivacyModeImpl.checkOffConnId
  simp only [if_pos (And.intro hOwned (And.intro hId hOther))]

/-- In nobody's name it is turned off if only the input can be released. -/
theorem owner_turnOffPrivacy_anyone (hOwner : getPrivacyModeConnId mode = some c)
    (hOwned : c ≠ invalidPrivacyModeConnId) :
    getPrivacyModeConnId (turnOffPrivacy platform invalidPrivacyModeConnId mode).2 = some c ↔
      platform.unhook.isOk = false := by
  obtain ⟨impl, rfl, rfl⟩ := Option.map_eq_some_iff.mp hOwner
  unfold turnOffPrivacy PrivacyModeImpl.turnOffPrivacy PrivacyModeImpl.checkOffConnId
  cases hUnhook : platform.unhook with
  | error e => simp [getPrivacyModeConnId, Except.isOk, Except.toBool]
  | ok _ => simpa [getPrivacyModeConnId, Except.isOk, Except.toBool] using Ne.symm hOwned

theorem owner_of_turnOffPrivacy (hOwned : c ≠ invalidPrivacyModeConnId)
    (hOwner : getPrivacyModeConnId (turnOffPrivacy platform id mode).2 = some c) :
    getPrivacyModeConnId mode = some c := by
  cases mode with
  | none => exact hOwner
  | some impl =>
      unfold turnOffPrivacy PrivacyModeImpl.turnOffPrivacy at hOwner
      cases hCheck : impl.checkOffConnId id with
      | error e => simpa [hCheck] using hOwner
      | ok _ =>
          cases hUnhook : platform.unhook with
          | error e => simpa [hCheck, hUnhook] using hOwner
          | ok _ =>
              simp only [hCheck, hUnhook, getPrivacyModeConnId, Option.map_some,
                Option.some.injEq] at hOwner
              exact absurd hOwner.symm hOwned

/-- The owner that turns the mode off is not the owner any more, if the input can be
released. -/
theorem owner_turnOffPrivacy_self (hUnhook : platform.unhook.isOk = true)
    (hId : id ≠ invalidPrivacyModeConnId) :
    getPrivacyModeConnId (turnOffPrivacy platform id mode).2 ≠ some id := by
  intro hOwner
  obtain ⟨impl, rfl, rfl⟩ := Option.map_eq_some_iff.mp (owner_of_turnOffPrivacy hId hOwner)
  unfold turnOffPrivacy PrivacyModeImpl.turnOffPrivacy PrivacyModeImpl.checkOffConnId at hOwner
  cases hRelease : platform.unhook with
  | error e => simp [hRelease, Except.isOk, Except.toBool] at hUnhook
  | ok _ =>
      simp only [hRelease, getPrivacyModeConnId, ne_eq, not_true, and_false, if_false,
        Option.map_some, Option.some.injEq] at hOwner
      exact hId hOwner.symm

end Owner

namespace System

abbrev owner (s : System) : Option Int := getPrivacyModeConnId s.mode

/-- The connection whose request, thread or end a step belongs to; the local user is none. -/
def actor (s : System) : Event → Option Int
  | .turnOn id _ | .turnOff id _ | .runSync id | .receive id | .timeout id | .answer id => some id
  | .callTurnOff id | .leave id | .look id | .giveBack id | .resetAll id => some id
  | .runThread i => s.threads[i]?.map Thread.connId
  | .userOff | .userSwitch _ => none

/-- A step of another connection leaves the owner. -/
def OwnerKept (build : Build) (s : System) (event : Platform × Event) : Prop :=
  ∀ c d, s.owner = some c → c ≠ invalidPrivacyModeConnId → s.actor event.2 = some d → d ≠ c →
    (s.step build event).owner = some c

/-- The mode is another connection's. -/
def OwnedByOther (s : System) (id : Int) : Prop :=
  ∃ c, s.owner = some c ∧ c ≠ invalidPrivacyModeConnId ∧ id ≠ c

/-- The step does not turn the mode of another connection off in nobody's name: neither
after a request that failed nor when the virtual displays are reset. -/
def Spares (s : System) : Platform × Event → Prop
  | (platform, .callTurnOff id) =>
      (∃ msg, s.phase id = .turningOff invalidPrivacyModeConnId msg) → s.OwnedByOther id →
        platform.unhook.isOk = false
  | (platform, .resetAll id) =>
      s.phase id = .ended → platform.isAmyuniIdd = true → s.OwnedByOther id →
        platform.unhook.isOk = false
  | _ => True

section Step
variable {build : Build} {s : System}

@[simp] theorem mode_enter (s : System) (id : Int) (phase : Phase) : (s.enter id phase).mode = s.mode :=
  rfl

theorem phase_enter (s : System) (id other : Int) (phase : Phase) :
    (s.enter id phase).phase other = if other = id then phase else s.phase other := by
  unfold enter
  exact Function.update_apply ..

@[simp] theorem mode_onAnswer (platform : Platform) (s : System) (id : Int) (implKey : String)
    (result : Option (Except String Bool)) :
    (s.onAnswer platform id implKey result).mode = s.mode := by
  unfold onAnswer
  split
  · split <;> rfl
  · rfl
  · dsimp only
    split <;> rfl
  · rfl

/-- A connection turns the mode off in its own name or in nobody's, and nobody's id is
no connection. -/
structure Sound (s : System) : Prop where
  turnsOff : ∀ id connId msg, s.phase id = .turningOff connId msg →
    connId = id ∨ connId = invalidPrivacyModeConnId
  named : ∀ id, s.phase id ≠ .idle → id ≠ invalidPrivacyModeConnId

theorem sound_new (mode : Mode) : (new mode).Sound where
  turnsOff := fun _ _ _ hPhase => by cases hPhase
  named := fun _ hPhase => absurd rfl hPhase

theorem Sound.enter (h : s.Sound) {id : Int} {phase : Phase} (hId : id ≠ invalidPrivacyModeConnId)
    (hPhase : ∀ connId msg, phase = .turningOff connId msg →
      connId = id ∨ connId = invalidPrivacyModeConnId) : (s.enter id phase).Sound := by
  constructor
  · intro other connId msg hOther
    rw [phase_enter] at hOther
    split at hOther
    · rename_i hSame
      rw [hSame]
      exact hPhase connId msg hOther
    · exact h.turnsOff other connId msg hOther
  · intro other hOther
    rw [phase_enter] at hOther
    split at hOther
    · rename_i hSame
      exact hSame ▸ hId
    · exact h.named other hOther

theorem Sound.mode (h : s.Sound) (mode : Mode) : Sound { s with mode := mode } :=
  ⟨h.turnsOff, h.named⟩

theorem Sound.threads (h : s.Sound) (threads : List Thread) : Sound { s with threads := threads } :=
  ⟨h.turnsOff, h.named⟩

theorem Sound.send (h : s.Sound) (id : Int) (msg : PrivacyModeMsg) : (s.send id msg).Sound :=
  ⟨h.turnsOff, h.named⟩

theorem Sound.answered (h : s.Sound) (platform : Platform) {id : Int}
    (hId : id ≠ invalidPrivacyModeConnId) (implKey : String)
    (result : Option (Except String Bool)) : (s.onAnswer platform id implKey result).Sound := by
  unfold System.onAnswer
  split
  · split
    · exact (h.send ..).enter hId (by simp)
    · refine h.enter hId ?_
      intro connId msg hPhase
      cases hPhase
      exact Or.inl rfl
  · exact (h.send ..).enter hId (by simp)
  · dsimp only
    split
    · refine h.enter hId ?_
      intro connId msg hPhase
      cases hPhase
      exact Or.inr rfl
    · exact (h.send ..).enter hId (by simp)
  · exact (h.send ..).enter hId (by simp)

theorem Sound.step (h : s.Sound) (event : Platform × Event) : (s.step build event).Sound := by
  obtain ⟨platform, event⟩ := event
  cases event with
  | turnOn id implKey =>
      rw [System.step]
      split
      · rename_i hIdle
        split
        · exact h.send ..
        · split
          · exact (h.threads _).enter hIdle.2 (by simp)
          · exact h.enter hIdle.2 (by simp)
      · exact h
  | turnOff id implKey =>
      rw [System.step]
      split
      · rename_i hIdle
        split
        · exact h.send ..
        · refine h.enter hIdle.2 ?_
          intro connId msg hPhase
          cases hPhase
          exact Or.inl rfl
      · exact h
  | runSync id =>
      rw [System.step]
      split
      · rename_i hPhase
        exact (h.mode _).enter (h.named id (by simp [hPhase])) (by simp)
      · exact h
  | runThread i =>
      rw [System.step]
      split
      · split
        · exact h
        · exact (h.mode _).threads _
      · exact h
  | receive id =>
      rw [System.step]
      split
      · rename_i hPhase
        split
        · exact h.enter (h.named id (by simp [hPhase])) (by simp)
        · exact h
      · exact h
  | timeout id =>
      rw [System.step]
      split
      · rename_i hPhase
        exact h.enter (h.named id (by simp [hPhase])) (by simp)
      · exact h
  | answer id =>
      rw [System.step]
      split
      · rename_i hPhase
        exact h.answered platform (h.named id (by simp [hPhase])) ..
      · exact h
  | callTurnOff id =>
      rw [System.step]
      split
      · rename_i hPhase
        exact ((h.mode _).send ..).enter (h.named id (by simp [hPhase])) (by simp)
      · exact h
  | leave id =>
      rw [System.step]
      split
      · rename_i hIdle
        exact h.enter hIdle.2 (by simp)
      · exact h
  | look id =>
      rw [System.step]
      split
      · rename_i hPhase
        refine h.enter (h.named id (by simp [hPhase])) ?_
        split <;> simp
      · exact h
  | giveBack id =>
      rw [System.step]
      split
      · rename_i hPhase
        exact (h.mode _).enter (h.named id (by simp [hPhase])) (by simp)
      · exact h
  | resetAll id =>
      rw [System.step]
      split
      · exact h.mode _
      · exact h
  | userOff => exact h.mode _
  | userSwitch implKey => exact h.mode _

/-- A step that leaves the mode leaves the owner. -/
theorem ownerKept_of_mode {event : Platform × Event} (hMode : (s.step build event).mode = s.mode) :
    OwnerKept build s event := by
  intro c d hOwner _ _ _
  unfold owner
  rw [hMode]
  exact hOwner

/-- The mode after an event, as far as the connections have a part in it. -/
theorem mode_step_of_quiet {platform : Platform} {event : Event}
    (hQuiet : event matches .turnOn .. | .turnOff .. | .receive _ | .timeout _ | .answer _ | .leave _
      | .look _) : (s.step build (platform, event)).mode = s.mode := by
  cases event with
  | turnOn id implKey =>
      rw [System.step]
      split
      · split
        · rfl
        · split <;> rfl
      · rfl
  | turnOff id implKey =>
      rw [System.step]
      split
      · split <;> rfl
      · rfl
  | receive id =>
      rw [System.step]
      split
      · split <;> rfl
      · rfl
  | timeout id =>
      rw [System.step]
      split <;> rfl
  | answer id =>
      rw [System.step]
      split
      · exact mode_onAnswer ..
      · rfl
  | leave id =>
      rw [System.step]
      split <;> rfl
  | look id =>
      rw [System.step]
      split <;> rfl
  | runSync _ | runThread _ | callTurnOff _ | giveBack _ | resetAll _ | userOff | userSwitch _ =>
      cases hQuiet

/-- Where the mode is turned off in nobody's name, another owner stays exactly if the input
cannot be released. -/
theorem ownerKept_anyone_iff {event : Platform × Event} {id : Int} (hActor : s.actor event.2 = some id)
    (hMode : (s.step build event).mode =
      (turnOffPrivacy event.1 invalidPrivacyModeConnId s.mode).2) :
    OwnerKept build s event ↔ (s.OwnedByOther id → event.1.unhook.isOk = false) := by
  constructor
  · rintro hKept ⟨c, hOwner, hOwned, hOther⟩
    have hStill := hKept c id hOwner hOwned hActor hOther
    unfold owner at hStill
    rw [hMode] at hStill
    exact (owner_turnOffPrivacy_anyone hOwner hOwned).mp hStill
  · intro hFails c d hOwner hOwned hSame hOther
    obtain rfl := Option.some.inj (hActor.symm.trans hSame)
    unfold owner
    rw [hMode]
    exact (owner_turnOffPrivacy_anyone hOwner hOwned).mpr (hFails ⟨c, hOwner, hOwned, hOther⟩)

/-- A step keeps the owner exactly if it spares it. -/
theorem ownerKept_iff_spares (h : s.Sound) (event : Platform × Event) :
    OwnerKept build s event ↔ s.Spares event := by
  obtain ⟨platform, event⟩ := event
  cases event with
  | turnOn id implKey => exact iff_of_true (ownerKept_of_mode (mode_step_of_quiet rfl)) trivial
  | turnOff id implKey => exact iff_of_true (ownerKept_of_mode (mode_step_of_quiet rfl)) trivial
  | receive id => exact iff_of_true (ownerKept_of_mode (mode_step_of_quiet rfl)) trivial
  | timeout id => exact iff_of_true (ownerKept_of_mode (mode_step_of_quiet rfl)) trivial
  | answer id => exact iff_of_true (ownerKept_of_mode (mode_step_of_quiet rfl)) trivial
  | leave id => exact iff_of_true (ownerKept_of_mode (mode_step_of_quiet rfl)) trivial
  | look id => exact iff_of_true (ownerKept_of_mode (mode_step_of_quiet rfl)) trivial
  | userOff =>
      refine iff_of_true ?_ trivial
      intro c d _ _ hActor
      cases hActor
  | userSwitch implKey =>
      refine iff_of_true ?_ trivial
      intro c d _ _ hActor
      cases hActor
  | runSync id =>
      refine iff_of_true ?_ trivial
      intro c d hOwner hOwned hActor hOther
      cases hActor
      rw [System.step]
      split
      · unfold owner
        rw [turnOnPrivacySync_of_other hOwner hOwned (Ne.symm hOther)]
        exact hOwner
      · exact hOwner
  | runThread i =>
      refine iff_of_true ?_ trivial
      intro c d hOwner hOwned hActor hOther
      rw [System.step]
      cases hThread : s.threads[i]? with
      | none => exact hOwner
      | some thread =>
          obtain rfl : thread.connId = d := by simpa [actor, hThread] using hActor
          dsimp only
          split
          · exact hOwner
          · unfold owner
            rw [turnOnPrivacySync_of_other hOwner hOwned (Ne.symm hOther)]
            exact hOwner
  | giveBack id =>
      refine iff_of_true ?_ trivial
      intro c d hOwner hOwned hActor hOther
      cases hActor
      rw [System.step]
      split
      · rename_i hPhase
        unfold owner
        rw [mode_enter, turnOffPrivacy_of_other hOwner hOwned (h.named id (by simp [hPhase]))
          (Ne.symm hOther)]
        exact hOwner
      · exact hOwner
  | callTurnOff id =>
      cases hPhase : s.phase id with
      | turningOff connId msg =>
          have hMode : (s.step build (platform, .callTurnOff id)).mode =
              (turnOffPrivacy platform connId s.mode).2 := by
            rw [System.step, hPhase]
            rfl
          by_cases hAnyone : connId = invalidPrivacyModeConnId
          · subst hAnyone
            rw [ownerKept_anyone_iff rfl hMode]
            exact ⟨fun hFails _ => hFails, fun hSpares => hSpares ⟨msg, hPhase⟩⟩
          · refine iff_of_true ?_ ?_
            · intro c d hOwner hOwned hActor hOther
              cases hActor
              obtain rfl := (h.turnsOff id connId msg hPhase).resolve_right hAnyone
              unfold owner
              rw [hMode, turnOffPrivacy_of_other hOwner hOwned (h.named connId (by simp [hPhase]))
                (Ne.symm hOther)]
              exact hOwner
            · rintro ⟨found, hFound⟩
              exact absurd (Phase.turningOff.inj (hPhase.symm.trans hFound)).1 hAnyone
      | idle | turningOn _ | awaiting _ _ | answered _ _ | leaving | leavingOff | ended =>
          refine iff_of_true (ownerKept_of_mode ?_) ?_
          · rw [System.step, hPhase]
          · rintro ⟨msg, hFound⟩
            rw [hPhase] at hFound
            cases hFound
  | resetAll id =>
      by_cases hReset : s.phase id = .ended ∧ platform.isAmyuniIdd = true
      · have hMode : (s.step build (platform, .resetAll id)).mode =
            (turnOffPrivacy platform invalidPrivacyModeConnId s.mode).2 := by
          rw [System.step, if_pos hReset]
        rw [ownerKept_anyone_iff rfl hMode]
        exact ⟨fun hFails _ _ => hFails, fun hSpares => hSpares hReset.1 hReset.2⟩
      · refine iff_of_true (ownerKept_of_mode ?_) ?_
        · rw [System.step, if_neg hReset]
        · intro hEnded hIdd
          exact absurd ⟨hEnded, hIdd⟩ hReset

end Step

/-- Over a whole run, the steps of the other connections leave the owner exactly if they
all spare it. -/
theorem owner_kept_iff (build : Build) (mode : Mode) (events : List (Platform × Event)) :
    Trace.Always (step build) (OwnerKept build) (new mode) events ↔
      Trace.Always (step build) Spares (new mode) events := by
  constructor
  · exact Trace.always_of_invariant (step build) Sound (fun _ event _ h => h.step event)
      (fun _ event hKept h => (ownerKept_iff_spares h event).mp hKept) (sound_new mode)
  · exact Trace.always_of_invariant (step build) Sound (fun _ event _ h => h.step event)
      (fun _ event hSpares h => (ownerKept_iff_spares h event).mpr hSpares) (sound_new mode)

/-- A platform on which everything works. -/
def workingPlatform : Platform where
  supportedImpls := ["privacy_mode_impl_mag"]
  implOption := ""
  isAmyuniIdd := false
  virtualDisplaySupported := true
  showsWindow := .ok true
  addsDisplay := .ok ()
  unhook := .ok ()
  checkErr := ""

/-- A process that knows the window only. -/
def windowBuild : Build where
  defaultImpl := "privacy_mode_impl_mag"
  creator := fun implKey => if implKey = "privacy_mode_impl_mag" then some .topmostWindow else none

/-- The second connection is told that the mode is occupied, and turns it off. -/
theorem occupied_request_turns_off :
    ¬ ∀ (build : Build) (mode : Mode) (events : List (Platform × Event)),
      Trace.Always (step build) (OwnerKept build) (new mode) events := by
  intro h
  have hRun := (h windowBuild none ([.turnOn 1 "privacy_mode_impl_mag", .runSync 1, .answer 1,
    .turnOn 2 "privacy_mode_impl_mag", .runSync 2, .answer 2, .callTurnOff 2].map
      fun event => (workingPlatform, event))).2.2.2.2.2.2.1
  have hStill := hRun 1 2 (by decide +kernel) (by decide) (by decide +kernel) (by decide)
  exact absurd hStill (by decide +kernel)

end System

end HibtDesk.Privacy
