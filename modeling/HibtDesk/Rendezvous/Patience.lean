import HibtDesk.Rendezvous.OnlineState

/-! A server is not given up too early, and not asked too often. -/
namespace HibtDesk.Rendezvous

namespace Registration

theorem told_of_failed {now : Nat} {loop : Registration} {told : Int}
    (hTold : .updateLatency told ∈ (loop.failed now).2) :
    told = -1 ∧ 4 ≤ loop.fails + 1 ∨ told = 0 ∧ 2 ≤ loop.fails + 1 := by
  unfold failed maxFails2 maxFails1 at hTold
  dsimp only at hTold
  by_cases hMany : 4 ≤ loop.fails + 1
  · rw [if_pos hMany] at hTold
    refine Or.inl ⟨?_, hMany⟩
    split at hTold <;> simpa using hTold
  · rw [if_neg hMany] at hTold
    by_cases hTwo : 2 ≤ loop.fails + 1
    · rw [if_pos hTwo] at hTold
      exact Or.inr ⟨by simpa using hTold, hTwo⟩
    · rw [if_neg hTwo] at hTold
      cases hTold

/-- What a tick tells of the server, it tells after a registration that was not answered. -/
theorem told_of_tick {now : Nat} {usingPublicServer : Bool} {loop : Registration} {told : Int}
    (hTimeout : minRegTimeout ≤ loop.regTimeout)
    (hTold : .updateLatency told ∈ (loop.tick now usingPublicServer).2) :
    ∃ sent, loop.lastRegisterSent = some sent ∧ sent + loop.regTimeout * 1000 ≤ now ∧
      (told = -1 ∧ 4 ≤ loop.fails + 1 ∨ told = 0 ∧ 2 ≤ loop.fails + 1) := by
  rcases tick_cases now usingPublicServer loop hTimeout with
    ⟨hTick, -⟩ | ⟨-, -, hTick⟩ | ⟨sent, timeout, hSent, hLate, -, -, hTick⟩
  · rw [hTick] at hTold
    cases hTold
  · rw [hTick] at hTold
    simp at hTold
  · refine ⟨sent, hSent, hLate, ?_⟩
    rw [hTick] at hTold
    rcases List.mem_append.mp hTold with hFailed | hSends
    · have hFew := told_of_failed hFailed
      exact hFew
    · simp at hSends

end Registration

namespace UdpMediator

/-- The loop has waited for the answers to its registrations. -/
structure Patient (mediator : UdpMediator) : Prop where
  timeout_ge : minRegTimeout ≤ mediator.loop.regTimeout
  idle : mediator.loop.lastRegisterSent = none → mediator.loop.fails = 0
  waiting : ∀ sent, mediator.loop.lastRegisterSent = some sent →
    mediator.started + 3000000 * mediator.loop.fails ≤ sent ∧
      ∀ resp, mediator.loop.lastRegisterResp = some resp →
        resp + 15000000 + 3000000 * mediator.loop.fails ≤ sent
  ema : 0 ≤ mediator.loop.emaLatency ∧ mediator.loop.emaLatency ≤ 1000000

variable {now : Nat} {mediator : UdpMediator}

theorem Patient.tick (hPatient : mediator.Patient) (hStarted : mediator.started ≤ now)
    (usingPublicServer : Bool) :
    Patient { mediator with served := now, loop := (mediator.loop.tick now usingPublicServer).1 } := by
  obtain ⟨hGe, hIdle, hWaiting, hEma⟩ := hPatient
  rcases Registration.tick_cases now usingPublicServer mediator.loop hGe with
    ⟨hTick, -⟩ | ⟨hNone, hExpired, hTick⟩ | ⟨sent, timeout, hSent, hLate, hMore, -, hTick⟩
  · rw [hTick]
    exact ⟨hGe, hIdle, hWaiting, hEma⟩
  · rw [hTick]
    refine ⟨hGe, nofun, ?_, hEma⟩
    rintro _ ⟨⟩
    dsimp only
    rw [hIdle hNone]
    exact ⟨hStarted, hExpired⟩
  · obtain ⟨dnsCheck, old, hFailed, -⟩ :=
      Registration.failed_spec now { mediator.loop with regTimeout := timeout }
    rw [hTick, hFailed]
    refine ⟨Nat.le_trans hGe hMore, nofun, ?_, hEma⟩
    rintro _ ⟨⟩
    obtain ⟨hStart, hResp⟩ := hWaiting sent hSent
    unfold minRegTimeout at hGe
    refine ⟨?_, fun resp hLast => ?_⟩
    · dsimp only
      lia
    · have hAfter := hResp resp hLast
      dsimp only
      lia

theorem Patient.response (hPatient : mediator.Patient) (now : Nat) :
    Patient { mediator with loop := (mediator.loop.updateLatency now).1 } := by
  obtain ⟨old, ema, hNext, -, hEma⟩ := Registration.updateLatency_spec now mediator.loop
  rw [hNext]
  exact ⟨Nat.le_refl _, fun _ => rfl, nofun, hEma hPatient.ema⟩

end UdpMediator

namespace UdpMediators

variable {s : UdpMediators} {event : UdpEvent}

/-- The event comes after the ones before. Only a mediator that was started gets responses. -/
structure Possible (s : UdpMediators) (event : UdpEvent) : Prop where
  later : s.now ≤ event.now
  there : ∀ i now, event = .response i now → i < s.mediators.length

/-- What holds of the mediators of a run, with no promise about their timers. -/
structure Careful (events : List UdpEvent) (s : UdpMediators) : Prop where
  patient : ∀ mediator ∈ s.mediators, mediator.Patient ∧ mediator.started ≤ s.now
  range : ∀ host latency, s.config.online.lookup host = some latency → -1 ≤ latency ∧ latency ≤ 1000000
  heard : ∀ i resp, .response i resp ∈ events → ∃ mediator last, s.mediators[i]? = some mediator ∧
    mediator.loop.lastRegisterResp = some last ∧ resp ≤ last ∧ last ≤ s.now

theorem range_perform {config : Config} {effects : List Effect} (host : String)
    (hRange : ∀ host latency, config.online.lookup host = some latency → -1 ≤ latency ∧ latency ≤ 1000000)
    (hEffects : ∀ told, .updateLatency told ∈ effects → -1 ≤ told ∧ told ≤ 1000000) :
    ∀ other latency, (effects.foldl (perform host) config).online.lookup other = some latency →
      -1 ≤ latency ∧ latency ≤ 1000000 := by
  induction effects generalizing config with
  | nil => exact hRange
  | cons effect rest ih =>
      refine ih (fun other latency hEntry => ?_) fun told hMem => hEffects told (List.mem_cons_of_mem _ hMem)
      cases effect with
      | updateLatency told =>
          have hLookup := Table.lookup_insert config.online host told other
          rw [show (perform host config (.updateLatency told)).online = config.online.insert host told from rfl,
            hLookup] at hEntry
          split at hEntry
          · cases hEntry
            exact hEffects latency List.mem_cons_self
          · exact hRange other latency hEntry
      | rebindUdp => exact hRange other latency hEntry
      | registerPeer => exact hRange other latency hEntry

theorem careful_initial (now : Nat) (config : Config) :
    Careful [] (initial now config) where
  patient := nofun
  range := nofun
  heard := nofun

theorem range_tick {now : Nat} {usingPublicServer : Bool} {loop : Registration}
    (hTimeout : minRegTimeout ≤ loop.regTimeout) :
    ∀ told, .updateLatency told ∈ (loop.tick now usingPublicServer).2 → -1 ≤ told ∧ told ≤ 1000000 := by
  intro told hTold
  obtain ⟨-, -, -, hDown | hUnsure⟩ := Registration.told_of_tick hTimeout hTold
  · omega
  · omega

theorem Careful.step {past : List UdpEvent} (hCareful : Careful past s) (hPossible : s.Possible event) :
    Careful (past ++ [event]) (s.step event) := by
  have hStay : ∀ mediator ∈ s.mediators, mediator.Patient ∧ mediator.started ≤ event.now :=
    fun mediator hMediator => ⟨(hCareful.patient mediator hMediator).1,
      Nat.le_trans (hCareful.patient mediator hMediator).2 hPossible.later⟩
  have hHeard : ∀ i resp, .response i resp ∈ past → ∃ mediator last, s.mediators[i]? = some mediator ∧
      mediator.loop.lastRegisterResp = some last ∧ resp ≤ last ∧ last ≤ event.now := by
    intro i resp hMem
    obtain ⟨mediator, last, hAt, hLast, hLe, hNow⟩ := hCareful.heard i resp hMem
    exact ⟨mediator, last, hAt, hLast, hLe, Nat.le_trans hNow hPossible.later⟩
  cases event with
  | start now host =>
      refine ⟨fun mediator hMediator => ?_, hCareful.range, fun i resp hMem => ?_⟩
      · rcases List.mem_append.mp hMediator with hOld | hNew
        · exact hStay mediator hOld
        · cases List.mem_singleton.mp hNew
          exact ⟨⟨Nat.le_refl _, fun _ => rfl, nofun, Int.le_refl 0, by simp⟩, Nat.le_refl _⟩
      · have hPast : .response i resp ∈ past := by simpa using hMem
        obtain ⟨mediator, last, hAt, hRest⟩ := hHeard i resp hPast
        refine ⟨mediator, last, ?_, hRest⟩
        exact (List.getElem?_append_left (List.getElem?_eq_some_iff.mp hAt).1).trans hAt
  | tick i now usingPublicServer =>
      have hPast : ∀ k resp, .response k resp ∈ past ++ [.tick i now usingPublicServer] →
          .response k resp ∈ past := fun k resp hMem => by simpa using hMem
      unfold UdpMediators.step
      dsimp only
      split
      · rename_i mediator hAt
        have hMember : mediator ∈ s.mediators := List.mem_of_getElem? hAt
        obtain ⟨hPatient, hStarted⟩ := hStay mediator hMember
        refine ⟨fun found hFound => ?_, range_perform _ hCareful.range (range_tick hPatient.timeout_ge),
          fun k resp hMem => ?_⟩
        · rcases List.mem_or_eq_of_mem_set hFound with hOther | rfl
          · exact hStay found hOther
          · exact ⟨hPatient.tick hStarted usingPublicServer, hStarted⟩
        · obtain ⟨found, last, hFound, hLast, hRest⟩ := hHeard k resp (hPast k resp hMem)
          change ∃ mediator last, (s.mediators.set i _)[k]? = _ ∧ _
          rw [List.getElem?_set]
          split
          · rename_i hSame
            subst hSame
            rw [hAt] at hFound
            cases hFound
            refine ⟨_, last, if_pos (List.getElem?_eq_some_iff.mp hAt).1, ?_, hRest⟩
            exact (Registration.tick_lastRegisterResp _ _ _ hPatient.timeout_ge).trans hLast
          · exact ⟨found, last, hFound, hLast, hRest⟩
      · exact ⟨hStay, hCareful.range, fun k resp hMem => hHeard k resp (hPast k resp hMem)⟩
  | response i now =>
      have hThere := hPossible.there i now rfl
      have hAt : s.mediators[i]? = some s.mediators[i] := List.getElem?_eq_getElem hThere
      unfold UdpMediators.step
      dsimp only
      rw [hAt]
      obtain ⟨hPatient, hStarted⟩ := hStay s.mediators[i] (List.getElem_mem hThere)
      obtain ⟨old, ema, hNext, hTold, hEma⟩ := Registration.updateLatency_spec now s.mediators[i].loop
      refine ⟨fun found hFound => ?_, range_perform _ hCareful.range fun told hMem => ?_,
        fun k resp hMem => ?_⟩
      · rcases List.mem_or_eq_of_mem_set hFound with hOther | rfl
        · exact hStay found hOther
        · exact ⟨hPatient.response now, hStarted⟩
      · rcases hTold with hTold | hTold
        · rw [hTold] at hMem
          cases hMem
        · rw [hTold] at hMem
          obtain rfl : told = ema := by simpa using hMem
          have hRange := hEma hPatient.ema
          omega
      · change ∃ mediator last, (s.mediators.set i _)[k]? = _ ∧ _
        have hNow : resp ≤ now ∧ (k ≠ i → .response k resp ∈ past) := by
          rcases List.mem_append.mp hMem with hOld | hNew
          · obtain ⟨-, last, -, -, hLe, hLast⟩ := hHeard k resp hOld
            exact ⟨Nat.le_trans hLe hLast, fun _ => hOld⟩
          · cases List.mem_singleton.mp hNew
            exact ⟨Nat.le_refl _, fun hNot => absurd rfl hNot⟩
        rw [List.getElem?_set]
        split
        · refine ⟨_, now, rfl, ?_, hNow.1, Nat.le_refl _⟩
          dsimp only
          rw [hNext]
        · rename_i hOther
          exact hHeard k resp (hNow.2 (Ne.symm hOther))

/-- Whatever the timers do: a mediator tells that its server is down at the earliest 27 seconds
after the last response and 12 seconds after its own start, and that it does not know 21 and 6
seconds after them. All latencies that are shown are at most a second. -/
theorem never_down_early (origin : Nat) (config : Config) (past rest : List UdpEvent)
    (i now : Nat) (usingPublicServer : Bool)
    (hPossible : Trace.Always step Possible (initial origin config)
      (past ++ .tick i now usingPublicServer :: rest)) :
    let before := Trace.run step (initial origin config) past
    (∀ host latency, before.config.online.lookup host = some latency → -1 ≤ latency ∧ latency ≤ 1000000) ∧
      ∀ mediator, before.mediators[i]? = some mediator →
        ∀ told, .updateLatency told ∈ (mediator.loop.tick now usingPublicServer).2 →
          (told = -1 ∧ mediator.started + 12000000 ≤ now ∧
              ∀ resp, .response i resp ∈ past → resp + 27000000 ≤ now) ∨
            (told = 0 ∧ mediator.started + 6000000 ≤ now ∧
              ∀ resp, .response i resp ∈ past → resp + 21000000 ≤ now) := by
  intro before
  obtain ⟨-, hCareful⟩ := Trace.at_step_of_past step Careful (careful_initial origin config)
    (fun _ _ hNow hInv => hInv.step hNow) hPossible
  refine ⟨hCareful.range, fun mediator hAt told hTold => ?_⟩
  obtain ⟨hPatient, -⟩ := hCareful.patient mediator (List.mem_of_getElem? hAt)
  obtain ⟨sent, hSent, hLate, hFails⟩ := Registration.told_of_tick hPatient.timeout_ge hTold
  obtain ⟨hStart, hWaited⟩ := hPatient.waiting sent hSent
  have hTimeout : 3000 ≤ mediator.loop.regTimeout := hPatient.timeout_ge
  have hResp : ∀ resp, .response i resp ∈ past →
      resp + 15000000 + 3000000 * mediator.loop.fails ≤ sent := by
    intro resp hMem
    obtain ⟨found, last, hFound, hLast, hLe, -⟩ := hCareful.heard i resp hMem
    obtain rfl : mediator = found := by
      rw [hAt] at hFound
      exact Option.some.inj hFound
    have hAfter := hWaited last hLast
    lia
  rcases hFails with ⟨rfl, hFour⟩ | ⟨rfl, hTwo⟩
  · refine Or.inl ⟨rfl, by lia, fun resp hMem => ?_⟩
    have hAfter := hResp resp hMem
    lia
  · refine Or.inr ⟨rfl, by lia, fun resp hMem => ?_⟩
    have hAfter := hResp resp hMem
    lia

/-- A server that never answers. -/
theorem never_down_early_unanswered :
    let past : List UdpEvent := [.start 0 "a.b:1", .tick 0 0 false, .tick 0 3000000 false,
      .tick 0 6000000 false, .tick 0 9000000 false]
    let before := Trace.run step (initial 0 ⟨Table.empty, ""⟩) past
    (∀ host latency, before.config.online.lookup host = some latency → -1 ≤ latency ∧ latency ≤ 1000000) ∧
      ∀ mediator, before.mediators[0]? = some mediator →
        ∀ told, .updateLatency told ∈ (mediator.loop.tick 12000000 false).2 →
          (told = -1 ∧ mediator.started + 12000000 ≤ 12000000 ∧
              ∀ resp, .response 0 resp ∈ past → resp + 27000000 ≤ 12000000) ∨
            (told = 0 ∧ mediator.started + 6000000 ≤ 12000000 ∧
              ∀ resp, .response 0 resp ∈ past → resp + 21000000 ≤ 12000000) :=
  never_down_early 0 ⟨Table.empty, ""⟩ [.start 0 "a.b:1", .tick 0 0 false, .tick 0 3000000 false,
    .tick 0 6000000 false, .tick 0 9000000 false] [] 0 12000000 false
    ⟨⟨by decide, nofun⟩, ⟨by decide, nofun⟩, ⟨by decide, nofun⟩, ⟨by decide, nofun⟩, ⟨by decide, nofun⟩,
      ⟨by decide, nofun⟩, trivial⟩

section Asking

/-- The timer of a mediator sends a registration. -/
def Registers (i moment : Nat) (s : UdpMediators) : UdpEvent → Prop
  | .tick k now usingPublicServer => k = i ∧ now = moment ∧
      ∃ mediator, s.mediators[i]? = some mediator ∧
        .registerPeer ∈ (mediator.loop.tick now usingPublicServer).2
  | .start .. | .response .. => False

/-- A registration was sent, and if it was answered, the answer came after it. -/
def Asked (i moment : Nat) (s : UdpMediators) : Prop :=
  moment ≤ s.now ∧ ∃ mediator, s.mediators[i]? = some mediator ∧
    ((∃ sent, mediator.loop.lastRegisterSent = some sent ∧ moment ≤ sent) ∨
      mediator.loop.lastRegisterSent = none ∧
        ∃ resp, mediator.loop.lastRegisterResp = some resp ∧ moment ≤ resp)

variable {moment : Nat}

theorem Asked.step (hCareful : ∀ mediator ∈ s.mediators, mediator.Patient) (hAsked : s.Asked i moment)
    (hPossible : s.Possible event) : (s.step event).Asked i moment := by
  obtain ⟨hNow, mediator, hAt, hAsked⟩ := hAsked
  have hLater : moment ≤ event.now := Nat.le_trans hNow hPossible.later
  obtain ⟨hLength, hIs⟩ := List.getElem?_eq_some_iff.mp hAt
  cases event with
  | start now host =>
      exact ⟨hLater, mediator, (List.getElem?_append_left hLength).trans hAt, hAsked⟩
  | tick k now usingPublicServer =>
      unfold UdpMediators.step
      dsimp only
      split
      · rename_i turned hTurned
        by_cases hSame : k = i
        · subst hSame
          rw [hAt] at hTurned
          cases hTurned
          refine ⟨hLater, _, List.getElem?_set_self hLength, ?_⟩
          dsimp only
          rcases Registration.tick_cases now usingPublicServer mediator.loop
            (hCareful mediator (List.mem_of_getElem? hAt)).timeout_ge with
            ⟨hTick, -⟩ | ⟨-, -, hTick⟩ | ⟨sent, timeout, -, -, -, -, hTick⟩
          · rw [hTick]
            exact hAsked
          · rw [hTick]
            exact Or.inl ⟨now, rfl, hLater⟩
          · rw [hTick]
            exact Or.inl ⟨now, rfl, hLater⟩
        · exact ⟨hLater, mediator, (List.getElem?_set_ne hSame).trans hAt, hAsked⟩
      · exact ⟨hLater, mediator, hAt, hAsked⟩
  | response k now =>
      unfold UdpMediators.step
      dsimp only
      split
      · rename_i turned hTurned
        by_cases hSame : k = i
        · subst hSame
          rw [hAt] at hTurned
          cases hTurned
          obtain ⟨old, ema, hNext, -⟩ := Registration.updateLatency_spec now mediator.loop
          refine ⟨hLater, _, List.getElem?_set_self hLength, ?_⟩
          dsimp only
          rw [hNext]
          exact Or.inr ⟨rfl, now, rfl, hLater⟩
        · exact ⟨hLater, mediator, (List.getElem?_set_ne hSame).trans hAt, hAsked⟩
      · exact ⟨hLater, mediator, hAt, hAsked⟩

/-- Right after it was sent, a registration is the last one. -/
theorem Registers.asked (hCareful : ∀ mediator ∈ s.mediators, mediator.Patient)
    (hRegisters : s.Registers i moment event) : (s.step event).Asked i moment := by
  cases event with
  | start now host => exact hRegisters.elim
  | response k now => exact hRegisters.elim
  | tick k now usingPublicServer =>
      obtain ⟨rfl, rfl, mediator, hAt, hSends⟩ := hRegisters
      obtain ⟨hLength, -⟩ := List.getElem?_eq_some_iff.mp hAt
      unfold UdpMediators.step
      dsimp only
      rw [hAt]
      refine ⟨Nat.le_refl _, _, List.getElem?_set_self hLength, Or.inl ⟨now, ?_, Nat.le_refl _⟩⟩
      rcases Registration.tick_cases now usingPublicServer mediator.loop
        (hCareful mediator (List.mem_of_getElem? hAt)).timeout_ge with
        ⟨hTick, -⟩ | ⟨-, -, hTick⟩ | ⟨sent, timeout, -, -, -, -, hTick⟩
      · rw [hTick] at hSends
        cases hSends
      · dsimp only
        rw [hTick]
      · dsimp only
        rw [hTick]

/-- The timer of a mediator registers at most every 3 seconds, and not within 15 seconds after
a response. -/
theorem never_asks_often (origin : Nat) (config : Config) (past rest : List UdpEvent)
    (event : UdpEvent) (i moment : Nat)
    (hPossible : Trace.Always step Possible (initial origin config) (past ++ event :: rest))
    (hRegisters : (Trace.run step (initial origin config) past).Registers i moment event) :
    (∀ earlier, Trace.Once step (Registers i earlier) (initial origin config) past →
        earlier + 3000000 ≤ moment) ∧
      ∀ resp, .response i resp ∈ past → resp + 15000000 ≤ moment := by
  have hInv := Trace.at_step_of_past step
    (fun past s => Careful past s ∧ ∀ earlier,
      Trace.Once step (Registers i earlier) (initial origin config) past → s.Asked i earlier)
    ⟨careful_initial origin config, nofun⟩
    (fun past event hNow hInv => ⟨hInv.1.step hNow, fun earlier hOnce => by
      have hPatient := fun mediator hMediator => (hInv.1.patient mediator hMediator).1
      rcases (Trace.once_concat step _ past event).mp hOnce with hBefore | hLast
      · exact (hInv.2 earlier hBefore).step hPatient hNow
      · exact hLast.asked hPatient⟩) hPossible
  obtain ⟨-, hCareful, hAsked⟩ := hInv
  cases event with
  | start now host => exact hRegisters.elim
  | response k now => exact hRegisters.elim
  | tick k now usingPublicServer =>
      obtain ⟨rfl, rfl, mediator, hAt, hSends⟩ := hRegisters
      obtain ⟨hPatient, -⟩ := hCareful.patient mediator (List.mem_of_getElem? hAt)
      have hTimeout : 3000 ≤ mediator.loop.regTimeout := hPatient.timeout_ge
      have hEarlier : ∀ earlier, Trace.Once step (Registers k earlier)
          (initial origin config) past →
          (∃ sent, mediator.loop.lastRegisterSent = some sent ∧ earlier ≤ sent) ∨
            mediator.loop.lastRegisterSent = none ∧
              ∃ resp, mediator.loop.lastRegisterResp = some resp ∧ earlier ≤ resp := by
        intro earlier hOnce
        obtain ⟨-, found, hFound, hIs⟩ := hAsked earlier hOnce
        rw [hAt] at hFound
        cases hFound
        exact hIs
      have hHeard : ∀ resp, .response k resp ∈ past →
          ∃ last, mediator.loop.lastRegisterResp = some last ∧ resp ≤ last := by
        intro resp hMem
        obtain ⟨found, last, hFound, hLast, hLe, -⟩ := hCareful.heard k resp hMem
        rw [hAt] at hFound
        cases hFound
        exact ⟨last, hLast, hLe⟩
      rcases Registration.tick_cases now usingPublicServer mediator.loop hPatient.timeout_ge with
        ⟨hTick, -⟩ | ⟨hNone, hExpired, -⟩ | ⟨sent, timeout, hSent, hLate, -⟩
      · rw [hTick] at hSends
        cases hSends
      · unfold regInterval at hExpired
        refine ⟨fun earlier hOnce => ?_, fun resp hMem => ?_⟩
        · rcases hEarlier earlier hOnce with ⟨sent, hSent, -⟩ | ⟨-, resp, hResp, hLe⟩
          · rw [hNone] at hSent
            cases hSent
          · have hAfter := hExpired resp hResp
            lia
        · obtain ⟨last, hLast, hLe⟩ := hHeard resp hMem
          have hAfter := hExpired last hLast
          lia
      · refine ⟨fun earlier hOnce => ?_, fun resp hMem => ?_⟩
        · rcases hEarlier earlier hOnce with ⟨last, hLast, hLe⟩ | ⟨hNone, -⟩
          · rw [hSent] at hLast
            cases hLast
            lia
          · rw [hSent] at hNone
            cases hNone
        · obtain ⟨last, hLast, hLe⟩ := hHeard resp hMem
          have hAfter := (hPatient.waiting sent hSent).2 last hLast
          lia

/-- The second registration of a server that has not answered the first. -/
theorem never_asks_often_again :
    let past : List UdpEvent := [.start 0 "a.b:1", .tick 0 0 false]
    (∀ earlier, Trace.Once step (Registers 0 earlier) (initial 0 ⟨Table.empty, ""⟩) past →
        earlier + 3000000 ≤ 3000000) ∧
      ∀ resp, .response 0 resp ∈ past → resp + 15000000 ≤ 3000000 :=
  never_asks_often 0 ⟨Table.empty, ""⟩ [.start 0 "a.b:1", .tick 0 0 false] [] (.tick 0 3000000 false) 0 3000000
    ⟨⟨by decide, nofun⟩, ⟨by decide, nofun⟩, ⟨by decide, nofun⟩, trivial⟩
    ⟨rfl, rfl, _, rfl, by decide⟩

end Asking

end UdpMediators

end HibtDesk.Rendezvous
