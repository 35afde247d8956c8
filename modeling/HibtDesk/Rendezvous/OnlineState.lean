import HibtDesk.Library.History
import HibtDesk.Rendezvous.Registration

/-! How far what is known of the servers lags behind. -/
namespace HibtDesk.Rendezvous

namespace Registration

variable {now started served gap : Nat} {loop : Registration}

theorem elapsedMillis_ge {moment millis : Nat} (hPos : 0 < millis) :
    millis ≤ elapsedMillis now moment ↔ moment + millis * 1000 ≤ now := by
  unfold elapsedMillis
  omega

/-- A tick does nothing, sends the first registration, or finds the last one unanswered. -/
theorem tick_cases (now : Nat) (usingPublicServer : Bool) (loop : Registration)
    (hTimeout : minRegTimeout ≤ loop.regTimeout) :
    (loop.tick now usingPublicServer = (loop, []) ∧
      (∀ sent, loop.lastRegisterSent = some sent → now < sent + loop.regTimeout * 1000) ∧
        (loop.lastRegisterSent = none →
          ∃ resp, loop.lastRegisterResp = some resp ∧ now < resp + regInterval * 1000)) ∨
    (loop.lastRegisterSent = none ∧
      (∀ resp, loop.lastRegisterResp = some resp → resp + regInterval * 1000 ≤ now) ∧
        loop.tick now usingPublicServer = ({ loop with lastRegisterSent := some now }, [.registerPeer])) ∨
    ∃ sent timeout, loop.lastRegisterSent = some sent ∧ sent + loop.regTimeout * 1000 ≤ now ∧
      loop.regTimeout ≤ timeout ∧ timeout ≤ loop.regTimeout + minRegTimeout ∧
        loop.tick now usingPublicServer =
          ({ ({ loop with regTimeout := timeout }.failed now).1 with lastRegisterSent := some now },
            ({ loop with regTimeout := timeout }.failed now).2 ++ [.registerPeer]) := by
  obtain ⟨regTimeout, fails, lastResp, lastSent, dnsCheck, old, ema⟩ := loop
  dsimp only at hTimeout ⊢
  have hPos : 0 < regTimeout := Nat.lt_of_lt_of_le (by decide) hTimeout
  cases lastSent with
  | none =>
      by_cases hExpired : ∀ resp, lastResp = some resp → resp + regInterval * 1000 ≤ now
      · refine Or.inr (Or.inl ⟨rfl, hExpired, ?_⟩)
        have hAll : (lastResp.all fun resp => decide (elapsedMillis now resp ≥ regInterval)) = true := by
          rw [Option.all_eq_true]
          exact fun resp hResp => decide_eq_true ((elapsedMillis_ge (by decide)).mpr (hExpired resp hResp))
        simp only [tick, Option.any_none, hAll]
        simp
      · push Not at hExpired
        obtain ⟨resp, rfl, hEarly⟩ := hExpired
        refine Or.inl ⟨?_, nofun, fun _ => ⟨resp, rfl, hEarly⟩⟩
        have hNot : ¬ regInterval ≤ elapsedMillis now resp := fun hLate =>
          absurd ((elapsedMillis_ge (by decide)).mp hLate) (Nat.not_le.mpr hEarly)
        simp [tick, hNot]
  | some sent =>
      by_cases hLate : sent + regTimeout * 1000 ≤ now
      · have hAny : regTimeout ≤ elapsedMillis now sent := (elapsedMillis_ge hPos).mpr hLate
        refine Or.inr (Or.inr ⟨sent, if usingPublicServer && decide (regTimeout < maxRegTimeout) then
          regTimeout + minRegTimeout else regTimeout, rfl, hLate, ?_, ?_, ?_⟩)
        · split <;> omega
        · split <;> omega
        · simp only [tick, Option.any_some, ge_iff_le, hAny, decide_true, Bool.and_true, Bool.true_or,
            if_true]
          split <;> rfl
      · have hNot : ¬ regTimeout ≤ elapsedMillis now sent := fun hAny =>
          hLate ((elapsedMillis_ge hPos).mp hAny)
        refine Or.inl ⟨?_, ?_, nofun⟩
        · simp [tick, hNot]
        · rintro _ ⟨⟩
          exact Nat.not_le.mp hLate

/-- What is shown of a server, after a registration of it was not answered. -/
theorem failed_spec (now : Nat) (loop : Registration) :
    ∃ dnsCheck old, (loop.failed now).1 =
        { loop with fails := loop.fails + 1, lastDnsCheck := dnsCheck, oldLatency := old } ∧
      ∀ host config, (loop.failed now).2.foldl (UdpMediators.perform host) config =
        if 4 ≤ loop.fails + 1 then config.updateLatency host (-1)
        else if 2 ≤ loop.fails + 1 then config.updateLatency host 0 else config := by
  unfold failed maxFails2 maxFails1
  dsimp only
  by_cases hDown : 4 ≤ loop.fails + 1
  · rw [if_pos hDown]
    split
    · exact ⟨now, 0, rfl, fun host config => rfl⟩
    · exact ⟨loop.lastDnsCheck, 0, rfl, fun host config => rfl⟩
  · rw [if_neg hDown]
    by_cases hUnsure : 2 ≤ loop.fails + 1
    · rw [if_pos hUnsure]
      exact ⟨loop.lastDnsCheck, 0, rfl, fun host config => by
        rw [if_neg hDown, if_pos hUnsure]
        rfl⟩
    · rw [if_neg hUnsure]
      exact ⟨loop.lastDnsCheck, loop.oldLatency, rfl, fun host config => by
        rw [if_neg hDown, if_neg hUnsure]
        rfl⟩

theorem tick_lastRegisterResp (now : Nat) (usingPublicServer : Bool) (loop : Registration)
    (hTimeout : minRegTimeout ≤ loop.regTimeout) :
    (loop.tick now usingPublicServer).1.lastRegisterResp = loop.lastRegisterResp := by
  rcases tick_cases now usingPublicServer loop hTimeout with
    ⟨hTick, -⟩ | ⟨-, -, hTick⟩ | ⟨sent, timeout, -, -, -, -, hTick⟩
  · rw [hTick]
  · rw [hTick]
  · obtain ⟨dnsCheck, old, hFailed, -⟩ := failed_spec now { loop with regTimeout := timeout }
    rw [hTick, hFailed]

/-- A response ends what was waited for. The latency that is shown is the smoothed one. -/
theorem updateLatency_spec (now : Nat) (loop : Registration) :
    ∃ old ema, (loop.updateLatency now).1 =
        { loop with
          lastRegisterResp := some now
          fails := 0
          regTimeout := minRegTimeout
          lastRegisterSent := none
          oldLatency := old
          emaLatency := ema } ∧
      ((loop.updateLatency now).2 = [] ∨ (loop.updateLatency now).2 = [.updateLatency ema]) ∧
      (0 ≤ loop.emaLatency ∧ loop.emaLatency ≤ 1000000 → 0 ≤ ema ∧ ema ≤ 1000000) := by
  unfold updateLatency
  dsimp only
  generalize ((loop.lastRegisterSent.map fun sent => ((now - sent : Nat) : Int)).getD 0) = latency
  split
  · exact ⟨loop.oldLatency, loop.emaLatency, rfl, Or.inl rfl, id⟩
  · rename_i hKept
    have hSmoothed : 0 ≤ loop.emaLatency ∧ loop.emaLatency ≤ 1000000 →
        0 ≤ (if loop.emaLatency = 0 then latency else latency.tdiv 30 + (loop.emaLatency * 29).tdiv 30) ∧
          (if loop.emaLatency = 0 then latency
            else latency.tdiv 30 + (loop.emaLatency * 29).tdiv 30) ≤ 1000000 := by
      rintro ⟨hLow, hHigh⟩
      split
      · omega
      · rw [Int.tdiv_eq_ediv_of_nonneg (by omega), Int.tdiv_eq_ediv_of_nonneg (by omega)]
        omega
    generalize (if loop.emaLatency = 0 then latency
      else latency.tdiv 30 + (loop.emaLatency * 29).tdiv 30) = smoothed at hSmoothed ⊢
    generalize (if smoothed.tdiv 5 < 3000 then 3000 else smoothed.tdiv 5) = n
    split
    · exact ⟨smoothed, smoothed, rfl, Or.inr rfl, hSmoothed⟩
    · exact ⟨loop.oldLatency, smoothed, rfl, Or.inl rfl, hSmoothed⟩

end Registration

namespace UdpMediator

/-- The last moment the server is known to have been there. -/
def heard (mediator : UdpMediator) : Nat := mediator.loop.lastRegisterResp.getD mediator.started

/-- How long after that a registration is sent at the latest that comes after so many failed
ones, with a timer that is served at least every `gap`. -/
def latestSent (gap : Nat) : Nat → Nat
  | 0 => 15000000 + gap
  | fails + 1 => latestSent gap fails + 3000000 * (fails + 1) + gap

theorem latestSent_mono (gap : Nat) {fewer more : Nat} (hLe : fewer ≤ more) :
    latestSent gap fewer ≤ latestSent gap more := by
  induction hLe with
  | refl => exact Nat.le_refl _
  | step _ ih =>
      rw [latestSent]
      omega

/-- The loop has sent its last registration in time, and waits for the answer no longer than
it should. -/
structure Prompt (gap : Nat) (mediator : UdpMediator) : Prop where
  timeout_ge : minRegTimeout ≤ mediator.loop.regTimeout
  timeout_le : mediator.loop.regTimeout ≤ minRegTimeout * (mediator.loop.fails + 1)
  idle : mediator.loop.lastRegisterSent = none →
    mediator.loop.fails = 0 ∧ mediator.served < mediator.heard + regInterval * 1000
  waiting : ∀ sent, mediator.loop.lastRegisterSent = some sent →
    sent ≤ mediator.heard + latestSent gap mediator.loop.fails ∧
      mediator.served < sent + mediator.loop.regTimeout * 1000

variable {gap now : Nat} {mediator : UdpMediator}

theorem prompt_start (gap now : Nat) (host : String) :
    Prompt gap ⟨host, now, now, { lastDnsCheck := now }⟩ where
  timeout_ge := Nat.le_refl _
  timeout_le := Nat.le_refl _
  idle _ := ⟨rfl, Nat.lt_add_of_pos_right (by decide)⟩
  waiting := nofun

theorem Prompt.tick (hPrompt : mediator.Prompt gap) (hServed : now ≤ mediator.served + gap)
    (usingPublicServer : Bool) :
    Prompt gap { mediator with served := now, loop := (mediator.loop.tick now usingPublicServer).1 } := by
  obtain ⟨hGe, hLe, hIdle, hWaiting⟩ := hPrompt
  rcases Registration.tick_cases now usingPublicServer mediator.loop hGe with
    ⟨hTick, hEarly, hFresh⟩ | ⟨hNone, -, hTick⟩ | ⟨sent, timeout, hSent, hLate, hMore, hMost, hTick⟩
  · rw [hTick]
    refine ⟨hGe, hLe, fun hNone => ⟨(hIdle hNone).1, ?_⟩, fun sent hSent =>
      ⟨(hWaiting sent hSent).1, hEarly sent hSent⟩⟩
    obtain ⟨resp, hResp, hLess⟩ := hFresh hNone
    simpa [heard, hResp] using hLess
  · rw [hTick]
    obtain ⟨hFails, hBefore⟩ := hIdle hNone
    refine ⟨hGe, hLe, nofun, ?_⟩
    rintro _ ⟨⟩
    refine ⟨?_, Nat.lt_add_of_pos_right ?_⟩
    · change now ≤ mediator.heard + latestSent gap mediator.loop.fails
      rw [hFails, latestSent]
      unfold regInterval at hBefore
      omega
    · unfold minRegTimeout at hGe
      dsimp only
      omega
  · obtain ⟨dnsCheck, old, hFailed, -⟩ :=
      Registration.failed_spec now { mediator.loop with regTimeout := timeout }
    rw [hTick, hFailed]
    obtain ⟨hInTime, hBefore⟩ := hWaiting sent hSent
    refine ⟨Nat.le_trans hGe hMore, ?_, nofun, ?_⟩
    · change timeout ≤ minRegTimeout * (mediator.loop.fails + 1 + 1)
      unfold minRegTimeout at hLe hMost ⊢
      omega
    · rintro _ ⟨⟩
      refine ⟨?_, Nat.lt_add_of_pos_right ?_⟩
      · change now ≤ mediator.heard + latestSent gap (mediator.loop.fails + 1)
        rw [latestSent]
        unfold minRegTimeout at hLe
        omega
      · change 0 < timeout * 1000
        unfold minRegTimeout at hGe
        omega

theorem prompt_response (gap : Nat) (hServed : mediator.served ≤ now) :
    Prompt gap { mediator with loop := (mediator.loop.updateLatency now).1 } := by
  obtain ⟨old, ema, hNext, -⟩ := Registration.updateLatency_spec now mediator.loop
  rw [hNext]
  refine ⟨Nat.le_refl _, Nat.le_refl _, fun _ => ⟨rfl, ?_⟩, nofun⟩
  change mediator.served < now + regInterval * 1000
  unfold regInterval
  omega

/-- A server that was silent for so long has failed to answer so many registrations. -/
theorem Prompt.fails_of_silent (hPrompt : mediator.Prompt gap) (hServed : now ≤ mediator.served + gap)
    {fails : Nat} (hSilent : mediator.heard + latestSent gap fails ≤ now) :
    fails ≤ mediator.loop.fails := by
  cases hSent : mediator.loop.lastRegisterSent with
  | none =>
      have hBefore := (hPrompt.idle hSent).2
      have hLeast := latestSent_mono gap (Nat.zero_le fails)
      rw [latestSent] at hLeast
      unfold regInterval at hBefore
      omega
  | some sent =>
      obtain ⟨hInTime, hBefore⟩ := hPrompt.waiting sent hSent
      have hTimeout := hPrompt.timeout_le
      by_contra hFewer
      have hMore := latestSent_mono gap (Nat.lt_of_not_le hFewer)
      rw [latestSent] at hMore
      unfold minRegTimeout at hTimeout
      omega

end UdpMediator

section Mediators
variable {mediators : List UdpMediator} {i : Nat} {mediator turned : UdpMediator}

theorem exists_mem_set {P : UdpMediator → Prop} (hAt : mediators[i]? = some mediator)
    (hKept : P mediator → P turned) (hSome : ∃ found ∈ mediators, P found) :
    ∃ found ∈ mediators.set i turned, P found := by
  obtain ⟨found, hFound, hP⟩ := hSome
  obtain ⟨k, hLess, rfl⟩ := List.getElem_of_mem hFound
  obtain ⟨hLength, rfl⟩ := List.getElem?_eq_some_iff.mp hAt
  by_cases hSame : i = k
  · subst hSame
    exact ⟨turned, List.mem_set hLength turned, hKept hP⟩
  · refine ⟨mediators[k], List.mem_iff_getElem?.mpr ⟨k, ?_⟩, hP⟩
    rw [List.getElem?_set_ne hSame]
    exact List.getElem?_eq_getElem hLess

theorem forall_of_forall_mem_set {P : UdpMediator → Prop} (hAt : mediators[i]? = some mediator)
    (hKept : P turned → P mediator) (hAll : ∀ found ∈ mediators.set i turned, P found) :
    ∀ found ∈ mediators, P found := by
  by_contra hNot
  push Not at hNot
  obtain ⟨found, hFound, hFalse⟩ := exists_mem_set (P := fun found => ¬ P found) hAt (mt hKept) hNot
  exact hFalse (hAll found hFound)

end Mediators

namespace UdpMediators

variable {s : UdpMediators} {event : UdpEvent} {gap : Nat}

/-- What is shown of the servers: a latency while one of two registrations is answered, and
that a server is down once four were not. -/
structure Shown (config : Config) (mediators : List UdpMediator) : Prop where
  up : ∀ host latency, config.online.lookup host = some latency → 0 < latency →
    ∃ mediator ∈ mediators, mediator.host = host ∧ mediator.loop.fails < 2 ∧
      mediator.loop.lastRegisterResp.isSome
  down : ∀ host latency, config.online.lookup host = some latency →
    (∀ mediator ∈ mediators, mediator.host = host → 4 ≤ mediator.loop.fails) → latency = -1
  known : ∀ mediator ∈ mediators, 4 ≤ mediator.loop.fails →
    (config.online.lookup mediator.host).isSome

variable {config : Config} {mediators : List UdpMediator} {i : Nat} {mediator turned : UdpMediator}

/-- A turn of a loop that tells nothing. -/
theorem Shown.silent (hShown : Shown config mediators) (hAt : mediators[i]? = some mediator)
    (hHost : turned.host = mediator.host)
    (hUp : mediator.loop.fails < 2 → mediator.loop.lastRegisterResp.isSome →
      turned.loop.fails < 2 ∧ turned.loop.lastRegisterResp.isSome)
    (hDown : 4 ≤ turned.loop.fails → 4 ≤ mediator.loop.fails) :
    Shown config (mediators.set i turned) where
  up host latency hEntry hPos := by
    refine exists_mem_set hAt ?_ (hShown.up host latency hEntry hPos)
    rintro ⟨hSame, hFails, hResp⟩
    exact ⟨hHost.trans hSame, hUp hFails hResp⟩
  down host latency hEntry hAll := by
    refine hShown.down host latency hEntry (forall_of_forall_mem_set hAt ?_ hAll)
    exact fun hTurned hSame => hDown (hTurned (hHost.trans hSame))
  known found hFound hFails := by
    rcases List.mem_or_eq_of_mem_set hFound with hOther | rfl
    · exact hShown.known found hOther hFails
    · rw [hHost]
      exact hShown.known mediator (List.mem_of_getElem? hAt) (hDown hFails)

/-- A turn of a loop that tells a latency. -/
theorem Shown.told (hShown : Shown config mediators) (hAt : mediators[i]? = some mediator)
    (hHost : turned.host = mediator.host) {told : Int}
    (hUp : 0 < told → turned.loop.fails < 2 ∧ turned.loop.lastRegisterResp.isSome)
    (hDown : 4 ≤ turned.loop.fails → told = -1) :
    Shown (config.updateLatency mediator.host told) (mediators.set i turned) := by
  have hTurned : turned ∈ mediators.set i turned :=
    List.mem_set (List.getElem?_eq_some_iff.mp hAt).1 turned
  have hLookup : ∀ host, (config.updateLatency mediator.host told).online.lookup host =
      if host = mediator.host then some told else config.online.lookup host :=
    fun host => Table.lookup_insert config.online mediator.host told host
  refine ⟨fun host latency hEntry hPos => ?_, fun host latency hEntry hAll => ?_,
    fun found hFound hFails => ?_⟩
  · rw [hLookup] at hEntry
    split at hEntry
    · rename_i hHere
      cases hEntry
      exact ⟨turned, hTurned, hHost.trans hHere.symm, hUp hPos⟩
    · rename_i hElsewhere
      refine exists_mem_set hAt ?_ (hShown.up host latency hEntry hPos)
      exact fun hSame => absurd hSame.1.symm hElsewhere
  · rw [hLookup] at hEntry
    split at hEntry
    · rename_i hHere
      cases hEntry
      exact hDown (hAll turned hTurned (hHost.trans hHere.symm))
    · rename_i hElsewhere
      refine hShown.down host latency hEntry (forall_of_forall_mem_set hAt ?_ hAll)
      exact fun _ hSame => absurd hSame.symm hElsewhere
  · rw [hLookup]
    split
    · rfl
    · rename_i hElsewhere
      rcases List.mem_or_eq_of_mem_set hFound with hOther | rfl
      · exact hShown.known found hOther hFails
      · exact absurd hHost hElsewhere

theorem Shown.start (hShown : Shown config mediators) (now : Nat) (host : String) :
    Shown config (mediators ++ [⟨host, now, now, { lastDnsCheck := now }⟩]) where
  up host latency hEntry hPos := by
    obtain ⟨mediator, hMediator, hUp⟩ := hShown.up host latency hEntry hPos
    exact ⟨mediator, List.mem_append_left _ hMediator, hUp⟩
  down host latency hEntry hAll :=
    hShown.down host latency hEntry fun mediator hMediator =>
      hAll mediator (List.mem_append_left _ hMediator)
  known mediator hMediator hFails := by
    rcases List.mem_append.mp hMediator with hOld | hNew
    · exact hShown.known mediator hOld hFails
    · cases List.mem_singleton.mp hNew
      cases hFails

theorem Shown.tick (hShown : Shown config mediators) (hAt : mediators[i]? = some mediator)
    (hPrompt : mediator.Prompt gap) (now : Nat) (usingPublicServer : Bool) :
    Shown ((mediator.loop.tick now usingPublicServer).2.foldl (perform mediator.host) config)
      (mediators.set i
        { mediator with served := now, loop := (mediator.loop.tick now usingPublicServer).1 }) := by
  rcases Registration.tick_cases now usingPublicServer mediator.loop hPrompt.timeout_ge with
    ⟨hTick, -⟩ | ⟨-, -, hTick⟩ | ⟨sent, timeout, -, -, -, -, hTick⟩
  · rw [hTick]
    exact hShown.silent hAt rfl And.intro id
  · rw [hTick]
    exact hShown.silent hAt rfl And.intro id
  · obtain ⟨dnsCheck, old, hFailed, hTold⟩ :=
      Registration.failed_spec now { mediator.loop with regTimeout := timeout }
    rw [hTick, hFailed, List.foldl_append, hTold]
    dsimp only [List.foldl_cons, List.foldl_nil, perform]
    split
    · refine hShown.told hAt ?_ (fun hPos => ?_) fun _ => rfl
      · rfl
      · omega
    · rename_i hFew
      split
      · refine hShown.told hAt ?_ (fun hPos => ?_) fun hMany => absurd hMany hFew
        · rfl
        · omega
      · rename_i hFirst
        refine hShown.silent hAt ?_ (fun _ hResp => ⟨?_, hResp⟩) fun hMany => absurd hMany hFew
        · rfl
        · change mediator.loop.fails + 1 < 2
          omega

theorem Shown.response (hShown : Shown config mediators) (hAt : mediators[i]? = some mediator)
    (now : Nat) :
    Shown ((mediator.loop.updateLatency now).2.foldl (perform mediator.host) config)
      (mediators.set i { mediator with loop := (mediator.loop.updateLatency now).1 }) := by
  obtain ⟨old, ema, hNext, hTold, -⟩ := Registration.updateLatency_spec now mediator.loop
  rcases hTold with hTold | hTold
  · rw [hNext, hTold]
    refine hShown.silent hAt ?_ (fun _ _ => ⟨Nat.zero_lt_two, rfl⟩) fun hMany => by cases hMany
    rfl
  · rw [hNext, hTold]
    refine hShown.told hAt ?_ (fun _ => ⟨Nat.zero_lt_two, rfl⟩) fun hMany => by cases hMany
    rfl

/-- The event comes after the ones before, and every timer was served in time. -/
structure Timely (gap : Nat) (s : UdpMediators) (event : UdpEvent) : Prop where
  later : s.now ≤ event.now
  served : ∀ mediator ∈ s.mediators, event.now ≤ mediator.served + gap

/-- What holds of the mediators of a run of these events. -/
structure Following (gap : Nat) (events : List UdpEvent) (s : UdpMediators) : Prop where
  prompt : ∀ mediator ∈ s.mediators, mediator.Prompt gap ∧ mediator.served ≤ s.now
  shown : Shown s.config s.mediators
  started : ∀ mediator ∈ s.mediators, .start mediator.started mediator.host ∈ events
  heard : ∀ mediator ∈ s.mediators, ∀ resp, mediator.loop.lastRegisterResp = some resp →
    ∃ i, .response i resp ∈ events

theorem Following.mono {events more : List UdpEvent} (hFollowing : Following gap events s)
    (hMore : events ⊆ more) {mediator : UdpMediator} (hMediator : mediator ∈ s.mediators) :
    .start mediator.started mediator.host ∈ more ∧
      ∀ resp, mediator.loop.lastRegisterResp = some resp → ∃ i, .response i resp ∈ more :=
  ⟨hMore (hFollowing.started mediator hMediator), fun resp hResp =>
    (hFollowing.heard mediator hMediator resp hResp).imp fun _ hMem => hMore hMem⟩

theorem following_initial (gap now : Nat) (config : Config) :
    Following gap [] (initial now config) where
  prompt := nofun
  shown := ⟨nofun, nofun, nofun⟩
  started := nofun
  heard := nofun

theorem Following.step {past : List UdpEvent} (hFollowing : Following gap past s)
    (hTimely : s.Timely gap event) : Following gap (past ++ [event]) (s.step event) := by
  have hLast : event ∈ past ++ [event] := List.mem_append_right _ List.mem_cons_self
  have hPast : past ⊆ past ++ [event] := List.subset_append_left _ _
  have hStay : ∀ mediator ∈ s.mediators, mediator.Prompt gap ∧ mediator.served ≤ event.now :=
    fun mediator hMediator => ⟨(hFollowing.prompt mediator hMediator).1,
      Nat.le_trans (hFollowing.prompt mediator hMediator).2 hTimely.later⟩
  cases event with
  | start now host =>
      refine ⟨fun mediator hMediator => ?_, hFollowing.shown.start now host, fun mediator hMediator => ?_,
        fun mediator hMediator => ?_⟩
      all_goals rcases List.mem_append.mp hMediator with hOld | hNew
      · exact hStay mediator hOld
      · cases List.mem_singleton.mp hNew
        exact ⟨UdpMediator.prompt_start gap now host, Nat.le_refl _⟩
      · exact (hFollowing.mono hPast hOld).1
      · cases List.mem_singleton.mp hNew
        exact hLast
      · exact (hFollowing.mono hPast hOld).2
      · cases List.mem_singleton.mp hNew
        exact nofun
  | tick i now usingPublicServer =>
      unfold UdpMediators.step
      dsimp only
      split
      · rename_i mediator hAt
        have hMember : mediator ∈ s.mediators := List.mem_of_getElem? hAt
        refine ⟨fun found hFound => ?_, ?_, fun found hFound => ?_, fun found hFound => ?_⟩
        · rcases List.mem_or_eq_of_mem_set hFound with hOther | rfl
          · exact hStay found hOther
          · exact ⟨(hStay mediator hMember).1.tick (hTimely.served mediator hMember) usingPublicServer,
              Nat.le_refl _⟩
        · exact hFollowing.shown.tick hAt (hStay mediator hMember).1 now usingPublicServer
        · rcases List.mem_or_eq_of_mem_set hFound with hOther | rfl
          · exact (hFollowing.mono hPast hOther).1
          · exact (hFollowing.mono hPast hMember).1
        · rcases List.mem_or_eq_of_mem_set hFound with hOther | rfl
          · exact (hFollowing.mono hPast hOther).2
          · dsimp only
            rw [Registration.tick_lastRegisterResp _ _ _ (hStay mediator hMember).1.timeout_ge]
            exact (hFollowing.mono hPast hMember).2
      · exact ⟨hStay, hFollowing.shown, fun found hFound => (hFollowing.mono hPast hFound).1,
          fun found hFound => (hFollowing.mono hPast hFound).2⟩
  | response i now =>
      unfold UdpMediators.step
      dsimp only
      split
      · rename_i mediator hAt
        have hMember : mediator ∈ s.mediators := List.mem_of_getElem? hAt
        refine ⟨fun found hFound => ?_, ?_, fun found hFound => ?_, fun found hFound => ?_⟩
        · rcases List.mem_or_eq_of_mem_set hFound with hOther | rfl
          · exact hStay found hOther
          · exact ⟨UdpMediator.prompt_response gap (hStay mediator hMember).2, (hStay mediator hMember).2⟩
        · exact hFollowing.shown.response hAt now
        · rcases List.mem_or_eq_of_mem_set hFound with hOther | rfl
          · exact (hFollowing.mono hPast hOther).1
          · exact (hFollowing.mono hPast hMember).1
        · rcases List.mem_or_eq_of_mem_set hFound with hOther | rfl
          · exact (hFollowing.mono hPast hOther).2
          · obtain ⟨old, ema, hNext, -⟩ := Registration.updateLatency_spec now mediator.loop
            dsimp only
            rw [hNext]
            rintro resp ⟨⟩
            exact ⟨i, hLast⟩
      · exact ⟨hStay, hFollowing.shown, fun found hFound => (hFollowing.mono hPast hFound).1,
          fun found hFound => (hFollowing.mono hPast hFound).2⟩

theorem getOnlineState_cases (config : Config) :
    (config.online.entries = [] ∧ config.getOnlineState = 0) ∨
      ∃ host, config.online.lookup host = some config.getOnlineState := by
  unfold Config.getOnlineState
  cases hMax : (config.online.entries.map Prod.snd).max? with
  | none => exact Or.inl ⟨List.map_eq_nil_iff.mp (List.max?_eq_none_iff.mp hMax), rfl⟩
  | some best =>
      obtain ⟨⟨host, _⟩, hMem, rfl⟩ := List.mem_map.mp (List.max?_eq_some_iff.mp hMax).1
      exact Or.inr ⟨host, Table.lookup_eq_some_iff.mpr hMem⟩

/-- With timers that are served at least every `gap`, the process counts as online only while
a response of some server is less than 24 seconds and three gaps old. It counts as offline
when there was none for 45 seconds and five gaps, and no mediator was started since. -/
theorem online_state_follows (gap origin : Nat) (config : Config) (events : List UdpEvent)
    (hTimely : Trace.Always step (Timely gap) (initial origin config) events) (now : Nat)
    (hServed : ∀ mediator ∈ (Trace.run step (initial origin config) events).mediators,
      now ≤ mediator.served + gap) :
    let after := Trace.run step (initial origin config) events
    (0 < after.config.getOnlineState →
        ∃ i resp, .response i resp ∈ events ∧ now < resp + 24000000 + 3 * gap) ∧
      (after.mediators ≠ [] →
        (∀ started host, .start started host ∈ events → started + 45000000 + 5 * gap ≤ now) →
        (∀ i resp, .response i resp ∈ events → resp + 45000000 + 5 * gap ≤ now) →
          after.config.getOnlineState = -1) := by
  intro after
  have hFollowing : Following gap events after :=
    Trace.invariant_of_past step (Following gap) (following_initial gap origin config)
      (fun _ _ hNow hInv => hInv.step hNow) hTimely
  constructor
  · intro hOnline
    rcases getOnlineState_cases after.config with ⟨-, hNone⟩ | ⟨host, hEntry⟩
    · rw [hNone] at hOnline
      exact absurd hOnline (Int.lt_irrefl 0)
    · obtain ⟨mediator, hMediator, -, hFails, hResp⟩ := hFollowing.shown.up host _ hEntry hOnline
      obtain ⟨resp, hResp⟩ := Option.isSome_iff_exists.mp hResp
      obtain ⟨i, hEvent⟩ := hFollowing.heard mediator hMediator resp hResp
      refine ⟨i, resp, hEvent, ?_⟩
      by_contra hOld
      have hTwo : 2 ≤ mediator.loop.fails := by
        refine (hFollowing.prompt mediator hMediator).1.fails_of_silent (hServed mediator hMediator) ?_
        simp only [UdpMediator.heard, hResp, Option.getD_some, UdpMediator.latestSent]
        omega
      exact absurd hFails (Nat.not_lt.mpr hTwo)
  · intro hSome hStarted hSilent
    have hDown : ∀ mediator ∈ after.mediators, 4 ≤ mediator.loop.fails := by
      intro mediator hMediator
      have hHeard : mediator.heard + 45000000 + 5 * gap ≤ now := by
        unfold UdpMediator.heard
        cases hResp : mediator.loop.lastRegisterResp with
        | none => exact hStarted _ _ (hFollowing.started mediator hMediator)
        | some resp =>
            obtain ⟨i, hEvent⟩ := hFollowing.heard mediator hMediator resp hResp
            exact hSilent i resp hEvent
      refine (hFollowing.prompt mediator hMediator).1.fails_of_silent (hServed mediator hMediator) ?_
      simp only [UdpMediator.latestSent]
      omega
    have hAll : ∀ host latency, after.config.online.lookup host = some latency → latency = -1 :=
      fun host latency hEntry =>
        hFollowing.shown.down host latency hEntry fun mediator hMediator _ => hDown mediator hMediator
    obtain ⟨mediator, hMediator⟩ := List.exists_mem_of_ne_nil _ hSome
    have hKnown := hFollowing.shown.known mediator hMediator (hDown mediator hMediator)
    obtain ⟨latency, hEntry⟩ := Option.isSome_iff_exists.mp hKnown
    rcases getOnlineState_cases after.config with ⟨hNone, -⟩ | ⟨host, hBest⟩
    · have hMem := Table.lookup_eq_some_iff.mp hEntry
      rw [hNone] at hMem
      cases hMem
    · exact hAll host _ hBest

/-- A server that answers after 50 milliseconds. -/
theorem online_state_follows_answer :
    let events : List UdpEvent := [.start 0 "a.b:1", .tick 0 0 true, .response 0 50000]
    let after := Trace.run step (initial 0 ⟨Table.empty, ""⟩) events
    (0 < after.config.getOnlineState →
        ∃ i resp, .response i resp ∈ events ∧ 900000 < resp + 24000000 + 3 * 1000000) ∧
      (after.mediators ≠ [] →
        (∀ started host, .start started host ∈ events → started + 45000000 + 5 * 1000000 ≤ 900000) →
        (∀ i resp, .response i resp ∈ events → resp + 45000000 + 5 * 1000000 ≤ 900000) →
          after.config.getOnlineState = -1) :=
  online_state_follows 1000000 0 ⟨Table.empty, ""⟩ [.start 0 "a.b:1", .tick 0 0 true, .response 0 50000]
    ⟨⟨by decide, by decide⟩, ⟨by decide, by decide⟩, ⟨by decide, by decide⟩, trivial⟩ 900000 (by decide)

end UdpMediators

end HibtDesk.Rendezvous
