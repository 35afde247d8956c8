import Mathlib.Algebra.Order.Ring.Int
import HibtDesk.Library.Trace
import HibtDesk.Video.VideoQos

/-! The rates that users and delays lead to. All rates stay between the bounds however the
network behaves; what may overflow is the sum of the last delays of a user, which are kept
as they are measured. -/
namespace HibtDesk.Video

/-- What happens to the rates, as far as it depends on the users and the displays. -/
inductive QosOp where
  | onConnectionOpen (id : Int)
  | onConnectionClose (id : Int)
  | userCustomFps (id : Int) (fps : UInt32)
  | userAutoAdjustFps (id : Int) (fps : UInt32)
  | userImageQuality (id : Int) (imageQuality : Int)
  | userNetworkDelay (id : Int) (delay : UInt32)
  | userDelayResponseElapsed (id : Int) (elapsed : Nat)
  | newDisplay (name : String)
  | removeDisplay (name : String)
  | setSupportChangingQuality (name : String) (support : Bool)
  | storeBitrate (bitrate : UInt32)
  | updateDisplayData (name : String) (sendCounter : UInt64)
  deriving DecidableEq

/-- The operations after which the rate follows the users. -/
def QosOp.adjusts : QosOp → Bool
  | userNetworkDelay .. | updateDisplayData .. => true
  | _ => false

namespace VideoQoS

/-- The rates after an operation, unless it overflows. -/
def apply (out : Outside) (qos : VideoQoS) : QosOp → Option VideoQoS
  | .onConnectionOpen id => some (qos.onConnectionOpen out id)
  | .onConnectionClose id => some (qos.onConnectionClose id)
  | .userCustomFps id fps => some (qos.userCustomFps id fps.toNat)
  | .userAutoAdjustFps id fps => some (qos.userAutoAdjustFps id fps.toNat)
  | .userImageQuality id imageQuality => some (qos.userImageQuality out id imageQuality)
  | .userNetworkDelay id delay => qos.userNetworkDelay out id delay.toNat
  | .userDelayResponseElapsed id elapsed => some (qos.userDelayResponseElapsed out id elapsed)
  | .newDisplay name => some (qos.newDisplay name)
  | .removeDisplay name => some (qos.removeDisplay name)
  | .setSupportChangingQuality name support => some (qos.setSupportChangingQuality name support)
  | .storeBitrate bitrate => some (qos.storeBitrate bitrate.toNat)
  | .updateDisplayData name sendCounter => qos.updateDisplayData out name sendCounter.toNat

/-- A run goes on until something overflows. -/
def step (state : Option VideoQoS) (call : Outside × QosOp) : Option VideoQoS :=
  state.bind fun qos => qos.apply call.1 call.2

end VideoQoS

section Sums

theorem foldlM_addU32 (terms : List Nat) {sum : Nat} (hSum : sum < 2 ^ 32) :
    terms.foldlM addU32 sum = if sum + terms.sum < 2 ^ 32 then some (sum + terms.sum) else none := by
  induction terms generalizing sum with
  | nil => simpa using hSum
  | cons term terms ih =>
      have hTerm : addU32 sum term = if sum + term < 2 ^ 32 then some (sum + term) else none := rfl
      rw [List.foldlM_cons, List.sum_cons, hTerm]
      by_cases hNext : sum + term < 2 ^ 32
      · rw [if_pos hNext, Option.bind_eq_bind, Option.bind_some, ih hNext, Nat.add_assoc]
      · rw [if_neg hNext, if_neg (by omega)]
        rfl

theorem avgDelay_isSome_iff (user : UserDelay) :
    user.avgDelay.isSome = true ↔ user.delayHistory.sum < 2 ^ 32 := by
  unfold UserDelay.avgDelay
  dsimp only
  split_ifs with hLen
  · rw [foldlM_addU32 _ (by decide), Nat.zero_add, Option.isSome_map]
    split_ifs with hSum
    · simpa using hSum
    · simpa using hSum
  · have hNil : user.delayHistory = [] := List.eq_nil_of_length_eq_zero (by omega)
    rw [hNil]
    simp

theorem mapM_isSome_iff {α β : Type} (f : α → Option β) (l : List α) :
    (l.mapM f).isSome = true ↔ ∀ a ∈ l, (f a).isSome = true := by
  induction l with
  | nil => simp
  | cons a l ih =>
      rw [List.mapM_cons, List.forall_mem_cons, ← ih]
      cases f a with
      | none => simp
      | some b => cases l.mapM f <;> simp

theorem length_of_mapM {α β : Type} {f : α → Option β} {l : List α} {results : List β}
    (hResults : l.mapM f = some results) : results.length = l.length := by
  induction l generalizing results with
  | nil =>
      obtain rfl : [] = results := by simpa using hResults
      rfl
  | cons a l ih =>
      rw [List.mapM_cons] at hResults
      obtain ⟨b, -, hRest⟩ := Option.bind_eq_some_iff.mp hResults
      obtain ⟨rest, hMap, hCons⟩ := Option.bind_eq_some_iff.mp hRest
      obtain rfl : b :: rest = results := by simpa using hCons
      rw [List.length_cons, List.length_cons, ih hMap]

theorem clamp_bounds {low high : Nat} (hRange : low ≤ high) (value : Nat) :
    low ≤ clamp low high value ∧ clamp low high value ≤ high := by
  unfold clamp
  omega

end Sums

/-- Within the range of the rates. -/
def RateInRange (fps : Nat) : Prop := minFps ≤ fps ∧ fps ≤ maxFps

/-- The rates of a user are in range, and it is counted to three only. -/
structure UserData.Sound (user : UserData) : Prop where
  custom : ∀ fps, user.customFps = some fps → RateInRange fps
  auto : ∀ fps, user.autoAdjustFps = some fps → RateInRange fps
  delay : ∀ fps, user.delay.fps = some fps → RateInRange fps
  quick : user.delay.quickIncreaseFpsCount ≤ 2
  increase : user.delay.increaseFpsCount ≤ 2

namespace VideoQoS

structure Sound (qos : VideoQoS) : Prop where
  fps : RateInRange qos.fps
  users : ∀ id user, qos.users.lookup id = some user → user.Sound

/-- The rate is one that every user has asked for or accepts. -/
def FpsWithin (qos : VideoQoS) : Prop :=
  minFps ≤ qos.fps ∧ ∀ id user, qos.users.lookup id = some user →
    (∀ fps, user.customFps = some fps → qos.fps ≤ fps) ∧
      ∀ fps, user.autoAdjustFps = some fps → qos.fps ≤ fps

section Rates
variable {qos : VideoQoS}

theorem highestFps_inRange (qos : VideoQoS) : RateInRange qos.highestFps :=
  clamp_bounds (by decide) _

theorem userFps_bounds {user : UserData} (hUser : user.Sound) :
    minFps ≤ userFps user ∧ (∀ fps, user.customFps = some fps → userFps user ≤ fps) ∧
      ∀ fps, user.autoAdjustFps = some fps → userFps user ≤ fps := by
  obtain ⟨hCustom, hAuto, -, -, -⟩ := hUser
  unfold userFps
  unfold RateInRange minFps maxFps at *
  unfold fpsDefault
  cases hC : user.customFps with
  | none =>
      cases hA : user.autoAdjustFps with
      | none => simp
      | some auto =>
          have hRange := hAuto auto hA
          simp only [Option.getD_none, Option.some.injEq, forall_eq', reduceCtorEq, false_implies,
            implies_true, true_and]
          split_ifs <;> omega
  | some custom =>
      have hRange := hCustom custom hC
      cases hA : user.autoAdjustFps with
      | none => simp [hRange.1]
      | some auto =>
          have hRange' := hAuto auto hA
          simp only [Option.getD_some, Option.some.injEq, forall_eq']
          split_ifs <;> omega

/-- The highest rate is no more than any user wants. -/
theorem highestFps_le (hSound : qos.Sound) {id : Int} {user : UserData}
    (hUser : qos.users.lookup id = some user) : qos.highestFps ≤ userFps user := by
  have hMin := (userFps_bounds (hSound.users id user hUser)).1
  have hMem : userFps user ∈
      (qos.users.entries.map fun entry => userFps entry.2).filter (minFps ≤ ·) :=
    List.mem_filter.mpr ⟨List.mem_map.mpr ⟨_, Table.lookup_eq_some_iff.mp hUser, rfl⟩, by simpa using hMin⟩
  obtain ⟨lowest, hLowest⟩ := Option.isSome_iff_exists.mp (List.isSome_min?_of_mem hMem)
  have hLe : lowest ≤ userFps user := (List.le_min?_iff hLowest).mp le_rfl _ hMem
  unfold highestFps clamp
  dsimp only
  rw [hLowest, Option.getD_some]
  omega

theorem adjustFps_fps (out : Outside) (qos : VideoQoS) :
    minFps ≤ (qos.adjustFps out).fps ∧ (qos.adjustFps out).fps ≤ qos.highestFps :=
  clamp_bounds (highestFps_inRange qos).1 _

theorem Sound.congr (hSound : qos.Sound) {other : VideoQoS} (hFps : other.fps = qos.fps)
    (hUsers : other.users = qos.users) : other.Sound := by
  refine ⟨?_, ?_⟩
  · rw [hFps]
    exact hSound.fps
  · rw [hUsers]
    exact hSound.users

theorem FpsWithin.congr (hWithin : qos.FpsWithin) {other : VideoQoS} (hFps : other.fps = qos.fps)
    (hUsers : other.users = qos.users) : other.FpsWithin := by
  unfold FpsWithin
  rw [hFps, hUsers]
  exact hWithin

theorem Sound.adjustFps (hSound : qos.Sound) (out : Outside) : (qos.adjustFps out).Sound := by
  have hFps := adjustFps_fps out qos
  exact ⟨⟨hFps.1, hFps.2.trans (highestFps_inRange qos).2⟩, hSound.users⟩

theorem fpsWithin_adjustFps (hSound : qos.Sound) (out : Outside) : (qos.adjustFps out).FpsWithin := by
  have hFps := adjustFps_fps out qos
  refine ⟨hFps.1, fun id user hUser => ?_⟩
  have hHighest := hFps.2.trans (highestFps_le hSound hUser)
  obtain ⟨-, hCustom, hAuto⟩ := userFps_bounds (hSound.users id user hUser)
  exact ⟨fun fps hSome => hHighest.trans (hCustom fps hSome),
    fun fps hSome => hHighest.trans (hAuto fps hSome)⟩

theorem Sound.insert (hSound : qos.Sound) {user : UserData} (hUser : user.Sound) (id : Int) :
    { qos with users := qos.users.insert id user }.Sound := by
  refine ⟨hSound.fps, fun other found hFound => ?_⟩
  change (qos.users.insert id user).lookup other = some found at hFound
  rw [Table.lookup_insert] at hFound
  split_ifs at hFound with hSame
  · obtain rfl := Option.some.inj hFound
    exact hUser
  · exact hSound.users other found hFound

theorem Sound.changeUser (hSound : qos.Sound) (id : Int) {change : UserData → UserData}
    (hChange : ∀ user, user.Sound → (change user).Sound) : (qos.changeUser id change).Sound := by
  unfold VideoQoS.changeUser
  cases hUser : qos.users.lookup id with
  | none => exact hSound
  | some user => exact hSound.insert (hChange user (hSound.users id user hUser)) id

end Rates

section Delays
variable {qos : VideoQoS} {user : UserData}

/-- Steps are small, and they are counted to three only. -/
theorem stepFps_eq (out : Outside) {minFps' fps : Nat} (hMin : minFps' ≤ maxFps) (hFps : fps ≤ maxFps)
    (normalFps oldAvgDelay avgDelay : Nat) {delay : UserDelay}
    (hQuick : delay.quickIncreaseFpsCount ≤ 2) :
    ∃ next quick, delay.stepFps out minFps' normalFps fps oldAvgDelay avgDelay =
      some (next, { delay with quickIncreaseFpsCount := quick }) ∧ quick ≤ 2 ∧
        (avgDelay < delayThreshold150ms → next ≤ maxFps + 5) := by
  unfold maxFps at *
  have hCount : addUsize delay.quickIncreaseFpsCount 1 = some (delay.quickIncreaseFpsCount + 1) :=
    if_pos (by omega)
  have hAdd : ∀ step, step ≤ 5 → addU32 fps step = some (fps + step) := fun step hStep =>
    if_pos (by omega)
  unfold UserDelay.stepFps
  dsimp only
  by_cases hFast : avgDelay < 50
  · rw [if_pos hFast, hCount]
    by_cases hThree : delay.quickIncreaseFpsCount + 1 ≥ 3
    · refine ⟨max minFps' (fps + 5), 0, ?_, by omega, fun _ => by omega⟩
      simp [hThree, hAdd 5 le_rfl]
    · have hStep : (if fps < normalFps then 1 else 0) ≤ 5 := by
        split_ifs
        · omega
        · omega
      refine ⟨max minFps' (fps + if fps < normalFps then 1 else 0), delay.quickIncreaseFpsCount + 1,
        ?_, by omega, fun _ => by omega⟩
      simp [hThree, hAdd _ hStep]
  · rw [if_neg hFast]
    by_cases hGood : avgDelay < 100
    · have hStep : (if avgDelay < oldAvgDelay then if fps < normalFps then 1 else 0 else 0) ≤ 5 := by
        split_ifs
        · omega
        · omega
        · omega
      rw [if_pos hGood, hAdd _ hStep]
      exact ⟨_, _, rfl, hQuick, fun _ => by omega⟩
    · rw [if_neg hGood]
      by_cases hFair : avgDelay < delayThreshold150ms
      · rw [if_pos hFair]
        exact ⟨_, _, rfl, hQuick, fun _ => by omega⟩
      · rw [if_neg hFair]
        exact ⟨_, _, rfl, hQuick, fun hLess => absurd hLess hFair⟩

theorem countStable_eq {avgDelay fps : Nat} (hFps : avgDelay < delayThreshold150ms → fps ≤ maxFps + 5)
    {delay : UserDelay} (hQuick : delay.quickIncreaseFpsCount ≤ 2) (hIncrease : delay.increaseFpsCount ≤ 2) :
    ∃ next quick increase, delay.countStable avgDelay fps =
      some (next, { delay with increaseFpsCount := increase, quickIncreaseFpsCount := quick }) ∧
        quick ≤ 2 ∧ increase ≤ 2 := by
  unfold maxFps at hFps
  have hCount : addUsize delay.increaseFpsCount 1 = some (delay.increaseFpsCount + 1) :=
    if_pos (by omega)
  have hReset : (if avgDelay > 50 then 0 else delay.quickIncreaseFpsCount) ≤ 2 := by
    split_ifs
    · omega
    · exact hQuick
  unfold UserDelay.countStable
  by_cases hGood : avgDelay < delayThreshold150ms
  · have hMore : addU32 fps 1 = some (fps + 1) := by
      have hLow := hFps hGood
      exact if_pos (by omega)
    rw [if_pos hGood, hCount]
    by_cases hThree : delay.increaseFpsCount + 1 ≥ 3
    · refine ⟨fps + 1, _, 0, ?_, hReset, by omega⟩
      simp [hThree, hMore]
    · refine ⟨fps, _, delay.increaseFpsCount + 1, ?_, hReset, by omega⟩
      simp [hThree]
  · rw [if_neg hGood]
    exact ⟨fps, _, 0, rfl, hReset, by omega⟩

/-- The delays of the user can be added up, before there is a new one and after it. -/
def DelayFits (user : UserData) (delay : Nat) : Prop :=
  user.delay.delayHistory.sum < 2 ^ 32 ∧ (user.delay.nextHistory (max delay 10)).sum < 2 ^ 32

theorem reactToDelay_spec (out : Outside) (hSound : qos.Sound) (hUser : user.Sound) (delay : Nat) :
    (DelayFits user delay → ∃ changed, qos.reactToDelay out user delay = some changed ∧
      changed.Sound ∧ changed.delay.delayHistory = user.delay.nextHistory (max delay 10)) ∧
    (¬ DelayFits user delay → qos.reactToDelay out user delay = none) := by
  have hOld := avgDelay_isSome_iff user.delay
  have hNew := avgDelay_isSome_iff (user.delay.addDelay out (max delay 10))
  have hHistory : (user.delay.addDelay out (max delay 10)).delayHistory =
      user.delay.nextHistory (max delay 10) := rfl
  rw [hHistory] at hNew
  unfold DelayFits
  rw [← hOld, ← hNew]
  constructor
  · rintro ⟨hFirst, hSecond⟩
    obtain ⟨oldAvg, hOldAvg⟩ := Option.isSome_iff_exists.mp hFirst
    obtain ⟨avg, hAvg⟩ := Option.isSome_iff_exists.mp hSecond
    unfold reactToDelay
    simp only [hOldAvg, hAvg, Option.bind_eq_bind, Option.bind_some]
    generalize hRates : (if (qos.latestQuality out).ratio ≥ Quality.best.ratio then ((8, 16) : Nat × Nat)
      else if (qos.latestQuality out).ratio ≥ Quality.balanced.ratio then (10, 20) else (12, 24)) = rates
    have hMin : rates.1 ≤ maxFps := by
      rw [← hRates]
      split_ifs
      · decide
      · decide
      · decide
    have hCounts : (user.delay.addDelay out (max delay 10)).quickIncreaseFpsCount ≤ 2 := hUser.quick
    obtain ⟨stepped, quick, hStep, hQuick, hLow⟩ :=
      stepFps_eq out hMin hSound.fps.2 rates.2 oldAvg (max avg 10) hCounts
    have hStable : ({ user.delay.addDelay out (max delay 10) with
        quickIncreaseFpsCount := quick } : UserDelay).increaseFpsCount ≤ 2 := hUser.increase
    obtain ⟨counted, quick', increase, hCount, hQuick', hIncrease⟩ := countStable_eq hLow hQuick hStable
    rw [hStep, Option.bind_some, hCount, Option.bind_some]
    refine ⟨_, rfl, ⟨hUser.custom, hUser.auto, ?_, hQuick', hIncrease⟩, rfl⟩
    intro fps hFps
    obtain rfl := Option.some.inj hFps
    have hClamp := clamp_bounds (highestFps_inRange qos).1 counted
    exact ⟨hClamp.1, hClamp.2.trans (highestFps_inRange qos).2⟩
  · intro hNot
    unfold reactToDelay
    cases hOldAvg : user.delay.avgDelay with
    | none => rfl
    | some oldAvg =>
        cases hAvg : (user.delay.addDelay out (max delay 10)).avgDelay with
        | none => simp [hAvg]
        | some avg => exact absurd ⟨by rw [hOldAvg]; rfl, by rw [hAvg]; rfl⟩ hNot

end Delays

section Ratio
variable {qos : VideoQoS}

/-- Where the ratio is adjusted, the delays of every user can be added up, and so can the
bitrate and what is added to it. -/
def RatioFits (qos : VideoQoS) : Prop :=
  qos.inVbrState = true →
    (∀ id user, qos.users.lookup id = some user → user.delay.delayHistory.sum < 2 ^ 32) ∧
      ((∃ id user, qos.users.lookup id = some user) → qos.bitrateStore + 150 < 2 ^ 32)

theorem inVbrState_iff (qos : VideoQoS) : qos.inVbrState = true ↔
    qos.abrConfig = true ∧ ∀ name display, qos.displays.lookup name = some display →
      display.supportChangingQuality = true := by
  unfold inVbrState
  rw [Bool.and_eq_true, List.all_eq_true]
  simp only [Table.lookup_eq_some_iff, Prod.forall]

theorem adjustRatio_eq (qos : VideoQoS) :
    (qos.RatioFits → qos.adjustRatio = some qos) ∧ (¬ qos.RatioFits → qos.adjustRatio = none) := by
  unfold RatioFits adjustRatio
  cases qos.inVbrState with
  | false => simp
  | true =>
      have hDelays := mapM_isSome_iff (fun entry : Int × UserData => entry.2.delay.avgDelay)
        qos.users.entries
      simp only [avgDelay_isSome_iff, Prod.forall, ← Table.lookup_eq_some_iff] at hDelays
      simp only [if_true, true_implies]
      rw [← hDelays]
      have hAdd : ∀ next : VideoQoS, (do let _ ← addU32 qos.bitrateStore 150; return next) =
          if qos.bitrateStore + 150 < 2 ^ 32 then some next else none := by
        intro next
        unfold addU32 addUnder
        split_ifs
        · rfl
        · rfl
      cases hMap : qos.users.entries.mapM fun entry : Int × UserData => entry.2.delay.avgDelay with
      | none => simp
      | some delays =>
          have hLength := length_of_mapM hMap
          simp only [Option.bind_eq_bind, Option.bind_some, Option.isSome_some, true_and]
          have hUsers : (∃ id user, qos.users.lookup id = some user) ↔ delays ≠ [] := by
            rw [ne_eq, ← List.length_eq_zero_iff, hLength, List.length_eq_zero_iff,
              List.eq_nil_iff_forall_not_mem]
            simp only [Table.lookup_eq_some_iff, Prod.forall, not_forall, not_not]
          rw [hUsers]
          cases hMax : delays.max? with
          | none =>
              rw [List.max?_eq_none_iff] at hMax
              simp [hMax]
          | some longest =>
              have hSome : delays ≠ [] := by
                rintro rfl
                simp at hMax
              simp only [hSome, ne_eq, not_false_eq_true, forall_const]
              by_cases hBitrate : qos.bitrateStore > 0
              · rw [if_pos hBitrate]
                constructor
                · intro hFits
                  exact (hAdd qos).trans (if_pos hFits)
                · intro hNot
                  exact (hAdd qos).trans (if_neg hNot)
              · rw [if_neg hBitrate]
                exact ⟨fun _ => rfl, fun hNot => absurd (by omega) hNot⟩

/-- The frames of the display can be counted up. -/
def CounterFits (qos : VideoQoS) (name : String) (sendCounter : Nat) : Prop :=
  ∀ display, qos.displays.lookup name = some display → display.sendCounter + sendCounter < 2 ^ 64

/-- Only the counters of the displays change. -/
theorem countFrames_spec (qos : VideoQoS) (name : String) (sendCounter : Nat) :
    (qos.CounterFits name sendCounter → ∃ displays, qos.countFrames name sendCounter =
      some { qos with displays := displays } ∧
        ({ qos with displays := displays } : VideoQoS).inVbrState = qos.inVbrState) ∧
    (¬ qos.CounterFits name sendCounter → qos.countFrames name sendCounter = none) := by
  unfold CounterFits countFrames
  cases hDisplay : qos.displays.lookup name with
  | none => exact ⟨fun _ => ⟨qos.displays, rfl, rfl⟩, fun hNot => absurd (by simp) hNot⟩
  | some display =>
      simp only [Option.some.injEq, forall_eq']
      constructor
      · intro hFits
        have hAdd : addUsize display.sendCounter sendCounter =
            some (display.sendCounter + sendCounter) := if_pos hFits
        rw [hAdd]
        refine ⟨_, rfl, ?_⟩
        rw [Bool.eq_iff_iff, inVbrState_iff, inVbrState_iff]
        apply and_congr_right
        rintro -
        dsimp only
        constructor
        · intro hAll other found hFound
          by_cases hSame : other = name
          · obtain rfl : display = found := by
              rw [hSame, hDisplay] at hFound
              exact Option.some.inj hFound
            exact hAll name { display with sendCounter := display.sendCounter + sendCounter }
              (by rw [Table.lookup_insert, if_pos rfl])
          · exact hAll other found (by rw [Table.lookup_insert, if_neg hSame, hFound])
        · intro hAll other found hFound
          rw [Table.lookup_insert] at hFound
          split_ifs at hFound with hSame
          · obtain rfl := Option.some.inj hFound
            exact hAll name display hDisplay
          · exact hAll other found hFound
      · intro hNot
        have hAdd : addUsize display.sendCounter sendCounter = none := if_neg hNot
        rw [hAdd]
        rfl

/-- Setting the counters back leaves what the displays support. -/
theorem inVbrState_map (qos : VideoQoS) :
    ({ qos with displays := qos.displays.map fun _ display => { display with sendCounter := 0 } } :
      VideoQoS).inVbrState = qos.inVbrState := by
  rw [Bool.eq_iff_iff, inVbrState_iff, inVbrState_iff]
  apply and_congr_right
  rintro -
  simp only [Table.lookup_map, Option.map_eq_some_iff]
  constructor
  · intro hAll name display hDisplay
    exact hAll name { display with sendCounter := 0 } ⟨display, hDisplay, rfl⟩
  · rintro hAll name changed ⟨display, hDisplay, rfl⟩
    exact hAll name display hDisplay

/-- Whether the ratio can be adjusted depends on the users, the bitrate and what the
displays support. -/
theorem RatioFits.congr {other : VideoQoS} (hUsers : other.users = qos.users)
    (hBitrate : other.bitrateStore = qos.bitrateStore) (hState : other.inVbrState = qos.inVbrState) :
    other.RatioFits ↔ qos.RatioFits := by
  unfold RatioFits
  rw [hUsers, hBitrate, hState]

end Ratio

section Operations
variable {qos : VideoQoS}

/-- Nothing overflows in this call. -/
def CallFits (qos : VideoQoS) (out : Outside) : QosOp → Prop
  | .userNetworkDelay id delay =>
      ∀ user, qos.users.lookup id = some user →
        DelayFits user delay.toNat ∧ (user.delay.fps = none → out.linux = false → qos.RatioFits)
  | .updateDisplayData name sendCounter =>
      qos.CounterFits name sendCounter.toNat ∧ (out.ratioDue = true → qos.RatioFits)
  | _ => True

theorem ratioFits_insert (out : Outside) {id : Int} {user changed : UserData}
    (hUser : qos.users.lookup id = some user) (hOld : user.delay.delayHistory.sum < 2 ^ 32)
    (hNew : changed.delay.delayHistory.sum < 2 ^ 32) :
    ({ qos with users := qos.users.insert id changed }.adjustFps out).RatioFits ↔ qos.RatioFits := by
  change (qos.inVbrState = true →
    (∀ other found, (qos.users.insert id changed).lookup other = some found →
      found.delay.delayHistory.sum < 2 ^ 32) ∧
    ((∃ other found, (qos.users.insert id changed).lookup other = some found) →
      qos.bitrateStore + 150 < 2 ^ 32)) ↔ qos.RatioFits
  unfold RatioFits
  have hSome : ∃ other found, (qos.users.insert id changed).lookup other = some found :=
    ⟨id, changed, by rw [Table.lookup_insert, if_pos rfl]⟩
  have hSome' : ∃ other found, qos.users.lookup other = some found := ⟨id, user, hUser⟩
  simp only [hSome, hSome', true_implies]
  apply imp_congr_right
  rintro -
  apply and_congr_left
  rintro -
  constructor
  · intro hAll other found hFound
    by_cases hSame : other = id
    · obtain rfl : user = found := by
        rw [hSame, hUser] at hFound
        exact Option.some.inj hFound
      exact hOld
    · exact hAll other found (by rw [Table.lookup_insert, if_neg hSame, hFound])
  · intro hAll other found hFound
    rw [Table.lookup_insert] at hFound
    split_ifs at hFound with hSame
    · obtain rfl := Option.some.inj hFound
      exact hNew
    · exact hAll other found hFound

theorem userNetworkDelay_spec (out : Outside) (hSound : qos.Sound) (id : Int) (delay : UInt32) :
    (qos.CallFits out (.userNetworkDelay id delay) → ∃ next,
      qos.userNetworkDelay out id delay.toNat = some next ∧ next.Sound ∧ next.FpsWithin) ∧
    (¬ qos.CallFits out (.userNetworkDelay id delay) →
      qos.userNetworkDelay out id delay.toNat = none) := by
  unfold userNetworkDelay
  cases hUser : qos.users.lookup id with
  | none =>
      refine ⟨fun _ => ⟨_, rfl, hSound.adjustFps out, fpsWithin_adjustFps hSound out⟩, fun hNot => ?_⟩
      refine absurd (fun user hFound => ?_) hNot
      rw [hUser] at hFound
      cases hFound
  | some user =>
      have hCond : qos.CallFits out (.userNetworkDelay id delay) ↔
          DelayFits user delay.toNat ∧
            (user.delay.fps = none → out.linux = false → qos.RatioFits) := by
        unfold CallFits
        simp [hUser]
      rw [hCond]
      dsimp only
      have hReact := reactToDelay_spec out hSound (hSound.users id user hUser) delay.toNat
      by_cases hDelay : DelayFits user delay.toNat
      · obtain ⟨changed, hChanged, hOk, hHistory⟩ := hReact.1 hDelay
        have hNext := hSound.insert hOk id
        have hRatio := ratioFits_insert out hUser hDelay.1 (by rw [hHistory]; exact hDelay.2)
        have hAdjust := adjustRatio_eq ({ qos with users := qos.users.insert id changed }.adjustFps out)
        rw [hRatio] at hAdjust
        rw [hChanged]
        simp only [hDelay, true_and, Option.bind_eq_bind, Option.bind_some]
        by_cases hFirst : user.delay.fps.isNone = true ∧ (!out.linux) = true
        · obtain ⟨hNone, hNotLinux⟩ := hFirst
          have hFps : user.delay.fps = none := Option.isNone_iff_eq_none.mp hNone
          have hLinux : out.linux = false := by simpa using hNotLinux
          rw [if_pos ⟨hNone, hNotLinux⟩]
          simp only [hFps, hLinux, true_implies]
          constructor
          · intro hFits
            exact ⟨_, hAdjust.1 hFits, hNext.adjustFps out, fpsWithin_adjustFps hNext out⟩
          · exact hAdjust.2
        · rw [if_neg hFirst]
          refine ⟨fun _ => ⟨_, rfl, hNext.adjustFps out, fpsWithin_adjustFps hNext out⟩, fun hNot => ?_⟩
          refine absurd (fun hFps hLinux => absurd ⟨?_, ?_⟩ hFirst) hNot
          · rw [hFps]
            rfl
          · rw [hLinux]
            rfl
      · rw [hReact.2 hDelay]
        simp [hDelay]

theorem updateDisplayData_spec (out : Outside) (hSound : qos.Sound) (name : String)
    (sendCounter : UInt64) :
    (qos.CallFits out (.updateDisplayData name sendCounter) → ∃ next,
      qos.updateDisplayData out name sendCounter.toNat = some next ∧ next.Sound ∧ next.FpsWithin) ∧
    (¬ qos.CallFits out (.updateDisplayData name sendCounter) →
      qos.updateDisplayData out name sendCounter.toNat = none) := by
  unfold CallFits updateDisplayData
  have hCount := countFrames_spec qos name sendCounter.toNat
  by_cases hCounter : qos.CounterFits name sendCounter.toNat
  · obtain ⟨displays, hCounted, hState⟩ := hCount.1 hCounter
    have hNext : ({ qos with displays := displays } : VideoQoS).Sound := hSound.congr rfl rfl
    rw [hCounted]
    simp only [hCounter, true_and, Option.bind_eq_bind, Option.bind_some]
    generalize hMid : ({ qos with displays := displays } : VideoQoS).adjustFps out = mid
    have hMidSound : mid.Sound := hMid ▸ hNext.adjustFps out
    have hMidWithin : mid.FpsWithin := hMid ▸ fpsWithin_adjustFps hNext out
    have hMidState : mid.inVbrState = qos.inVbrState := by
      rw [← hMid, ← hState]
      rfl
    have hRatio : ({ mid with displays := mid.displays.map fun _ display =>
        { display with sendCounter := 0 } } : VideoQoS).RatioFits ↔ qos.RatioFits :=
      RatioFits.congr (by rw [← hMid]; rfl) (by rw [← hMid]; rfl)
        ((inVbrState_map mid).trans hMidState)
    have hAdjust := adjustRatio_eq ({ mid with displays := mid.displays.map fun _ display =>
      { display with sendCounter := 0 } } : VideoQoS)
    rw [hRatio] at hAdjust
    by_cases hDue : mid.inVbrState = true ∧ out.ratioDue = true
    · rw [if_pos hDue]
      simp only [hDue.2, true_implies]
      refine ⟨fun hFits => ⟨_, hAdjust.1 hFits, ?_, ?_⟩, hAdjust.2⟩
      · exact hMidSound.congr rfl rfl
      · exact hMidWithin.congr rfl rfl
    · rw [if_neg hDue]
      refine ⟨fun _ => ⟨_, rfl, hMidSound, hMidWithin⟩, fun hNot => absurd ?_ hNot⟩
      intro hRatioDue hVbr
      exact absurd ⟨hMidState.trans hVbr, hRatioDue⟩ hDue
  · rw [hCount.2 hCounter]
    simp [hCounter]

theorem Sound.new : new.Sound := ⟨⟨by decide, by decide⟩, fun id user hUser => by cases hUser⟩

theorem UserData.Sound.new : UserData.new.Sound where
  custom := by simp [UserData.new]
  auto := by simp [UserData.new]
  delay := by simp [UserData.new, UserDelay.new]
  quick := by decide
  increase := by decide

theorem Sound.onConnectionClose (hSound : qos.Sound) (id : Int) : (qos.onConnectionClose id).Sound := by
  unfold VideoQoS.onConnectionClose
  dsimp only
  split_ifs
  · exact Sound.new
  · refine ⟨hSound.fps, fun other user hUser => ?_⟩
    change (qos.users.remove id).lookup other = some user at hUser
    rw [Table.lookup_remove] at hUser
    split_ifs at hUser
    exact hSound.users other user hUser

/-- A rate that is not in range is not taken over. -/
theorem Sound.userCustomFps (hSound : qos.Sound) (id : Int) (fps : Nat) :
    (qos.userCustomFps id fps).Sound := by
  unfold VideoQoS.userCustomFps
  split_ifs with hRange
  · exact hSound
  · rw [not_or, Nat.not_lt, gt_iff_lt, Nat.not_lt] at hRange
    apply hSound.changeUser
    intro user hUser
    refine { hUser with custom := fun found hFound => ?_ }
    obtain rfl := Option.some.inj hFound
    exact hRange

theorem Sound.userAutoAdjustFps (hSound : qos.Sound) (id : Int) (fps : Nat) :
    (qos.userAutoAdjustFps id fps).Sound := by
  unfold VideoQoS.userAutoAdjustFps
  split_ifs with hRange
  · exact hSound
  · rw [not_or, Nat.not_lt, gt_iff_lt, Nat.not_lt] at hRange
    apply hSound.changeUser
    intro user hUser
    refine { hUser with auto := fun found hFound => ?_ }
    obtain rfl := Option.some.inj hFound
    exact hRange

theorem Sound.userDelayResponseElapsed (hSound : qos.Sound) (out : Outside) (id : Int) (elapsed : Nat) :
    (qos.userDelayResponseElapsed out id elapsed).Sound := by
  unfold VideoQoS.userDelayResponseElapsed
  cases hUser : qos.users.lookup id with
  | none => exact hSound
  | some user =>
      have hOk := hSound.users id user hUser
      dsimp only
      split_ifs
      · apply Sound.adjustFps
        apply hSound.insert
        exact ⟨hOk.custom, hOk.auto, hOk.delay, hOk.quick, hOk.increase⟩
      · apply hSound.insert
        exact ⟨hOk.custom, hOk.auto, hOk.delay, hOk.quick, hOk.increase⟩

/-- A call that overflows nowhere leaves all rates in range, and any other one stops. -/
theorem apply_spec (out : Outside) (hSound : qos.Sound) (op : QosOp) :
    (qos.CallFits out op → ∃ next, qos.apply out op = some next ∧ next.Sound ∧
      (op.adjusts = true → next.FpsWithin)) ∧
    (¬ qos.CallFits out op → qos.apply out op = none) := by
  have hOther : ∀ {next : VideoQoS}, next.Sound → qos.apply out op = some next → op.adjusts = false →
      qos.CallFits out op →
      (qos.CallFits out op → ∃ next, qos.apply out op = some next ∧ next.Sound ∧
        (op.adjusts = true → next.FpsWithin)) ∧
      (¬ qos.CallFits out op → qos.apply out op = none) := by
    intro next hNext hApply hAdjusts hFits
    refine ⟨fun _ => ⟨next, hApply, hNext, fun hTrue => ?_⟩, fun hNot => absurd hFits hNot⟩
    rw [hAdjusts] at hTrue
    cases hTrue
  cases op with
  | userNetworkDelay id delay =>
      have hSpec := userNetworkDelay_spec out hSound id delay
      refine ⟨fun hFits => ?_, hSpec.2⟩
      obtain ⟨next, hNext, hOk, hWithin⟩ := hSpec.1 hFits
      exact ⟨next, hNext, hOk, fun _ => hWithin⟩
  | updateDisplayData name sendCounter =>
      have hSpec := updateDisplayData_spec out hSound name sendCounter
      refine ⟨fun hFits => ?_, hSpec.2⟩
      obtain ⟨next, hNext, hOk, hWithin⟩ := hSpec.1 hFits
      exact ⟨next, hNext, hOk, fun _ => hWithin⟩
  | onConnectionOpen id =>
      have hInsert := hSound.insert UserData.Sound.new id
      have hOpen : (qos.onConnectionOpen out id).Sound := hInsert.congr rfl rfl
      exact hOther hOpen rfl rfl trivial
  | onConnectionClose id => exact hOther (hSound.onConnectionClose id) rfl rfl trivial
  | userCustomFps id fps => exact hOther (hSound.userCustomFps id fps.toNat) rfl rfl trivial
  | userAutoAdjustFps id fps => exact hOther (hSound.userAutoAdjustFps id fps.toNat) rfl rfl trivial
  | userImageQuality id imageQuality =>
      refine hOther (hSound.changeUser id fun user hUser => ?_) rfl rfl trivial
      exact ⟨hUser.custom, hUser.auto, hUser.delay, hUser.quick, hUser.increase⟩
  | userDelayResponseElapsed id elapsed =>
      exact hOther (hSound.userDelayResponseElapsed out id elapsed) rfl rfl trivial
  | newDisplay name =>
      have hNext : (qos.newDisplay name).Sound := hSound.congr rfl rfl
      exact hOther hNext rfl rfl trivial
  | removeDisplay name =>
      have hNext : (qos.removeDisplay name).Sound := hSound.congr rfl rfl
      exact hOther hNext rfl rfl trivial
  | setSupportChangingQuality name support =>
      refine hOther ?_ rfl rfl trivial
      unfold VideoQoS.setSupportChangingQuality
      split
      · exact ⟨hSound.fps, hSound.users⟩
      · exact hSound
  | storeBitrate bitrate =>
      have hNext : (qos.storeBitrate bitrate.toNat).Sound := hSound.congr rfl rfl
      exact hOther hNext rfl rfl trivial

end Operations

section Runs

/-- Nothing overflows in a call that is still reached. -/
def StepFits (state : Option VideoQoS) (call : Outside × QosOp) : Prop :=
  ∀ qos, state = some qos → qos.CallFits call.1 call.2

/-- Nothing has overflowed after any of the calls, every user's own rate is in range, and
where the rate follows the users, each of them accepts it. -/
def RatesHold (calls : List (Outside × QosOp)) : Prop :=
  ∀ past, past <+: calls → ∃ qos, Trace.run step (some new) past = some qos ∧
    (∀ id user, qos.users.lookup id = some user → ∀ fps, user.delay.fps = some fps →
      minFps ≤ fps ∧ fps ≤ maxFps) ∧
    ∀ before call, past = before ++ [call] → call.2.adjusts = true → qos.FpsWithin

theorem step_spec {qos : VideoQoS} (hSound : qos.Sound) (call : Outside × QosOp) :
    (StepFits (some qos) call → ∃ next, step (some qos) call = some next ∧ next.Sound ∧
      (call.2.adjusts = true → next.FpsWithin)) ∧
    (¬ StepFits (some qos) call → step (some qos) call = none) := by
  have hFits : StepFits (some qos) call ↔ qos.CallFits call.1 call.2 := by
    unfold StepFits
    simp
  rw [hFits]
  exact apply_spec call.1 hSound call.2

theorem sound_run {calls : List (Outside × QosOp)} {start : VideoQoS} (hStart : start.Sound)
    (hAlways : Trace.Always step StepFits (some start) calls) :
    ∃ qos, Trace.run step (some start) calls = some qos ∧ qos.Sound := by
  refine Trace.invariant_of_always step (fun state => ∃ qos, state = some qos ∧ qos.Sound) ?_
    ⟨start, rfl, hStart⟩ hAlways
  rintro state call hFits ⟨qos, rfl, hSound⟩
  obtain ⟨next, hNext, hOk, -⟩ := (step_spec hSound call).1 hFits
  exact ⟨next, hNext, hOk⟩

/-- The rates hold in a run exactly if in each call the delays, the counters and the
bitrate can be added up. -/
theorem ratesHold_iff (calls : List (Outside × QosOp)) :
    RatesHold calls ↔ Trace.Always step StepFits (some new) calls := by
  have hGives : ∀ state : Option VideoQoS, (∃ qos, state = some qos ∧ qos.Sound) →
      state.isSome = true := by
    rintro _ ⟨qos, rfl, -⟩
    rfl
  have hKeeps : ∀ (state : Option VideoQoS) call, (∃ qos, state = some qos ∧ qos.Sound) → True →
      StepFits state call → ∃ qos, step state call = some qos ∧ qos.Sound := by
    rintro _ call ⟨qos, rfl, hSound⟩ - hFits
    obtain ⟨next, hNext, hOk, -⟩ := (step_spec hSound call).1 hFits
    exact ⟨next, hNext, hOk⟩
  have hBreaks : ∀ (state : Option VideoQoS) call, (∃ qos, state = some qos ∧ qos.Sound) → True →
      ¬ StepFits state call → ¬ (step state call).isSome = true := by
    rintro _ call ⟨qos, rfl, hSound⟩ - hNot
    rw [(step_spec hSound call).2 hNot]
    exact Bool.false_ne_true
  have hReached := Trace.agrees_iff_always step hGives hKeeps hBreaks ⟨new, rfl, Sound.new⟩
    (Trace.always_of_forall step (fun _ _ => trivial) (some new) calls)
  constructor
  · intro hHold
    apply hReached.mp
    intro past hPast
    obtain ⟨qos, hRun, -⟩ := hHold past hPast
    rw [hRun]
    rfl
  · rintro hAlways past ⟨later, rfl⟩
    have hPast := ((Trace.always_append step _ past later).mp hAlways).1
    obtain ⟨qos, hRun, hSound⟩ := sound_run Sound.new hPast
    refine ⟨qos, hRun, fun id user hUser => (hSound.users id user hUser).delay, ?_⟩
    rintro before call rfl hAdjusts
    obtain ⟨hBefore, hLast, -⟩ := (Trace.always_append step _ before [call]).mp hPast
    obtain ⟨earlier, hEarlier, hEarlierSound⟩ := sound_run Sound.new hBefore
    rw [hEarlier] at hLast
    obtain ⟨next, hNext, -, hWithin⟩ := (step_spec hEarlierSound call).1 hLast
    rw [Trace.run_append, hEarlier, Trace.run_cons, Trace.run_nil, hNext] at hRun
    obtain rfl := Option.some.inj hRun
    exact hWithin hAdjusts

/-- A quiet second on Linux, with the floating point rounded. -/
def quietSecond : Outside where
  devideFps := fun fps avgDelay => (150 * fps + avgDelay - 1) / avgDelay
  smoothed := fun first second => (first + second) / 2
  now := 0
  newUser := false
  ratioDue := false
  tie := 0
  enableAbr := true
  linux := true

/-- The longest delay is measured twice. -/
theorem longest_delays_overflow :
    ¬ RatesHold [(quietSecond, .onConnectionOpen 1), (quietSecond, .userNetworkDelay 1 4294967295),
      (quietSecond, .userNetworkDelay 1 4294967295)] := by
  intro hHold
  obtain ⟨qos, hRun, -⟩ := hHold _ (List.prefix_refl _)
  have hNone : (Trace.run step (some new) [(quietSecond, .onConnectionOpen 1),
      (quietSecond, .userNetworkDelay 1 4294967295),
      (quietSecond, .userNetworkDelay 1 4294967295)]).isNone = true := by
    decide +kernel
  rw [hRun] at hNone
  cases hNone

end Runs

end VideoQoS

end HibtDesk.Video
