import HibtDesk.Library.Table
import Mathlib.Algebra.Order.Ring.Int

/-! How fast the screen is sent. Each user has a rate of its own, which follows the delays
of its network, and the slowest one decides. Sums are checked, as in a build that checks
its arithmetic. -/
namespace HibtDesk.Video

def fpsDefault : Nat := 30
def minFps : Nat := 1
def maxFps : Nat := 120
def initFps : Nat := 15

def historyDelayLen : Nat := 2
def delayThreshold150ms : Nat := 150

/-- A sum of machine integers, unless it overflows. -/
def addUnder (limit a b : Nat) : Option Nat := if a + b < limit then some (a + b) else none

def addU32 : Nat → Nat → Option Nat := addUnder (2 ^ 32)

def addUsize : Nat → Nat → Option Nat := addUnder (2 ^ 64)

/-- `clamp`, of a range that is not empty. -/
def clamp (low high value : Nat) : Nat := max low (min value high)

/-- What the operations get from outside: the floating point, the clock, the settings, and
which of the latest qualities the table of the users shows last. -/
structure Outside where
  /-- The frame rate divided by the delay in units of the threshold, rounded up. -/
  devideFps : Nat → Nat → Nat
  /-- The mean of two round trip times. -/
  smoothed : Nat → Nat → Nat
  now : Int
  /-- The last user has come less than a second ago. -/
  newUser : Bool
  /-- The ratio was adjusted three seconds ago or earlier. -/
  ratioDue : Bool
  tie : Nat
  enableAbr : Bool
  linux : Bool

structure RttCalculator where
  minRtt : Option Nat
  windowMinRtt : Option Nat
  smoothedRtt : Option Nat
  samples : List Nat
  deriving DecidableEq, Repr

namespace RttCalculator

def windowSamples : Nat := 60
def minSamples : Nat := 10

def new : RttCalculator := { minRtt := none, windowMinRtt := none, smoothedRtt := none, samples := [] }

def update (out : Outside) (rtt : RttCalculator) (delay : Nat) : RttCalculator :=
  let minRtt :=
    match rtt.minRtt with
    | some minRtt => if delay < minRtt then some delay else some minRtt
    | none => some delay
  let samples :=
    (if rtt.samples.length ≥ windowSamples then rtt.samples.tail else rtt.samples) ++ [delay]
  let windowMinRtt := samples.min?
  let smoothedRtt :=
    if samples.length ≥ windowSamples then
      match minRtt, windowMinRtt with
      | some min, some windowMin => some (out.smoothed min windowMin)
      | _, _ => rtt.smoothedRtt
    else rtt.smoothedRtt
  { minRtt := minRtt, windowMinRtt := windowMinRtt, smoothedRtt := smoothedRtt, samples := samples }

def getRtt (rtt : RttCalculator) : Option Nat :=
  match rtt.smoothedRtt with
  | some srtt => some srtt
  | none => if rtt.samples.length ≥ minSamples then rtt.minRtt else none

end RttCalculator

structure UserDelay where
  responseDelayed : Bool
  delayHistory : List Nat
  fps : Option Nat
  rttCalculator : RttCalculator
  quickIncreaseFpsCount : Nat
  increaseFpsCount : Nat
  deriving DecidableEq, Repr

namespace UserDelay

def new : UserDelay :=
  { responseDelayed := false, delayHistory := [], fps := none, rttCalculator := .new,
    quickIncreaseFpsCount := 0, increaseFpsCount := 0 }

/-- The delays kept once there is a new one. -/
def nextHistory (user : UserDelay) (delay : Nat) : List Nat :=
  (if user.delayHistory.length > historyDelayLen then user.delayHistory.tail
   else user.delayHistory) ++ [delay]

def addDelay (out : Outside) (user : UserDelay) (delay : Nat) : UserDelay :=
  { user with
    rttCalculator := user.rttCalculator.update out delay
    delayHistory := user.nextHistory delay }

/-- `avg_delay`, unless the sum overflows. -/
def avgDelay (user : UserDelay) : Option Nat :=
  let len := user.delayHistory.length
  if len > 0 then
    (user.delayHistory.foldlM addU32 0).map fun sum =>
      let avgDelay := sum / len
      match user.rttCalculator.getRtt with
      | some rtt => if avgDelay > rtt then avgDelay - rtt else avgDelay
      | none => avgDelay
  else some delayThreshold150ms

/-- The part of `user_network_delay` that takes a step up or down. -/
def stepFps (out : Outside) (minFps normalFps fps oldAvgDelay avgDelay : Nat) (user : UserDelay) :
    Option (Nat × UserDelay) :=
  let dividendMs := delayThreshold150ms * minFps
  if avgDelay < 50 then do
    let count ← addUsize user.quickIncreaseFpsCount 1
    let step := if fps < normalFps then 1 else 0
    let (count, step) := if count ≥ 3 then (0, 5) else (count, step)
    let sum ← addU32 fps step
    return (max minFps sum, { user with quickIncreaseFpsCount := count })
  else if avgDelay < 100 then do
    let step := if avgDelay < oldAvgDelay then if fps < normalFps then 1 else 0 else 0
    let sum ← addU32 fps step
    return (max minFps sum, user)
  else if avgDelay < delayThreshold150ms then some (max minFps fps, user)
  else
    let devideFps := out.devideFps fps avgDelay
    let fps :=
      if avgDelay < 200 then max minFps devideFps
      else if avgDelay < 300 then min minFps devideFps
      else if avgDelay < 600 then dividendMs / avgDelay
      else min (dividendMs / avgDelay) devideFps
    some (fps, user)

/-- The part of it that counts how long the network has been good. -/
def countStable (avgDelay : Nat) (fps : Nat) (user : UserDelay) : Option (Nat × UserDelay) := do
  let count ← if avgDelay < delayThreshold150ms then addUsize user.increaseFpsCount 1 else some 0
  let (fps, count) ← if count ≥ 3 then (addU32 fps 1).map fun fps => (fps, 0) else some (fps, count)
  let quick := if avgDelay > 50 then 0 else user.quickIncreaseFpsCount
  return (fps, { user with increaseFpsCount := count, quickIncreaseFpsCount := quick })

end UserDelay

/-- A quality, a custom one in hundredths. -/
inductive Quality where
  | best
  | balanced
  | low
  | custom (hundredths : Nat)
  deriving DecidableEq, Repr

/-- In hundredths. -/
def Quality.ratio : Quality → Nat
  | best => 150
  | balanced => 67
  | low => 50
  | custom hundredths => hundredths

/-- `convert_quality`. -/
def convertQuality (q : Int) : Quality :=
  if q = 3 then .balanced
  else if q = 2 then .low
  else if q = 4 then .best
  else .custom (clamp 20 4000 ((q / 256 % 4096).toNat * 2))

structure UserData where
  autoAdjustFps : Option Nat
  customFps : Option Nat
  quality : Option (Int × Quality)
  delay : UserDelay
  deriving DecidableEq, Repr

def UserData.new : UserData :=
  { autoAdjustFps := none, customFps := none, quality := none, delay := .new }

structure DisplayData where
  sendCounter : Nat
  supportChangingQuality : Bool
  deriving DecidableEq, Repr

def DisplayData.new : DisplayData := { sendCounter := 0, supportChangingQuality := false }

structure VideoQoS where
  fps : Nat
  users : Table Int UserData
  displays : Table String DisplayData
  bitrateStore : Nat
  abrConfig : Bool

namespace VideoQoS

def new : VideoQoS :=
  { fps := fpsDefault, users := .empty, displays := .empty, bitrateStore := 0, abrConfig := true }

def storeBitrate (qos : VideoQoS) (bitrate : Nat) : VideoQoS := { qos with bitrateStore := bitrate }

def setSupportChangingQuality (qos : VideoQoS) (name : String) (support : Bool) : VideoQoS :=
  match qos.displays.lookup name with
  | some display =>
      { qos with
        displays := qos.displays.insert name { display with supportChangingQuality := support } }
  | none => qos

def inVbrState (qos : VideoQoS) : Bool :=
  qos.abrConfig && qos.displays.entries.all fun (_, display) => display.supportChangingQuality

def onConnectionOpen (out : Outside) (qos : VideoQoS) (id : Int) : VideoQoS :=
  { qos with users := qos.users.insert id .new, abrConfig := out.enableAbr }

def onConnectionClose (qos : VideoQoS) (id : Int) : VideoQoS :=
  let qos := { qos with users := qos.users.remove id }
  if qos.users.entries.isEmpty then new else qos

/-- Change the data of a user, if there is one of this id. -/
def changeUser (qos : VideoQoS) (id : Int) (change : UserData → UserData) : VideoQoS :=
  match qos.users.lookup id with
  | some user => { qos with users := qos.users.insert id (change user) }
  | none => qos

def userCustomFps (qos : VideoQoS) (id : Int) (fps : Nat) : VideoQoS :=
  if fps < minFps ∨ fps > maxFps then qos
  else qos.changeUser id fun user => { user with customFps := some fps }

def userAutoAdjustFps (qos : VideoQoS) (id : Int) (fps : Nat) : VideoQoS :=
  if fps < minFps ∨ fps > maxFps then qos
  else qos.changeUser id fun user => { user with autoAdjustFps := some fps }

def userImageQuality (out : Outside) (qos : VideoQoS) (id : Int) (imageQuality : Int) : VideoQoS :=
  qos.changeUser id fun user => { user with quality := some (out.now, convertQuality imageQuality) }

/-- The rate a user asks for. -/
def userFps (user : UserData) : Nat :=
  let fps := user.customFps.getD fpsDefault
  match user.autoAdjustFps with
  | some autoAdjustFps => if fps = 0 ∨ autoAdjustFps < fps then autoAdjustFps else fps
  | none => fps

def highestFps (qos : VideoQoS) : Nat :=
  let fps := ((qos.users.entries.map fun (_, user) => userFps user).filter (minFps ≤ ·)).min?
  clamp minFps maxFps (fps.getD fpsDefault)

/-- `latest_quality`. -/
def latestQuality (out : Outside) (qos : VideoQoS) : Quality :=
  let qualities := qos.users.entries.filterMap fun (_, user) => user.quality
  match (qualities.map Prod.fst).max? with
  | some time =>
      let latest := qualities.filter fun (at', _) => at' = time
      (latest.getD (out.tie % latest.length) (0, .balanced)).2
  | none => .balanced

def adjustFps (out : Outside) (qos : VideoQoS) : VideoQoS :=
  let fps := ((qos.users.entries.map fun (_, user) => user.delay.fps.getD initFps).min?).getD initFps
  let fps :=
    if (qos.users.entries.any fun (_, user) => user.delay.responseDelayed) ∧ fps > minFps + 1 then
      minFps + 1
    else fps
  let fps := if out.newUser ∧ fps > initFps then initFps else fps
  { qos with fps := clamp minFps qos.highestFps fps }

/-- `adjust_ratio`, of which only the integers are kept. -/
def adjustRatio (qos : VideoQoS) : Option VideoQoS :=
  if qos.inVbrState then do
    let delays : List Nat ← qos.users.entries.mapM fun (_, user) => user.delay.avgDelay
    match delays.max? with
    | none => return qos
    | some _ =>
        if qos.bitrateStore > 0 then
          let _ ← addU32 qos.bitrateStore 150
          return qos
        else return qos
  else some qos

/-- The part of `user_network_delay` about the user itself. -/
def reactToDelay (out : Outside) (qos : VideoQoS) (user : UserData) (delay : Nat) : Option UserData := do
  let targetRatio := (qos.latestQuality out).ratio
  let (minFps', normalFps) :=
    if targetRatio ≥ Quality.best.ratio then (8, 16)
    else if targetRatio ≥ Quality.balanced.ratio then (10, 20)
    else (12, 24)
  let oldAvgDelay ← user.delay.avgDelay
  let changed := user.delay.addDelay out (max delay 10)
  let avgDelay ← changed.avgDelay
  let avgDelay := max avgDelay 10
  let (fps, changed) ← changed.stepFps out minFps' normalFps qos.fps oldAvgDelay avgDelay
  let (fps, changed) ← changed.countStable avgDelay fps
  return { user with delay := { changed with fps := some (clamp minFps qos.highestFps fps) } }

def userNetworkDelay (out : Outside) (qos : VideoQoS) (id : Int) (delay : Nat) : Option VideoQoS :=
  match qos.users.lookup id with
  | none => some (qos.adjustFps out)
  | some user => do
      let changed ← qos.reactToDelay out user delay
      let qos := { qos with users := qos.users.insert id changed }.adjustFps out
      if user.delay.fps.isNone ∧ !out.linux then qos.adjustRatio else some qos

def userDelayResponseElapsed (out : Outside) (qos : VideoQoS) (id : Int) (elapsed : Nat) : VideoQoS :=
  match qos.users.lookup id with
  | none => qos
  | some user =>
      let delay := { user.delay with responseDelayed := decide (elapsed > 2000) }
      if elapsed > 2000 then
        let delay := delay.addDelay out (elapsed % 2 ^ 32)
        { qos with users := qos.users.insert id { user with delay := delay } }.adjustFps out
      else { qos with users := qos.users.insert id { user with delay := delay } }

def newDisplay (qos : VideoQoS) (name : String) : VideoQoS :=
  { qos with displays := qos.displays.insert name .new }

def removeDisplay (qos : VideoQoS) (name : String) : VideoQoS :=
  { qos with displays := qos.displays.remove name }

/-- The part of `update_display_data` that counts the frames. -/
def countFrames (qos : VideoQoS) (name : String) (sendCounter : Nat) : Option VideoQoS :=
  match qos.displays.lookup name with
  | some display => do
      let counter ← addUsize display.sendCounter sendCounter
      return { qos with displays := qos.displays.insert name { display with sendCounter := counter } }
  | none => some qos

def updateDisplayData (out : Outside) (qos : VideoQoS) (name : String) (sendCounter : Nat) :
    Option VideoQoS := do
  let qos ← qos.countFrames name sendCounter
  let qos := qos.adjustFps out
  if qos.inVbrState ∧ out.ratioDue then
    let displays := qos.displays.map fun _ display => { display with sendCounter := 0 }
    { qos with displays := displays }.adjustRatio
  else some qos

end VideoQoS

end HibtDesk.Video
