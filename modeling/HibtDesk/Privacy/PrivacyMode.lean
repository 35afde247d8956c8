import Mathlib.Data.List.Basic
import Mathlib.Logic.Function.Basic

/-! Privacy mode, which belongs to the connection that turned it on. The process has
one implementation at a time, behind a lock; what is done under the lock is one step
here. A connection asks for privacy mode and waits for the answer, which comes from a
thread of its own where turning on takes long, and it gives the mode back when it ends. -/
namespace HibtDesk.Privacy

def invalidPrivacyModeConnId : Int := 0

def occupied : String := "Privacy occupied by another one."

def turnOffOtherId : String := "Failed to turn off privacy mode that belongs to someone else."

/-- The two `PrivacyModeImpl`s: a window on top of all others, used under two keys, and
a virtual display in place of the physical ones. -/
inductive Method where
  | topmostWindow | virtualDisplay
  deriving DecidableEq, Repr

structure PrivacyModeImpl where
  implKey : String
  connId : Int
  method : Method
  deriving DecidableEq, Repr

/-- What is fixed for the process: `DEFAULT_PRIVACY_MODE_IMPL` and
`PRIVACY_MODE_CREATOR`. -/
structure Build where
  defaultImpl : String
  creator : String → Option Method

/-- What the platform answers while one step is taken. `showsWindow` is false where the
library for the window is missing. -/
structure Platform where
  supportedImpls : List String
  implOption : String
  isAmyuniIdd : Bool
  virtualDisplaySupported : Bool
  showsWindow : Except String Bool
  addsDisplay : Except String Unit
  unhook : Except String Unit
  checkErr : String

namespace PrivacyModeImpl

def new (implKey : String) (method : Method) : PrivacyModeImpl where
  implKey := implKey
  connId := invalidPrivacyModeConnId
  method := method

def isAsyncPrivacyMode (platform : Platform) (impl : PrivacyModeImpl) : Bool :=
  match impl.method with
  | .topmostWindow => false
  | .virtualDisplay => platform.isAmyuniIdd

def checkOnConnId (impl : PrivacyModeImpl) (connId : Int) : Except String Bool :=
  if impl.connId = connId then .ok true
  else if impl.connId ≠ invalidPrivacyModeConnId then .error occupied
  else .ok false

def checkOffConnId (impl : PrivacyModeImpl) (connId : Int) : Except String Unit :=
  if impl.connId ≠ invalidPrivacyModeConnId ∧ connId ≠ invalidPrivacyModeConnId ∧
      impl.connId ≠ connId then
    .error turnOffOtherId
  else .ok ()

/-- `turn_off_privacy` of either implementation. -/
def turnOffPrivacy (platform : Platform) (impl : PrivacyModeImpl) (connId : Int) :
    Except String Unit × PrivacyModeImpl :=
  match impl.checkOffConnId connId with
  | .error e => (.error e, impl)
  | .ok () =>
      match platform.unhook with
      | .error e => (.error e, impl)
      | .ok () => (.ok (), { impl with connId := invalidPrivacyModeConnId })

def turnOnWindow (platform : Platform) (impl : PrivacyModeImpl) (connId : Int) :
    Except String Bool × PrivacyModeImpl :=
  match impl.checkOnConnId connId with
  | .error e => (.error e, impl)
  | .ok true => (.ok true, impl)
  | .ok false =>
      match platform.showsWindow with
      | .error e => (.error e, impl)
      | .ok false => (.ok false, impl)
      | .ok true => (.ok true, { impl with connId := connId })

def turnOnDisplay (platform : Platform) (impl : PrivacyModeImpl) (connId : Int) :
    Except String Bool × PrivacyModeImpl :=
  if !platform.virtualDisplaySupported then (.error "idd_not_support_under_win10_2004_tip", impl)
  else
    match impl.checkOnConnId connId with
    | .error e => (.error e, impl)
    | .ok true => (.ok true, impl)
    | .ok false =>
        match platform.addsDisplay with
        -- The guard that is dropped turns off what was begun.
        | .error e => (.error e, (impl.turnOffPrivacy platform invalidPrivacyModeConnId).2)
        | .ok () => (.ok true, { impl with connId := connId })

def turnOnPrivacy (platform : Platform) (impl : PrivacyModeImpl) (connId : Int) :
    Except String Bool × PrivacyModeImpl :=
  match impl.method with
  | .topmostWindow => impl.turnOnWindow platform connId
  | .virtualDisplay => impl.turnOnDisplay platform connId

end PrivacyModeImpl

/-- `PRIVACY_MODE`. -/
abbrev Mode := Option PrivacyModeImpl

section Mode
variable (build : Build) (platform : Platform)

def getSupportedImpl (implKey : String) : String :=
  if platform.supportedImpls.contains implKey then implKey
  else if platform.supportedImpls.contains platform.implOption then platform.implOption
  else build.defaultImpl

/-- The end of `turn_on_privacy_sync`: switch to the implementation and turn it on. -/
def switchAndTurnOn (implKey : String) (connId : Int) (mode : Mode) :
    Option (Except String Bool) × Mode :=
  let curImplKey := (mode.map PrivacyModeImpl.implKey).getD ""
  let switched : Except String Mode :=
    if curImplKey ≠ implKey then
      match build.creator implKey with
      | some method => .ok (some (.new implKey method))
      | none => .error s!"Unsupported privacy mode: {implKey}"
    else .ok mode
  match switched with
  | .error e => (some (.error e), mode)
  | .ok none => (none, none)
  | .ok (some impl) =>
      let (result, impl) := impl.turnOnPrivacy platform connId
      (some result, some impl)

def turnOnPrivacySync (implKey : String) (connId : Int) (mode : Mode) :
    Option (Except String Bool) × Mode :=
  let implKey := getSupportedImpl build platform implKey
  match mode with
  | none => switchAndTurnOn build platform implKey connId mode
  | some impl =>
      match impl.checkOnConnId connId with
      | .error e => (some (.error e), mode)
      | .ok true =>
          if impl.implKey = implKey then (some (.ok true), mode)
          else switchAndTurnOn build platform implKey connId mode
      | .ok false => switchAndTurnOn build platform implKey connId mode

def turnOffPrivacy (connId : Int) : Mode → Option (Except String Unit) × Mode
  | none => (none, none)
  | some impl =>
      let (result, impl) := impl.turnOffPrivacy platform connId
      (some result, some impl)

/-- `privacy_mode::switch`, called when the local user sets the option. -/
def switch (implKey : String) (mode : Mode) : Mode :=
  if mode.map PrivacyModeImpl.implKey = some implKey then mode
  else
    match build.creator implKey with
    | some method => some (.new implKey method)
    | none => mode

def isAsyncPrivacyMode (mode : Mode) : Bool :=
  (mode.map (PrivacyModeImpl.isAsyncPrivacyMode platform)).getD false

def getPrivacyModeConnId (mode : Mode) : Option Int := mode.map PrivacyModeImpl.connId

def isInPrivacyMode (mode : Mode) : Bool :=
  (mode.map fun impl => impl.connId != invalidPrivacyModeConnId).getD false

def isPrivacyModeSupported : Bool := build.defaultImpl != ""

end Mode

inductive NotificationState where
  | prvNotSupported | prvOnSucceeded | prvOnFailedPlugin | prvOnFailed | prvOffSucceeded
  | prvOffFailed
  deriving DecidableEq, Repr

/-- What `make_privacy_mode_msg_with_details` puts in a message. -/
structure PrivacyModeMsg where
  state : NotificationState
  details : String
  implKey : String
  deriving DecidableEq, Repr

/-- The message of `turn_off_privacy_to_msg`. -/
def turnOffMsg : Option (Except String Unit) → PrivacyModeMsg
  | some (.ok ()) => { state := .prvOffSucceeded, details := "", implKey := "" }
  | some (.error e) => { state := .prvOffFailed, details := e, implKey := "" }
  | none => { state := .prvOffFailed, details := "Not supported", implKey := "" }

def notSupportedMsg (implKey : String) : PrivacyModeMsg where
  state := .prvNotSupported
  details := "Unsupported. 1 Multi-screen is not supported. 2 Please confirm the license is activated."
  implKey := implKey

/-- A thread of `turn_on_privacy_async`, with its result once it has run. -/
structure Thread where
  connId : Int
  implKey : String
  result : Option (Option (Except String Bool))
  deriving DecidableEq, Repr

/-- Where a connection is with privacy mode. The message of `turningOff` is the one that
is sent afterwards, if it is not about turning off. -/
inductive Phase where
  | idle
  | turningOn (implKey : String)
  | awaiting (implKey : String) (thread : Nat)
  | answered (implKey : String) (result : Option (Except String Bool))
  | turningOff (connId : Int) (msg : Option PrivacyModeMsg)
  | leaving
  | leavingOff
  | ended
  deriving DecidableEq, Repr

structure System where
  mode : Mode
  threads : List Thread
  phase : Int → Phase
  sent : List (Int × PrivacyModeMsg)

inductive Event where
  /-- The peer of an idle connection asks for privacy mode, or to be rid of it. -/
  | turnOn (id : Int) (implKey : String)
  | turnOff (id : Int) (implKey : String)
  /-- The mode is turned on by the connection itself, or by one of the threads. -/
  | runSync (id : Int)
  | runThread (thread : Nat)
  /-- The result of the thread arrives, or it does not arrive in time. -/
  | receive (id : Int)
  | timeout (id : Int)
  | answer (id : Int)
  | callTurnOff (id : Int)
  /-- The loop of the connection is left; the owner is looked at and the mode turned
  off if it is this connection. -/
  | leave (id : Int)
  | look (id : Int)
  | giveBack (id : Int)
  /-- The last remote connection is dropped, and the virtual displays are reset. -/
  | resetAll (id : Int)
  /-- The local user turns the mode off, or chooses an implementation. -/
  | userOff
  | userSwitch (implKey : String)
  deriving DecidableEq, Repr

namespace System

def new (mode : Mode) : System where
  mode := mode
  threads := []
  phase := fun _ => .idle
  sent := []

def enter (s : System) (id : Int) (phase : Phase) : System :=
  { s with phase := Function.update s.phase id phase }

def send (s : System) (id : Int) (msg : PrivacyModeMsg) : System :=
  { s with sent := s.sent ++ [(id, msg)] }

/-- The result of turning on, in `Connection::turn_on_privacy`. -/
def onAnswer (platform : Platform) (s : System) (id : Int) (implKey : String) :
    Option (Except String Bool) → System
  | some (.ok true) =>
      if platform.checkErr = "" then
        (s.send id { state := .prvOnSucceeded, details := "", implKey := implKey }).enter id .idle
      else
        s.enter id (.turningOff id (some
          { state := .prvOnFailed, details := platform.checkErr, implKey := implKey }))
  | some (.ok false) =>
      (s.send id { state := .prvOnFailedPlugin, details := "", implKey := implKey }).enter id .idle
  | some (.error e) =>
      let msg : PrivacyModeMsg := { state := .prvOnFailed, details := e, implKey := implKey }
      if isInPrivacyMode s.mode then
        s.enter id (.turningOff invalidPrivacyModeConnId (some msg))
      else (s.send id msg).enter id .idle
  | none =>
      (s.send id { state := .prvOffFailed, details := "Not supported", implKey := implKey }).enter id
        .idle

/-- An event that finds the connection elsewhere does nothing. -/
def step (build : Build) (s : System) : Platform × Event → System
  | (platform, .turnOn id implKey) =>
      if s.phase id = .idle ∧ id ≠ invalidPrivacyModeConnId then
        if !isPrivacyModeSupported build then s.send id (notSupportedMsg implKey)
        else if isAsyncPrivacyMode platform s.mode then
          let thread : Thread := { connId := id, implKey := implKey, result := none }
          { s with threads := s.threads ++ [thread] }.enter id (.awaiting implKey s.threads.length)
        else s.enter id (.turningOn implKey)
      else s
  | (_, .turnOff id implKey) =>
      if s.phase id = .idle ∧ id ≠ invalidPrivacyModeConnId then
        if !isPrivacyModeSupported build then s.send id (notSupportedMsg implKey)
        else s.enter id (.turningOff id none)
      else s
  | (platform, .runSync id) =>
      match s.phase id with
      | .turningOn implKey =>
          let (result, mode) := turnOnPrivacySync build platform implKey id s.mode
          { s with mode := mode }.enter id (.answered implKey result)
      | _ => s
  | (platform, .runThread i) =>
      match s.threads[i]? with
      | some thread =>
          if thread.result.isSome then s
          else
            let (result, mode) :=
              turnOnPrivacySync build platform thread.implKey thread.connId s.mode
            { s with mode := mode, threads := s.threads.set i { thread with result := some result } }
      | none => s
  | (_, .receive id) =>
      match s.phase id with
      | .awaiting implKey i =>
          match s.threads[i]?.bind Thread.result with
          | some result => s.enter id (.answered implKey result)
          | none => s
      | _ => s
  | (_, .timeout id) =>
      match s.phase id with
      | .awaiting implKey _ => s.enter id (.answered implKey (some (.error "deadline has elapsed")))
      | _ => s
  | (platform, .answer id) =>
      match s.phase id with
      | .answered implKey result => s.onAnswer platform id implKey result
      | _ => s
  | (platform, .callTurnOff id) =>
      match s.phase id with
      | .turningOff connId msg =>
          let (result, mode) := turnOffPrivacy platform connId s.mode
          let s := { s with mode := mode }
          (s.send id (msg.getD (turnOffMsg result))).enter id .idle
      | _ => s
  | (_, .leave id) =>
      if s.phase id = .idle ∧ id ≠ invalidPrivacyModeConnId then s.enter id .leaving else s
  | (_, .look id) =>
      if s.phase id = .leaving then
        s.enter id (if getPrivacyModeConnId s.mode = some id then .leavingOff else .ended)
      else s
  | (platform, .giveBack id) =>
      if s.phase id = .leavingOff then
        { s with mode := (turnOffPrivacy platform id s.mode).2 }.enter id .ended
      else s
  | (platform, .resetAll id) =>
      if s.phase id = .ended ∧ platform.isAmyuniIdd = true then
        { s with mode := (turnOffPrivacy platform invalidPrivacyModeConnId s.mode).2 }
      else s
  | (platform, .userOff) =>
      { s with mode := (turnOffPrivacy platform invalidPrivacyModeConnId s.mode).2 }
  | (_, .userSwitch implKey) => { s with mode := switch build implKey s.mode }

end System

end HibtDesk.Privacy
