import HibtDesk.Library.Table
import HibtDesk.Library.Trace
import Mathlib.Algebra.Order.Group.Unbundled.Int

/-! The loops of the mediators that register over UDP, and what is known of the servers from
them. Times are in microseconds. The clock is read once for each turn of a loop. -/
namespace HibtDesk.Rendezvous

/-- What the process knows of its servers: `ONLINE`, and the server of the configuration. -/
structure Config where
  online : Table String Int
  rendezvousServer : String

namespace Config

/-- `get_online_state`. -/
def getOnlineState (config : Config) : Int := ((config.online.entries.map Prod.snd).max?).getD 0

/-- `reset_online`. -/
def resetOnline (config : Config) : Config := { config with online := Table.empty }

/-- One entry of the search for the fastest server. -/
def faster (best entry : String × Int) : String × Int :=
  if entry.2 > 0 ∧ entry.2 < best.2 then entry else best

/-- `update_latency`. -/
def updateLatency (config : Config) (host : String) (latency : Int) : Config :=
  let online := config.online.insert host latency
  let fastest := (online.entries.foldl faster ("", 2 ^ 63 - 1)).1
  { online := online
    rendezvousServer := if fastest.isEmpty then config.rendezvousServer else fastest }

end Config

def regInterval : Nat := 15000

def minRegTimeout : Nat := 3000

def maxRegTimeout : Nat := 30000

def maxFails1 : Nat := 2

def maxFails2 : Nat := 4

def dnsInterval : Nat := 60000

/-- The milliseconds since a moment. -/
def elapsedMillis (now moment : Nat) : Nat := (now - moment) / 1000

/-- The variables of the loop in `start_udp`. -/
structure Registration where
  regTimeout : Nat := minRegTimeout
  fails : Nat := 0
  lastRegisterResp : Option Nat := none
  lastRegisterSent : Option Nat := none
  lastDnsCheck : Nat
  oldLatency : Int := 0
  emaLatency : Int := 0
  deriving DecidableEq, Repr

inductive Effect where
  | updateLatency (latency : Int)
  | rebindUdp
  | registerPeer
  deriving DecidableEq, Repr

namespace Registration

/-- `update_latency` of the loop, called for each response of the server. -/
def updateLatency (now : Nat) (loop : Registration) : Registration × List Effect :=
  let latency : Int := (loop.lastRegisterSent.map fun sent => ((now - sent : Nat) : Int)).getD 0
  let loop :=
    { loop with
      lastRegisterResp := some now
      fails := 0
      regTimeout := minRegTimeout
      lastRegisterSent := none }
  if latency < 0 ∨ latency > 1000000 then (loop, [])
  else
    let latency :=
      if loop.emaLatency = 0 then latency
      else latency.tdiv 30 + (loop.emaLatency * 29).tdiv 30
    let loop := { loop with emaLatency := latency }
    let n := if latency.tdiv 5 < 3000 then 3000 else latency.tdiv 5
    if |latency - loop.oldLatency| > n ∨ loop.oldLatency ≤ 0 then
      ({ loop with oldLatency := latency }, [.updateLatency latency])
    else (loop, [])

/-- The server has not answered in time. -/
def failed (now : Nat) (loop : Registration) : Registration × List Effect :=
  let loop := { loop with fails := loop.fails + 1 }
  if loop.fails ≥ maxFails2 then
    let loop := { loop with oldLatency := 0 }
    if elapsedMillis now loop.lastDnsCheck > dnsInterval then
      ({ loop with lastDnsCheck := now }, [.updateLatency (-1), .rebindUdp])
    else (loop, [.updateLatency (-1)])
  else if loop.fails ≥ maxFails1 then ({ loop with oldLatency := 0 }, [.updateLatency 0])
  else (loop, [])

/-- The timer of the loop. On mobile systems it is as if the server was never public. -/
def tick (now : Nat) (usingPublicServer : Bool) (loop : Registration) : Registration × List Effect :=
  let expired := loop.lastRegisterResp.all fun resp => decide (elapsedMillis now resp ≥ regInterval)
  let timeout := loop.lastRegisterSent.any fun sent => decide (elapsedMillis now sent ≥ loop.regTimeout)
  let loop :=
    if usingPublicServer && timeout && decide (loop.regTimeout < maxRegTimeout) then
      { loop with regTimeout := loop.regTimeout + minRegTimeout }
    else loop
  if timeout || (loop.lastRegisterSent.isNone && expired) then
    let (loop, effects) := if timeout then loop.failed now else (loop, [])
    ({ loop with lastRegisterSent := some now }, effects ++ [.registerPeer])
  else (loop, [])

end Registration

/-- A mediator, with when it was started and when its timer was last served. -/
structure UdpMediator where
  host : String
  started : Nat
  served : Nat
  loop : Registration
  deriving DecidableEq, Repr

/-- The mediators of `start_all`. -/
structure UdpMediators where
  now : Nat
  config : Config
  mediators : List UdpMediator

inductive UdpEvent where
  | start (now : Nat) (host : String)
  | tick (i now : Nat) (usingPublicServer : Bool)
  /-- A `RegisterPeerResponse` or a `RegisterPkResponse`. -/
  | response (i now : Nat)
  deriving DecidableEq, Repr

def UdpEvent.now : UdpEvent → Nat
  | .start now _ | .tick _ now _ | .response _ now => now

namespace UdpMediators

/-- `start_all` has reset what is known of the servers, and starts its mediators next. -/
def initial (now : Nat) (config : Config) : UdpMediators where
  now := now
  config := config.resetOnline
  mediators := []

def perform (host : String) (config : Config) : Effect → Config
  | .updateLatency latency => config.updateLatency host latency
  | .rebindUdp | .registerPeer => config

/-- A turn of the loop of one mediator. -/
def turn (s : UdpMediators) (i : Nat) (mediator : UdpMediator)
    (turned : Registration × List Effect) : UdpMediators :=
  { s with
    config := turned.2.foldl (perform mediator.host) s.config
    mediators := s.mediators.set i { mediator with loop := turned.1 } }

def step (s : UdpMediators) : UdpEvent → UdpMediators
  | .start now host =>
      { s with now := now, mediators := s.mediators ++ [⟨host, now, now, { lastDnsCheck := now }⟩] }
  | .tick i now usingPublicServer =>
      match s.mediators[i]? with
      | some mediator =>
          { s with now := now }.turn i { mediator with served := now }
            (mediator.loop.tick now usingPublicServer)
      | none => { s with now := now }
  | .response i now =>
      match s.mediators[i]? with
      | some mediator => { s with now := now }.turn i mediator (mediator.loop.updateLatency now)
      | none => { s with now := now }

end UdpMediators

end HibtDesk.Rendezvous
