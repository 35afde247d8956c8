import HibtDesk.Library.Trace
import Mathlib.Data.Finset.Card

/-! The display service. A thread of its own looks for changes of the displays and sends
the list to its subscribers; a newcomer waits for a snapshot before it gets what is sent.
Other threads look for changes as well, and for a while changes may be ignored. What is
done under one lock, or by one access to the flag, is one step. -/
namespace HibtDesk.Display

/-- `ServiceInner` of a service, by the ids of its subscribers. -/
structure ServiceInner where
  subscribes : Finset Int
  newSubscribes : Finset Int
  active : Bool
  needSnapshot : Bool
  deriving DecidableEq

namespace ServiceInner

def new (needSnapshot : Bool) : ServiceInner where
  subscribes := ∅
  newSubscribes := ∅
  active := true
  needSnapshot := needSnapshot

def hasSubscribes (inner : ServiceInner) : Bool :=
  inner.subscribes.card > 0 || inner.newSubscribes.card > 0

def ok (inner : ServiceInner) : Bool := inner.active && inner.hasSubscribes

def onSubscribe (id : Int) (inner : ServiceInner) : ServiceInner :=
  if id ∈ inner.subscribes then inner
  else if inner.needSnapshot then { inner with newSubscribes := insert id inner.newSubscribes }
  else { inner with subscribes := insert id inner.subscribes }

def onUnsubscribe (id : Int) (inner : ServiceInner) : ServiceInner :=
  if id ∈ inner.subscribes then { inner with subscribes := inner.subscribes.erase id }
  else { inner with newSubscribes := inner.newSubscribes.erase id }

def swapNewSubscribes (inner : ServiceInner) : ServiceInner :=
  { inner with subscribes := inner.subscribes ∪ inner.newSubscribes, newSubscribes := ∅ }

end ServiceInner

structure SyncDisplaysInfo (DisplayInfo : Type) where
  displays : List DisplayInfo
  isSynced : Bool
  deriving DecidableEq

namespace SyncDisplaysInfo
variable {DisplayInfo : Type}

/-- Another list, which is to be announced unless changes are ignored. -/
def change (ignoring : Bool) (displays : List DisplayInfo) (info : SyncDisplaysInfo DisplayInfo) :
    SyncDisplaysInfo DisplayInfo where
  displays := displays
  isSynced := if !ignoring then false else info.isSynced

def checkChanged [BEq DisplayInfo] (ignoring : Bool) (displays : List DisplayInfo)
    (info : SyncDisplaysInfo DisplayInfo) : SyncDisplaysInfo DisplayInfo :=
  if info.displays.length ≠ displays.length then info.change ignoring displays
  else if (displays.zip info.displays).any fun (d, old) => d != old then info.change ignoring displays
  else info

def getUpdateSyncDisplays (info : SyncDisplaysInfo DisplayInfo) :
    Option (List DisplayInfo) × SyncDisplaysInfo DisplayInfo :=
  if info.isSynced then (none, info)
  else (some info.displays, { info with isSynced := true })

end SyncDisplaysInfo

/-- Why a snapshot swaps the newcomers in: changes are ignored, nobody was there before
them, or it goes back with an error since somebody was. -/
inductive Swapping where
  | ignored | alone | newSubscriber
  deriving DecidableEq, Repr

/-- Where the thread of the service stands. -/
inductive Position (DisplayInfo : Type) where
  /-- In the loop of `ServiceTmpl::run`, outside `run`. -/
  | outer
  /-- At `while sp.ok()`. -/
  | head
  /-- At the test of `ServiceTmpl::snapshot`. -/
  | snapshot
  /-- In the callback of the snapshot, step by step. -/
  | loadIgnore
  | hasSubscribes
  | markUnsynced
  /-- At the drop of the `ServiceSwap`. -/
  | swap (why : Swapping)
  /-- In `check_get_displays_changed_msg`. -/
  | checkUpdate
  | getMsg
  | send (displays : List DisplayInfo)
  deriving DecidableEq, Repr

/-- The process: `SYNC_DISPLAYS`, `TEMP_IGNORE_DISPLAYS_CHANGED`, the guards that hold it
and those that have let go of it but not yet asked for the list to be sent, the service,
and the list each viewer got last. -/
structure State (DisplayInfo : Type) where
  sync : SyncDisplaysInfo DisplayInfo
  tempIgnore : Bool
  holding : Nat
  leaving : Nat
  service : ServiceInner
  position : Position DisplayInfo
  last : Int → Option (List DisplayInfo)

/-- One step of a thread. The displays found are those of `try_get_displays`. -/
inductive Event (DisplayInfo : Type) where
  /-- The thread of the service goes on. -/
  | service (found : Option (List DisplayInfo))
  /-- `check_displays_changed`, or the first half of `update_get_sync_displays_on_login`. -/
  | checkUpdateDisplays (found : List DisplayInfo)
  /-- The second half of `update_get_sync_displays_on_login`, the reply to a viewer. -/
  | login (id : Int)
  | subscribe (id : Int)
  | unsubscribe (id : Int)
  | tempIgnoreDisplaysChanged
  /-- The two accesses of a guard that is dropped. -/
  | dropStore
  | dropMark
  | join
  deriving DecidableEq, Repr

namespace State
variable {DisplayInfo : Type}

def start : State DisplayInfo where
  sync := { displays := [], isSynced := false }
  tempIgnore := false
  holding := 0
  leaving := 0
  service := .new true
  position := .outer
  last _ := none

/-- Guards that have been taken and not been dropped to the end. -/
def guards (s : State DisplayInfo) : Nat := s.holding + s.leaving

/-- A list reaches every subscriber. -/
def sendShared (displays : List DisplayInfo) (s : State DisplayInfo) : State DisplayInfo :=
  { s with last := fun id => if id ∈ s.service.subscribes then some displays else s.last id }

variable [BEq DisplayInfo]

def checkUpdateDisplays (displays : List DisplayInfo) (s : State DisplayInfo) : State DisplayInfo :=
  { s with sync := s.sync.checkChanged s.tempIgnore displays }

/-- The next step of the thread of the service. -/
def serve (found : Option (List DisplayInfo)) (s : State DisplayInfo) : State DisplayInfo :=
  match s.position with
  | .outer =>
      if s.service.active && s.service.hasSubscribes then { s with position := .head } else s
  | .head => { s with position := if s.service.ok then .snapshot else .outer }
  | .snapshot =>
      { s with position := if s.service.newSubscribes.card > 0 then .loadIgnore else .checkUpdate }
  | .loadIgnore => { s with position := if !s.tempIgnore then .hasSubscribes else .swap .ignored }
  | .hasSubscribes =>
      { s with position := if s.service.subscribes.card > 0 then .markUnsynced else .swap .alone }
  | .markUnsynced =>
      { s with sync := { s.sync with isSynced := false }, position := .swap .newSubscriber }
  | .swap why =>
      { s with
        service := s.service.swapNewSubscribes
        position := if why = .newSubscriber then .outer else .checkUpdate }
  | .checkUpdate =>
      match found with
      | none => { s with position := .head }
      | some displays => { s.checkUpdateDisplays displays with position := .getMsg }
  | .getMsg =>
      match s.sync.getUpdateSyncDisplays with
      | (none, sync) => { s with sync := sync, position := .head }
      | (some displays, sync) => { s with sync := sync, position := .send displays }
  | .send displays => { s.sendShared displays with position := .head }

def step (s : State DisplayInfo) : Event DisplayInfo → State DisplayInfo
  | .service found => s.serve found
  | .checkUpdateDisplays found => s.checkUpdateDisplays found
  | .login id => { s with last := fun other => if other = id then some s.sync.displays else s.last other }
  -- A connection subscribes once the reply with the displays has been sent.
  | .subscribe id => if (s.last id).isSome then { s with service := s.service.onSubscribe id } else s
  | .unsubscribe id => { s with service := s.service.onUnsubscribe id }
  | .tempIgnoreDisplaysChanged => { s with tempIgnore := true, holding := s.holding + 1 }
  | .dropStore =>
      if 0 < s.holding then
        { s with tempIgnore := false, holding := s.holding - 1, leaving := s.leaving + 1 }
      else s
  | .dropMark =>
      if 0 < s.leaving then
        { s with sync := { s.sync with isSynced := false }, leaving := s.leaving - 1 }
      else s
  | .join => { s with service := { s.service with active := false } }

end State

end HibtDesk.Display
