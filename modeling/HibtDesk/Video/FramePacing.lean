import HibtDesk.Library.Trace
import Mathlib.Data.Finset.Card

/-! The pace of the video services. After each frame a service waits until as many viewers
have reported as it sent the frame to. The reports for an index go through one queue. -/
namespace HibtDesk.Video.Pacing

inductive Source where
  | monitor
  | camera
  deriving DecidableEq, Repr

/-- A frame, by the service that sent it and its number there. -/
structure FrameId where
  source : Source
  idx : Nat
  number : Nat
  deriving DecidableEq, Repr

/-- What a viewer does that is worth a notice: it acknowledges a frame, or it closes. The
queues carry the connection only. -/
inductive Report where
  | received (frame : FrameId)
  | closed
  deriving DecidableEq, Repr

structure Wait where
  frame : FrameId
  sendConnIds : Finset Nat
  fetchedConnIds : Finset Nat
  deriving DecidableEq

/-- Where a service is: before a frame, between handing it out and `set_send`, or after. -/
inductive Service where
  | capturing
  | sent (frame : FrameId) (connIds : Finset Nat)
  | waiting (wait : Wait)
  deriving DecidableEq

/-- A service has left its wait in time, with the viewers of the frame that are still to come. -/
structure Exit where
  frame : FrameId
  missing : Finset Nat
  deriving DecidableEq

/-- The queues and tables of the video services and the connections' channels, with what the
viewers have reported and the waits that have been left. -/
structure State where
  frameFetchedNotifiers : Nat → Option (List Nat)
  displayConnIds : List (Nat × Finset Nat)
  services : Source → Nat → Option Service
  frames : Source → Nat → Nat
  rxVideo : Nat → List FrameId
  videoAckRequired : Nat → Bool
  notifying : List (Nat × List Nat)
  reports : List (Nat × Report)
  exits : List Exit

inductive Event where
  | new (source : Source) (idx : Nat)
  | login (connId : Nat) (videoAckRequired : Bool)
  /-- A service hands a frame to its subscribers, of which there may be none. -/
  | sendVideoFrame (source : Source) (idx : Nat) (connIds : Finset Nat)
  | setSend (source : Source) (idx : Nat)
  /-- One turn of the loop in which a service waits. -/
  | tryWaitNext (source : Source) (idx : Nat)
  | timeout (source : Source) (idx : Nat)
  /-- The run of a service ends in its wait, since the privacy mode has changed. -/
  | bail (idx : Nat)
  /-- A connection takes a frame out of its channel. -/
  | fetch (connId : Nat)
  /-- The peer says that it has received a frame. The message does not say which. -/
  | videoReceived (connId : Nat) (frame : FrameId)
  | close (connId : Nat)
  /-- The notices of a connection go to the queues it has looked up. -/
  | notify (i : Nat)

namespace State

def start : State where
  frameFetchedNotifiers _ := none
  displayConnIds := []
  services _ _ := none
  frames _ _ := 0
  rxVideo _ := []
  videoAckRequired _ := false
  notifying := []
  reports := []
  exits := []

def setService (s : State) (source : Source) (idx : Nat) (service : Service) : State :=
  { s with
    services := fun other i => if other = source ∧ i = idx then some service else s.services other i }

def removeDisplay (s : State) (idx : Nat) : State :=
  { s with displayConnIds := s.displayConnIds.filter fun entry => entry.1 ≠ idx }

/-- Nothing is sent for an index without a queue. -/
def notifyVideoFrameFetched (s : State) (displayIdx connId : Nat) : State :=
  { s with
    frameFetchedNotifiers := fun idx =>
      if idx = displayIdx then (s.frameFetchedNotifiers idx).map (· ++ [connId])
      else s.frameFetchedNotifiers idx }

/-- The indices are looked up first, and the queues are written to after that. -/
def notifyVideoFrameFetchedByConnId (s : State) (connId : Nat) : State :=
  let indices := (s.displayConnIds.filter fun entry => connId ∈ entry.2).map Prod.fst
  { s with notifying := s.notifying ++ [(connId, indices)] }

def report (s : State) (connId : Nat) (what : Report) : State :=
  { s with reports := s.reports ++ [(connId, what)] }

/-- The viewer has acknowledged that very frame, or it has closed. -/
def Done (s : State) (frame : FrameId) (connId : Nat) : Prop :=
  (connId, .received frame) ∈ s.reports ∨ (connId, .closed) ∈ s.reports

instance (s : State) (frame : FrameId) : DecidablePred (s.Done frame) :=
  fun _ => inferInstanceAs (Decidable (_ ∨ _))

def new (s : State) (source : Source) (idx : Nat) : State :=
  let s := s.setService source idx .capturing
  { s with
    frameFetchedNotifiers := fun i =>
      if i = idx then some ((s.frameFetchedNotifiers i).getD []) else s.frameFetchedNotifiers i }

def sendVideoFrame (s : State) (source : Source) (idx : Nat) (connIds : Finset Nat) : State :=
  match s.services source idx with
  | some .capturing =>
      let frame := { source := source, idx := idx, number := s.frames source idx }
      let s := s.setService source idx (.sent frame connIds)
      { s with
        frames := fun other i => if other = source ∧ i = idx then frame.number + 1 else s.frames other i
        rxVideo := fun connId =>
          if connId ∈ connIds then s.rxVideo connId ++ [frame] else s.rxVideo connId }
  | _ => s

def setSend (s : State) (source : Source) (idx : Nat) : State :=
  match s.services source idx with
  | some (.sent frame connIds) =>
      let s := s.setService source idx (.waiting ⟨frame, connIds, ∅⟩)
      if connIds = ∅ then s
      else
        let s := s.removeDisplay idx
        { s with displayConnIds := (idx, connIds) :: s.displayConnIds }
  | _ => s

/-- Everything in the queue is taken, unless there is nobody to wait for. -/
def takeNotices (s : State) (wait : Wait) (idx : Nat) : List Nat :=
  if wait.sendConnIds = ∅ then [] else (s.frameFetchedNotifiers idx).getD []

def tryWaitNext (s : State) (source : Source) (idx : Nat) : State :=
  match s.services source idx with
  | some (.waiting wait) =>
      let notices := s.takeNotices wait idx
      let fetched := wait.fetchedConnIds ∪ notices.toFinset
      let s := { s with
        frameFetchedNotifiers := fun i =>
          if i = idx then (s.frameFetchedNotifiers i).map (List.drop notices.length)
          else s.frameFetchedNotifiers i }
      if wait.sendConnIds.card ≤ fetched.card then
        let s := (s.setService source idx .capturing).removeDisplay idx
        let missing := wait.sendConnIds.filter fun connId => ¬ s.Done wait.frame connId
        { s with exits := s.exits ++ [⟨wait.frame, missing⟩] }
      else s.setService source idx (.waiting { wait with fetchedConnIds := fetched })
  | _ => s

def timeout (s : State) (source : Source) (idx : Nat) : State :=
  match s.services source idx with
  | some (.waiting _) => (s.setService source idx .capturing).removeDisplay idx
  | _ => s

def bail (s : State) (idx : Nat) : State :=
  match s.services .monitor idx with
  | some (.waiting _) => s.setService .monitor idx .capturing
  | _ => s

def fetch (s : State) (connId : Nat) : State :=
  match s.rxVideo connId with
  | frame :: rest =>
      let s := { s with rxVideo := fun other => if other = connId then rest else s.rxVideo other }
      if s.videoAckRequired connId then s
      else (s.report connId (.received frame)).notifyVideoFrameFetched frame.idx connId
  | [] => s

def notify (s : State) (i : Nat) : State :=
  match s.notifying[i]? with
  | some (connId, indices) =>
      indices.foldl (fun s idx => s.notifyVideoFrameFetched idx connId)
        { s with notifying := s.notifying.eraseIdx i }
  | none => s

def step (s : State) : Event → State
  | .new source idx => s.new source idx
  | .login connId videoAckRequired =>
      { s with
        videoAckRequired := fun other =>
          if other = connId then videoAckRequired else s.videoAckRequired other }
  | .sendVideoFrame source idx connIds => s.sendVideoFrame source idx connIds
  | .setSend source idx => s.setSend source idx
  | .tryWaitNext source idx => s.tryWaitNext source idx
  | .timeout source idx => s.timeout source idx
  | .bail idx => s.bail idx
  | .fetch connId => if (connId, .closed) ∈ s.reports then s else s.fetch connId
  | .videoReceived connId frame =>
      if (connId, .closed) ∈ s.reports then s
      else (s.report connId (.received frame)).notifyVideoFrameFetchedByConnId connId
  | .close connId =>
      if (connId, .closed) ∈ s.reports then s
      else (s.report connId .closed).notifyVideoFrameFetchedByConnId connId
  | .notify i => s.notify i

/-- What a waiting service takes comes from viewers of the frame that are done with it. -/
def Current (s : State) : Event → Prop
  | .tryWaitNext source idx =>
      match s.services source idx with
      | some (.waiting wait) =>
          ∀ connId ∈ s.takeNotices wait idx, connId ∈ wait.sendConnIds ∧ s.Done wait.frame connId
      | _ => True
  | _ => True

/-- Each wait that was left in time was left when no viewer of the frame was missing. -/
def NoneMissing (s : State) : Prop := ∀ exit ∈ s.exits, exit.missing = ∅

/-- The viewers that a service has counted are viewers of its frame, and done with it. -/
structure Counted (s : State) : Prop where
  waits : ∀ source idx wait, s.services source idx = some (.waiting wait) →
    ∀ connId ∈ wait.fetchedConnIds, connId ∈ wait.sendConnIds ∧ s.Done wait.frame connId
  exits : s.NoneMissing

theorem counted_start : start.Counted where
  waits := nofun
  exits := nofun

/-- A step of which the services take no notice: what was reported stays so, a wait that goes
on is the same, and nobody leaves one. -/
structure Unnoticed (s s' : State) : Prop where
  reports : ∀ entry ∈ s.reports, entry ∈ s'.reports
  waits : ∀ source idx wait, s'.services source idx = some (.waiting wait) →
    s.services source idx = some (.waiting wait) ∨ wait.fetchedConnIds = ∅
  exits : s'.exits = s.exits

section Steps
variable {s s' : State}

theorem Unnoticed.refl (s : State) : s.Unnoticed s :=
  ⟨fun _ h => h, fun _ _ _ h => Or.inl h, rfl⟩

theorem Done.mono (hReports : ∀ entry ∈ s.reports, entry ∈ s'.reports) {frame : FrameId}
    {connId : Nat} (hDone : s.Done frame connId) : s'.Done frame connId :=
  hDone.imp (hReports _) (hReports _)

theorem Counted.unnoticed (hCounted : s.Counted) (hUnnoticed : s.Unnoticed s') : s'.Counted where
  waits source idx wait hWait connId hFetched := by
    rcases hUnnoticed.waits source idx wait hWait with hBefore | hEmpty
    · obtain ⟨hSend, hDone⟩ := hCounted.waits source idx wait hBefore connId hFetched
      exact ⟨hSend, hDone.mono hUnnoticed.reports⟩
    · rw [hEmpty] at hFetched
      cases hFetched
  exits := by
    unfold NoneMissing
    rw [hUnnoticed.exits]
    exact hCounted.exits

theorem setService_services {source other : Source} {idx i : Nat} {service found : Service}
    (h : (s.setService source idx service).services other i = some found) :
    found = service ∨ s.services other i = some found := by
  unfold setService at h
  dsimp only at h
  split at h
  · exact Or.inl (Option.some.inj h).symm
  · exact Or.inr h

/-- A service that comes to wait has counted nobody. -/
theorem Unnoticed.setService {source : Source} {idx : Nat} {service : Service}
    (hService : ∀ wait, service = .waiting wait → wait.fetchedConnIds = ∅) :
    s.Unnoticed (s.setService source idx service) := by
  refine ⟨fun _ h => h, fun other i wait hWait => ?_, rfl⟩
  rcases setService_services hWait with hNew | hOld
  · exact Or.inr (hService wait hNew.symm)
  · exact Or.inl hOld

theorem notify_foldl (s : State) (connId : Nat) (indices : List Nat) :
    s.Unnoticed (indices.foldl (fun s idx => s.notifyVideoFrameFetched idx connId) s) := by
  induction indices generalizing s with
  | nil => exact .refl s
  | cons idx rest ih =>
      have hRest := ih (s.notifyVideoFrameFetched idx connId)
      exact ⟨hRest.reports, hRest.waits, hRest.exits⟩

theorem report_unnoticed (s : State) (connId : Nat) (what : Report) :
    s.Unnoticed (s.report connId what) :=
  ⟨fun _ h => List.mem_append_left _ h, fun _ _ _ h => Or.inl h, rfl⟩

/-- Only the turns of a wait count. -/
theorem step_unnoticed (s : State) (event : Event)
    (hOther : ∀ source idx, event ≠ .tryWaitNext source idx) : s.Unnoticed (s.step event) := by
  cases event with
  | tryWaitNext source idx => exact absurd rfl (hOther source idx)
  | new source idx =>
      have hSet : s.Unnoticed (s.setService source idx .capturing) := .setService nofun
      exact ⟨hSet.reports, hSet.waits, hSet.exits⟩
  | login connId videoAckRequired => exact ⟨fun _ h => h, fun _ _ _ h => Or.inl h, rfl⟩
  | sendVideoFrame source idx connIds =>
      change s.Unnoticed (s.sendVideoFrame source idx connIds)
      unfold sendVideoFrame
      split
      · have hSet : s.Unnoticed (s.setService source idx
            (.sent ⟨source, idx, s.frames source idx⟩ connIds)) := .setService nofun
        exact ⟨hSet.reports, hSet.waits, hSet.exits⟩
      · exact .refl s
  | setSend source idx =>
      change s.Unnoticed (s.setSend source idx)
      unfold setSend
      split
      · rename_i frame connIds _
        have hSet : s.Unnoticed (s.setService source idx (.waiting ⟨frame, connIds, ∅⟩)) :=
          .setService fun wait hWait => by cases hWait; rfl
        dsimp only
        split
        · exact hSet
        · exact ⟨hSet.reports, hSet.waits, hSet.exits⟩
      · exact .refl s
  | timeout source idx =>
      change s.Unnoticed (s.timeout source idx)
      unfold timeout
      split
      · have hSet : s.Unnoticed (s.setService source idx .capturing) := .setService nofun
        exact ⟨hSet.reports, hSet.waits, hSet.exits⟩
      · exact .refl s
  | bail idx =>
      change s.Unnoticed (s.bail idx)
      unfold bail
      split
      · exact .setService nofun
      · exact .refl s
  | fetch connId =>
      change s.Unnoticed (if (connId, .closed) ∈ s.reports then s else s.fetch connId)
      split
      · exact .refl s
      · unfold fetch
        split
        · dsimp only
          split
          · exact ⟨fun _ h => h, fun _ _ _ h => Or.inl h, rfl⟩
          · exact ⟨fun _ h => List.mem_append_left _ h, fun _ _ _ h => Or.inl h, rfl⟩
        · exact .refl s
  | videoReceived connId frame =>
      change s.Unnoticed (if (connId, .closed) ∈ s.reports then s else _)
      split
      · exact .refl s
      · have hReport := report_unnoticed s connId (.received frame)
        exact ⟨hReport.reports, hReport.waits, hReport.exits⟩
  | close connId =>
      change s.Unnoticed (if (connId, .closed) ∈ s.reports then s else _)
      split
      · exact .refl s
      · have hReport := report_unnoticed s connId .closed
        exact ⟨hReport.reports, hReport.waits, hReport.exits⟩
  | notify i =>
      change s.Unnoticed (s.notify i)
      unfold notify
      split
      · rename_i connId indices _
        have hAll := notify_foldl { s with notifying := s.notifying.eraseIdx i } connId indices
        exact ⟨hAll.reports, hAll.waits, hAll.exits⟩
      · exact .refl s

/-- With as many viewers counted as the frame was sent to, none is missing. -/
theorem Counted.turn (hCounted : s.Counted) {source : Source} {idx : Nat}
    (hCurrent : s.Current (.tryWaitNext source idx)) : (s.tryWaitNext source idx).Counted := by
  unfold tryWaitNext
  split
  · rename_i wait hWait
    have hNotices : ∀ connId ∈ s.takeNotices wait idx,
        connId ∈ wait.sendConnIds ∧ s.Done wait.frame connId := by
      simpa only [Current, hWait] using hCurrent
    have hFetched : ∀ connId ∈ wait.fetchedConnIds ∪ (s.takeNotices wait idx).toFinset,
        connId ∈ wait.sendConnIds ∧ s.Done wait.frame connId := by
      intro connId hMem
      rcases Finset.mem_union.mp hMem with hOld | hNew
      · exact hCounted.waits source idx wait hWait connId hOld
      · exact hNotices connId (List.mem_toFinset.mp hNew)
    dsimp only
    split
    · rename_i hAll
      have hSame := Finset.eq_of_subset_of_card_le (fun connId hMem => (hFetched connId hMem).1) hAll
      refine ⟨fun other i wait' hWait' => ?_, fun exit hExit => ?_⟩
      · rcases setService_services hWait' with hNew | hOld
        · cases hNew
        · exact hCounted.waits other i wait' hOld
      · rcases List.mem_append.mp hExit with hOld | hNew
        · exact hCounted.exits exit hOld
        · rw [List.mem_singleton.mp hNew]
          refine Finset.filter_eq_empty_iff.mpr fun connId hSend hNot => hNot ?_
          rw [← hSame] at hSend
          exact (hFetched connId hSend).2
    · refine ⟨fun other i wait' hWait' => ?_, hCounted.exits⟩
      rcases setService_services hWait' with hNew | hOld
      · cases hNew
        exact hFetched
      · exact hCounted.waits other i wait' hOld
  · exact hCounted

end Steps

theorem Counted.step {s : State} (hCounted : s.Counted) (event : Event) (hCurrent : s.Current event) :
    (s.step event).Counted := by
  by_cases hTurn : ∃ source idx, event = .tryWaitNext source idx
  · obtain ⟨source, idx, rfl⟩ := hTurn
    exact hCounted.turn hCurrent
  · exact hCounted.unnoticed (step_unnoticed s event fun source idx hEvent => hTurn ⟨source, idx, hEvent⟩)

/-- In a run in which the waiting services take current notices only, each has left its waits
when no viewer was missing. -/
theorem none_missing {events : List Event} (hCurrent : Trace.Always step Current start events) :
    (Trace.run step start events).NoneMissing :=
  (Trace.invariant_of_always step Counted (fun _ event hNow hCounted => hCounted.step event hNow)
    counted_start hCurrent).exits

/-- One viewer fetches the frame, and the service goes on. -/
theorem none_missing_one :
    (Trace.run step start
      [.new .monitor 0, .sendVideoFrame .monitor 0 {1}, .setSend .monitor 0, .fetch 1,
        .tryWaitNext .monitor 0]).NoneMissing :=
  none_missing ⟨trivial, trivial, trivial, trivial, by
    intro connId hNotice
    rw [List.mem_singleton.mp hNotice]
    exact ⟨Finset.mem_singleton_self 1, Or.inl (List.mem_singleton_self _)⟩, trivial⟩

/-- A viewer fetches a frame late, and is taken to have fetched the next one. -/
theorem late_fetch_stands_in :
    ¬ (Trace.run step start
      [.new .monitor 0, .sendVideoFrame .monitor 0 {1}, .setSend .monitor 0, .timeout .monitor 0,
        .fetch 1, .sendVideoFrame .monitor 0 {1}, .setSend .monitor 0,
        .tryWaitNext .monitor 0]).NoneMissing := by
  intro hAll
  have hNone := hAll ⟨⟨.monitor, 0, 1⟩, {1}⟩ (List.mem_singleton_self _)
  exact absurd hNone (by decide)

end State

end HibtDesk.Video.Pacing
