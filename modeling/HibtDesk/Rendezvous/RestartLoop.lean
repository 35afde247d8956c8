import HibtDesk.Library.Trace

/-! The loop that keeps the rendezvous mediators running. A restart is asked for by a flag,
which the mediators look at and which the loop takes back before it starts them again.
Each access to a flag or to the options is one step. -/
namespace HibtDesk.Rendezvous

/-- Where `start_all` stands in its loop. -/
inductive Position where
  | head
  /-- At `get_rendezvous_servers`. -/
  | readServers
  | clearShouldExit (servers : List String)
  | clearManualRestarted (servers : List String)
  | spawning (servers : List String)
  /-- At `join_all`. -/
  | joining
  | closeConnections
  /-- After `reset_online`, before the pause. -/
  | pause
  | sleeping
  deriving DecidableEq, Repr

/-- A mediator, which has ended once it is about to set `SHOULD_EXIT`. -/
structure Mediator where
  host : String
  ended : Bool
  deriving DecidableEq, Repr

/-- The options, the flags, the loop with its mediators, and the calls of `restart`: how
many there were, how many have not set the second flag yet, and how many there were when
the servers were read last. -/
structure State where
  servers : List String
  stopService : Bool
  shouldExit : Bool
  manualRestarted : Bool
  position : Position
  mediators : List Mediator
  restarts : Nat
  restarting : Nat
  restartsRead : Nat
  deriving DecidableEq, Repr

inductive Event where
  /-- The loop goes on. -/
  | loop
  /-- Options are written. -/
  | configure (servers : List String) (stopService : Bool)
  /-- `restart` sets the one flag, and then the other. -/
  | restart
  | restartManual
  /-- A mediator ends, on `SHOULD_EXIT` or with an error, and then sets the flag. -/
  | exit (i : Nat)
  | exited (i : Nat)
  deriving DecidableEq, Repr

namespace State

def start (servers : List String) (stopService : Bool) : State where
  servers := servers
  stopService := stopService
  shouldExit := false
  manualRestarted := false
  position := .head
  mediators := []
  restarts := 0
  restarting := 0
  restartsRead := 0

/-- One step of `start_all`. -/
def loop (s : State) : State :=
  match s.position with
  | .head => { s with position := if s.stopService then .closeConnections else .readServers }
  | .readServers => { s with position := .clearShouldExit s.servers, restartsRead := s.restarts }
  | .clearShouldExit servers =>
      { s with shouldExit := false, position := .clearManualRestarted servers }
  | .clearManualRestarted servers =>
      { s with manualRestarted := false, position := .spawning servers }
  | .spawning [] => { s with position := .joining }
  | .spawning (host :: rest) =>
      { s with mediators := s.mediators ++ [⟨host, false⟩], position := .spawning rest }
  | .joining => if s.mediators = [] then { s with position := .pause } else s
  | .closeConnections => { s with position := .pause }
  | .pause => { s with position := .sleeping }
  | .sleeping => { s with position := .head }

def step (s : State) : Event → State
  | .loop => s.loop
  | .configure servers stopService => { s with servers := servers, stopService := stopService }
  | .restart =>
      { s with shouldExit := true, restarts := s.restarts + 1, restarting := s.restarting + 1 }
  | .restartManual =>
      if s.restarting = 0 then s
      else { s with manualRestarted := true, restarting := s.restarting - 1 }
  | .exit i => { s with mediators := s.mediators.modify i fun mediator => { mediator with ended := true } }
  | .exited i =>
      match s.mediators[i]? with
      | some ⟨_, true⟩ => { s with shouldExit := true, mediators := s.mediators.eraseIdx i }
      | _ => s

/-- Mediators that are not told to exit work on servers read after the last `restart`. -/
def UpToDate (s : State) : Prop :=
  (∃ mediator ∈ s.mediators, mediator.ended = false) → s.shouldExit = false →
    s.restartsRead = s.restarts

/-- `restart` is not called between the reading of the servers and the clearing of the flag. -/
def NotOverlooked (s : State) : Event → Prop
  | .restart => ∀ servers, s.position ≠ .clearShouldExit servers
  | _ => True

instance (s : State) : ∀ event, Decidable (s.NotOverlooked event)
  | .restart =>
      match hPosition : s.position with
      | .clearShouldExit servers => .isFalse fun hNot => hNot servers hPosition
      | .head | .readServers | .clearManualRestarted _ | .spawning _ | .joining | .closeConnections
      | .pause | .sleeping => .isTrue fun servers hAt => by rw [hPosition] at hAt; cases hAt
  | .loop | .configure _ _ | .restartManual | .exit _ | .exited _ => .isTrue trivial

/-- The flag is down only for mediators that know of the last `restart`, and there are
mediators only while the loop starts them or waits for them. -/
structure Current (s : State) : Prop where
  reading : ∀ servers, s.position = .clearShouldExit servers → s.restartsRead = s.restarts
  started : s.position = .joining ∨ (∃ servers, s.position = .spawning servers) ∨
    (∃ servers, s.position = .clearManualRestarted servers) → s.shouldExit = false →
      s.restartsRead = s.restarts
  none : s.position ≠ .joining → (∀ servers, s.position ≠ .spawning servers) → s.mediators = []

theorem current_start (servers : List String) (stopService : Bool) :
    (start servers stopService).Current where
  reading := nofun
  started := by rintro (h | ⟨_, h⟩ | ⟨_, h⟩) <;> cases h
  none _ _ := rfl

theorem Current.upToDate {s : State} (hCurrent : s.Current) : s.UpToDate := by
  rintro ⟨mediator, hMediator, -⟩ hExit
  have hSome : s.mediators ≠ [] := List.ne_nil_of_mem hMediator
  refine hCurrent.started ?_ hExit
  by_contra hNot
  push Not at hNot
  exact hSome (hCurrent.none hNot.1 hNot.2.1)

theorem Current.loop {s : State} (hCurrent : s.Current) : s.loop.Current := by
  have hNone := hCurrent.none
  have hStarted := hCurrent.started
  unfold State.loop
  split
  · rename_i hAt
    have hEmpty := hNone (by simp [hAt]) (by simp [hAt])
    refine ⟨fun servers h => ?_, fun h => ?_, fun _ _ => hEmpty⟩ <;> dsimp only at h <;>
      split at h <;> simp at h
  · rename_i hAt
    have hEmpty := hNone (by simp [hAt]) (by simp [hAt])
    exact ⟨fun _ _ => rfl, fun h => by simp at h, fun _ _ => hEmpty⟩
  · rename_i servers hAt
    have hEmpty := hNone (by simp [hAt]) (by simp [hAt])
    exact ⟨nofun, fun _ _ => hCurrent.reading servers hAt, fun _ _ => hEmpty⟩
  · rename_i servers hAt
    refine ⟨nofun, fun _ hExit => ?_, fun _ h => absurd rfl (h servers)⟩
    exact hStarted (Or.inr (Or.inr ⟨servers, hAt⟩)) hExit
  · rename_i hAt
    refine ⟨nofun, fun _ hExit => ?_, fun h => absurd rfl h⟩
    exact hStarted (Or.inr (Or.inl ⟨[], hAt⟩)) hExit
  · rename_i host rest hAt
    refine ⟨nofun, fun _ hExit => ?_, fun _ h => absurd rfl (h rest)⟩
    exact hStarted (Or.inr (Or.inl ⟨host :: rest, hAt⟩)) hExit
  · split
    · rename_i hEmpty
      exact ⟨nofun, fun h => by simp at h, fun _ _ => hEmpty⟩
    · exact hCurrent
  · rename_i hAt
    have hEmpty := hNone (by simp [hAt]) (by simp [hAt])
    exact ⟨nofun, fun h => by simp at h, fun _ _ => hEmpty⟩
  · rename_i hAt
    have hEmpty := hNone (by simp [hAt]) (by simp [hAt])
    exact ⟨nofun, fun h => by simp at h, fun _ _ => hEmpty⟩
  · rename_i hAt
    have hEmpty := hNone (by simp [hAt]) (by simp [hAt])
    exact ⟨nofun, fun h => by simp at h, fun _ _ => hEmpty⟩

theorem Current.step {s : State} (hCurrent : s.Current) (event : Event)
    (hNot : s.NotOverlooked event) : (s.step event).Current := by
  cases event with
  | loop => exact hCurrent.loop
  | configure servers stopService => exact ⟨hCurrent.reading, hCurrent.started, hCurrent.none⟩
  | restart =>
      exact ⟨fun servers hAt => absurd hAt (hNot servers), fun _ hExit => Bool.noConfusion hExit,
        hCurrent.none⟩
  | restartManual =>
      rw [State.step]
      split
      · exact hCurrent
      · exact ⟨hCurrent.reading, hCurrent.started, hCurrent.none⟩
  | exit i =>
      refine ⟨hCurrent.reading, hCurrent.started, fun hJoining hSpawning => ?_⟩
      have hEmpty := hCurrent.none hJoining hSpawning
      simp [State.step, hEmpty]
  | exited i =>
      rw [State.step]
      split
      · refine ⟨hCurrent.reading, fun _ hExit => Bool.noConfusion hExit, fun hJoining hSpawning => ?_⟩
        have hEmpty := hCurrent.none hJoining hSpawning
        simp [hEmpty]
      · exact hCurrent

/-- In a run in which no `restart` falls between the reading of the servers and the clearing
of the flag, mediators that are not told to exit know of the last `restart`. -/
theorem upToDate_of_notOverlooked {servers : List String} {stopService : Bool} {events : List Event}
    (hRun : Trace.Always step NotOverlooked (start servers stopService) events) :
    ∀ past, past <+: events → (Trace.run step (start servers stopService) past).UpToDate := by
  rintro past ⟨rest, rfl⟩
  have hPast := ((Trace.always_append step _ past rest).mp hRun).1
  exact (Trace.invariant_of_always step Current (fun _ event hNot hCurrent => hCurrent.step event hNot)
    (current_start servers stopService) hPast).upToDate

/-- The mediators are started, and started again for other servers after a `restart`. -/
def restartedInTime : List Event :=
  List.replicate 6 .loop ++ [.configure ["b"] false, .restart, .restartManual, .exit 0, .exited 0] ++
    List.replicate 9 .loop

theorem restartedInTime_upToDate : (Trace.run step (start ["a"] false) restartedInTime).UpToDate :=
  upToDate_of_notOverlooked (by decide) restartedInTime List.prefix_rfl

/-- The servers are changed after they have been read and before the flag is cleared. -/
def overlooked : List Event :=
  [.loop, .loop, .configure ["b"] false, .restart, .restartManual, .loop, .loop, .loop]

/-- The mediator of the old server is left running. -/
theorem overlooked_not_upToDate : ¬ (Trace.run step (start ["a"] false) overlooked).UpToDate := by
  intro hUpToDate
  exact absurd (hUpToDate ⟨⟨"a", false⟩, by decide, rfl⟩ rfl) (by decide)

end State

end HibtDesk.Rendezvous
