import HibtDesk.Library.Trace

/-! Recording on the client. The loop of the client keeps what the user wants and what the
peer permits, and tells the video threads when the two together change. A thread that makes
its handler reads both flags, one after the other. -/
namespace HibtDesk.Video.Recording

/-- What the channel of a video thread carries: something to decode, or a command. -/
inductive MediaData where
  | video
  | recordScreen (start : Bool)
  deriving DecidableEq, Repr

/-- Where a video thread is: at its channel, or on its way to a new handler. -/
inductive Stage where
  | waiting
  | readState
  | readPermission (state : Bool)
  | create (state permission : Bool)
  deriving DecidableEq, Repr

/-- A video thread, with whether its handler is recording if it has one. -/
structure Thread where
  display : Nat
  channel : List MediaData
  stage : Stage
  handler : Option Bool
  deriving DecidableEq, Repr

/-- Where the loop is: between two messages, in `update_record_state`, or about to send the
first frame to a new thread. The frame of `next` is sent after the update. -/
inductive Position where
  | idle
  | readPermission (next : Option Nat)
  | clearState (next : Option Nat)
  | readState (permission : Bool) (next : Option Nat)
  | sending (start : Bool) (i : Nat) (next : Option Nat)
  | sendFrame (i : Nat)
  deriving DecidableEq, Repr

structure State where
  recordState : Bool
  recordPermission : Bool
  lastRecordState : Bool
  threads : List Thread
  position : Position
  deriving DecidableEq, Repr

inductive Event where
  /-- The user asks for recording, or no longer wants it. -/
  | recordScreen (start : Bool)
  /-- The peer grants or revokes the permission. -/
  | permission (enabled : Bool)
  /-- A frame comes. The option for outgoing recordings is looked at for a first thread. -/
  | videoFrame (display : Nat) (autoRecord : Bool)
  /-- The loop goes on with the message at hand. -/
  | loop
  /-- A thread goes on. What stands for a frame may come to nothing. -/
  | thread (i : Nat) (found : Bool)
  deriving DecidableEq, Repr

namespace State

/-- The flags are those of the session, and may be left from an earlier connection. -/
def start (recordState recordPermission : Bool) : State where
  recordState := recordState
  recordPermission := recordPermission
  lastRecordState := false
  threads := []
  position := .idle

def post (s : State) (i : Nat) (data : MediaData) : State :=
  { s with threads := s.threads.modify i fun thread => { thread with channel := thread.channel ++ [data] } }

def resume : Option Nat → Position
  | none => .idle
  | some i => .sendFrame i

/-- `new_video_thread`, before the first frame is sent to the thread. -/
def newVideoThread (s : State) (display : Nat) (autoRecord : Bool) : State :=
  let i := s.threads.length
  let thread : Thread := { display := display, channel := [], stage := .waiting, handler := none }
  let s := { s with threads := s.threads ++ [thread] }
  if i = 0 then { s with recordState := autoRecord, position := .readPermission (some i) }
  else { s with position := .sendFrame i }

/-- One step of `update_record_state`, or the first frame after it. -/
def loop (s : State) : State :=
  match s.position with
  | .idle => s
  | .readPermission next =>
      { s with position := if s.recordPermission then .readState true next else .clearState next }
  | .clearState next => { s with recordState := false, position := .readState false next }
  | .readState permission next =>
      let start := s.recordState && permission
      if s.lastRecordState = start then { s with position := resume next }
      else { s with lastRecordState := start, position := .sending start 0 next }
  | .sending start i next =>
      if i < s.threads.length then
        { s.post i (.recordScreen start) with position := .sending start (i + 1) next }
      else { s with position := resume next }
  | .sendFrame i => { s.post i .video with position := .idle }

/-- One step of the thread of `start_video_thread`. -/
def goOn (s : State) (found : Bool) (thread : Thread) : Thread :=
  match thread.stage with
  | .waiting =>
      match thread.channel with
      | [] => thread
      | .video :: rest =>
          { thread with
            channel := rest
            stage := if found && thread.handler.isNone then .readState else .waiting }
      | .recordScreen start :: rest =>
          { thread with channel := rest, handler := thread.handler.map fun _ => start }
  | .readState => { thread with stage := .readPermission s.recordState }
  | .readPermission state => { thread with stage := .create state s.recordPermission }
  | .create state permission =>
      { thread with stage := .waiting, handler := some (state && permission) }

def step (s : State) : Event → State
  | .recordScreen start =>
      if s.position = .idle then { s with recordState := start, position := .readPermission none } else s
  | .permission enabled =>
      if s.position = .idle then { s with recordPermission := enabled, position := .readPermission none }
      else s
  | .videoFrame display autoRecord =>
      if s.position = .idle then
        match s.threads.findIdx? (·.display == display) with
        | some i => s.post i .video
        | none => s.newVideoThread display autoRecord
      else s
  | .loop => s.loop
  | .thread i found => { s with threads := s.threads.modify i (s.goOn found) }

/-- What the threads should do. -/
def target (s : State) : Bool := s.recordState && s.recordPermission

/-- Between two messages, a thread that has emptied its channel records exactly if both flags
are set. -/
def Follows (s : State) : Prop :=
  s.position = .idle → ∀ thread ∈ s.threads, thread.channel = [] → thread.stage = .waiting →
    ∀ recording, thread.handler = some recording → recording = s.target

/-- No thread reads that recording is wanted where it is not permitted, in a moment in which
the wish is about to be taken back without a word to the threads. -/
def NotMisled (s : State) : Event → Prop
  | .thread i _ => ∀ thread, s.threads[i]? = some thread → thread.stage = .readState →
      ¬ (s.recordState = true ∧ s.recordPermission = false ∧ s.lastRecordState = false)
  | _ => True

instance (s : State) : ∀ event, Decidable (s.NotMisled event)
  | .thread i found =>
      match hThread : s.threads[i]? with
      | none => .isTrue fun thread h => by rw [hThread] at h; cases h
      | some thread =>
          decidable_of_iff (thread.stage = .readState →
            ¬ (s.recordState = true ∧ s.recordPermission = false ∧ s.lastRecordState = false))
            ⟨fun h found hFound => by
              obtain rfl := Option.some.inj (hThread.symm.trans hFound)
              exact h, fun h => h thread hThread⟩
  | .recordScreen _ | .permission _ | .videoFrame _ _ | .loop => .isTrue trivial

end State

namespace Thread

/-- The last command in a channel. -/
def lastRecord (channel : List MediaData) : Option Bool :=
  channel.foldl (fun last data =>
    match data with
    | .video => last
    | .recordScreen start => some start) none

/-- What is known by now of the handler that is there or is being made. -/
def value (thread : Thread) : Option Bool :=
  match thread.stage with
  | .waiting => thread.handler
  | .readState => none
  | .readPermission state => some state
  | .create state permission => some (state && permission)

/-- Unless a command is still to be sent, the last one in the channel says what the thread
should do, or the thread is doing it. -/
structure Steady (due : Prop) (target : Bool) (thread : Thread) : Prop where
  commanded : ¬ due → ∀ start, lastRecord thread.channel = some start → start = target
  settled : ¬ due → lastRecord thread.channel = none → ∀ value, thread.value = some value →
    value = target

theorem lastRecord_concat (channel : List MediaData) (data : MediaData) :
    lastRecord (channel ++ [data]) =
      match data with
      | .video => lastRecord channel
      | .recordScreen start => some start := by
  simp [lastRecord]

theorem lastRecord_cons (data : MediaData) (channel : List MediaData) :
    lastRecord (data :: channel) =
      (lastRecord channel).or
        (match data with
          | .video => none
          | .recordScreen start => some start) := by
  induction channel using List.reverseRecOn with
  | nil => cases data <;> rfl
  | append_singleton channel last ih =>
      rw [← List.cons_append, lastRecord_concat, lastRecord_concat, ih]
      cases last <;> simp

variable {due : Prop} {target : Bool} {thread : Thread}

theorem Steady.video (hSteady : Steady due target thread) :
    Steady due target { thread with channel := thread.channel ++ [.video] } where
  commanded hNot start hLast := hSteady.commanded hNot start (by simpa [lastRecord_concat] using hLast)
  settled hNot hNone := hSteady.settled hNot (by simpa [lastRecord_concat] using hNone)

theorem steady_recordScreen (due : Prop) (target : Bool) (thread : Thread) :
    Steady due target { thread with channel := thread.channel ++ [.recordScreen target] } where
  commanded _ start hLast := by
    rw [lastRecord_concat] at hLast
    exact (Option.some.inj hLast).symm
  settled _ hNone := by simp [lastRecord_concat] at hNone

/-- Where the target changes, a command is due. -/
theorem Steady.retarget {last new : Bool} (hSteady : Steady due target thread) (hNot : ¬ due)
    (hLast : last = target) : Steady (last ≠ new) new thread where
  commanded hNew start hStart := by
    rw [← not_ne_iff.mp hNew, hLast]
    exact hSteady.commanded hNot start hStart
  settled hNew hNone value hValue := by
    rw [← not_ne_iff.mp hNew, hLast]
    exact hSteady.settled hNot hNone value hValue

theorem Steady.weaken {later : Prop} (hSteady : Steady due target thread) (hLater : due → later) :
    Steady later target thread where
  commanded hNot := hSteady.commanded fun hDue => hNot (hLater hDue)
  settled hNot := hSteady.settled fun hDue => hNot (hLater hDue)

/-- A thread that goes on stays on its way to what it should do. -/
theorem Steady.goOn {s : State} (hSteady : Steady due s.target thread) (found : Bool)
    (hRead : thread.stage = .readState → ¬ due → s.recordState = s.target) :
    Steady due s.target (s.goOn found thread) := by
  obtain ⟨hCommanded, hSettled⟩ := hSteady
  unfold State.goOn
  cases hStage : thread.stage with
  | waiting =>
      cases hChannel : thread.channel with
      | nil => exact ⟨hCommanded, hSettled⟩
      | cons data rest =>
          rw [hChannel] at hCommanded hSettled
          simp only [lastRecord_cons] at hCommanded hSettled
          cases data with
          | video =>
              simp only [Option.or_none, value, hStage] at hCommanded hSettled
              refine ⟨hCommanded, fun hNot hNone x hValue => ?_⟩
              dsimp only [value] at hValue
              split at hValue
              · rename_i hAt
                exact hSettled hNot hNone x hValue
              · cases hValue
              · rename_i hAt
                split at hAt <;> cases hAt
              · rename_i hAt
                split at hAt <;> cases hAt
          | recordScreen start =>
              refine ⟨fun hNot last hLast => hCommanded hNot last (by
                have hSome : lastRecord rest = some last := hLast
                simp [hSome]), fun hNot hNone x hValue => ?_⟩
              have hNone : lastRecord rest = none := hNone
              have hStart := hCommanded hNot start (by simp [hNone])
              simp only [value, Option.map_eq_some_iff] at hValue
              obtain ⟨_, -, rfl⟩ := hValue
              exact hStart
  | readState =>
      refine ⟨hCommanded, fun hNot hNone x hValue => ?_⟩
      rw [← Option.some.inj hValue]
      exact hRead hStage hNot
  | readPermission state =>
      refine ⟨hCommanded, fun hNot hNone x hValue => ?_⟩
      have hState : state = s.target := hSettled hNot hNone state (by simp [value, hStage])
      rw [← Option.some.inj hValue, hState]
      -- What is wanted and permitted is permitted.
      unfold State.target
      cases s.recordState <;> cases s.recordPermission <;> rfl
  | create state permission =>
      refine ⟨hCommanded, fun hNot hNone x hValue => ?_⟩
      refine hSettled hNot hNone x ?_
      simpa only [value, hStage] using hValue

end Thread

namespace State

/-- The thread is still to be sent a command for what has changed. -/
def Due (s : State) (i : Nat) : Prop :=
  match s.position with
  | .idle | .sendFrame _ => False
  | .readPermission _ | .clearState _ | .readState _ _ => s.lastRecordState ≠ s.target
  | .sending _ k _ => k ≤ i

/-- What is known of the flags at each place of the loop. -/
def Flags (s : State) : Prop :=
  match s.position with
  | .idle | .sendFrame _ =>
      s.threads ≠ [] → s.lastRecordState = s.target ∧ (s.recordState = true → s.recordPermission = true)
  | .readPermission _ => True
  | .clearState _ => s.recordPermission = false
  | .readState permission _ =>
      permission = s.recordPermission ∧ (s.recordState = true → s.recordPermission = true)
  | .sending start _ _ =>
      start = s.target ∧ s.lastRecordState = s.target ∧ (s.recordState = true → s.recordPermission = true)

/-- Every thread is on its way to what it should do. -/
structure Tracked (s : State) : Prop where
  flags : s.Flags
  threads : ∀ (i : Nat) (thread : Thread), s.threads[i]? = some thread →
    Thread.Steady (s.Due i) s.target thread

theorem tracked_start (recordState recordPermission : Bool) : (start recordState recordPermission).Tracked where
  flags := fun h => absurd rfl h
  threads := nofun

section Steps
variable {s : State}

theorem Tracked.follows (hTracked : s.Tracked) : s.Follows := by
  intro hIdle thread hThread hEmpty hWaiting recording hRecording
  obtain ⟨i, hi⟩ := List.mem_iff_getElem?.mp hThread
  have hNot : ¬ s.Due i := by simp [Due, hIdle]
  refine (hTracked.threads i thread hi).settled hNot (by rw [hEmpty]; rfl) recording ?_
  rw [Thread.value, hWaiting]
  exact hRecording

/-- What is wanted is what should be done wherever it has been checked. -/
theorem Tracked.wanted (hTracked : s.Tracked) {i : Nat} (hSome : s.threads ≠ [])
    (hNot : ¬ s.Due i)
    (hRead : ¬ (s.recordState = true ∧ s.recordPermission = false ∧ s.lastRecordState = false)) :
    s.recordState = s.target := by
  have hImplied : (s.recordState = true → s.recordPermission = true) → s.recordState = s.target := by
    intro hPermitted
    unfold target
    cases hState : s.recordState
    · rfl
    · rw [hPermitted hState]
      rfl
  have hFlags := hTracked.flags
  unfold Flags at hFlags
  unfold Due at hNot
  have hLast : s.lastRecordState = s.target → s.recordState = s.target := by
    intro hSame
    refine hImplied fun hState => ?_
    cases hPermission : s.recordPermission
    · refine absurd ⟨hState, hPermission, ?_⟩ hRead
      rw [hSame, target, hState, hPermission]
      rfl
    · rfl
  split at hFlags
  · exact hImplied (hFlags hSome).2
  · exact hImplied (hFlags hSome).2
  · rename_i hAt
    rw [hAt] at hNot
    exact hLast (not_ne_iff.mp hNot)
  · rename_i hAt
    rw [hAt] at hNot
    exact hLast (not_ne_iff.mp hNot)
  · exact hImplied hFlags.2
  · exact hImplied hFlags.2.2

/-- One of the flags changes between two messages. -/
theorem Tracked.retarget (hTracked : s.Tracked) (hIdle : s.position = .idle)
    (recordState recordPermission : Bool) :
    { s with
      recordState := recordState
      recordPermission := recordPermission
      position := .readPermission none }.Tracked where
  flags := trivial
  threads i thread hThread := by
    have hFlags := hTracked.flags
    rw [Flags, hIdle] at hFlags
    have hSome : s.threads ≠ [] := by
      intro hNil
      have hThread : s.threads[i]? = some thread := hThread
      simp [hNil] at hThread
    exact (hTracked.threads i thread hThread).retarget (by simp [Due, hIdle]) (hFlags hSome).1

/-- The loop moves on without a change of what is to be done or still due. -/
theorem Tracked.move (hTracked : s.Tracked) {t : State} (hThreads : t.threads = s.threads)
    (hTarget : t.target = s.target) (hFlags : t.Flags) (hDue : ∀ i, s.Due i → t.Due i) : t.Tracked where
  flags := hFlags
  threads i thread hThread := by
    rw [hTarget]
    rw [hThreads] at hThread
    exact (hTracked.threads i thread hThread).weaken (hDue i)

theorem flags_resume {next : Option Nat} (hPosition : s.position = resume next)
    (hLast : s.lastRecordState = s.target) (hPermitted : s.recordState = true → s.recordPermission = true) :
    s.Flags := by
  unfold Flags
  rw [hPosition]
  cases next <;> exact fun _ => ⟨hLast, hPermitted⟩

theorem Tracked.loop (hTracked : s.Tracked) : s.loop.Tracked := by
  have hFlags := hTracked.flags
  unfold Flags at hFlags
  unfold State.loop
  split
  · exact hTracked
  · rename_i next hAt
    have hDue : ∀ i, s.Due i → s.lastRecordState ≠ s.target := fun i h => by simpa [Due, hAt] using h
    split
    · rename_i hPermission
      exact hTracked.move rfl rfl ⟨hPermission.symm, fun _ => hPermission⟩ fun i h => hDue i h
    · rename_i hPermission
      have hRevoked : s.recordPermission = false := by simpa using hPermission
      exact hTracked.move rfl rfl hRevoked fun i h => hDue i h
  · rename_i next hAt
    rw [hAt] at hFlags
    have hTarget : s.target = false := by simp [target, hFlags]
    refine hTracked.move rfl (by rw [hTarget]; rfl) ⟨hFlags.symm, fun h => by cases h⟩ fun i h => ?_
    have hDue : s.lastRecordState ≠ s.target := by simpa [Due, hAt] using h
    rw [hTarget] at hDue
    exact hDue
  · rename_i permission next hAt
    rw [hAt] at hFlags
    obtain ⟨rfl, hPermitted⟩ := hFlags
    dsimp only
    split
    · rename_i hSame
      refine hTracked.move rfl rfl (flags_resume rfl hSame hPermitted) fun i h => ?_
      have hDue : s.lastRecordState ≠ s.target := by simpa [Due, hAt] using h
      exact absurd hSame hDue
    · exact hTracked.move rfl rfl ⟨rfl, rfl, hPermitted⟩ fun i _ => Nat.zero_le i
  · rename_i start k next hAt
    rw [hAt] at hFlags
    obtain ⟨rfl, hLast, hPermitted⟩ := hFlags
    split
    · refine ⟨⟨rfl, hLast, hPermitted⟩, fun i thread hThread => ?_⟩
      obtain ⟨before, hBefore, rfl⟩ := Trace.getElem?_modify_cases hThread
      split
      · rename_i hSame
        subst hSame
        exact Thread.steady_recordScreen _ _ before
      · rename_i hOther
        refine (hTracked.threads i _ hBefore).weaken fun hDue => ?_
        have hLe : k ≤ i := by simpa [Due, hAt] using hDue
        change k + 1 ≤ i
        omega
    · rename_i hAll
      refine ⟨flags_resume rfl hLast hPermitted, fun i thread hThread => ?_⟩
      have hLt := (List.getElem?_eq_some_iff.mp hThread).choose
      have hLength : ¬ k < s.threads.length := hAll
      have hNot : ¬ s.Due i := by
        simp only [Due, hAt, Nat.not_le]
        change i < s.threads.length at hLt
        omega
      exact (hTracked.threads i thread hThread).weaken fun hDue => absurd hDue hNot
  · rename_i k hAt
    rw [hAt] at hFlags
    refine ⟨fun hSome => hFlags ?_, fun i thread hThread => ?_⟩
    · intro hNil
      exact hSome (by simp [State.post, hNil])
    · obtain ⟨before, hBefore, rfl⟩ := Trace.getElem?_modify_cases hThread
      have hSteady : Thread.Steady False s.target before :=
        (hTracked.threads i before hBefore).weaken fun hDue => by simp [Due, hAt] at hDue
      split
      · exact hSteady.video
      · exact hSteady

theorem Tracked.videoFrame (hTracked : s.Tracked) (hIdle : s.position = .idle) (display : Nat)
    (autoRecord : Bool) : (s.step (.videoFrame display autoRecord)).Tracked := by
  have hFlags := hTracked.flags
  rw [Flags, hIdle] at hFlags
  rw [State.step, if_pos hIdle]
  split
  · rename_i k _
    refine ⟨?_, fun i thread hThread => ?_⟩
    · unfold Flags
      rw [State.post, hIdle]
      exact fun hSome => hFlags fun hNil => hSome (by simp [hNil])
    · obtain ⟨before, hBefore, rfl⟩ := Trace.getElem?_modify_cases hThread
      have hSteady := hTracked.threads i before hBefore
      split
      · exact hSteady.video
      · exact hSteady
  · -- A new thread has nothing in its channel, and no handler.
    have hNew : ∀ (due : Prop) (target : Bool) (i : Nat) (thread : Thread), (s.threads ++
        [{ display := display, channel := [], stage := .waiting, handler := none }])[i]? = some thread →
        (∀ before, s.threads[i]? = some before → before = thread →
          Thread.Steady due target thread) → Thread.Steady due target thread := by
      intro due target i thread hThread hOld
      rw [List.getElem?_append] at hThread
      split at hThread
      · exact hOld thread hThread rfl
      · obtain ⟨hLt, hEq⟩ := List.getElem?_eq_some_iff.mp hThread
        simp only [List.length_singleton, Nat.lt_one_iff] at hLt
        simp only [hLt, List.getElem_cons_zero] at hEq
        subst hEq
        exact ⟨nofun, nofun⟩
    unfold newVideoThread
    dsimp only
    split
    · rename_i hFirst
      refine ⟨trivial, fun i thread hThread => hNew _ _ i thread hThread fun before hBefore _ => ?_⟩
      rw [List.length_eq_zero_iff.mp hFirst] at hBefore
      cases hBefore
    · rename_i hMore
      have hSome : s.threads ≠ [] := fun hNil => hMore (by rw [hNil]; rfl)
      refine ⟨fun _ => hFlags hSome, fun i thread hThread =>
        hNew _ _ i thread hThread fun before hBefore hSame => ?_⟩
      subst hSame
      exact (hTracked.threads i before hBefore).weaken fun hDue => by simp [Due, hIdle] at hDue

theorem Tracked.step (hTracked : s.Tracked) (event : Event) (hNot : s.NotMisled event) :
    (s.step event).Tracked := by
  cases event with
  | recordScreen start =>
      rw [State.step]
      split
      · rename_i hIdle
        exact hTracked.retarget hIdle start s.recordPermission
      · exact hTracked
  | permission enabled =>
      rw [State.step]
      split
      · rename_i hIdle
        exact hTracked.retarget hIdle s.recordState enabled
      · exact hTracked
  | videoFrame display autoRecord =>
      by_cases hIdle : s.position = .idle
      · exact hTracked.videoFrame hIdle display autoRecord
      · rw [State.step, if_neg hIdle]
        exact hTracked
  | loop => exact hTracked.loop
  | thread k found =>
      refine ⟨?_, fun i thread hThread => ?_⟩
      · have hFlags := hTracked.flags
        have hEmpty : s.threads = [] → (s.threads.modify k (s.goOn found)) = [] := fun h => by simp [h]
        unfold Flags at hFlags
        unfold Flags
        rw [State.step]
        dsimp only
        split
        · rename_i hAt
          rw [hAt] at hFlags
          exact fun hSome => hFlags fun hNil => hSome (hEmpty hNil)
        · rename_i hAt
          rw [hAt] at hFlags
          exact fun hSome => hFlags fun hNil => hSome (hEmpty hNil)
        · trivial
        · rename_i hAt
          rw [hAt] at hFlags
          exact hFlags
        · rename_i hAt
          rw [hAt] at hFlags
          exact hFlags
        · rename_i hAt
          rw [hAt] at hFlags
          exact hFlags
      · obtain ⟨before, hBefore, rfl⟩ := Trace.getElem?_modify_cases hThread
        split
        · rename_i hSame
          subst hSame
          refine (hTracked.threads i before hBefore).goOn found fun hStage hNotDue => ?_
          refine hTracked.wanted ?_ hNotDue (hNot before hBefore hStage)
          intro hNil
          simp [hNil] at hBefore
        · exact hTracked.threads i before hBefore

end Steps

/-- In a run in which no thread is misled, recording follows the permission. -/
theorem follows_of_notMisled {recordState recordPermission : Bool} {events : List Event}
    (hRun : Trace.Always step NotMisled (start recordState recordPermission) events) :
    ∀ past, past <+: events → (Trace.run step (start recordState recordPermission) past).Follows := by
  rintro past ⟨rest, rfl⟩
  have hPast := ((Trace.always_append step _ past rest).mp hRun).1
  exact (Trace.invariant_of_always step Tracked (fun _ event hNot hTracked => hTracked.step event hNot)
    (tracked_start recordState recordPermission) hPast).follows

/-- The first frame, with recording on from the start, and then a revocation while the handler
is being made. -/
def revokedMeanwhile : List Event :=
  [.videoFrame 0 true, .loop, .loop, .loop, .loop, .loop, .thread 0 true, .thread 0 true,
    .thread 0 true, .permission false, .thread 0 true, .loop, .loop, .loop, .loop, .loop,
    .thread 0 true, .thread 0 true]

theorem revokedMeanwhile_follows : (Trace.run step (start false true) revokedMeanwhile).Follows :=
  follows_of_notMisled (by decide) revokedMeanwhile List.prefix_rfl

/-- Recording is not permitted. The user asks for it all the same while the handler is being
made, and the permission is granted before the handler is there. -/
def misled : List Event :=
  [.permission false, .loop, .loop, .loop, .videoFrame 0 false, .loop, .loop, .loop, .loop,
    .thread 0 true, .recordScreen true, .thread 0 true, .loop, .loop, .loop, .permission true, .loop,
    .loop, .thread 0 true, .thread 0 true]

/-- The handler records, though recording is no longer wanted. -/
theorem misled_not_follows : ¬ (Trace.run step (start false true) misled).Follows := by
  intro hFollows
  have hRecording := hFollows (by decide)
    { display := 0, channel := [], stage := .waiting, handler := some true } (by decide) rfl rfl true rfl
  exact absurd hRecording (by decide)

end State

end HibtDesk.Video.Recording
