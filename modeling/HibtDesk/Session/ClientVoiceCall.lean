import HibtDesk.Library.Trace

/-! Voice calls on the client. The pending request, the recorder and what the user wants are
kept apart: the request by its timestamp, the recorder by the sender that stops it. -/
namespace HibtDesk.Session.VoiceCall

/-- A recorder thread: it has been told to stop, by a message or since its sender is gone, and
it is subscribed to the audio service. It looks at the former at each of its turns. -/
structure Recorder where
  told : Bool
  subscribed : Bool
  deriving DecidableEq, Repr

def Recorder.streaming (recorder : Recorder) : Bool := recorder.subscribed && !recorder.told

inductive Event where
  /-- The user asks for a call, with the timestamp in the message and the time after it. -/
  | newVoiceCall (sent now : Int)
  | closeVoiceCall
  | voiceCallRequest (isConnect : Bool)
  | voiceCallResponse (timestamp : Int) (accepted : Bool)
  /-- Anything else that the loop handles. -/
  | other
  | exitLoop
  /-- The turn of a recorder. -/
  | poll (i : Nat)
  deriving DecidableEq, Repr

def requestTimestamp (sent now : Int) : Int := if sent = 0 then now else sent

/-- What the two sides have agreed on: the latest call was asked for, it was accepted, or it
was closed by one of them, as before the first one. -/
inductive Wish where
  | closed
  | asked (timestamp : Int)
  | accepted
  deriving DecidableEq, Repr

def Wish.after (wish : Wish) : Event → Wish
  | .newVoiceCall sent now => .asked (requestTimestamp sent now)
  | .closeVoiceCall | .voiceCallRequest false => .closed
  | .voiceCallResponse timestamp true => if wish = .asked timestamp then .accepted else wish
  | _ => wish

/-- What `Remote` keeps of voice calls, on a session that can record or cannot, with the
recorders that were ever started and what was agreed on. -/
structure State where
  records : Bool
  voiceCallRequestTimestamp : Option Int
  stopVoiceCallSender : Option Nat
  recorders : List Recorder
  ended : Bool
  wish : Wish
  deriving DecidableEq, Repr

namespace State

def start (records : Bool) : State where
  records := records
  voiceCallRequestTimestamp := none
  stopVoiceCallSender := none
  recorders := []
  ended := false
  wish := .closed

/-- The recorder whose sender is held is told to stop, and the sender is gone. -/
def stopVoiceCall (s : State) : State :=
  match s.stopVoiceCallSender with
  | some i =>
      { s with
        recorders := s.recorders.modify i fun recorder => { recorder with told := true }
        stopVoiceCallSender := none }
  | none => s

/-- The sender of a new recorder takes the place of the one that is held. -/
def startVoiceCall (s : State) : State :=
  if s.records then
    let i := s.recorders.length
    let s := s.stopVoiceCall
    { s with
      recorders := s.recorders ++ [{ told := false, subscribed := true }]
      stopVoiceCallSender := some i }
  else s.stopVoiceCall

/-- What the loop does with an event. -/
def handle (s : State) : Event → State
  | .newVoiceCall sent now => { s with voiceCallRequestTimestamp := some (requestTimestamp sent now) }
  | .closeVoiceCall => s.stopVoiceCall
  | .voiceCallRequest isConnect => if isConnect then s else s.stopVoiceCall
  | .voiceCallResponse timestamp accepted =>
      let kept := s.voiceCallRequestTimestamp
      let s := { s with voiceCallRequestTimestamp := none }
      if kept = some timestamp ∧ accepted = true then s.startVoiceCall else s
  | .exitLoop => { s.stopVoiceCall with ended := true }
  | .other | .poll _ => s

def step (s : State) : Event → State
  | .poll i =>
      { s with
        recorders := s.recorders.modify i fun recorder =>
          if recorder.told then { recorder with subscribed := false } else recorder }
  | event => if s.ended then s else { s.handle event with wish := s.wish.after event }

/-- At most one recorder streams, and it streams in a call that was accepted. -/
structure OnlyWanted (s : State) : Prop where
  one : ∀ i j : Nat, (s.recorders[i]?.any Recorder.streaming) = true →
    (s.recorders[j]?.any Recorder.streaming) = true → i = j
  wanted : ∀ i : Nat, (s.recorders[i]?.any Recorder.streaming) = true → s.wish = .accepted

/-- Nobody asks for a call while a recorder is running, and no call is accepted that was
closed before. -/
def Agreed (s : State) : Event → Prop
  | .newVoiceCall _ _ => s.ended = false → s.stopVoiceCallSender = none
  | .voiceCallResponse timestamp true => s.ended = false → s.records = true →
      s.voiceCallRequestTimestamp = some timestamp → s.wish = .asked timestamp
  | _ => True

/-- The recorder that streams is the one whose sender is held, and it does in an accepted call.
A request that is pending has not been answered. -/
structure Held (s : State) : Prop where
  streams : ∀ i : Nat, (s.recorders[i]?.any Recorder.streaming) = true ↔ s.stopVoiceCallSender = some i
  accepted : ∀ i, s.stopVoiceCallSender = some i → s.wish = .accepted
  pending : ∀ timestamp, s.voiceCallRequestTimestamp = some timestamp →
    s.wish = .asked timestamp ∨ s.wish = .closed
  records : ∀ i, s.stopVoiceCallSender = some i → s.records = true

theorem held_start (records : Bool) : (start records).Held where
  streams := by simp [start]
  accepted := nofun
  pending := nofun
  records := nofun

section Steps
variable {s : State}

theorem Held.onlyWanted (hHeld : s.Held) : s.OnlyWanted where
  one i j hi hj := by
    have hSame := ((hHeld.streams i).mp hi).symm.trans ((hHeld.streams j).mp hj)
    exact Option.some.inj hSame
  wanted i hi := hHeld.accepted i ((hHeld.streams i).mp hi)

theorem any_modify (recorders : List Recorder) (k i : Nat) (f : Recorder → Recorder) :
    ((recorders.modify k f)[i]?).any Recorder.streaming =
      if k = i then recorders[i]?.any (Recorder.streaming ∘ f)
      else recorders[i]?.any Recorder.streaming := by
  rw [List.getElem?_modify]
  by_cases hSame : k = i
  · subst hSame
    cases recorders[k]? <;> simp
  · cases recorders[i]? <;> simp [hSame]

/-- Once it is told to stop, no recorder streams. -/
theorem Held.stopped (hHeld : s.Held) (i : Nat) :
    (s.stopVoiceCall.recorders[i]?.any Recorder.streaming) = false ∧
      s.stopVoiceCall.stopVoiceCallSender = none := by
  unfold stopVoiceCall
  cases hSender : s.stopVoiceCallSender with
  | none =>
      refine ⟨?_, hSender⟩
      have hStreams := hHeld.streams i
      simpa [hSender] using hStreams
  | some k =>
      refine ⟨?_, rfl⟩
      dsimp only
      rw [any_modify]
      split
      · cases s.recorders[i]? <;> simp [Recorder.streaming]
      · rename_i hOther
        have hStreams := hHeld.streams i
        rw [hSender] at hStreams
        simpa [hOther] using hStreams

theorem stopVoiceCall_rest (s : State) :
    s.stopVoiceCall.voiceCallRequestTimestamp = s.voiceCallRequestTimestamp ∧
      s.stopVoiceCall.records = s.records ∧
        s.stopVoiceCall.recorders.length = s.recorders.length := by
  unfold stopVoiceCall
  split <;> simp

theorem Held.stop (hHeld : s.Held) {wish : Wish} {ended : Bool}
    (hPending : ∀ timestamp, s.voiceCallRequestTimestamp = some timestamp →
      wish = .asked timestamp ∨ wish = .closed) :
    { s.stopVoiceCall with wish := wish, ended := ended }.Held := by
  obtain ⟨hKept, -, -⟩ := stopVoiceCall_rest s
  refine ⟨fun i => ?_, fun i hSender => ?_, fun timestamp hAsked => ?_, fun i hSender => ?_⟩
  · obtain ⟨hStreams, hSender⟩ := hHeld.stopped i
    simp [hStreams, hSender]
  · have hNone := (hHeld.stopped 0).2.symm.trans hSender
    cases hNone
  · exact hPending timestamp (hKept.symm.trans hAsked)
  · have hNone := (hHeld.stopped 0).2.symm.trans hSender
    cases hNone

/-- With the call that was asked for, the only recorder starts to stream. -/
theorem Held.startVoiceCall (hHeld : s.Held) (hRecords : s.records = true) :
    { ({ s with voiceCallRequestTimestamp := none } : State).startVoiceCall with
      wish := .accepted }.Held := by
  have hNone : ({ s with voiceCallRequestTimestamp := none } : State).Held :=
    ⟨hHeld.streams, hHeld.accepted, nofun, hHeld.records⟩
  obtain ⟨hKept, hSame, hLength⟩ := stopVoiceCall_rest { s with voiceCallRequestTimestamp := none }
  unfold State.startVoiceCall
  rw [if_pos hRecords]
  refine ⟨fun i => ?_, fun _ _ => rfl, fun timestamp hAsked => ?_, fun _ _ => hSame.trans hRecords⟩
  · obtain ⟨hStreams, -⟩ := hNone.stopped i
    dsimp only
    rw [List.getElem?_append]
    split
    · rename_i hLt
      rw [hStreams]
      rw [hLength] at hLt
      simp only [Bool.false_eq_true, Option.some.injEq, false_iff]
      exact Nat.ne_of_gt hLt
    · rename_i hGe
      rw [hLength] at hGe ⊢
      by_cases hLast : i = s.recorders.length
      · subst hLast
        simp [Recorder.streaming]
      · have hAbsent : [({ told := false, subscribed := true } : Recorder)][i - s.recorders.length]? = none := by
          rw [List.getElem?_eq_none_iff, List.length_singleton]
          change ¬ i < s.recorders.length at hGe
          omega
        rw [hAbsent]
        simpa using Ne.symm hLast
  · have hNothing := hKept.symm.trans hAsked
    cases hNothing

theorem Held.poll (hHeld : s.Held) (i : Nat) : (s.step (.poll i)).Held := by
  refine ⟨fun j => ?_, hHeld.accepted, hHeld.pending, hHeld.records⟩
  change ((s.recorders.modify i _)[j]?).any Recorder.streaming = true ↔ s.stopVoiceCallSender = some j
  rw [← hHeld.streams j, any_modify]
  split
  · cases s.recorders[j]? with
    | none => exact Iff.rfl
    | some recorder =>
        obtain ⟨told, subscribed⟩ := recorder
        cases told <;> cases subscribed <;> exact Iff.rfl
  · exact Iff.rfl

theorem Held.step (hHeld : s.Held) (event : Event) (hAgreed : s.Agreed event) : (s.step event).Held := by
  by_cases hPoll : ∃ i, event = .poll i
  · obtain ⟨i, rfl⟩ := hPoll
    exact hHeld.poll i
  have hStep : s.step event =
      if s.ended then s else { s.handle event with wish := s.wish.after event } := by
    cases event with
    | poll i => exact absurd ⟨i, rfl⟩ hPoll
    | _ => rfl
  rw [hStep]
  split
  · exact hHeld
  rename_i hRunning
  have hRunning : s.ended = false := by simpa using hRunning
  cases event with
  | newVoiceCall sent now =>
      have hFree : s.stopVoiceCallSender = none := hAgreed hRunning
      refine ⟨hHeld.streams, fun i hSender => ?_, fun timestamp hAsked => ?_, fun i hSender => ?_⟩
      · have hNone := hFree.symm.trans hSender
        cases hNone
      · rw [← Option.some.inj hAsked]
        exact Or.inl rfl
      · exact hHeld.records i hSender
  | closeVoiceCall => exact hHeld.stop fun _ _ => Or.inr rfl
  | voiceCallRequest isConnect =>
      cases isConnect with
      | true => exact hHeld
      | false => exact hHeld.stop fun _ _ => Or.inr rfl
  | voiceCallResponse timestamp accepted =>
      -- What is agreed on changes with a matching response only.
      have hIgnored : ∀ wish : Wish, (∀ i, s.stopVoiceCallSender = some i → wish = .accepted) →
          { s with voiceCallRequestTimestamp := none, wish := wish }.Held :=
        fun wish hWish => ⟨hHeld.streams, hWish, nofun, hHeld.records⟩
      have hAfter : ∀ i, s.stopVoiceCallSender = some i →
          s.wish.after (.voiceCallResponse timestamp accepted) = .accepted := by
        intro i hSender
        rw [hHeld.accepted i hSender]
        cases accepted <;> rfl
      rw [handle]
      dsimp only
      split
      · rename_i hMatch
        obtain ⟨hKept, rfl⟩ := hMatch
        by_cases hRecords : s.records = true
        · have hWish : s.wish = .asked timestamp := hAgreed hRunning hRecords hKept
          have hNow : s.wish.after (.voiceCallResponse timestamp true) = .accepted := if_pos hWish
          rw [hNow]
          exact hHeld.startVoiceCall hRecords
        · have hFree : s.stopVoiceCallSender = none := by
            cases hSender : s.stopVoiceCallSender with
            | none => rfl
            | some i => exact absurd (hHeld.records i hSender) hRecords
          have hSame : ({ s with voiceCallRequestTimestamp := none } : State).startVoiceCall =
              { s with voiceCallRequestTimestamp := none } := by
            simp [State.startVoiceCall, hRecords, stopVoiceCall, hFree]
          rw [hSame]
          exact hIgnored _ hAfter
      · exact hIgnored _ hAfter
  | other => exact hHeld
  | exitLoop => exact hHeld.stop hHeld.pending
  | poll i => exact absurd ⟨i, rfl⟩ hPoll

/-- A step that is not agreed leaves a recorder in a call that is not accepted. -/
theorem Held.breaks (hHeld : s.Held) (event : Event) (hNot : ¬ s.Agreed event) :
    ¬ (s.step event).OnlyWanted := by
  intro hOnly
  cases event with
  | newVoiceCall sent now =>
      have hBoth := Classical.not_imp.mp hNot
      obtain ⟨i, hSender⟩ := Option.ne_none_iff_exists'.mp hBoth.2
      have hStep : s.step (.newVoiceCall sent now) =
          { s.handle (.newVoiceCall sent now) with wish := .asked (requestTimestamp sent now) } := by
        simp [State.step, hBoth.1, Wish.after]
      rw [hStep] at hOnly
      have hWish := hOnly.wanted i ((hHeld.streams i).mpr hSender)
      cases hWish
  | voiceCallResponse timestamp accepted =>
      cases accepted with
      | false => exact hNot trivial
      | true =>
          obtain ⟨hRunning, hRest⟩ := Classical.not_imp.mp hNot
          obtain ⟨hRecords, hRest⟩ := Classical.not_imp.mp hRest
          obtain ⟨hKept, hWish⟩ := Classical.not_imp.mp hRest
          have hClosed : s.wish = .closed := (hHeld.pending timestamp hKept).resolve_left hWish
          have hStep : s.step (.voiceCallResponse timestamp true) =
              { ({ s with voiceCallRequestTimestamp := none } : State).startVoiceCall with
                wish := .closed } := by
            simp [State.step, hRunning, handle, hKept, Wish.after, hClosed]
          have hStarted := (hHeld.startVoiceCall hRecords).streams s.recorders.length
          have hSender : ({ s with voiceCallRequestTimestamp := none } :
              State).startVoiceCall.stopVoiceCallSender = some s.recorders.length := by
            simp [State.startVoiceCall, hRecords]
          rw [hStep] at hOnly
          have hNow := hOnly.wanted s.recorders.length (hStarted.mpr hSender)
          cases hNow
  | closeVoiceCall => exact hNot trivial
  | voiceCallRequest isConnect => exact hNot trivial
  | other => exact hNot trivial
  | exitLoop => exact hNot trivial
  | poll i => exact hNot trivial

end Steps

/-- The microphone streams only during a wanted call, throughout a run, exactly if every step
of the run is agreed on. -/
theorem onlyWanted_iff_agreed (records : Bool) (events : List Event) :
    (∀ past, past <+: events → (Trace.run step (start records) past).OnlyWanted) ↔
      Trace.Always step Agreed (start records) events := by
  have hGives : ∀ s : State, s.Held → s.OnlyWanted := fun _ hHeld => hHeld.onlyWanted
  have hKeeps : ∀ s event, Held s → True → s.Agreed event → (s.step event).Held :=
    fun _ event hHeld _ hAgreed => hHeld.step event hAgreed
  have hBreaks : ∀ s event, Held s → True → ¬ s.Agreed event → ¬ (s.step event).OnlyWanted :=
    fun _ event hHeld _ hNot => hHeld.breaks event hNot
  exact Trace.agrees_iff_always step hGives hKeeps hBreaks (held_start records)
    (Trace.always_of_forall step (fun _ _ => trivial) _ _)

/-- The user closes the call before the peer answers, and the peer accepts it then. -/
theorem cancelled_call_streams :
    ¬ (Trace.run step (start true)
      [.newVoiceCall 5 5, .closeVoiceCall, .voiceCallResponse 5 true]).OnlyWanted := by
  intro hOnly
  have hWish := hOnly.wanted 0 rfl
  cases hWish

end State

end HibtDesk.Session.VoiceCall
