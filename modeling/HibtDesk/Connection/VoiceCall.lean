import HibtDesk.Connection.InputFrame

/-! Consent to a voice call. The peer asks, the local user answers, and either
side hangs up; the connection keeps that in `voice_calling`. Whether the audio of
the peer is played is decided by another field, which the format message of the
peer sets and nothing clears. -/
namespace HibtDesk

/-- Messages of a session are handled: the peer is logged in and nothing is relayed. -/
def State.takes (s : State) : Bool := s.conn.authorized && s.conn.portForwardSocket.isNone

/-- What an event makes of the call, on a connection that handles messages of a
session or does not, with the audio disabled or not. -/
def CallView.after (view : CallView) (takes disabled : Bool) (time : Int) : Input → CallView
  | .cm (.voiceCallResponse accepted) =>
      if view.voiceCallRequestTimestamp.isSome then
        { view with voiceCallRequestTimestamp := none, voiceCalling := accepted }
      else view
  | .cm .closeVoiceCall => { view with voiceCalling := false }
  | .peer (.voiceCallRequest isConnect reqTimestamp) =>
      if !takes then view
      else if isConnect then
        { view with
          voiceCallRequestTimestamp := some (if reqTimestamp = 0 then time else reqTimestamp) }
      else { view with voiceCalling := false }
  | .peer (.misc (.audioFormat ..)) =>
      if takes && !disabled then { view with audioSender := true } else view
  | .peer (.audioFrame data) =>
      if takes && !disabled && view.audioSender then
        { view with played := view.played ++ [data] }
      else view
  | _ => view

namespace State
variable (fixed : Fixed) (env : Env) (s : State)

@[simp] theorem touchSession_conn : (s.touchSession env).conn = s.conn := by
  unfold touchSession
  split <;> rfl

theorem callView_closeVoiceCall :
    s.closeVoiceCall.callView = { s.callView with voiceCalling := false } := by
  unfold closeVoiceCall
  dsimp only
  split_ifs <;> simp [callView, played, sendToCm, Effect.audio]

theorem callView_handleVoiceCall (accepted : Bool) :
    (s.handleVoiceCall accepted).callView =
      s.callView.after s.takes s.conn.disableAudio env.time (.cm (.voiceCallResponse accepted)) := by
  unfold handleVoiceCall
  cases hPending : s.conn.voiceCallRequestTimestamp with
  | none => simp [CallView.after, callView, hPending]
  | some ts =>
      dsimp only
      cases accepted <;> split_ifs <;>
        simp [CallView.after, callView, played, send, sendToCm, Effect.audio, hPending]

theorem callView_onAuthorizedMessage {msg : Message} (hCall : msg.isCall = true)
    (hTakes : s.takes = true) :
    (s.onAuthorizedMessage fixed env msg).1.callView =
      s.callView.after s.takes s.conn.disableAudio env.time (.peer msg) := by
  cases msg with
  | voiceCallRequest isConnect reqTimestamp =>
      cases isConnect with
      | true =>
          simp [onAuthorizedMessage, onVoiceCallRequest, CallView.after, callView, played, sendToCm,
            Effect.audio, hTakes]
      | false => simp [onAuthorizedMessage, onVoiceCallRequest, CallView.after, hTakes,
          callView_closeVoiceCall]
  | audioFrame data =>
      simp only [onAuthorizedMessage, onAudioFrame, CallView.after, hTakes, Bool.true_and]
      change _ = if (!s.conn.disableAudio && s.conn.audioSender) = true then _ else _
      split_ifs
      · simp [callView, played, Effect.audio]
      · rfl
  | misc misc =>
      cases misc with
      | audioFormat sampleRate channels =>
          cases hDisabled : s.conn.disableAudio <;>
            simp [onAuthorizedMessage, onMisc, onAudioFormat, CallView.after, callView, played,
              Effect.audio, hTakes, hDisabled]
      | _ => cases hCall
  | _ => cases hCall

theorem onMessage_of_call {msg : Message} (hCall : msg.isCall = true) :
    s.onMessage fixed env msg =
      if s.takes then s.onAuthorizedMessage fixed env msg else (s, true) := by
  unfold onMessage
  split
  all_goals first | cases hCall | rfl

/-- The connection keeps the call as the small machine does. -/
theorem callView_onInput (lastRecvTime : Nat) (input : Input) :
    (s.onInput fixed env lastRecvTime input).1.callView =
      s.callView.after s.takes s.conn.disableAudio env.time input := by
  cases hCall : input.isCall with
  | false =>
      have hAfter : s.callView.after s.takes s.conn.disableAudio env.time input = s.callView := by
        unfold CallView.after
        split
        all_goals first | cases hCall | rfl
      rw [hAfter]
      exact keepsCall_onInput fixed env s lastRecvTime hCall
  | true =>
      cases input with
      | cm message =>
          cases message with
          | voiceCallResponse accepted => exact callView_handleVoiceCall env s accepted
          | closeVoiceCall =>
              refine Eq.trans ?_ (callView_closeVoiceCall s)
              exact KeepsCall.emit rfl rfl
          | _ => cases hCall
      | peer message =>
          have hTouch : (s.touchSession env).callView = s.callView := by
            unfold touchSession
            split <;> rfl
          have hTakes : (s.touchSession env).takes = s.takes := by
            unfold takes
            rw [touchSession_conn]
          change ((s.touchSession env).onMessage fixed env message).1.callView = _
          rw [onMessage_of_call fixed env _ hCall, hTakes]
          cases hReady : s.takes with
          | true =>
              rw [if_pos rfl, callView_onAuthorizedMessage fixed env _ hCall (hTakes.trans hReady),
                hTouch, hTakes, touchSession_conn, hReady]
          | false =>
              rw [if_neg (by simp)]
              refine hTouch.trans ?_
              cases message with
              | voiceCallRequest | audioFrame => rfl
              | misc misc =>
                  cases misc with
                  | audioFormat => rfl
                  | _ => cases hCall
              | _ => cases hCall
      | _ => cases hCall

end State

namespace Loop
variable (fixed : Fixed)

/-- The peer asks for a call. -/
def Asks (l : Loop) (event : Event) : Prop :=
  l.running = true ∧ l.state.takes = true ∧ ∃ ts, event.2 = .peer (.voiceCallRequest true ts)

/-- The local user answers, whatever was asked. -/
def Answers (accepted : Bool) (l : Loop) (event : Event) : Prop :=
  l.running = true ∧ event.2 = .cm (.voiceCallResponse accepted)

/-- A request is pending that was not answered. -/
def Pending (start : Loop) (past : List Event) : Prop :=
  Trace.Since (step fixed) Asks (fun l event => ∃ accepted, Answers accepted l event) start past

/-- The local user consents to the call the peer asked for. -/
def Consents (l : Loop) (event : Event) : Prop :=
  Answers true l event ∧ l.state.conn.voiceCallRequestTimestamp.isSome = true

/-- One side hangs up. Refusing a later request hangs up as well. -/
def HangsUp (l : Loop) (event : Event) : Prop :=
  (l.running = true ∧ l.state.takes = true ∧ ∃ ts, event.2 = .peer (.voiceCallRequest false ts)) ∨
    (l.running = true ∧ event.2 = .cm .closeVoiceCall) ∨
    (Answers false l event ∧ l.state.conn.voiceCallRequestTimestamp.isSome = true)

/-- The local user consented to a call, and neither side has hung up since. -/
def CallOpen (start : Loop) (past : List Event) : Prop :=
  Trace.Since (step fixed) Consents HangsUp start past

/-- An event that hands audio to the player. -/
def Plays (l : Loop) (event : Event) : Prop :=
  (l.step fixed event).state.played ≠ l.state.played

/-- Audio of the peer arrives and is not disabled. -/
def Hears (l : Loop) (event : Event) : Prop :=
  l.running = true ∧ l.state.takes = true ∧ l.state.conn.disableAudio = false ∧
    ∃ data, event.2 = .peer (.audioFrame data)

/-- The peer announces the format of its audio, which is not disabled. -/
def StartsPlayer (l : Loop) (event : Event) : Prop :=
  l.running = true ∧ l.state.takes = true ∧ l.state.conn.disableAudio = false ∧
    ∃ sampleRate channels, event.2 = .peer (.misc (.audioFormat sampleRate channels))

section Step
variable (l : Loop) (env : Env) (input : Input)

theorem callView_step (hRun : l.running = true) :
    (l.step fixed (env, input)).state.callView =
      l.state.callView.after l.state.takes l.state.conn.disableAudio env.time input := by
  rw [step_state fixed l env input hRun]
  exact State.callView_onInput fixed env l.state l.lastRecvTime input

theorem audioSender_step (event : Event) :
    (l.step fixed event).state.conn.audioSender = true ↔
      l.state.conn.audioSender = true ∨ StartsPlayer l event := by
  obtain ⟨env, input⟩ := event
  cases hRun : l.running with
  | false => simp [step_stopped fixed l (env, input) hRun, StartsPlayer, hRun]
  | true =>
      have hView := congrArg CallView.audioSender (callView_step fixed l env input hRun)
      change (l.step fixed (env, input)).state.conn.audioSender = _ at hView
      rw [hView]
      unfold CallView.after StartsPlayer
      grind [State.callView]

theorem pending_step (event : Event) :
    (l.step fixed event).state.conn.voiceCallRequestTimestamp.isSome = true ↔
      Asks l event ∨ l.state.conn.voiceCallRequestTimestamp.isSome = true ∧
        ¬ ∃ accepted, Answers accepted l event := by
  obtain ⟨env, input⟩ := event
  cases hRun : l.running with
  | false => simp [step_stopped fixed l (env, input) hRun, Asks, Answers, hRun]
  | true =>
      have hView := congrArg CallView.voiceCallRequestTimestamp
        (callView_step fixed l env input hRun)
      change (l.step fixed (env, input)).state.conn.voiceCallRequestTimestamp = _ at hView
      rw [hView]
      unfold CallView.after Asks Answers
      grind [State.callView]

theorem voiceCalling_step (event : Event) :
    (l.step fixed event).state.conn.voiceCalling = true ↔
      Consents l event ∨ l.state.conn.voiceCalling = true ∧ ¬ HangsUp l event := by
  obtain ⟨env, input⟩ := event
  cases hRun : l.running with
  | false => simp [step_stopped fixed l (env, input) hRun, Consents, HangsUp, Answers, hRun]
  | true =>
      have hView := congrArg CallView.voiceCalling (callView_step fixed l env input hRun)
      change (l.step fixed (env, input)).state.conn.voiceCalling = _ at hView
      rw [hView]
      unfold CallView.after Consents HangsUp Answers
      grind [State.callView]

theorem plays_iff (event : Event) :
    Plays fixed l event ↔ Hears l event ∧ l.state.conn.audioSender = true := by
  obtain ⟨env, input⟩ := event
  unfold Plays
  cases hRun : l.running with
  | false => simp [step_stopped fixed l (env, input) hRun, Hears, hRun]
  | true =>
      have hView := congrArg CallView.played (callView_step fixed l env input hRun)
      change (l.step fixed (env, input)).state.played = _ at hView
      rw [hView]
      have hLonger : ∀ (frames : List Bytes) data, frames ++ [data] ≠ frames := by simp
      unfold CallView.after Hears
      grind [State.callView]

end Step

section Run
variable {start : Loop} (events : List Event)

/-- The player was started by a format message, and stays. -/
theorem audioSender_iff (hStart : start.state.conn.audioSender = false) :
    (start.run fixed events).state.conn.audioSender = true ↔
      Trace.Once (step fixed) StartsPlayer start events := by
  induction events using List.reverseRecOn with
  | nil => simp [hStart]
  | append_singleton past event ih =>
      rw [Trace.once_concat, ← ih, run_concat]
      exact audioSender_step fixed _ event

/-- The connection remembers a request exactly while it is pending. -/
theorem pending_iff (hStart : start.state.conn.voiceCallRequestTimestamp = none) :
    (start.run fixed events).state.conn.voiceCallRequestTimestamp.isSome = true ↔
      Pending fixed start events := by
  unfold Pending
  induction events using List.reverseRecOn with
  | nil => simp [hStart]
  | append_singleton past event ih =>
      rw [Trace.since_concat, ← ih, run_concat]
      exact pending_step fixed _ event

/-- The connection is calling exactly while the call is open. -/
theorem voiceCalling_iff (hStart : start.state.conn.voiceCalling = false) :
    (start.run fixed events).state.conn.voiceCalling = true ↔ CallOpen fixed start events := by
  unfold CallOpen
  induction events using List.reverseRecOn with
  | nil => simp [hStart]
  | append_singleton past event ih =>
      rw [Trace.since_concat, ← ih, run_concat]
      exact voiceCalling_step fixed _ event

end Run

section Consent
variable (fixed : Fixed) (world : World) (server : Option Server) (now : Nat) (id : Int)
  (ip salt challenge : String) (require2fa : Option Totp) (controlPermissions : Option Nat)

/-- Audio is played only in an open call exactly if every frame that arrives with the
audio not disabled comes in an open call, or before any format message. -/
theorem played_only_in_call_iff (events : List Event) :
    let start := Loop.start fixed world server now id ip salt challenge require2fa controlPermissions
    Trace.Along (fun past event => Plays fixed (start.run fixed past) event →
        CallOpen fixed start past) events ↔
      Trace.Along (fun past event => Hears (start.run fixed past) event →
        Trace.Once (step fixed) StartsPlayer start past → CallOpen fixed start past) events := by
  intro start
  have hSame : ∀ past event, (Plays fixed (start.run fixed past) event → CallOpen fixed start past) ↔
      (Hears (start.run fixed past) event →
        Trace.Once (step fixed) StartsPlayer start past → CallOpen fixed start past) := by
    intro past event
    rw [plays_iff, audioSender_iff fixed past rfl, and_imp]
  unfold Trace.Along
  simp only [hSame]

/-- A peer that logged in is played without asking anyone. -/
theorem played_without_call :
    let world : World := { (default : World) with
      config := { (default : Config) with permanentPassword := "password" } }
    let start := Loop.start default world none 0 1 "10.0.0.1" "salt" "challenge" none none
    let lr : LoginRequest := { password := utf8 "passwordsaltchallenge" }
    let past : List Event := [(default, .peer (.loginRequest lr)),
      (default, .peer (.misc (.audioFormat 48000 2)))]
    ¬ Trace.Along (fun past event => Plays default (start.run default past) event →
        CallOpen default start past) (past ++ [(default, .peer (.audioFrame [1, 2, 3]))]) := by
  intro world start lr past hAlong
  have hOpen := hAlong past (default, .peer (.audioFrame [1, 2, 3])) [] rfl
  have hPlays : Plays default (start.run default past) (default, .peer (.audioFrame [1, 2, 3])) := by
    unfold Plays
    decide +kernel
  have hCalling := (voiceCalling_iff default past rfl).mpr (hOpen hPlays)
  exact absurd hCalling (by decide +kernel)

end Consent

end Loop

end HibtDesk
