import HibtDesk.Connection.LoginSpec

/-! Everything one event can do to the fields a login decides, as one case for
each kind of event. Invariants about logging in are proved by going through
these cases. -/
namespace HibtDesk

/-- The condition under which a message of the peer ends the loop for the relay. -/
def State.relays (s : State) : Bool :=
  s.conn.portForwardSocket.isSome && s.conn.authorized && s.conn.lastTestDelay.isNone

namespace Loop
variable (fixed : Fixed)

/-- The state in which a message of the peer is handled. -/
def received (l : Loop) (env : Env) : State := l.state.touchSession env

/-- The state once the login request of a message was stored. -/
def stored (l : Loop) (env : Env) (lr : LoginRequest) : State :=
  (l.received env).handleLoginRequestWithoutValidation env lr

/-- The view of the loop after one event: the four events that log in, and all
others together. -/
inductive StepCase (l : Loop) : Event → Loop → Prop where
  | ordinary {env input l'} (hLogin : input.isLogin = false)
      (hKeeps : State.KeepsLogin l.state l'.state)
      (hOn : l'.running = true ∨ l.state.conn.authorized = true) : StepCase l (env, input) l'
  | closes {env input l'} (hLogin : input.isLogin = false)
      (hCloses : State.Closes l.state l'.state) (hEnd : l'.running = false) :
      StepCase l (env, input) l'
  | loginRequest {env lr c l'}
      (hOutcome : State.LoginOutcome fixed env (l.stored env lr) lr (l'.state, c))
      (hRunning : l'.running = (c && !l'.state.relays)) :
      StepCase l (env, .peer (.loginRequest lr)) l'
  | wrongCode {env code hwid l'} (hCode : ¬ (l.received env).CodeAccepted fixed env code)
      (hKeeps : State.KeepsLogin l.state l'.state) (hRunning : l'.running = !l'.state.relays) :
      StepCase l (env, .peer (.auth2fa code hwid)) l'
  | rightCode {env code hwid options l'} (hCode : (l.received env).CodeAccepted fixed env code)
      (hView : l'.state.conn.loginView =
        LoginView.authorize { l.state.conn.loginView with require2fa := none } options)
      (hPresents : State.Presents l.state l'.state) (hRunning : l'.running = !l'.state.relays) :
      StepCase l (env, .peer (.auth2fa code hwid)) l'
  | noSwitch {env uuid lr l'} (hNone : lr = none ∨ fixed.build.flutter = false)
      (hKeeps : State.KeepsLogin l.state l'.state) (hRunning : l'.running = !l'.state.relays) :
      StepCase l (env, .peer (.switchSidesResponse uuid lr)) l'
  | wrongSwitch {env uuid lr l'} (hFlutter : fixed.build.flutter = true)
      (hMatches : (l.received env).switchSidesMatches env uuid lr = false)
      (hKeeps : State.KeepsLogin (l.stored env lr) l'.state) (hRunning : l'.running = !l'.state.relays) :
      StepCase l (env, .peer (.switchSidesResponse uuid (some lr))) l'
  | rightSwitch {env uuid lr options l'} (hFlutter : fixed.build.flutter = true)
      (hMatches : (l.received env).switchSidesMatches env uuid lr = true)
      (hView : l'.state.conn.loginView = LoginView.authorize
        { (l.stored env lr).conn.loginView with fromSwitch := true } options)
      (hPresents : State.Presents l.state l'.state) (hRunning : l'.running = !l'.state.relays) :
      StepCase l (env, .peer (.switchSidesResponse uuid (some lr))) l'
  | authorize {env options l'}
      (hView : l'.state.conn.loginView =
        LoginView.authorize { l.state.conn.loginView with require2fa := none } options)
      (hPresents : State.Presents l.state l'.state)
      (hRunning : l'.running = l'.state.conn.portForwardSocket.isNone) :
      StepCase l (env, .cm .authorize) l'

section Steps
variable (l : Loop) (env : Env)

theorem step_stopped (event : Event) (h : l.running = false) : l.step fixed event = l := by
  simp [step, h]

theorem step_state (input : Input) (h : l.running = true) :
    (l.step fixed (env, input)).state = (l.state.onInput fixed env l.lastRecvTime input).1 := by
  simp [step, h]

theorem step_running (input : Input) (h : l.running = true) :
    (l.step fixed (env, input)).running = (l.state.onInput fixed env l.lastRecvTime input).2 := by
  simp [step, h]

theorem received_view : (l.received env).conn.loginView = l.state.conn.loginView :=
  (State.calm_touchSession env l.state).login

theorem received_emits {allowed : Effect → Prop} : State.Emits allowed l.state (l.received env) := by
  unfold received State.touchSession
  split
  · exact .refl _
  · exact .refl _

theorem received_config : (l.received env).world.config = l.state.world.config := by
  unfold received State.touchSession
  split <;> rfl

/-- Every event a running loop handles is one of the cases. -/
theorem step_case (event : Event) (h : l.running = true) (hOpen : l.state.conn.closed = false) :
    StepCase fixed l event (l.step fixed event) := by
  obtain ⟨env, input⟩ := event
  have hState := step_state fixed l env input h
  have hRunning := step_running fixed l env input h
  cases hLogin : input.isLogin with
  | false =>
      rcases State.ordinary_onInput fixed env hOpen l.lastRecvTime hLogin with
        ⟨hKeeps, hOn⟩ | ⟨hCloses, hEnd⟩
      · exact .ordinary hLogin (by rwa [hState]) (by rwa [hRunning])
      · exact .closes hLogin (by rwa [hState]) (by rwa [hRunning])
  | true =>
      have hView := received_view l env
      have hQuiet : State.Emits (fun effect => effect.isLogin = false) l.state (l.received env) :=
        received_emits l env
      cases input with
      | cm message =>
          cases message with
          | authorize =>
              obtain ⟨hPresents, options, hAuthorized⟩ := State.onAuthorize_spec fixed env l.state
              exact .authorize (by rw [hState]; exact hAuthorized) (by rw [hState]; exact hPresents)
                (by rw [hState, hRunning]; rfl)
          | _ => cases hLogin
      | peer message =>
          cases message with
          | loginRequest lr =>
              refine .loginRequest (c := ((l.received env).onLoginRequest fixed env lr).2) ?_ ?_
              · rw [hState]
                exact State.onLoginRequest_spec fixed env (l.received env) lr
              · rw [hState, hRunning]
                rfl
          | auth2fa code hwid =>
              obtain ⟨hPresents, hWrong, hRight⟩ :=
                State.onAuth2fa_spec fixed env (l.received env) code hwid
              have hShown := State.Presents.after hQuiet hPresents
              rw [hView] at hRight
              have hKeeps : State.KeepsLogin l.state (l.received env) := ⟨hView, hQuiet⟩
              by_cases hCode : (l.received env).CodeAccepted fixed env code
              · obtain ⟨options, hAuthorized⟩ := hRight hCode
                exact .rightCode hCode (by rw [hState]; exact hAuthorized)
                  (by rw [hState]; exact hShown) (by rw [hState, hRunning]; rfl)
              · exact .wrongCode hCode (by rw [hState]; exact hKeeps.trans (hWrong hCode))
                  (by rw [hState, hRunning]; rfl)
          | switchSidesResponse uuid lr =>
              obtain ⟨hPresents, hCases⟩ :=
                State.onSwitchSidesResponse_spec fixed env (l.received env) uuid lr
              have hShown := State.Presents.after hQuiet hPresents
              rcases hCases with ⟨hNone, hSame⟩ |
                ⟨request, rfl, hFlutter, ⟨hNo, hStored⟩ | ⟨hMatches, options, hAuthorized⟩⟩
              · have hKeeps : State.KeepsLogin l.state (l.received env) := ⟨hView, hQuiet⟩
                exact .noSwitch hNone (by rw [hState]; exact hKeeps.trans hSame)
                  (by rw [hState, hRunning]; rfl)
              · exact .wrongSwitch hFlutter hNo (by rw [hState]; exact hStored)
                  (by rw [hState, hRunning]; rfl)
              · exact .rightSwitch hFlutter hMatches (by rw [hState]; exact hAuthorized)
                  (by rw [hState]; exact hShown) (by rw [hState, hRunning]; rfl)
          | _ => cases hLogin
      | _ => cases hLogin

theorem stored_presents {env : Env} {lr : LoginRequest} {t : State}
    (h : State.Presents (l.stored env lr) t) : State.Presents l.state t :=
  State.Presents.after (received_emits l env) ⟨h.shown, h.emits⟩

variable {fixed l} {event : Event} {l' : Loop}

/-- An event shows a login for the present fields, or none. -/
theorem StepCase.presents (h : StepCase fixed l event l') : State.Presents l.state l'.state := by
  cases h with
  | ordinary _ hKeeps => exact State.presents_of_emits hKeeps.emits
  | closes _ hCloses _ =>
      exact State.presents_of_emits (hCloses.emits.mono fun _ hQuiet => hQuiet.1)
  | loginRequest hOutcome => exact stored_presents l hOutcome.presents
  | wrongCode _ hKeeps => exact State.presents_of_emits hKeeps.emits
  | rightCode _ _ hPresents => exact hPresents
  | noSwitch _ hKeeps => exact State.presents_of_emits hKeeps.emits
  | wrongSwitch _ _ hKeeps => exact stored_presents l (State.presents_of_emits hKeeps.emits)
  | rightSwitch _ _ _ hPresents => exact hPresents
  | authorize _ hPresents => exact hPresents

/-- A loop that goes on was not closed. -/
theorem StepCase.isOpen (h : StepCase fixed l event l') (hOpen : l.state.conn.closed = false)
    (hRun : l'.running = true) : l'.state.conn.closed = false := by
  have same : ∀ {v : LoginView}, l'.state.conn.loginView = v → v.closed = false →
      l'.state.conn.closed = false := by
    rintro v rfl hv
    exact hv
  cases h with
  | ordinary _ hKeeps => exact same hKeeps.view hOpen
  | closes _ _ hEnd =>
      rw [hEnd] at hRun
      cases hRun
  | loginRequest hOutcome =>
      exact hOutcome.view.1.trans ((congrArg LoginView.closed (received_view l _)).trans hOpen)
  | wrongCode _ hKeeps => exact same hKeeps.view hOpen
  | rightCode _ hView => exact same hView ((LoginView.authorize_closed ..).trans hOpen)
  | noSwitch _ hKeeps => exact same hKeeps.view hOpen
  | wrongSwitch _ _ hKeeps =>
      exact same hKeeps.view ((congrArg LoginView.closed (received_view l _)).trans hOpen)
  | rightSwitch _ _ hView =>
      exact same hView ((LoginView.authorize_closed ..).trans
        ((congrArg LoginView.closed (received_view l _)).trans hOpen))
  | authorize hView => exact same hView ((LoginView.authorize_closed ..).trans hOpen)

/-- An authorized connection stays authorized. -/
theorem StepCase.authorized (h : StepCase fixed l event l') (hYes : l.state.conn.authorized = true) :
    l'.state.conn.authorized = true := by
  have same : ∀ {v : LoginView}, l'.state.conn.loginView = v → v.authorized = true →
      l'.state.conn.authorized = true := by
    rintro v rfl hv
    exact hv
  cases h with
  | ordinary _ hKeeps => exact same hKeeps.view hYes
  | closes _ hCloses _ => exact same hCloses.login hYes
  | @loginRequest env lr _ _ hOutcome =>
      have hStored : (l.stored env lr).conn.authorized = true :=
        (congrArg LoginView.authorized (received_view l env)).trans hYes
      have hSame := congrArg Prod.fst (hOutcome.view.2.2.2.2 hStored)
      rw [show l'.state = l.stored env lr from hSame]
      exact hStored
  | wrongCode _ hKeeps => exact same hKeeps.view hYes
  | rightCode _ hView => exact same hView (LoginView.authorize_authorized ..)
  | noSwitch _ hKeeps => exact same hKeeps.view hYes
  | wrongSwitch _ _ hKeeps =>
      exact same hKeeps.view ((congrArg LoginView.authorized (received_view l _)).trans hYes)
  | rightSwitch _ _ hView => exact same hView (LoginView.authorize_authorized ..)
  | authorize hView => exact same hView (LoginView.authorize_authorized ..)

end Steps

section Runs
variable {fixed} {start : Loop}

theorem run_concat (past : List Event) (event : Event) :
    start.run fixed (past ++ [event]) = (start.run fixed past).step fixed event :=
  Trace.run_append ..

theorem run_split (past : List Event) (event : Event) (rest : List Event) :
    start.run fixed (past ++ event :: rest) =
      ((start.run fixed past).step fixed event).run fixed rest :=
  Trace.run_append ..

theorem run_isOpen (hStart : start.state.conn.closed = false) (events : List Event)
    (hRun : (start.run fixed events).running = true) :
    (start.run fixed events).state.conn.closed = false := by
  refine Trace.invariant_of_step (step fixed)
    (fun l => l.running = true → l.state.conn.closed = false) (fun _ => hStart)
    (fun l event hInv hNext => ?_) events hRun
  cases h : l.running with
  | false =>
      rw [step_stopped fixed l event h, h] at hNext
      cases hNext
  | true => exact (step_case fixed l event h (hInv h)).isOpen (hInv h) hNext

/-- Once authorized, a run stays authorized. -/
theorem run_authorized (hStart : start.running = true → start.state.conn.closed = false)
    (hAuthorized : start.state.conn.authorized = true) (events : List Event) :
    (start.run fixed events).state.conn.authorized = true := by
  have hInv := Trace.invariant_of_step (step fixed)
    (fun l => (l.running = true → l.state.conn.closed = false) ∧
      l.state.conn.authorized = true) ⟨hStart, hAuthorized⟩ (fun l event hInv => ?_) events
  · exact hInv.2
  · cases h : l.running with
    | false => rwa [step_stopped fixed l event h]
    | true =>
        have hCase := step_case fixed l event h (hInv.1 h)
        exact ⟨hCase.isOpen (hInv.1 h), hCase.authorized hInv.2⟩

end Runs

end Loop

end HibtDesk
