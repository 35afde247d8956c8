import HibtDesk.Connection.Inversion

/-! Which credentials a run of the connection has seen when it is authorized.
The events are told apart by what they carry and the state they meet; the
history of a run is the list of its events. -/
namespace HibtDesk

namespace Loop
variable (fixed : Fixed)

/-- A login request carries the hash of an enabled password, or of the password
of a session active within the timeout. -/
def PasswordAccepted (l : Loop) (event : Event) : Prop :=
  l.running = true ∧ ∃ lr, event.2 = .peer (.loginRequest lr) ∧
    (l.stored event.1 lr).PasswordMatches fixed event.1

/-- An answer to a switch of sides carries the uuid pending for its peer. -/
def SwitchAccepted (l : Loop) (event : Event) : Prop :=
  l.running = true ∧ fixed.build.flutter = true ∧ ∃ uuid lr,
    event.2 = .peer (.switchSidesResponse uuid (some lr)) ∧
    (l.received event.1).switchSidesMatches event.1 uuid lr = true

/-- The user clicked in the connection manager. -/
def ManagerAuthorized (l : Loop) (event : Event) : Prop :=
  l.running = true ∧ event.2 = .cm .authorize

/-- A correct code for the given second factor. -/
def CodeReceived (require2fa : Option Totp) (l : Loop) (event : Event) : Prop :=
  l.running = true ∧ ∃ totp code hwid, require2fa = some totp ∧
    event.2 = .peer (.auth2fa code hwid) ∧ event.1.checkCurrent totp code = some true

/-- A message that stores a login request comes from a trusted device. -/
def DeviceTrusted (l : Loop) (event : Event) : Prop :=
  l.running = true ∧ ∃ lr,
    (event.2 = .peer (.loginRequest lr) ∨
      ∃ uuid, event.2 = .peer (.switchSidesResponse uuid (some lr))) ∧
    State.isTrustedDevice event.1 l.state.world.config lr = true

/-- A login request of a session that has passed the second factor. -/
def SecondFactorPassed (l : Loop) (event : Event) : Prop :=
  l.running = true ∧ ∃ lr, event.2 = .peer (.loginRequest lr) ∧
    (l.stored event.1 lr).SessionPassed event.1

/-- A code that makes an unauthorized connection authorized. -/
def AuthorizingCode (l : Loop) (event : Event) : Prop :=
  l.running = true ∧ l.state.conn.authorized = false ∧ ∃ code hwid,
    event.2 = .peer (.auth2fa code hwid) ∧ (l.received event.1).CodeAccepted fixed event.1 code

/-- Such a code, for the second factor the connection started with. -/
def CodeAuthorized (start l : Loop) (event : Event) : Prop :=
  AuthorizingCode fixed l event ∧ CodeReceived start.state.conn.require2fa l event

/-- The events so far justify that the connection is authorized: a click, a
switch of sides, or a password and, if it was required, a second factor. -/
def Justified (start : Loop) (events : List Event) : Prop :=
  Trace.Once (step fixed) ManagerAuthorized start events ∨
    Trace.Once (step fixed) (SwitchAccepted fixed) start events ∨
    (Trace.Once (step fixed) (PasswordAccepted fixed) start events ∧
      (start.state.conn.require2fa.isSome = true →
        Trace.Once (step fixed) (CodeReceived start.state.conn.require2fa) start events ∨
        Trace.Once (step fixed) DeviceTrusted start events ∨
        Trace.Once (step fixed) SecondFactorPassed start events))

section Credentials
variable {start : Loop} {past : List Event} {event : Event}

variable {fixed} in
theorem Justified.concat (h : Justified fixed start past) (event : Event) :
    Justified fixed start (past ++ [event]) := by
  rcases h with hManager | hSwitch | ⟨hPassword, hFactor⟩
  · exact Or.inl (hManager.concat _ event)
  · exact Or.inr (Or.inl (hSwitch.concat _ event))
  · refine Or.inr (Or.inr ⟨hPassword.concat _ event, fun hRequired => ?_⟩)
    rcases hFactor hRequired with hCode | hDevice | hSession
    · exact Or.inl (hCode.concat _ event)
    · exact Or.inr (Or.inl (hDevice.concat _ event))
    · exact Or.inr (Or.inr (hSession.concat _ event))

/-- What is known about the credentials in every state of a run. -/
structure Credentials (start : Loop) (past : List Event) (l : Loop) : Prop where
  justified : l.state.conn.authorized = true →
    Justified fixed start past ∨ Trace.Once (step fixed) (CodeAuthorized fixed start) start past
  noSwitch : l.state.conn.authorized = false → l.state.conn.fromSwitch = false
  factor : l.state.conn.authorized = false →
    l.state.conn.require2fa = start.state.conn.require2fa ∨
      (l.state.conn.require2fa = none ∧ Trace.Once (step fixed) DeviceTrusted start past)

variable {fixed}

/-- The second factor after a login request was stored. -/
theorem stored_require2fa (l : Loop) (env : Env) (lr : LoginRequest) :
    (l.stored env lr).conn.require2fa = l.state.conn.require2fa ∨
      ((l.stored env lr).conn.require2fa = none ∧
        State.isTrustedDevice env l.state.world.config lr = true) := by
  have hView : (l.received env).conn.require2fa = l.state.conn.require2fa :=
    congrArg LoginView.require2fa (received_view l env)
  unfold stored State.handleLoginRequestWithoutValidation
  dsimp only
  rw [hView, received_config]
  split_ifs with hTrusted
  · exact Or.inr ⟨rfl, by simp_all⟩
  · exact Or.inl rfl

variable {l : Loop} (hLoop : l = start.run fixed past) (hInv : Credentials fixed start past l)
include hLoop hInv

/-- After a message that stores a request, the second factor is the one of the
start or a trusted device was seen. -/
theorem Credentials.factor_stored {lr : LoginRequest} (env : Env) (message : Message)
    (hRun : l.running = true) (hOpen : l.state.conn.authorized = false)
    (hMessage : message = .loginRequest lr ∨ ∃ uuid, message = .switchSidesResponse uuid (some lr)) :
    (l.stored env lr).conn.require2fa = start.state.conn.require2fa ∨
      ((l.stored env lr).conn.require2fa = none ∧ Trace.Once (step fixed) DeviceTrusted start
        (past ++ [(env, .peer message)])) := by
  rcases stored_require2fa l env lr with hSame | ⟨hNone, hTrusted⟩
  · rw [hSame]
    exact (hInv.factor hOpen).imp_right fun h => ⟨h.1, h.2.concat _ _⟩
  · refine Or.inr ⟨hNone, Trace.Once.last _ ?_⟩
    have hDevice : DeviceTrusted l (env, .peer message) := by
      refine ⟨hRun, lr, ?_, hTrusted⟩
      exact hMessage.imp (fun h => by rw [h]) fun ⟨uuid, h⟩ => ⟨uuid, by rw [h]⟩
    rw [hLoop] at hDevice
    exact hDevice

/-- An accepted login request justifies the authorization. -/
theorem Credentials.accepted {env : Env} {lr : LoginRequest} (hRun : l.running = true)
    (hOpen : l.state.conn.authorized = false)
    (hAccepted : (l.stored env lr).Accepted fixed env lr (State.desktopError fixed env lr)) :
    Justified fixed start (past ++ [(env, .peer (.loginRequest lr))]) := by
  have hPassword : PasswordAccepted fixed l (env, .peer (.loginRequest lr)) :=
    ⟨hRun, lr, rfl, hAccepted.password⟩
  have hFactor := hInv.factor_stored hLoop env (.loginRequest lr) hRun hOpen (Or.inl rfl)
  rw [hLoop] at hPassword
  refine Or.inr (Or.inr ⟨Trace.Once.last _ hPassword, fun hRequired => ?_⟩)
  rcases hAccepted.secondFactor with hNone | hSwitch | hPassed
  · rcases hFactor with hSame | ⟨-, hDevice⟩
    · rw [← hSame, hNone] at hRequired
      cases hRequired
    · exact Or.inr (Or.inl hDevice)
  · have hNot := hInv.noSwitch hOpen
    have hView : (l.stored env lr).conn.fromSwitch = l.state.conn.fromSwitch :=
      congrArg LoginView.fromSwitch (received_view l env)
    rw [hView, hNot] at hSwitch
    cases hSwitch
  · have hSession : SecondFactorPassed l (env, .peer (.loginRequest lr)) := ⟨hRun, lr, rfl, hPassed⟩
    rw [hLoop] at hSession
    exact Or.inr (Or.inr (Trace.Once.last _ hSession))

/-- One event keeps what is known about the credentials. -/
theorem Credentials.step {l' : Loop} (hRun : l.running = true)
    (hCase : StepCase fixed l event l') :
    Credentials fixed start (past ++ [event]) l' := by
  cases hOpen : l.state.conn.authorized with
  | true =>
      have hStill := hCase.authorized hOpen
      refine ⟨fun _ => (hInv.justified hOpen).imp (·.concat event) (·.concat _ event),
        fun hNo => ?_, fun hNo => ?_⟩
      · rw [hStill] at hNo
        cases hNo
      · rw [hStill] at hNo
        cases hNo
  | false =>
      have hSwitch := hInv.noSwitch hOpen
      have hFactor := hInv.factor hOpen
      -- an event that leaves the three fields alone
      have keep : ∀ {v : LoginView}, l'.state.conn.loginView = v → v.authorized = false →
          v.fromSwitch = false →
          (v.require2fa = start.state.conn.require2fa ∨ (v.require2fa = none ∧
            Trace.Once (Loop.step fixed) DeviceTrusted start (past ++ [event]))) →
          Credentials fixed start (past ++ [event]) l' := by
        rintro v rfl hNo hFrom hReq
        refine ⟨fun hYes => ?_, fun _ => hFrom, fun _ => hReq⟩
        have hBoth : true = false := hYes.symm.trans hNo
        cases hBoth
      -- an event that authorizes
      have grant : ∀ {v : LoginView}, l'.state.conn.loginView = v → v.authorized = true →
          (Justified fixed start (past ++ [event]) ∨
            Trace.Once (Loop.step fixed) (CodeAuthorized fixed start) start (past ++ [event])) →
          Credentials fixed start (past ++ [event]) l' := by
        rintro v rfl hYes hWhy
        refine ⟨fun _ => hWhy, fun hNo => ?_, fun hNo => ?_⟩
        · have hBoth : true = false := hYes.symm.trans hNo
          cases hBoth
        · have hBoth : true = false := hYes.symm.trans hNo
          cases hBoth
      have hLater : l.state.conn.require2fa = start.state.conn.require2fa ∨
          (l.state.conn.require2fa = none ∧
            Trace.Once (Loop.step fixed) DeviceTrusted start (past ++ [event])) :=
        hFactor.imp_right fun h => ⟨h.1, h.2.concat _ _⟩
      cases hCase with
      | ordinary _ hKeeps => exact keep hKeeps.view hOpen hSwitch hLater
      | closes _ hCloses _ => exact keep hCloses.login hOpen hSwitch hLater
      | @loginRequest env lr _ _ hOutcome =>
          have hStored : (l.stored env lr).conn.authorized = false :=
            (congrArg LoginView.authorized (received_view l env)).trans hOpen
          have hFrom : (l.stored env lr).conn.fromSwitch = false :=
            (congrArg LoginView.fromSwitch (received_view l env)).trans hSwitch
          have hReq := hInv.factor_stored hLoop env (.loginRequest lr) hRun hOpen (Or.inl rfl)
          cases hOutcome with
          | late hAuthorized =>
              rw [hStored] at hAuthorized
              cases hAuthorized
          | refused _ _ hView =>
              obtain ⟨terminal, address, hView, -⟩ := hView
              exact keep hView hStored hFrom hReq
          | offline _ _ _ _ hView =>
              exact keep hView ((LoginView.withKind_authorized ..).trans hStored)
                ((LoginView.withKind_fromSwitch ..).trans hFrom)
                (by rw [LoginView.withKind_require2fa]; exact hReq)
          | waiting _ _ hView =>
              exact keep hView ((LoginView.withKind_authorized ..).trans hStored)
                ((LoginView.withKind_fromSwitch ..).trans hFrom)
                (by rw [LoginView.withKind_require2fa]; exact hReq)
          | accepted _ _ hAccepted hView =>
              exact grant hView rfl (Or.inl (hInv.accepted hLoop hRun hOpen hAccepted))
      | wrongCode _ hKeeps => exact keep hKeeps.view hOpen hSwitch hLater
      | @rightCode env code hwid _ _ hRight hView =>
          refine grant hView (LoginView.authorize_authorized ..) (Or.inr ?_)
          have hCode : AuthorizingCode fixed l (env, .peer (.auth2fa code hwid)) :=
            ⟨hRun, hOpen, code, hwid, rfl, hRight⟩
          obtain ⟨totp, hTotp, hCheck, -⟩ := hRight
          have hSame : (l.received env).conn.require2fa = l.state.conn.require2fa :=
            congrArg LoginView.require2fa (received_view l env)
          rcases hLater with hStart | ⟨hNone, -⟩
          · have hReceived : CodeReceived start.state.conn.require2fa l
                (env, .peer (.auth2fa code hwid)) :=
              ⟨hRun, totp, code, hwid, by rw [← hStart, ← hSame, hTotp], rfl, hCheck⟩
            rw [hLoop] at hCode hReceived
            exact Trace.Once.last _ ⟨hCode, hReceived⟩
          · rw [← hSame, hTotp] at hNone
            cases hNone
      | noSwitch _ hKeeps => exact keep hKeeps.view hOpen hSwitch hLater
      | @wrongSwitch env uuid lr _ _ _ hKeeps =>
          refine keep hKeeps.view ((congrArg LoginView.authorized (received_view l env)).trans hOpen)
            ((congrArg LoginView.fromSwitch (received_view l env)).trans hSwitch) ?_
          exact hInv.factor_stored hLoop env _ hRun hOpen (Or.inr ⟨uuid, rfl⟩)
      | @rightSwitch env uuid lr _ _ hFlutter hMatches hView =>
          refine grant hView (LoginView.authorize_authorized ..) (Or.inl (Or.inr (Or.inl ?_)))
          have hAccepted : SwitchAccepted fixed l (env, .peer (.switchSidesResponse uuid (some lr))) :=
            ⟨hRun, hFlutter, uuid, lr, rfl, hMatches⟩
          rw [hLoop] at hAccepted
          exact Trace.Once.last _ hAccepted
      | @authorize env _ _ hView =>
          refine grant hView (LoginView.authorize_authorized ..) (Or.inl (Or.inl ?_))
          have hManager : ManagerAuthorized l (env, .cm .authorize) := ⟨hRun, rfl⟩
          rw [hLoop] at hManager
          exact Trace.Once.last _ hManager

end Credentials

section Runs
variable {fixed} {start : Loop} {events : List Event}

/-- Every run keeps its record of credentials. -/
theorem credentials_run (hUnauthorized : start.state.conn.authorized = false)
    (hFresh : start.state.conn.fromSwitch = false) (hClosed : start.state.conn.closed = false) :
    Credentials fixed start events (start.run fixed events) := by
  refine Trace.invariant (step fixed) (C := fun _ _ => True)
    (fun past l => Credentials fixed start past l) ?_ ?_ events fun _ _ _ _ => trivial
  · refine ⟨fun hYes => ?_, fun _ => hFresh, fun _ => Or.inl rfl⟩
    rw [hUnauthorized] at hYes
    cases hYes
  · intro past event _ hInv
    cases hRun : (start.run fixed past).running with
    | true =>
        have hCase := step_case fixed _ event hRun (run_isOpen hClosed past hRun)
        exact hInv.step rfl hRun hCase
    | false =>
        have hSame := step_stopped fixed (start.run fixed past) event hRun
        rw [hSame]
        exact ⟨fun h => (hInv.justified h).imp (·.concat event) (·.concat _ event), hInv.noSwitch,
          fun h => (hInv.factor h).imp_right fun hDevice => ⟨hDevice.1, hDevice.2.concat _ event⟩⟩

/-- A click or a switch of sides leaves the connection authorized. -/
theorem authorized_of_once (hClosed : start.state.conn.closed = false)
    (h : Trace.Once (step fixed)
      (fun l event => ManagerAuthorized l event ∨ SwitchAccepted fixed l event) start events) :
    (start.run fixed events).state.conn.authorized = true := by
  obtain ⟨past, event, rest, rfl, hEvent⟩ := h.split
  have hRun : (start.run fixed past).running = true := hEvent.elim (·.1) (·.1)
  have hOpen := run_isOpen hClosed past hRun
  have hCase := step_case fixed _ event hRun hOpen
  have same : ∀ {t : State} {v : LoginView}, t.conn.loginView = v → v.authorized = true →
      t.conn.authorized = true := by
    rintro t v rfl hv
    exact hv
  have hAuthorized : ((start.run fixed past).step fixed event).state.conn.authorized = true := by
    rcases hEvent with ⟨-, hManager⟩ | ⟨-, hFlutter, uuid, lr, hSwitch, hMatches⟩
    · generalize Loop.step fixed (start.run fixed past) event = l' at hCase ⊢
      obtain ⟨env, input⟩ := event
      obtain rfl : input = .cm .authorize := hManager
      cases hCase with
      | ordinary hLogin => cases hLogin
      | closes hLogin => cases hLogin
      | authorize hView => exact same hView (LoginView.authorize_authorized ..)
    · generalize Loop.step fixed (start.run fixed past) event = l' at hCase ⊢
      obtain ⟨env, input⟩ := event
      obtain rfl : input = .peer (.switchSidesResponse uuid (some lr)) := hSwitch
      cases hCase with
      | ordinary hLogin => cases hLogin
      | closes hLogin => cases hLogin
      | noSwitch hNone =>
          rcases hNone with hNone | hNo
          · cases hNone
          · rw [hFlutter] at hNo
            cases hNo
      | wrongSwitch _ hNo =>
          have hBoth : true = false := hMatches.symm.trans hNo
          cases hBoth
      | rightSwitch _ _ hView => exact same hView (LoginView.authorize_authorized ..)
  rw [run_split]
  exact run_authorized (fun hGo => hCase.isOpen hOpen hGo) hAuthorized rest

end Runs

section Statement
variable (fixed : Fixed) (world : World) (server : Option Server) (now : Nat) (id : Int)
  (ip salt challenge : String) (require2fa : Option Totp) (controlPermissions : Option Nat)
  (events : List Event)

/-- In every run of a connection, whenever it is authorized the events so far
justify it, exactly if every code that authorizes comes after a password that
was accepted. -/
theorem authorized_justified_iff_codes_after_password :
    let start := Loop.start fixed world server now id ip salt challenge require2fa controlPermissions
    (∀ past, past <+: events → (start.run fixed past).state.conn.authorized = true →
      Justified fixed start past) ↔
    Trace.Along (fun past event => AuthorizingCode fixed (start.run fixed past) event →
      Trace.Once (step fixed) (PasswordAccepted fixed) start past) events := by
  intro start
  constructor
  · intro hJustified past event rest hEvents hCode
    obtain ⟨hRun, hOpen, code, hwid, hEvent, hRight⟩ := hCode
    have hCase := step_case fixed _ event hRun (run_isOpen rfl past hRun)
    have hAfter : (start.run fixed (past ++ [event])).state.conn.authorized = true := by
      rw [run_concat]
      generalize Loop.step fixed (start.run fixed past) event = l' at hCase ⊢
      obtain ⟨env, input⟩ := event
      obtain rfl : input = .peer (.auth2fa code hwid) := hEvent
      cases hCase with
      | ordinary hLogin => cases hLogin
      | closes hLogin => cases hLogin
      | wrongCode hWrong => exact absurd hRight hWrong
      | rightCode _ hView =>
          exact (congrArg LoginView.authorized hView).trans (LoginView.authorize_authorized ..)
    have hBefore : ¬ Trace.Once (step fixed)
        (fun l event => ManagerAuthorized l event ∨ SwitchAccepted fixed l event) start past := by
      intro hOnce
      have hYes := authorized_of_once rfl hOnce
      rw [hOpen] at hYes
      cases hYes
    -- the last event is a code, so whatever justifies it happened before
    rcases hJustified (past ++ [event]) ⟨rest, by simp [hEvents]⟩ hAfter with
      hManager | hSwitch | ⟨hPassword, -⟩
    · rcases (Trace.once_concat ..).mp hManager with hOld | ⟨-, hLast⟩
      · exact absurd (hOld.mono _ fun _ _ h => Or.inl h) hBefore
      · rw [hEvent] at hLast
        cases hLast
    · rcases (Trace.once_concat ..).mp hSwitch with hOld | ⟨-, -, uuid, lr, hLast, -⟩
      · exact absurd (hOld.mono _ fun _ _ h => Or.inr h) hBefore
      · rw [hEvent] at hLast
        cases hLast
    · rcases (Trace.once_concat ..).mp hPassword with hOld | ⟨-, lr, hLast, -⟩
      · exact hOld
      · rw [hEvent] at hLast
        cases hLast
  · rintro hCodes past ⟨rest, rfl⟩ hAuthorized
    rcases (credentials_run rfl rfl rfl).justified hAuthorized with hWhy | hCode
    · exact hWhy
    · obtain ⟨before, event, after, rfl, hCode, hReceived⟩ := hCode.split
      have hPassword := hCodes before event (after ++ rest) (by simp) hCode
      exact Or.inr (Or.inr ⟨(Trace.once_append ..).mpr (Or.inl hPassword), fun _ =>
        Or.inl ((Trace.once_append ..).mpr (Or.inr (Or.inl hReceived)))⟩)

end Statement

/-- A connection that requires a second factor is authorized by a correct code
alone, with no login request before it. -/
theorem code_alone_authorizes :
    ¬ ∀ (fixed : Fixed) (world : World) (server : Option Server) (now : Nat) (id : Int)
        (ip salt challenge : String) (require2fa : Option Totp) (controlPermissions : Option Nat)
        (events past : List Event),
      let start := Loop.start fixed world server now id ip salt challenge require2fa controlPermissions
      past <+: events → (start.run fixed past).state.conn.authorized = true →
        Justified fixed start past := by
  intro h
  let totp : Totp := { digits := 6, secret := [1], issuer := "HibtDesk", accountName := "a" }
  let env : Env := { (default : Env) with checkCurrent := fun _ code => some (code == "123456") }
  let events : List Event := [(env, .peer (.auth2fa "123456" []))]
  have hJustified := h default default none 0 1 "10.0.0.1" "salt" "challenge" (some totp) none
    events events (List.prefix_refl _) (by rfl)
  simp [Justified, Trace.Once, ManagerAuthorized, SwitchAccepted, PasswordAccepted, events] at hJustified

end Loop

end HibtDesk
