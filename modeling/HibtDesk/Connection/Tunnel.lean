import HibtDesk.Connection.Authorization

/-! When a target socket is relayed. The socket is opened before the login is
decided and is relayed whenever the loop is left with it, so the question is
how the loop can be left. -/
namespace HibtDesk

/-- The address a login request of this kind wants a tunnel to. -/
def tunnelTarget : Option LoginUnion → Option String
  | some (.portForward host port) => some (forwardAddress host port)
  | _ => none

theorem LoginView.withKind_socket (v : LoginView) (kind : Option LoginUnion) :
    (v.withKind kind).portForwardSocket = (tunnelTarget kind).or v.portForwardSocket := by
  unfold LoginView.withKind tunnelTarget
  split <;> rfl

namespace State
variable (fixed : Fixed) (env : Env)

theorem emits_onClose (s : State) (lock : Bool) :
    Emits (fun effect => effect.isLogin = false) s (s.onClose lock fixed.build) := by
  cases hClosed : s.conn.closed with
  | true =>
      unfold onClose
      rw [if_pos hClosed]
      exact .refl s
  | false => exact (closes_onClose fixed hClosed lock).emits.mono fun _ h => h.1

/-- After the loop a relay starts only for the socket still held. -/
theorem finish_startRelay (s : State) {target : String}
    (h : Effect.startRelay target ∈ (s.finish fixed env).effects) :
    Effect.startRelay target ∈ s.effects ∨ s.conn.portForwardSocket = some target := by
  have close : ∀ (t : State) (lock : Bool),
      Effect.startRelay target ∈ (t.onClose lock fixed.build).effects →
        Effect.startRelay target ∈ t.effects := fun t lock hMem =>
    (emits_onClose fixed t lock).mem (by simp [Effect.isLogin]) hMem
  have hRenew : (s.renewTemporaryPassword env).conn = s.conn ∧
      (s.renewTemporaryPassword env).effects = s.effects := by
    unfold renewTemporaryPassword
    split_ifs <;> exact ⟨rfl, rfl⟩
  -- nothing after the relay starts another one
  have hRelay : Effect.startRelay target ∈
      (s.renewTemporaryPassword env).tryPortForwardLoop.effects := by
    unfold finish at h
    have hLeft := close _ _ h
    dsimp only [leaveServer] at hLeft
    split_ifs at hLeft with hRelayed
    · exact close _ _ hLeft
    · exact hLeft
  unfold tryPortForwardLoop at hRelay
  rw [hRenew.1] at hRelay
  split at hRelay
  · rename_i address hSocket
    rw [emit_effects, List.mem_append, List.mem_singleton] at hRelay
    rcases hRelay with hOld | hNew
    · exact Or.inl (hRenew.2 ▸ hOld)
    · cases hNew
      exact Or.inr hSocket
  · exact Or.inl (hRenew.2 ▸ hRelay)

end State

namespace Loop
variable (fixed : Fixed)

/-- The stored request wants a tunnel to the address, and its password was
accepted when it came. -/
def TunnelPending (start : Loop) (past : List Event) (target : String) : Prop :=
  let lr := (start.run fixed past).state.conn.lr
  tunnelTarget lr.union = some target ∧
    Trace.Once (step fixed)
      (fun l event => event.2 = .peer (.loginRequest lr) ∧ PasswordAccepted fixed l event) start past

/-- The event is one that grants a tunnel to the address: a login request for
it, a code that completes one, or a click on one that is shown. -/
def GrantsTunnel (start : Loop) (past : List Event) (event : Event) (target : String) : Prop :=
  match event.2 with
  | .peer (.loginRequest lr) => tunnelTarget lr.union = some target
  | .peer (.auth2fa ..) => TunnelPending fixed start past target
  | .cm .authorize => ∃ login,
      shownLogin (start.run fixed past).state.effects = some login ∧ login.portForward = target
  | _ => False

/-- The event authorizes the connection and grants it a tunnel to the address. -/
def AuthorizesTunnel (start : Loop) (past : List Event) (event : Event) (target : String) : Prop :=
  let l := start.run fixed past
  l.running = true ∧ l.state.conn.authorized = false ∧
    (l.step fixed event).state.conn.authorized = true ∧ GrantsTunnel fixed start past event target

/-- A refused request finds no target socket and opens none, a request of
another kind, a switch of sides, a code or a click do not authorize a
connection whose socket they are not for. -/
def TunnelSafe (start : Loop) (past : List Event) (event : Event) : Prop :=
  let l := start.run fixed past
  l.running = true → l.state.conn.authorized = false →
  match event.2 with
  | .peer (.loginRequest lr) =>
      let s := l.stored event.1 lr
      let desktop := State.desktopError fixed event.1 lr
      (s.kindAllowed fixed event.1 lr = false → l.state.conn.portForwardSocket = none) ∧
        (s.kindAllowed fixed event.1 lr = true → s.knowsUsername fixed lr = false →
          desktop = "" ∨ desktop = "Desktop session not ready" →
          tunnelTarget lr.union = none ∧ l.state.conn.portForwardSocket = none) ∧
        (tunnelTarget lr.union = none → s.PasswordMatches fixed event.1 →
          l.state.conn.portForwardSocket = none)
  | .peer (.auth2fa code _) => (l.received event.1).CodeAccepted fixed event.1 code →
      ∀ target, l.state.conn.portForwardSocket = some target → TunnelPending fixed start past target
  | .peer (.switchSidesResponse uuid (some lr)) => fixed.build.flutter = true →
      (l.received event.1).switchSidesMatches event.1 uuid lr = true →
      l.state.conn.portForwardSocket = none
  | .cm .authorize => ∀ target, l.state.conn.portForwardSocket = some target →
      ∃ login, shownLogin l.state.effects = some login ∧ login.portForward = target
  | _ => True

/-- Some event so far authorized a tunnel to the address. -/
def TunnelAuthorized (start : Loop) (events : List Event) (target : String) : Prop :=
  ∃ past event rest, events = past ++ event :: rest ∧ AuthorizesTunnel fixed start past event target

/-- What is known about the target socket in every state of a run. -/
structure SocketHeld (start : Loop) (past : List Event) (l : Loop) : Prop where
  noRelay : ∀ target, Effect.startRelay target ∉ l.state.effects
  authorized : ∀ target, l.state.conn.portForwardSocket = some target →
    l.state.conn.authorized = true → TunnelAuthorized fixed start past target
  left : l.running = false → l.state.conn.portForwardSocket ≠ none →
    l.state.conn.authorized = true

section Invariant
variable {fixed} {start : Loop} {past : List Event} {event : Event}

theorem TunnelAuthorized.concat {target : String} (h : TunnelAuthorized fixed start past target)
    (event : Event) : TunnelAuthorized fixed start (past ++ [event]) target := by
  obtain ⟨first, found, last, rfl, hFound⟩ := h
  exact ⟨first, found, last ++ [event], by simp, hFound⟩

theorem stored_socket (l : Loop) (env : Env) (lr : LoginRequest) :
    (l.stored env lr).conn.loginView.portForwardSocket = l.state.conn.portForwardSocket :=
  congrArg LoginView.portForwardSocket (received_view l env)

theorem authorize_socket (v : LoginView) (options : Option OptionMessage) :
    (v.authorize options).portForwardSocket = v.portForwardSocket := by
  unfold LoginView.authorize LoginView.admitted
  split_ifs <;> rfl

/-- On an authorized connection the socket is kept or dropped. -/
theorem StepCase.socket_of_authorized {l l' : Loop} (h : StepCase fixed l event l')
    (hYes : l.state.conn.authorized = true) :
    l'.state.conn.portForwardSocket = l.state.conn.portForwardSocket ∨
      l'.state.conn.portForwardSocket = none := by
  have same : ∀ {v : LoginView}, l'.state.conn.loginView = v →
      v.portForwardSocket = l.state.conn.portForwardSocket →
      l'.state.conn.portForwardSocket = l.state.conn.portForwardSocket ∨
        l'.state.conn.portForwardSocket = none := by
    rintro v rfl hv
    exact Or.inl hv
  cases h with
  | ordinary _ hKeeps => exact same hKeeps.view rfl
  | closes _ hCloses _ => exact Or.inr (congrArg LoginView.portForwardSocket hCloses.login)
  | @loginRequest env lr _ _ hOutcome =>
      have hStored : (l.stored env lr).conn.authorized = true :=
        (congrArg LoginView.authorized (received_view l env)).trans hYes
      have hSame : l'.state = l.stored env lr :=
        congrArg Prod.fst (hOutcome.view.2.2.2.2 hStored)
      exact same (by rw [hSame]) (stored_socket l env lr)
  | wrongCode _ hKeeps => exact same hKeeps.view rfl
  | rightCode _ hView => exact same hView (authorize_socket ..)
  | noSwitch _ hKeeps => exact same hKeeps.view rfl
  | wrongSwitch _ _ hKeeps => exact same hKeeps.view (stored_socket l _ _)
  | @rightSwitch env _ lr _ _ _ _ hView =>
      exact same hView ((authorize_socket ..).trans (stored_socket l env lr))
  | authorize hView => exact same hView (authorize_socket ..)

/-- A peer message on an unauthorized connection does not start the relay. -/
theorem not_relays {s : State} (h : s.conn.authorized = false) : s.relays = false := by
  simp [State.relays, h]

/-- One event keeps what is known about the socket, if it is safe. -/
theorem SocketHeld.step (hClosed : start.state.conn.closed = false)
    (hInv : SocketHeld fixed start past (start.run fixed past))
    (hRun : (start.run fixed past).running = true) (hSafe : TunnelSafe fixed start past event) :
    SocketHeld fixed start (past ++ [event]) ((start.run fixed past).step fixed event) := by
  have hCase := step_case fixed _ event hRun (run_isOpen hClosed past hRun)
  have hNoRelay : ∀ target, Effect.startRelay target ∉
      ((start.run fixed past).step fixed event).state.effects := fun target hMem =>
    hInv.noRelay target (hCase.presents.emits.mem (fun h => h target rfl) hMem)
  cases hOpen : (start.run fixed past).state.conn.authorized with
  | true =>
      refine ⟨hNoRelay, fun target hSocket _ => ?_, fun _ _ => hCase.authorized hOpen⟩
      rcases hCase.socket_of_authorized hOpen with hSame | hNone
      · exact (hInv.authorized target (hSame ▸ hSocket) hOpen).concat event
      · rw [hNone] at hSocket
        cases hSocket
  | false =>
      have hStep := hSafe hRun hOpen
      -- the event that authorizes, for the socket held after it
      have hNow : ∀ target, ((start.run fixed past).step fixed event).state.conn.authorized = true →
          GrantsTunnel fixed start past event target →
          TunnelAuthorized fixed start (past ++ [event]) target := fun target hYes h =>
        ⟨past, event, [], rfl, hRun, hOpen, hYes, h⟩
      generalize Loop.step fixed (start.run fixed past) event = l' at hCase hNoRelay hNow ⊢
      generalize hLoop : start.run fixed past = l at *
      -- an event after which the connection is still not authorized
      have wait : ∀ {v : LoginView}, l'.state.conn.loginView = v → v.authorized = false →
          (l'.running = true ∨ v.portForwardSocket = none) →
          SocketHeld fixed start (past ++ [event]) l' := by
        rintro v rfl hNo hLeft
        refine ⟨hNoRelay, fun _ _ hYes => absurd (hYes.symm.trans hNo) (by simp), fun hStop hSome => ?_⟩
        rcases hLeft with hGo | hNone
        · rw [hGo] at hStop
          cases hStop
        · exact absurd hNone hSome
      -- an event that authorizes
      have grant : ∀ {v : LoginView}, l'.state.conn.loginView = v → v.authorized = true →
          (∀ target, v.portForwardSocket = some target →
            TunnelAuthorized fixed start (past ++ [event]) target) →
          SocketHeld fixed start (past ++ [event]) l' := by
        rintro v rfl hYes hWhy
        exact ⟨hNoRelay, fun target hSocket _ => hWhy target hSocket, fun _ _ => hYes⟩
      cases hCase with
      | ordinary _ hKeeps hOn =>
          refine wait hKeeps.view hOpen (Or.inl ?_)
          rcases hOn with hGo | hYes
          · exact hGo
          · rw [hOpen] at hYes
            cases hYes
      | closes _ hCloses _ => exact wait hCloses.login hOpen (Or.inr rfl)
      | @loginRequest env lr continues _ hOutcome hRunning =>
          obtain ⟨hRefused, hOffline, hOther⟩ := hStep
          have hStored : (l.stored env lr).conn.loginView.authorized = false :=
            (congrArg LoginView.authorized (received_view l env)).trans hOpen
          have hSocket := stored_socket l env lr
          cases hOutcome with
          | late hLate => exact absurd (hLate.symm.trans hStored) (by simp)
          | refused _ hKind hView =>
              obtain ⟨terminal, address, hView, -⟩ := hView
              exact wait hView hStored (Or.inr (hSocket.trans (hRefused hKind)))
          | offline _ hKind hName hReady hView =>
              refine wait hView ((LoginView.withKind_authorized ..).trans hStored) (Or.inr ?_)
              obtain ⟨hTarget, hNone⟩ := hOffline hKind hName hReady
              rw [LoginView.withKind_socket, hTarget, hSocket, hNone]
              rfl
          | waiting _ _ hView =>
              have hNo := (LoginView.withKind_authorized _ lr.union).trans hStored
              refine wait hView hNo (Or.inl ?_)
              rw [hRunning, not_relays ((congrArg LoginView.authorized hView).trans hNo)]
              rfl
          | accepted _ _ hAccepted hView =>
              refine grant hView rfl fun target hTarget => ?_
              have hYes : l'.state.conn.authorized = true := congrArg LoginView.authorized hView
              have hHeld : (LoginView.withKind (l.stored env lr).conn.loginView lr.union).portForwardSocket =
                some target := hTarget
              rw [LoginView.withKind_socket, hSocket] at hHeld
              cases hAsked : tunnelTarget lr.union with
              | some asked =>
                  rw [hAsked] at hHeld
                  exact hNow target hYes (hAsked.trans hHeld)
              | none =>
                  rw [hAsked, hOther hAsked hAccepted.password] at hHeld
                  cases hHeld
      | wrongCode _ hKeeps hRunning =>
          refine wait hKeeps.view hOpen (Or.inl ?_)
          rw [hRunning, not_relays ((congrArg LoginView.authorized hKeeps.view).trans hOpen)]
          rfl
      | @rightCode env code hwid _ _ hCode hView =>
          refine grant hView (LoginView.authorize_authorized ..) fun target hTarget => ?_
          have hYes : l'.state.conn.authorized = true :=
            (congrArg LoginView.authorized hView).trans (LoginView.authorize_authorized ..)
          rw [authorize_socket] at hTarget
          exact hNow target hYes (hStep hCode target hTarget)
      | noSwitch _ hKeeps hRunning =>
          refine wait hKeeps.view hOpen (Or.inl ?_)
          rw [hRunning, not_relays ((congrArg LoginView.authorized hKeeps.view).trans hOpen)]
          rfl
      | @wrongSwitch env _ lr _ _ _ hKeeps hRunning =>
          have hNo : (l.stored env lr).conn.loginView.authorized = false :=
            (congrArg LoginView.authorized (received_view l env)).trans hOpen
          refine wait hKeeps.view hNo (Or.inl ?_)
          rw [hRunning, not_relays ((congrArg LoginView.authorized hKeeps.view).trans hNo)]
          rfl
      | @rightSwitch env uuid lr _ _ hFlutter hMatches hView =>
          refine grant hView (LoginView.authorize_authorized ..) fun target hTarget => ?_
          rw [authorize_socket] at hTarget
          have hHeld := (stored_socket l env lr).symm.trans hTarget
          rw [hStep hFlutter hMatches] at hHeld
          cases hHeld
      | authorize hView =>
          refine grant hView (LoginView.authorize_authorized ..) fun target hTarget => ?_
          have hYes : l'.state.conn.authorized = true :=
            (congrArg LoginView.authorized hView).trans (LoginView.authorize_authorized ..)
          rw [authorize_socket] at hTarget
          exact hNow target hYes (by rw [GrantsTunnel, hLoop]; exact hStep target hTarget)

end Invariant

section Statement
variable (fixed : Fixed) (world : World) (server : Option Server) (now : Nat) (id : Int)
  (ip salt challenge : String) (require2fa : Option Totp) (controlPermissions : Option Nat)
  (events : List Event)

/-- In every run whose events are all safe, a relay that starts when the loop
was left runs for an authorized connection, and an event of the run authorized
it for the very address of the socket. -/
theorem relay_authorized_of_safe_events :
    let start := Loop.start fixed world server now id ip salt challenge require2fa controlPermissions
    let left := start.run fixed events
    Trace.Along (TunnelSafe fixed start) events → left.running = false →
    ∀ (env : Env) (target : String),
      Effect.startRelay target ∈ (left.state.finish fixed env).effects →
      left.state.conn.authorized = true ∧ TunnelAuthorized fixed start events target := by
  intro start left hSafe hStop env target hRelay
  have hInv : SocketHeld fixed start events left := by
    refine Trace.invariant (step fixed) (fun past l => SocketHeld fixed start past l)
      ?_ ?_ events hSafe
    · refine ⟨fun target hMem => ?_, fun target hSocket => (by cases hSocket),
        fun hNot => (by cases hNot)⟩
      have hSend : ∀ effect ∈ start.state.effects, ∃ message, effect = .send message := by
        intro effect hEffect
        obtain ⟨⟨permission, enabled⟩, -, hSome⟩ := List.mem_filterMap.mp hEffect
        dsimp only at hSome
        split_ifs at hSome
        exact ⟨_, (Option.some.inj hSome).symm⟩
      obtain ⟨message, hMessage⟩ := hSend _ hMem
      cases hMessage
    · intro past event hEvent hPast
      cases hRun : (start.run fixed past).running with
      | true => exact hPast.step rfl hRun hEvent
      | false =>
          rw [show Loop.step fixed (Trace.run (step fixed) start past) event = _ from
            step_stopped fixed _ event hRun]
          exact ⟨hPast.noRelay, fun target hSocket hYes =>
            (hPast.authorized target hSocket hYes).concat event, hPast.left⟩
  rcases State.finish_startRelay fixed env left.state hRelay with hOld | hSocket
  · exact absurd hOld (hInv.noRelay target)
  · have hYes := hInv.left hStop (by rw [hSocket]; simp)
    exact ⟨hYes, hInv.authorized target hSocket hYes⟩

end Statement

/-- A port forward accepted by its password is relayed, and authorized so. -/
theorem relay_authorized_after_password :
    let world : World := { (default : World) with
      config := { (default : Config) with permanentPassword := "password" } }
    let env : Env := { (default : Env) with connects := fun _ => true }
    let start := Loop.start default world none 0 1 "10.0.0.1" "salt" "challenge" none none
    let lr : LoginRequest :=
      { password := utf8 "passwordsaltchallenge", union := some (.portForward "" 22) }
    let events : List Event := [(env, .peer (.loginRequest lr))]
    let left := start.run default events
    left.running = false ∧
      Effect.startRelay "localhost:22" ∈ (left.state.finish default default).effects ∧
      left.state.conn.authorized = true ∧ TunnelAuthorized default start events "localhost:22" := by
  intro world env start lr events left
  have hStop : left.running = false := by decide +kernel
  have hRelay : Effect.startRelay "localhost:22" ∈ (left.state.finish default default).effects := by
    decide +kernel
  refine ⟨hStop, hRelay, relay_authorized_of_safe_events default world none 0 1 "10.0.0.1" "salt"
    "challenge" none none events ?_ hStop default "localhost:22" hRelay⟩
  refine (Trace.along_singleton _).mpr fun _ _ => ⟨fun hKind => ?_, fun _ hName => ?_, fun hTarget => ?_⟩
  · exact absurd hKind (by decide +kernel)
  · exact absurd hName (by decide +kernel)
  · cases hTarget

/-- A request for a tunnel that names another machine is refused, and the
tunnel is relayed all the same. -/
theorem refused_request_is_relayed :
    ¬ ∀ (fixed : Fixed) (world : World) (server : Option Server) (now : Nat) (id : Int)
        (ip salt challenge : String) (require2fa : Option Totp) (controlPermissions : Option Nat)
        (events : List Event),
      let start := Loop.start fixed world server now id ip salt challenge require2fa controlPermissions
      let left := start.run fixed events
      left.running = false → ∀ (env : Env) (target : String),
        Effect.startRelay target ∈ (left.state.finish fixed env).effects →
        left.state.conn.authorized = true ∧ TunnelAuthorized fixed start events target := by
  intro h
  let env : Env := { (default : Env) with connects := fun _ => true }
  let lr : LoginRequest := { username := "nobody", union := some (.portForward "" 22) }
  have hBoth := h default default none 0 1 "10.0.0.1" "salt" "challenge" none none
    [(env, .peer (.loginRequest lr))] (by decide +kernel) default "localhost:22" (by decide +kernel)
  exact absurd hBoth.1 (by decide +kernel)

end Loop

end HibtDesk
