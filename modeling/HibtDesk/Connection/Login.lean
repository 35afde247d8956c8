import HibtDesk.Connection.Logon

/-! The login messages: `LoginRequest`, `Auth2fa` and `SwitchSidesResponse`.
The result of a handler is the new state and whether the connection goes on. -/
namespace HibtDesk

/-- The address a port-forward request asks for. -/
def forwardAddress (host : String) (port : Int) : String :=
  let (host, port) := if host = "RDP" ∧ port = 0 then ("localhost", 3389) else (host, port)
  let host := if host = "" then "localhost" else host
  host ++ ":" ++ toString port

/-- `uuid::Uuid::from_slice`. -/
def uuidFromSlice (bytes : Bytes) : Option Bytes := if bytes.length = 16 then some bytes else none

/-- How a login request is treated once its kind was accepted, the cases of
the `if` chain in `on_message`. -/
inductive LoginCase where
  | offline | click | recentSession | emptyPassword | password
  deriving DecidableEq, Repr

namespace State
variable (fixed : Fixed) (env : Env)

/-- An error answer that ends the connection. -/
def refuse (s : State) (error : String) : State × Bool := (s.sendLoginError error, false)

def permission (s : State) (enablePrefixOption : String) : Bool :=
  HibtDesk.permission fixed.build s.world.config enablePrefixOption s.conn.controlPermissions

/-- `Connection::fill_terminal_user_token`. -/
def fillTerminalUserToken (s : State) (osLogin : OsLogin) : State × Option String :=
  let set := fun token => { s with conn := { s.conn with terminalUserToken := token } }
  if fixed.build.targetOs ≠ .windows then (set (some .selfUser), none)
  else if osLogin.username ≠ "" then
    match env.administratorCheck osLogin.username osLogin.password with
    | none => (set (some .selfUser), none)
    | some error => (s, some error)
  else if env.isPrelogin then
    (set none, some "No active console user logged on, please connect and logon first.")
  else if env.isInstalled then
    match env.installedUserToken with
    | .ok token => (set (some (.currentLogonUser token)), none)
    | .error error => (s, some error)
  else (set (some .selfUser), none)

/-- A terminal service that exists belongs to the same sort of user. -/
def terminalUserMismatch (s : State) : Bool :=
  match env.isServiceSpecifiedUser s.conn.terminalServiceId, s.conn.terminalUserToken with
  | some isUser, some token => isUser != token.toTerminalServiceToken.isSome
  | _, _ => false

/-- The terminal flag and its settings, set before the user is known. -/
def openTerminal (s : State) (serviceId : String) : State :=
  let terminalPersistent := match s.conn.optionsInLogin with
    | some o => o.terminalPersistent == some .yes
    | none => s.conn.terminalPersistent
  { s with conn := { s.conn with
      terminal := true
      terminalPersistent := terminalPersistent
      terminalServiceId := serviceId } }

def checkTerminalUser (s : State) (osLogin : OsLogin) : State × Bool :=
  let (s, error) := s.fillTerminalUserToken fixed env osLogin
  match error with
  | some error => s.refuse error
  | none =>
      if s.terminalUserMismatch env then s.refuse "Terminal service user mismatch detected."
      else (s, true)

def loginTerminal (s : State) (lr : LoginRequest) (serviceId : String) : State × Bool :=
  let osLogin := lr.osLogin.getD {}
  if !s.permission fixed "enable-terminal" then s.refuse "No permission of terminal"
  else if fixed.build.targetOs = .windows ∧ osLogin.username ≠ "" ∧ env.isInstalled = false then
    s.refuse "Supported only in the installed version."
  else (s.openTerminal serviceId).checkTerminalUser fixed env osLogin

def loginPortForward (s : State) (host : String) (port : Int) : State × Bool :=
  if !s.permission fixed "enable-tunnel" then s.refuse "No permission of IP tunneling"
  else
    let addr := forwardAddress host port
    let s := { s with conn := { s.conn with portForwardAddress := addr } }
    if env.connects addr then
      ({ s with conn := { s.conn with portForwardSocket := some addr } }, true)
    else
      let addr := if host = "RDP" ∧ port = 0 then "RDP" else addr
      s.refuse ("Failed to access remote " ++ addr ++ ", please make sure if it is open")

/-- The first half of a login request: what its kind needs. A target socket
is opened here, before any password is looked at. -/
def loginKind (s : State) (lr : LoginRequest) : State × Bool :=
  match lr.union with
  | some (.fileTransfer dir showHidden) =>
      if !s.permission fixed "enable-file-transfer" then
        s.refuse "No permission of file transfer"
      else ({ s with conn := { s.conn with fileTransfer := some (dir, showHidden) } }, true)
  | some .viewCamera =>
      if !s.permission fixed "enable-camera" then s.refuse "No permission of viewing camera"
      else ({ s with conn := { s.conn with viewCamera := true } }, true)
  | some (.terminal serviceId) => s.loginTerminal fixed env lr serviceId
  | some (.portForward host port) => s.loginPortForward fixed env host port
  | none =>
      if env.isInPrivacyMode then s.refuse "Someone turns on privacy mode, exit"
      else (s, true)

/-- Whether a click in the connection manager is the only way in. -/
def needsClick (s : State) : Bool :=
  let config := s.world.config
  (config.approveMode == .click
      && !(config.builtin "allow-logon-screen-password" == "Y" && (env.isPrelogin || env.isLocked)))
    || config.approveMode == .both && !config.hasValidPassword

/-- The name the peer logs in to is an address or this machine. -/
def knowsUsername (s : State) (lr : LoginRequest) : Bool :=
  fixed.deps.isIpStr lr.username || fixed.deps.isDomainPortStr lr.username
    || lr.username == s.world.config.id

/-- Which case of the chain applies. The recent sessions are pruned when the
third condition is reached. -/
def loginCase (s : State) (lr : LoginRequest) : State × LoginCase :=
  if !s.knowsUsername fixed lr then (s, .offline)
  else if s.needsClick env then (s, .click)
  else
    let (s, recent) := s.isRecentSession fixed env false
    if recent then (s, .recentSession)
    else if lr.password.isEmpty then (s, .emptyPassword)
    else (s, .password)

/-- A login request whose password or session was accepted. -/
def loginAccepted (s : State) (lr : LoginRequest) (errMsg : String) : State :=
  if errMsg = "" then
    let s := s.sendLogonResponse fixed env
    s.tryStartCm lr.myId lr.myName s.conn.authorized
  else s.sendLoginError errMsg

/-- The last case of the chain: the password is checked unless the peer failed
too often. -/
def loginPassword (s : State) (lr : LoginRequest) (errMsg : String) : State :=
  let (s, check) := s.checkFailure fixed env 0
  if check.error.isSome then s
  else
    let (s, valid) := s.validatePassword fixed env
    if valid then (s.updateFailure fixed check true 0).loginAccepted fixed env lr errMsg
    else
      let s := s.updateFailure fixed check false 0
      if errMsg = "" then
        (s.sendLoginError "Wrong Password").tryStartCm lr.myId lr.myName false
      else s.sendLoginError "Desktop session not ready, password wrong"

/-- The second half of a login request. -/
def loginChain (s : State) (lr : LoginRequest) (errMsg : String) : State × Bool :=
  let (s, loginCase) := s.loginCase fixed env lr
  match loginCase with
  | .offline => s.refuse "Offline"
  | .click =>
      let s := s.tryStartCm lr.myId lr.myName false
      if getVersionNumber lr.version ≥ getVersionNumber "1.2.0" then
        (s.sendLoginError "No Password Access", true)
      else (s, true)
  | .recentSession => (s.loginAccepted fixed env lr errMsg, true)
  | .emptyPassword =>
      if errMsg = "" then (s.tryStartCm lr.myId lr.myName false, true)
      else (s.sendLoginError "Desktop session not ready, password empty", true)
  | .password => (s.loginPassword fixed env lr errMsg, true)

/-- What `try_start_desktop` reports; only Linux starts a desktop. -/
def desktopError (lr : LoginRequest) : String :=
  if fixed.build.targetOs = .linux then env.tryStartDesktop lr.osLogin else ""

/-- `on_message` for a `LoginRequest`. -/
def onLoginRequest (s : State) (lr : LoginRequest) : State × Bool :=
  let s := s.handleLoginRequestWithoutValidation env lr
  if s.conn.authorized then (s, true)
  else
    let (s, accepted) := s.loginKind fixed env lr
    if !accepted then (s, false)
    else
      let s := { s with conn := { s.conn with cmIpcStarted := true } }
      let errMsg := desktopError fixed env lr
      if errMsg ≠ "" ∧ errMsg ≠ "Desktop session not ready" then (s.sendLoginError errMsg, true)
      else s.loginChain fixed env lr errMsg

/-- The device the code came from is remembered as trusted. -/
def rememberDevice (s : State) (hwid : Bytes) : State :=
  if !hwid.isEmpty && s.world.config.enableTrustedDevices then
    let device : TrustedDevice :=
      { hwid := hwid, time := env.time, id := s.conn.lr.myId, name := s.conn.lr.myName,
        platform := s.conn.lr.myPlatform }
    let config := s.world.config.addTrustedDevice env.time env.trustedDevicesTooLarge device
    { s with world := { s.world with config := config } }
  else s

/-- A correct code drops the requirement, for the session as well. -/
def passSecondFactor (s : State) (check : FailureCheck) : State :=
  let s := s.updateFailure fixed check true 1
  let s := { s with conn := { s.conn with require2fa := none } }
  { s with world := s.world.setSession2fa env.now s.conn.sessionKey }

/-- A correct code: the login is answered. -/
def acceptCode (s : State) (check : FailureCheck) (hwid : Bytes) : State :=
  let s := (s.passSecondFactor fixed env check).sendLogonResponse fixed env
  let s := s.tryStartCm s.conn.lr.myId s.conn.lr.myName s.conn.authorized
  s.rememberDevice env hwid

/-- `on_message` for an `Auth2fa`. -/
def onAuth2fa (s : State) (code : String) (hwid : Bytes) : State :=
  let (s, check) := s.checkFailure fixed env 1
  if check.error.isSome then s
  else match s.conn.require2fa with
    | none => s
    | some totp =>
        match env.checkCurrent totp code with
        | none => s
        | some true => s.acceptCode fixed env check hwid
        | some false => (s.updateFailure fixed check false 1).sendLoginError "Wrong 2FA Code"

/-- The code is one the required second factor accepts, and the peer may try. -/
def CodeAccepted (s : State) (code : String) : Prop :=
  ∃ totp, s.conn.require2fa = some totp ∧ env.checkCurrent totp code = some true ∧
    (HibtDesk.checkFailure fixed.deps s.conn.ip (s.world.loginFailures 1)
      (minuteOf env.time)).error = none

/-- The uuid carried is the one pending for this peer, not older than ten
seconds. -/
def switchSidesMatches (s : State) (uuid : Bytes) (lr : LoginRequest) : Bool :=
  match uuidFromSlice uuid, (s.world.retainSwitchSides env.now).switchSidesUuid lr.myId with
  | some uuid, some (_, uuidOld) => uuid == uuidOld
  | _, _ => false

/-- The pending uuid of the peer is taken out of the table. -/
def takeSwitchSides (s : State) (lr : LoginRequest) : State :=
  let world := s.world.retainSwitchSides env.now
  { s with world := { world with
      switchSidesUuid := Function.update world.switchSidesUuid lr.myId none } }

/-- `on_message` for a `SwitchSidesResponse`, a feature of the flutter build. -/
def onSwitchSidesResponse (s : State) (uuid : Bytes) (lr : Option LoginRequest) : State :=
  match lr with
  | some lr =>
      if fixed.build.flutter then
        let s := s.handleLoginRequestWithoutValidation env lr
        let isPending := s.switchSidesMatches env uuid lr
        let s := s.takeSwitchSides env lr
        if isPending then
          let s := { s with conn := { s.conn with fromSwitch := true } }
          let s := s.sendLogonResponse fixed env
          let s := s.tryStartCm lr.myId lr.myName s.conn.authorized
          { s with conn := { s.conn with cmIpcStarted := true } }
        else s
      else s
  | none => s

end State

end HibtDesk
