import HibtDesk.Connection.Failures

/-! Passwords, recent sessions and what a login request leaves behind before
anything about it is checked. -/
namespace HibtDesk

def sessionTimeout : Nat := 30000

/-- `Connection::validate_one_password` on the stored login request. -/
def Connection.validateOnePassword (deps : Deps) (conn : Connection) (password : String) : Bool :=
  if password = "" then false
  else
    let hash := deps.sha256 (utf8 password ++ utf8 conn.salt)
    deps.sha256 (hash ++ utf8 conn.challenge) == conn.lr.password

namespace World

/-- `AuthedConnID::update_or_insert_session`. -/
def updateOrInsertSession (world : World) (now : Nat) (key : SessionKey) (password : Option String)
    (tfa : Option Bool) : World :=
  match world.sessions key with
  | some session =>
      let session := { session with
        randomPassword := password.getD session.randomPassword
        tfa := tfa.getD session.tfa }
      { world with sessions := Function.update world.sessions key (some session) }
  | none =>
      let session : Session :=
        { lastRecvTime := world.nextCell
          randomPassword := password.getD ""
          tfa := tfa.getD false }
      { world with
        sessions := Function.update world.sessions key (some session)
        cells := Function.update world.cells world.nextCell now
        nextCell := world.nextCell + 1 }

/-- `AuthedConnID::set_session_2fa`. -/
def setSession2fa (world : World) (now : Nat) (key : SessionKey) : World :=
  match world.sessions key with
  | some session =>
      { world with sessions := Function.update world.sessions key (some { session with tfa := true }) }
  | none =>
      let session : Session :=
        { lastRecvTime := world.nextCell, randomPassword := "", tfa := true }
      { world with
        sessions := Function.update world.sessions key (some session)
        cells := Function.update world.cells world.nextCell now
        nextCell := world.nextCell + 1 }

/-- `AuthedConnID::check_remove_session`. -/
def checkRemoveSession (world : World) (connId : Int) (key : SessionKey) : World :=
  let isRemote := world.authedConns.any fun c => c.connId == connId && c.connType == .remote
  let anotherRemote := world.authedConns.any fun c =>
    c.connId != connId && c.sessionKey == key && c.connType == .remote
  if isRemote || !anotherRemote then
    { world with sessions := Function.update world.sessions key none }
  else world

/-- The `retain` on the sessions in `is_recent_session`. -/
def retainSessions (world : World) (now : Nat) : World :=
  { world with sessions := fun key => (world.sessions key).filter fun session =>
      now - world.cells session.lastRecvTime < sessionTimeout }

/-- The `retain` on the pending switches of sides. -/
def retainSwitchSides (world : World) (now : Nat) : World :=
  { world with switchSidesUuid := fun id => (world.switchSidesUuid id).filter fun pending =>
      now - pending.1 < 10000 }

end World

namespace State

/-- `Connection::validate_password`. A match of the temporary password is
stored in the session, which thereby loses an earlier second factor. -/
def validatePassword (fixed : Fixed) (env : Env) (s : State) : State × Bool :=
  let config := s.world.config
  if config.temporaryEnabled
      && s.conn.validateOnePassword fixed.deps config.temporaryPassword then
    let world := s.world.updateOrInsertSession env.now s.conn.sessionKey
      (some config.temporaryPassword) (some false)
    ({ s with world := world }, true)
  else if config.permanentEnabled
      && s.conn.validateOnePassword fixed.deps config.permanentPassword then (s, true)
  else (s, false)

/-- `Connection::is_recent_session`. -/
def isRecentSession (fixed : Fixed) (env : Env) (s : State) (tfa : Bool) : State × Bool :=
  let s := { s with world := s.world.retainSessions env.now }
  match s.world.sessions s.conn.sessionKey with
  | some session =>
      (s, !s.conn.lr.password.isEmpty
        && (tfa && session.tfa
          || !tfa && s.conn.validateOnePassword fixed.deps session.randomPassword))
  | none => (s, false)

/-- The device a login request comes from is trusted: the first entry with its
hardware id is current and carries the same id, name and platform. -/
def isTrustedDevice (env : Env) (config : Config) (lr : LoginRequest) : Bool :=
  !lr.hwid.isEmpty && config.enableTrustedDevices
    && match config.trustedDevices.find? fun d => d.hwid == lr.hwid with
      | some device => !device.outdate env.time && device.id == lr.myId
          && device.name == lr.myName && device.platform == lr.myPlatform
      | none => false

/-- `Connection::handle_login_request_without_validation`. -/
def handleLoginRequestWithoutValidation (env : Env) (s : State) (lr : LoginRequest) : State :=
  { s with conn := { s.conn with
      lr := lr
      optionsInLogin := lr.option.orElse fun _ => s.conn.optionsInLogin
      require2fa :=
        if s.conn.require2fa.isSome && isTrustedDevice env s.world.config lr then none
        else s.conn.require2fa
      videoAckRequired := lr.videoAckRequired } }

/-- `Connection::check_failure` with its error message to the peer. -/
def checkFailure (fixed : Fixed) (env : Env) (s : State) (i : Fin 2) : State × FailureCheck :=
  let check := HibtDesk.checkFailure fixed.deps s.conn.ip (s.world.loginFailures i)
    (minuteOf env.time)
  match check.error with
  | some error => (s.sendLoginError error, check)
  | none => (s, check)

/-- `Connection::update_failure`. -/
def updateFailure (fixed : Fixed) (s : State) (check : FailureCheck) (remove : Bool)
    (i : Fin 2) : State :=
  let table := HibtDesk.updateFailure fixed.deps s.conn.ip (s.world.loginFailures i)
    check.failure check.time remove
  { s with world := { s.world with
      loginFailures := Function.update s.world.loginFailures i table } }

end State

end HibtDesk
