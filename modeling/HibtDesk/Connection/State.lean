import HibtDesk.Common.Version
import HibtDesk.Connection.Messages
import HibtDesk.Connection.Server

/-! The state a server connection works on: its own fields, the process-wide
tables it shares with the other connections, and the readings it takes from the
platform. Effects on anything else are recorded in order. -/
namespace HibtDesk

/-- `totp_rs::TOTP` with the parameters the program sets: SHA-1, one step of
skew, steps of thirty seconds. -/
structure Totp where
  digits : Nat
  secret : Bytes
  issuer : String
  accountName : String
  deriving DecidableEq, Repr

structure SessionKey where
  peerId : String
  name : String
  sessionId : Nat
  deriving DecidableEq, Repr

/-- `lastRecvTime` names the shared cell that holds the instant. -/
structure Session where
  lastRecvTime : Nat
  randomPassword : String
  tfa : Bool
  deriving DecidableEq, Repr

inductive AuthConnType where
  | remote | fileTransfer | portForward | viewCamera | terminal
  deriving DecidableEq, Repr

structure AuthedConn where
  connId : Int
  connType : AuthConnType
  sessionKey : SessionKey
  deriving DecidableEq, Repr

/-- The minute of the last failure, the failures in that minute, and all. -/
structure Failure where
  minute : Int := 0
  inMinute : Int := 0
  total : Int := 0
  deriving DecidableEq, Repr

/-- `TerminalUserToken`; the token is that of the logged-on user on Windows. -/
inductive TerminalUserToken where
  | selfUser
  | currentLogonUser (token : Nat)
  deriving DecidableEq, Repr

def TerminalUserToken.toTerminalServiceToken : TerminalUserToken → Option Nat
  | .selfUser => none
  | .currentLogonUser token => some token

/-- No option is set and no password known. -/
instance : Inhabited Config :=
  ⟨{ option := fun _ => "", builtin := fun _ => "", id := "", temporaryPassword := ""
     permanentPassword := "", trustedDevices := [] }⟩

/-- The tables of the process. `cells` holds the instants behind the
`Arc<Mutex<Instant>>` of the sessions; `loginFailures 0` counts passwords and
`loginFailures 1` second factors. -/
structure World where
  config : Config
  sessions : SessionKey → Option Session
  cells : Nat → Nat
  nextCell : Nat
  loginFailures : Fin 2 → String → Option Failure
  switchSidesUuid : String → Option (Nat × Bytes)
  authedConns : List AuthedConn

instance : Inhabited World :=
  ⟨{ config := default, sessions := fun _ => none, cells := fun _ => 0, nextCell := 0
     loginFailures := fun _ _ => none, switchSidesUuid := fun _ => none, authedConns := [] }⟩

/-- Functions of other crates, fixed for a run. -/
structure Deps where
  sha256 : Bytes → Bytes
  isIpStr : String → Bool
  isDomainPortStr : String → Bool
  parseIpv6 : String → Option Nat
  showIpv6 : Nat → String
  keycodeToRdevKey : Nat → Nat
  isModifierKey : Nat → Bool
  isModifier : KeyEvent → Bool

/-- Hashing is the identity and no text is an address. -/
instance : Inhabited Deps :=
  ⟨{ sha256 := id, isIpStr := fun _ => false, isDomainPortStr := fun _ => false
     parseIpv6 := fun _ => none, showIpv6 := fun _ => "", keycodeToRdevKey := id
     isModifierKey := fun _ => false, isModifier := fun _ => false }⟩

/-- What the platform answers while one event is handled. The clocks are the
monotonic `now` and the wall clock `time`, both in milliseconds. -/
structure Env where
  now : Nat
  time : Int
  connects : String → Bool
  checkCurrent : Totp → String → Option Bool
  isInPrivacyMode : Bool
  isPrelogin : Bool
  isLocked : Bool
  isInstalled : Bool
  tryStartDesktop : Option OsLogin → String
  administratorCheck : String → String → Option String
  installedUserToken : Except String Nat
  isServiceSpecifiedUser : String → Option Bool
  displayServerError : String
  displaysOnLogin : Except String Unit
  waitSessionIdConfirm : Bool
  currentProcessSid : Option Nat
  switchesSession : Nat → Bool
  isDir : String → Bool
  generatedServiceId : String
  primaryCameraExists : Bool
  needFsCmSendFiles : Bool
  readJobFiles : String → Except String Nat
  maxValidatedFiles : Nat
  portableServiceErr : Option String
  retinaMouseEvent : MouseEvent → MouseEvent
  whiteboardNotSupportMsg : String
  trustedDevicesTooLarge : List TrustedDevice → Bool
  updatedTemporaryPassword : String

/-- Nothing answers, and nothing is out of the ordinary. -/
instance : Inhabited Env :=
  ⟨{ now := 0, time := 0, connects := fun _ => false, checkCurrent := fun _ _ => none
     isInPrivacyMode := false, isPrelogin := false, isLocked := false, isInstalled := false
     tryStartDesktop := fun _ => "", administratorCheck := fun _ _ => none
     installedUserToken := .ok 0, isServiceSpecifiedUser := fun _ => none, displayServerError := ""
     displaysOnLogin := .ok (), waitSessionIdConfirm := false, currentProcessSid := none
     switchesSession := fun _ => false, isDir := fun _ => false, generatedServiceId := ""
     primaryCameraExists := false, needFsCmSendFiles := false, readJobFiles := fun _ => .ok 0
     maxValidatedFiles := 0, portableServiceErr := none, retinaMouseEvent := id
     whiteboardNotSupportMsg := "", trustedDevicesTooLarge := fun _ => false
     updatedTemporaryPassword := "" }⟩

/-- The fields of `Connection`, with their comments' grouping dropped. A held
target socket is known by the address it was opened for. -/
structure Connection where
  id : Int
  ip : String
  salt : String
  challenge : String
  displayIdx : Nat
  fileTransfer : Option (String × Bool)
  viewCamera : Bool
  terminal : Bool
  portForwardSocket : Option String
  portForwardAddress : String
  authorized : Bool
  require2fa : Option Totp
  keyboard : Bool
  clipboard : Bool
  audio : Bool
  file : Bool
  restart : Bool
  recording : Bool
  blockInput : Bool
  controlPermissions : Option Nat
  lastTestDelay : Option Nat
  networkDelay : Nat
  lockAfterSessionEnd : Bool
  showRemoteCursor : Bool
  disableKeyboard : Bool
  showMyCursor : Bool
  disableClipboard : Bool
  disableAudio : Bool
  enableFileTransfer : Bool
  audioSender : Bool
  videoAckRequired : Bool
  lr : LoginRequest
  sessionLastRecvTime : Option Nat
  chatUnanswered : Bool
  fileTransferred : Bool
  fromSwitch : Bool
  voiceCallRequestTimestamp : Option Int
  voiceCalling : Bool
  optionsInLogin : Option OptionMessage
  pressedModifiers : List Nat
  closed : Bool
  cmIpcStarted : Bool
  autoDisconnectTimer : Option (Nat × Nat)
  authedConnId : Option AuthConnType
  servicesSubed : Bool
  delayedReadDir : Option (String × Bool)
  followRemoteCursor : Bool
  followRemoteWindow : Bool
  multiUiSession : Bool
  printerData : List String
  readJobIds : List Int
  cmReadJobIds : List Int
  terminalServiceId : String
  terminalPersistent : Bool
  terminalUserToken : Option TerminalUserToken
  terminalGenericService : Bool

/-- What a handler of the connection reads and writes. `server` is the
upgraded weak pointer, absent once the server is gone. -/
structure State where
  conn : Connection
  world : World
  server : Option Server
  effects : List Effect

/-- The fixed surroundings of a run. -/
structure Fixed where
  build : Build
  deps : Deps
  primaryDisplayIdx : Nat
  primaryCameraIdx : Nat

instance : Inhabited Fixed :=
  ⟨{ build := { targetOs := .linux, flutter := true, unixFileCopyPaste := true }, deps := default
     primaryDisplayIdx := 0, primaryCameraIdx := 0 }⟩

namespace Connection

/-- `Connection::session_key`. -/
def sessionKey (conn : Connection) : SessionKey :=
  { peerId := conn.lr.myId, name := conn.lr.myName, sessionId := conn.lr.sessionId }

def isRemote (conn : Connection) : Bool :=
  conn.fileTransfer.isNone && conn.portForwardSocket.isNone && !conn.viewCamera && !conn.terminal

def peerKeyboardEnabled (conn : Connection) : Bool := conn.keyboard && !conn.disableKeyboard

def clipboardEnabled (conn : Connection) : Bool := conn.clipboard && !conn.disableClipboard

def canSubClipboardService (conn : Connection) (config : Config) : Bool :=
  conn.clipboardEnabled && conn.peerKeyboardEnabled
    && config.builtin "one-way-clipboard-redirection" != "Y"

def audioEnabled (conn : Connection) : Bool := conn.audio && !conn.disableAudio

def fileTransferEnabled (conn : Connection) : Bool := conn.file && conn.enableFileTransfer

def canSubFileClipboardService (conn : Connection) (config : Config) : Bool :=
  conn.clipboardEnabled && conn.fileTransferEnabled
    && config.builtin "one-way-file-transfer" != "Y"

def isAuthedRemoteConn (conn : Connection) : Bool := conn.authedConnId == some .remote

def isAuthedViewCameraConn (conn : Connection) : Bool := conn.authedConnId == some .viewCamera

/-- The kind under which the connection is authorized: the first flag set, in
the order of `send_logon_response`. -/
def authConnType (conn : Connection) : AuthConnType :=
  if conn.fileTransfer.isSome then .fileTransfer
  else if conn.portForwardSocket.isSome then .portForward
  else if conn.viewCamera then .viewCamera
  else if conn.terminal then .terminal
  else .remote

def videoSource (conn : Connection) : VideoSource :=
  if conn.viewCamera then .camera else .monitor

end Connection

namespace State

def emit (s : State) (effect : Effect) : State := { s with effects := s.effects ++ [effect] }

def send (s : State) (message : PeerMessage) : State := s.emit (.send message)

def sendToCm (s : State) (data : CmData) : State := s.emit (.toCm data)

def sendFs (s : State) (request : Fs) : State := s.sendToCm (.fs request)

/-- `server.upgrade()` followed by `subscribe` on it. -/
def subscribe (s : State) (name : ServiceName) (sub : Bool) : State :=
  { s with server := s.server.map fun server => server.subscribe name s.conn.id sub }

/-- Whether this connection is subscribed to the service. -/
def subed (s : State) (name : ServiceName) : Bool :=
  match s.server with
  | some server => server.isSubed name s.conn.id
  | none => false

/-- `Connection::send_login_error`. -/
def sendLoginError (s : State) (error : String) : State :=
  s.send (.loginError error (error == "2FA Required" && s.world.config.enableTrustedDevices))

/-- `Connection::try_start_cm`. -/
def tryStartCm (s : State) (peerId name : String) (authorized : Bool) : State :=
  let conn := s.conn
  s.sendToCm (.login {
    isFileTransfer := conn.fileTransfer.isSome
    isViewCamera := conn.viewCamera
    isTerminal := conn.terminal
    portForward := conn.portForwardAddress
    peerId := peerId
    name := name
    authorized := authorized
    keyboard := conn.keyboard
    clipboard := conn.clipboard
    audio := conn.audio
    file := conn.file
    restart := conn.restart
    recording := conn.recording
    blockInput := conn.blockInput
    fromSwitch := conn.fromSwitch })

/-- `Connection::on_close`: only the first call has an effect, and it drops
the target socket. -/
def onClose (s : State) (lock : Bool) (build : Build) : State :=
  if s.conn.closed then s
  else
    let s := { s with conn := { s.conn with closed := true } }
    let s := s.emit (.setVoiceCallInputDevice false)
    let s := if lock && s.conn.lockAfterSessionEnd && s.conn.keyboard then s.emit .lockScreen else s
    let s := s.sendToCm
      (if s.conn.chatUnanswered || s.conn.fileTransferred && build.flutter then .disconnected
       else .close)
    { s with conn := { s.conn with portForwardSocket := none } }

/-- `update_auto_disconnect_timer`. -/
def updateAutoDisconnectTimer (s : State) (env : Env) : State :=
  { s with conn := { s.conn with
      autoDisconnectTimer := s.conn.autoDisconnectTimer.map fun t => (env.now, t.2) } }

end State

end HibtDesk
