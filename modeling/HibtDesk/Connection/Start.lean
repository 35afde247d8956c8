import HibtDesk.Connection.OnMessage
import HibtDesk.Library.Trace

/-! The loop of `Connection::start`. One event is one completed branch of its
`select!`; the branches run to their end before the next one is taken. Other
connections of the process may change the shared tables between two events. -/
namespace HibtDesk

/-- What the services put on the channel to the peer. -/
inductive Outgoing where
  | stopService | peerInfo | cursorPosition (followed : Bool) | other
  deriving DecidableEq, Repr

/-- The branches of the `select!`, with the outcome of the awaited operation. -/
inductive Input where
  | cm (message : CmMessage)
  | peer (message : Message)
  | peerUnparsed
  | streamError
  | streamEnd
  | fileTimer (finished : Option (List Int))
  | webConsole
  | video (sent : Bool)
  | outgoing (message : Outgoing) (sent : Bool)
  | printerData (data : Bytes)
  | secondTimer
  | testDelayTimer
  | clipFile (payload : Bytes) (isStoppingAllowed isBeginning : Bool)
  | others (world : World) (added : List ServiceName) (subed : ServiceName → Int → Bool)

abbrev Event := Env × Input

/-- The state of the loop. It is left with `running = false`. -/
structure Loop where
  state : State
  lastRecvTime : Nat
  running : Bool

namespace State
variable (fixed : Fixed) (env : Env)

/-- `Connection::send_close_reason_no_retry`. -/
def sendCloseReasonNoRetry (s : State) (reason : String) : State :=
  let s := s.send (.closeReason (if reason = "" then "Closed manually by the peer" else reason))
  { s with world := s.world.checkRemoveSession s.conn.id s.conn.sessionKey }

/-- The branch for `SwitchPermission`, one case for each name. -/
def switchPermission (s : State) (name : Permission) (enabled : Bool) : State :=
  match name with
  | .keyboard =>
      let s := { s with conn := { s.conn with keyboard := enabled } }
      let s := s.sendPermission .keyboard enabled
      let s := s.refreshClipboard
      let s := s.refreshFileClipboard fixed
      s.subscribe .mouseCursor (enabled || s.conn.showRemoteCursor)
  | .clipboard =>
      let s := { s with conn := { s.conn with clipboard := enabled } }
      (s.sendPermission .clipboard enabled).refreshClipboard
  | .audio =>
      let s := { s with conn := { s.conn with audio := enabled } }
      let s := s.sendPermission .audio enabled
      if s.conn.authorized then s.refreshAudio else s
  | .file =>
      let s := { s with conn := { s.conn with file := enabled } }
      let s := s.sendPermission .file enabled
      let s := if fixed.build.unixFileCopyPaste && !enabled then s.emit .emptyFileClipboard else s
      s.refreshFileClipboard fixed
  | .restart =>
      let s := { s with conn := { s.conn with restart := enabled } }
      s.sendPermission .restart enabled
  | .recording =>
      let s := { s with conn := { s.conn with recording := enabled } }
      s.sendPermission .recording enabled
  | .blockInput =>
      let s := { s with conn := { s.conn with blockInput := enabled } }
      s.sendPermission .blockInput enabled

/-- The branch for `Authorize`: the user clicked in the connection manager. -/
def onAuthorize (s : State) : State :=
  let s := { s with conn := { s.conn with require2fa := none } }
  s.sendLogonResponse fixed env

def onCmClose (s : State) : State :=
  let s := { s with conn := { s.conn with chatUnanswered := false, fileTransferred := false } }
  (s.sendCloseReasonNoRetry "").onClose true fixed.build

/-- Answers about a read job that was handed to the connection manager; those
for unknown jobs are dropped. -/
def onCmReadJob (s : State) (id : Int) (ends : Bool) (answer : PeerMessage) : State :=
  if s.conn.cmReadJobIds.contains id then
    let s := if ends then
        { s with conn := { s.conn with cmReadJobIds := s.conn.cmReadJobIds.filter (· != id) } }
      else s
    s.send answer
  else s

def onReadJobInitResult (s : State) (id : Int) (result : Option (List (String × Nat))) : State :=
  match result with
  | none => s.onCmReadJob id true (.fileError id "internal error" 0)
  | some _ =>
      if s.conn.cmReadJobIds.contains id then
        let s := s.send (.fileDir id "")
        { s with conn := { s.conn with fileTransferred := true } }
      else s

/-- The branch for messages of the connection manager; `false` leaves the loop. -/
def onCm (s : State) (message : CmMessage) : State × Bool :=
  match message with
  | .authorize =>
      let s := s.onAuthorize fixed env
      (s, s.conn.portForwardSocket.isNone)
  | .close => (s.onCmClose fixed, false)
  | .cmErr e => if e ≠ "expected" then (s.onClose false fixed.build, false) else (s, true)
  | .chatMessage text =>
      let s := s.send (.chatMessage text)
      ({ s with conn := { s.conn with chatUnanswered := false } }, true)
  | .switchPermission name enabled => (s.switchPermission fixed name enabled, true)
  | .rawMessage bytes => (s.send (.raw bytes), true)
  | .clipboardFile isFiles payload =>
      (if fixed.build.targetOs = .windows ∧ s.conn.isRemote = true ∧ isFiles = false then
        s.send (.clip payload) else s, true)
  | .privacyModeState implKey => (s.send (.privacyModeState implKey), true)
  | .requestStart =>
      (if fixed.build.targetOs = .windows then s.emit .startPortableService else s, true)
  | .switchSidesBack => (s.send .switchBack, true)
  | .voiceCallResponse accepted => (s.handleVoiceCall accepted, true)
  | .closeVoiceCall => (s.closeVoiceCall.send (.voiceCallRequest false), true)
  | .readJobInitResult id result => (s.onReadJobInitResult id result, true)
  | .fileBlockFromCm id fileNum data compressed =>
      (s.onCmReadJob id false (.fileResponse (.block id fileNum data compressed)), true)
  | .fileReadDone id fileNum => (s.onCmReadJob id true (.fileResponse (.done id fileNum)), true)
  | .fileReadError id fileNum err => (s.onCmReadJob id true (.fileError id err fileNum), true)
  | .fileDigestFromCm id fileNum lastModified fileSize isResume =>
      (s.onCmReadJob id false
        (.fileResponse (.digest id fileNum fileSize lastModified isResume)), true)
  | .allFilesResult id result =>
      (s.send (match result with
        | some _ => .fileDir id ""
        | none => .fileError id "deserialize failed" (-1)), true)
  | .unknown => (s, true)

/-- The branch for a message of the peer. A port-forward connection leaves the
loop once it is authorized and no delay test is on its way. -/
def onPeer (s : State) (msg : Message) : State × Bool :=
  let (s, continues) := s.onMessage fixed env msg
  let relays := s.conn.portForwardSocket.isSome && s.conn.authorized && s.conn.lastTestDelay.isNone
  (s, continues && !relays)

/-- The shared cell of the session holds the time of the last message. -/
def touchSession (s : State) : State :=
  match s.conn.sessionLastRecvTime with
  | some cell => { s with world := { s.world with cells := Function.update s.world.cells cell env.now } }
  | none => s

def onFileTimer (s : State) (finished : Option (List Int)) : State × Bool :=
  if s.conn.readJobIds.isEmpty then (s, true)
  else match finished with
    | some ids =>
        let jobs := s.conn.readJobIds.filter fun id => !ids.contains id
        let s := s.sendToCm (.fileTransferLog "transfer")
        ({ s with conn := { s.conn with readJobIds := jobs } }, true)
    | none => (s.onClose false fixed.build, false)

def onOutgoing (s : State) (message : Outgoing) (sent : Bool) : State × Bool :=
  match message with
  | .stopService => ((s.sendCloseReasonNoRetry "").onClose false fixed.build, false)
  | .peerInfo =>
      let s := s.emit (.refreshVideo none)
      if sent then (s, true) else (s.onClose false fixed.build, false)
  | .cursorPosition followed =>
      let s := if s.conn.followRemoteCursor && !s.conn.multiUiSession && followed then
          s.send .displayChanged else s
      if sent then (s, true) else (s.onClose false fixed.build, false)
  | .other => if sent then (s, true) else (s.onClose false fixed.build, false)

/-- Data to be printed, forwarded where the printer permission allows it. -/
def onPrinterData (s : State) : State :=
  if fixed.build.targetOs = .windows ∧ fixed.build.flutter = true then
    if s.permission fixed "enable-remote-printer" then
      let path := "RustDesk://FsJob//Printer/" ++ toString env.time
      { s with conn := { s.conn with printerData := s.conn.printerData ++ [path] } }
    else s.send (.messageBox "remote-printing-disallowed-tile-tip"
      "remote-printing-disallowed-text-tip")
  else s

def onSecondTimer (s : State) : State × Bool :=
  match s.conn.autoDisconnectTimer with
  | some (instant, minute) =>
      if (env.now - instant) / 1000 > minute * 60 then
        ((s.sendCloseReasonNoRetry "Connection failed due to inactivity").onClose true fixed.build,
          false)
      else (s, true)
  | none => (s, true)

def onTestDelayTimer (s : State) (lastRecvTime : Nat) : State × Bool :=
  if env.now - lastRecvTime ≥ 30000 then (s.onClose true fixed.build, false)
  else if s.conn.lastTestDelay.isNone
      && !(s.conn.portForwardSocket.isSome && s.conn.authorized) then
    let s := { s with conn := { s.conn with lastTestDelay := some env.now } }
    (s.send (.testDelay false), true)
  else (s, true)

/-- `Connection::handle_file_clip`, for peers that support it. -/
def onClipFile (s : State) (payload : Bytes) (isStoppingAllowed isBeginning : Bool) : State :=
  if fixed.build.unixFileCopyPaste
      && decide (getVersionNumber s.conn.lr.version ≥ getVersionNumber "1.3.8")
      && !(isStoppingAllowed && !s.conn.fileTransferEnabled)
      && !(isBeginning && s.world.config.builtin "one-way-file-transfer" == "Y") then
    s.send (.clip payload)
  else s

/-- Steps of the other connections. The built-in options never change. -/
def interfere (s : State) (world : World) (added : List ServiceName)
    (subed : ServiceName → Int → Bool) : State :=
  { s with
    world := { world with config := { world.config with builtin := s.world.config.builtin } }
    server := s.server.map fun server => server.interfere s.conn.id added subed }

/-- One branch of the `select!`; `false` leaves the loop. -/
def onInput (s : State) (lastRecvTime : Nat) (input : Input) : State × Bool :=
  match input with
  | .cm message => s.onCm fixed env message
  | .peer message => (s.touchSession env).onPeer fixed env message
  | .peerUnparsed => (s.touchSession env, true)
  | .streamError => (s.onClose true fixed.build, false)
  | .streamEnd => (s.onClose true fixed.build, false)
  | .fileTimer finished => s.onFileTimer fixed finished
  | .webConsole =>
      ((s.sendCloseReasonNoRetry "Closed manually by web console").onClose true fixed.build, false)
  | .video sent => if sent then (s, true) else (s.onClose false fixed.build, false)
  | .outgoing message sent => s.onOutgoing fixed message sent
  | .printerData _ => (s.onPrinterData fixed env, true)
  | .secondTimer => s.onSecondTimer fixed env
  | .testDelayTimer => s.onTestDelayTimer fixed env lastRecvTime
  | .clipFile payload isStoppingAllowed isBeginning =>
      (s.onClipFile fixed payload isStoppingAllowed isBeginning, true)
  | .others world added subed => (s.interfere world added subed, true)

/-- `Connection::try_port_forward_loop`: a held socket is relayed to the peer. -/
def tryPortForwardLoop (s : State) : State :=
  match s.conn.portForwardSocket with
  | some target =>
      let s := { s with conn := { s.conn with portForwardSocket := none } }
      s.emit (.startRelay target)
  | none => s

/-- An authorized connection that ends renews the temporary password. -/
def renewTemporaryPassword (s : State) : State :=
  if s.conn.authorized then
    { s with world := { s.world with config := { s.world.config with
        temporaryPassword := env.updatedTemporaryPassword } } }
  else s

/-- What follows a relay that has run to its end. -/
def afterRelay (s : State) : State :=
  let s := s.onClose false fixed.build
  { s with world := s.world.checkRemoveSession s.conn.id s.conn.sessionKey }

/-- `Server::remove_connection`, once the connection ends. -/
def leaveServer (s : State) : State :=
  { s with server := s.server.map (Server.removeConnection · s.conn.id) }

/-- What follows the loop. -/
def finish (s : State) : State :=
  let s := s.renewTemporaryPassword env
  let relayed := s.conn.portForwardSocket.isSome
  let s := s.tryPortForwardLoop
  let s := if relayed then s.afterRelay fixed else s
  s.leaveServer.onClose true fixed.build

end State

namespace Loop

/-- One event of the loop. After the loop was left nothing is handled. -/
def step (fixed : Fixed) (l : Loop) (event : Event) : Loop :=
  if l.running then
    let (env, input) := event
    let (state, continues) := l.state.onInput fixed env l.lastRecvTime input
    let lastRecvTime := match input with
      | .peer _ | .peerUnparsed => env.now
      | _ => l.lastRecvTime
    { state := state, lastRecvTime := lastRecvTime, running := continues }
  else l

/-- The loop after a list of events. -/
abbrev run (fixed : Fixed) (l : Loop) (events : List Event) : Loop :=
  Trace.run (step fixed) l events

end Loop

/-- The connection `Connection::start` builds. `require2fa` is what
`auth_2fa::get_2fa` made of the stored option. -/
def Connection.new (fixed : Fixed) (config : Config) (id : Int) (ip salt challenge : String)
    (require2fa : Option Totp) (controlPermissions : Option Nat) : Connection :=
  let permission := fun option => HibtDesk.permission fixed.build config option controlPermissions
  { id := id
    ip := ip
    salt := salt
    challenge := challenge
    displayIdx := fixed.primaryDisplayIdx
    fileTransfer := none
    viewCamera := false
    terminal := false
    portForwardSocket := none
    portForwardAddress := ""
    authorized := false
    require2fa := require2fa
    keyboard := permission "enable-keyboard"
    clipboard := permission "enable-clipboard"
    audio := permission "enable-audio"
    file := permission "enable-file-transfer"
    restart := permission "enable-remote-restart"
    recording := permission "enable-record-session"
    blockInput := permission "enable-block-input"
    controlPermissions := controlPermissions
    lastTestDelay := none
    networkDelay := 0
    lockAfterSessionEnd := false
    showRemoteCursor := false
    disableKeyboard := false
    showMyCursor := false
    disableClipboard := false
    disableAudio := false
    enableFileTransfer := false
    audioSender := false
    videoAckRequired := false
    lr := {}
    sessionLastRecvTime := none
    chatUnanswered := false
    fileTransferred := false
    fromSwitch := false
    voiceCallRequestTimestamp := none
    voiceCalling := false
    optionsInLogin := none
    pressedModifiers := []
    closed := false
    cmIpcStarted := false
    autoDisconnectTimer := none
    authedConnId := none
    servicesSubed := false
    delayedReadDir := none
    followRemoteCursor := false
    followRemoteWindow := false
    multiUiSession := false
    printerData := []
    readJobIds := []
    cmReadJobIds := []
    terminalServiceId := ""
    terminalPersistent := false
    terminalUserToken := none
    terminalGenericService := false }

/-- The permissions that are off are announced to the peer. -/
def Connection.announcements (conn : Connection) : List Effect :=
  [(Permission.keyboard, conn.keyboard), (.clipboard, conn.clipboard), (.audio, conn.audio),
    (.file, conn.file), (.restart, conn.restart), (.recording, conn.recording),
    (.blockInput, conn.blockInput)].filterMap fun (permission, enabled) =>
      if enabled then none else some (.send (.permissionInfo permission false))

/-- The loop at its start. Connection ids are not reused, so no service knows
the new one. -/
def Loop.start (fixed : Fixed) (world : World) (server : Option Server) (now : Nat) (id : Int)
    (ip salt challenge : String) (require2fa : Option Totp) (controlPermissions : Option Nat) :
    Loop :=
  let conn := Connection.new fixed world.config id ip salt challenge require2fa controlPermissions
  { state :=
      { conn := conn
        world := world
        server := server.map fun server =>
          { server with subed := fun n i => i != id && server.subed n i }
        effects := conn.announcements }
    lastRecvTime := now
    running := true }

end HibtDesk
