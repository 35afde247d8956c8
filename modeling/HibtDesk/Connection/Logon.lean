import HibtDesk.Connection.Sessions

/-! What the peer can switch with an option message, the subscriptions that
follow, and the step that makes a connection authorized. -/
namespace HibtDesk

namespace State

/-- Apply an option unless it is absent, unknown or not set. -/
def whenSet (q : Option BoolOption) (s : State) (apply : State → Bool → State) : State :=
  match q with
  | some .yes => apply s true
  | some .no => apply s false
  | _ => s

section Options
variable (fixed : Fixed)

def updateImageQuality (s : State) (o : OptionMessage) : State :=
  match o.imageQuality with
  | some q =>
      let imageQuality :=
        if q = .notSet then (if o.customImageQuality > 0 then o.customImageQuality else -1)
        else q.value
      if imageQuality > 0 then s.emit (.qosImageQuality imageQuality) else s
  | none => s

def updateCustomFps (s : State) (o : OptionMessage) : State :=
  if o.customFps > 0 then s.emit (.qosCustomFps o.customFps) else s

def updateSupportedDecoding (s : State) (o : OptionMessage) : State :=
  match o.supportedDecoding with
  | some q => s.emit (.updateEncoder (some q))
  | none => s

def setLockAfterSessionEnd (s : State) (v : Bool) : State :=
  { s with conn := { s.conn with lockAfterSessionEnd := v } }

def setShowRemoteCursor (s : State) (v : Bool) : State :=
  let s := { s with conn := { s.conn with showRemoteCursor := v } }
  let s := s.subscribe .mouseCursor (s.conn.peerKeyboardEnabled || s.conn.showRemoteCursor)
  s.subscribe .mousePos s.conn.showRemoteCursor

def setFollowRemoteCursor (s : State) (v : Bool) : State :=
  { s with conn := { s.conn with followRemoteCursor := v } }

def setFollowRemoteWindow (s : State) (v : Bool) : State :=
  let s := { s with conn := { s.conn with followRemoteWindow := v } }
  s.subscribe .windowFocus s.conn.followRemoteWindow

/-- The audio subscription after a change of the audio flags. For a camera
connection it is only turned on during a voice call. -/
def refreshAudio (s : State) : State :=
  if s.conn.isAuthedViewCameraConn then
    if s.conn.voiceCalling || !s.conn.audioEnabled then
      s.subscribe .audio s.conn.audioEnabled
    else s
  else s.subscribe .audio s.conn.audioEnabled

def setDisableAudio (s : State) (v : Bool) : State :=
  refreshAudio { s with conn := { s.conn with disableAudio := v } }

/-- Subscribe to the file clipboard or leave it, where the build has it. -/
def refreshFileClipboard (s : State) : State :=
  if fixed.build.unixFileCopyPaste then
    s.subscribe .fileClipboard (s.conn.canSubFileClipboardService s.world.config)
  else s

def setEnableFileTransfer (s : State) (v : Bool) : State :=
  if fixed.build.targetOs = .windows ∨ fixed.build.unixFileCopyPaste = true then
    let s := { s with conn := { s.conn with enableFileTransfer := v } }
    let s := if fixed.build.targetOs = .windows then
        s.sendToCm (.clipboardFileEnabled s.conn.fileTransferEnabled)
      else s
    let s := if fixed.build.unixFileCopyPaste && !s.conn.enableFileTransfer then
        s.emit .emptyFileClipboard
      else s
    s.refreshFileClipboard fixed
  else s

def refreshClipboard (s : State) : State :=
  s.subscribe .clipboard (s.conn.canSubClipboardService s.world.config)

def setDisableClipboard (s : State) (v : Bool) : State :=
  refreshClipboard { s with conn := { s.conn with disableClipboard := v } }

def setDisableKeyboard (s : State) (v : Bool) : State :=
  let s := { s with conn := { s.conn with disableKeyboard := v } }
  let s := s.refreshClipboard
  let s := s.refreshFileClipboard fixed
  s.subscribe .mouseCursor (s.conn.peerKeyboardEnabled || s.conn.showRemoteCursor)

/-- Privacy mode in an option message, for compatibility with old versions. -/
def updatePrivacyMode (s : State) (o : OptionMessage) : State :=
  if getVersionNumber s.conn.lr.version < getVersionNumber "1.2.4" then
    match o.privacyMode with
    | some .yes => if s.conn.keyboard then s.emit (.turnOnPrivacy "") else s
    | some .no => if s.conn.keyboard then s.emit (.turnOffPrivacy "") else s
    | _ => s
  else s

def updateBlockInput (s : State) (o : OptionMessage) : State :=
  match o.blockInput with
  | some q =>
      if s.conn.keyboard && s.conn.blockInput then
        match q with
        | .yes => s.emit (.input .blockOn)
        | .no => s.emit (.input .blockOff)
        | .notSet => s
      else if q ≠ .notSet then s.send (.blockInputError (q == .yes) "No permission")
      else s
  | none => s

def setTerminalPersistence (s : State) (v : Bool) : State :=
  let s := { s with conn := { s.conn with terminalPersistent := v } }
  s.emit (.setTerminalPersistent s.conn.terminalServiceId v)

def setShowMyCursor (env : Env) (s : State) (v : Bool) : State :=
  let s := { s with conn := { s.conn with showMyCursor := v } }
  if env.whiteboardNotSupportMsg = "" then s.emit (.whiteboard v)
  else if v then s.send (.messageBox "Show my cursor" env.whiteboardNotSupportMsg)
  else s

/-- `Connection::update_options`, field after field in the order of the source. -/
def updateOptions (env : Env) (s : State) (o : OptionMessage) : State :=
  let s := s.updateImageQuality o
  let s := s.updateCustomFps o
  let s := s.updateSupportedDecoding o
  let s := whenSet o.lockAfterSessionEnd s setLockAfterSessionEnd
  let s := whenSet o.showRemoteCursor s setShowRemoteCursor
  let s := whenSet o.followRemoteCursor s setFollowRemoteCursor
  let s := whenSet o.followRemoteWindow s setFollowRemoteWindow
  let s := whenSet o.disableAudio s setDisableAudio
  let s := whenSet o.enableFileTransfer s (setEnableFileTransfer fixed)
  let s := whenSet o.disableClipboard s setDisableClipboard
  let s := whenSet o.disableKeyboard s (setDisableKeyboard fixed)
  let s := s.updatePrivacyMode o
  let s := s.updateBlockInput o
  let s := whenSet o.terminalPersistent s setTerminalPersistence
  whenSet o.showMyCursor s (setShowMyCursor env)

end Options

section Logon
variable (fixed : Fixed) (env : Env)

/-- `Connection::send_permission`. -/
def sendPermission (s : State) (permission : Permission) (enabled : Bool) : State :=
  s.send (.permissionInfo permission enabled)

/-- `Connection::update_codec_on_login`. -/
def updateCodecOnLogin (s : State) : State :=
  s.emit (.updateEncoder (s.conn.lr.option.bind fun o => o.supportedDecoding))

/-- The services `try_sub_monitor_services` leaves out. -/
def noperms (s : State) : List ServiceName :=
  let conn := s.conn
  (if !conn.peerKeyboardEnabled && !conn.showRemoteCursor then [.mouseCursor] else [])
    ++ (if !conn.showRemoteCursor then [.mousePos] else [])
    ++ (if !conn.followRemoteWindow then [.windowFocus] else [])
    ++ (if !conn.canSubClipboardService s.world.config then [.clipboard] else [])
    ++ (if fixed.build.unixFileCopyPaste && !conn.canSubFileClipboardService s.world.config then
        [.fileClipboard] else [])
    ++ (if !conn.audioEnabled then [.audio] else [])

/-- `Connection::get_auto_disconenct_timer`. -/
def getAutoDisconnectTimer (s : State) : Option (Nat × Nat) :=
  if s.world.config.option "allow-auto-disconnect" = "Y" then
    let minute := (parseU64 (s.world.config.option "auto-disconnect-timeout").toList).getD 10
    some (env.now, if minute = 0 then 10 else minute)
  else none

/-- `Connection::try_sub_monitor_services`. -/
def trySubMonitorServices (s : State) : State :=
  if s.conn.isRemote && !s.conn.servicesSubed then
    let s := { s with conn := { s.conn with servicesSubed := true } }
    match s.server with
    | some server =>
        let server := server.ensureService (.video .monitor fixed.primaryDisplayIdx)
        let server := server.addConnection fixed.primaryDisplayIdx s.conn.id (s.noperms fixed)
        { s with
          server := some server
          conn := { s.conn with autoDisconnectTimer := s.getAutoDisconnectTimer env } }
    | none => s
  else s

/-- `Connection::try_sub_camera_displays`. -/
def trySubCameraDisplays (s : State) : State :=
  { s with server := s.server.map fun server =>
      let server := if env.primaryCameraExists then
          server.ensureService (.video .camera fixed.primaryCameraIdx)
        else server
      server.addCameraConnection env.primaryCameraExists fixed.primaryCameraIdx s.conn.id }

/-- `Connection::init_terminal_service`. -/
def initTerminalService (s : State) : State :=
  match s.conn.terminalUserToken with
  | some _ =>
      let serviceId :=
        if s.conn.terminalServiceId = "" then env.generatedServiceId else s.conn.terminalServiceId
      { s with conn := { s.conn with
          terminalServiceId := serviceId
          terminalGenericService := true } }
  | none => s

/-- `is_recent_session(true)`, asked only when a second factor is required. -/
def secondFactorMissing (s : State) : State × Bool :=
  if s.conn.require2fa.isSome then
    let (s, recent) := s.isRecentSession fixed env true
    (s, !recent && !s.conn.fromSwitch)
  else (s, false)

/-- The first part of `send_logon_response`: the connection is authorized under
the kind its flags say and registered with the identity of the stored login
request. -/
def authorize (s : State) : State :=
  let connType := s.conn.authConnType
  { s with
    conn := { s.conn with
      authorized := true
      authedConnId := some connType
      sessionLastRecvTime := (s.world.sessions s.conn.sessionKey).map (·.lastRecvTime) }
    world := { s.world with
      authedConns := s.world.authedConns ++ [⟨s.conn.id, connType, s.conn.sessionKey⟩] } }

/-- `handle_windows_specific_session`: whether the peer must choose a session
before anything is subscribed. -/
def waitsForSession (s : State) : Bool :=
  fixed.build.targetOs == .windows && !s.conn.terminal && env.waitSessionIdConfirm
    && (s.world.authedConns.filter fun c => c.connType != .portForward).length == 1
    && decide (getVersionNumber s.conn.lr.version ≥ getVersionNumber "1.2.4")

/-- The answer to the login, and whether the monitor services may follow. -/
def sendLoginAnswer (s : State) : State × Bool :=
  if s.conn.fileTransfer.isSome || s.conn.terminal then (s.send .loginResponse, false)
  else if s.conn.viewCamera then (s.updateCodecOnLogin.send .loginResponse, false)
  else match env.displaysOnLogin with
    | .ok _ => (s.updateCodecOnLogin.send .loginResponse, true)
    | .error err => (s.updateCodecOnLogin.send (.loginError err false), false)

/-- The options that came with the login request are applied once. -/
def applyOptionsInLogin (s : State) : State :=
  match s.conn.optionsInLogin with
  | some o =>
      updateOptions fixed env { s with conn := { s.conn with optionsInLogin := none } } o
  | none => s

/-- What each kind of connection starts with, the end of `send_logon_response`. -/
def startKind (s : State) (wait subService : Bool) : State :=
  match s.conn.fileTransfer with
  | some (dir, showHidden) =>
      let dir := if dir ≠ "" ∧ env.isDir dir = true then dir else ""
      if wait then { s with conn := { s.conn with delayedReadDir := some (dir, showHidden) } }
      else s.sendFs (.readDir dir showHidden)
  | none =>
      if s.conn.terminal then
        initTerminalService env { s with conn := { s.conn with keyboard := false } }
      else if s.conn.viewCamera then
        let s := if wait then s else s.trySubCameraDisplays fixed env
        let s := { s with conn := { s.conn with keyboard := false } }
        s.sendPermission .keyboard false
      else if subService && !wait then s.trySubMonitorServices fixed env
      else s

/-- The rest of `send_logon_response`, once the connection is authorized. -/
def afterAuthorize (s : State) : State :=
  if s.conn.portForwardSocket.isSome then s.send .loginResponse
  else if fixed.build.targetOs = .linux ∧ s.conn.isRemote = true ∧ env.displayServerError ≠ "" then
    s.send (.loginError env.displayServerError false)
  else
    let wait := s.waitsForSession fixed env
    let (s, subService) := s.sendLoginAnswer env
    (s.applyOptionsInLogin fixed env).startKind fixed env wait subService

/-- `Connection::send_logon_response`. -/
def sendLogonResponse (s : State) : State :=
  if s.conn.authorized then s
  else
    let (s, missing) := s.secondFactorMissing fixed env
    if missing then s.sendLoginError "2FA Required"
    else s.authorize.afterAuthorize fixed env

end Logon

end State

end HibtDesk
