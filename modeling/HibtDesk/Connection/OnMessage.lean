import HibtDesk.Connection.Login

/-! `Connection::on_message`: the login messages are handled on any
connection, all others only once it is authorized. -/
namespace HibtDesk

namespace State
variable (fixed : Fixed) (env : Env)

section Input

def inputMouse (s : State) (event : MouseEvent) (simulate showCursor : Bool) : State :=
  s.emit (.input (.mouse (env.retinaMouseEvent event) simulate showCursor))

def onMouseEvent (s : State) (event : MouseEvent) : State :=
  if s.conn.isAuthedViewCameraConn then s
  else
    let s :=
      if s.conn.peerKeyboardEnabled then s.inputMouse env event true s.conn.showMyCursor
      else if s.conn.showMyCursor then s.inputMouse env event false true
      else s
    s.updateAutoDisconnectTimer env

def onPointerDeviceEvent (s : State) (event : PointerDeviceEvent) : State :=
  if s.conn.isAuthedViewCameraConn then s
  else
    let s := if s.conn.peerKeyboardEnabled then s.emit (.input (.pointer event)) else s
    s.updateAutoDisconnectTimer env

/-- The modifier a key event presses or releases, if it is one. -/
def modifierKey (event : KeyEvent) : Option Nat :=
  let key := match event.mode, event.union with
    | some .map, _ => some (fixed.deps.keycodeToRdevKey event.chr)
    | some .translate, some (.chr code) => some (fixed.deps.keycodeToRdevKey (code % 2 ^ 16))
    | _, _ => none
  key.filter fixed.deps.isModifierKey

/-- Linux treats every key down as a press, modifiers excepted. -/
def isPress (event : KeyEvent) : Bool :=
  if fixed.build.targetOs = .linux then
    (event.press || event.down)
      && !(fixed.deps.isModifier event || (modifierKey fixed event).isSome)
  else event.press

def onKeyEvent (s : State) (event : KeyEvent) : State :=
  if s.conn.isAuthedViewCameraConn then s
  else if s.conn.peerKeyboardEnabled then
    let press := isPress fixed event
    let pressed := s.conn.pressedModifiers
    let pressed := match modifierKey fixed event with
      | some key => if press then key :: pressed.filter (· != key) else pressed.filter (· != key)
      | none => pressed
    let s := { s with conn := { s.conn with pressedModifiers := pressed } }
    let asPress := match event.union with
      | some (.unicode _) | some (.seq _) => false
      | _ => press
    (s.emit (.input (.key event asPress))).updateAutoDisconnectTimer env
  else s.updateAutoDisconnectTimer env

end Input

section Clipboard

def onClipboard (s : State) (contents : List Bytes) : State :=
  if s.conn.clipboard then s.emit (.updateClipboard contents) else s

/-- The file clipboard: passed to the connection manager on Windows, served in
this process on unix. -/
def onCliprdr (s : State) (clip : Cliprdr) : State :=
  match clip with
  | .clip payload =>
      if fixed.build.targetOs = .windows then s.sendToCm (.clipboardFile payload)
      else if fixed.build.unixFileCopyPaste
          && decide (getVersionNumber s.conn.lr.version ≥ getVersionNumber "1.3.8") then
        s.emit (.serveClip payload)
      else s
  | .files _ | .unknown => s

end Clipboard

section Files

/-- The job a one-way server refuses to start. -/
def oneWayJobId : FileAction → Option Int
  | .send id .. | .removeFile id .. | .rename id .. | .create id .. | .removeDir id .. => some id
  | _ => none

/-- `check_file_count_limit`, with the text of its error. -/
def checkFileCountLimit (fileCount : Nat) : Except String Unit :=
  if fileCount > env.maxValidatedFiles then
    .error ("file transfer rejected: too many files (" ++ toString fileCount
      ++ " files exceeds limit of " ++ toString env.maxValidatedFiles
      ++ "). Adjust 'file-transfer-max-files' option to increase limit.")
  else .ok ()

/-- `Connection::create_and_start_read_job`. The number of files is checked
against the limit for generic jobs. -/
def createAndStartReadJob (s : State) (id : Int) (path : String) (fileNum : Int)
    (jobType : JobType) (overwriteDetection : Bool) : State :=
  let limit := (env.readJobFiles path).toOption.map fun files =>
    if jobType = .generic then checkFileCountLimit env files else .ok ()
  match env.readJobFiles path, limit with
  | .error err, _ => s.send (.fileError id err 0)
  | .ok _, some (.error err) => s.send (.fileError id err (-1))
  | .ok _, _ =>
      let s := s.send (.fileDir id path)
      let s := { s with conn := { s.conn with readJobIds := s.conn.readJobIds ++ [id] } }
      s.emit (.startReadJob id path fileNum jobType overwriteDetection)

def onSendFiles (s : State) (id : Int) (path : String) (fileNum : Int) (includeHidden : Bool)
    (fileType : JobType) : State :=
  match fileType with
  | .generic =>
      let od := decide (getVersionNumber s.conn.lr.version ≥ getVersionNumber "1.1.10")
      let s :=
        if env.needFsCmSendFiles then
          let s := { s with conn := { s.conn with cmReadJobIds := id :: s.conn.cmReadJobIds } }
          s.sendFs (.readFile id path fileNum includeHidden od)
        else s.createAndStartReadJob env id path fileNum .generic od
      { s with conn := { s.conn with fileTransferred := true } }
  | .printer =>
      if s.conn.printerData.contains path then
        let s := { s with conn := { s.conn with printerData := s.conn.printerData.erase path } }
        let s := s.createAndStartReadJob env id path fileNum .printer true
        { s with conn := { s.conn with fileTransferred := true } }
      else s

def onReceiveFiles (s : State) (id : Int) (path : String) (fileNum : Int)
    (files : List (String × Nat)) (totalSize : Nat) : State :=
  let od := decide (getVersionNumber s.conn.lr.version ≥ getVersionNumber "1.1.10")
  let s := s.sendFs (.newWrite id path fileNum files od totalSize)
  { s with conn := { s.conn with fileTransferred := true } }

def onCancelFiles (s : State) (id : Int) : State :=
  let s := s.sendFs (.cancelWrite id)
  let s := { s with conn := { s.conn with cmReadJobIds := s.conn.cmReadJobIds.filter (· != id) } }
  let s := s.sendFs (.cancelRead id)
  if s.conn.readJobIds.contains id then
    let s := { s with conn := { s.conn with readJobIds := s.conn.readJobIds.erase id } }
    (s.emit (.cancelReadJob id)).sendToCm (.fileTransferLog "transfer")
  else s

def onSendConfirm (s : State) (id fileNum : Int) (skip : Bool) (offsetBlk : Nat) : State :=
  if s.conn.readJobIds.contains id then s.emit (.confirmReadJob id fileNum skip offsetBlk)
  else if s.conn.cmReadJobIds.contains id then
    s.sendFs (.sendConfirmForRead id fileNum skip offsetBlk)
  else s.sendFs (.sendConfirm id fileNum skip offsetBlk)

/-- The file actions of a connection that may transfer files. -/
def handleFileAction (s : State) (action : FileAction) : State :=
  match action with
  | .readEmptyDirs path includeHidden => s.sendFs (.readEmptyDirs path includeHidden)
  | .readDir path includeHidden => s.sendFs (.readDir path includeHidden)
  | .allFiles id path includeHidden =>
      if env.needFsCmSendFiles then s.sendFs (.readAllFiles id path includeHidden)
      else match env.readJobFiles path with
        | .error err => s.send (.fileError id err (-1))
        | .ok files =>
            match checkFileCountLimit env files with
            | .error err => s.send (.fileError id err (-1))
            | .ok _ => s.send (.fileDir id path)
  | .send id path fileNum includeHidden fileType =>
      s.onSendFiles env id path fileNum includeHidden fileType
  | .receive id path fileNum files totalSize => s.onReceiveFiles id path fileNum files totalSize
  | .removeDir id path recursive => s.sendFs (.removeDir id path recursive)
  | .removeFile id path fileNum => s.sendFs (.removeFile id path fileNum)
  | .create id path => (s.sendFs (.createDir id path)).sendToCm (.fileTransferLog "create_dir")
  | .cancel id => s.onCancelFiles id
  | .sendConfirm id fileNum skip offsetBlk => s.onSendConfirm id fileNum skip offsetBlk
  | .rename id path newName =>
      (s.sendFs (.rename id path newName)).sendToCm (.fileTransferLog "rename")
  | .unknown => s

/-- Only a file-transfer connection, or a print job, is served. -/
def handlesFileAction (s : State) (action : FileAction) : Bool :=
  s.conn.fileTransfer.isSome
    || match action with
      | .send _ _ _ _ .printer => true
      | _ => false

def onFileAction (s : State) (action : FileAction) : State :=
  if !s.handlesFileAction action then s
  else if s.conn.delayedReadDir.isSome then
    match action with
    | .readDir path includeHidden =>
        { s with conn := { s.conn with delayedReadDir := some (path, includeHidden) } }
    | _ => s
  else if s.world.config.builtin "one-way-file-transfer" = "Y" ∧ (oneWayJobId action).isSome then
    s.send (.fileError ((oneWayJobId action).getD 0) "one-way-file-transfer-tip" 0)
  else s.handleFileAction env action

def onFileResponse (s : State) (response : FileResponse) : State :=
  match response with
  | .block id fileNum data compressed => s.sendFs (.writeBlock id fileNum data compressed)
  | .done id fileNum => s.sendFs (.writeDone id fileNum)
  | .digest id fileNum fileSize lastModified isResume =>
      s.sendFs (.checkDigest id fileNum fileSize lastModified true isResume)
  | .error id fileNum err => s.sendFs (.writeError id fileNum err)
  | .unknown => s

end Files

section Display

/-- `Connection::change_resolution`. -/
def changeResolution (s : State) (display : Option Int) (width height : Int) : State :=
  if s.conn.keyboard then s.emit (.changeResolution display width height) else s

/-- `Connection::switch_display_to`. -/
def switchDisplayTo (s : State) (server : Server) (displayIdx : Nat) : State :=
  let source := s.conn.videoSource
  let newService := ServiceName.video source displayIdx
  let oldService := ServiceName.video source s.conn.displayIdx
  let server :=
    if displayIdx ≠ fixed.primaryDisplayIdx then server.ensureService newService else server
  let server :=
    if getVersionNumber s.conn.lr.version ≥ getVersionNumber "1.2.4" then server
    else server.subscribe oldService s.conn.id false
  let server := server.subscribe newService s.conn.id true
  { s with server := some server, conn := { s.conn with displayIdx := displayIdx } }

/-- `Connection::handle_switch_display`. -/
def handleSwitchDisplay (s : State) (display width height : Int) : State :=
  let displayIdx := asUsize display
  if s.conn.displayIdx ≠ displayIdx then
    let s := match s.server with
      | some server =>
          let s := s.switchDisplayTo fixed server displayIdx
          if width ≠ 0 ∧ height ≠ 0 then s.changeResolution none width height else s
      | none => s
    s.send .displayChanged
  else s

/-- The part of `capture_displays` under the lock of the server. -/
def captureOn (conn : Connection) (server : Server) (add sub set : List Nat) : Server :=
  let source := conn.videoSource
  let server := (add.map (ServiceName.video source)).foldl Server.ensureService server
  let server := (set.map (ServiceName.video source)).foldl Server.ensureService server
  if !add.isEmpty then server.captureDisplays conn.id source add true false
  else if !sub.isEmpty then server.captureDisplays conn.id source sub false true
  else server.captureDisplays conn.id source set true true

/-- `Connection::capture_displays`. -/
def captureDisplays (s : State) (add sub set : List Nat) : State :=
  match s.server with
  | some server =>
      let server := captureOn s.conn server add sub set
      let multi := decide (server.getSubbedDisplaysCount s.conn.id > 1)
      let s := { s with
        server := some server
        conn := { s.conn with multiUiSession := multi } }
      if s.conn.followRemoteWindow then s.subscribe .windowFocus (!s.conn.multiUiSession) else s
  | none => s

end Display

section Voice

/-- `Connection::close_voice_call`. -/
def closeVoiceCall (s : State) : State :=
  let s := s.emit (.setVoiceCallInputDevice false)
  let s := s.sendToCm .closeVoiceCall
  let s := { s with conn := { s.conn with voiceCalling := false } }
  if s.conn.isAuthedViewCameraConn then s.subscribe .audio false else s

/-- `Connection::handle_voice_call`, the local user's answer to a request. -/
def handleVoiceCall (s : State) (accepted : Bool) : State :=
  match s.conn.voiceCallRequestTimestamp with
  | some ts =>
      let s := { s with conn := { s.conn with voiceCallRequestTimestamp := none } }
      let s :=
        if accepted then (s.emit (.setVoiceCallInputDevice true)).sendToCm .startVoiceCall
        else s.sendToCm .closeVoiceCall
      let s := s.send (.voiceCallResponse ts accepted)
      let s := { s with conn := { s.conn with voiceCalling := accepted } }
      if s.conn.isAuthedViewCameraConn then
        s.subscribe .audio (s.conn.audioEnabled && accepted)
      else s
  | none => s

def onVoiceCallRequest (s : State) (isConnect : Bool) (reqTimestamp : Int) : State :=
  if isConnect then
    let ts := if reqTimestamp = 0 then env.time else reqTimestamp
    let s := { s with conn := { s.conn with voiceCallRequestTimestamp := some ts } }
    s.sendToCm .voiceCallIncoming
  else s.closeVoiceCall

def onAudioFormat (s : State) (sampleRate channels : Nat) : State :=
  if s.conn.disableAudio then s
  else
    let s := { s with conn := { s.conn with audioSender := true } }
    s.emit (.startAudioThread sampleRate channels)

def onAudioFrame (s : State) (data : Bytes) : State :=
  if !s.conn.disableAudio && s.conn.audioSender then s.emit (.playAudio data) else s

end Voice

section Misc

/-- `Connection::handle_elevation_request`, only on Windows. -/
def handleElevationRequest (s : State) : State :=
  if fixed.build.targetOs = .windows then
    let s :=
      if !s.conn.keyboard then s.send (.elevationResponse "No permission")
      else match env.portableServiceErr with
        | some err => (s.emit .startPortableService).send (.elevationResponse err)
        | none => s.send (.elevationResponse "No need to elevate")
    s.updateAutoDisconnectTimer env
  else s

/-- The peer chose a Windows session; `false` when it moves to another one. -/
def onSelectedSid (s : State) (sid : Nat) : State × Bool :=
  if fixed.build.targetOs = .windows ∧ env.currentProcessSid.isSome = true then
    let single := (s.world.authedConns.filter fun c => c.connType != .portForward).length == 1
    if env.switchesSession sid && single && env.currentProcessSid != some sid then
      (s.emit (.connectToUserSession sid), false)
    else if s.conn.fileTransfer.isSome then
      match s.conn.delayedReadDir with
      | some (dir, showHidden) =>
          let s := { s with conn := { s.conn with delayedReadDir := none } }
          (s.sendFs (.readDir dir showHidden), true)
      | none => (s, true)
    else if s.conn.viewCamera then (s.trySubCameraDisplays fixed env, true)
    else if !s.conn.terminal then (s.trySubMonitorServices fixed env, true)
    else (s, true)
  else (s, true)

def onSwitchSidesRequest (s : State) (uuid : Bytes) : State × Bool :=
  match uuidFromSlice uuid with
  | some uuid =>
      if fixed.build.flutter then
        ((s.emit (.runMe s.conn.lr.myId uuid)).onClose false fixed.build, false)
      else (s, true)
  | none => (s, true)

def onMisc (s : State) (misc : Misc) : State × Bool :=
  match misc with
  | .switchDisplay display width height =>
      (s.handleSwitchDisplay fixed display width height, true)
  | .captureDisplays add sub set =>
      (s.captureDisplays (add.map asUsize) (sub.map asUsize) (set.map asUsize), true)
  | .toggleVirtualDisplay display on =>
      (if fixed.build.targetOs = .windows then s.emit (.toggleVirtualDisplay display on) else s,
        true)
  | .togglePrivacyMode implKey on =>
      (s.emit (if on then .turnOnPrivacy implKey else .turnOffPrivacy implKey), true)
  | .chatMessage text =>
      let s := s.sendToCm (.chatMessage text)
      let s := { s with conn := { s.conn with chatUnanswered := true } }
      (s.updateAutoDisconnectTimer env, true)
  | .option o => (s.updateOptions fixed env o, true)
  | .refreshVideo refresh =>
      let s := if refresh then s.emit (.refreshVideo none) else s
      (s.updateAutoDisconnectTimer env, true)
  | .refreshVideoDisplay display =>
      ((s.emit (.refreshVideo (some display))).updateAutoDisconnectTimer env, true)
  | .videoReceived => (s.emit .videoFrameFetched, true)
  | .restartRemoteDevice => (if s.conn.restart then s.emit .restartDevice else s, true)
  | .elevationRequest .unknown => (s, true)
  | .elevationRequest _ => (s.handleElevationRequest fixed env, true)
  | .audioFormat sampleRate channels => (s.onAudioFormat sampleRate channels, true)
  | .switchSidesRequest uuid => s.onSwitchSidesRequest fixed uuid
  | .changeResolution width height => (s.changeResolution none width height, true)
  | .changeDisplayResolution display width height =>
      (s.changeResolution (some display) width height, true)
  | .autoAdjustFps fps => (s.emit (.qosAutoAdjustFps fps), true)
  | .clientRecordStatus status => (s.emit (.qosRecord status), true)
  | .selectedSid sid => s.onSelectedSid fixed env sid
  | .messageQuery _ => (s.send .displayChanged, true)
  | .closeReason _ | .unknown => (s, true)

end Misc

def onScreenshotRequest (s : State) (display : Int) (sid : String) : State :=
  (s.emit (.takeScreenshot display sid)).emit (.refreshVideo (some display))

/-- `Connection::handle_terminal_action`, only with a user token. -/
def handleTerminalAction (s : State) (payload : Bytes) : State :=
  if s.conn.terminalUserToken.isSome then
    (s.emit (.terminalAction payload)).send .terminalResponse
  else s

/-- The messages of an authorized connection. -/
def onAuthorizedMessage (s : State) (msg : Message) : State × Bool :=
  match msg with
  | .mouseEvent event => (s.onMouseEvent env event, true)
  | .pointerDeviceEvent event => (s.onPointerDeviceEvent env event, true)
  | .keyEvent event => (s.onKeyEvent fixed env event, true)
  | .clipboard content => (s.onClipboard [content], true)
  | .multiClipboards contents => (s.onClipboard contents, true)
  | .cliprdr clip => (s.onCliprdr fixed clip, true)
  | .fileAction action => (s.onFileAction env action, true)
  | .fileResponse response => (s.onFileResponse response, true)
  | .misc misc => s.onMisc fixed env misc
  | .audioFrame data => (s.onAudioFrame data, true)
  | .voiceCallRequest isConnect reqTimestamp =>
      (s.onVoiceCallRequest env isConnect reqTimestamp, true)
  | .screenshotRequest display sid => (s.onScreenshotRequest display sid, true)
  | .terminalAction payload => (s.handleTerminalAction payload, true)
  | _ => (s, true)

def onTestDelay (s : State) (fromClient : Bool) : State :=
  if fromClient then s.send (.testDelay true)
  else match s.conn.lastTestDelay with
    | some tm =>
        let delay := (env.now - tm) % 2 ^ 32
        let s := { s with conn := { s.conn with lastTestDelay := none, networkDelay := delay } }
        s.emit .qosNetworkDelay
    | none => s

/-- A close reason is handled first, also before the login. -/
def onCloseReason (s : State) : State :=
  let s := s.onClose true fixed.build
  { s with world := s.world.checkRemoveSession s.conn.id s.conn.sessionKey }

/-- `Connection::on_message`; `false` ends the loop of the connection. -/
def onMessage (s : State) (msg : Message) : State × Bool :=
  match msg with
  | .misc (.closeReason _) => (s.onCloseReason fixed, false)
  | .loginRequest lr => s.onLoginRequest fixed env lr
  | .auth2fa code hwid => (s.onAuth2fa fixed env code hwid, true)
  | .testDelay fromClient => (s.onTestDelay env fromClient, true)
  | .switchSidesResponse uuid lr => (s.onSwitchSidesResponse fixed env uuid lr, true)
  | msg =>
      if s.conn.authorized && s.conn.portForwardSocket.isNone then
        s.onAuthorizedMessage fixed env msg
      else (s, true)

end State

end HibtDesk
