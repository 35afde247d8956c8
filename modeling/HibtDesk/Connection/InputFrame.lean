import HibtDesk.Connection.HandlerFrame

/-! The frame of the handlers of messages and of the loop: none of them registers anything,
and each bears on the entries and on the call only as its event does. -/
namespace HibtDesk

namespace State

section Messages
variable {b : Bears} (fixed : Fixed) (env : Env) (s : State)

theorem touches_onMouseEvent (event : MouseEvent) : Touches b s (s.onMouseEvent env event) := by
  unfold onMouseEvent
  refine .ite (.refl s) (.trans ?_ (calm_updateAutoDisconnectTimer env _).touches)
  exact .ite (.emit (.refl s) rfl) (.ite (.emit (.refl s) rfl) (.refl s))

theorem touches_onPointerDeviceEvent (event : PointerDeviceEvent) :
    Touches b s (s.onPointerDeviceEvent env event) := by
  unfold onPointerDeviceEvent
  refine .ite (.refl s) (.trans ?_ (calm_updateAutoDisconnectTimer env _).touches)
  exact .ite (.emit (.refl s) rfl) (.refl s)

theorem touches_onKeyEvent (event : KeyEvent) : Touches b s (s.onKeyEvent fixed env event) := by
  unfold onKeyEvent
  refine .ite (.refl s) (.ite ?_ (calm_updateAutoDisconnectTimer env s).touches)
  exact .set (.emit (.set (.refl s) rfl) rfl) rfl

theorem touches_switchDisplayTo {server : Server} (hServer : s.server = some server)
    (displayIdx : Nat) : Touches b s (s.switchDisplayTo fixed server displayIdx) := by
  unfold switchDisplayTo
  dsimp only
  generalize hEnsured : (if displayIdx ≠ fixed.primaryDisplayIdx then
    server.ensureService (.video s.conn.videoSource displayIdx) else server) = ensured
  have hFirst : server.Others s.conn.id ensured := by
    rw [← hEnsured]
    exact .ite (Server.others_ensureService server _) (.refl server)
  have hLeft : server.Others s.conn.id
      (if getVersionNumber s.conn.lr.version ≥ getVersionNumber "1.2.4" then ensured
        else ensured.subscribe (.video s.conn.videoSource s.conn.displayIdx) s.conn.id false) :=
    hFirst.trans (.ite (.refl _) (Server.others_subscribe _ _ _))
  exact (Touches.serve (.refl s) hServer (hLeft.trans (Server.others_subscribe _ _ true))).set rfl

theorem others_captureOn (conn : Connection) (server : Server) (add sub set : List Nat) :
    server.Others conn.id (captureOn conn server add sub set) := by
  have hAdded : server.Others conn.id
      ((set.map (ServiceName.video conn.videoSource)).foldl Server.ensureService
        ((add.map (ServiceName.video conn.videoSource)).foldl Server.ensureService server)) :=
    (Server.Others.foldl Server.others_ensureService _ server).trans
      (Server.Others.foldl Server.others_ensureService _ _)
  unfold captureOn
  exact hAdded.trans (.ite (Server.others_captureDisplays _ _ _ _ _)
    (.ite (Server.others_captureDisplays _ _ _ _ _) (Server.others_captureDisplays _ _ _ _ _)))

theorem touches_handleSwitchDisplay (display width height : Int) :
    Touches b s (s.handleSwitchDisplay fixed display width height) := by
  unfold handleSwitchDisplay
  refine .ite (.emit ?_ rfl) (.refl s)
  split
  · rename_i server hServer
    refine .trans ?_ (.ite (calm_changeResolution _ none width height).touches (.refl _))
    exact touches_switchDisplayTo fixed s hServer _
  · exact .refl s

theorem touches_captureDisplays (add sub set : List Nat) :
    Touches b s (s.captureDisplays add sub set) := by
  unfold captureDisplays
  split
  · rename_i server hServer
    have hCaptured := (Touches.refl (b := b) s).serve hServer (others_captureOn s.conn server add sub set)
    refine .trans ?_ (.ite (.subscribe (.refl _) _ _) (.refl _))
    exact hCaptured.set rfl
  · exact .refl s

theorem touches_onSelectedSid (sid : Nat) (hServices : s.conn.isRemote = true → b.services) :
    Touches b s (s.onSelectedSid fixed env sid).1 := by
  unfold onSelectedSid
  dsimp only
  split_ifs
  · exact .emit (.refl s) rfl
  · split
    · exact .emit (.set (.refl s) rfl) rfl
    · exact .refl s
  · exact touches_trySubCameraDisplays fixed env s
  · exact touches_trySubMonitorServices fixed env s hServices
  · exact .refl s
  · exact .refl s

theorem touches_onClose (lock : Bool) (build : Build) : Touches b s (s.onClose lock build) := by
  unfold onClose
  refine .ite (.refl s) ?_
  have hDevice : Touches b s ({ s with conn := { s.conn with closed := true } }.emit
      (.setVoiceCallInputDevice false)) := .emit (.set (.refl s) rfl) rfl
  dsimp only
  split_ifs
  · exact .set (.emit (hDevice.emit rfl) rfl) rfl
  · exact .set (.emit (hDevice.emit rfl) rfl) rfl
  · exact .set (.emit hDevice rfl) rfl
  · exact .set (.emit hDevice rfl) rfl

theorem touches_onSwitchSidesRequest (uuid : Bytes) :
    Touches b s (s.onSwitchSidesRequest fixed uuid).1 := by
  unfold onSwitchSidesRequest
  split
  · split_ifs
    · exact .trans (.emit (.refl s) rfl) (touches_onClose _ false fixed.build)
    · exact .refl s
  · exact .refl s

theorem touches_closeVoiceCall (hCall : b.call) : Touches b s s.closeVoiceCall := by
  unfold closeVoiceCall
  refine .trans ?_ (.ite (.subscribe (.refl _) _ _) (.refl _))
  refine .setCall (t := (s.emit (.setVoiceCallInputDevice false)).sendToCm .closeVoiceCall) ?_ rfl hCall
  exact .emit (.emit (.refl s) rfl) rfl

theorem touches_handleVoiceCall (accepted : Bool) (hCall : b.call) :
    Touches b s (s.handleVoiceCall accepted) := by
  unfold handleVoiceCall
  split
  · refine .trans ?_ (.ite (.subscribe (.refl _) _ _) (.refl _))
    refine .setCall (.emit (.trans ?_ (.ite (.emit (.emit (.refl _) rfl) rfl) (.emit (.refl _) rfl))) rfl)
      rfl hCall
    exact .setCall (.refl s) rfl hCall
  · exact .refl s

theorem touches_onVoiceCallRequest (isConnect : Bool) (reqTimestamp : Int) (hCall : b.call) :
    Touches b s (s.onVoiceCallRequest env isConnect reqTimestamp) := by
  unfold onVoiceCallRequest
  refine .ite (.emit ?_ rfl) (touches_closeVoiceCall s hCall)
  exact .setCall (.refl s) rfl hCall

theorem touches_onMisc {misc : Misc}
    (hDecoding : (Message.misc misc).isDecoding = true → b.decoding)
    (hServices : s.conn.isRemote = true → b.services)
    (hCall : (Message.misc misc).isCall = true → b.call) :
    Touches b s (s.onMisc fixed env misc).1 := by
  cases misc with
  | audioFormat sampleRate channels =>
      refine .ite (.refl s) (.emit ?_ rfl)
      exact .setCall (.refl s) rfl (hCall rfl)
  | switchDisplay => exact touches_handleSwitchDisplay fixed s ..
  | captureDisplays => exact touches_captureDisplays s _ _ _
  | option o => exact touches_updateOptions fixed env s o hDecoding
  | selectedSid sid => exact touches_onSelectedSid fixed env s sid hServices
  | switchSidesRequest uuid => exact touches_onSwitchSidesRequest fixed s uuid
  | toggleVirtualDisplay | restartRemoteDevice => exact .ite (.emit (.refl s) rfl) (.refl s)
  | togglePrivacyMode implKey on => exact .emit (.refl s) (by cases on <;> rfl)
  | chatMessage text => exact .set (.emit (.refl s) rfl) rfl
  | refreshVideo refresh =>
      exact .trans (.ite (.emit (.refl s) rfl) (.refl s)) (calm_updateAutoDisconnectTimer env _).touches
  | refreshVideoDisplay display => exact .set (.emit (.refl s) rfl) rfl
  | elevationRequest request =>
      cases request with
      | unknown => exact .refl s
      | direct | logon => exact (calm_handleElevationRequest fixed env s).touches
  | changeResolution | changeDisplayResolution => exact (calm_changeResolution s ..).touches
  | videoReceived | autoAdjustFps | clientRecordStatus | messageQuery => exact .emit (.refl s) rfl
  | closeReason | unknown => exact .refl s

theorem touches_onAuthorizedMessage {msg : Message} (hDecoding : msg.isDecoding = true → b.decoding)
    (hServices : s.conn.isRemote = true → b.services) (hCall : msg.isCall = true → b.call) :
    Touches b s (s.onAuthorizedMessage fixed env msg).1 := by
  cases msg with
  | audioFrame data => exact .ite (.play (.refl s) data (hCall rfl)) (.refl s)
  | voiceCallRequest => exact touches_onVoiceCallRequest env s _ _ (hCall rfl)
  | misc misc => exact touches_onMisc fixed env s hDecoding hServices hCall
  | mouseEvent event => exact touches_onMouseEvent env s event
  | pointerDeviceEvent event => exact touches_onPointerDeviceEvent env s event
  | keyEvent event => exact touches_onKeyEvent fixed env s event
  | clipboard | multiClipboards => exact (calm_onClipboard s _).touches
  | cliprdr clip => exact (calm_onCliprdr fixed s clip).touches
  | fileAction action => exact (calm_onFileAction env s action).touches
  | fileResponse response => exact (calm_onFileResponse s response).touches
  | screenshotRequest => exact .emit (.emit (.refl s) rfl) rfl
  | terminalAction payload => exact (calm_handleTerminalAction s payload).touches
  | loginRequest | auth2fa | switchSidesResponse | testDelay | voiceCallResponse | unknown =>
      exact .refl s

theorem touches_onMessage {msg : Message} (hLogin : msg.isLogin = false)
    (hDecoding : msg.isDecoding = true → s.conn.authorized = true →
      s.conn.portForwardSocket = none → b.decoding)
    (hServices : s.conn.authorized = true → s.conn.isRemote = true → b.services)
    (hCall : msg.isCall = true → b.call) : Touches b s (s.onMessage fixed env msg).1 := by
  unfold onMessage
  split
  · exact (touches_onClose s true fixed.build).trans (calm_checkRemoveSession _ _ _).touches
  · cases hLogin
  · cases hLogin
  · exact (calm_onTestDelay env s _).touches
  · cases hLogin
  · split_ifs with hReady
    · simp only [Bool.and_eq_true, Option.isNone_iff_eq_none] at hReady
      exact touches_onAuthorizedMessage fixed env s (fun h => hDecoding h hReady.1 hReady.2)
        (hServices hReady.1) hCall
    · exact .refl s

end Messages

section Loop
variable {b : Bears} (fixed : Fixed) (env : Env) (s : State)

theorem touches_sendCloseReason (reason : String) (lock : Bool) (build : Build) :
    Touches b s ((s.sendCloseReasonNoRetry reason).onClose lock build) :=
  .trans (calm_sendCloseReasonNoRetry s reason).touches (touches_onClose _ lock build)

theorem touches_switchPermission (name : Permission) (enabled : Bool) :
    Touches b s (s.switchPermission fixed name enabled) := by
  cases name with
  | keyboard =>
      unfold switchPermission
      refine .subscribe (.trans (.trans ?_ (touches_refreshClipboard _))
        (touches_refreshFileClipboard fixed _)) _ _
      exact .emit (.set (.refl s) rfl) rfl
  | clipboard =>
      unfold switchPermission
      refine .trans ?_ (touches_refreshClipboard _)
      exact .emit (.set (.refl s) rfl) rfl
  | audio =>
      unfold switchPermission
      refine .trans ?_ (.ite (touches_refreshAudio _) (.refl _))
      exact .emit (.set (.refl s) rfl) rfl
  | file =>
      unfold switchPermission
      refine .trans (.trans ?_ (.ite (.emit (.refl _) rfl) (.refl _)))
        (touches_refreshFileClipboard fixed _)
      exact .emit (.set (.refl s) rfl) rfl
  | restart | recording | blockInput => exact .emit (.set (.refl s) rfl) rfl

theorem touches_onCm {message : CmMessage} (hLogin : (Input.cm message).isLogin = false)
    (hCall : message.isCall = true → b.call) : Touches b s (s.onCm fixed env message).1 := by
  cases message with
  | voiceCallResponse accepted => exact touches_handleVoiceCall s accepted (hCall rfl)
  | closeVoiceCall => exact .emit (touches_closeVoiceCall s (hCall rfl)) rfl
  | authorize => cases hLogin
  | close =>
      refine .trans ?_ (touches_sendCloseReason _ "" true fixed.build)
      exact .set (.refl s) rfl
  | cmErr e =>
      simp only [onCm]
      split_ifs
      · exact touches_onClose s false fixed.build
      · exact .refl s
  | chatMessage text => exact .set (.emit (.refl s) rfl) rfl
  | switchPermission name enabled => exact touches_switchPermission fixed s name enabled
  | clipboardFile | requestStart => exact .ite (.emit (.refl s) rfl) (.refl s)
  | rawMessage | privacyModeState | switchSidesBack | allFilesResult => exact .emit (.refl s) rfl
  | readJobInitResult => exact (calm_onReadJobInitResult s ..).touches
  | fileBlockFromCm | fileReadDone | fileReadError | fileDigestFromCm =>
      exact (calm_onCmReadJob s ..).touches
  | unknown => exact .refl s

/-- What was sent got through, or the connection is closed. -/
theorem touches_of_sent {t : State} (h : Touches b s t) (sent : Bool) :
    Touches b s (if sent then (t, true) else (t.onClose false fixed.build, false)).1 := by
  split_ifs
  · exact h
  · exact h.trans (touches_onClose t false fixed.build)

theorem touches_onOutgoing (message : Outgoing) (sent : Bool) :
    Touches b s (s.onOutgoing fixed message sent).1 := by
  cases message with
  | stopService => exact touches_sendCloseReason s "" false fixed.build
  | peerInfo => exact touches_of_sent fixed s (.emit (.refl s) rfl) sent
  | cursorPosition followed =>
      exact touches_of_sent fixed s (.ite (.emit (.refl s) rfl) (.refl s)) sent
  | other => exact touches_of_sent fixed s (.refl s) sent

theorem touches_onFileTimer (finished : Option (List Int)) :
    Touches b s (s.onFileTimer fixed finished).1 := by
  unfold onFileTimer
  split_ifs
  · exact .refl s
  · split
    · exact .set (.emit (.refl s) rfl) rfl
    · exact touches_onClose s false fixed.build

theorem touches_onSecondTimer : Touches b s (s.onSecondTimer fixed env).1 := by
  unfold onSecondTimer
  split
  · split_ifs
    · exact touches_sendCloseReason s _ true fixed.build
    · exact .refl s
  · exact .refl s

theorem touches_onTestDelayTimer (lastRecvTime : Nat) :
    Touches b s (s.onTestDelayTimer fixed env lastRecvTime).1 := by
  unfold onTestDelayTimer
  split_ifs
  · exact touches_onClose s true fixed.build
  · exact .emit (.set (.refl s) rfl) rfl
  · exact .refl s

/-- What an event that does not log in bears on. -/
theorem touches_onInput (lastRecvTime : Nat) {input : Input} (hLogin : input.isLogin = false)
    (hOwn : input.isOthers = false)
    (hDecoding : input.isDecoding = true → s.conn.authorized = true →
      s.conn.portForwardSocket = none → b.decoding)
    (hServices : s.conn.authorized = true → s.conn.isRemote = true → b.services)
    (hCall : input.isCall = true → b.call) :
    Touches b s (s.onInput fixed env lastRecvTime input).1 := by
  cases input with
  | cm message => exact touches_onCm fixed env s hLogin hCall
  | peer message =>
      have hConn : (s.touchSession env).conn = s.conn := by
        unfold touchSession
        split <;> rfl
      rw [← hConn] at hDecoding hServices
      exact (calm_touchSession env s).touches.trans
        (touches_onMessage fixed env _ hLogin hDecoding hServices hCall)
  | peerUnparsed => exact (calm_touchSession env s).touches
  | streamError | streamEnd => exact touches_onClose s true fixed.build
  | fileTimer finished => exact touches_onFileTimer fixed s finished
  | webConsole => exact touches_sendCloseReason s _ true fixed.build
  | video sent => exact touches_of_sent fixed s (.refl s) sent
  | outgoing message sent => exact touches_onOutgoing fixed s message sent
  | printerData => exact (calm_onPrinterData fixed env s).touches
  | secondTimer => exact touches_onSecondTimer fixed env s
  | testDelayTimer => exact touches_onTestDelayTimer fixed env s lastRecvTime
  | clipFile => exact .ite (.emit (.refl s) rfl) (.refl s)
  | others => cases hOwn

theorem Logon.keepsCall {v : LoginView} {t : State} (h : Logon fixed env v s t) : KeepsCall s t := by
  rcases h with hStill | ⟨u, hFirst, -, -, hLast⟩
  · exact hStill.apart.keepsCall id
  · have hBefore : Apart s u := hFirst.apart
    have hAfter : Apart _ t := hLast.apart
    have hLogin : Touches ⟨True, True, False⟩ u.authorize (u.authorize.afterAuthorize fixed env) :=
      touches_afterAuthorize fixed env _ (fun _ => trivial) fun _ => trivial
    have hAuthorize : KeepsCall u u.authorize := rfl
    exact ((hBefore.keepsCall id).trans hAuthorize).trans
      ((hLogin.keepsCall id).trans (hAfter.keepsCall id))

/-- Events that are not about the call leave it alone. -/
theorem keepsCall_onInput (lastRecvTime : Nat) {input : Input} (hCall : input.isCall = false) :
    KeepsCall s (s.onInput fixed env lastRecvTime input).1 := by
  have hTouch : Apart s (s.touchSession env) := (calm_touchSession env s).touches
  cases hLogin : input.isLogin with
  | false =>
      cases hOwn : input.isOthers with
      | true =>
          cases input with
          | others => exact rfl
          | _ => cases hOwn
      | false =>
          have hTouches : Touches ⟨True, True, False⟩ s (s.onInput fixed env lastRecvTime input).1 :=
            touches_onInput fixed env s lastRecvTime hLogin hOwn (fun _ _ _ => trivial)
              (fun _ _ => trivial) fun h => absurd (h.symm.trans hCall) (by simp)
          exact hTouches.keepsCall id
  | true =>
      cases input with
      | cm message =>
          cases message with
          | authorize => exact (logon_onAuthorize fixed env s).keepsCall
          | _ => cases hLogin
      | peer message =>
          refine KeepsCall.trans (hTouch.keepsCall id) ?_
          cases message with
          | loginRequest lr => exact (logon_onLoginRequest fixed env _ lr).keepsCall
          | auth2fa code hwid => exact (logon_onAuth2fa fixed env _ code hwid).keepsCall
          | switchSidesResponse uuid lr =>
              cases lr with
              | none => exact rfl
              | some lr => exact (logon_onSwitchSidesResponse fixed env _ uuid lr).keepsCall
          | _ => cases hLogin
      | _ => cases hLogin

end Loop

end State

end HibtDesk
