import HibtDesk.Common.Options

/-! The messages a server connection exchanges with its peer and with the
connection manager. A field of an enumeration type that arrived with an unknown
number is `none`, as `EnumOrUnknown::enum_value` reports it. -/
namespace HibtDesk

inductive BoolOption where
  | notSet | no | yes
  deriving DecidableEq, Repr

inductive ImageQuality where
  | notSet | low | balanced | best
  deriving DecidableEq, Repr

def ImageQuality.value : ImageQuality → Int
  | .notSet => 0
  | .low => 2
  | .balanced => 3
  | .best => 4

/-- `OptionMessage`, sent with a login request and later in `Misc`. -/
structure OptionMessage where
  imageQuality : Option ImageQuality := some .notSet
  customImageQuality : Int := 0
  customFps : Int := 0
  supportedDecoding : Option Nat := none
  lockAfterSessionEnd : Option BoolOption := some .notSet
  showRemoteCursor : Option BoolOption := some .notSet
  privacyMode : Option BoolOption := some .notSet
  blockInput : Option BoolOption := some .notSet
  disableAudio : Option BoolOption := some .notSet
  disableClipboard : Option BoolOption := some .notSet
  enableFileTransfer : Option BoolOption := some .notSet
  disableKeyboard : Option BoolOption := some .notSet
  followRemoteCursor : Option BoolOption := some .notSet
  followRemoteWindow : Option BoolOption := some .notSet
  terminalPersistent : Option BoolOption := some .notSet
  showMyCursor : Option BoolOption := some .notSet
  deriving DecidableEq, Repr

/-- The `union` of a login request; its absence asks for remote control. -/
inductive LoginUnion where
  | fileTransfer (dir : String) (showHidden : Bool)
  | viewCamera
  | terminal (serviceId : String)
  | portForward (host : String) (port : Int)
  deriving DecidableEq, Repr

structure OsLogin where
  username : String := ""
  password : String := ""
  deriving DecidableEq, Repr

structure LoginRequest where
  username : String := ""
  password : Bytes := []
  myId : String := ""
  myName : String := ""
  option : Option OptionMessage := none
  union : Option LoginUnion := none
  videoAckRequired : Bool := false
  sessionId : Nat := 0
  version : String := ""
  osLogin : Option OsLogin := none
  myPlatform : String := ""
  hwid : Bytes := []
  deriving DecidableEq, Repr

structure MouseEvent where
  mask : Int
  x : Int
  y : Int
  deriving DecidableEq, Repr

inductive KeyboardMode where
  | legacy | map | translate | auto
  deriving DecidableEq, Repr

inductive KeyUnion where
  | controlKey (key : Nat)
  | chr (code : Nat)
  | unicode (code : Nat)
  | seq (text : String)
  | win2winHotkey (code : Nat)
  deriving DecidableEq, Repr

structure KeyEvent where
  down : Bool
  press : Bool
  union : Option KeyUnion
  modifiers : List Nat
  mode : Option KeyboardMode
  deriving DecidableEq, Repr

/-- `KeyEvent::chr()`, zero unless the union holds a character. -/
def KeyEvent.chr (event : KeyEvent) : Nat :=
  match event.union with
  | some (.chr code) => code
  | _ => 0

structure PointerDeviceEvent where
  payload : Bytes
  deriving DecidableEq, Repr

inductive JobType where
  | generic | printer
  deriving DecidableEq, Repr

inductive FileAction where
  | readEmptyDirs (path : String) (includeHidden : Bool)
  | readDir (path : String) (includeHidden : Bool)
  | allFiles (id : Int) (path : String) (includeHidden : Bool)
  | send (id : Int) (path : String) (fileNum : Int) (includeHidden : Bool) (fileType : JobType)
  | receive (id : Int) (path : String) (fileNum : Int) (files : List (String × Nat))
      (totalSize : Nat)
  | removeDir (id : Int) (path : String) (recursive : Bool)
  | removeFile (id : Int) (path : String) (fileNum : Int)
  | create (id : Int) (path : String)
  | cancel (id : Int)
  | sendConfirm (id : Int) (fileNum : Int) (skip : Bool) (offsetBlk : Nat)
  | rename (id : Int) (path newName : String)
  | unknown
  deriving DecidableEq, Repr

inductive FileResponse where
  | block (id fileNum : Int) (data : Bytes) (compressed : Bool)
  | done (id fileNum : Int)
  | digest (id fileNum : Int) (fileSize lastModified : Nat) (isResume : Bool)
  | error (id fileNum : Int) (error : String)
  | unknown
  deriving DecidableEq, Repr

inductive ElevationRequest where
  | direct
  | logon (username password : String)
  | unknown
  deriving DecidableEq, Repr

inductive Misc where
  | closeReason (reason : String)
  | switchDisplay (display width height : Int)
  | captureDisplays (add sub set : List Int)
  | toggleVirtualDisplay (display : Int) (on : Bool)
  | togglePrivacyMode (implKey : String) (on : Bool)
  | chatMessage (text : String)
  | option (o : OptionMessage)
  | refreshVideo (refresh : Bool)
  | refreshVideoDisplay (display : Int)
  | videoReceived
  | restartRemoteDevice
  | elevationRequest (request : ElevationRequest)
  | audioFormat (sampleRate channels : Nat)
  | switchSidesRequest (uuid : Bytes)
  | changeResolution (width height : Int)
  | changeDisplayResolution (display width height : Int)
  | autoAdjustFps (fps : Nat)
  | clientRecordStatus (status : Bool)
  | selectedSid (sid : Nat)
  | messageQuery (switchDisplay : Int)
  | unknown
  deriving DecidableEq, Repr

/-- The `Cliprdr` messages: `files` is the audit list, the others are passed on. -/
inductive Cliprdr where
  | files (files : List (String × Nat))
  | clip (payload : Bytes)
  | unknown
  deriving DecidableEq, Repr

/-- A message from the peer, by its `union`. The variants the handler has no
branch for are `unknown`. -/
inductive Message where
  | misc (misc : Misc)
  | loginRequest (lr : LoginRequest)
  | auth2fa (code : String) (hwid : Bytes)
  | testDelay (fromClient : Bool)
  | switchSidesResponse (uuid : Bytes) (lr : Option LoginRequest)
  | mouseEvent (event : MouseEvent)
  | pointerDeviceEvent (event : PointerDeviceEvent)
  | keyEvent (event : KeyEvent)
  | clipboard (content : Bytes)
  | multiClipboards (contents : List Bytes)
  | cliprdr (clip : Cliprdr)
  | fileAction (action : FileAction)
  | fileResponse (response : FileResponse)
  | audioFrame (data : Bytes)
  | voiceCallRequest (isConnect : Bool) (reqTimestamp : Int)
  | voiceCallResponse
  | screenshotRequest (display : Int) (sid : String)
  | terminalAction (payload : Bytes)
  | unknown
  deriving DecidableEq, Repr

/-- The permissions a user can switch in the connection manager. -/
inductive Permission where
  | keyboard | clipboard | audio | file | restart | recording | blockInput
  deriving DecidableEq, Repr

/-- What the connection manager sends. A `SwitchPermission` with a name the
loop does not know is `unknown`, and so is data it has no branch for. -/
inductive CmMessage where
  | authorize
  | close
  | cmErr (e : String)
  | chatMessage (text : String)
  | switchPermission (name : Permission) (enabled : Bool)
  | rawMessage (bytes : Bytes)
  | clipboardFile (isFiles : Bool) (payload : Bytes)
  | privacyModeState (implKey : String)
  | requestStart
  | switchSidesBack
  | voiceCallResponse (accepted : Bool)
  | closeVoiceCall
  | readJobInitResult (id : Int) (result : Option (List (String × Nat)))
  | fileBlockFromCm (id fileNum : Int) (data : Bytes) (compressed : Bool)
  | fileReadDone (id fileNum : Int)
  | fileReadError (id fileNum : Int) (err : String)
  | fileDigestFromCm (id fileNum : Int) (lastModified fileSize : Nat) (isResume : Bool)
  | allFilesResult (id : Int) (result : Option (List (String × Nat)))
  | unknown
  deriving DecidableEq, Repr

/-- Requests to the file-system side of the connection manager. -/
inductive Fs where
  | readEmptyDirs (dir : String) (includeHidden : Bool)
  | readDir (dir : String) (includeHidden : Bool)
  | readAllFiles (id : Int) (path : String) (includeHidden : Bool)
  | readFile (id : Int) (path : String) (fileNum : Int) (includeHidden overwriteDetection : Bool)
  | newWrite (id : Int) (path : String) (fileNum : Int) (files : List (String × Nat))
      (overwriteDetection : Bool) (totalSize : Nat)
  | removeDir (id : Int) (path : String) (recursive : Bool)
  | removeFile (id : Int) (path : String) (fileNum : Int)
  | createDir (id : Int) (path : String)
  | cancelWrite (id : Int)
  | cancelRead (id : Int)
  | sendConfirmForRead (id fileNum : Int) (skip : Bool) (offsetBlk : Nat)
  | sendConfirm (id fileNum : Int) (skip : Bool) (offsetBlk : Nat)
  | rename (id : Int) (path newName : String)
  | writeBlock (id fileNum : Int) (data : Bytes) (compressed : Bool)
  | writeDone (id fileNum : Int)
  | writeError (id fileNum : Int) (err : String)
  | checkDigest (id fileNum : Int) (fileSize lastModified : Nat) (isUpload isResume : Bool)
  deriving DecidableEq, Repr

/-- `ipc::Data::Login`, what the connection manager shows its user. -/
structure CmLogin where
  isFileTransfer : Bool
  isViewCamera : Bool
  isTerminal : Bool
  portForward : String
  peerId : String
  name : String
  authorized : Bool
  keyboard : Bool
  clipboard : Bool
  audio : Bool
  file : Bool
  restart : Bool
  recording : Bool
  blockInput : Bool
  fromSwitch : Bool
  deriving DecidableEq, Repr

/-- What is put on the channel to the connection manager. -/
inductive CmData where
  | login (login : CmLogin)
  | chatMessage (text : String)
  | voiceCallIncoming
  | startVoiceCall
  | closeVoiceCall
  | fs (request : Fs)
  | clipboardFile (payload : Bytes)
  | clipboardFileEnabled (enabled : Bool)
  | fileTransferLog (action : String)
  | disconnected
  | close
  deriving DecidableEq, Repr

/-- What is put on the input channel. `simulate` and `showCursor` are the two
flags of `InputMouse`. -/
inductive MessageInput where
  | mouse (event : MouseEvent) (simulate showCursor : Bool)
  | key (event : KeyEvent) (press : Bool)
  | pointer (event : PointerDeviceEvent)
  | blockOn
  | blockOff
  deriving DecidableEq, Repr

/-- A mouse, pointer or key event, as opposed to the switches of input blocking. -/
def MessageInput.isEvent : MessageInput → Bool
  | .mouse .. | .key .. | .pointer .. => true
  | .blockOn | .blockOff => false

/-- What is sent to the peer. -/
inductive PeerMessage where
  | loginError (error : String) (enableTrustedDevices : Bool)
  | loginResponse
  | permissionInfo (permission : Permission) (enabled : Bool)
  | testDelay (fromClient : Bool)
  | chatMessage (text : String)
  | closeReason (reason : String)
  | voiceCallResponse (reqTimestamp : Int) (accepted : Bool)
  | voiceCallRequest (isConnect : Bool)
  | switchBack
  | privacyModeState (implKey : String)
  | blockInputError (on : Bool) (details : String)
  | elevationResponse (err : String)
  | messageBox (title text : String)
  | displayChanged
  | terminalResponse
  | fileError (id : Int) (error : String) (fileNum : Int)
  | fileDir (id : Int) (path : String)
  | fileResponse (response : FileResponse)
  | clip (payload : Bytes)
  | raw (bytes : Bytes)
  deriving DecidableEq, Repr

/-- Everything a handler does outside the connection's own fields and the
process-wide tables. -/
inductive Effect where
  | send (message : PeerMessage)
  | toCm (data : CmData)
  | input (input : MessageInput)
  | takeScreenshot (display : Int) (sid : String)
  | refreshVideo (display : Option Int)
  | updateClipboard (contents : List Bytes)
  | serveClip (payload : Bytes)
  | emptyFileClipboard
  | startReadJob (id : Int) (path : String) (fileNum : Int) (jobType : JobType)
      (overwriteDetection : Bool)
  | cancelReadJob (id : Int)
  | confirmReadJob (id fileNum : Int) (skip : Bool) (offsetBlk : Nat)
  | startAudioThread (sampleRate channels : Nat)
  | playAudio (data : Bytes)
  | setVoiceCallInputDevice (open_ : Bool)
  | qosImageQuality (quality : Int)
  | qosCustomFps (fps : Int)
  | qosAutoAdjustFps (fps : Nat)
  | qosRecord (status : Bool)
  | qosNetworkDelay
  | videoFrameFetched
  | updateEncoder (supportedDecoding : Option Nat)
  | changeResolution (display : Option Int) (width height : Int)
  | turnOnPrivacy (implKey : String)
  | turnOffPrivacy (implKey : String)
  | toggleVirtualDisplay (display : Int) (on : Bool)
  | restartDevice
  | startPortableService
  | runMe (connect : String) (switchUuid : Bytes)
  | connectToUserSession (sid : Nat)
  | terminalAction (payload : Bytes)
  | setTerminalPersistent (serviceId : String) (persistent : Bool)
  | whiteboard (register : Bool)
  | lockScreen
  | startRelay (target : String)
  deriving DecidableEq, Repr

end HibtDesk
