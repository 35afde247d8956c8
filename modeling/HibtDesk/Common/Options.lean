import Mathlib.Algebra.Order.Ring.Int

/-! The settings the server reads while it handles a connection: options,
built-in options, passwords and trusted devices. Options are read by key, as
the program reads them; a key without a value reads as the empty string. -/
namespace HibtDesk

abbrev Bytes := List UInt8

/-- The UTF-8 bytes of a string. -/
def utf8 (s : String) : Bytes := s.toList.flatMap String.utf8EncodeChar

inductive TargetOs where
  | windows | linux | macos
  deriving DecidableEq, Repr

/-- What is fixed when the program is built, for the desktop targets. The
cargo features keep their names. -/
structure Build where
  targetOs : TargetOs
  flutter : Bool
  unixFileCopyPaste : Bool
  deriving DecidableEq, Repr

/-- `TrustedDevice`, a device that passed the second factor before. -/
structure TrustedDevice where
  hwid : Bytes
  time : Int
  id : String
  name : String
  platform : String
  deriving DecidableEq, Repr

def days90 : Int := 90 * 24 * 60 * 60 * 1000

/-- `TrustedDevice::outdate` at the wall-clock time `time`. -/
def TrustedDevice.outdate (device : TrustedDevice) (time : Int) : Bool :=
  decide (device.time + days90 < time)

/-- The process-wide settings. `temporaryPassword` is renewed by the server. -/
structure Config where
  option : String → String
  builtin : String → String
  id : String
  temporaryPassword : String
  permanentPassword : String
  trustedDevices : List TrustedDevice

/-- `config::option2bool`. -/
def option2bool (option value : String) : Bool :=
  if "enable-".toList.isPrefixOf option.toList then value != "N"
  else if "allow-".toList.isPrefixOf option.toList || option == "stop-service"
      || option == "direct-server" || option == "force-always-relay" then value == "Y"
  else value != "N"

inductive VerificationMethod where
  | onlyUseTemporaryPassword | onlyUsePermanentPassword | useBothPasswords
  deriving DecidableEq, Repr

inductive ApproveMode where
  | both | password | click
  deriving DecidableEq, Repr

namespace Config

def verificationMethod (config : Config) : VerificationMethod :=
  let method := config.option "verification-method"
  if method = "use-temporary-password" then .onlyUseTemporaryPassword
  else if method = "use-permanent-password" then .onlyUsePermanentPassword
  else .useBothPasswords

def temporaryEnabled (config : Config) : Bool :=
  config.verificationMethod != .onlyUsePermanentPassword

def permanentEnabled (config : Config) : Bool :=
  config.verificationMethod != .onlyUseTemporaryPassword

def hasValidPassword (config : Config) : Bool :=
  config.temporaryEnabled && config.temporaryPassword != ""
    || config.permanentEnabled && config.permanentPassword != ""

def approveMode (config : Config) : ApproveMode :=
  let mode := config.option "approve-mode"
  if mode = "password" then .password
  else if mode = "click" then .click
  else .both

def enableTrustedDevices (config : Config) : Bool :=
  option2bool "enable-trusted-devices" (config.option "enable-trusted-devices")

/-- `Config::add_trusted_device`. Outdated entries are dropped on the way; the
list is left alone when its serialised form would exceed one megabyte, which
`tooLarge` decides. -/
def addTrustedDevice (config : Config) (time : Int) (tooLarge : List TrustedDevice → Bool)
    (device : TrustedDevice) : Config :=
  let devices := (config.trustedDevices.filter fun d => d.hwid != device.hwid) ++ [device]
  let devices := devices.filter fun d => !d.outdate time
  if tooLarge devices then config else { config with trustedDevices := devices }

end Config

/-- The permissions a rendezvous server may dictate, with their bit index. -/
inductive ControlPermission where
  | keyboard | remotePrinter | clipboard | file | audio | camera | terminal | tunnel
  | restart | recording | blockInput
  deriving DecidableEq, Repr

def ControlPermission.value : ControlPermission → Nat
  | .keyboard => 0
  | .remotePrinter => 1
  | .clipboard => 2
  | .file => 3
  | .audio => 4
  | .camera => 5
  | .terminal => 6
  | .tunnel => 7
  | .restart => 8
  | .recording => 9
  | .blockInput => 10

/-- `get_control_permission`: two bits for each permission. -/
def getControlPermission (permissions : Nat) (permission : ControlPermission) : Option Bool :=
  match permissions / 2 ^ (permission.value * 2) % 4 with
  | 1 => some false
  | 2 => some true
  | _ => none

/-- The table inside `Connection::permission`. -/
def controlPermissionOf (enablePrefixOption : String) : Option ControlPermission :=
  if enablePrefixOption = "enable-keyboard" then some .keyboard
  else if enablePrefixOption = "enable-remote-printer" then some .remotePrinter
  else if enablePrefixOption = "enable-clipboard" then some .clipboard
  else if enablePrefixOption = "enable-file-transfer" then some .file
  else if enablePrefixOption = "enable-audio" then some .audio
  else if enablePrefixOption = "enable-camera" then some .camera
  else if enablePrefixOption = "enable-terminal" then some .terminal
  else if enablePrefixOption = "enable-tunnel" then some .tunnel
  else if enablePrefixOption = "enable-remote-restart" then some .restart
  else if enablePrefixOption = "enable-record-session" then some .recording
  else if enablePrefixOption = "enable-block-input" then some .blockInput
  else none

/-- `Connection::is_permission_enabled_locally`. Only the flutter build has an
access mode that overrules the single options. -/
def isPermissionEnabledLocally (build : Build) (config : Config)
    (enablePrefixOption : String) : Bool :=
  if build.flutter && config.option "access-mode" == "full" then true
  else if build.flutter && config.option "access-mode" == "view" then false
  else option2bool enablePrefixOption (config.option enablePrefixOption)

/-- `Connection::permission`: what the rendezvous server dictates comes first. -/
def permission (build : Build) (config : Config) (enablePrefixOption : String)
    (controlPermissions : Option Nat) : Bool :=
  let dictated := controlPermissions.bind fun permissions =>
    (controlPermissionOf enablePrefixOption).bind (getControlPermission permissions)
  dictated.getD (isPermissionEnabledLocally build config enablePrefixOption)

end HibtDesk
