import HibtDesk.Common.Options
import HibtDesk.Library.Trace

/-! How a client comes by the password it sends, and what it keeps of it. Texts are their
bytes; `sha256` stands for the digest of the library. -/
namespace HibtDesk.Session.ClientLogin

/-- Where the sent password comes from. -/
inductive PasswordSource where
  | personalAb (hash : Bytes)
  | sharedAb (password : Bytes)
  | undefined
  deriving DecidableEq, Repr

/-- `Hash`, which the peer sends first. -/
structure Hash where
  salt : Bytes
  challenge : Bytes
  deriving DecidableEq, Repr

structure AbPeer where
  id : Bytes
  /-- What the hash of the entry decodes to, if it does. -/
  hash : Option Bytes
  deriving DecidableEq, Repr

structure AbEntry where
  name : String
  peers : List AbPeer
  deriving DecidableEq, Repr

structure Ab where
  accessToken : Bytes
  abEntries : List AbEntry
  deriving DecidableEq, Repr

def AbEntry.personal (entry : AbEntry) : Bool :=
  entry.name == "My address book" || entry.name == "Legacy address book"

/-- `PeerConfig`, as far as a login reads and writes it. -/
structure PeerConfig where
  password : Bytes := []
  osUsername : Bytes := []
  osPassword : Bytes := []
  trustThisDevice : Bytes := []
  deriving DecidableEq, Repr

/-- `ConnToken`. -/
structure ConnToken where
  password : Bytes
  passwordSource : PasswordSource
  deriving DecidableEq, Repr

/-- `LoginConfigHandler`, and the file of its peer. A uuid to switch sides is kept as the text
it is, which may be no uuid. -/
structure LoginConfigHandler where
  id : Bytes
  isTerminal : Bool
  isTerminalAdmin : Bool
  hash : Hash := ⟨[], []⟩
  password : Bytes := []
  remember : Bool
  config : PeerConfig
  switchUuid : Option (Option Nat)
  passwordSource : PasswordSource := .undefined
  sharedPassword : Option Bytes
  stored : PeerConfig
  deriving DecidableEq, Repr

inductive Sent where
  | loginRequest (osUsername osPassword password : Bytes) (hwid : Bool)
  | switchSidesResponse (uuid : Nat) (hwid : Bool)
  | msgbox (msgtype title text : String)
  | syncPeerHashPasswordToPersonalAb (hash : Bytes)
  deriving DecidableEq, Repr

/-- What a handling of `Hash` reads elsewhere: the password given beforehand, the address book
with the token of the account, and the option for a default password. -/
structure Readings where
  passwordPreset : Bytes
  accessToken : Bytes
  ab : Ab
  defaultConnectPassword : Bytes
  deriving DecidableEq, Repr

/-- The errors of a login that `handle_login_error` tells apart. -/
inductive LoginError where
  | passwordEmpty
  | passwordWrong
  | wrong2fa
  | require2fa
  | other
  deriving DecidableEq, Repr

inductive Event where
  | hash (readings : Readings) (hash : Hash)
  | loginFromUi (osUsername osPassword password : Bytes) (remember : Bool)
  | loginError (error : LoginError)
  | peerInfo
  /-- Another session writes the file of the peer. -/
  | fileWritten (config : PeerConfig)
  deriving DecidableEq, Repr

namespace PasswordSource

/-- `is_personal_ab`. -/
def isPersonalAb (source : PasswordSource) (password : Bytes) : Bool :=
  if password.isEmpty then false
  else
    match source with
    | .personalAb hash => hash == password
    | _ => false

/-- `is_shared_ab`. -/
def isSharedAb (sha256 : Bytes → Bytes) (source : PasswordSource) (password : Bytes) (hash : Hash) :
    Bool :=
  if password.isEmpty then false
  else
    match source with
    | .sharedAb shared => password == sha256 (shared ++ hash.salt)
    | _ => false

end PasswordSource

namespace LoginConfigHandler

/-- `initialize`, as far as it is about the login. -/
def initializeHandler (id : Bytes) (isTerminal isTerminalAdmin : Bool) (switchUuid : Option (Option Nat))
    (sharedPassword : Option Bytes) (connToken : Option ConnToken) (stored : PeerConfig) :
    LoginConfigHandler where
  id := id
  isTerminal := isTerminal
  isTerminalAdmin := isTerminal && isTerminalAdmin
  remember := !stored.password.isEmpty
  config := stored
  password := (connToken.map ConnToken.password).getD []
  passwordSource := (connToken.map ConnToken.passwordSource).getD .undefined
  switchUuid := switchUuid
  sharedPassword := sharedPassword
  stored := stored

/-- `save_config`. -/
def saveConfig (lc : LoginConfigHandler) (config : PeerConfig) : LoginConfigHandler :=
  { lc with stored := config, config := config }

/-- The hardware id is told to a peer that is to trust this device. -/
def tellsHwid (lc : LoginConfigHandler) : Bool := lc.config.trustThisDevice == [89]

/-- `try_get_password_from_personal_ab`. -/
def tryGetPasswordFromPersonalAb (lc : LoginConfigHandler) (readings : Readings) : Option Bytes :=
  if readings.accessToken.isEmpty || readings.accessToken != readings.ab.accessToken then none
  else do
    let entry ← readings.ab.abEntries.find? AbEntry.personal
    let peer ← entry.peers.find? fun peer => peer.id == lc.id
    let hash ← peer.hash
    if hash.isEmpty then none else some hash

/-- The last password or the one given beforehand. -/
def presetPassword (sha256 : Bytes → Bytes) (readings : Readings) (lc : LoginConfigHandler) :
    LoginConfigHandler :=
  if lc.password.isEmpty && !readings.passwordPreset.isEmpty then
    { lc with password := sha256 (readings.passwordPreset ++ lc.hash.salt), passwordSource := .undefined }
  else lc

/-- The shared password, which goes before the last one. -/
def sharedAbPassword (sha256 : Bytes → Bytes) (lc : LoginConfigHandler) : LoginConfigHandler :=
  match lc.sharedPassword with
  | some shared =>
      if shared.isEmpty then { lc with sharedPassword := none }
      else
        { lc with sharedPassword := none, password := sha256 (shared ++ lc.hash.salt)
                  passwordSource := .sharedAb shared }
  | none => lc

def configPassword (lc : LoginConfigHandler) : LoginConfigHandler :=
  if lc.password.isEmpty && !lc.config.password.isEmpty then
    { lc with password := lc.config.password, passwordSource := .undefined }
  else lc

def personalAbPassword (readings : Readings) (lc : LoginConfigHandler) : LoginConfigHandler :=
  if lc.password.isEmpty then
    match lc.tryGetPasswordFromPersonalAb readings with
    | some hash => { lc with password := hash, passwordSource := .personalAb hash }
    | none => lc
  else lc

/-- The default of a custom client, which is treated like a shared password. -/
def defaultPassword (sha256 : Bytes → Bytes) (readings : Readings) (lc : LoginConfigHandler) :
    LoginConfigHandler :=
  if lc.password.isEmpty && !readings.defaultConnectPassword.isEmpty then
    { lc with password := sha256 (readings.defaultConnectPassword ++ lc.hash.salt)
              passwordSource := .sharedAb readings.defaultConnectPassword }
  else lc

/-- The password a login is tried with, in the order of the sources. The field is written
before each source is looked at, where the code keeps a variable until the end. -/
def choosePassword (sha256 : Bytes → Bytes) (readings : Readings) (lc : LoginConfigHandler) :
    LoginConfigHandler :=
  (((lc.presetPassword sha256 readings).sharedAbPassword sha256).configPassword.personalAbPassword
    readings).defaultPassword sha256 readings

/-- The login that is sent with the password in use, or what the user is asked instead. Without
a password the login is sent as well: the other side can accept it by hand. -/
def loginWithPassword (sha256 : Bytes → Bytes) (lc : LoginConfigHandler) : List Sent :=
  if lc.isTerminal && lc.isTerminalAdmin then
    [.msgbox (if lc.password.isEmpty then "terminal-admin-login-password" else "terminal-admin-login") "" ""]
  else
    let osUsername := if lc.isTerminal then [] else lc.config.osUsername
    let osPassword := if lc.isTerminal then [] else lc.config.osPassword
    if lc.password.isEmpty then
      [.msgbox "input-password" "Password Required" "",
        .loginRequest osUsername osPassword [] lc.tellsHwid]
    else
      [.loginRequest osUsername osPassword (sha256 (lc.password ++ lc.hash.challenge)) lc.tellsHwid]

/-- `handle_hash`. -/
def handleHash (sha256 : Bytes → Bytes) (readings : Readings) (hash : Hash) (lc : LoginConfigHandler) :
    LoginConfigHandler × List Sent :=
  let lc := { lc with hash := hash }
  let switchUuid := lc.switchUuid
  let lc := { lc with switchUuid := none }
  match switchUuid with
  | some (some uuid) => ({ lc with passwordSource := .undefined }, [.switchSidesResponse uuid lc.tellsHwid])
  | none | some none =>
      let lc := lc.choosePassword sha256 readings
      (lc, lc.loginWithPassword sha256)

/-- `handle_login_from_ui`. -/
def handleLoginFromUi (sha256 : Bytes → Bytes) (osUsername osPassword password : Bytes)
    (remember : Bool) (lc : LoginConfigHandler) : LoginConfigHandler × List Sent :=
  let lc :=
    if password.isEmpty then lc.configPassword
    else
      { lc with passwordSource := .undefined, remember := remember
                password := sha256 (password ++ lc.hash.salt) }
  (lc, [.loginRequest osUsername osPassword (sha256 (lc.password ++ lc.hash.challenge)) lc.tellsHwid])

/-- `handle_login_error`. -/
def handleLoginError (error : LoginError) (lc : LoginConfigHandler) : LoginConfigHandler × List Sent :=
  match error with
  | .passwordEmpty => ({ lc with password := [] }, [.msgbox "input-password" "Password Required" ""])
  | .passwordWrong =>
      ({ lc with password := [] },
        [.msgbox "re-input-password" "Wrong Password" "Do you want to enter again?"])
  | .wrong2fa | .require2fa =>
      let lc := if lc.tellsHwid then lc.saveConfig { lc.stored with trustThisDevice := [] } else lc
      (lc, [.msgbox "input-2fa" (if error = .wrong2fa then "Wrong 2FA Code" else "2FA Required") ""])
  | .other => (lc, [.msgbox "error" "Login Error" ""])

/-- The configuration of the peer after a login with the password in use. -/
def rememberPassword (sha256 : Bytes → Bytes) (lc : LoginConfigHandler) : PeerConfig :=
  if lc.remember then
    if !lc.password.isEmpty && lc.password != lc.stored.password
        && !lc.passwordSource.isSharedAb sha256 lc.password lc.hash then
      { lc.stored with password := lc.password }
    else lc.stored
  else if lc.passwordSource.isPersonalAb lc.password then { lc.stored with password := lc.password }
  else if !lc.stored.password.isEmpty then { lc.stored with password := [] }
  else lc.stored

/-- `handle_peer_info`: the login has succeeded. -/
def handlePeerInfo (sha256 : Bytes → Bytes) (lc : LoginConfigHandler) : LoginConfigHandler × List Sent :=
  let config := lc.rememberPassword sha256
  (lc.saveConfig config,
    if !config.password.isEmpty && !lc.passwordSource.isSharedAb sha256 lc.password lc.hash
        && !lc.passwordSource.isPersonalAb lc.password then
      [.syncPeerHashPasswordToPersonalAb config.password]
    else [])

def step (sha256 : Bytes → Bytes) (lc : LoginConfigHandler) : Event → LoginConfigHandler × List Sent
  | .hash readings hash => lc.handleHash sha256 readings hash
  | .loginFromUi osUsername osPassword password remember =>
      lc.handleLoginFromUi sha256 osUsername osPassword password remember
  | .loginError error => lc.handleLoginError error
  | .peerInfo => lc.handlePeerInfo sha256
  | .fileWritten config => ({ lc with stored := config }, [])

end LoginConfigHandler

end HibtDesk.Session.ClientLogin
