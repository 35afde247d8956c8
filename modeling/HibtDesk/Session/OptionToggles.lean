import HibtDesk.Connection.Services
import HibtDesk.Library.Trace
import Mathlib.Data.List.Infix

/-! The options of a session. What the user toggles is saved and sent at once, and the next
login sends all of it, so the two should come to the same. View-only overrides some of the
options as long as it is on. -/
namespace HibtDesk

namespace Toggles

inductive ConnType where
  | defaultConn | fileTransfer | portForward | rdp | viewCamera | terminal
  deriving DecidableEq, Repr

/-- What the options of a peer are saved in. -/
structure PeerConfig where
  showRemoteCursor : Bool
  lockAfterSessionEnd : Bool
  terminalPersistent : Bool
  privacyMode : Bool
  allowSwapKey : Bool
  disableAudio : Bool
  disableClipboard : Bool
  enableFileCopyPaste : Bool
  showQualityMonitor : Bool
  followRemoteCursor : Bool
  followRemoteWindow : Bool
  viewOnly : Bool
  showMyCursor : Bool
  options : List (String × String)
  deriving DecidableEq, Repr

/-- The part of an option message that is about the picture. -/
structure Media where
  imageQuality : Option ImageQuality
  customImageQuality : Int
  customFps : Int
  supportedDecoding : Nat
  deriving DecidableEq, Repr

/-- `config` is in memory, `stored` is on disk. -/
structure LoginConfigHandler where
  connType : ConnType
  config : PeerConfig
  stored : PeerConfig
  deriving DecidableEq, Repr

def yesOrNo (b : Bool) : Option BoolOption := some (if b then .yes else .no)

namespace PeerConfig

def getOption (config : PeerConfig) (k : String) : String := (config.options.lookup k).getD ""

def getToggleOption (config : PeerConfig) (name : String) : Bool :=
  if name = "show-remote-cursor" then config.showRemoteCursor
  else if name = "lock-after-session-end" then config.lockAfterSessionEnd
  else if name = "terminal-persistent" then config.terminalPersistent
  else if name = "privacy-mode" then config.privacyMode
  else if name = "enable-file-copy-paste" then config.enableFileCopyPaste
  else if name = "disable-audio" then config.disableAudio
  else if name = "disable-clipboard" then config.disableClipboard
  else if name = "show-quality-monitor" then config.showQualityMonitor
  else if name = "allow_swap_key" then config.allowSwapKey
  else if name = "view-only" then config.viewOnly
  else if name = "show-my-cursor" then config.showMyCursor
  else if name = "follow-remote-cursor" then config.followRemoteCursor
  else if name = "follow-remote-window" then config.followRemoteWindow
  else !(config.getOption name).isEmpty

/-- The switch of view-only: what it overrides, or what was saved before. `saved` is the
configuration in memory. -/
def toggleViewOnly (config saved : PeerConfig) : PeerConfig × OptionMessage :=
  let config := { config with viewOnly := !config.viewOnly }
  if config.viewOnly then
    (config,
      { disableKeyboard := yesOrNo true
        disableClipboard := yesOrNo true
        showRemoteCursor := yesOrNo true
        enableFileTransfer := yesOrNo false
        lockAfterSessionEnd := yesOrNo false })
  else
    let option : OptionMessage :=
      { disableKeyboard := yesOrNo false
        disableClipboard := yesOrNo (saved.getToggleOption "disable-clipboard")
        showRemoteCursor := yesOrNo (saved.getToggleOption "show-remote-cursor")
        enableFileTransfer := yesOrNo saved.enableFileCopyPaste
        lockAfterSessionEnd := yesOrNo saved.lockAfterSessionEnd }
    if config.showMyCursor then
      ({ config with showMyCursor := false }, { option with showMyCursor := some .no })
    else (config, option)

/-- The branches of `toggle_option` for the names it knows. -/
def toggled (config saved : PeerConfig) (name : String) : Option (PeerConfig × OptionMessage) :=
  if name = "show-remote-cursor" then
    some ({ config with showRemoteCursor := !config.showRemoteCursor },
      { showRemoteCursor := yesOrNo (!config.showRemoteCursor) })
  else if name = "follow-remote-cursor" then
    some ({ config with followRemoteCursor := !config.followRemoteCursor },
      { followRemoteCursor := yesOrNo (!config.followRemoteCursor) })
  else if name = "follow-remote-window" then
    some ({ config with followRemoteWindow := !config.followRemoteWindow },
      { followRemoteWindow := yesOrNo (!config.followRemoteWindow) })
  else if name = "disable-audio" then
    some ({ config with disableAudio := !config.disableAudio },
      { disableAudio := yesOrNo (!config.disableAudio) })
  else if name = "disable-clipboard" then
    some ({ config with disableClipboard := !config.disableClipboard },
      { disableClipboard := yesOrNo (!config.disableClipboard) })
  else if name = "lock-after-session-end" then
    some ({ config with lockAfterSessionEnd := !config.lockAfterSessionEnd },
      { lockAfterSessionEnd := yesOrNo (!config.lockAfterSessionEnd) })
  else if name = "terminal-persistent" then
    some ({ config with terminalPersistent := !config.terminalPersistent },
      { terminalPersistent := yesOrNo (!config.terminalPersistent) })
  else if name = "privacy-mode" then some (config, { privacyMode := yesOrNo (!config.privacyMode) })
  else if name = "enable-file-copy-paste" then
    some ({ config with enableFileCopyPaste := !config.enableFileCopyPaste },
      { enableFileTransfer := yesOrNo (!config.enableFileCopyPaste) })
  else if name = "block-input" then some (config, { blockInput := some .yes })
  else if name = "unblock-input" then some (config, { blockInput := some .no })
  else if name = "show-quality-monitor" then
    some ({ config with showQualityMonitor := !config.showQualityMonitor }, {})
  else if name = "allow_swap_key" then some ({ config with allowSwapKey := !config.allowSwapKey }, {})
  else if name = "view-only" then some (config.toggleViewOnly saved)
  else if name = "show-my-cursor" then
    some ({ config with showMyCursor := !config.showMyCursor },
      { showMyCursor := yesOrNo (!config.showMyCursor) })
  else none

/-- An option that is set is removed, and one that is not is set to "Y". -/
def toggleOther (config : PeerConfig) (name : String) : PeerConfig :=
  let options := config.options.filter (·.1 ≠ name)
  if (config.options.lookup name).any (!·.isEmpty) then { config with options }
  else { config with options := (name, "Y") :: options }

end PeerConfig

namespace LoginConfigHandler

/-- `LoginConfigHandler::toggle_option`. -/
def toggleOption (handler : LoginConfigHandler) (name : String) :
    LoginConfigHandler × Option OptionMessage :=
  match handler.stored.toggled handler.config name with
  | some (config, option) =>
      if "block-input".toList <:+: name.toList then (handler, some option)
      else ({ handler with config := config, stored := config }, some option)
  | none =>
      let config := handler.config.toggleOther name
      ({ handler with config := config, stored := config }, none)

/-- `LoginConfigHandler::get_option_message`. -/
def getOptionMessage (handler : LoginConfigHandler) (media : Media) : Option OptionMessage :=
  if handler.connType = .portForward ∨ handler.connType = .rdp ∨ handler.connType = .fileTransfer then none
  else if handler.connType = .terminal then
    if handler.config.getToggleOption "terminal-persistent" then
      some { terminalPersistent := some .yes }
    else none
  else
    let viewOnly := handler.config.getToggleOption "view-only"
    let yesIf := fun b : Bool => if b then some BoolOption.yes else some .notSet
    some
      { imageQuality := media.imageQuality
        customImageQuality := media.customImageQuality
        customFps := media.customFps
        supportedDecoding := some media.supportedDecoding
        disableKeyboard := yesIf viewOnly
        showRemoteCursor := yesIf (viewOnly || handler.config.getToggleOption "show-remote-cursor")
        showMyCursor := yesIf (viewOnly && handler.config.getToggleOption "show-my-cursor")
        followRemoteCursor := yesIf (handler.config.getToggleOption "follow-remote-cursor")
        followRemoteWindow := yesIf (handler.config.getToggleOption "follow-remote-window")
        lockAfterSessionEnd :=
          yesIf (!viewOnly && handler.config.getToggleOption "lock-after-session-end")
        disableAudio := yesIf (handler.config.getToggleOption "disable-audio")
        enableFileTransfer :=
          yesIf (!viewOnly && handler.config.getToggleOption "enable-file-copy-paste")
        disableClipboard := yesIf (viewOnly || handler.config.getToggleOption "disable-clipboard") }

end LoginConfigHandler

/-- The option fields of a connection at the server. -/
structure OptionFields where
  disableKeyboard : Bool
  disableClipboard : Bool
  disableAudio : Bool
  showRemoteCursor : Bool
  followRemoteCursor : Bool
  enableFileTransfer : Bool
  lockAfterSessionEnd : Bool
  showMyCursor : Bool
  deriving DecidableEq, Repr

def OptionFields.new : OptionFields := ⟨false, false, false, false, false, false, false, false⟩

/-- The fields after an option message. -/
def OptionFields.updated (build : Build) (fields : OptionFields) (o : OptionMessage) : OptionFields where
  disableKeyboard := applied o.disableKeyboard fields.disableKeyboard
  disableClipboard := applied o.disableClipboard fields.disableClipboard
  disableAudio := applied o.disableAudio fields.disableAudio
  showRemoteCursor := applied o.showRemoteCursor fields.showRemoteCursor
  followRemoteCursor := applied o.followRemoteCursor fields.followRemoteCursor
  enableFileTransfer :=
    if build.targetOs = .windows ∨ build.unixFileCopyPaste = true then
      applied o.enableFileTransfer fields.enableFileTransfer
    else fields.enableFileTransfer
  lockAfterSessionEnd := applied o.lockAfterSessionEnd fields.lockAfterSessionEnd
  showMyCursor := applied o.showMyCursor fields.showMyCursor

end Toggles

open Toggles

def Connection.optionFields (conn : Connection) : OptionFields where
  disableKeyboard := conn.disableKeyboard
  disableClipboard := conn.disableClipboard
  disableAudio := conn.disableAudio
  showRemoteCursor := conn.showRemoteCursor
  followRemoteCursor := conn.followRemoteCursor
  enableFileTransfer := conn.enableFileTransfer
  lockAfterSessionEnd := conn.lockAfterSessionEnd
  showMyCursor := conn.showMyCursor

namespace State

section Fields
variable (fixed : Fixed) (env : Env) (s : State) (o : OptionMessage)

/-- An option that leaves a part of the state alone. -/
theorem whenSet_keeps {α : Type} (get : State → α) (q : Option BoolOption) (set : State → Bool → State)
    (hSet : ∀ t v, get (set t v) = get t) : get (whenSet q s set) = get s := by
  cases q with
  | none => rfl
  | some v =>
      cases v with
      | notSet => rfl
      | no => exact hSet s false
      | yes => exact hSet s true

/-- An option that is put into a field. -/
theorem whenSet_puts (get : State → Bool) (q : Option BoolOption) (set : State → Bool → State)
    (hSet : ∀ t v, get (set t v) = v) : get (whenSet q s set) = applied q (get s) := by
  cases q with
  | none => rfl
  | some v =>
      cases v with
      | notSet => rfl
      | no => exact hSet s false
      | yes => exact hSet s true

/-- The fields that neither permissions nor subscriptions depend on. -/
def quietFields (s : State) : Bool × Bool := (s.conn.lockAfterSessionEnd, s.conn.followRemoteCursor)

theorem quietFields_updateVideoOptions :
    (((s.updateImageQuality o).updateCustomFps o).updateSupportedDecoding o).quietFields =
      s.quietFields := by
  have hDecoding : ∀ t : State, (t.updateSupportedDecoding o).quietFields = t.quietFields := by
    intro t
    unfold updateSupportedDecoding
    split <;> rfl
  have hFps : ∀ t : State, (t.updateCustomFps o).quietFields = t.quietFields := by
    intro t
    unfold updateCustomFps
    split <;> rfl
  have hQuality : ∀ t : State, (t.updateImageQuality o).quietFields = t.quietFields := by
    intro t
    unfold updateImageQuality
    split
    · dsimp only
      split_ifs <;> rfl
    · rfl
  rw [hDecoding, hFps, hQuality]

theorem quietFields_updateLegacyOptions :
    ((s.updatePrivacyMode o).updateBlockInput o).quietFields = s.quietFields := by
  have hBlock : ∀ t : State, (t.updateBlockInput o).quietFields = t.quietFields := by
    intro t
    unfold updateBlockInput
    split
    · split_ifs
      · split <;> rfl
      · rfl
      · rfl
    · rfl
  have hPrivacy : ∀ t : State, (t.updatePrivacyMode o).quietFields = t.quietFields := by
    intro t
    unfold updatePrivacyMode
    split_ifs <;> first | rfl | (split <;> rfl)
  rw [hBlock, hPrivacy]

/-- What follows the cursor does not touch the quiet fields. -/
theorem quietFields_afterCursor :
    (s.updateOptions fixed env o).quietFields =
      (whenSet o.followRemoteCursor
        (whenSet o.showRemoteCursor
          (whenSet o.lockAfterSessionEnd
            (((s.updateImageQuality o).updateCustomFps o).updateSupportedDecoding o)
            setLockAfterSessionEnd)
          setShowRemoteCursor)
        setFollowRemoteCursor).quietFields := by
  have hFile : ∀ t : State, (t.refreshFileClipboard fixed).quietFields = t.quietFields := by
    intro t
    unfold quietFields
    rw [refreshFileClipboard_conn]
  have hKeyboard : ∀ (t : State) (v : Bool), (setDisableKeyboard fixed t v).quietFields = t.quietFields := by
    intro t v
    unfold setDisableKeyboard
    exact hFile _
  have hTransfer : ∀ (t : State) (v : Bool), (setEnableFileTransfer fixed t v).quietFields = t.quietFields := by
    intro t v
    unfold setEnableFileTransfer
    dsimp only
    split_ifs <;> first | rfl | exact hFile _
  have hAudio : ∀ (t : State) (v : Bool), (setDisableAudio t v).quietFields = t.quietFields := by
    intro t v
    unfold setDisableAudio quietFields
    rw [refreshAudio_conn]
  have hMine : ∀ (t : State) (v : Bool), (setShowMyCursor env t v).quietFields = t.quietFields := by
    intro t v
    unfold setShowMyCursor
    dsimp only
    split_ifs <;> rfl
  unfold updateOptions
  dsimp only
  rw [whenSet_keeps _ quietFields _ _ hMine,
    whenSet_keeps _ quietFields _ setTerminalPersistence fun _ _ => rfl,
    quietFields_updateLegacyOptions, whenSet_keeps _ quietFields _ _ hKeyboard,
    whenSet_keeps _ quietFields _ setDisableClipboard fun _ _ => rfl,
    whenSet_keeps _ quietFields _ _ hTransfer, whenSet_keeps _ quietFields _ _ hAudio,
    whenSet_keeps _ quietFields _ setFollowRemoteWindow fun _ _ => rfl]

theorem quietFields_updateOptions :
    (s.updateOptions fixed env o).quietFields =
      (applied o.lockAfterSessionEnd s.conn.lockAfterSessionEnd,
        applied o.followRemoteCursor s.conn.followRemoteCursor) := by
  have hVideo := quietFields_updateVideoOptions s o
  rw [quietFields_afterCursor]
  generalize ((s.updateImageQuality o).updateCustomFps o).updateSupportedDecoding o = t at hVideo ⊢
  have hLock : t.conn.lockAfterSessionEnd = s.conn.lockAfterSessionEnd := congrArg Prod.fst hVideo
  have hFollow : t.conn.followRemoteCursor = s.conn.followRemoteCursor := congrArg Prod.snd hVideo
  refine Prod.ext ?_ ?_
  · show (whenSet _ _ _).conn.lockAfterSessionEnd = _
    rw [whenSet_keeps _ (·.conn.lockAfterSessionEnd) _ setFollowRemoteCursor fun _ _ => rfl,
      whenSet_keeps _ (·.conn.lockAfterSessionEnd) _ setShowRemoteCursor fun _ _ => rfl,
      whenSet_puts _ (·.conn.lockAfterSessionEnd) _ setLockAfterSessionEnd fun _ _ => rfl, hLock]
  · show (whenSet _ _ _).conn.followRemoteCursor = _
    rw [whenSet_puts _ (·.conn.followRemoteCursor) _ setFollowRemoteCursor fun _ _ => rfl,
      whenSet_keeps _ (·.conn.followRemoteCursor) _ setShowRemoteCursor fun _ _ => rfl,
      whenSet_keeps _ (·.conn.followRemoteCursor) _ setLockAfterSessionEnd fun _ _ => rfl, hFollow]

theorem optionFields_updateOptions :
    (s.updateOptions fixed env o).conn.optionFields = s.conn.optionFields.updated fixed.build o := by
  have hView := updateOptions_permissionView fixed env s o
  have hQuiet := quietFields_updateOptions fixed env s o
  generalize s.updateOptions fixed env o = t at hView hQuiet ⊢
  have hLock : t.conn.lockAfterSessionEnd = _ := congrArg Prod.fst hQuiet
  have hFollow : t.conn.followRemoteCursor = _ := congrArg Prod.snd hQuiet
  have hKeyboard : t.conn.disableKeyboard = _ := congrArg PermissionView.disableKeyboard hView
  have hClipboard : t.conn.disableClipboard = _ := congrArg PermissionView.disableClipboard hView
  have hAudio : t.conn.disableAudio = _ := congrArg PermissionView.disableAudio hView
  have hCursor : t.conn.showRemoteCursor = _ := congrArg PermissionView.showRemoteCursor hView
  have hFile : t.conn.enableFileTransfer = _ := congrArg PermissionView.enableFileTransfer hView
  have hMine : t.conn.showMyCursor = _ := congrArg PermissionView.showMyCursor hView
  unfold Connection.optionFields
  rw [hLock, hFollow, hKeyboard, hClipboard, hAudio, hCursor, hFile, hMine]
  rfl

end Fields

end State

namespace Toggles

/-- What a connection is opened with. -/
structure Opening where
  world : World
  server : Option Server
  now : Nat
  id : Int
  ip : String
  salt : String
  challenge : String
  require2fa : Option Totp
  controlPermissions : Option Nat

def Opening.state (fixed : Fixed) (opening : Opening) : State :=
  (Loop.start fixed opening.world opening.server opening.now opening.id opening.ip opening.salt
    opening.challenge opening.require2fa opening.controlPermissions).state

/-- The options of a login of a default connection reach a new connection. -/
def login (fixed : Fixed) (opening : Opening) (env : Env) (media : Media) (config : PeerConfig) : State :=
  match (LoginConfigHandler.mk .defaultConn config config).getOptionMessage media with
  | some o => (opening.state fixed).updateOptions fixed env o
  | none => opening.state fixed

/-- A session: what the client has, and the connection at the server. -/
structure Session where
  handler : LoginConfigHandler
  server : State

/-- The user toggles an option, and the server handles the message, if there is one. -/
def step (fixed : Fixed) (session : Session) (input : String × Env) : Session :=
  match session.handler.toggleOption input.1 with
  | (handler, some o) => ⟨handler, session.server.updateOptions fixed input.2 o⟩
  | (handler, none) => ⟨handler, session.server⟩

/-- A new connection with what is saved now would have the same option fields. -/
def SameAsLogin (fixed : Fixed) (session : Session) : Prop :=
  ∀ (opening : Opening) (env : Env) (media : Media),
    session.server.conn.optionFields =
      (login fixed opening env media session.handler.stored).conn.optionFields

/-- The server knows an option to transfer files. -/
def FileOption (fixed : Fixed) : Prop :=
  fixed.build.targetOs = .windows ∨ fixed.build.unixFileCopyPaste = true

instance (fixed : Fixed) : Decidable (FileOption fixed) := inferInstanceAs (Decidable (_ ∨ _))

/-- Toggles that keep to what a login would send. With view-only on, the cursor and the
clipboard may be switched on and the file clipboard and the lock off; view-only is not
switched on over a cursor that is to be shown, and that is switched on under it only. -/
def Sound (fixed : Fixed) (session : Session) (input : String × Env) : Prop :=
  let config := session.handler.stored
  if input.1 = "show-remote-cursor" then config.viewOnly = true → config.showRemoteCursor = false
  else if input.1 = "disable-clipboard" then config.viewOnly = true → config.disableClipboard = false
  else if input.1 = "lock-after-session-end" then
    config.viewOnly = true → config.lockAfterSessionEnd = true
  else if input.1 = "enable-file-copy-paste" then
    config.viewOnly = true → FileOption fixed → config.enableFileCopyPaste = true
  else if input.1 = "view-only" then config.viewOnly = false → config.showMyCursor = false
  else if input.1 = "show-my-cursor" then config.viewOnly = false → config.showMyCursor = true
  else True

section Spec
variable {fixed : Fixed}

theorem optionFields_opening (opening : Opening) : (opening.state fixed).conn.optionFields = .new := rfl

/-- The fields that a login with the configuration brings. -/
def PeerConfig.loginFields (fixed : Fixed) (config : PeerConfig) : OptionFields where
  disableKeyboard := config.viewOnly
  disableClipboard := config.viewOnly || config.disableClipboard
  disableAudio := config.disableAudio
  showRemoteCursor := config.viewOnly || config.showRemoteCursor
  followRemoteCursor := config.followRemoteCursor
  enableFileTransfer := decide (FileOption fixed) && (!config.viewOnly && config.enableFileCopyPaste)
  lockAfterSessionEnd := !config.viewOnly && config.lockAfterSessionEnd
  showMyCursor := config.viewOnly && config.showMyCursor

/-- An option that is only sent if it is on. -/
theorem applied_yesIf (b : Bool) : applied (if b then some .yes else some .notSet) false = b := by
  cases b <;> rfl

theorem applied_yesOrNo (b old : Bool) : applied (yesOrNo b) old = b := by
  cases b <;> rfl

theorem applied_no (old : Bool) : applied (some .no) old = false := rfl

theorem applied_notSet (old : Bool) : applied (some .notSet) old = old := rfl

theorem optionFields_login (opening : Opening) (env : Env) (media : Media) (config : PeerConfig) :
    (login fixed opening env media config).conn.optionFields = config.loginFields fixed := by
  have hMessage : ∃ o, (LoginConfigHandler.mk .defaultConn config config).getOptionMessage media = some o ∧
      OptionFields.new.updated fixed.build o = config.loginFields fixed := by
    refine ⟨_, rfl, ?_⟩
    unfold OptionFields.updated OptionFields.new PeerConfig.loginFields
    dsimp only
    rw [applied_yesIf, applied_yesIf, applied_yesIf, applied_yesIf, applied_yesIf, applied_yesIf,
      applied_yesIf, applied_yesIf]
    congr 1
    by_cases hFile : FileOption fixed
    · refine (if_pos hFile).trans ?_
      rw [decide_eq_true hFile, Bool.true_and]
      rfl
    · refine (if_neg hFile).trans ?_
      rw [decide_eq_false hFile, Bool.false_and]
  obtain ⟨o, hSome, hFields⟩ := hMessage
  unfold login
  rw [hSome]
  dsimp only
  rw [State.optionFields_updateOptions, optionFields_opening, hFields]

/-- An option field alone, where the build knows it. -/
theorem enableFileTransfer_updated (fields : OptionFields) (o : OptionMessage) :
    (fields.updated fixed.build o).enableFileTransfer =
      if FileOption fixed then applied o.enableFileTransfer fields.enableFileTransfer
      else fields.enableFileTransfer := by
  by_cases hFile : FileOption fixed
  · rw [if_pos hFile]
    exact if_pos hFile
  · rw [if_neg hFile]
    exact if_neg hFile

theorem OptionFields.eq_iff (a b : OptionFields) :
    a = b ↔ a.disableKeyboard = b.disableKeyboard ∧ a.disableClipboard = b.disableClipboard ∧
      a.disableAudio = b.disableAudio ∧ a.showRemoteCursor = b.showRemoteCursor ∧
      a.followRemoteCursor = b.followRemoteCursor ∧ a.enableFileTransfer = b.enableFileTransfer ∧
      a.lockAfterSessionEnd = b.lockAfterSessionEnd ∧ a.showMyCursor = b.showMyCursor := by
  cases a
  cases b
  simp

/-- The names that `toggle_option` sends a message for. -/
theorem PeerConfig.toggled_known {config saved : PeerConfig} {name : String}
    (h : config.toggled saved name ≠ none) :
    name = "show-remote-cursor" ∨ name = "follow-remote-cursor" ∨ name = "follow-remote-window" ∨
      name = "disable-audio" ∨ name = "disable-clipboard" ∨ name = "lock-after-session-end" ∨
      name = "terminal-persistent" ∨ name = "privacy-mode" ∨ name = "enable-file-copy-paste" ∨
      name = "block-input" ∨ name = "unblock-input" ∨ name = "show-quality-monitor" ∨
      name = "allow_swap_key" ∨ name = "view-only" ∨ name = "show-my-cursor" := by
  contrapose! h
  simp [PeerConfig.toggled, h]

/-- Switched on, view-only says nothing of the cursor that a login would show. -/
theorem updated_toggleViewOnly_iff (stored : PeerConfig) :
    (stored.loginFields fixed).updated fixed.build (stored.toggleViewOnly stored).2 =
        (stored.toggleViewOnly stored).1.loginFields fixed ↔
      (stored.viewOnly = false → stored.showMyCursor = false) := by
  rw [OptionFields.eq_iff, enableFileTransfer_updated]
  unfold PeerConfig.toggleViewOnly
  cases hViewOnly : stored.viewOnly <;> cases hMine : stored.showMyCursor <;>
    by_cases hFile : FileOption fixed <;>
      simp [hFile, OptionFields.updated, PeerConfig.loginFields, applied_yesOrNo, applied_notSet,
        applied_no, hViewOnly, hMine, PeerConfig.getToggleOption]

/-- What a toggle sends keeps the fields the same as after a login exactly if it is sound. -/
theorem updated_eq_loginFields_iff {session : Session} {input : String × Env} {config : PeerConfig}
    {o : OptionMessage}
    (hToggled : session.handler.stored.toggled session.handler.stored input.1 = some (config, o)) :
    (session.handler.stored.loginFields fixed).updated fixed.build o = config.loginFields fixed ↔
      Sound fixed session input := by
  obtain ⟨name, env⟩ := input
  unfold Sound
  dsimp only at hToggled ⊢
  generalize session.handler.stored = stored at hToggled ⊢
  have hKnown := PeerConfig.toggled_known (by rw [hToggled]; exact Option.some_ne_none _)
  by_cases hView : name = "view-only"
  · subst hView
    simp only [PeerConfig.toggled, String.reduceEq, if_true, if_false, Option.some.injEq] at hToggled ⊢
    have hBoth := @updated_toggleViewOnly_iff fixed stored
    rw [hToggled] at hBoth
    exact hBoth
  rw [OptionFields.eq_iff, enableFileTransfer_updated]
  rcases hKnown with rfl | rfl | rfl | rfl | rfl | rfl | rfl | rfl | rfl | rfl | rfl | rfl | rfl | rfl | rfl
  all_goals first
    | exact absurd rfl hView
    | (simp only [PeerConfig.toggled, String.reduceEq, if_true, if_false, Option.some.injEq,
         Prod.mk.injEq] at hToggled ⊢
       obtain ⟨rfl, rfl⟩ := hToggled
       simp only [OptionFields.updated, PeerConfig.loginFields, applied_yesOrNo, applied_notSet])
  · cases stored.viewOnly <;> cases stored.showRemoteCursor <;> simp
  · simp
  · simp
  · simp
  · cases stored.viewOnly <;> cases stored.disableClipboard <;> simp
  · cases stored.viewOnly <;> cases stored.lockAfterSessionEnd <;> simp
  · simp
  · simp
  · by_cases hFile : FileOption fixed <;> cases stored.viewOnly <;>
      cases stored.enableFileCopyPaste <;> simp [hFile]
  · simp
  · simp
  · simp
  · simp
  · cases stored.viewOnly <;> cases stored.showMyCursor <;> simp

/-- Only the names that block input leave the configuration unsaved, and they do not change it. -/
theorem toggled_blockInput {stored config : PeerConfig} {o : OptionMessage} {name : String}
    (hToggled : stored.toggled stored name = some (config, o))
    (hBlock : "block-input".toList <:+: name.toList) : config = stored := by
  have hKnown := PeerConfig.toggled_known (by rw [hToggled]; exact Option.some_ne_none _)
  rcases hKnown with rfl | rfl | rfl | rfl | rfl | rfl | rfl | rfl | rfl | rfl | rfl | rfl | rfl | rfl | rfl
  case inr.inr.inr.inr.inr.inr.inr.inr.inr.inl | inr.inr.inr.inr.inr.inr.inr.inr.inr.inr.inl =>
    simp only [PeerConfig.toggled, String.reduceEq, if_true, if_false, Option.some.injEq,
      Prod.mk.injEq] at hToggled
    exact hToggled.1.symm
  all_goals
    simp only [String.reduceToList] at hBlock
    exact absurd hBlock (by decide)

/-- The other names are kept as options that no field of a connection depends on. -/
theorem loginFields_toggleOther (config : PeerConfig) (name : String) :
    (config.toggleOther name).loginFields fixed = config.loginFields fixed := by
  unfold PeerConfig.toggleOther
  dsimp only
  split_ifs <;> rfl

/-- What is in memory is what is stored, and the connection has what a login would bring. -/
structure InStep (fixed : Fixed) (session : Session) : Prop where
  saved : session.handler.config = session.handler.stored
  fields : session.server.conn.optionFields = session.handler.stored.loginFields fixed

theorem step_inStep_iff (session : Session) (input : String × Env) (hInv : InStep fixed session) :
    InStep fixed (step fixed session input) ↔ Sound fixed session input := by
  obtain ⟨⟨connType, config, stored⟩, server⟩ := session
  obtain ⟨hSaved, hFields⟩ := hInv
  dsimp only at hSaved hFields
  subst hSaved
  unfold step LoginConfigHandler.toggleOption
  dsimp only
  cases hToggled : config.toggled config input.1 with
  | some toggled =>
      obtain ⟨next, o⟩ := toggled
      have hSound := @updated_eq_loginFields_iff fixed ⟨⟨connType, config, config⟩, server⟩ input _ _ hToggled
      rw [← hSound]
      dsimp only
      by_cases hBlock : "block-input".toList <:+: input.1.toList
      · rw [if_pos hBlock]
        obtain rfl := toggled_blockInput hToggled hBlock
        refine ⟨fun h => ?_, fun h => ⟨rfl, ?_⟩⟩
        · have hNext : (server.updateOptions fixed input.2 o).conn.optionFields = next.loginFields fixed :=
            h.fields
          rwa [State.optionFields_updateOptions, hFields] at hNext
        · rw [State.optionFields_updateOptions, hFields, h]
      · rw [if_neg hBlock]
        refine ⟨fun h => ?_, fun h => ⟨rfl, ?_⟩⟩
        · have hNext : (server.updateOptions fixed input.2 o).conn.optionFields = next.loginFields fixed :=
            h.fields
          rwa [State.optionFields_updateOptions, hFields] at hNext
        · rw [State.optionFields_updateOptions, hFields, h]
  | none =>
      refine iff_of_true ⟨rfl, ?_⟩ ?_
      · rw [loginFields_toggleOther, hFields]
      · unfold Sound
        dsimp only
        split_ifs with hCursor hClipboard hLock hFile hView hMine
        · rw [hCursor] at hToggled
          simp [PeerConfig.toggled] at hToggled
        · rw [hClipboard] at hToggled
          simp [PeerConfig.toggled] at hToggled
        · rw [hLock] at hToggled
          simp [PeerConfig.toggled] at hToggled
        · rw [hFile] at hToggled
          simp [PeerConfig.toggled] at hToggled
        · rw [hView] at hToggled
          simp [PeerConfig.toggled] at hToggled
        · rw [hMine] at hToggled
          simp [PeerConfig.toggled] at hToggled

theorem sameAsLogin_iff (opening : Opening) (env : Env) (media : Media) (session : Session) :
    SameAsLogin fixed session ↔
      session.server.conn.optionFields = session.handler.stored.loginFields fixed := by
  refine ⟨fun hSame => ?_, fun hFields newOpening newEnv newMedia => ?_⟩
  · rw [hSame opening env media, optionFields_login]
  · rw [hFields, optionFields_login]

theorem step_saved (session : Session) (input : String × Env)
    (hSaved : session.handler.config = session.handler.stored) :
    (step fixed session input).handler.config = (step fixed session input).handler.stored := by
  unfold step LoginConfigHandler.toggleOption
  cases session.handler.stored.toggled session.handler.config input.1 with
  | none => rfl
  | some toggled =>
      dsimp only
      by_cases hBlock : "block-input".toList <:+: input.1.toList
      · rw [if_pos hBlock]
        exact hSaved
      · rw [if_neg hBlock]

end Spec

/-- A session of a default connection after its login, with what was saved of the peer. -/
def start (fixed : Fixed) (opening : Opening) (env : Env) (media : Media) (config : PeerConfig) :
    Session :=
  ⟨⟨.defaultConn, config, config⟩, login fixed opening env media config⟩

theorem inStep_start (fixed : Fixed) (opening : Opening) (env : Env) (media : Media)
    (config : PeerConfig) : InStep fixed (start fixed opening env media config) :=
  ⟨rfl, optionFields_login opening env media config⟩

/-- The connection has what a new login would bring after each of the toggles exactly if
they are all sound. -/
theorem sameAsLogin_run_iff (fixed : Fixed) (opening : Opening) (env : Env) (media : Media)
    (config : PeerConfig) (inputs : List (String × Env)) :
    (∀ past, past <+: inputs →
        SameAsLogin fixed (Trace.run (step fixed) (start fixed opening env media config) past)) ↔
      Trace.Always (step fixed) (Sound fixed) (start fixed opening env media config) inputs := by
  have hStart := inStep_start fixed opening env media config
  rw [← Trace.invariant_iff_always (step fixed) (InStep fixed) step_inStep_iff hStart]
  refine forall_congr' fun past => imp_congr_right fun _ => ?_
  have hSaved := Trace.invariant_of_step (step fixed) (fun session => session.handler.config =
    session.handler.stored) hStart.saved step_saved past
  rw [sameAsLogin_iff opening env media]
  exact ⟨fun hFields => ⟨hSaved, hFields⟩, InStep.fields⟩

/-- My cursor is to be shown under view-only, which is off. -/
def cursorShown : PeerConfig where
  showRemoteCursor := false
  lockAfterSessionEnd := false
  terminalPersistent := false
  privacyMode := false
  allowSwapKey := false
  disableAudio := false
  disableClipboard := false
  enableFileCopyPaste := true
  showQualityMonitor := false
  followRemoteCursor := false
  followRemoteWindow := false
  viewOnly := false
  showMyCursor := true
  options := []

/-- A login under view-only would ask for the cursor, and the toggle of view-only does not. -/
theorem viewOnly_hides_cursor :
    ¬ SameAsLogin default
      (Trace.run (step default)
        (start default ⟨default, none, 0, 1, "10.0.0.1", "salt", "challenge", none, none⟩ default
          ⟨none, 0, 0, 0⟩ cursorShown)
        [("view-only", default)]) := by
  rw [Trace.run_cons, Trace.run_nil]
  generalize (⟨default, none, 0, 1, "10.0.0.1", "salt", "challenge", none, none⟩ : Opening) = opening
  intro hSame
  have hStart := inStep_start default opening default ⟨none, 0, 0, 0⟩ cursorShown
  have hNext : InStep default (step default (start default opening default ⟨none, 0, 0, 0⟩ cursorShown)
      ("view-only", default)) :=
    ⟨step_saved _ _ rfl, (sameAsLogin_iff opening default ⟨none, 0, 0, 0⟩ _).mp hSame⟩
  have hSound := (step_inStep_iff _ _ hStart).mp hNext
  simp [Sound, start, cursorShown] at hSound

end Toggles

end HibtDesk
