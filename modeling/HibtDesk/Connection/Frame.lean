import HibtDesk.Connection.Start

/-! What the handlers leave alone. `KeepsLogin` is the frame of everything that
is not about logging in or closing; `Inert` is the narrower frame of handlers
that touch neither permissions nor subscriptions nor the input channel. Most of
these are `Calm`: nothing of the call or of the registries changes either. -/
namespace HibtDesk

/-- The fields of a connection that only login messages and closing decide. -/
structure LoginView where
  id : Int
  ip : String
  salt : String
  challenge : String
  authorized : Bool
  require2fa : Option Totp
  fromSwitch : Bool
  fileTransfer : Option (String × Bool)
  viewCamera : Bool
  terminal : Bool
  portForwardSocket : Option String
  portForwardAddress : String
  lr : LoginRequest
  optionsInLogin : Option OptionMessage
  authedConnId : Option AuthConnType
  closed : Bool
  deriving DecidableEq, Repr

/-- The fields the subscriptions and the input channel depend on. -/
structure PermissionView where
  keyboard : Bool
  clipboard : Bool
  audio : Bool
  file : Bool
  disableKeyboard : Bool
  disableClipboard : Bool
  disableAudio : Bool
  enableFileTransfer : Bool
  showRemoteCursor : Bool
  showMyCursor : Bool
  voiceCalling : Bool
  deriving DecidableEq, Repr

/-- The part of the state the subscriptions depend on. -/
structure ServiceView where
  id : Int
  authorized : Bool
  authedConnId : Option AuthConnType
  permissions : PermissionView
  builtin : String → String
  server : Option Server

namespace Connection

def loginView (conn : Connection) : LoginView :=
  { id := conn.id
    ip := conn.ip
    salt := conn.salt
    challenge := conn.challenge
    authorized := conn.authorized
    require2fa := conn.require2fa
    fromSwitch := conn.fromSwitch
    fileTransfer := conn.fileTransfer
    viewCamera := conn.viewCamera
    terminal := conn.terminal
    portForwardSocket := conn.portForwardSocket
    portForwardAddress := conn.portForwardAddress
    lr := conn.lr
    optionsInLogin := conn.optionsInLogin
    authedConnId := conn.authedConnId
    closed := conn.closed }

def permissionView (conn : Connection) : PermissionView :=
  { keyboard := conn.keyboard
    clipboard := conn.clipboard
    audio := conn.audio
    file := conn.file
    disableKeyboard := conn.disableKeyboard
    disableClipboard := conn.disableClipboard
    disableAudio := conn.disableAudio
    enableFileTransfer := conn.enableFileTransfer
    showRemoteCursor := conn.showRemoteCursor
    showMyCursor := conn.showMyCursor
    voiceCalling := conn.voiceCalling }

end Connection

/-- The `Misc` messages that neither switch an option nor subscribe. -/
def Misc.isIdle : Misc → Bool
  | switchDisplay .. | captureDisplays .. | option _ | selectedSid _ => false
  | _ => true

/-- The messages of the peer whose handlers are inert. -/
def Message.isIdle : Message → Bool
  | .misc m => m.isIdle
  | loginRequest _ | auth2fa .. | switchSidesResponse .. | mouseEvent _ | pointerDeviceEvent _
  | keyEvent _ | voiceCallRequest .. | screenshotRequest .. => false
  | _ => true

/-- The messages of the peer that log in. -/
def Message.isLogin : Message → Bool
  | loginRequest _ | auth2fa .. | switchSidesResponse .. => true
  | _ => false

/-- The messages of the connection manager whose handlers are inert. -/
def CmMessage.isIdle : CmMessage → Bool
  | authorize | switchPermission .. | voiceCallResponse _ | closeVoiceCall => false
  | _ => true

/-- The events whose handlers are inert. -/
def Input.isIdle : Input → Bool
  | cm message => message.isIdle
  | peer message => message.isIdle
  | _ => true

/-- The events that log in. -/
def Input.isLogin : Input → Bool
  | cm .authorize => true
  | peer message => message.isLogin
  | _ => false

namespace Effect

/-- A login shown to the user, or the start of a relay. -/
def isLogin : Effect → Bool
  | toCm (.login _) | startRelay _ => true
  | _ => false

/-- An event on the input channel, or a screenshot. -/
def isControl : Effect → Bool
  | .input i => i.isEvent
  | takeScreenshot .. => true
  | _ => false

/-- The audio an effect hands to the player. -/
def audio : Effect → Option Bytes
  | playAudio data => some data
  | _ => none

/-- The encoder is told what the peer can decode. -/
def isDecoding : Effect → Bool
  | updateEncoder _ => true
  | _ => false

/-- Neither a decoding of the peer nor audio of it. -/
def isPlain (effect : Effect) : Bool := !effect.isDecoding && effect.audio.isNone

/-- Nor is it for the input channel. -/
def isStill (effect : Effect) : Bool := !effect.isControl && effect.isPlain

/-- Nor does it log in. -/
def isCalm (effect : Effect) : Bool := !effect.isLogin && effect.isStill

end Effect

namespace State

/-- From `s` to `t` effects were added, all of them allowed. -/
def Emits (allowed : Effect → Prop) (s t : State) : Prop :=
  ∃ more, t.effects = s.effects ++ more ∧ ∀ effect ∈ more, allowed effect

/-- Nothing a login decides changes from `s` to `t`. -/
structure KeepsLogin (s t : State) : Prop where
  view : t.conn.loginView = s.conn.loginView
  emits : Emits (fun effect => effect.isLogin = false) s t

/-- Neither a login nor a permission is decided from `s` to `t`, nothing is
subscribed and nothing is put on the input channel. -/
structure Inert (s t : State) : Prop where
  login : t.conn.loginView = s.conn.loginView
  permissions : t.conn.permissionView = s.conn.permissionView
  builtin : t.world.config.builtin = s.world.config.builtin
  subed : ∀ name, t.subed name = true → s.subed name = true
  emits : Emits (fun effect => effect.isLogin = false ∧ effect.isControl = false) s t

def serviceView (s : State) : ServiceView :=
  { id := s.conn.id
    authorized := s.conn.authorized
    authedConnId := s.conn.authedConnId
    permissions := s.conn.permissionView
    builtin := s.world.config.builtin
    server := s.server }

/-- What the subscriptions, the voice call and the entries in the registries depend on. -/
def stillView (s : State) :
    ServiceView × (Bool × Option Int × Bool) × Option Nat × List AuthedConn × Bool :=
  (s.serviceView, (s.conn.audioSender, s.conn.voiceCallRequestTimestamp, s.conn.voiceCalling),
    s.conn.controlPermissions, s.world.authedConns, s.conn.servicesSubed)

/-- From `s` to `t` nothing happens to the subscriptions, the call and the entries, and nothing
is sent that is about them. -/
structure Still (s t : State) : Prop where
  view : t.stillView = s.stillView
  emits : Emits (fun effect => effect.isStill = true) s t

/-- From `s` to `t` nothing of a login, of the permissions, the subscriptions, the call and the
entries changes, and nothing is sent that is about them. -/
structure Calm (s t : State) : Prop where
  login : t.conn.loginView = s.conn.loginView
  still : t.stillView = s.stillView
  emits : Emits (fun effect => effect.isCalm = true) s t

section Emits
variable {allowed : Effect → Prop} {s t u : State}

theorem Emits.refl (s : State) : Emits allowed s s := ⟨[], by simp, by simp⟩

theorem Emits.trans (h : Emits allowed s t) (h' : Emits allowed t u) : Emits allowed s u := by
  obtain ⟨first, hFirst, hAllowed⟩ := h
  obtain ⟨second, hSecond, hAllowed'⟩ := h'
  refine ⟨first ++ second, by rw [hSecond, hFirst, List.append_assoc], fun effect hMem => ?_⟩
  rcases List.mem_append.mp hMem with hIn | hIn
  · exact hAllowed effect hIn
  · exact hAllowed' effect hIn

theorem Emits.emit {effect : Effect} (h : Emits allowed s t) (hAllowed : allowed effect) :
    Emits allowed s (t.emit effect) :=
  h.trans ⟨[effect], rfl, by simpa using hAllowed⟩

theorem Emits.mono {weaker : Effect → Prop} (h : Emits allowed s t)
    (hWeaker : ∀ effect, allowed effect → weaker effect) : Emits weaker s t := by
  obtain ⟨more, hMore, hAllowed⟩ := h
  exact ⟨more, hMore, fun effect hMem => hWeaker effect (hAllowed effect hMem)⟩

/-- An effect that is not allowed was there before. -/
theorem Emits.mem {effect : Effect} (h : Emits allowed s t) (hNot : ¬ allowed effect)
    (hMem : effect ∈ t.effects) : effect ∈ s.effects := by
  obtain ⟨more, hMore, hAllowed⟩ := h
  rw [hMore] at hMem
  rcases List.mem_append.mp hMem with hOld | hNew
  · exact hOld
  · exact absurd (hAllowed effect hNew) hNot

end Emits

section Frames
variable {s t u : State} {effect : Effect}

theorem KeepsLogin.refl (s : State) : KeepsLogin s s := ⟨rfl, .refl s⟩

theorem KeepsLogin.trans (h : KeepsLogin s t) (h' : KeepsLogin t u) : KeepsLogin s u :=
  ⟨h'.view.trans h.view, h.emits.trans h'.emits⟩

theorem KeepsLogin.emit (h : KeepsLogin s t) (hEffect : effect.isLogin = false) :
    KeepsLogin s (t.emit effect) :=
  ⟨h.view, h.emits.emit hEffect⟩

/-- Fields of the connection outside the view, the tables and the server. -/
theorem KeepsLogin.set (h : KeepsLogin s t) (hView : u.conn.loginView = t.conn.loginView)
    (hEffects : u.effects = t.effects) : KeepsLogin s u := by
  refine ⟨hView.trans h.view, ?_⟩
  unfold Emits
  rw [hEffects]
  exact h.emits

theorem KeepsLogin.ite {c : Prop} [Decidable c] (h : KeepsLogin s t) (h' : KeepsLogin s u) :
    KeepsLogin s (if c then t else u) := by
  split_ifs
  · exact h
  · exact h'

theorem Inert.keepsLogin (h : Inert s t) : KeepsLogin s t :=
  ⟨h.login, h.emits.mono fun _ hEffect => hEffect.1⟩

theorem Inert.refl (s : State) : Inert s s := ⟨rfl, rfl, rfl, fun _ h => h, .refl s⟩

theorem Inert.trans (h : Inert s t) (h' : Inert t u) : Inert s u :=
  ⟨h'.login.trans h.login, h'.permissions.trans h.permissions, h'.builtin.trans h.builtin,
    fun name hu => h.subed name (h'.subed name hu), h.emits.trans h'.emits⟩

theorem Inert.emit (h : Inert s t)
    (hEffect : effect.isLogin = false ∧ effect.isControl = false) : Inert s (t.emit effect) :=
  ⟨h.login, h.permissions, h.builtin, h.subed, h.emits.emit hEffect⟩

theorem subed_congr (h : t.conn.loginView = s.conn.loginView) (hServer : t.server = s.server)
    (name : ServiceName) : t.subed name = s.subed name := by
  have hId : t.conn.id = s.conn.id := congrArg LoginView.id h
  unfold subed
  rw [hServer, hId]

/-- Fields of the connection outside both views, and the tables. -/
theorem Inert.set (h : Inert s t) (hLogin : u.conn.loginView = t.conn.loginView)
    (hPermissions : u.conn.permissionView = t.conn.permissionView)
    (hBuiltin : u.world.config.builtin = t.world.config.builtin) (hServer : u.server = t.server)
    (hEffects : u.effects = t.effects) : Inert s u := by
  refine h.trans ⟨hLogin, hPermissions, hBuiltin, fun name hu => ?_, ?_⟩
  · rw [← subed_congr hLogin hServer name]
    exact hu
  · exact ⟨[], by simp [hEffects], by simp⟩

theorem Inert.ite {c : Prop} [Decidable c] (h : Inert s t) (h' : Inert s u) :
    Inert s (if c then t else u) := by
  split_ifs
  · exact h
  · exact h'

theorem Calm.refl (s : State) : Calm s s := ⟨rfl, rfl, .refl s⟩

theorem Calm.trans (h : Calm s t) (h' : Calm t u) : Calm s u :=
  ⟨h'.login.trans h.login, h'.still.trans h.still, h.emits.trans h'.emits⟩

theorem Calm.emit (h : Calm s t) (hEffect : effect.isCalm = true) : Calm s (t.emit effect) :=
  ⟨h.login, h.still, h.emits.emit hEffect⟩

/-- Fields of the connection outside the views, and the tables. -/
theorem Calm.set (h : Calm s t) (hLogin : u.conn.loginView = t.conn.loginView)
    (hStill : u.stillView = t.stillView) (hEffects : u.effects = t.effects) : Calm s u :=
  h.trans ⟨hLogin, hStill, ⟨[], by simp [hEffects], by simp⟩⟩

theorem Calm.ite {c : Prop} [Decidable c] (h : Calm s t) (h' : Calm s u) :
    Calm s (if c then t else u) := by
  split_ifs
  · exact h
  · exact h'

theorem Calm.inert (h : Calm s t) : Inert s t := by
  have hService : t.serviceView = s.serviceView := congrArg Prod.fst h.still
  refine ⟨h.login, congrArg ServiceView.permissions hService, congrArg ServiceView.builtin hService,
    fun name hu => ?_, h.emits.mono fun effect hCalm => ?_⟩
  · rwa [← subed_congr h.login (congrArg ServiceView.server hService) name]
  · simp only [Effect.isCalm, Effect.isStill, Bool.and_eq_true, Bool.not_eq_true'] at hCalm
    exact ⟨hCalm.1, hCalm.2.1⟩

theorem Calm.keepsLogin (h : Calm s t) : KeepsLogin s t := h.inert.keepsLogin

theorem Calm.toStill (h : Calm s t) : Still s t := by
  refine ⟨h.still, h.emits.mono fun effect hCalm => ?_⟩
  simp only [Effect.isCalm, Bool.and_eq_true] at hCalm
  exact hCalm.2

end Frames

section Primitives
variable (s : State) (effect : Effect) (message : PeerMessage) (data : CmData) (request : Fs)
  (name : ServiceName) (sub : Bool)

@[simp] theorem emit_conn : (s.emit effect).conn = s.conn := rfl
@[simp] theorem emit_world : (s.emit effect).world = s.world := rfl
@[simp] theorem emit_server : (s.emit effect).server = s.server := rfl
@[simp] theorem emit_effects : (s.emit effect).effects = s.effects ++ [effect] := rfl
@[simp] theorem subscribe_conn : (s.subscribe name sub).conn = s.conn := rfl
@[simp] theorem subscribe_world : (s.subscribe name sub).world = s.world := rfl
@[simp] theorem subscribe_effects : (s.subscribe name sub).effects = s.effects := rfl

theorem KeepsLogin.subscribe {t : State} (h : KeepsLogin s t) : KeepsLogin s (t.subscribe name sub) :=
  ⟨h.view, h.emits⟩

end Primitives

section Options
variable (fixed : Fixed) (env : Env) (s : State)

/-- An option is applied, or the state stays as it is. -/
theorem whenSet_cases {motive : State → Prop} (q : Option BoolOption)
    (apply : State → Bool → State) (hSame : motive s)
    (hYes : q = some .yes → motive (apply s true)) (hNo : q = some .no → motive (apply s false)) :
    motive (whenSet q s apply) := by
  unfold whenSet
  split
  · exact hYes rfl
  · exact hNo rfl
  · exact hSame

/-- The option is present and says yes or no. -/
def isSet (q : Option BoolOption) : Bool := q == some .yes || q == some .no

/-- A property of the state that the setter of every option that is set keeps
is kept by `update_options`. -/
theorem updateOptions_induct {motive : State → Prop} (o : OptionMessage)
    (hStart : motive s)
    (hEmit : ∀ s effect, effect.isLogin = false ∧ effect.isControl = false ∧ effect.audio = none ∧
        (effect.isDecoding = true → o.supportedDecoding.isSome = true) →
      motive s → motive (s.emit effect))
    (hLock : ∀ s v, isSet o.lockAfterSessionEnd = true → motive s →
      motive (setLockAfterSessionEnd s v))
    (hCursor : ∀ s v, isSet o.showRemoteCursor = true → motive s →
      motive (setShowRemoteCursor s v))
    (hFollowCursor : ∀ s v, isSet o.followRemoteCursor = true → motive s →
      motive (setFollowRemoteCursor s v))
    (hFollowWindow : ∀ s v, isSet o.followRemoteWindow = true → motive s →
      motive (setFollowRemoteWindow s v))
    (hAudio : ∀ s v, isSet o.disableAudio = true → motive s → motive (setDisableAudio s v))
    (hFile : ∀ s v, isSet o.enableFileTransfer = true → motive s →
      motive (setEnableFileTransfer fixed s v))
    (hClipboard : ∀ s v, isSet o.disableClipboard = true → motive s →
      motive (setDisableClipboard s v))
    (hKeyboard : ∀ s v, isSet o.disableKeyboard = true → motive s →
      motive (setDisableKeyboard fixed s v))
    (hPersistent : ∀ s v, isSet o.terminalPersistent = true → motive s →
      motive (setTerminalPersistence s v))
    (hMyCursor : ∀ s v, isSet o.showMyCursor = true → motive s →
      motive (setShowMyCursor env s v)) :
    motive (s.updateOptions fixed env o) := by
  have apply : ∀ (q : Option BoolOption) (set : State → Bool → State) (s : State),
      (∀ s v, isSet q = true → motive s → motive (set s v)) → motive s →
        motive (whenSet q s set) := by
    intro q set s hSet hs
    refine whenSet_cases s q set hs ?_ ?_
    · rintro rfl
      exact hSet s true rfl hs
    · rintro rfl
      exact hSet s false rfl hs
  unfold updateOptions
  refine apply _ _ _ hMyCursor (apply _ _ _ hPersistent ?_)
  have hBlock : ∀ s, motive s → motive (updateBlockInput s o) := by
    intro s hs
    unfold updateBlockInput
    split
    · split_ifs
      · split <;> first | exact hEmit _ _ ⟨rfl, rfl, rfl, nofun⟩ hs | exact hs
      · exact hEmit _ _ ⟨rfl, rfl, rfl, nofun⟩ hs
      · exact hs
    · exact hs
  have hPrivacy : ∀ s, motive s → motive (updatePrivacyMode s o) := by
    intro s hs
    unfold updatePrivacyMode
    split_ifs
    · split <;> first | exact hEmit _ _ ⟨rfl, rfl, rfl, nofun⟩ hs | exact hs
    · split <;> exact hs
    · exact hs
  refine hBlock _ (hPrivacy _ (apply _ _ _ hKeyboard (apply _ _ _ hClipboard ?_)))
  refine apply _ _ _ hFile (apply _ _ _ hAudio (apply _ _ _ hFollowWindow ?_))
  refine apply _ _ _ hFollowCursor (apply _ _ _ hCursor (apply _ _ _ hLock ?_))
  have hDecoding : ∀ s, motive s → motive (updateSupportedDecoding s o) := by
    intro s hs
    unfold updateSupportedDecoding
    split
    · rename_i q hSome
      exact hEmit _ _ ⟨rfl, rfl, rfl, fun _ => by rw [hSome]; rfl⟩ hs
    · exact hs
  have hFps : ∀ s, motive s → motive (updateCustomFps s o) := by
    intro s hs
    unfold updateCustomFps
    split_ifs <;> first | exact hEmit _ _ ⟨rfl, rfl, rfl, nofun⟩ hs | exact hs
  have hQuality : ∀ s, motive s → motive (updateImageQuality s o) := by
    intro s hs
    unfold updateImageQuality
    split
    · dsimp only
      split_ifs <;> first | exact hEmit _ _ ⟨rfl, rfl, rfl, nofun⟩ hs | exact hs
    · exact hs
  exact hDecoding _ (hFps _ (hQuality _ hStart))

@[simp] theorem refreshAudio_conn : (refreshAudio s).conn = s.conn := by
  unfold refreshAudio
  split_ifs <;> rfl

@[simp] theorem refreshFileClipboard_conn : (s.refreshFileClipboard fixed).conn = s.conn := by
  unfold refreshFileClipboard
  split_ifs <;> rfl

@[simp] theorem refreshClipboard_conn : s.refreshClipboard.conn = s.conn := rfl

theorem keepsLogin_refreshAudio : KeepsLogin s (refreshAudio s) := by
  unfold refreshAudio
  split_ifs <;> exact ⟨rfl, .refl s⟩

theorem keepsLogin_refreshFileClipboard : KeepsLogin s (s.refreshFileClipboard fixed) := by
  unfold refreshFileClipboard
  split_ifs <;> exact ⟨rfl, .refl s⟩

theorem keepsLogin_setEnableFileTransfer (v : Bool) :
    KeepsLogin s (setEnableFileTransfer fixed s v) := by
  unfold setEnableFileTransfer
  refine .ite (.trans ?_ (keepsLogin_refreshFileClipboard fixed _)) (.refl s)
  refine .trans ?_ (.ite ((KeepsLogin.refl _).emit rfl) (.refl _))
  refine .trans ?_ (.ite ((KeepsLogin.refl _).emit rfl) (.refl _))
  exact (KeepsLogin.refl s).set rfl rfl

theorem keepsLogin_setShowMyCursor (v : Bool) : KeepsLogin s (setShowMyCursor env s v) := by
  unfold setShowMyCursor
  split_ifs
  · exact ⟨rfl, (Emits.refl s).emit rfl⟩
  · exact ⟨rfl, (Emits.refl s).emit rfl⟩
  · exact ⟨rfl, .refl s⟩

theorem keepsLogin_updateOptions (o : OptionMessage) :
    KeepsLogin s (s.updateOptions fixed env o) := by
  refine updateOptions_induct fixed env s (motive := KeepsLogin s) o (.refl s)
    ?_ ?_ ?_ ?_ ?_ ?_ ?_ ?_ ?_ ?_ ?_
  · intro t effect hEffect h; exact h.emit hEffect.1
  · intro t v _ h; exact h.set rfl rfl
  · intro t v _ h; exact ⟨h.view, h.emits⟩
  · intro t v _ h; exact h.set rfl rfl
  · intro t v _ h; exact ⟨h.view, h.emits⟩
  · intro t v _ h
    unfold setDisableAudio
    refine .trans ?_ (keepsLogin_refreshAudio _)
    exact h.set rfl rfl
  · intro t v _ h; exact h.trans (keepsLogin_setEnableFileTransfer fixed t v)
  · intro t v _ h; exact ⟨h.view, h.emits⟩
  · intro t v _ h
    unfold setDisableKeyboard
    refine .subscribe _ _ _ (.trans ?_ (keepsLogin_refreshFileClipboard fixed _))
    exact h.set rfl rfl
  · intro t v _ h; exact ⟨h.view, h.emits.emit rfl⟩
  · intro t v _ h; exact h.trans (keepsLogin_setShowMyCursor env t v)

end Options

section AuthorizedMessages
variable (fixed : Fixed) (env : Env) (s : State)

theorem calm_updateAutoDisconnectTimer : Calm s (s.updateAutoDisconnectTimer env) :=
  (Calm.refl s).set rfl rfl rfl

theorem keepsLogin_onMouseEvent (event : MouseEvent) :
    KeepsLogin s (s.onMouseEvent env event) := by
  unfold onMouseEvent
  refine .ite (.refl s) (.trans ?_ (calm_updateAutoDisconnectTimer env _).keepsLogin)
  exact .ite ((KeepsLogin.refl s).emit rfl) (.ite ((KeepsLogin.refl s).emit rfl) (.refl s))

theorem keepsLogin_onPointerDeviceEvent (event : PointerDeviceEvent) :
    KeepsLogin s (s.onPointerDeviceEvent env event) := by
  unfold onPointerDeviceEvent
  refine .ite (.refl s) (.trans ?_ (calm_updateAutoDisconnectTimer env _).keepsLogin)
  exact .ite ((KeepsLogin.refl s).emit rfl) (.refl s)

theorem keepsLogin_onKeyEvent (event : KeyEvent) :
    KeepsLogin s (s.onKeyEvent fixed env event) := by
  unfold onKeyEvent
  refine .ite (.refl s) (.ite ?_ (calm_updateAutoDisconnectTimer env s).keepsLogin)
  exact ⟨rfl, (Emits.refl s).emit rfl⟩

theorem calm_onClipboard (contents : List Bytes) : Calm s (s.onClipboard contents) :=
  .ite ((Calm.refl s).emit rfl) (.refl s)

theorem calm_onCliprdr (clip : Cliprdr) : Calm s (s.onCliprdr fixed clip) := by
  unfold onCliprdr
  split
  · exact .ite ((Calm.refl s).emit rfl) (.ite ((Calm.refl s).emit rfl) (.refl s))
  · exact .refl s
  · exact .refl s

theorem calm_createAndStartReadJob (id : Int) (path : String) (fileNum : Int) (jobType : JobType)
    (od : Bool) : Calm s (s.createAndStartReadJob env id path fileNum jobType od) := by
  unfold createAndStartReadJob
  dsimp only
  split
  · exact (Calm.refl s).emit rfl
  · exact (Calm.refl s).emit rfl
  · refine .emit (.set (.emit (.refl s) rfl) rfl rfl rfl) rfl

theorem calm_onSendFiles (id : Int) (path : String) (fileNum : Int) (includeHidden : Bool)
    (fileType : JobType) : Calm s (s.onSendFiles env id path fileNum includeHidden fileType) := by
  unfold onSendFiles
  split
  · refine .set (.ite ?_ (calm_createAndStartReadJob env s ..)) rfl rfl rfl
    exact .emit ((Calm.refl s).set rfl rfl rfl) rfl
  · refine .ite ?_ (.refl s)
    refine .set (.trans ?_ (calm_createAndStartReadJob env _ ..)) rfl rfl rfl
    exact (Calm.refl s).set rfl rfl rfl

theorem calm_onReceiveFiles (id : Int) (path : String) (fileNum : Int)
    (files : List (String × Nat)) (totalSize : Nat) :
    Calm s (s.onReceiveFiles id path fileNum files totalSize) :=
  .set (.emit (.refl s) rfl) rfl rfl rfl

theorem calm_onCancelFiles (id : Int) : Calm s (s.onCancelFiles id) := by
  unfold onCancelFiles
  refine .trans ?_ (.ite ?_ (.refl _))
  · exact .emit (.set (.emit (.refl s) rfl) rfl rfl rfl) rfl
  · exact .emit (.emit (.set (.refl _) rfl rfl rfl) rfl) rfl

theorem calm_onSendConfirm (id fileNum : Int) (skip : Bool) (offsetBlk : Nat) :
    Calm s (s.onSendConfirm id fileNum skip offsetBlk) :=
  .ite (.emit (.refl s) rfl)
    (.ite (.emit (.refl s) rfl) (.emit (.refl s) rfl))

theorem calm_handleFileAction (action : FileAction) : Calm s (s.handleFileAction env action) := by
  cases action with
  | readEmptyDirs | readDir | removeDir | removeFile => exact .emit (.refl s) rfl
  | create | rename => exact .emit (.emit (.refl s) rfl) rfl
  | allFiles id path includeHidden =>
      refine .ite (.emit (.refl s) rfl) ?_
      split
      · exact .emit (.refl s) rfl
      · split <;> exact .emit (.refl s) rfl
  | send => exact calm_onSendFiles env s ..
  | receive => exact calm_onReceiveFiles s ..
  | cancel => exact calm_onCancelFiles s _
  | sendConfirm => exact calm_onSendConfirm s ..
  | unknown => exact .refl s

theorem calm_onFileAction (action : FileAction) : Calm s (s.onFileAction env action) := by
  unfold onFileAction
  refine .ite (.refl s) (.ite ?_ (.ite (.emit (.refl s) rfl) ?_))
  · split
    · exact .set (.refl s) rfl rfl rfl
    · exact .refl s
  · exact calm_handleFileAction env s action

theorem calm_onFileResponse (response : FileResponse) : Calm s (s.onFileResponse response) := by
  cases response with
  | unknown => exact .refl s
  | _ => exact .emit (.refl s) rfl

theorem calm_changeResolution (display : Option Int) (width height : Int) :
    Calm s (s.changeResolution display width height) :=
  .ite (.emit (.refl s) rfl) (.refl s)

theorem keepsLogin_handleSwitchDisplay (display width height : Int) :
    KeepsLogin s (s.handleSwitchDisplay fixed display width height) := by
  unfold handleSwitchDisplay
  refine .ite (.emit ?_ rfl) (.refl s)
  split
  · refine .trans ?_ (.ite (calm_changeResolution _ none width height).keepsLogin (.refl _))
    exact .set (.refl s) rfl rfl
  · exact .refl s

theorem keepsLogin_captureDisplays (add sub set : List Nat) :
    KeepsLogin s (s.captureDisplays add sub set) := by
  unfold captureDisplays
  split
  · refine .ite ?_ ?_
    · exact .set (.refl s) rfl rfl
    · exact .set (.refl s) rfl rfl
  · exact .refl s

theorem keepsLogin_closeVoiceCall : KeepsLogin s s.closeVoiceCall := by
  unfold closeVoiceCall
  refine .trans ?_ (.ite (.subscribe _ _ _ (.refl _)) (.refl _))
  exact .set (.emit (.emit (.refl s) rfl) rfl) rfl rfl

theorem keepsLogin_handleVoiceCall (accepted : Bool) :
    KeepsLogin s (s.handleVoiceCall accepted) := by
  unfold handleVoiceCall
  split
  · refine .trans ?_ (.ite (.subscribe _ _ _ (.refl _)) (.refl _))
    refine .set (.emit (.ite ?_ ?_) rfl) rfl rfl
    · exact .emit (.emit (.set (.refl s) rfl rfl) rfl) rfl
    · exact .emit (.set (.refl s) rfl rfl) rfl
  · exact .refl s

theorem keepsLogin_onVoiceCallRequest (isConnect : Bool) (reqTimestamp : Int) :
    KeepsLogin s (s.onVoiceCallRequest env isConnect reqTimestamp) :=
  .ite (.emit (.set (.refl s) rfl rfl) rfl) (keepsLogin_closeVoiceCall s)

theorem inert_onAudioFormat (sampleRate channels : Nat) :
    Inert s (s.onAudioFormat sampleRate channels) :=
  .ite (.refl s) (.emit (.set (.refl s) rfl rfl rfl rfl rfl) ⟨rfl, rfl⟩)

theorem inert_onAudioFrame (data : Bytes) : Inert s (s.onAudioFrame data) :=
  .ite (.emit (.refl s) ⟨rfl, rfl⟩) (.refl s)

theorem calm_handleElevationRequest : Calm s (s.handleElevationRequest fixed env) := by
  unfold handleElevationRequest
  refine .ite (.trans (.ite (.emit (.refl s) rfl) ?_)
    (calm_updateAutoDisconnectTimer env _)) (.refl s)
  split
  · exact .emit (.emit (.refl s) rfl) rfl
  · exact .emit (.refl s) rfl

theorem keepsLogin_trySubMonitorServices : KeepsLogin s (s.trySubMonitorServices fixed env) := by
  unfold trySubMonitorServices
  refine .ite ?_ (.refl s)
  dsimp only
  split
  · exact .set (.refl s) rfl rfl
  · exact .set (.refl s) rfl rfl

theorem keepsLogin_onSelectedSid (sid : Nat) :
    KeepsLogin s (s.onSelectedSid fixed env sid).1 := by
  unfold onSelectedSid
  dsimp only
  split_ifs
  · exact .emit (.refl s) rfl
  · split
    · exact .emit (.set (.refl s) rfl rfl) rfl
    · exact .refl s
  · exact .set (.refl s) rfl rfl
  · exact keepsLogin_trySubMonitorServices fixed env s
  · exact .refl s
  · exact .refl s

theorem keepsLogin_onScreenshotRequest (display : Int) (sid : String) :
    KeepsLogin s (s.onScreenshotRequest display sid) :=
  .emit (.emit (.refl s) rfl) rfl

theorem calm_handleTerminalAction (payload : Bytes) : Calm s (s.handleTerminalAction payload) :=
  .ite (.emit (.emit (.refl s) rfl) rfl) (.refl s)

theorem calm_onTestDelay (fromClient : Bool) : Calm s (s.onTestDelay env fromClient) := by
  unfold onTestDelay
  refine .ite (.emit (.refl s) rfl) ?_
  split
  · exact .emit (.set (.refl s) rfl rfl rfl) rfl
  · exact .refl s

end AuthorizedMessages

section Close
variable (fixed : Fixed) (env : Env) {s : State}

/-- From `s` to `t` the connection is closed and its target socket dropped;
for the rest the step is inert. -/
structure Closes (s t : State) : Prop where
  login : t.conn.loginView = { s.conn.loginView with portForwardSocket := none, closed := true }
  permissions : t.conn.permissionView = s.conn.permissionView
  builtin : t.world.config.builtin = s.world.config.builtin
  subed : ∀ name, t.subed name = true → s.subed name = true
  emits : Emits (fun effect => effect.isLogin = false ∧ effect.isControl = false) s t

theorem closes_onClose (hOpen : s.conn.closed = false) (lock : Bool) :
    Closes s (s.onClose lock fixed.build) := by
  unfold onClose
  simp only [hOpen, Bool.false_eq_true, if_false]
  refine ⟨?_, ?_, ?_, ?_, ?_⟩
  · split_ifs <;> rfl
  · split_ifs <;> rfl
  · split_ifs <;> rfl
  · intro name h
    split_ifs at h <;> exact h
  · have hInput : Emits (fun effect => effect.isLogin = false ∧ effect.isControl = false) s
        ({ s with conn := { s.conn with closed := true } }.emit (.setVoiceCallInputDevice false)) :=
      (Emits.refl s).emit ⟨rfl, rfl⟩
    split_ifs
    · exact (hInput.emit ⟨rfl, rfl⟩).emit ⟨rfl, rfl⟩
    · exact (hInput.emit ⟨rfl, rfl⟩).emit ⟨rfl, rfl⟩
    · exact hInput.emit ⟨rfl, rfl⟩
    · exact hInput.emit ⟨rfl, rfl⟩

theorem Inert.closes {t u : State} (h : Inert s t) (h' : Closes t u) : Closes s u :=
  ⟨h'.login.trans (by rw [h.login]), h'.permissions.trans h.permissions,
    h'.builtin.trans h.builtin, fun name hu => h.subed name (h'.subed name hu),
    h.emits.trans h'.emits⟩

theorem Closes.inert {t u : State} (h : Closes s t) (h' : Inert t u) : Closes s u :=
  ⟨h'.login.trans h.login, h'.permissions.trans h.permissions, h'.builtin.trans h.builtin,
    fun name hu => h.subed name (h'.subed name hu), h.emits.trans h'.emits⟩

theorem calm_checkRemoveSession (s : State) (connId : Int) (key : SessionKey) :
    Calm s { s with world := s.world.checkRemoveSession connId key } := by
  unfold World.checkRemoveSession
  dsimp only
  split_ifs <;> exact .set (.refl s) rfl rfl rfl

theorem calm_sendCloseReasonNoRetry (s : State) (reason : String) :
    Calm s (s.sendCloseReasonNoRetry reason) :=
  .trans (.emit (.refl s) rfl) (calm_checkRemoveSession _ _ _)

theorem closes_sendCloseReason (hOpen : s.conn.closed = false) (reason : String) (lock : Bool) :
    Closes s ((s.sendCloseReasonNoRetry reason).onClose lock fixed.build) :=
  (calm_sendCloseReasonNoRetry s reason).inert.closes
    (closes_onClose (s := s.sendCloseReasonNoRetry reason) fixed hOpen lock)

theorem closes_onCmClose (hOpen : s.conn.closed = false) : Closes s (s.onCmClose fixed) := by
  refine Inert.closes ?_ (closes_sendCloseReason (s :=
    { s with conn := { s.conn with chatUnanswered := false, fileTransferred := false } })
    fixed hOpen "" true)
  exact .set (.refl s) rfl rfl rfl rfl rfl

theorem closes_onCloseReason (hOpen : s.conn.closed = false) : Closes s (s.onCloseReason fixed) :=
  (closes_onClose fixed hOpen true).inert (calm_checkRemoveSession _ _ _).inert

theorem closes_onSwitchSidesRequest (hOpen : s.conn.closed = false) (uuid : Bytes) :
    (s.onSwitchSidesRequest fixed uuid = (s, true)) ∨
      (Closes s (s.onSwitchSidesRequest fixed uuid).1 ∧
        (s.onSwitchSidesRequest fixed uuid).2 = false) := by
  unfold onSwitchSidesRequest
  split
  · split_ifs
    · refine Or.inr ⟨Inert.closes (.emit (.refl s) ⟨rfl, rfl⟩) (closes_onClose fixed ?_ false), rfl⟩
      exact hOpen
    · exact Or.inl rfl
  · exact Or.inl rfl

end Close

section Messages
variable (fixed : Fixed) (env : Env) {s : State}

/-- A handler that keeps the login, or closes the connection and ends the loop.
Only an authorized connection can leave the loop without closing. -/
def Ordinary (s : State) (r : State × Bool) : Prop :=
  (KeepsLogin s r.1 ∧ (r.2 = true ∨ s.conn.authorized = true)) ∨ (Closes s r.1 ∧ r.2 = false)

/-- A handler that is inert, or closes the connection and ends the loop. -/
def Idle (s : State) (r : State × Bool) : Prop :=
  (Inert s r.1 ∧ (r.2 = true ∨ s.conn.authorized = true)) ∨ (Closes s r.1 ∧ r.2 = false)

theorem Idle.ordinary {r : State × Bool} (h : Idle s r) : Ordinary s r :=
  h.imp_left fun hInert => ⟨hInert.1.keepsLogin, hInert.2⟩

theorem Inert.goesOn {t : State} (h : Inert s t) : Idle s (t, true) := Or.inl ⟨h, Or.inl rfl⟩

theorem Calm.goesOn {t : State} (h : Calm s t) : Idle s (t, true) := h.inert.goesOn

theorem KeepsLogin.goesOn {t : State} (h : KeepsLogin s t) : Ordinary s (t, true) :=
  Or.inl ⟨h, Or.inl rfl⟩

theorem idle_onMisc (hOpen : s.conn.closed = false) {misc : Misc} (hIdle : misc.isIdle = true) :
    Idle s (s.onMisc fixed env misc) := by
  cases misc with
  | switchDisplay | captureDisplays | option | selectedSid => cases hIdle
  | switchSidesRequest uuid =>
      rcases closes_onSwitchSidesRequest fixed hOpen uuid with hSame | hCloses
      · simp only [onMisc, hSame]
        exact (Inert.refl s).goesOn
      · exact Or.inr hCloses
  | toggleVirtualDisplay | restartRemoteDevice =>
      exact Calm.goesOn (.ite (.emit (.refl s) rfl) (.refl s))
  | togglePrivacyMode implKey on =>
      exact Calm.goesOn (.emit (.refl s) (by cases on <;> rfl))
  | chatMessage text =>
      exact Calm.goesOn (.set (.emit (.refl s) rfl) rfl rfl rfl)
  | refreshVideo refresh =>
      exact Calm.goesOn (.trans (.ite (.emit (.refl s) rfl) (.refl s))
        (calm_updateAutoDisconnectTimer env _))
  | refreshVideoDisplay display =>
      exact Calm.goesOn (.set (.emit (.refl s) rfl) rfl rfl rfl)
  | elevationRequest request =>
      cases request with
      | unknown => exact Calm.goesOn (.refl s)
      | direct | logon => exact Calm.goesOn (calm_handleElevationRequest fixed env s)
  | audioFormat sampleRate channels => exact Inert.goesOn (inert_onAudioFormat s sampleRate channels)
  | changeResolution | changeDisplayResolution => exact Calm.goesOn (calm_changeResolution s ..)
  | videoReceived | autoAdjustFps | clientRecordStatus | messageQuery =>
      exact Calm.goesOn (.emit (.refl s) rfl)
  | closeReason | unknown => exact Calm.goesOn (.refl s)

theorem idle_onAuthorizedMessage (hOpen : s.conn.closed = false) {msg : Message}
    (hIdle : msg.isIdle = true) : Idle s (s.onAuthorizedMessage fixed env msg) := by
  cases msg with
  | loginRequest | auth2fa | switchSidesResponse | mouseEvent | pointerDeviceEvent | keyEvent
  | voiceCallRequest | screenshotRequest => cases hIdle
  | misc misc => exact idle_onMisc fixed env hOpen hIdle
  | clipboard content => exact Calm.goesOn (calm_onClipboard s [content])
  | multiClipboards contents => exact Calm.goesOn (calm_onClipboard s contents)
  | cliprdr clip => exact Calm.goesOn (calm_onCliprdr fixed s clip)
  | fileAction action => exact Calm.goesOn (calm_onFileAction env s action)
  | fileResponse response => exact Calm.goesOn (calm_onFileResponse s response)
  | audioFrame data => exact Inert.goesOn (inert_onAudioFrame s data)
  | terminalAction payload => exact Calm.goesOn (calm_handleTerminalAction s payload)
  | testDelay | voiceCallResponse | unknown => exact Calm.goesOn (.refl s)

theorem ordinary_onAuthorizedMessage (hOpen : s.conn.closed = false)
    (hAuthorized : s.conn.authorized = true) (msg : Message) :
    Ordinary s (s.onAuthorizedMessage fixed env msg) := by
  cases hIdle : msg.isIdle with
  | true => exact (idle_onAuthorizedMessage fixed env hOpen hIdle).ordinary
  | false =>
      cases msg with
      | mouseEvent event => exact KeepsLogin.goesOn (keepsLogin_onMouseEvent env s event)
      | pointerDeviceEvent event => exact KeepsLogin.goesOn (keepsLogin_onPointerDeviceEvent env s event)
      | keyEvent event => exact KeepsLogin.goesOn (keepsLogin_onKeyEvent fixed env s event)
      | voiceCallRequest isConnect reqTimestamp =>
          exact KeepsLogin.goesOn (keepsLogin_onVoiceCallRequest env s isConnect reqTimestamp)
      | screenshotRequest display sid => exact KeepsLogin.goesOn (keepsLogin_onScreenshotRequest s display sid)
      | misc misc =>
          cases misc with
          | switchDisplay display width height =>
              exact KeepsLogin.goesOn (keepsLogin_handleSwitchDisplay fixed s display width height)
          | captureDisplays => exact KeepsLogin.goesOn (keepsLogin_captureDisplays s _ _ _)
          | option o => exact KeepsLogin.goesOn (keepsLogin_updateOptions fixed env s o)
          | selectedSid sid => exact Or.inl ⟨keepsLogin_onSelectedSid fixed env s sid, Or.inr hAuthorized⟩
          | _ => cases hIdle
      | loginRequest | auth2fa | switchSidesResponse => exact KeepsLogin.goesOn (.refl s)
      | _ => cases hIdle

theorem idle_onMessage (hOpen : s.conn.closed = false) {msg : Message} (hIdle : msg.isIdle = true) :
    Idle s (s.onMessage fixed env msg) := by
  unfold onMessage
  split
  · exact Or.inr ⟨closes_onCloseReason fixed hOpen, rfl⟩
  · cases hIdle
  · cases hIdle
  · exact Calm.goesOn (calm_onTestDelay env s _)
  · cases hIdle
  · split_ifs
    · exact idle_onAuthorizedMessage fixed env hOpen hIdle
    · exact Calm.goesOn (.refl s)

theorem ordinary_onMessage (hOpen : s.conn.closed = false) {msg : Message}
    (hLogin : msg.isLogin = false) : Ordinary s (s.onMessage fixed env msg) := by
  unfold onMessage
  split
  · exact Or.inr ⟨closes_onCloseReason fixed hOpen, rfl⟩
  · cases hLogin
  · cases hLogin
  · exact (calm_onTestDelay env s _).goesOn.ordinary
  · cases hLogin
  · split_ifs with hReady
    · exact ordinary_onAuthorizedMessage fixed env hOpen (by simp_all) _
    · exact KeepsLogin.goesOn (.refl s)

end Messages

section Loop
variable (fixed : Fixed) (env : Env) {s : State}

theorem calm_touchSession (s : State) : Calm s (s.touchSession env) := by
  unfold touchSession
  split
  · exact .set (.refl s) rfl rfl rfl
  · exact .refl s

theorem inert_interfere (s : State) (world : World) (added : List ServiceName)
    (subed : ServiceName → Int → Bool) : Inert s (s.interfere world added subed) := by
  refine ⟨rfl, rfl, rfl, fun name h => ?_, .refl s⟩
  unfold State.subed interfere at *
  cases hServer : s.server with
  | none => simp [hServer] at h
  | some server =>
      simp only [hServer, Option.map_some] at h
      exact Server.isSubed_of_interfere server name s.conn.id added subed h

theorem keepsLogin_switchPermission (s : State) (name : Permission) (enabled : Bool) :
    KeepsLogin s (s.switchPermission fixed name enabled) := by
  cases name with
  | keyboard =>
      unfold switchPermission
      refine .subscribe _ _ _ (.trans ?_ (keepsLogin_refreshFileClipboard fixed _))
      exact .subscribe _ _ _ (.emit (.set (.refl s) rfl rfl) rfl)
  | clipboard => exact .subscribe _ _ _ (.emit (.set (.refl s) rfl rfl) rfl)
  | audio =>
      unfold switchPermission
      refine .trans ?_ (.ite (keepsLogin_refreshAudio _) (.refl _))
      exact .emit (.set (.refl s) rfl rfl) rfl
  | file =>
      unfold switchPermission
      refine .trans (.trans ?_ (.ite (.emit (.refl _) rfl) (.refl _)))
        (keepsLogin_refreshFileClipboard fixed _)
      exact .emit (.set (.refl s) rfl rfl) rfl
  | restart | recording | blockInput => exact .emit (.set (.refl s) rfl rfl) rfl

theorem calm_onCmReadJob (s : State) (id : Int) (ends : Bool) (answer : PeerMessage) :
    Calm s (s.onCmReadJob id ends answer) := by
  unfold onCmReadJob
  refine .ite (.emit (.ite ?_ (.refl s)) rfl) (.refl s)
  exact .set (.refl s) rfl rfl rfl

theorem calm_onReadJobInitResult (s : State) (id : Int) (result : Option (List (String × Nat))) :
    Calm s (s.onReadJobInitResult id result) := by
  unfold onReadJobInitResult
  split
  · exact calm_onCmReadJob s ..
  · refine .ite ?_ (.refl s)
    exact .set (.emit (.refl s) rfl) rfl rfl rfl

theorem idle_onCm (hOpen : s.conn.closed = false) {message : CmMessage}
    (hIdle : message.isIdle = true) : Idle s (s.onCm fixed env message) := by
  cases message with
  | authorize | switchPermission | voiceCallResponse | closeVoiceCall => cases hIdle
  | close => exact Or.inr ⟨closes_onCmClose fixed hOpen, rfl⟩
  | cmErr e =>
      simp only [onCm]
      split_ifs
      · exact Or.inr ⟨closes_onClose fixed hOpen false, rfl⟩
      · exact Calm.goesOn (.refl s)
  | chatMessage text => exact Calm.goesOn (.set (.emit (.refl s) rfl) rfl rfl rfl)
  | clipboardFile | requestStart =>
      exact Calm.goesOn (.ite (.emit (.refl s) rfl) (.refl s))
  | rawMessage | privacyModeState | switchSidesBack => exact Calm.goesOn (.emit (.refl s) rfl)
  | readJobInitResult => exact Calm.goesOn (calm_onReadJobInitResult s ..)
  | fileBlockFromCm | fileReadDone | fileReadError | fileDigestFromCm =>
      exact Calm.goesOn (calm_onCmReadJob s ..)
  | allFilesResult => exact Calm.goesOn (.emit (.refl s) rfl)
  | unknown => exact Calm.goesOn (.refl s)

theorem ordinary_onCm (hOpen : s.conn.closed = false) {message : CmMessage}
    (hMessage : message ≠ .authorize) : Ordinary s (s.onCm fixed env message) := by
  cases hIdle : message.isIdle with
  | true => exact (idle_onCm fixed env hOpen hIdle).ordinary
  | false =>
      cases message with
      | authorize => exact absurd rfl hMessage
      | switchPermission name enabled =>
          exact KeepsLogin.goesOn (keepsLogin_switchPermission fixed s name enabled)
      | voiceCallResponse accepted => exact KeepsLogin.goesOn (keepsLogin_handleVoiceCall s accepted)
      | closeVoiceCall => exact KeepsLogin.goesOn (.emit (keepsLogin_closeVoiceCall s) rfl)
      | _ => cases hIdle

/-- Sending failed, or the loop goes on with an inert step. -/
theorem idle_of_sent {t : State} (hOpen : t.conn.closed = false) (h : Inert s t) (sent : Bool) :
    Idle s (if sent then (t, true) else (t.onClose false fixed.build, false)) := by
  split_ifs
  · exact h.goesOn
  · exact Or.inr ⟨h.closes (closes_onClose fixed hOpen false), rfl⟩

theorem idle_onOutgoing (hOpen : s.conn.closed = false) (message : Outgoing) (sent : Bool) :
    Idle s (s.onOutgoing fixed message sent) := by
  cases message with
  | stopService => exact Or.inr ⟨closes_sendCloseReason fixed hOpen "" false, rfl⟩
  | peerInfo =>
      unfold onOutgoing
      exact idle_of_sent (t := s.emit _) fixed hOpen (.emit (.refl s) ⟨rfl, rfl⟩) sent
  | cursorPosition followed =>
      unfold onOutgoing
      refine idle_of_sent fixed ?_ (.ite (.emit (.refl s) ⟨rfl, rfl⟩) (.refl s)) sent
      split_ifs <;> exact hOpen
  | other => exact idle_of_sent fixed hOpen (.refl s) sent

theorem idle_onFileTimer (hOpen : s.conn.closed = false) (finished : Option (List Int)) :
    Idle s (s.onFileTimer fixed finished) := by
  unfold onFileTimer
  split_ifs
  · exact Calm.goesOn (.refl s)
  · split
    · exact Calm.goesOn (.set (.emit (.refl s) rfl) rfl rfl rfl)
    · exact Or.inr ⟨closes_onClose fixed hOpen false, rfl⟩

theorem idle_onSecondTimer (hOpen : s.conn.closed = false) :
    Idle s (s.onSecondTimer fixed env) := by
  unfold onSecondTimer
  split
  · split_ifs
    · exact Or.inr ⟨closes_sendCloseReason fixed hOpen _ true, rfl⟩
    · exact Calm.goesOn (.refl s)
  · exact Calm.goesOn (.refl s)

theorem idle_onTestDelayTimer (hOpen : s.conn.closed = false) (lastRecvTime : Nat) :
    Idle s (s.onTestDelayTimer fixed env lastRecvTime) := by
  unfold onTestDelayTimer
  split_ifs
  · exact Or.inr ⟨closes_onClose fixed hOpen true, rfl⟩
  · exact Calm.goesOn (.emit (.set (.refl s) rfl rfl rfl) rfl)
  · exact Calm.goesOn (.refl s)

theorem calm_onPrinterData (s : State) : Calm s (s.onPrinterData fixed env) := by
  unfold onPrinterData
  refine .ite (.ite ?_ (.emit (.refl s) rfl)) (.refl s)
  exact .set (.refl s) rfl rfl rfl

theorem Inert.idle {t : State} {r : State × Bool} (h : Inert s t) (h' : Idle t r) : Idle s r := by
  have hAuthorized : t.conn.authorized = s.conn.authorized := congrArg LoginView.authorized h.login
  rcases h' with ⟨hInert, hOn⟩ | ⟨hCloses, hEnd⟩
  · exact Or.inl ⟨h.trans hInert, by rwa [← hAuthorized]⟩
  · exact Or.inr ⟨h.closes hCloses, hEnd⟩

theorem touchSession_closed (hOpen : s.conn.closed = false) :
    (s.touchSession env).conn.closed = false :=
  (congrArg LoginView.closed (calm_touchSession env s).login).trans hOpen

/-- A relay only starts on an authorized connection. -/
theorem onPeer_continues {msg : Message}
    (h : (s.onMessage fixed env msg).1.conn.loginView = s.conn.loginView)
    (hOn : (s.onMessage fixed env msg).2 = true ∨ s.conn.authorized = true) :
    (s.onPeer fixed env msg).2 = true ∨ s.conn.authorized = true := by
  have hAuthorized : (s.onMessage fixed env msg).1.conn.authorized = s.conn.authorized :=
    congrArg LoginView.authorized h
  unfold State.onPeer
  dsimp only
  rw [hAuthorized]
  rcases hOn with hTrue | hYes
  · cases hCase : s.conn.authorized with
    | true => exact Or.inr rfl
    | false => exact Or.inl (by simp [hTrue])
  · exact Or.inr hYes

theorem Idle.onPeer {msg : Message} (h : Idle s (s.onMessage fixed env msg)) :
    Idle s (s.onPeer fixed env msg) := by
  rcases h with ⟨hInert, hOn⟩ | ⟨hCloses, hEnd⟩
  · exact Or.inl ⟨hInert, onPeer_continues fixed env hInert.login hOn⟩
  · exact Or.inr ⟨hCloses, by simp [State.onPeer, hEnd]⟩

theorem Ordinary.onPeer {msg : Message} (h : Ordinary s (s.onMessage fixed env msg)) :
    Ordinary s (s.onPeer fixed env msg) := by
  rcases h with ⟨hKeeps, hOn⟩ | ⟨hCloses, hEnd⟩
  · exact Or.inl ⟨hKeeps, onPeer_continues fixed env hKeeps.view hOn⟩
  · exact Or.inr ⟨hCloses, by simp [State.onPeer, hEnd]⟩

/-- Events that neither log in, nor switch permissions or options, nor ask for
displays or input, are inert or close the connection. -/
theorem idle_onInput (hOpen : s.conn.closed = false) (lastRecvTime : Nat) {input : Input}
    (hIdle : input.isIdle = true) : Idle s (s.onInput fixed env lastRecvTime input) := by
  cases input with
  | cm message => exact idle_onCm fixed env hOpen hIdle
  | peer message =>
      exact (calm_touchSession env s).inert.idle
        (Idle.onPeer fixed env (idle_onMessage fixed env (touchSession_closed env hOpen) hIdle))
  | peerUnparsed => exact Calm.goesOn (calm_touchSession env s)
  | streamError | streamEnd => exact Or.inr ⟨closes_onClose fixed hOpen true, rfl⟩
  | fileTimer finished => exact idle_onFileTimer fixed hOpen finished
  | webConsole => exact Or.inr ⟨closes_sendCloseReason fixed hOpen _ true, rfl⟩
  | video sent => exact idle_of_sent fixed hOpen (.refl s) sent
  | outgoing message sent => exact idle_onOutgoing fixed hOpen message sent
  | printerData => exact Calm.goesOn (calm_onPrinterData fixed env s)
  | secondTimer => exact idle_onSecondTimer fixed env hOpen
  | testDelayTimer => exact idle_onTestDelayTimer fixed env hOpen lastRecvTime
  | clipFile => exact Calm.goesOn (.ite (.emit (.refl s) rfl) (.refl s))
  | others world added subed => exact Inert.goesOn (inert_interfere s world added subed)

/-- Events that do not log in keep what a login decides, or close. -/
theorem ordinary_onInput (hOpen : s.conn.closed = false) (lastRecvTime : Nat) {input : Input}
    (hLogin : input.isLogin = false) : Ordinary s (s.onInput fixed env lastRecvTime input) := by
  cases hIdle : input.isIdle with
  | true => exact (idle_onInput fixed env hOpen lastRecvTime hIdle).ordinary
  | false =>
      cases input with
      | cm message =>
          refine ordinary_onCm fixed env hOpen ?_
          rintro rfl
          cases hLogin
      | peer message =>
          have hTouch := (calm_touchSession env s).inert
          have h := Ordinary.onPeer fixed env
            (ordinary_onMessage fixed env (touchSession_closed env hOpen) hLogin)
          have hAuthorized : (s.touchSession env).conn.authorized = s.conn.authorized :=
            congrArg LoginView.authorized hTouch.login
          rcases h with ⟨hKeeps, hOn⟩ | ⟨hCloses, hEnd⟩
          · exact Or.inl ⟨hTouch.keepsLogin.trans hKeeps, by rwa [← hAuthorized]⟩
          · exact Or.inr ⟨hTouch.closes hCloses, hEnd⟩
      | _ => cases hIdle

end Loop

end State

end HibtDesk
