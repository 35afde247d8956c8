import HibtDesk.Connection.Subscriptions

/-! What a connection that is not for remote control can reach of it: the input
channel, the screen, the clipboards, the cursor and the sound. The handlers ask
for the kind of the connection in some places only, so the question is which
messages find it asked, or find the flags off. -/
namespace HibtDesk

/-- The services that belong to remote control. The sound is left out, since a
voice call shares it. -/
def ServiceName.remoteOnly (build : Build) : ServiceName → Bool
  | video .monitor _ | clipboard | mouseCursor | mousePos => true
  | fileClipboard => build.unixFileCopyPaste
  | _ => false

namespace State

/-- Nothing was done that belongs to remote control. -/
structure Confined (fixed : Fixed) (s : State) : Prop where
  control : ∀ effect ∈ s.effects, effect.isControl = false
  subed : ∀ name, name.remoteOnly fixed.build = true → s.subed name = false
  audio : s.subed .audio = true → s.conn.voiceCalling = true

section Confined
variable {fixed : Fixed} {s t : State}

theorem Confined.mono (h : Confined fixed s)
    (hEmits : Emits (fun effect => effect.isControl = false) s t)
    (hSubed : ∀ name, name.remoteOnly fixed.build = true → t.subed name = true → s.subed name = true)
    (hAudio : t.subed .audio = true → t.conn.voiceCalling = true) : Confined fixed t := by
  refine ⟨fun effect hMem => ?_, fun name hRemote => ?_, hAudio⟩
  · obtain ⟨more, hMore, hAllowed⟩ := hEmits
    rw [hMore, List.mem_append] at hMem
    exact hMem.elim (h.control effect) (hAllowed effect)
  · by_contra hNew
    have hOld := hSubed name hRemote (by simpa using hNew)
    rw [h.subed name hRemote] at hOld
    cases hOld

theorem Confined.quiet (h : Confined fixed s) (hQuiet : Quiet s t) : Confined fixed t := by
  have hCalling : t.conn.voiceCalling = s.conn.voiceCalling :=
    congrArg (fun v : ServiceView => v.permissions.voiceCalling) hQuiet.view
  refine h.mono hQuiet.emits (fun name _ ht => ?_) fun ht => ?_
  · rwa [hQuiet.subed] at ht
  · rw [hQuiet.subed] at ht
    exact hCalling.trans (h.audio ht)

theorem Confined.inert (h : Confined fixed s) (hInert : Inert s t) : Confined fixed t := by
  refine h.mono (hInert.emits.mono fun _ he => he.2) (fun name _ => hInert.subed name) fun ht => ?_
  exact (congrArg PermissionView.voiceCalling hInert.permissions).trans (h.audio (hInert.subed _ ht))

theorem Confined.closes (h : Confined fixed s) (hCloses : Closes s t) : Confined fixed t := by
  refine h.mono (hCloses.emits.mono fun _ he => he.2) (fun name _ => hCloses.subed name) fun ht => ?_
  exact (congrArg PermissionView.voiceCalling hCloses.permissions).trans (h.audio (hCloses.subed _ ht))

end Confined

section Options
variable {fixed : Fixed} {env : Env} {s : State} {o : OptionMessage}

theorem emits_updateOptions (fixed : Fixed) (env : Env) (s : State) (o : OptionMessage) :
    Emits (fun effect => effect.isControl = false) s (s.updateOptions fixed env o) := by
  refine updateOptions_induct (motive := Emits (fun effect => effect.isControl = false) s) fixed env s o
    (.refl s) (fun _ _ hEffect h => h.emit hEffect.2.1) (fun _ _ _ h => h) (fun _ _ _ h => h)
    (fun _ _ _ h => h) (fun _ _ _ h => h) ?_ ?_ (fun _ _ _ h => h) ?_ ?_ ?_
  · intro t v _ h
    unfold setDisableAudio refreshAudio
    split_ifs <;> exact h
  · intro t v _ h
    unfold setEnableFileTransfer refreshFileClipboard
    dsimp only
    split_ifs <;> first
      | exact h
      | exact (h.emit rfl).emit rfl
      | exact h.emit rfl
  · intro t v _ h
    unfold setDisableKeyboard refreshFileClipboard
    dsimp only
    split_ifs <;> exact h
  · exact fun t v _ h => h.emit rfl
  · intro t v _ h
    unfold setShowMyCursor
    dsimp only
    split_ifs <;> first | exact h | exact h.emit rfl

/-- The fields that the options for the cursor and for the sound leave behind. -/
def cursorAndSound (conn : Connection) : Bool × Bool × Bool × Bool :=
  (conn.showRemoteCursor, conn.audioEnabled, conn.isAuthedViewCameraConn, conn.voiceCalling)

/-- A service that only the option for the cursor or the one for the sound
subscribes, under a condition those options establish. -/
theorem subed_of_cursor_or_sound {n : ServiceName} (R : Bool × Bool × Bool × Bool → Prop)
    (hName : n = .mousePos ∨ n = .audio)
    (hCursor : ∀ t v, isSet o.showRemoteCursor = true →
      (t.subed n = true → s.subed n = true ∨ R (cursorAndSound t.conn)) →
      (setShowRemoteCursor t v).subed n = true →
        s.subed n = true ∨ R (cursorAndSound (setShowRemoteCursor t v).conn))
    (hSound : ∀ t v, isSet o.disableAudio = true →
      (t.subed n = true → s.subed n = true ∨ R (cursorAndSound t.conn)) →
      (setDisableAudio t v).subed n = true →
        s.subed n = true ∨ R (cursorAndSound (setDisableAudio t v).conn))
    (h : (s.updateOptions fixed env o).subed n = true) :
    s.subed n = true ∨ R (cursorAndSound (s.updateOptions fixed env o).conn) := by
  have other : ∀ {t : State} {name sub}, name = .clipboard ∨ name = .fileClipboard ∨
      name = .mouseCursor ∨ name = .windowFocus →
      (t.subed n = true → s.subed n = true ∨ R (cursorAndSound t.conn)) →
      (t.subscribe name sub).subed n = true → s.subed n = true ∨ R (cursorAndSound t.conn) := by
    intro t name sub hOther hOld hNew
    rcases subed_subscribe hNew with ⟨rfl, -⟩ | ⟨-, ht⟩
    · rcases hName with rfl | rfl <;> simp at hOther
    · exact hOld ht
  refine updateOptions_induct fixed env s
    (motive := fun t => t.subed n = true → s.subed n = true ∨ R (cursorAndSound t.conn))
    o Or.inl ?_ ?_ hCursor ?_ ?_ hSound ?_ ?_ ?_ ?_ ?_ h
  · exact fun t effect _ ht => ht
  · exact fun t v _ ht => ht
  · exact fun t v _ ht => ht
  · exact fun t v _ ht =>
      other (t := { t with conn := { t.conn with followRemoteWindow := v } }) (by simp) ht
  · intro t v _ ht
    unfold setEnableFileTransfer refreshFileClipboard
    dsimp only
    split_ifs <;> first
      | exact ht
      | exact other (by simp) ht
  · exact fun t v _ ht =>
      other (t := { t with conn := { t.conn with disableClipboard := v } }) (by simp) ht
  · intro t v _ ht
    have hClipboard : (refreshClipboard { t with conn := { t.conn with disableKeyboard := v } }).subed n =
        true → s.subed n = true ∨ R (cursorAndSound { t.conn with disableKeyboard := v }) :=
      other (by simp) ht
    unfold setDisableKeyboard refreshFileClipboard
    dsimp only
    split_ifs
    · exact other (by simp) (other (by simp) hClipboard)
    · exact other (by simp) hClipboard
  · exact fun t v _ ht => ht
  · intro t v _ ht
    unfold setShowMyCursor
    dsimp only
    split_ifs <;> exact ht

/-- The position of the cursor is only subscribed with the option to show it. -/
theorem subed_mousePos_updateOptions
    (h : (s.updateOptions fixed env o).subed .mousePos = true) :
    s.subed .mousePos = true ∨ (s.updateOptions fixed env o).conn.showRemoteCursor = true := by
  refine subed_of_cursor_or_sound (fun fields => fields.1 = true) (Or.inl rfl) ?_ ?_ h
  · intro t v _ _ hNew
    rcases subed_subscribe hNew with ⟨-, hOn⟩ | ⟨hNe, -⟩
    · exact Or.inr hOn
    · exact absurd rfl hNe
  · intro t v _ hOld
    unfold setDisableAudio refreshAudio
    split_ifs
    · intro hNew
      exact hOld ((subed_subscribe hNew).resolve_left (by simp)).2
    · exact hOld
    · intro hNew
      exact hOld ((subed_subscribe hNew).resolve_left (by simp)).2

/-- The sound is subscribed with the option not to disable it, by a camera
connection only during a call. -/
theorem subed_audio_updateOptions (h : (s.updateOptions fixed env o).subed .audio = true) :
    s.subed .audio = true ∨
      (o.touches .audio = true ∧ (s.updateOptions fixed env o).conn.audioEnabled = true ∧
        (s.conn.isAuthedViewCameraConn = true → s.conn.voiceCalling = true)) := by
  have hKeeps := (keepsLogin_updateOptions fixed env s o).view
  have hView := updateOptions_permissionView fixed env s o
  have hCamera : (s.updateOptions fixed env o).conn.isAuthedViewCameraConn =
      s.conn.isAuthedViewCameraConn :=
    congrArg (fun v : LoginView => v.authedConnId == some .viewCamera) hKeeps
  have hCalling : (s.updateOptions fixed env o).conn.voiceCalling = s.conn.voiceCalling :=
    congrArg PermissionView.voiceCalling hView
  rw [← hCamera, ← hCalling]
  refine subed_of_cursor_or_sound (fun fields => o.touches .audio = true ∧ fields.2.1 = true ∧
    (fields.2.2.1 = true → fields.2.2.2 = true)) (Or.inr rfl) ?_ ?_ h
  · intro t v _ hOld hNew
    have hMiddle := ((subed_subscribe hNew).resolve_left (by simp)).2
    exact hOld ((subed_subscribe hMiddle).resolve_left (by simp)).2
  · intro t v hSet hOld
    unfold setDisableAudio refreshAudio
    split_ifs with hKind hCall
    · intro hNew
      rcases subed_subscribe hNew with ⟨-, hOn⟩ | ⟨hNe, -⟩
      · refine Or.inr ⟨hSet, hOn, fun _ => ?_⟩
        rw [Bool.or_eq_true] at hCall
        rcases hCall with hYes | hOff
        · exact hYes
        · simp [hOn] at hOff
      · exact absurd rfl hNe
    · intro hNew
      rcases hOld hNew with hYes | ⟨hTouches, -, hDuring⟩
      · exact Or.inl hYes
      · refine Or.inr ⟨hTouches, ?_, hDuring⟩
        simp only [Bool.or_eq_true, Bool.not_eq_true', not_or, Bool.not_eq_false] at hCall
        exact hCall.2
    · intro hNew
      rcases subed_subscribe hNew with ⟨-, hOn⟩ | ⟨hNe, -⟩
      · exact Or.inr ⟨hSet, hOn, fun hYes => absurd hYes hKind⟩
      · exact absurd rfl hNe

/-- What the options ask for stays off. The file clipboard is refreshed before
the option that disables the clipboard, or after it with the keyboard. -/
structure OptionsConfined (fixed : Fixed) (s : State) (camera : Bool) (o : OptionMessage) : Prop where
  clipboard : o.touches .clipboard = true →
    (s.conn.permissionView.updated fixed.build o).allows s.world.config.builtin .clipboard = false
  cursor : o.touches .mouseCursor = true →
    (s.conn.permissionView.updated fixed.build o).allows s.world.config.builtin .mouseCursor = false
  file : fixed.build.unixFileCopyPaste = true → o.touches .fileClipboard = true →
    PermissionView.allows { s.conn.permissionView.updated fixed.build o with
      disableClipboard := if isSet o.disableKeyboard then
          applied o.disableClipboard s.conn.disableClipboard else s.conn.disableClipboard }
      s.world.config.builtin .fileClipboard = false
  audio : o.touches .audio = true → camera = true ∨ s.conn.voiceCalling = true ∨
    (s.conn.permissionView.updated fixed.build o).allows s.world.config.builtin .audio = false

theorem Confined.permitted (h : Confined fixed s) (hYes : s.conn.authorized = true) :
    Permitted fixed [.audio] s := by
  refine ⟨fun _ _ _ => hYes, fun name hGuarded hSubed hFresh => ?_⟩
  have hOff : name.remoteOnly fixed.build = true → s.allows name = true := fun hRemote => by
    rw [h.subed name hRemote] at hSubed
    cases hSubed
  cases name with
  | clipboard | mouseCursor => exact hOff rfl
  | fileClipboard => exact hOff hGuarded
  | audio => simp at hFresh
  | _ => rfl

/-- The options after which clipboard and cursor are as the flags say. -/
theorem Confined.permitted_updateOptions (h : Confined fixed s) (hYes : s.conn.authorized = true) :
    Permitted fixed [.fileClipboard, .audio] (s.updateOptions fixed env o) := by
  have hBefore := h.permitted hYes
  cases hSet : isSet o.disableKeyboard with
  | true =>
      refine (hBefore.updateOptions_of_set hYes env hSet).mono id (fun _ _ => id) fun name hFresh => ?_
      simp only [List.mem_cons, not_or] at hFresh
      exact ⟨by simpa using hFresh.2, id⟩
  | false => exact hBefore.updateOptions_of_unset hYes env hSet

/-- The options that are confined leave the file clipboard alone. -/
theorem Confined.file_updateOptions (h : Confined fixed s) (hYes : s.conn.authorized = true)
    {camera : Bool} (hSafe : OptionsConfined fixed s camera o)
    (hBuild : fixed.build.unixFileCopyPaste = true) (hTouches : o.touches .fileClipboard = true) :
    (s.updateOptions fixed env o).subed .fileClipboard = false := by
  have hBefore := h.permitted hYes
  have hOff := hSafe.file hBuild hTouches
  by_contra hSubed
  rw [Bool.not_eq_false] at hSubed
  cases hSet : isSet o.disableKeyboard with
  | true =>
      have hAllowed := (hBefore.updateOptions_of_set hYes env hSet).allowed .fileClipboard hBuild
        hSubed (by simp)
      rw [allows_eq, updateOptions_permissionView, updateOptions_world] at hAllowed
      rw [hSet, if_pos rfl] at hOff
      exact absurd (hAllowed.symm.trans hOff) (by simp)
  | false =>
      have hAllowed := (hBefore.optionsBeforeClipboard hYes o).1.allowed .fileClipboard hBuild
        (subed_fileClipboard_of_unset env hSet hSubed) (by simp)
      rw [allows_eq, optionsBeforeClipboard_permissionView, optionsBeforeClipboard_eq env,
        updateOptions_world] at hAllowed
      rw [hSet, if_neg (by simp)] at hOff
      exact absurd (hAllowed.symm.trans hOff) (by simp)

/-- Options that ask for nothing of remote control give nothing of it. -/
theorem Confined.updateOptions (h : Confined fixed s) (hYes : s.conn.authorized = true)
    (hSafe : OptionsConfined fixed s s.conn.isAuthedViewCameraConn o) :
    Confined fixed (s.updateOptions fixed env o) := by
  have hPermitted : Permitted fixed [.fileClipboard, .audio] (s.updateOptions fixed env o) :=
    h.permitted_updateOptions hYes
  have hView := updateOptions_permissionView fixed env s o
  have hWorld : (s.updateOptions fixed env o).world = s.world := updateOptions_world env o
  refine h.mono (emits_updateOptions fixed env s o) (fun name hRemote hSubed => ?_) fun hSubed => ?_
  · by_contra hOld
    have hTouches : o.touches name = true := by
      rcases subed_updateOptions fixed env s o hSubed with hYes | hTouches
      · exact absurd hYes hOld
      · exact hTouches
    cases name with
    | clipboard =>
        have hAllowed := hPermitted.allowed _ rfl hSubed (by simp)
        rw [allows_eq, hView, hWorld, hSafe.clipboard hTouches] at hAllowed
        cases hAllowed
    | mouseCursor =>
        have hAllowed := hPermitted.allowed _ rfl hSubed (by simp)
        rw [allows_eq, hView, hWorld, hSafe.cursor hTouches] at hAllowed
        cases hAllowed
    | mousePos =>
        have hOff := hSafe.cursor (by simp_all [OptionMessage.touches])
        rcases subed_mousePos_updateOptions hSubed with hYes | hShown
        · exact hOld hYes
        · have hFlag : (s.conn.permissionView.updated fixed.build o).showRemoteCursor = true := by
            rw [← hView]
            exact hShown
          simp [PermissionView.allows, hFlag] at hOff
    | fileClipboard =>
        rw [h.file_updateOptions hYes hSafe hRemote hTouches] at hSubed
        cases hSubed
    | video source idx => cases hTouches
    | _ => cases hRemote
  · have hCalling : (s.updateOptions fixed env o).conn.voiceCalling = s.conn.voiceCalling :=
      congrArg PermissionView.voiceCalling hView
    rw [hCalling]
    rcases subed_audio_updateOptions hSubed with hOld | ⟨hTouches, hEnabled, hCamera⟩
    · exact h.audio hOld
    · rcases hSafe.audio hTouches with hYes | hYes | hOff
      · exact hCamera hYes
      · exact hYes
      · rw [← hView] at hOff
        exact absurd (hEnabled.symm.trans hOff) (by simp)

end Options

section Logon
variable {fixed : Fixed} {env : Env} {s t u : State}

theorem Confined.trySubCameraDisplays (h : Confined fixed s) :
    Confined fixed (s.trySubCameraDisplays fixed env) := by
  have hSubed : ∀ name, name ≠ .video .camera fixed.primaryCameraIdx →
      (s.trySubCameraDisplays fixed env).subed name = true → s.subed name = true :=
    fun name hOther ht => (subed_trySubCameraDisplays ht).resolve_right hOther
  refine h.mono (.refl s) (fun name hRemote => hSubed name ?_) fun ht => h.audio (hSubed _ (by simp) ht)
  rintro rfl
  cases hRemote

/-- The kinds other than remote control start with none of its services. -/
theorem Confined.startKind (h : Confined fixed s) (hKind : s.conn.isRemote = false)
    (wait subService : Bool) : Confined fixed (s.startKind fixed env wait subService) := by
  have hKeyboard : ∀ t, Confined fixed t →
      Confined fixed { t with conn := { t.conn with keyboard := false } } := fun t ht =>
    ht.mono (.refl t) (fun _ _ h => h) ht.audio
  unfold State.startKind
  split
  · split_ifs
    · exact h.quiet (.set (.refl s) rfl rfl)
    · exact h.quiet (.emit (.refl s) rfl)
    · exact h.quiet (.set (.refl s) rfl rfl)
    · exact h.quiet (.emit (.refl s) rfl)
  · split_ifs
    · refine (hKeyboard s h).quiet ?_
      unfold initTerminalService
      split
      · exact .set (.refl _) rfl rfl
      · exact .refl _
    · exact (hKeyboard s h).quiet (.emit (.refl _) rfl)
    · exact (hKeyboard _ h.trySubCameraDisplays).quiet (.emit (.refl _) rfl)
    · unfold trySubMonitorServices
      rw [hKind]
      exact h
    · exact h

theorem OptionsConfined.congr {camera : Bool} {o : OptionMessage}
    (h : OptionsConfined fixed s camera o)
    (hPermissions : t.conn.permissionView = s.conn.permissionView)
    (hBuiltin : t.world.config.builtin = s.world.config.builtin) :
    OptionsConfined fixed t camera o := by
  have hCalling : t.conn.voiceCalling = s.conn.voiceCalling :=
    congrArg PermissionView.voiceCalling hPermissions
  have hClipboard : t.conn.disableClipboard = s.conn.disableClipboard :=
    congrArg PermissionView.disableClipboard hPermissions
  constructor
  · rw [hPermissions, hBuiltin]
    exact h.clipboard
  · rw [hPermissions, hBuiltin]
    exact h.cursor
  · rw [hPermissions, hBuiltin, hClipboard]
    exact h.file
  · rw [hPermissions, hBuiltin, hCalling]
    exact h.audio

/-- The options of a login are confined, unless it is for remote control. -/
def LogonConfined (fixed : Fixed) (env : Env) (s : State) (v : LoginView) : Prop :=
  v.authConnType ≠ .remote → ∀ o, v.appliedOptions fixed env = some o →
    OptionsConfined fixed s (v.authConnType == .viewCamera) o

/-- A connection that is authorized for another kind starts confined. -/
theorem Confined.afterAuthorize (h : Confined fixed u)
    (hKind : u.conn.loginView.authConnType ≠ .remote)
    (hSafe : LogonConfined fixed env u u.conn.loginView) :
    Confined fixed (u.authorize.afterAuthorize fixed env) := by
  have hAuthorize : Confined fixed u.authorize := h.mono (.refl u) (fun _ _ h => h) h.audio
  rcases afterAuthorize_cases fixed env u.authorize with
    hQuiet | ⟨t, wait, subService, hOptions, hQuiet, hView, hEq⟩
  · exact hAuthorize.quiet hQuiet
  rw [hEq]
  have hAnswer := hAuthorize.quiet hQuiet
  have hRemote : t.conn.isRemote = false := by
    rw [isRemote_eq, hView, decide_eq_false_iff_not]
    exact hKind
  have hOption : t.conn.optionsInLogin = u.conn.loginView.appliedOptions fixed env :=
    (congrArg LoginView.optionsInLogin hView).trans hOptions.symm
  unfold applyOptionsInLogin
  rw [hOption]
  cases hApplied : u.conn.loginView.appliedOptions fixed env with
  | none => exact hAnswer.startKind hRemote wait subService
  | some o =>
      generalize hStart : ({ t with conn := { t.conn with optionsInLogin := none } } : State) = t'
      have hSame : Quiet t t' := by
        rw [← hStart]
        exact .set (.refl t) rfl rfl
      have hKept : t'.conn.isRemote = t.conn.isRemote ∧ t'.conn.authorized = t.conn.authorized := by
        rw [← hStart]
        exact ⟨rfl, rfl⟩
      have hCamera : t'.conn.isAuthedViewCameraConn =
          (u.conn.loginView.authConnType == .viewCamera) :=
        congrArg (fun v : ServiceView => v.authedConnId == some .viewCamera)
          (hQuiet.trans hSame).view
      have hYes : t'.conn.authorized = true :=
        hKept.2.trans (congrArg LoginView.authorized hView)
      have hConfined := (hSafe hKind o hApplied).congr (t := t')
        (congrArg ServiceView.permissions (hQuiet.trans hSame).view)
        (congrArg ServiceView.builtin (hQuiet.trans hSame).view)
      rw [← hCamera] at hConfined
      refine ((hAnswer.quiet hSame).updateOptions hYes hConfined).startKind ?_ wait subService
      rw [isRemote_eq, (keepsLogin_updateOptions fixed env t' o).view, ← isRemote_eq, hKept.1]
      exact hRemote

end Logon

section Messages
variable {fixed : Fixed} {env : Env} {s t : State}

/-- The message finds the kind of the connection asked for, or the flags off, or
asks for nothing new. -/
def MessageConfined (fixed : Fixed) (s : State) : Message → Prop
  | .mouseEvent _ => s.conn.isAuthedViewCameraConn = true ∨
      (s.conn.peerKeyboardEnabled = false ∧ s.conn.showMyCursor = false)
  | .pointerDeviceEvent _ | .keyEvent _ => s.conn.isAuthedViewCameraConn = true ∨
      s.conn.peerKeyboardEnabled = false
  | .screenshotRequest .. => False
  | .voiceCallRequest isConnect _ => isConnect = true ∨ s.conn.isAuthedViewCameraConn = true ∨
      s.subed .audio = false
  | .misc (.switchDisplay display ..) => s.conn.viewCamera = true ∨
      asUsize display = s.conn.displayIdx
  | .misc (.captureDisplays add sub set) => s.conn.viewCamera = true ∨
      captured (add.map asUsize) (sub.map asUsize) (set.map asUsize) = []
  | .misc (.option o) => OptionsConfined fixed s s.conn.isAuthedViewCameraConn o
  | _ => True

theorem MessageConfined.congr {msg : Message} (h : MessageConfined fixed s msg)
    (hConn : t.conn = s.conn) (hBuiltin : t.world.config.builtin = s.world.config.builtin)
    (hSubed : t.subed .audio = s.subed .audio) : MessageConfined fixed t msg := by
  unfold MessageConfined
  rw [hConn, hSubed]
  split
  · exact h
  · exact h
  · exact h
  · exact h
  · exact h
  · exact h
  · exact h
  · exact OptionsConfined.congr h (by rw [hConn]) hBuiltin
  · trivial

/-- A call of a camera connection takes its sound along; for the others it was
not subscribed. -/
theorem Confined.callSwitched (h : Confined fixed s) {accepted : Bool}
    (hCall : CallSwitched accepted s t)
    (hSafe : accepted = true ∨ s.conn.isAuthedViewCameraConn = true ∨ s.subed .audio = false) :
    Confined fixed t := by
  obtain ⟨u, hView, hEmits, rfl⟩ := hCall
  have hServer : u.server = s.server := congrArg ServiceView.server hView
  have hId : u.conn.id = s.conn.id := congrArg ServiceView.id hView
  have hCalling : u.conn.voiceCalling = accepted :=
    congrArg (fun v : ServiceView => v.permissions.voiceCalling) hView
  have hSubed : ∀ name, u.subed name = s.subed name := by
    intro name
    unfold State.subed
    rw [hServer, hId]
  split_ifs with hCamera
  · refine h.mono hEmits (fun name hRemote ht => ?_) fun ht => ?_
    · rcases subed_subscribe ht with ⟨rfl, -⟩ | ⟨-, hu⟩
      · cases hRemote
      · rwa [hSubed] at hu
    · rcases subed_subscribe ht with ⟨-, hOn⟩ | ⟨hNe, -⟩
      · exact hCalling.trans (Bool.and_eq_true_iff.mp hOn).2
      · exact absurd rfl hNe
  · refine h.mono hEmits (fun name _ hu => by rwa [hSubed] at hu) fun hu => ?_
    rw [hSubed] at hu
    rcases hSafe with hYes | hYes | hOff
    · exact hCalling.trans hYes
    · exact absurd hYes hCamera
    · rw [hOff] at hu
      cases hu

theorem Confined.keepsFlags (h : Confined fixed s) (hFlags : KeepsFlags s t)
    (hEmits : Emits (fun effect => effect.isControl = false) s t)
    (hSubed : ∀ name, name.remoteOnly fixed.build = true ∨ name = .audio → t.subed name = true →
      s.subed name = true) : Confined fixed t := by
  have hCalling : t.conn.voiceCalling = s.conn.voiceCalling :=
    congrArg (fun v : ServiceView => v.permissions.voiceCalling) hFlags
  refine h.mono hEmits (fun name hRemote => hSubed name (Or.inl hRemote)) fun ht => ?_
  exact hCalling.trans (h.audio (hSubed _ (Or.inr rfl) ht))

theorem emits_handleSwitchDisplay (s : State) (display width height : Int) :
    Emits (fun effect => effect.isControl = false) s
      (s.handleSwitchDisplay fixed display width height) := by
  rcases handleSwitchDisplay_cases fixed s display width height with hQuiet | ⟨server, -, -, hQuiet⟩
  · exact hQuiet.emits
  · exact hQuiet.emits

theorem emits_captureDisplays (s : State) (add sub set : List Nat) :
    Emits (fun effect => effect.isControl = false) s (s.captureDisplays add sub set) := by
  unfold captureDisplays
  split
  · dsimp only
    split_ifs
    · exact .refl s
    · exact .refl s
  · exact .refl s

theorem Confined.onMouseEvent (h : Confined fixed s) (event : MouseEvent)
    (hSafe : MessageConfined fixed s (.mouseEvent event)) : Confined fixed (s.onMouseEvent env event) := by
  unfold State.onMouseEvent
  split_ifs with hCamera hKeyboard hCursor
  · exact h
  · rcases hSafe with hYes | ⟨hOff, -⟩
    · exact absurd hYes hCamera
    · exact absurd (hKeyboard.symm.trans hOff) (by simp)
  · rcases hSafe with hYes | ⟨-, hOff⟩
    · exact absurd hYes hCamera
    · exact absurd (hCursor.symm.trans hOff) (by simp)
  · exact h.quiet (.set (.refl s) rfl rfl)

theorem Confined.onPointerDeviceEvent (h : Confined fixed s) (event : PointerDeviceEvent)
    (hSafe : MessageConfined fixed s (.pointerDeviceEvent event)) :
    Confined fixed (s.onPointerDeviceEvent env event) := by
  unfold State.onPointerDeviceEvent
  split_ifs with hCamera hKeyboard
  · exact h
  · rcases hSafe with hYes | hOff
    · exact absurd hYes hCamera
    · exact absurd (hKeyboard.symm.trans hOff) (by simp)
  · exact h.quiet (.set (.refl s) rfl rfl)

theorem Confined.onKeyEvent (h : Confined fixed s) (event : KeyEvent)
    (hSafe : MessageConfined fixed s (.keyEvent event)) :
    Confined fixed (s.onKeyEvent fixed env event) := by
  unfold State.onKeyEvent
  dsimp only
  by_cases hCamera : s.conn.isAuthedViewCameraConn = true
  · rw [if_pos hCamera]
    exact h
  · rcases hSafe with hYes | hOff
    · exact absurd hYes hCamera
    · rw [if_neg hCamera, if_neg (by simp [hOff])]
      exact h.quiet (.set (.refl s) rfl rfl)

theorem monitor_of_remoteOnly {name : ServiceName} {idx : Nat}
    (hCamera : s.conn.viewCamera = true) (hVideo : name = .video s.conn.videoSource idx) :
    ¬ (name.remoteOnly fixed.build = true ∨ name = .audio) := by
  rw [hVideo, Connection.videoSource, if_pos hCamera]
  simp [ServiceName.remoteOnly]

/-- The messages of an authorized connection of another kind. -/
theorem Confined.onAuthorizedMessage (h : Confined fixed s) (hYes : s.conn.authorized = true)
    (hKind : s.conn.isRemote = false) {msg : Message} (hIdle : msg.isIdle = false)
    (hSafe : MessageConfined fixed s msg) :
    Confined fixed (s.onAuthorizedMessage fixed env msg).1 := by
  cases msg with
  | mouseEvent event => exact h.onMouseEvent event hSafe
  | pointerDeviceEvent event => exact h.onPointerDeviceEvent event hSafe
  | keyEvent event => exact h.onKeyEvent event hSafe
  | screenshotRequest => exact absurd hSafe id
  | voiceCallRequest isConnect reqTimestamp =>
      cases isConnect with
      | true => exact h.quiet (.emit (.set (.refl s) rfl rfl) rfl)
      | false =>
          refine h.callSwitched (callSwitched_closeVoiceCall s) (Or.inr ?_)
          exact hSafe.resolve_left (by simp)
  | misc misc =>
      cases misc with
      | switchDisplay display width height =>
          refine h.keepsFlags (keepsFlags_handleSwitchDisplay fixed s ..)
            (emits_handleSwitchDisplay s ..) fun name hName hSubed => ?_
          rcases subed_handleSwitchDisplay fixed s hSubed with hOld | ⟨hOther, hVideo⟩
          · exact hOld
          · rcases hSafe with hCamera | hSame
            · exact absurd hName (monitor_of_remoteOnly hCamera hVideo)
            · exact absurd hSame.symm hOther
      | captureDisplays add sub set =>
          refine h.keepsFlags (keepsFlags_captureDisplays s ..) (emits_captureDisplays s ..)
            fun name hName hSubed => ?_
          rcases subed_captureDisplays s hSubed with hOld | rfl | ⟨d, hMem, hVideo⟩
          · exact hOld
          · simp [ServiceName.remoteOnly] at hName
          · rcases hSafe with hCamera | hNone
            · exact absurd hName (monitor_of_remoteOnly hCamera hVideo)
            · rw [hNone] at hMem
              cases hMem
      | option o => exact h.updateOptions hYes hSafe
      | selectedSid sid =>
          simp only [State.onAuthorizedMessage, onMisc]
          unfold onSelectedSid
          dsimp only
          split_ifs
          · exact h.quiet (.emit (.refl s) rfl)
          · split
            · exact h.quiet (.emit (.set (.refl s) rfl rfl) rfl)
            · exact h
          · exact h.trySubCameraDisplays
          · unfold trySubMonitorServices
            rw [hKind]
            exact h
          · exact h
          · exact h
      | _ => cases hIdle
  | loginRequest | auth2fa | switchSidesResponse => exact h
  | _ => cases hIdle

end Messages

end State

/-- A permission is switched in the connection manager. -/
def Input.isSwitch : Input → Bool
  | .cm (.switchPermission ..) => true
  | _ => false

/-- The kind recorded is the one the flags say. -/
def LoginView.Recorded (v : LoginView) : Prop :=
  v.authorized = true → v.authedConnId = some v.authConnType

theorem LoginView.Recorded.authorize {v : LoginView} (h : v.Recorded)
    (options : Option OptionMessage) : (v.authorize options).Recorded := by
  unfold LoginView.authorize
  split_ifs
  · exact h
  · exact fun _ => rfl

namespace Loop
variable (fixed : Fixed)

/-- The event does not reach past the kind of the connection: a message on an
authorized connection of another kind, the end of a call, or the options of a
login that the event grants. -/
def KindSafe (l : Loop) (event : Event) : Prop :=
  (Grants fixed l event → State.LogonConfined fixed event.1 l.state (logonView l event)) ∧
  (l.state.conn.isAuthedRemoteConn = false →
    match event.2 with
    | .peer msg => l.state.conn.authorized = true → l.state.conn.portForwardSocket = none →
        State.MessageConfined fixed l.state msg
    | .cm .closeVoiceCall | .cm (.voiceCallResponse false) =>
        l.state.conn.isAuthedViewCameraConn = true ∨ l.state.subed .audio = false
    | _ => True)

/-- What is known about the kind in every state of a run. -/
structure KindHeld (l : Loop) : Prop where
  untouched : State.Untouched l.state
  recorded : l.running = true → l.state.conn.loginView.Recorded
  confined : l.state.conn.isAuthedRemoteConn = false → State.Confined fixed l.state

section Runs
variable {fixed} {l l' : Loop} {event : Event}

theorem StepCase.recorded (h : StepCase fixed l event l') (hKind : l.state.conn.loginView.Recorded)
    (hRun : l'.running = true) : l'.state.conn.loginView.Recorded := by
  have hStored : ∀ env lr, (l.stored env lr).conn.loginView.Recorded := by
    intro env lr
    rw [← received_view l env] at hKind
    exact hKind
  cases h with
  | ordinary _ hKeeps => rwa [hKeeps.view]
  | closes _ _ hEnd =>
      rw [hEnd] at hRun
      cases hRun
  | @loginRequest env lr _ _ hOutcome hRunning =>
      generalize hEnd : (l'.state, _) = r at hOutcome
      cases hOutcome with
      | late _ hSame =>
          cases hEnd
          rw [hSame]
          exact hStored env lr
      | refused _ _ _ =>
          cases hEnd
          rw [hRunning] at hRun
          cases hRun
      | offline _ _ _ _ _ =>
          cases hEnd
          rw [hRunning] at hRun
          cases hRun
      | waiting hNo _ hView =>
          cases hEnd
          intro hYes
          rw [hView, LoginView.withKind_authorized] at hYes
          exact absurd (hYes.symm.trans hNo) (by simp)
      | accepted _ _ _ hView =>
          cases hEnd
          rw [hView]
          exact fun _ => rfl
  | wrongCode _ hKeeps => rwa [hKeeps.view]
  | rightCode _ hView =>
      rw [hView]
      refine LoginView.Recorded.authorize ?_ _
      exact hKind
  | noSwitch _ hKeeps => rwa [hKeeps.view]
  | wrongSwitch _ _ hKeeps =>
      rw [hKeeps.view]
      exact hStored _ _
  | @rightSwitch env _ lr _ _ _ _ hView =>
      rw [hView]
      refine LoginView.Recorded.authorize ?_ _
      exact hStored env lr
  | authorize hView =>
      rw [hView]
      refine LoginView.Recorded.authorize ?_ _
      exact hKind

theorem KindHeld.step (hInv : KindHeld fixed l) (hRun : l.running = true)
    (hOpen : l.state.conn.closed = false) (hSwitch : event.2.isSwitch = false)
    (hSafe : KindSafe fixed l event) : KindHeld fixed (l.step fixed event) := by
  have hStep := step_case fixed l event hRun hOpen
  have hCase := service_case fixed event hRun hOpen
  refine ⟨hCase.untouched hStep.authorized hInv.untouched, hStep.recorded (hInv.recorded hRun),
    fun hNot => ?_⟩
  obtain ⟨hGrant, hEvent⟩ := hSafe
  have hHeld := hInv.confined
  have hRecorded := hInv.recorded hRun
  generalize l.step fixed event = l' at *
  -- the kind of the connection, where it is not decided by this event
  have same : ∀ {t : State}, t.conn.authedConnId = l.state.conn.authedConnId →
      l'.state.conn.authedConnId = t.conn.authedConnId → l.state.conn.isAuthedRemoteConn = false := by
    intro t ht hl
    unfold Connection.isAuthedRemoteConn at hNot ⊢
    rw [← ht, ← hl]
    exact hNot
  cases hCase with
  | inert hInert =>
      exact (hHeld (same rfl (congrArg LoginView.authedConnId hInert.login))).inert hInert
  | closes hCloses =>
      exact (hHeld (same rfl (congrArg LoginView.authedConnId hCloses.login))).closes hCloses
  | quiet hQuiet =>
      exact (hHeld (same rfl (congrArg ServiceView.authedConnId hQuiet.view))).quiet hQuiet
  | @grants _ _ u hGrants hBefore hView hAfter =>
      have hNo : u.conn.authorized = false :=
        (congrArg ServiceView.authorized hBefore.view).trans hGrants.1
      have hAdmits := State.admits_afterAuthorize fixed event.1 u (State.admits_authorize u hNo)
      have hNone : l.state.conn.isAuthedRemoteConn = false := by
        unfold Connection.isAuthedRemoteConn
        rw [hInv.untouched.kind hGrants.1]
        rfl
      have hKind : l'.state.conn.authedConnId = some u.conn.loginView.authConnType :=
        (congrArg ServiceView.authedConnId hAfter.view).trans
          (congrArg LoginView.authedConnId hAdmits.view)
      have hOther : u.conn.loginView.authConnType ≠ .remote := by
        intro hRemote
        simp [Connection.isAuthedRemoteConn, hKind, hRemote] at hNot
      refine (((hHeld hNone).quiet hBefore).afterAuthorize hOther fun _ o hOption => ?_).quiet hAfter
      rw [hView] at hOther hOption ⊢
      exact (hGrant hGrants hOther o hOption).congr (congrArg ServiceView.permissions hBefore.view)
        (congrArg ServiceView.builtin hBefore.view)
  | @handled env msg _ hAuthorized hSocket hIdle hState =>
      have hReceived := (still_received l env).quiet
      have hConn := received_conn l env
      have hKeeps : l'.state.conn.authedConnId = (l.received env).conn.authedConnId := by
        rw [hState]
        have hYes : (l.received env).conn.authorized = true := by rw [hConn, hAuthorized]
        rcases State.ordinary_onAuthorizedMessage fixed env (by rw [hConn, hOpen]) hYes msg with
          ⟨hKeeps, -⟩ | ⟨hCloses, -⟩
        · exact congrArg LoginView.authedConnId hKeeps.view
        · exact congrArg LoginView.authedConnId hCloses.login
      have hOther := same (by rw [hConn]) hKeeps
      have hRemote : l.state.conn.isRemote = false := by
        rw [State.isRemote_eq, decide_eq_false_iff_not]
        intro hRemote
        have hKind : l.state.conn.authedConnId = some l.state.conn.loginView.authConnType :=
          hRecorded hAuthorized
        simp [Connection.isAuthedRemoteConn, hKind, hRemote] at hOther
      rw [hState]
      refine ((hHeld hOther).quiet hReceived).onAuthorizedMessage (by rw [hConn, hAuthorized])
        (by rw [hConn, hRemote]) hIdle ?_
      exact (hEvent hOther hAuthorized hSocket).congr hConn
        (congrArg ServiceView.builtin hReceived.view) (hReceived.subed _)
  | switchPermission => cases hSwitch
  | @voiceCallResponse _ accepted _ hState =>
      have hKeeps := (State.keepsLogin_handleVoiceCall l.state accepted).view
      rw [← hState] at hKeeps
      have hOther := same rfl (congrArg LoginView.authedConnId hKeeps)
      rw [hState]
      rcases State.callSwitched_handleVoiceCall l.state accepted with hSame | hCall
      · rw [hSame]
        exact hHeld hOther
      · refine (hHeld hOther).callSwitched hCall ?_
        cases accepted with
        | true => exact Or.inl rfl
        | false => exact Or.inr (hEvent hOther)
  | closeVoiceCall hState =>
      have hKeeps := (State.keepsLogin_closeVoiceCall l.state).view
      have hOther := same (congrArg LoginView.authedConnId hKeeps) (by rw [hState]; rfl)
      rw [hState]
      exact ((hHeld hOther).callSwitched (State.callSwitched_closeVoiceCall l.state)
        (Or.inr (hEvent hOther))).quiet (.emit (.refl _) rfl)

/-- In a run all of whose events are safe a connection keeps to its kind. -/
theorem kindHeld_run {start : Loop} (hStart : KindHeld fixed start)
    (hClosed : start.state.conn.closed = false) (events : List Event)
    (hSwitch : ∀ event ∈ events, event.2.isSwitch = false)
    (hSafe : Trace.Along (fun past event => (start.run fixed past).running = true →
      KindSafe fixed (start.run fixed past) event) events) :
    KindHeld fixed (start.run fixed events) := by
  have hBoth : Trace.Along (fun past event => event.2.isSwitch = false ∧
      ((start.run fixed past).running = true → KindSafe fixed (start.run fixed past) event)) events := by
    intro past event rest hSplit
    exact ⟨hSwitch event (by simp [hSplit]), hSafe past event rest hSplit⟩
  refine Trace.invariant (Loop.step fixed) (fun _ l => KindHeld fixed l) hStart
    (fun past event hEvent hInv => ?_) events hBoth
  cases hRun : (start.run fixed past).running with
  | false => rwa [step_stopped fixed _ event hRun]
  | true => exact hInv.step hRun (run_isOpen hClosed past hRun) hEvent.1 (hEvent.2 hRun)

end Runs

section Statement
variable (world : World) (server : Option Server) (now : Nat) (id : Int)
  (ip salt challenge : String) (require2fa : Option Totp) (controlPermissions : Option Nat)

theorem kindHeld_start :
    KindHeld fixed
      (Loop.start fixed world server now id ip salt challenge require2fa controlPermissions) := by
  have hNone : ∀ name, (Loop.start fixed world server now id ip salt challenge require2fa
      controlPermissions).state.subed name = false := fun _ => start_subed ..
  refine ⟨⟨fun _ => rfl, fun _ => rfl, fun _ => rfl⟩, fun _ hYes => ?_, fun _ => ⟨?_, ?_, ?_⟩⟩
  · cases hYes
  · intro effect hMem
    obtain ⟨⟨permission, enabled⟩, -, hSent⟩ := List.mem_filterMap.mp hMem
    cases enabled with
    | true => cases hSent
    | false =>
        cases hSent
        rfl
  · exact fun name _ => hNone name
  · intro hAudio
    rw [hNone] at hAudio
    cases hAudio

/-- A connection that is not authorized for remote control has put nothing on
the input channel, taken no screenshot, and holds none of the subscriptions of
remote control; the sound is for its voice calls. The file clipboard is a
service of the builds that have the feature. -/
theorem confined_of_safe_events (events : List Event) :
    let start := Loop.start fixed world server now id ip salt challenge require2fa controlPermissions
    (∀ event ∈ events, event.2.isSwitch = false) →
    Trace.Along (fun past event => (start.run fixed past).running = true →
      KindSafe fixed (start.run fixed past) event) events →
    let s := (start.run fixed events).state
    s.conn.isAuthedRemoteConn = false →
    (∀ effect ∈ s.effects, effect.isControl = false) ∧
    (∀ idx, s.subed (.video .monitor idx) = false) ∧ s.subed .clipboard = false ∧
    (fixed.build.unixFileCopyPaste = true → s.subed .fileClipboard = false) ∧
    s.subed .mouseCursor = false ∧ s.subed .mousePos = false ∧
    (s.subed .audio = true → s.conn.voiceCalling = true) := by
  intro start hSwitch hSafe s hOther
  obtain ⟨hControl, hSubed, hAudio⟩ := (kindHeld_run (kindHeld_start fixed world server now id ip salt
    challenge require2fa controlPermissions) rfl events hSwitch hSafe).confined hOther
  exact ⟨hControl, fun _ => hSubed _ rfl, hSubed _ rfl, fun hBuild => hSubed .fileClipboard hBuild,
    hSubed _ rfl, hSubed _ rfl, hAudio⟩

end Statement

/-- A key pressed on a camera connection goes nowhere. -/
theorem camera_key_goes_nowhere :
    let world : World := { (default : World) with
      config := { (default : Config) with permanentPassword := "password" } }
    let start := Loop.start default world none 0 1 "10.0.0.1" "salt" "challenge" none none
    let lr : LoginRequest :=
      { password := utf8 "passwordsaltchallenge", union := some .viewCamera }
    let key : KeyEvent := ⟨true, false, some (.chr 97), [], some .legacy⟩
    let events : List Event := [(default, .peer (.loginRequest lr)), (default, .peer (.keyEvent key))]
    let s := (start.run default events).state
    s.conn.authedConnId = some .viewCamera ∧ ∀ effect ∈ s.effects, effect.isControl = false := by
  intro world start lr key events s
  have hKind : s.conn.authedConnId = some .viewCamera := by decide +kernel
  refine ⟨hKind, (confined_of_safe_events default world none 0 1 "10.0.0.1" "salt" "challenge" none
    none events ?_ ?_ ?_).1⟩
  · decide +kernel
  · have hAlong : Trace.Along (fun past event => (start.run default past).running = true →
        KindSafe default (start.run default past) event) ([] ++
          [(default, .peer (.loginRequest lr))] ++ [(default, .peer (.keyEvent key))]) := by
      refine (Trace.along_concat _ _).mpr ⟨(Trace.along_concat _ _).mpr ⟨Trace.Along.nil, ?_⟩, ?_⟩
      · refine fun _ => ⟨fun _ _ o hOption => ?_, fun _ hYes => ?_⟩
        · cases hOption
        · exact absurd hYes (by decide +kernel)
      · refine fun _ => ⟨fun hGrants => absurd hGrants.1 (by decide +kernel), fun _ _ _ => ?_⟩
        exact Or.inl (by decide +kernel)
    exact hAlong
  · decide +kernel

/-- A key pressed on a file transfer connection is typed. -/
theorem file_transfer_types :
    ¬ ∀ (fixed : Fixed) (world : World) (server : Option Server) (now : Nat) (id : Int)
        (ip salt challenge : String) (require2fa : Option Totp) (controlPermissions : Option Nat)
        (events : List Event),
      let start := Loop.start fixed world server now id ip salt challenge require2fa controlPermissions
      (∀ event ∈ events, event.2.isSwitch = false) →
      let s := (start.run fixed events).state
      s.conn.isAuthedRemoteConn = false →
      (∀ effect ∈ s.effects, effect.isControl = false) ∧
      (∀ idx, s.subed (.video .monitor idx) = false) ∧ s.subed .clipboard = false ∧
      (fixed.build.unixFileCopyPaste = true → s.subed .fileClipboard = false) ∧
      s.subed .mouseCursor = false ∧ s.subed .mousePos = false ∧
      (s.subed .audio = true → s.conn.voiceCalling = true) := by
  intro h
  let world : World := { (default : World) with
    config := { (default : Config) with permanentPassword := "password" } }
  let lr : LoginRequest :=
    { password := utf8 "passwordsaltchallenge", union := some (.fileTransfer "" false) }
  let key : KeyEvent := ⟨true, false, some (.chr 97), [], some .legacy⟩
  have hControl := (h default world none 0 1 "10.0.0.1" "salt" "challenge" none none
    [(default, .peer (.loginRequest lr)), (default, .peer (.keyEvent key))] (by decide +kernel)
    (by decide +kernel)).1
  exact absurd hControl (by decide +kernel)

end Loop

end HibtDesk
