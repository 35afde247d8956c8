import HibtDesk.Connection.Services

/-! Which subscriptions a connection may hold. Four services are tied to flags
that the peer and the local user switch, each handler refreshing some of them;
the invariant is that no subscription outlives its flags. -/
namespace HibtDesk

/-- The services tied to flags. The file clipboard is a service of the builds
that have it. -/
def ServiceName.guarded (build : Build) : ServiceName → Bool
  | clipboard | audio | mouseCursor => true
  | fileClipboard => build.unixFileCopyPaste
  | _ => false

/-- The flags allow the subscription. -/
def PermissionView.allows (p : PermissionView) (builtin : String → String) : ServiceName → Bool
  | .clipboard => p.clipboard && !p.disableClipboard && (p.keyboard && !p.disableKeyboard)
      && builtin "one-way-clipboard-redirection" != "Y"
  | .fileClipboard => p.clipboard && !p.disableClipboard && (p.file && p.enableFileTransfer)
      && builtin "one-way-file-transfer" != "Y"
  | .audio => p.audio && !p.disableAudio
  | .mouseCursor => p.keyboard && !p.disableKeyboard || p.showRemoteCursor
  | _ => true

namespace State

/-- The predicates of the source for the guarded services. -/
def allows (s : State) : ServiceName → Bool
  | .clipboard => s.conn.canSubClipboardService s.world.config
  | .fileClipboard => s.conn.canSubFileClipboardService s.world.config
  | .audio => s.conn.audioEnabled
  | .mouseCursor => s.conn.peerKeyboardEnabled || s.conn.showRemoteCursor
  | _ => true

theorem allows_eq (s : State) (name : ServiceName) :
    s.allows name = s.conn.permissionView.allows s.world.config.builtin name := by
  cases name <;> rfl

theorem allows_congr {s t : State} (hPermissions : t.conn.permissionView = s.conn.permissionView)
    (hBuiltin : t.world.config.builtin = s.world.config.builtin) (name : ServiceName) :
    t.allows name = s.allows name := by
  rw [allows_eq, allows_eq, hPermissions, hBuiltin]

/-- Every subscription to a guarded service is one of an authorized connection
whose flags allow it, but for the flags of the services in `stale`. -/
structure Permitted (fixed : Fixed) (stale : List ServiceName) (s : State) : Prop where
  authorized : ∀ name, name.guarded fixed.build = true → s.subed name = true →
    s.conn.authorized = true
  allowed : ∀ name, name.guarded fixed.build = true → s.subed name = true → name ∉ stale →
    s.allows name = true

section Permitted
variable {fixed : Fixed} {stale : List ServiceName} {s t : State} {name : ServiceName} {sub : Bool}

/-- Subscriptions were only taken away, and no flag outside `stale` changed for
the worse. -/
theorem Permitted.mono {less : List ServiceName} (h : Permitted fixed less s)
    (hAuthorized : s.conn.authorized = true → t.conn.authorized = true)
    (hSubed : ∀ name, name.guarded fixed.build = true → t.subed name = true → s.subed name = true)
    (hAllows : ∀ name, name ∉ stale → name ∉ less ∧ (s.allows name = true → t.allows name = true)) :
    Permitted fixed stale t := by
  constructor
  · intro name hGuarded ht
    exact hAuthorized (h.authorized name hGuarded (hSubed name hGuarded ht))
  · intro name hGuarded ht hFresh
    obtain ⟨hLess, hKept⟩ := hAllows name hFresh
    exact hKept (h.allowed name hGuarded (hSubed name hGuarded ht) hLess)

theorem Permitted.keepsFlags (h : Permitted fixed stale s) (hFlags : KeepsFlags s t)
    (hSubed : ∀ name, name.guarded fixed.build = true → t.subed name = true → s.subed name = true) :
    Permitted fixed stale t := by
  have hPermissions := congrArg ServiceView.permissions hFlags
  have hBuiltin := congrArg ServiceView.builtin hFlags
  have hAuthorized : t.conn.authorized = s.conn.authorized := congrArg ServiceView.authorized hFlags
  refine h.mono (fun hYes => hAuthorized.trans hYes) hSubed fun name hFresh => ⟨hFresh, fun hs => ?_⟩
  exact (allows_congr hPermissions hBuiltin name).trans hs

theorem Permitted.view (h : Permitted fixed stale s) (hView : t.serviceView = s.serviceView) :
    Permitted fixed stale t := by
  have hServer : t.server = s.server := congrArg ServiceView.server hView
  have hId : t.conn.id = s.conn.id := congrArg ServiceView.id hView
  refine h.keepsFlags (by unfold KeepsFlags; rw [hServer]; exact hView) fun name _ ht => ?_
  unfold State.subed at *
  rwa [hServer, hId] at ht

theorem Permitted.quiet (h : Permitted fixed stale s) (hQuiet : Quiet s t) :
    Permitted fixed stale t := h.view hQuiet.view

theorem Permitted.inert (h : Permitted fixed stale s) (hInert : Inert s t) :
    Permitted fixed stale t := by
  have hAuthorized : t.conn.authorized = s.conn.authorized :=
    congrArg LoginView.authorized hInert.login
  refine h.mono (fun hYes => hAuthorized.trans hYes) (fun name _ => hInert.subed name) ?_
  intro name hFresh
  exact ⟨hFresh, fun hs => (allows_congr hInert.permissions hInert.builtin name).trans hs⟩

/-- A service that was refreshed is no longer stale. -/
theorem Permitted.refresh (h : Permitted fixed (name :: stale) s)
    (hSub : sub = true → s.conn.authorized = true ∧ s.allows name = true) :
    Permitted fixed stale (s.subscribe name sub) := by
  have hAllows : ∀ n, (s.subscribe name sub).allows n = s.allows n := fun n =>
    allows_congr rfl rfl n
  constructor
  · intro n hGuarded ht
    rcases subed_subscribe ht with ⟨-, hOn⟩ | ⟨-, hs⟩
    · exact (hSub hOn).1
    · exact h.authorized n hGuarded hs
  · intro n hGuarded ht hFresh
    rw [hAllows]
    rcases subed_subscribe ht with ⟨rfl, hOn⟩ | ⟨hNe, hs⟩
    · exact (hSub hOn).2
    · exact h.allowed n hGuarded hs (by simp [hNe, hFresh])

/-- A service that is not guarded may be subscribed at will. -/
theorem Permitted.unguarded (h : Permitted fixed stale s)
    (hName : name.guarded fixed.build = false) : Permitted fixed stale (s.subscribe name sub) := by
  refine h.mono (fun hYes => hYes) ?_ fun n hFresh => ⟨hFresh, fun hs => ?_⟩
  · intro n hGuarded ht
    rcases subed_subscribe ht with ⟨rfl, -⟩ | ⟨-, hs⟩
    · rw [hName] at hGuarded
      cases hGuarded
    · exact hs
  · exact (allows_congr rfl rfl n).trans hs

/-- A stale service whose flags allow it, or that is not subscribed. -/
theorem Permitted.drop (h : Permitted fixed (name :: stale) s)
    (hName : name.guarded fixed.build = true → s.subed name = true → s.allows name = true) :
    Permitted fixed stale s := by
  refine ⟨h.authorized, fun n hGuarded ht hFresh => ?_⟩
  by_cases hEq : n = name
  · subst hEq
    exact hName hGuarded ht
  · exact h.allowed n hGuarded ht (by simp [hEq, hFresh])

end Permitted

section Setters
variable {fixed : Fixed} {stale : List ServiceName} {s : State}

/-- A flag of the connection was changed; the services it bears on are stale. -/
theorem Permitted.flag {less : List ServiceName} (h : Permitted fixed less s) (conn : Connection)
    (hId : conn.id = s.conn.id) (hAuthorized : conn.authorized = s.conn.authorized)
    (hAllows : ∀ name, name ∉ stale → name ∉ less ∧
      (s.allows name = true → State.allows { s with conn := conn } name = true)) :
    Permitted fixed stale { s with conn := conn } := by
  refine h.mono (fun hYes => hAuthorized.trans hYes) ?_ hAllows
  intro name _ ht
  unfold subed at *
  rw [← hId]
  exact ht

theorem Permitted.file (h : Permitted fixed (.fileClipboard :: stale) s)
    (hYes : s.allows .fileClipboard = true → s.conn.authorized = true) :
    Permitted fixed stale (s.refreshFileClipboard fixed) := by
  unfold refreshFileClipboard
  split_ifs with hBuild
  · exact h.refresh fun hOn => ⟨hYes hOn, hOn⟩
  · refine h.drop fun hGuarded => absurd hGuarded ?_
    simpa [ServiceName.guarded] using hBuild

theorem Permitted.audio (h : Permitted fixed (.audio :: stale) s) (hYes : s.conn.authorized = true) :
    Permitted fixed stale (refreshAudio s) := by
  unfold refreshAudio
  split_ifs with hCamera hCall
  · exact h.refresh fun hOn => ⟨hYes, hOn⟩
  · refine h.drop fun _ _ => ?_
    simp only [Bool.or_eq_true, not_or, Bool.not_eq_true', Bool.not_eq_false] at hCall
    exact hCall.2
  · exact h.refresh fun hOn => ⟨hYes, hOn⟩

theorem Permitted.setShowRemoteCursor (h : Permitted fixed stale s)
    (hYes : s.conn.authorized = true) (v : Bool) : Permitted fixed stale (setShowRemoteCursor s v) := by
  unfold State.setShowRemoteCursor
  dsimp only
  refine Permitted.unguarded (Permitted.refresh ?_ fun hOn => ⟨hYes, hOn⟩) rfl
  refine h.flag _ rfl rfl fun name hFresh => ?_
  simp only [List.mem_cons, not_or] at hFresh
  refine ⟨hFresh.2, fun hs => ?_⟩
  cases name <;> first | exact hs | exact absurd rfl hFresh.1

theorem Permitted.setDisableAudio (h : Permitted fixed stale s) (hYes : s.conn.authorized = true)
    (v : Bool) : Permitted fixed stale (setDisableAudio s v) := by
  unfold State.setDisableAudio
  refine Permitted.audio (h.flag _ rfl rfl fun name hFresh => ?_) hYes
  simp only [List.mem_cons, not_or] at hFresh
  refine ⟨hFresh.2, fun hs => ?_⟩
  cases name <;> first | exact hs | exact absurd rfl hFresh.1

theorem Permitted.setEnableFileTransfer (h : Permitted fixed stale s)
    (hYes : s.conn.authorized = true) (v : Bool) :
    Permitted fixed stale (setEnableFileTransfer fixed s v) := by
  have hFlag : Permitted fixed (.fileClipboard :: stale)
      { s with conn := { s.conn with enableFileTransfer := v } } := by
    refine h.flag _ rfl rfl fun name hFresh => ?_
    simp only [List.mem_cons, not_or] at hFresh
    refine ⟨hFresh.2, fun hs => ?_⟩
    cases name <;> first | exact hs | exact absurd rfl hFresh.1
  unfold State.setEnableFileTransfer
  dsimp only
  split_ifs
  · exact (hFlag.quiet (.emit (.emit (.refl _) rfl) rfl)).file fun _ => hYes
  · exact (hFlag.quiet (.emit (.refl _) rfl)).file fun _ => hYes
  · exact (hFlag.quiet (.emit (.refl _) rfl)).file fun _ => hYes
  · exact hFlag.file fun _ => hYes
  · exact h

/-- A clipboard that is disabled leaves the file clipboard stale. -/
theorem Permitted.setDisableClipboard (h : Permitted fixed stale s)
    (hYes : s.conn.authorized = true) (v : Bool) :
    Permitted fixed (if v then .fileClipboard :: stale else stale) (setDisableClipboard s v) := by
  unfold State.setDisableClipboard refreshClipboard
  refine Permitted.refresh (h.flag _ rfl rfl fun name hFresh => ?_) fun hOn => ⟨hYes, hOn⟩
  cases v with
  | true =>
      simp only [if_true, List.mem_cons, not_or] at hFresh
      refine ⟨hFresh.2.2, fun hs => ?_⟩
      cases name <;> first | exact hs | exact absurd rfl hFresh.1 | exact absurd rfl hFresh.2.1
  | false =>
      simp only [Bool.false_eq_true, if_false, List.mem_cons, not_or] at hFresh
      refine ⟨hFresh.2, fun hs => ?_⟩
      cases name with
      | clipboard => exact absurd rfl hFresh.1
      | fileClipboard =>
          simp only [allows, Connection.canSubFileClipboardService, Connection.clipboardEnabled,
            Bool.and_eq_true] at hs ⊢
          exact ⟨⟨⟨hs.1.1.1, rfl⟩, hs.1.2⟩, hs.2⟩
      | _ => exact hs

/-- The keyboard option refreshes all services but audio. -/
theorem Permitted.setDisableKeyboard (h : Permitted fixed (.fileClipboard :: stale) s)
    (hYes : s.conn.authorized = true) (v : Bool) :
    Permitted fixed stale (setDisableKeyboard fixed s v) := by
  have hFlag : Permitted fixed (.clipboard :: .fileClipboard :: .mouseCursor :: stale)
      { s with conn := { s.conn with disableKeyboard := v } } := by
    refine h.flag _ rfl rfl fun name hFresh => ?_
    simp only [List.mem_cons, not_or] at hFresh ⊢
    refine ⟨⟨hFresh.2.1, hFresh.2.2.2⟩, fun hs => ?_⟩
    cases name <;> first | exact hs | exact absurd rfl hFresh.1 | exact absurd rfl hFresh.2.2.1
  unfold State.setDisableKeyboard
  dsimp only
  have hClipboard : Permitted fixed (.fileClipboard :: .mouseCursor :: stale)
      (refreshClipboard { s with conn := { s.conn with disableKeyboard := v } }) :=
    Permitted.refresh hFlag fun hOn => ⟨hYes, hOn⟩
  refine Permitted.refresh (Permitted.file hClipboard fun _ => hYes) fun hOn => ⟨?_, ?_⟩
  · rw [refreshFileClipboard_conn]
    exact hYes
  · exact hOn

theorem authorized_setDisableAudio (v : Bool) :
    (State.setDisableAudio s v).conn.authorized = s.conn.authorized := by
  unfold State.setDisableAudio
  rw [refreshAudio_conn]

theorem authorized_setEnableFileTransfer (v : Bool) :
    (State.setEnableFileTransfer fixed s v).conn.authorized = s.conn.authorized :=
  congrArg LoginView.authorized (keepsLogin_setEnableFileTransfer fixed s v).view

/-- The options up to the file transfer refresh what they change. -/
theorem Permitted.optionsBeforeClipboard (h : Permitted fixed stale s)
    (hYes : s.conn.authorized = true) (o : OptionMessage) :
    Permitted fixed stale (s.optionsBeforeClipboard fixed o) ∧
      (s.optionsBeforeClipboard fixed o).conn.authorized = true := by
  have apply : ∀ (q : Option BoolOption) (set : State → Bool → State) {t : State},
      Permitted fixed stale t ∧ t.conn.authorized = true →
      (∀ t v, Permitted fixed stale t → t.conn.authorized = true →
        Permitted fixed stale (set t v) ∧ (set t v).conn.authorized = true) →
      Permitted fixed stale (whenSet q t set) ∧ (whenSet q t set).conn.authorized = true := by
    intro q set t ht hSet
    exact whenSet_cases (motive := fun t => Permitted fixed stale t ∧ t.conn.authorized = true) t q
      set ht (fun _ => hSet t true ht.1 ht.2) (fun _ => hSet t false ht.1 ht.2)
  have hVideo := quiet_updateVideoOptions s o
  unfold State.optionsBeforeClipboard
  refine apply _ _ (apply _ _ (apply _ _ (apply _ _ (apply _ _ (apply _ _ ⟨h.quiet hVideo, ?_⟩
    ?_) ?_) ?_) ?_) ?_) ?_
  · exact (congrArg ServiceView.authorized hVideo.view).trans hYes
  · exact fun t v ht hAuth => ⟨ht.quiet (.set (.refl t) rfl rfl), hAuth⟩
  · exact fun t v ht hAuth => ⟨ht.setShowRemoteCursor hAuth v, hAuth⟩
  · exact fun t v ht hAuth => ⟨ht.quiet (.set (.refl t) rfl rfl), hAuth⟩
  · exact fun t v ht hAuth => ⟨Permitted.unguarded (ht.quiet (.set (.refl t) rfl rfl)) rfl, hAuth⟩
  · exact fun t v ht hAuth =>
      ⟨ht.setDisableAudio hAuth v, (authorized_setDisableAudio v).trans hAuth⟩
  · exact fun t v ht hAuth =>
      ⟨ht.setEnableFileTransfer hAuth v, (authorized_setEnableFileTransfer v).trans hAuth⟩

theorem Permitted.optionsAfterKeyboard (h : Permitted fixed stale s) (env : Env)
    (o : OptionMessage) : Permitted fixed stale (s.optionsAfterKeyboard env o) := by
  have hLegacy := h.quiet (quiet_updateLegacyOptions s o)
  have hCursor : ∀ t v, Permitted fixed stale t →
      Permitted fixed stale (setShowMyCursor env t v) := by
    intro t v ht
    have hFlag : Permitted fixed stale { t with conn := { t.conn with showMyCursor := v } } :=
      ht.flag _ rfl rfl fun name hFresh => ⟨hFresh, fun hs => by cases name <;> exact hs⟩
    unfold setShowMyCursor
    dsimp only
    split_ifs
    · exact hFlag.quiet (.emit (.refl _) rfl)
    · exact hFlag.quiet (.emit (.refl _) rfl)
    · exact hFlag
  have hPersistent : ∀ t v, Permitted fixed stale t →
      Permitted fixed stale (setTerminalPersistence t v) := by
    intro t v ht
    exact ht.quiet (.emit (.set (.refl t) rfl rfl) rfl)
  unfold State.optionsAfterKeyboard
  have hOption : Permitted fixed stale (whenSet o.terminalPersistent
      ((s.updatePrivacyMode o).updateBlockInput o) setTerminalPersistence) :=
    whenSet_cases _ _ _ hLegacy (fun _ => hPersistent _ true hLegacy)
      fun _ => hPersistent _ false hLegacy
  exact whenSet_cases _ _ _ hOption (fun _ => hCursor _ true hOption) fun _ => hCursor _ false hOption

theorem Permitted.whenClipboard (h : Permitted fixed stale s) (hYes : s.conn.authorized = true)
    (o : OptionMessage) :
    Permitted fixed (.fileClipboard :: stale)
        (whenSet o.disableClipboard s State.setDisableClipboard) ∧
      (whenSet o.disableClipboard s State.setDisableClipboard).conn.authorized = true := by
  have hMore : ∀ t, Permitted fixed stale t → Permitted fixed (.fileClipboard :: stale) t := by
    intro t ht
    refine ht.mono id (fun _ _ => id) fun name hFresh => ⟨?_, id⟩
    simp only [List.mem_cons, not_or] at hFresh
    exact hFresh.2
  exact whenSet_cases (motive := fun t => Permitted fixed (.fileClipboard :: stale) t ∧
    t.conn.authorized = true) s o.disableClipboard _ ⟨hMore s h, hYes⟩
    (fun _ => ⟨h.setDisableClipboard hYes true, hYes⟩)
    (fun _ => ⟨hMore _ (h.setDisableClipboard hYes false), hYes⟩)

theorem updateOptions_world (env : Env) (o : OptionMessage) :
    (s.updateOptions fixed env o).world = s.world := by
  refine updateOptions_induct (motive := fun t => t.world = s.world) fixed env s o rfl
    (fun _ _ _ h => h) (fun _ _ _ h => h) (fun _ _ _ h => h) (fun _ _ _ h => h) (fun _ _ _ h => h)
    ?_ ?_ (fun _ _ _ h => h) ?_ (fun _ _ _ h => h) ?_
  · intro t v _ h
    unfold State.setDisableAudio refreshAudio
    split_ifs <;> exact h
  · intro t v _ h
    unfold State.setEnableFileTransfer refreshFileClipboard
    dsimp only
    split_ifs <;> exact h
  · intro t v _ h
    unfold State.setDisableKeyboard refreshFileClipboard
    dsimp only
    split_ifs <;> exact h
  · intro t v _ h
    unfold setShowMyCursor
    dsimp only
    split_ifs <;> exact h

/-- The options up to the file transfer are an option message of their own. -/
theorem optionsBeforeClipboard_eq (env : Env) (o : OptionMessage) :
    s.optionsBeforeClipboard fixed o =
      s.updateOptions fixed env { o with
        disableClipboard := none, disableKeyboard := none, privacyMode := none, blockInput := none
        terminalPersistent := none, showMyCursor := none } := by
  have hPrivacy : ∀ (t : State) (o : OptionMessage), o.privacyMode = none →
      t.updatePrivacyMode o = t := by
    intro t o h
    unfold updatePrivacyMode
    rw [h]
    exact ite_self t
  rw [updateOptions_eq]
  unfold State.optionsAfterKeyboard
  dsimp only
  rw [hPrivacy _ _ rfl]
  rfl

/-- An option message that disables the clipboard does not leave the file
clipboard behind: the keyboard option refreshes it, or it is not subscribed by
then. -/
def OptionsPermitted (fixed : Fixed) (s : State) (o : OptionMessage) : Prop :=
  fixed.build.unixFileCopyPaste = true → o.disableClipboard = some .yes →
    isSet o.disableKeyboard = true ∨ o.enableFileTransfer = some .no ∨
    (o.enableFileTransfer = some .yes ∧ Connection.canSubFileClipboardService
      { s.conn with enableFileTransfer := true } s.world.config = false) ∨
    (isSet o.enableFileTransfer = false ∧ s.subed .fileClipboard = false)

/-- Where the options disable the clipboard and leave the keyboard alone, the
file clipboard is not subscribed before. -/
theorem OptionsPermitted.not_subed {o : OptionMessage} (hSafe : OptionsPermitted fixed s o)
    (h : Permitted fixed [] (s.optionsBeforeClipboard fixed o))
    (hBuild : fixed.build.unixFileCopyPaste = true) (hClipboard : o.disableClipboard = some .yes)
    (hKeyboard : isSet o.disableKeyboard = false) :
    (s.optionsBeforeClipboard fixed o).subed .fileClipboard = false := by
  by_contra hSubed
  rw [Bool.not_eq_false] at hSubed
  have hAllowed := h.allowed .fileClipboard hBuild hSubed (by simp)
  rw [allows_eq, optionsBeforeClipboard_permissionView, optionsBeforeClipboard_eq default,
    updateOptions_world] at hAllowed
  simp only [PermissionView.allows, Bool.and_eq_true, Bool.not_eq_true', hBuild, or_true,
    if_true] at hAllowed
  rcases hSafe hBuild hClipboard with hSet | hNo | ⟨hYes, hCan⟩ | ⟨hUnset, hOff⟩
  · rw [hKeyboard] at hSet
    cases hSet
  · simp [hNo, applied] at hAllowed
  · have hFlags : s.conn.clipboard = true ∧ s.conn.disableClipboard = false ∧
        s.conn.file = true ∧ (s.world.config.builtin "one-way-file-transfer" != "Y") = true :=
      ⟨hAllowed.1.1.1, hAllowed.1.1.2, hAllowed.1.2.1, hAllowed.2⟩
    simp [Connection.canSubFileClipboardService, Connection.clipboardEnabled,
      Connection.fileTransferEnabled, hFlags] at hCan
  · rw [optionsBeforeClipboard_eq default] at hSubed
    rcases subed_updateOptions fixed default s _ hSubed with hOld | hTouches
    · rw [hOff] at hOld
      cases hOld
    · have hSet : isSet o.enableFileTransfer = true := by
        simpa [OptionMessage.touches, isSet] using hTouches
      rw [hUnset] at hSet
      cases hSet

/-- Where the keyboard option is set, it comes last and refreshes. -/
theorem Permitted.updateOptions_of_set (h : Permitted fixed stale s)
    (hYes : s.conn.authorized = true) (env : Env) {o : OptionMessage}
    (hSet : isSet o.disableKeyboard = true) : Permitted fixed stale (s.updateOptions fixed env o) := by
  obtain ⟨hBefore, hStill⟩ := h.optionsBeforeClipboard hYes o
  obtain ⟨hClipboard, hStill⟩ := hBefore.whenClipboard hStill o
  rw [updateOptions_eq]
  refine Permitted.optionsAfterKeyboard ?_ env o
  rcases hKeyboard : o.disableKeyboard with _ | (_ | _ | _)
  · rw [hKeyboard] at hSet
    cases hSet
  · rw [hKeyboard] at hSet
    cases hSet
  · exact hClipboard.setDisableKeyboard hStill false
  · exact hClipboard.setDisableKeyboard hStill true

theorem updateOptions_of_unset (env : Env) {o : OptionMessage}
    (hUnset : isSet o.disableKeyboard = false) :
    s.updateOptions fixed env o = (whenSet o.disableClipboard (s.optionsBeforeClipboard fixed o)
      State.setDisableClipboard).optionsAfterKeyboard env o := by
  rw [updateOptions_eq]
  dsimp only
  rcases hKeyboard : o.disableKeyboard with _ | (_ | _ | _)
  · rfl
  · rfl
  · rw [hKeyboard] at hUnset
    cases hUnset
  · rw [hKeyboard] at hUnset
    cases hUnset

/-- Where it is not set, the file clipboard may be left behind. -/
theorem Permitted.updateOptions_of_unset (h : Permitted fixed stale s)
    (hYes : s.conn.authorized = true) (env : Env) {o : OptionMessage}
    (hUnset : isSet o.disableKeyboard = false) :
    Permitted fixed (.fileClipboard :: stale) (s.updateOptions fixed env o) := by
  obtain ⟨hBefore, hStill⟩ := h.optionsBeforeClipboard hYes o
  rw [State.updateOptions_of_unset env hUnset]
  exact (hBefore.whenClipboard hStill o).1.optionsAfterKeyboard env o

theorem subed_fileClipboard_of_unset (env : Env) {o : OptionMessage}
    (hUnset : isSet o.disableKeyboard = false)
    (h : (s.updateOptions fixed env o).subed .fileClipboard = true) :
    (s.optionsBeforeClipboard fixed o).subed .fileClipboard = true := by
  rw [State.updateOptions_of_unset env hUnset] at h
  generalize s.optionsBeforeClipboard fixed o = t at *
  have hAfter : ∀ t : State, (t.optionsAfterKeyboard env o).subed .fileClipboard =
      t.subed .fileClipboard := by
    intro t
    have hCursor : ∀ u v, (setShowMyCursor env u v).subed .fileClipboard = u.subed .fileClipboard := by
      intro u v
      unfold setShowMyCursor
      dsimp only
      split_ifs <;> rfl
    rw [← (quiet_updateLegacyOptions t o).subed]
    unfold State.optionsAfterKeyboard
    refine whenSet_cases (motive := fun u => u.subed .fileClipboard = _) _ _ _ ?_ ?_ ?_
    · exact whenSet_cases (motive := fun u => u.subed .fileClipboard = _) _ _ _ rfl
        (fun _ => rfl) fun _ => rfl
    · intro _
      rw [hCursor]
      exact whenSet_cases (motive := fun u => u.subed .fileClipboard = _) _ _ _ rfl
        (fun _ => rfl) fun _ => rfl
    · intro _
      rw [hCursor]
      exact whenSet_cases (motive := fun u => u.subed .fileClipboard = _) _ _ _ rfl
        (fun _ => rfl) fun _ => rfl
  rw [hAfter] at h
  have hOld : ∀ v, (State.setDisableClipboard t v).subed .fileClipboard = true →
      t.subed .fileClipboard = true := by
    intro v hv
    rcases subed_subscribe hv with ⟨hOther, -⟩ | ⟨-, hOld⟩
    · cases hOther
    · exact hOld
  exact whenSet_cases (motive := fun u => u.subed .fileClipboard = true →
    t.subed .fileClipboard = true) t o.disableClipboard _ id (fun _ => hOld true)
    (fun _ => hOld false) h

/-- An option message on an authorized connection. -/
theorem Permitted.updateOptions (h : Permitted fixed [] s) (hYes : s.conn.authorized = true)
    (env : Env) (o : OptionMessage) (hSafe : OptionsPermitted fixed s o) :
    Permitted fixed [] (s.updateOptions fixed env o) := by
  cases hSet : isSet o.disableKeyboard with
  | true => exact h.updateOptions_of_set hYes env hSet
  | false =>
      refine (h.updateOptions_of_unset hYes env hSet).drop fun hBuild hSubed => ?_
      have hBefore := (h.optionsBeforeClipboard hYes o).1
      have hOld := subed_fileClipboard_of_unset env hSet hSubed
      have hAllowed := hBefore.allowed _ hBuild hOld (by simp)
      have hClipboard : o.disableClipboard ≠ some .yes := fun hYes => by
        rw [hSafe.not_subed hBefore hBuild hYes hSet] at hOld
        cases hOld
      rw [allows_eq, optionsBeforeClipboard_permissionView, optionsBeforeClipboard_eq env,
        updateOptions_world] at hAllowed
      rw [allows_eq, updateOptions_permissionView, updateOptions_world]
      simp only [PermissionView.allows, PermissionView.updated, Bool.and_eq_true,
        Bool.not_eq_true'] at hAllowed ⊢
      refine ⟨⟨⟨hAllowed.1.1.1, ?_⟩, hAllowed.1.2⟩, hAllowed.2⟩
      rcases hOption : o.disableClipboard with _ | (_ | _ | _)
      · exact hAllowed.1.1.2
      · exact hAllowed.1.1.2
      · rfl
      · exact absurd hOption hClipboard

end Setters

section Logon
variable {fixed : Fixed} {env : Env} {s t u : State} {v : LoginView}

theorem noperms_allows {name : ServiceName} (hGuarded : name.guarded fixed.build = true)
    (h : name ∉ s.noperms fixed) : s.allows name = true := by
  unfold noperms at h
  simp only [List.mem_append, not_or] at h
  obtain ⟨⟨⟨⟨⟨hCursor, -⟩, -⟩, hClipboard⟩, hFile⟩, hAudio⟩ := h
  cases name with
  | mouseCursor =>
      by_contra hNo
      refine hCursor ?_
      simp only [allows, Bool.or_eq_true, not_or, Bool.not_eq_true] at hNo
      simp [hNo]
  | clipboard => simpa [allows] using hClipboard
  | fileClipboard =>
      have hBuild : fixed.build.unixFileCopyPaste = true := hGuarded
      simpa [allows, hBuild] using hFile
  | audio => simpa [allows] using hAudio
  | _ => rfl

/-- The subscriptions of remote control are those the flags allow. -/
theorem Permitted.trySubMonitorServices (h : Permitted fixed [] s) (hYes : s.conn.authorized = true) :
    Permitted fixed [] (s.trySubMonitorServices fixed env) := by
  unfold State.trySubMonitorServices
  dsimp only
  split_ifs
  · cases hServer : s.server with
    | none => exact h.quiet (.set (.refl s) (by simp [serviceView, hServer]; rfl) rfl)
    | some server =>
        refine ⟨fun _ _ _ => hYes, fun name hGuarded hSubed _ => ?_⟩
        have hAllows : s.allows name = true := by
          rcases Server.isSubed_of_addConnection _ name s.conn.id _ _ hSubed with hOld | ⟨hNot, -⟩
          · refine h.allowed name hGuarded ?_ (by simp)
            unfold State.subed
            rw [hServer]
            exact Server.isSubed_of_ensureService _ _ _ _ hOld
          · exact noperms_allows hGuarded hNot
        rw [← hAllows]
        exact allows_congr rfl rfl name
  · exact h

theorem subed_trySubCameraDisplays {name : ServiceName}
    (h : (s.trySubCameraDisplays fixed env).subed name = true) :
    s.subed name = true ∨ name = .video .camera fixed.primaryCameraIdx := by
  unfold State.trySubCameraDisplays State.subed at *
  cases hServer : s.server with
  | none => simp [hServer] at h
  | some server =>
      simp only [hServer, Option.map_some] at h
      rcases Server.isSubed_of_addCameraConnection _ name s.conn.id _ _ h with hOld | hNew
      · refine Or.inl ?_
        split_ifs at hOld
        · exact Server.isSubed_of_ensureService _ _ _ _ hOld
        · exact hOld
      · exact Or.inr hNew

theorem guarded_trySubCameraDisplays {name : ServiceName} (hName : name.guarded fixed.build = true)
    (h : (s.trySubCameraDisplays fixed env).subed name = true) : s.subed name = true := by
  rcases subed_trySubCameraDisplays h with hOld | rfl
  · exact hOld
  · cases hName

theorem Permitted.trySubCameraDisplays (h : Permitted fixed [] s) :
    Permitted fixed [] (s.trySubCameraDisplays fixed env) := by
  refine h.mono id (fun name hGuarded => guarded_trySubCameraDisplays hGuarded) fun name hFresh => ?_
  exact ⟨hFresh, fun hs => (allows_congr rfl rfl name).trans hs⟩

/-- The keyboard permission is taken away from a connection none of whose
subscriptions depends on it. -/
theorem Permitted.withoutKeyboard (h : Permitted fixed [] s)
    (hLasts : ∀ name, name.guarded fixed.build = true → s.subed name = true →
      s.allows name = true → PermissionView.allows { s.conn.permissionView with keyboard := false }
        s.world.config.builtin name = true) :
    Permitted fixed [] { s with conn := { s.conn with keyboard := false } } := by
  refine ⟨h.authorized, fun name hGuarded hSubed hFresh => ?_⟩
  rw [allows_eq]
  exact hLasts name hGuarded hSubed (h.allowed name hGuarded hSubed hFresh)

/-- What the options of a login ask for is allowed without the keyboard too,
which terminal and camera connections lose after their options. -/
def LastsWithoutKeyboard (fixed : Fixed) (s : State) (o : OptionMessage) : Prop :=
  ∀ name : ServiceName, name.guarded fixed.build = true → o.touches name = true →
    let p := s.conn.permissionView.updated fixed.build o
    p.allows s.world.config.builtin name = true →
      PermissionView.allows { p with keyboard := false } s.world.config.builtin name = true

/-- The options of a login leave no subscription behind. -/
def LogonPermitted (fixed : Fixed) (env : Env) (s : State) (v : LoginView) : Prop :=
  ∀ o, v.appliedOptions fixed env = some o → OptionsPermitted fixed s o ∧
    (v.fileTransfer = none → v.terminal = true ∨ v.viewCamera = true → LastsWithoutKeyboard fixed s o)

/-- What a kind of connection starts with. -/
theorem Permitted.startKind (h : Permitted fixed [] s) (hYes : s.conn.authorized = true)
    (wait subService : Bool)
    (hLasts : s.conn.fileTransfer = none → s.conn.terminal = true ∨ s.conn.viewCamera = true →
      ∀ name, name.guarded fixed.build = true → s.subed name = true → s.allows name = true →
        PermissionView.allows { s.conn.permissionView with keyboard := false }
          s.world.config.builtin name = true) :
    Permitted fixed [] (s.startKind fixed env wait subService) := by
  unfold State.startKind
  split
  · split_ifs <;> first | exact h.quiet (.set (.refl s) rfl rfl) | exact h.quiet (.emit (.refl s) rfl)
  · rename_i hFile
    split_ifs with hTerminal hCamera hSub
    · refine (h.withoutKeyboard (hLasts hFile (Or.inl hTerminal))).quiet ?_
      unfold initTerminalService
      split
      · exact .set (.refl _) rfl rfl
      · exact .refl _
    · have hCamera := h.withoutKeyboard (hLasts hFile (Or.inr hCamera))
      exact hCamera.quiet (.emit (.refl _) rfl)
    · have hKinds := hLasts hFile (Or.inr hCamera)
      have hCameras : Permitted fixed [] (s.trySubCameraDisplays fixed env) := h.trySubCameraDisplays
      refine Permitted.quiet (hCameras.withoutKeyboard ?_) (.emit (.refl _) rfl)
      intro name hGuarded hSubed hAllows
      exact hKinds name hGuarded (guarded_trySubCameraDisplays hGuarded hSubed)
        ((allows_congr rfl rfl name).trans hAllows)
    · exact h.trySubMonitorServices hYes
    · exact h

theorem OptionsPermitted.congr {o : OptionMessage} (h : OptionsPermitted fixed s o)
    (hPermissions : t.conn.permissionView = s.conn.permissionView)
    (hBuiltin : t.world.config.builtin = s.world.config.builtin)
    (hSubed : t.subed .fileClipboard = s.subed .fileClipboard) : OptionsPermitted fixed t o := by
  have hCan : ∀ s : State, Connection.canSubFileClipboardService
      { s.conn with enableFileTransfer := true } s.world.config =
      PermissionView.allows { s.conn.permissionView with enableFileTransfer := true }
        s.world.config.builtin .fileClipboard := fun _ => rfl
  unfold OptionsPermitted at *
  rwa [hCan, hPermissions, hBuiltin, hSubed, ← hCan]

theorem LogonPermitted.quiet (h : LogonPermitted fixed env s v) (hQuiet : Quiet s t) :
    LogonPermitted fixed env t v := by
  have hPermissions : t.conn.permissionView = s.conn.permissionView :=
    congrArg ServiceView.permissions hQuiet.view
  have hBuiltin : t.world.config.builtin = s.world.config.builtin :=
    congrArg ServiceView.builtin hQuiet.view
  intro o hOption
  obtain ⟨hSafe, hLasts⟩ := h o hOption
  refine ⟨hSafe.congr hPermissions hBuiltin (hQuiet.subed _), fun hFile hKind => ?_⟩
  unfold LastsWithoutKeyboard at *
  rw [hPermissions, hBuiltin]
  exact hLasts hFile hKind

/-- A connection that is authorized here had no guarded subscription, and gets
those its flags allow. -/
theorem Permitted.afterAuthorize (h : Permitted fixed [] u) (hNo : u.conn.authorized = false)
    (hSafe : LogonPermitted fixed env u u.conn.loginView) :
    Permitted fixed [] (u.authorize.afterAuthorize fixed env) := by
  have hNone : ∀ name, name.guarded fixed.build = true → u.subed name = false := by
    intro name hGuarded
    by_contra hSubed
    have hYes := h.authorized name hGuarded (by simpa using hSubed)
    rw [hNo] at hYes
    cases hYes
  have hAuthorize : Permitted fixed [] u.authorize :=
    ⟨fun _ _ _ => rfl, fun name hGuarded hSubed _ =>
      absurd (hSubed.symm.trans (hNone name hGuarded)) (by simp)⟩
  rcases afterAuthorize_cases fixed env u.authorize with
    hQuiet | ⟨t, wait, subService, hOptions, hQuiet, hView, hEq⟩
  · exact hAuthorize.quiet hQuiet
  rw [hEq]
  have hAnswer := hAuthorize.quiet hQuiet
  have hYes : t.conn.authorized = true := congrArg LoginView.authorized hView
  have hOff : ∀ name, name.guarded fixed.build = true → t.subed name = false := by
    intro name hGuarded
    rw [hQuiet.subed]
    exact hNone name hGuarded
  have hOption : t.conn.optionsInLogin = u.conn.loginView.appliedOptions fixed env :=
    (congrArg LoginView.optionsInLogin hView).trans hOptions.symm
  unfold applyOptionsInLogin
  rw [hOption]
  cases hApplied : u.conn.loginView.appliedOptions fixed env with
  | none =>
      refine hAnswer.startKind hYes wait subService fun _ _ name hGuarded hSubed => ?_
      exact absurd (hSubed.symm.trans (hOff name hGuarded)) (by simp)
  | some o =>
      obtain ⟨hOptionsSafe, hLasts⟩ := hSafe o hApplied
      generalize hStart : ({ t with conn := { t.conn with optionsInLogin := none } } : State) = t'
      have hSame : Quiet t t' := by
        rw [← hStart]
        exact .set (.refl t) rfl rfl
      have hPermissions : t'.conn.permissionView = u.conn.permissionView :=
        congrArg ServiceView.permissions (hQuiet.trans hSame).view
      have hBuiltin : t'.world.config.builtin = u.world.config.builtin :=
        congrArg ServiceView.builtin (hQuiet.trans hSame).view
      have hYes' : t'.conn.authorized = true := by
        rw [← hStart]
        exact hYes
      have hKinds : t'.conn.fileTransfer = u.conn.fileTransfer ∧
          t'.conn.terminal = u.conn.terminal ∧ t'.conn.viewCamera = u.conn.viewCamera := by
        rw [← hStart]
        exact ⟨congrArg LoginView.fileTransfer hView, congrArg LoginView.terminal hView,
          congrArg LoginView.viewCamera hView⟩
      have hKeeps := (keepsLogin_updateOptions fixed env t' o).view
      have hUpdated := (hAnswer.quiet hSame).updateOptions hYes' env o
        (hOptionsSafe.congr hPermissions hBuiltin ((hQuiet.trans hSame).subed _))
      refine hUpdated.startKind ((congrArg LoginView.authorized hKeeps).trans hYes') wait subService ?_
      intro hFile hKind name hGuarded hSubed hAllows
      have hFile : u.conn.fileTransfer = none :=
        hKinds.1.symm.trans ((congrArg LoginView.fileTransfer hKeeps).symm.trans hFile)
      have hKind : u.conn.terminal = true ∨ u.conn.viewCamera = true := by
        rw [← hKinds.2.1, ← hKinds.2.2]
        exact hKind.imp (congrArg LoginView.terminal hKeeps).symm.trans
          (congrArg LoginView.viewCamera hKeeps).symm.trans
      have hTouches : o.touches name = true := by
        rcases subed_updateOptions fixed env t' o hSubed with hOld | hTouches
        · rw [hSame.subed, hOff name hGuarded] at hOld
          cases hOld
        · exact hTouches
      rw [allows_eq] at hAllows
      rw [updateOptions_permissionView, updateOptions_world, hPermissions, hBuiltin] at *
      exact hLasts hFile hKind name hGuarded hTouches hAllows

end Logon

section Messages
variable {fixed : Fixed} {env : Env} {s t : State}

/-- Before the login the peer has switched no flag. -/
structure Untouched (s : State) : Prop where
  kind : s.conn.authorized = false → s.conn.authedConnId = none
  cursor : s.conn.authorized = false → s.conn.showRemoteCursor = false
  file : s.conn.authorized = false → s.conn.enableFileTransfer = false

theorem Permitted.callSwitched (h : Permitted fixed [] s) (hKept : Untouched s) {accepted : Bool}
    (hCall : CallSwitched accepted s t) : Permitted fixed [] t := by
  obtain ⟨u, hView, -, rfl⟩ := hCall
  have hServer : u.server = s.server := congrArg ServiceView.server hView
  have hId : u.conn.id = s.conn.id := congrArg ServiceView.id hView
  have hAuthorized : u.conn.authorized = s.conn.authorized := congrArg ServiceView.authorized hView
  have hAllows : ∀ name, u.allows name = s.allows name := by
    intro name
    have hPermissions : u.conn.permissionView = _ := congrArg ServiceView.permissions hView
    have hBuiltin : u.world.config.builtin = _ := congrArg ServiceView.builtin hView
    rw [allows_eq, allows_eq, hPermissions, hBuiltin]
    cases name <;> rfl
  have hSwitched : ∀ stale, Permitted fixed stale u := by
    intro stale
    refine h.mono hAuthorized.trans (fun name _ hu => ?_) fun name _ => ⟨by simp, (hAllows name).trans⟩
    unfold State.subed at *
    rwa [hServer, hId] at hu
  split_ifs with hCamera
  · refine (hSwitched _).refresh fun hOn => ⟨?_, ?_⟩
    · by_contra hNo
      have hNone := hKept.kind (by rw [← hAuthorized]; simpa using hNo)
      simp [Connection.isAuthedViewCameraConn, hNone] at hCamera
    · rw [hAllows]
      exact (Bool.and_eq_true_iff.mp hOn).1
  · exact hSwitched _

/-- The messages of an authorized connection keep to the flags, if the options
among them do. -/
theorem Permitted.onAuthorizedMessage (h : Permitted fixed [] s) (hKept : Untouched s)
    (hYes : s.conn.authorized = true) {msg : Message} (hIdle : msg.isIdle = false)
    (hSafe : ∀ o, msg = .misc (.option o) → OptionsPermitted fixed s o) :
    Permitted fixed [] (s.onAuthorizedMessage fixed env msg).1 := by
  cases msg with
  | mouseEvent event => exact h.view (serviceView_onMouseEvent env s event)
  | pointerDeviceEvent event => exact h.view (serviceView_onPointerDeviceEvent env s event)
  | keyEvent event => exact h.view (serviceView_onKeyEvent fixed env s event)
  | voiceCallRequest isConnect reqTimestamp =>
      cases isConnect with
      | true => exact h.view rfl
      | false => exact h.callSwitched hKept (callSwitched_closeVoiceCall s)
  | screenshotRequest display sid => exact h.view rfl
  | misc misc =>
      cases misc with
      | switchDisplay display width height =>
          refine h.keepsFlags (keepsFlags_handleSwitchDisplay fixed s ..) fun name hGuarded hSubed => ?_
          rcases subed_handleSwitchDisplay fixed s hSubed with hOld | ⟨-, rfl⟩
          · exact hOld
          · cases hGuarded
      | captureDisplays add sub set =>
          refine h.keepsFlags (keepsFlags_captureDisplays s ..) fun name hGuarded hSubed => ?_
          rcases subed_captureDisplays s hSubed with hOld | rfl | ⟨d, -, rfl⟩
          · exact hOld
          · cases hGuarded
          · cases hGuarded
      | option o => exact h.updateOptions hYes env o (hSafe o rfl)
      | selectedSid sid =>
          simp only [State.onAuthorizedMessage, onMisc]
          unfold onSelectedSid
          dsimp only
          split_ifs
          · exact h.view rfl
          · split <;> exact h.view rfl
          · exact h.trySubCameraDisplays
          · exact h.trySubMonitorServices hYes
          · exact h
          · exact h
      | _ => cases hIdle
  | loginRequest | auth2fa | switchSidesResponse => exact h
  | _ => cases hIdle

end Messages

section Switches
variable {fixed : Fixed} {s : State}

/-- Permissions are switched on only after the login, the keyboard only where
the peer has not disabled it or shows the cursor all the same, and the clipboard
is not switched off while the file clipboard is subscribed. -/
def SwitchPermitted (fixed : Fixed) (s : State) (name : Permission) (enabled : Bool) : Prop :=
  match name, enabled with
  | .keyboard, true => s.conn.authorized = true ∧
      (s.conn.disableKeyboard = false ∨ s.conn.showRemoteCursor = true)
  | .clipboard, true => s.conn.authorized = true ∨
      Connection.canSubClipboardService { s.conn with clipboard := true } s.world.config = false
  | .clipboard, false => fixed.build.unixFileCopyPaste = true → s.subed .fileClipboard = false
  | _, _ => True

theorem Permitted.switchKeyboard (h : Permitted fixed [] s) (hKept : Untouched s) {enabled : Bool}
    (hSafe : SwitchPermitted fixed s .keyboard enabled) :
    Permitted fixed [] (s.switchPermission fixed .keyboard enabled) := by
  have hFlag : Permitted fixed [.clipboard, .fileClipboard, .mouseCursor]
      { s with conn := { s.conn with keyboard := enabled } } := by
    refine h.flag _ rfl rfl fun name hFresh => ⟨by simp, fun hs => ?_⟩
    cases name <;> first | exact hs | simp at hFresh
  have hFile : s.conn.enableFileTransfer = true → s.conn.authorized = true := by
    intro hOn
    by_contra hNo
    rw [hKept.file (by simpa using hNo)] at hOn
    cases hOn
  have hCursor : s.conn.showRemoteCursor = true → s.conn.authorized = true := by
    intro hOn
    by_contra hNo
    rw [hKept.cursor (by simpa using hNo)] at hOn
    cases hOn
  have hSent := hFlag.quiet (.emit (.refl _) rfl :
    Quiet _ (State.sendPermission { s with conn := { s.conn with keyboard := enabled } } .keyboard enabled))
  have hKeyboard : Connection.canSubClipboardService { s.conn with keyboard := enabled }
      s.world.config = true → s.conn.authorized = true := by
    intro hOn
    cases enabled with
    | true => exact hSafe.1
    | false => simp [Connection.canSubClipboardService, Connection.peerKeyboardEnabled] at hOn
  have hClipboard : Permitted fixed [.fileClipboard, .mouseCursor] (State.refreshClipboard
      (State.sendPermission { s with conn := { s.conn with keyboard := enabled } } .keyboard enabled)) :=
    Permitted.refresh hSent fun hOn => ⟨hKeyboard hOn, hOn⟩
  have hRefreshed := hClipboard.file fun hOn => hFile (Bool.and_eq_true_iff.mp
    (Bool.and_eq_true_iff.mp (Bool.and_eq_true_iff.mp hOn).1).2).2
  unfold State.switchPermission
  refine hRefreshed.refresh fun hOn => ?_
  simp only [allows, refreshFileClipboard_conn] at hOn ⊢
  cases enabled with
  | true =>
      refine ⟨hSafe.1, ?_⟩
      rcases hSafe.2 with hNotDisabled | hShow
      · simp [sendPermission, send, Connection.peerKeyboardEnabled, hNotDisabled]
      · simp [sendPermission, send, hShow]
  | false =>
      have hShow : s.conn.showRemoteCursor = true := hOn
      exact ⟨hCursor hShow, by simp [sendPermission, send, hShow]⟩

theorem Permitted.switchClipboard (h : Permitted fixed [] s) {enabled : Bool}
    (hSafe : SwitchPermitted fixed s .clipboard enabled) :
    Permitted fixed [] (s.switchPermission fixed .clipboard enabled) := by
  have hSent : ∀ stale, Permitted fixed stale { s with conn := { s.conn with clipboard := enabled } } →
      Permitted fixed stale (State.sendPermission { s with conn := { s.conn with clipboard := enabled } }
        .clipboard enabled) := fun stale hFlag => hFlag.quiet (.emit (.refl _) rfl)
  cases enabled with
  | true =>
      refine (hSent [.clipboard] ?_).refresh fun hOn => ⟨?_, hOn⟩
      · refine h.flag _ rfl rfl fun name hFresh => ⟨by simp, fun hs => ?_⟩
        cases name with
        | clipboard => simp at hFresh
        | fileClipboard =>
            simp only [allows, Connection.canSubFileClipboardService, Connection.clipboardEnabled,
              Bool.and_eq_true] at hs ⊢
            exact ⟨⟨⟨trivial, hs.1.1.2⟩, hs.1.2⟩, hs.2⟩
        | _ => exact hs
      · rcases hSafe with hYes | hCan
        · exact hYes
        · exact absurd (hOn.symm.trans hCan) (by simp)
  | false =>
      refine (Permitted.drop (hSent [.fileClipboard, .clipboard] ?_) fun hGuarded hSubed => ?_).refresh
        fun hOn => ?_
      · refine h.flag _ rfl rfl fun name hFresh => ⟨by simp, fun hs => ?_⟩
        cases name <;> first | exact hs | simp at hFresh
      · exact absurd (hSubed.symm.trans (hSafe hGuarded)) (by simp)
      · have hOff : Connection.canSubClipboardService { s.conn with clipboard := false }
            s.world.config = true := hOn
        simp [Connection.canSubClipboardService, Connection.clipboardEnabled] at hOff

theorem Permitted.switchAudio (h : Permitted fixed [] s) (enabled : Bool) :
    Permitted fixed [] (s.switchPermission fixed .audio enabled) := by
  have hFlag : Permitted fixed [.audio] { s with conn := { s.conn with audio := enabled } } := by
    refine h.flag _ rfl rfl fun name hFresh => ⟨by simp, fun hs => ?_⟩
    cases name <;> first | exact hs | simp at hFresh
  have hSent := hFlag.quiet (.emit (.refl _) rfl :
    Quiet _ (State.sendPermission { s with conn := { s.conn with audio := enabled } } .audio enabled))
  unfold State.switchPermission
  dsimp only
  split_ifs with hYes
  · exact hSent.audio hYes
  · exact hSent.drop fun hGuarded hSubed => absurd (hSent.authorized _ hGuarded hSubed) hYes

theorem Permitted.switchFile (h : Permitted fixed [] s) (hKept : Untouched s) (enabled : Bool) :
    Permitted fixed [] (s.switchPermission fixed .file enabled) := by
  have hFlag : Permitted fixed [.fileClipboard] { s with conn := { s.conn with file := enabled } } := by
    refine h.flag _ rfl rfl fun name hFresh => ⟨by simp, fun hs => ?_⟩
    cases name <;> first | exact hs | simp at hFresh
  have hYes : s.conn.enableFileTransfer = true → s.conn.authorized = true := by
    intro hOn
    by_contra hNo
    rw [hKept.file (by simpa using hNo)] at hOn
    cases hOn
  unfold State.switchPermission
  dsimp only
  have hSent : Quiet { s with conn := { s.conn with file := enabled } }
      (State.sendPermission { s with conn := { s.conn with file := enabled } } .file enabled) :=
    .emit (.refl _) rfl
  split_ifs
  · refine (hFlag.quiet (hSent.emit rfl)).file fun hOn => hYes ?_
    exact (Bool.and_eq_true_iff.mp (Bool.and_eq_true_iff.mp (Bool.and_eq_true_iff.mp hOn).1).2).2
  · refine (hFlag.quiet hSent).file fun hOn => hYes ?_
    exact (Bool.and_eq_true_iff.mp (Bool.and_eq_true_iff.mp (Bool.and_eq_true_iff.mp hOn).1).2).2

theorem Permitted.switchPermission (h : Permitted fixed [] s) (hKept : Untouched s)
    {name : Permission} {enabled : Bool} (hSafe : SwitchPermitted fixed s name enabled) :
    Permitted fixed [] (s.switchPermission fixed name enabled) := by
  cases name with
  | keyboard => exact h.switchKeyboard hKept hSafe
  | clipboard => exact h.switchClipboard hSafe
  | audio => exact h.switchAudio enabled
  | file => exact h.switchFile hKept enabled
  | restart | recording | blockInput => exact h.view rfl

/-- The peer's own flags are not for the connection manager to switch. -/
theorem switchPermission_flags (fixed : Fixed) (s : State) (name : Permission) (enabled : Bool) :
    (s.switchPermission fixed name enabled).conn.showRemoteCursor = s.conn.showRemoteCursor ∧
      (s.switchPermission fixed name enabled).conn.enableFileTransfer =
        s.conn.enableFileTransfer := by
  cases name with
  | keyboard =>
      unfold State.switchPermission
      dsimp only
      rw [subscribe_conn, refreshFileClipboard_conn]
      exact ⟨rfl, rfl⟩
  | audio =>
      unfold State.switchPermission
      dsimp only
      split_ifs
      · rw [refreshAudio_conn]
        exact ⟨rfl, rfl⟩
      · exact ⟨rfl, rfl⟩
  | file =>
      unfold State.switchPermission
      dsimp only
      rw [refreshFileClipboard_conn]
      split_ifs <;> exact ⟨rfl, rfl⟩
  | _ => exact ⟨rfl, rfl⟩

end Switches

end State

namespace Loop
variable (fixed : Fixed)

/-- The event leaves no subscription without its flags: a switch, an option
message of the peer, or the options of a login that the event grants. -/
def PermissionSafe (l : Loop) (event : Event) : Prop :=
  (Grants fixed l event → State.LogonPermitted fixed event.1 l.state (logonView l event)) ∧
  match event.2 with
  | .cm (.switchPermission name enabled) => State.SwitchPermitted fixed l.state name enabled
  | .peer (.misc (.option o)) => l.state.conn.authorized = true →
      l.state.conn.portForwardSocket = none → State.OptionsPermitted fixed l.state o
  | _ => True

/-- What is known about the subscriptions in every state of a run. -/
structure PermissionsHeld (l : Loop) : Prop where
  permitted : State.Permitted fixed [] l.state
  untouched : State.Untouched l.state

section Runs
variable {fixed} {l l' : Loop} {event : Event}

/-- As long as the connection is not authorized the peer switches no flag. -/
theorem ServiceCase.untouched (h : ServiceCase fixed l event l')
    (hStep : l.state.conn.authorized = true → l'.state.conn.authorized = true)
    (hKept : State.Untouched l.state) : State.Untouched l'.state := by
  have granted : l'.state.conn.authorized = true → State.Untouched l'.state := by
    intro hYes
    constructor <;> (intro hNo; rw [hYes] at hNo; cases hNo)
  have same : l'.state.conn.authorized = l.state.conn.authorized →
      l'.state.conn.authedConnId = l.state.conn.authedConnId →
      l'.state.conn.showRemoteCursor = l.state.conn.showRemoteCursor →
      l'.state.conn.enableFileTransfer = l.state.conn.enableFileTransfer →
      State.Untouched l'.state := by
    intro hAuthorized hKind hCursor hFile
    constructor
    · rw [hAuthorized, hKind]
      exact hKept.kind
    · rw [hAuthorized, hCursor]
      exact hKept.cursor
    · rw [hAuthorized, hFile]
      exact hKept.file
  have call : ∀ {t : State} {accepted : Bool}, State.CallSwitched accepted l.state t →
      l'.state.serviceView = t.serviceView → State.Untouched l'.state := by
    rintro t accepted ⟨u, hView, -, rfl⟩ hSame
    have hFlags : l'.state.serviceView = { l.state.serviceView with
        permissions := { l.state.conn.permissionView with voiceCalling := accepted }
        server := l'.state.server } := by
      have hServer : l'.state.server = _ := congrArg ServiceView.server hSame
      rw [hServer, hSame]
      split_ifs <;> (rw [State.serviceView, State.serviceView] at *; simp_all)
    exact same (congrArg ServiceView.authorized hFlags) (congrArg ServiceView.authedConnId hFlags)
      (congrArg (fun v : ServiceView => v.permissions.showRemoteCursor) hFlags)
      (congrArg (fun v : ServiceView => v.permissions.enableFileTransfer) hFlags)
  cases h with
  | inert hInert =>
      exact same (congrArg LoginView.authorized hInert.login)
        (congrArg LoginView.authedConnId hInert.login)
        (congrArg PermissionView.showRemoteCursor hInert.permissions)
        (congrArg PermissionView.enableFileTransfer hInert.permissions)
  | closes hCloses =>
      exact same (congrArg LoginView.authorized hCloses.login)
        (congrArg LoginView.authedConnId hCloses.login)
        (congrArg PermissionView.showRemoteCursor hCloses.permissions)
        (congrArg PermissionView.enableFileTransfer hCloses.permissions)
  | quiet hQuiet =>
      exact same (congrArg ServiceView.authorized hQuiet.view)
        (congrArg ServiceView.authedConnId hQuiet.view)
        (congrArg (fun v : ServiceView => v.permissions.showRemoteCursor) hQuiet.view)
        (congrArg (fun v : ServiceView => v.permissions.enableFileTransfer) hQuiet.view)
  | grants hGrants hBefore hView hAfter => exact granted (authorized_of_grants hGrants hBefore hAfter)
  | handled hAuthorized => exact granted (hStep hAuthorized)
  | @switchPermission _ name enabled _ hState =>
      have hKeeps := (State.keepsLogin_switchPermission fixed l.state name enabled).view
      obtain ⟨hCursor, hFile⟩ := State.switchPermission_flags fixed l.state name enabled
      rw [← hState] at hKeeps hCursor hFile
      exact same (congrArg LoginView.authorized hKeeps) (congrArg LoginView.authedConnId hKeeps)
        hCursor hFile
  | voiceCallResponse hState =>
      rcases State.callSwitched_handleVoiceCall l.state _ with hSame | hCall
      · rw [hState, hSame]
        exact hKept
      · exact call hCall (by rw [hState])
  | closeVoiceCall hState =>
      exact call (State.callSwitched_closeVoiceCall l.state) (by rw [hState]; rfl)

theorem PermissionsHeld.step (hInv : PermissionsHeld fixed l) (hRun : l.running = true)
    (hOpen : l.state.conn.closed = false) (hSafe : PermissionSafe fixed l event) :
    PermissionsHeld fixed (l.step fixed event) := by
  have hCase := service_case fixed event hRun hOpen
  have hStep := (step_case fixed l event hRun hOpen).authorized
  refine ⟨?_, hCase.untouched hStep hInv.untouched⟩
  have hHeld := hInv.permitted
  generalize l.step fixed event = l' at *
  cases hCase with
  | inert hInert => exact hHeld.inert hInert
  | closes hCloses =>
      refine hHeld.mono (congrArg LoginView.authorized hCloses.login).trans
        (fun name _ => hCloses.subed name) fun name hFresh => ⟨hFresh, fun hs => ?_⟩
      exact (State.allows_congr hCloses.permissions hCloses.builtin name).trans hs
  | quiet hQuiet => exact hHeld.quiet hQuiet
  | grants hGrants hBefore hView hAfter =>
      have hNo : _ = false := (congrArg ServiceView.authorized hBefore.view).trans hGrants.1
      refine ((hHeld.quiet hBefore).afterAuthorize hNo ?_).quiet hAfter
      rw [hView]
      exact (hSafe.1 hGrants).quiet hBefore
  | @handled env msg _ hAuthorized hSocket hIdle hState =>
      have hReceived := (still_received l env).quiet
      have hYes : (l.received env).conn.authorized = true :=
        (congrArg ServiceView.authorized hReceived.view).trans hAuthorized
      rw [hState]
      refine (hHeld.quiet hReceived).onAuthorizedMessage ?_ hYes hIdle ?_
      · constructor <;> (intro hNo; rw [hYes] at hNo; cases hNo)
      · rintro o rfl
        exact (hSafe.2 hAuthorized hSocket).congr (congrArg ServiceView.permissions hReceived.view)
          (congrArg ServiceView.builtin hReceived.view) (hReceived.subed _)
  | switchPermission hState =>
      rw [hState]
      exact hHeld.switchPermission hInv.untouched hSafe.2
  | voiceCallResponse hState =>
      rw [hState]
      rcases State.callSwitched_handleVoiceCall l.state _ with hSame | hCall
      · rwa [hSame]
      · exact hHeld.callSwitched hInv.untouched hCall
  | closeVoiceCall hState =>
      rw [hState]
      exact (hHeld.callSwitched hInv.untouched (State.callSwitched_closeVoiceCall l.state)).view rfl

/-- In a run all of whose events are safe no subscription outlives its flags. -/
theorem permissionsHeld_run {start : Loop} (hStart : PermissionsHeld fixed start)
    (hClosed : start.state.conn.closed = false) (events : List Event)
    (hSafe : Trace.Along (fun past event => (start.run fixed past).running = true →
      PermissionSafe fixed (start.run fixed past) event) events) :
    PermissionsHeld fixed (start.run fixed events) := by
  refine Trace.invariant (Loop.step fixed) (fun _ l => PermissionsHeld fixed l) hStart
    (fun past event hEvent hInv => ?_) events hSafe
  cases hRun : (start.run fixed past).running with
  | false => rwa [step_stopped fixed _ event hRun]
  | true => exact hInv.step hRun (run_isOpen hClosed past hRun) (hEvent hRun)

end Runs

section Statement
variable (world : World) (server : Option Server) (now : Nat) (id : Int)
  (ip salt challenge : String) (require2fa : Option Totp) (controlPermissions : Option Nat)

/-- A new connection is subscribed to nothing. -/
theorem start_subed (name : ServiceName) :
    (Loop.start fixed world server now id ip salt challenge require2fa
      controlPermissions).state.subed name = false := by
  cases server with
  | none => rfl
  | some server => simp [State.subed, Loop.start, Connection.new, Server.isSubed]

theorem permissionsHeld_start :
    PermissionsHeld fixed
      (Loop.start fixed world server now id ip salt challenge require2fa controlPermissions) := by
  have hNone : ∀ name, (Loop.start fixed world server now id ip salt challenge require2fa
      controlPermissions).state.subed name = false := fun _ => start_subed ..
  refine ⟨⟨fun name _ hSubed => ?_, fun name _ hSubed => ?_⟩, ⟨fun _ => rfl, fun _ => rfl, fun _ => rfl⟩⟩
  · exact absurd (hSubed.symm.trans (hNone name)) (by simp)
  · exact absurd (hSubed.symm.trans (hNone name)) (by simp)

/-- Every subscription is one of an authorized connection whose flags allow it.
The file clipboard is a service of the builds that have the feature. -/
theorem subscriptions_permitted_of_safe_events (events : List Event) :
    let start := Loop.start fixed world server now id ip salt challenge require2fa controlPermissions
    Trace.Along (fun past event => (start.run fixed past).running = true →
      PermissionSafe fixed (start.run fixed past) event) events →
    let s := (start.run fixed events).state
    (s.subed .clipboard = true →
      s.conn.authorized = true ∧ s.conn.canSubClipboardService s.world.config = true) ∧
    (fixed.build.unixFileCopyPaste = true → s.subed .fileClipboard = true →
      s.conn.authorized = true ∧ s.conn.canSubFileClipboardService s.world.config = true) ∧
    (s.subed .audio = true → s.conn.authorized = true ∧ s.conn.audioEnabled = true) ∧
    (s.subed .mouseCursor = true → s.conn.authorized = true ∧
      (s.conn.peerKeyboardEnabled = true ∨ s.conn.showRemoteCursor = true)) := by
  intro start hSafe s
  obtain ⟨hAuthorized, hAllowed⟩ := (permissionsHeld_run (permissionsHeld_start fixed world server now
    id ip salt challenge require2fa controlPermissions) rfl events hSafe).permitted
  refine ⟨fun h => ⟨hAuthorized _ rfl h, hAllowed _ rfl h (by simp)⟩,
    fun hBuild h => ⟨hAuthorized .fileClipboard hBuild h, hAllowed .fileClipboard hBuild h (by simp)⟩,
    fun h => ⟨hAuthorized _ rfl h, hAllowed _ rfl h (by simp)⟩,
    fun h => ⟨hAuthorized _ rfl h, ?_⟩⟩
  have hCursor := hAllowed _ rfl h (by simp)
  simpa [State.allows] using hCursor

end Statement

/-- The keyboard of a connection that is authorized may be switched on. -/
theorem cursor_permitted_after_login :
    let world : World := { (default : World) with
      config := { (default : Config) with permanentPassword := "password" } }
    let server : Server := ⟨[.mouseCursor, .clipboard], fun _ _ => false, []⟩
    let start := Loop.start default world (some server) 0 1 "10.0.0.1" "salt" "challenge" none none
    let lr : LoginRequest := { password := utf8 "passwordsaltchallenge" }
    let events : List Event :=
      [(default, .peer (.loginRequest lr)), (default, .cm (.switchPermission .keyboard true))]
    let s := (start.run default events).state
    s.subed .mouseCursor = true ∧ s.conn.authorized = true ∧
      (s.conn.peerKeyboardEnabled = true ∨ s.conn.showRemoteCursor = true) := by
  intro world server start lr events s
  have hSubed : s.subed .mouseCursor = true := by decide +kernel
  refine ⟨hSubed, (subscriptions_permitted_of_safe_events default world (some server) 0 1 "10.0.0.1"
    "salt" "challenge" none none events ?_).2.2.2 hSubed⟩
  have hAlong : Trace.Along (fun past event => (start.run default past).running = true →
      PermissionSafe default (start.run default past) event) ([] ++
        [(default, .peer (.loginRequest lr))] ++ [(default, .cm (.switchPermission .keyboard true))]) := by
    refine (Trace.along_concat _ _).mpr ⟨(Trace.along_concat _ _).mpr ⟨Trace.Along.nil, ?_⟩, ?_⟩
    · refine fun _ => ⟨fun _ o hOption => ?_, trivial⟩
      cases hOption
    · refine fun _ => ⟨fun hGrants => absurd hGrants.1 (by decide +kernel), ?_⟩
      exact ⟨by decide +kernel, Or.inl (by decide +kernel)⟩
  exact hAlong

/-- The keyboard is switched on before the login, and the cursor is subscribed. -/
theorem cursor_subscribed_before_login :
    ¬ ∀ (fixed : Fixed) (world : World) (server : Option Server) (now : Nat) (id : Int)
        (ip salt challenge : String) (require2fa : Option Totp) (controlPermissions : Option Nat)
        (events : List Event),
      let start := Loop.start fixed world server now id ip salt challenge require2fa controlPermissions
      let s := (start.run fixed events).state
      (s.subed .clipboard = true →
        s.conn.authorized = true ∧ s.conn.canSubClipboardService s.world.config = true) ∧
      (fixed.build.unixFileCopyPaste = true → s.subed .fileClipboard = true →
        s.conn.authorized = true ∧ s.conn.canSubFileClipboardService s.world.config = true) ∧
      (s.subed .audio = true → s.conn.authorized = true ∧ s.conn.audioEnabled = true) ∧
      (s.subed .mouseCursor = true → s.conn.authorized = true ∧
        (s.conn.peerKeyboardEnabled = true ∨ s.conn.showRemoteCursor = true)) := by
  intro h
  let server : Server := ⟨[.mouseCursor, .clipboard], fun _ _ => false, []⟩
  have hCursor := (h default default (some server) 0 1 "10.0.0.1" "salt" "challenge" none none
    [(default, .cm (.switchPermission .keyboard true))]).2.2.2 (by decide +kernel)
  exact absurd hCursor.1 (by decide +kernel)

end Loop

end HibtDesk
