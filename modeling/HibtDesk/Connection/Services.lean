import HibtDesk.Connection.Inversion

/-! What the subscriptions and the input channel depend on, and which handlers
leave it alone. A message that logs in leaves it alone but for the one call that
authorizes the connection; that call is described here option by option. -/
namespace HibtDesk

/-- The value of a flag after its option was looked at. -/
def applied (q : Option BoolOption) (old : Bool) : Bool :=
  match q with
  | some .yes => true
  | some .no => false
  | _ => old

/-- The flags after an option message. The file clipboard is only known to the
builds that have one. -/
def PermissionView.updated (build : Build) (p : PermissionView) (o : OptionMessage) :
    PermissionView :=
  { p with
    showRemoteCursor := applied o.showRemoteCursor p.showRemoteCursor
    disableAudio := applied o.disableAudio p.disableAudio
    enableFileTransfer :=
      if build.targetOs = .windows ∨ build.unixFileCopyPaste = true then
        applied o.enableFileTransfer p.enableFileTransfer
      else p.enableFileTransfer
    disableClipboard := applied o.disableClipboard p.disableClipboard
    disableKeyboard := applied o.disableKeyboard p.disableKeyboard
    showMyCursor := applied o.showMyCursor p.showMyCursor }

/-- The options that a connection with the fields `v` applies when it is
authorized, if it gets that far. -/
def LoginView.appliedOptions (fixed : Fixed) (env : Env) (v : LoginView) : Option OptionMessage :=
  if v.portForwardSocket.isSome then none
  else if fixed.build.targetOs = .linux ∧ v.authConnType = .remote ∧ env.displayServerError ≠ "" then
    none
  else v.optionsInLogin

/-- The services an option message asks to subscribe or leave. -/
def OptionMessage.touches (o : OptionMessage) : ServiceName → Bool
  | .clipboard => State.isSet o.disableClipboard || State.isSet o.disableKeyboard
  | .fileClipboard => State.isSet o.enableFileTransfer || State.isSet o.disableKeyboard
  | .mouseCursor => State.isSet o.showRemoteCursor || State.isSet o.disableKeyboard
  | .mousePos => State.isSet o.showRemoteCursor
  | .audio => State.isSet o.disableAudio
  | .windowFocus => State.isSet o.followRemoteWindow
  | _ => false

namespace State

/-- From `s` to `t` nothing happens to the subscriptions, to what they depend
on, or on the input channel. -/
structure Quiet (s t : State) : Prop where
  view : t.serviceView = s.serviceView
  emits : Emits (fun effect => effect.isControl = false) s t

section Quiet
variable {s t u : State} {effect : Effect}

theorem Quiet.refl (s : State) : Quiet s s := ⟨rfl, .refl s⟩

theorem Quiet.trans (h : Quiet s t) (h' : Quiet t u) : Quiet s u :=
  ⟨h'.view.trans h.view, h.emits.trans h'.emits⟩

theorem Quiet.emit (h : Quiet s t) (hEffect : effect.isControl = false) : Quiet s (t.emit effect) :=
  ⟨h.view, h.emits.emit hEffect⟩

theorem Quiet.set (h : Quiet s t) (hView : u.serviceView = t.serviceView)
    (hEffects : u.effects = t.effects) : Quiet s u := by
  refine ⟨hView.trans h.view, ?_⟩
  unfold Emits
  rw [hEffects]
  exact h.emits

theorem Quiet.ite {c : Prop} [Decidable c] (h : Quiet s t) (h' : Quiet s u) :
    Quiet s (if c then t else u) := by
  split_ifs
  · exact h
  · exact h'

theorem Quiet.subed (h : Quiet s t) (name : ServiceName) : t.subed name = s.subed name := by
  have hServer : t.server = s.server := congrArg ServiceView.server h.view
  have hId : t.conn.id = s.conn.id := congrArg ServiceView.id h.view
  unfold State.subed
  rw [hServer, hId]

end Quiet

section Still
variable {s t u : State} {effect : Effect}

theorem Still.refl (s : State) : Still s s := ⟨rfl, .refl s⟩

theorem Still.trans (h : Still s t) (h' : Still t u) : Still s u :=
  ⟨h'.view.trans h.view, h.emits.trans h'.emits⟩

theorem Still.emit (h : Still s t) (hEffect : effect.isStill = true) : Still s (t.emit effect) :=
  ⟨h.view, h.emits.emit hEffect⟩

theorem Still.set (h : Still s t) (hView : u.stillView = t.stillView)
    (hEffects : u.effects = t.effects) : Still s u := by
  refine ⟨hView.trans h.view, ?_⟩
  unfold Emits
  rw [hEffects]
  exact h.emits

theorem Still.quiet (h : Still s t) : Quiet s t := by
  refine ⟨congrArg Prod.fst h.view, h.emits.mono fun effect hStill => ?_⟩
  simp only [Effect.isStill, Bool.and_eq_true, Bool.not_eq_true'] at hStill
  exact hStill.1

end Still

section Logon
variable (fixed : Fixed) (env : Env)

/-- A message that logs in leaves everything alone, or authorizes the connection in a state with
the fields `v`. -/
def Logon (v : LoginView) (s t : State) : Prop :=
  Still s t ∨ ∃ u, Still s u ∧ u.conn.authorized = false ∧ u.conn.loginView = v ∧
    Still (u.authorize.afterAuthorize fixed env) t

variable {fixed env} {v : LoginView} {s t u : State}

theorem Still.logon (h : Still s t) : Logon fixed env v s t := Or.inl h

theorem Logon.before (h : Still s t) (h' : Logon fixed env v t u) : Logon fixed env v s u := by
  rcases h' with hStill | ⟨w, hStill, hRest⟩
  · exact Or.inl (h.trans hStill)
  · exact Or.inr ⟨w, h.trans hStill, hRest⟩

theorem Logon.after (h : Logon fixed env v s t) (h' : Still t u) : Logon fixed env v s u := by
  rcases h with hStill | ⟨w, hFirst, hNo, hView, hLast⟩
  · exact Or.inl (hStill.trans h')
  · exact Or.inr ⟨w, hFirst, hNo, hView, hLast.trans h'⟩

variable (fixed env)

theorem still_isRecentSession (s : State) (tfa : Bool) :
    Still s (s.isRecentSession fixed env tfa).1 := by
  unfold isRecentSession
  dsimp only
  split <;> exact .set (.refl s) rfl rfl

theorem still_secondFactorMissing (s : State) : Still s (s.secondFactorMissing fixed env).1 := by
  unfold secondFactorMissing
  split_ifs
  · exact still_isRecentSession fixed env s true
  · exact .refl s

theorem logon_sendLogonResponse (s : State) :
    Logon fixed env s.conn.loginView s (s.sendLogonResponse fixed env) := by
  have hStill := still_secondFactorMissing fixed env s
  have hKeeps := (secondFactorMissing_spec fixed env s).1
  unfold sendLogonResponse
  split_ifs with hAuthorized
  · exact (Still.refl s).logon
  · dsimp only
    split_ifs
    · exact (hStill.emit rfl).logon
    · refine Or.inr ⟨_, hStill, ?_, hKeeps.view, .refl _⟩
      have hNo : s.conn.authorized = false := by simpa using hAuthorized
      exact (congrArg LoginView.authorized hKeeps.view).trans hNo

theorem still_checkFailure (s : State) (i : Fin 2) : Still s (s.checkFailure fixed env i).1 := by
  unfold checkFailure
  dsimp only
  split
  · exact .emit (.refl s) rfl
  · exact .refl s

theorem still_validatePassword (s : State) : Still s (s.validatePassword fixed env).1 := by
  unfold validatePassword
  dsimp only
  split_ifs
  · refine .set (.refl s) ?_ rfl
    unfold World.updateOrInsertSession
    split <;> rfl
  · exact .refl s
  · exact .refl s

theorem still_updateFailure (s : State) (check : FailureCheck) (remove : Bool) (i : Fin 2) :
    Still s (s.updateFailure fixed check remove i) := .set (.refl s) rfl rfl

theorem still_refuse (s : State) (error : String) : Still s (s.refuse error).1 :=
  .emit (.refl s) rfl

theorem still_loginTerminal (s : State) (lr : LoginRequest) (serviceId : String) :
    Still s (s.loginTerminal fixed env lr serviceId).1 := by
  have hFill : ∀ (t : State) osLogin, Still t (t.fillTerminalUserToken fixed env osLogin).1 := by
    intro t osLogin
    unfold fillTerminalUserToken
    dsimp only
    split_ifs
    · exact .set (.refl t) rfl rfl
    · split
      · exact .set (.refl t) rfl rfl
      · exact .refl t
    · exact .set (.refl t) rfl rfl
    · split
      · exact .set (.refl t) rfl rfl
      · exact .refl t
    · exact .set (.refl t) rfl rfl
  have hCheck : ∀ (t : State) osLogin, Still t (t.checkTerminalUser fixed env osLogin).1 := by
    intro t osLogin
    unfold checkTerminalUser
    dsimp only
    split
    · exact (hFill t osLogin).trans (still_refuse _ _)
    · split_ifs
      · exact (hFill t osLogin).trans (still_refuse _ _)
      · exact hFill t osLogin
  unfold loginTerminal
  dsimp only
  split_ifs
  · exact still_refuse s _
  · exact still_refuse s _
  · refine Still.trans ?_ (hCheck (s.openTerminal serviceId) _)
    exact .set (.refl s) rfl rfl

theorem still_loginKind (s : State) (lr : LoginRequest) : Still s (s.loginKind fixed env lr).1 := by
  unfold loginKind
  split
  · split_ifs
    · exact still_refuse s _
    · exact .set (.refl s) rfl rfl
  · split_ifs
    · exact still_refuse s _
    · exact .set (.refl s) rfl rfl
  · exact still_loginTerminal fixed env s lr _
  · unfold loginPortForward
    dsimp only
    split_ifs
    · exact still_refuse s _
    · exact .set (.refl s) rfl rfl
    · exact .emit (.set (.refl s) rfl rfl) rfl
    · exact .emit (.set (.refl s) rfl rfl) rfl
  · split_ifs
    · exact still_refuse s _
    · exact .refl s

theorem logon_loginAccepted (s : State) (lr : LoginRequest) (errMsg : String) :
    Logon fixed env s.conn.loginView s (s.loginAccepted fixed env lr errMsg) := by
  unfold loginAccepted
  split_ifs
  · exact (logon_sendLogonResponse fixed env s).after (.emit (.refl _) rfl)
  · exact Still.logon (.emit (.refl s) rfl)

theorem logon_loginPassword (s : State) (lr : LoginRequest) (errMsg : String) :
    Logon fixed env s.conn.loginView s (s.loginPassword fixed env lr errMsg) := by
  have hCheck := still_checkFailure fixed env s 0
  have hConn := (checkFailure_spec fixed env s 0).2.2.1
  unfold loginPassword
  dsimp only
  generalize (s.checkFailure fixed env 0).1 = t at *
  generalize (s.checkFailure fixed env 0).2 = check at *
  have hValidate := hCheck.trans (still_validatePassword fixed env t)
  have hSame := (validatePassword_spec fixed env t).2.1
  split_ifs
  · exact hCheck.logon
  · refine (Logon.before (hValidate.trans (still_updateFailure fixed _ check true 0)) ?_)
    have hAccepted := logon_loginAccepted fixed env
      ((t.validatePassword fixed env).1.updateFailure fixed check true 0) lr errMsg
    have hView : ((t.validatePassword fixed env).1.updateFailure fixed check true 0).conn =
        s.conn := hSame.trans hConn
    rwa [hView] at hAccepted
  · exact Still.logon (.emit (.emit (hValidate.trans (still_updateFailure fixed _ check false 0)) rfl) rfl)
  · exact Still.logon (.emit (hValidate.trans (still_updateFailure fixed _ check false 0)) rfl)

theorem logon_loginChain (s : State) (lr : LoginRequest) (errMsg : String) :
    Logon fixed env s.conn.loginView s (s.loginChain fixed env lr errMsg).1 := by
  have hRecent := still_isRecentSession fixed env s false
  have hConn := (isRecentSession_spec fixed env s).2.1
  have hCase : (s.loginCase fixed env lr).1 = s ∨
      (s.loginCase fixed env lr).1 = (s.isRecentSession fixed env false).1 := by
    unfold loginCase
    dsimp only
    split_ifs <;> simp
  have hStill : Still s (s.loginCase fixed env lr).1 ∧ (s.loginCase fixed env lr).1.conn = s.conn := by
    rcases hCase with hSame | hSame
    · rw [hSame]
      exact ⟨.refl s, rfl⟩
    · rw [hSame]
      exact ⟨hRecent, hConn⟩
  unfold loginChain
  dsimp only
  generalize (s.loginCase fixed env lr).1 = t at *
  cases (s.loginCase fixed env lr).2 with
  | offline => exact (hStill.1.trans (still_refuse t _)).logon
  | click =>
      dsimp only
      split_ifs
      · exact Still.logon (.emit (.emit hStill.1 rfl) rfl)
      · exact Still.logon (.emit hStill.1 rfl)
  | recentSession =>
      have hAccepted := logon_loginAccepted fixed env t lr errMsg
      rw [hStill.2] at hAccepted
      exact .before hStill.1 hAccepted
  | emptyPassword =>
      dsimp only
      split_ifs
      · exact Still.logon (.emit hStill.1 rfl)
      · exact Still.logon (.emit hStill.1 rfl)
  | password =>
      have hPassword := logon_loginPassword fixed env t lr errMsg
      rw [hStill.2] at hPassword
      exact .before hStill.1 hPassword

theorem logon_onLoginRequest (s : State) (lr : LoginRequest) :
    Logon fixed env
      ((s.handleLoginRequestWithoutValidation env lr).conn.loginView.withKind lr.union) s
      (s.onLoginRequest fixed env lr).1 := by
  have hStored : Still s (s.handleLoginRequestWithoutValidation env lr) := .set (.refl s) rfl rfl
  unfold onLoginRequest
  generalize s.handleLoginRequestWithoutValidation env lr = t at *
  have hKind := still_loginKind fixed env t lr
  have hChecked := (loginKind_spec fixed env t lr).1
  dsimp only
  split_ifs with hLate hRefused hFatal
  · exact hStored.logon
  · exact (hStored.trans hKind).logon
  · exact Still.logon (.emit (.set (hStored.trans hKind) rfl rfl) rfl)
  · generalize hStart : ({ (t.loginKind fixed env lr).1 with
      conn := { (t.loginKind fixed env lr).1.conn with cmIpcStarted := true } } : State) = u
    have hStill : Still s u := by
      rw [← hStart]
      exact .set (hStored.trans hKind) rfl rfl
    have hView : u.conn.loginView = t.conn.loginView.withKind lr.union := by
      rw [← hStart]
      exact hChecked.accepted (by simpa using hRefused)
    rw [← hView]
    exact .before hStill (logon_loginChain fixed env u lr _)

theorem still_rememberDevice (s : State) (hwid : Bytes) : Still s (s.rememberDevice env hwid) := by
  unfold rememberDevice
  split_ifs
  · refine .set (.refl s) ?_ rfl
    unfold Config.addTrustedDevice
    dsimp only
    split_ifs <;> rfl
  · exact .refl s

theorem still_passSecondFactor (s : State) (check : FailureCheck) :
    Still s (s.passSecondFactor fixed env check) := by
  refine .set (.refl s) ?_ rfl
  unfold passSecondFactor World.setSession2fa
  dsimp only
  split <;> rfl

theorem logon_onAuth2fa (s : State) (code : String) (hwid : Bytes) :
    Logon fixed env { s.conn.loginView with require2fa := none } s
      (s.onAuth2fa fixed env code hwid) := by
  have hCheck := still_checkFailure fixed env s 1
  have hConn := (checkFailure_spec fixed env s 1).2.2.1
  unfold onAuth2fa
  dsimp only
  generalize (s.checkFailure fixed env 1).1 = t at *
  generalize (s.checkFailure fixed env 1).2 = check at *
  split_ifs
  · exact hCheck.logon
  · split
    · exact hCheck.logon
    · split
      · exact hCheck.logon
      · unfold acceptCode
        refine .before (hCheck.trans (still_passSecondFactor fixed env t check)) ?_
        refine .after (.after ?_ (.emit (.refl _) rfl)) (still_rememberDevice env _ hwid)
        have hSend := logon_sendLogonResponse fixed env (t.passSecondFactor fixed env check)
        have hView : (t.passSecondFactor fixed env check).conn.loginView =
            { s.conn.loginView with require2fa := none } := by
          rw [← hConn]
          rfl
        rwa [hView] at hSend
      · exact Still.logon (.emit (hCheck.trans (still_updateFailure fixed t check false 1)) rfl)

theorem logon_onSwitchSidesResponse (s : State) (uuid : Bytes) (lr : LoginRequest) :
    Logon fixed env
      { (s.handleLoginRequestWithoutValidation env lr).conn.loginView with fromSwitch := true } s
      (s.onSwitchSidesResponse fixed env uuid (some lr)) := by
  have hStored : Still s (s.handleLoginRequestWithoutValidation env lr) := .set (.refl s) rfl rfl
  unfold onSwitchSidesResponse
  dsimp only
  generalize s.handleLoginRequestWithoutValidation env lr = t at *
  split_ifs
  · refine .after (.after ?_ (.emit (.refl _) rfl)) (.set (.refl _) rfl rfl)
    refine .before (t := { t.takeSwitchSides env lr with
      conn := { (t.takeSwitchSides env lr).conn with fromSwitch := true } })
      (hStored.set rfl rfl) ?_
    exact logon_sendLogonResponse fixed env _
  · exact Still.logon (.set hStored rfl rfl)
  · exact (Still.refl s).logon

theorem logon_onAuthorize (s : State) :
    Logon fixed env { s.conn.loginView with require2fa := none } s (s.onAuthorize fixed env) := by
  refine .before (t := { s with conn := { s.conn with require2fa := none } })
    (.set (.refl s) rfl rfl) ?_
  exact logon_sendLogonResponse fixed env _

end Logon

section Authorized
variable (fixed : Fixed) (env : Env) (s : State)

theorem isRemote_eq : s.conn.isRemote = decide (s.conn.loginView.authConnType = .remote) := by
  unfold Connection.isRemote LoginView.authConnType Connection.loginView
  cases s.conn.fileTransfer <;> cases s.conn.portForwardSocket <;> cases s.conn.viewCamera <;>
    cases s.conn.terminal <;> rfl

theorem quiet_sendLoginAnswer : Quiet s (s.sendLoginAnswer env).1 := by
  unfold sendLoginAnswer
  split_ifs
  · exact .emit (.refl s) rfl
  · exact .emit (.emit (.refl s) rfl) rfl
  · split <;> exact .emit (.emit (.refl s) rfl) rfl

/-- After the authorization comes an error, or the options and then what the
kind of the connection starts with. -/
theorem afterAuthorize_cases :
    Quiet s (s.afterAuthorize fixed env) ∨
      ∃ t wait subService, s.conn.loginView.appliedOptions fixed env = s.conn.optionsInLogin ∧
        Quiet s t ∧ t.conn.loginView = s.conn.loginView ∧
        s.afterAuthorize fixed env =
          (t.applyOptionsInLogin fixed env).startKind fixed env wait subService := by
  unfold afterAuthorize
  split_ifs with hSocket hError
  · exact Or.inl (.emit (.refl s) rfl)
  · exact Or.inl (.emit (.refl s) rfl)
  · refine Or.inr ⟨_, _, _, ?_, quiet_sendLoginAnswer env s,
      (keepsLogin_sendLoginAnswer env s).view, rfl⟩
    unfold LoginView.appliedOptions
    rw [isRemote_eq] at hError
    have hNone : ¬ s.conn.loginView.portForwardSocket.isSome = true := hSocket
    rw [if_neg hNone, if_neg (by simpa using hError)]
    rfl

end Authorized

section Options
variable (fixed : Fixed) (env : Env) (s : State) (o : OptionMessage)

theorem subed_subscribe {s : State} {name n : ServiceName} {sub : Bool}
    (h : (s.subscribe name sub).subed n = true) :
    (n = name ∧ sub = true) ∨ (n ≠ name ∧ s.subed n = true) := by
  unfold subed subscribe at *
  cases hServer : s.server with
  | none => simp [hServer] at h
  | some server =>
      simp only [hServer, Option.map_some, Server.subscribe_isSubed] at h ⊢
      split_ifs at h with hName
      · exact Or.inl ⟨hName, by simp_all⟩
      · exact Or.inr ⟨hName, h⟩

/-- An option message changes no subscription that it does not ask for. -/
theorem subed_updateOptions {n : ServiceName} (h : (s.updateOptions fixed env o).subed n = true) :
    s.subed n = true ∨ o.touches n = true := by
  have one : ∀ {t : State} {name sub}, (t.subed n = true → s.subed n = true ∨ o.touches n = true) →
      o.touches name = true → (t.subscribe name sub).subed n = true →
        s.subed n = true ∨ o.touches n = true := by
    intro t name sub hOld hTouches hNew
    rcases subed_subscribe hNew with ⟨rfl, -⟩ | ⟨-, ht⟩
    · exact Or.inr hTouches
    · exact hOld ht
  have file : ∀ {t : State}, (t.subed n = true → s.subed n = true ∨ o.touches n = true) →
      o.touches .fileClipboard = true → (t.refreshFileClipboard fixed).subed n = true →
        s.subed n = true ∨ o.touches n = true := by
    intro t hOld hTouches
    unfold refreshFileClipboard
    split_ifs
    · exact one hOld hTouches
    · exact hOld
  refine updateOptions_induct fixed env s
    (motive := fun t => t.subed n = true → s.subed n = true ∨ o.touches n = true)
    o Or.inl ?_ ?_ ?_ ?_ ?_ ?_ ?_ ?_ ?_ ?_ ?_ h
  · exact fun t effect _ ht => ht
  · exact fun t v _ ht => ht
  · intro t v hSet ht
    refine one (one (t := { t with conn := { t.conn with showRemoteCursor := v } }) ht ?_) ?_
    · simp [OptionMessage.touches, hSet]
    · exact hSet
  · exact fun t v _ ht => ht
  · exact fun t v hSet ht =>
      one (t := { t with conn := { t.conn with followRemoteWindow := v } }) ht hSet
  · intro t v hSet ht
    unfold setDisableAudio refreshAudio
    split_ifs
    · exact one (t := { t with conn := { t.conn with disableAudio := v } }) ht hSet
    · exact ht
    · exact one (t := { t with conn := { t.conn with disableAudio := v } }) ht hSet
  · intro t v hSet ht
    have hTouches : o.touches .fileClipboard = true := by simp [OptionMessage.touches, hSet]
    unfold setEnableFileTransfer
    dsimp only
    split_ifs <;> first | exact ht | exact file ht hTouches
  · intro t v hSet ht
    exact one (t := { t with conn := { t.conn with disableClipboard := v } }) ht
      (by simp [OptionMessage.touches, hSet])
  · intro t v hSet ht
    refine one (file (one (t := { t with conn := { t.conn with disableKeyboard := v } }) ht ?_) ?_) ?_
    · simp [OptionMessage.touches, hSet]
    · simp [OptionMessage.touches, hSet]
    · simp [OptionMessage.touches, hSet]
  · exact fun t v _ ht => ht
  · intro t v _ ht
    unfold setShowMyCursor
    dsimp only
    split_ifs <;> exact ht

/-- An option that puts its value into one flag. -/
theorem whenSet_permissionView (q : Option BoolOption) (set : State → Bool → State)
    (get : PermissionView → Bool) (put : PermissionView → Bool → PermissionView)
    (hSet : ∀ s v, (set s v).conn.permissionView = put s.conn.permissionView v)
    (hPut : ∀ p, put p (get p) = p) :
    (whenSet q s set).conn.permissionView =
      put s.conn.permissionView (applied q (get s.conn.permissionView)) := by
  cases q with
  | none => exact (hPut _).symm
  | some v =>
      cases v with
      | notSet => exact (hPut _).symm
      | no => exact hSet s false
      | yes => exact hSet s true

/-- `update_options` as far as the file transfer. -/
def optionsBeforeClipboard : State :=
  let s := s.updateImageQuality o
  let s := s.updateCustomFps o
  let s := s.updateSupportedDecoding o
  let s := whenSet o.lockAfterSessionEnd s setLockAfterSessionEnd
  let s := whenSet o.showRemoteCursor s setShowRemoteCursor
  let s := whenSet o.followRemoteCursor s setFollowRemoteCursor
  let s := whenSet o.followRemoteWindow s setFollowRemoteWindow
  let s := whenSet o.disableAudio s setDisableAudio
  whenSet o.enableFileTransfer s (setEnableFileTransfer fixed)

/-- `update_options` after the keyboard. -/
def optionsAfterKeyboard : State :=
  let s := s.updatePrivacyMode o
  let s := s.updateBlockInput o
  let s := whenSet o.terminalPersistent s setTerminalPersistence
  whenSet o.showMyCursor s (setShowMyCursor env)

theorem updateOptions_eq :
    s.updateOptions fixed env o =
      let s := s.optionsBeforeClipboard fixed o
      let s := whenSet o.disableClipboard s setDisableClipboard
      let s := whenSet o.disableKeyboard s (setDisableKeyboard fixed)
      s.optionsAfterKeyboard env o := rfl

theorem whenSet_same (q : Option BoolOption) (set : State → Bool → State)
    (hSet : ∀ t v, (set t v).conn.permissionView = t.conn.permissionView) :
    (whenSet q s set).conn.permissionView = s.conn.permissionView :=
  whenSet_permissionView s q set (fun _ => false) (fun p _ => p) hSet fun _ => rfl

theorem setEnableFileTransfer_permissionView (v : Bool) :
    (setEnableFileTransfer fixed s v).conn.permissionView =
      if fixed.build.targetOs = .windows ∨ fixed.build.unixFileCopyPaste = true then
        { s.conn.permissionView with enableFileTransfer := v }
      else s.conn.permissionView := by
  unfold setEnableFileTransfer
  dsimp only
  split_ifs <;> first | rfl | (rw [refreshFileClipboard_conn]; rfl)

theorem setDisableAudio_permissionView (v : Bool) :
    (setDisableAudio s v).conn.permissionView =
      { s.conn.permissionView with disableAudio := v } := by
  unfold setDisableAudio
  rw [refreshAudio_conn]
  rfl

theorem setDisableKeyboard_permissionView (v : Bool) :
    (setDisableKeyboard fixed s v).conn.permissionView =
      { s.conn.permissionView with disableKeyboard := v } := by
  unfold setDisableKeyboard
  dsimp only
  rw [subscribe_conn, refreshFileClipboard_conn]
  rfl

theorem setShowMyCursor_permissionView (v : Bool) :
    (setShowMyCursor env s v).conn.permissionView =
      { s.conn.permissionView with showMyCursor := v } := by
  unfold setShowMyCursor
  dsimp only
  split_ifs <;> rfl

theorem quiet_updateVideoOptions :
    Quiet s (((s.updateImageQuality o).updateCustomFps o).updateSupportedDecoding o) := by
  have hDecoding : ∀ t : State, Quiet t (t.updateSupportedDecoding o) := by
    intro t
    unfold updateSupportedDecoding
    split
    · exact .emit (.refl t) rfl
    · exact .refl t
  have hFps : ∀ t : State, Quiet t (t.updateCustomFps o) := fun t =>
    .ite (.emit (.refl t) rfl) (.refl t)
  have hQuality : ∀ t : State, Quiet t (t.updateImageQuality o) := by
    intro t
    unfold updateImageQuality
    split
    · exact .ite (.emit (.refl t) rfl) (.refl t)
    · exact .refl t
  exact ((hQuality s).trans (hFps _)).trans (hDecoding _)

theorem quiet_updateLegacyOptions : Quiet s ((s.updatePrivacyMode o).updateBlockInput o) := by
  have hBlock : ∀ t : State, Quiet t (t.updateBlockInput o) := by
    intro t
    unfold updateBlockInput
    split
    · refine .ite ?_ (.ite (.emit (.refl t) rfl) (.refl t))
      split <;> first | exact .emit (.refl t) rfl | exact .refl t
    · exact .refl t
  have hPrivacy : ∀ t : State, Quiet t (t.updatePrivacyMode o) := by
    intro t
    unfold updatePrivacyMode
    refine .ite ?_ (.refl t)
    split <;> first | exact .ite (.emit (.refl t) rfl) (.refl t) | exact .refl t
  exact (hPrivacy s).trans (hBlock _)

theorem optionsBeforeClipboard_permissionView :
    (s.optionsBeforeClipboard fixed o).conn.permissionView =
      { s.conn.permissionView with
        showRemoteCursor := applied o.showRemoteCursor s.conn.showRemoteCursor
        disableAudio := applied o.disableAudio s.conn.disableAudio
        enableFileTransfer :=
          if fixed.build.targetOs = .windows ∨ fixed.build.unixFileCopyPaste = true then
            applied o.enableFileTransfer s.conn.enableFileTransfer
          else s.conn.enableFileTransfer } := by
  unfold optionsBeforeClipboard
  dsimp only
  -- from the inside out, so that every state is a variable once it is described
  have h0 := congrArg ServiceView.permissions (quiet_updateVideoOptions s o).view
  generalize ((s.updateImageQuality o).updateCustomFps o).updateSupportedDecoding o = t0 at *
  have h1 := whenSet_same t0 o.lockAfterSessionEnd setLockAfterSessionEnd fun _ _ => rfl
  generalize whenSet o.lockAfterSessionEnd t0 setLockAfterSessionEnd = t1 at *
  have h2 := whenSet_permissionView t1 o.showRemoteCursor setShowRemoteCursor
    PermissionView.showRemoteCursor (fun p v => { p with showRemoteCursor := v })
    (fun _ _ => rfl) fun _ => rfl
  generalize whenSet o.showRemoteCursor t1 setShowRemoteCursor = t2 at *
  have h3 := whenSet_same t2 o.followRemoteCursor setFollowRemoteCursor fun _ _ => rfl
  generalize whenSet o.followRemoteCursor t2 setFollowRemoteCursor = t3 at *
  have h4 := whenSet_same t3 o.followRemoteWindow setFollowRemoteWindow fun _ _ => rfl
  generalize whenSet o.followRemoteWindow t3 setFollowRemoteWindow = t4 at *
  have h5 := whenSet_permissionView t4 o.disableAudio setDisableAudio PermissionView.disableAudio
    (fun p v => { p with disableAudio := v }) setDisableAudio_permissionView fun _ => rfl
  generalize whenSet o.disableAudio t4 setDisableAudio = t5 at *
  rw [whenSet_permissionView t5 o.enableFileTransfer (setEnableFileTransfer fixed)
    PermissionView.enableFileTransfer
    (fun p v => if fixed.build.targetOs = .windows ∨ fixed.build.unixFileCopyPaste = true then
      { p with enableFileTransfer := v } else p)
    (setEnableFileTransfer_permissionView fixed) fun p => by split_ifs <;> rfl]
  have hStart : t0.conn.permissionView = s.conn.permissionView := h0
  simp only [h5, h4, h3, h2, h1, hStart]
  split_ifs <;> rfl

theorem optionsAfterKeyboard_permissionView :
    (s.optionsAfterKeyboard env o).conn.permissionView =
      { s.conn.permissionView with
        showMyCursor := applied o.showMyCursor s.conn.showMyCursor } := by
  have h0 : ((s.updatePrivacyMode o).updateBlockInput o).conn.permissionView =
      s.conn.permissionView := congrArg ServiceView.permissions (quiet_updateLegacyOptions s o).view
  unfold optionsAfterKeyboard
  dsimp only
  generalize (s.updatePrivacyMode o).updateBlockInput o = t0 at *
  have h1 := whenSet_same t0 o.terminalPersistent setTerminalPersistence fun _ _ => rfl
  generalize whenSet o.terminalPersistent t0 setTerminalPersistence = t1 at *
  rw [whenSet_permissionView t1 o.showMyCursor (setShowMyCursor env) PermissionView.showMyCursor
    (fun p v => { p with showMyCursor := v }) (setShowMyCursor_permissionView env) fun _ => rfl,
    h1, h0]
  rfl

/-- The flags of an option message come one after the other. -/
theorem updateOptions_permissionView :
    (s.updateOptions fixed env o).conn.permissionView =
      s.conn.permissionView.updated fixed.build o := by
  rw [updateOptions_eq]
  dsimp only
  have h0 := optionsBeforeClipboard_permissionView fixed s o
  generalize s.optionsBeforeClipboard fixed o = t0 at *
  have h1 := whenSet_permissionView t0 o.disableClipboard setDisableClipboard
    PermissionView.disableClipboard (fun p v => { p with disableClipboard := v })
    (fun _ _ => rfl) fun _ => rfl
  generalize whenSet o.disableClipboard t0 setDisableClipboard = t1 at *
  have h2 := whenSet_permissionView t1 o.disableKeyboard (setDisableKeyboard fixed)
    PermissionView.disableKeyboard (fun p v => { p with disableKeyboard := v })
    (setDisableKeyboard_permissionView fixed) fun _ => rfl
  generalize whenSet o.disableKeyboard t1 (setDisableKeyboard fixed) = t2 at *
  rw [optionsAfterKeyboard_permissionView,
    show t2.conn.showMyCursor = t2.conn.permissionView.showMyCursor from rfl]
  simp only [h2, h1, h0]
  rfl

end Options

section Messages
variable (fixed : Fixed) (env : Env) (s : State)

/-- From `s` to `t` at most the subscriptions change. -/
def KeepsFlags (s t : State) : Prop := t.serviceView = { s.serviceView with server := t.server }

theorem serviceView_onMouseEvent (event : MouseEvent) :
    (s.onMouseEvent env event).serviceView = s.serviceView := by
  unfold onMouseEvent
  split_ifs <;> rfl

theorem serviceView_onPointerDeviceEvent (event : PointerDeviceEvent) :
    (s.onPointerDeviceEvent env event).serviceView = s.serviceView := by
  unfold onPointerDeviceEvent
  split_ifs <;> rfl

theorem serviceView_onKeyEvent (event : KeyEvent) :
    (s.onKeyEvent fixed env event).serviceView = s.serviceView := by
  unfold onKeyEvent
  split_ifs <;> rfl

/-- Apart from what is sent, a display is switched or nothing happens. -/
theorem handleSwitchDisplay_cases (display width height : Int) :
    Quiet s (s.handleSwitchDisplay fixed display width height) ∨
      ∃ server, s.server = some server ∧ s.conn.displayIdx ≠ asUsize display ∧
        Quiet (s.switchDisplayTo fixed server (asUsize display))
          (s.handleSwitchDisplay fixed display width height) := by
  unfold handleSwitchDisplay
  dsimp only
  by_cases hOther : s.conn.displayIdx ≠ asUsize display
  · rw [if_pos hOther]
    cases hServer : s.server with
    | none => exact Or.inl (.emit (.refl s) rfl)
    | some server =>
        refine Or.inr ⟨server, rfl, hOther, .emit (.ite ?_ (.refl _)) rfl⟩
        exact .ite (.emit (.refl _) rfl) (.refl _)
  · rw [if_neg hOther]
    exact Or.inl (.refl s)

theorem keepsFlags_handleSwitchDisplay (display width height : Int) :
    KeepsFlags s (s.handleSwitchDisplay fixed display width height) := by
  unfold KeepsFlags
  rcases handleSwitchDisplay_cases fixed s display width height with hQuiet | ⟨server, -, -, hQuiet⟩
  · have hServer := congrArg ServiceView.server hQuiet.view
    rw [hQuiet.view]
    exact congrArg (fun server => { s.serviceView with server := server }) hServer.symm
  · have hServer := congrArg ServiceView.server hQuiet.view
    rw [hQuiet.view]
    exact congrArg (fun server => { s.serviceView with server := server }) hServer.symm

theorem subed_switchDisplayTo {n : ServiceName} {server : Server} {displayIdx : Nat}
    (h : (s.switchDisplayTo fixed server displayIdx).subed n = true) :
    server.isSubed n s.conn.id = true ∨ n = .video s.conn.videoSource displayIdx := by
  rcases Server.isSubed_of_subscribe _ _ n s.conn.id true h with hOld | ⟨hNew, -⟩
  · refine Or.inl ?_
    have hEnsured : ∀ name, (if displayIdx ≠ fixed.primaryDisplayIdx then server.ensureService name
        else server).isSubed n s.conn.id = true → server.isSubed n s.conn.id = true := by
      intro name hs
      split_ifs at hs
      · exact Server.isSubed_of_ensureService _ _ _ _ hs
      · exact hs
    by_cases hVersion : getVersionNumber s.conn.lr.version ≥ getVersionNumber "1.2.4"
    · rw [if_pos hVersion] at hOld
      exact hEnsured _ hOld
    · rw [if_neg hVersion] at hOld
      exact hEnsured _ ((Server.isSubed_of_subscribe _ _ n s.conn.id false hOld).resolve_right (by simp))
  · exact Or.inr hNew

/-- Switching the display subscribes to the display asked for. -/
theorem subed_handleSwitchDisplay {n : ServiceName} {display width height : Int}
    (h : (s.handleSwitchDisplay fixed display width height).subed n = true) :
    s.subed n = true ∨
      (s.conn.displayIdx ≠ asUsize display ∧ n = .video s.conn.videoSource (asUsize display)) := by
  rcases handleSwitchDisplay_cases fixed s display width height with
    hQuiet | ⟨server, hServer, hOther, hQuiet⟩
  · rw [hQuiet.subed] at h
    exact Or.inl h
  · rw [hQuiet.subed] at h
    refine (subed_switchDisplayTo fixed s h).imp (fun hOld => ?_) fun hNew => ⟨hOther, hNew⟩
    unfold State.subed
    rw [hServer]
    exact hOld

theorem keepsFlags_captureDisplays (add sub set : List Nat) :
    KeepsFlags s (s.captureDisplays add sub set) := by
  unfold captureDisplays
  split
  · dsimp only
    split_ifs <;> rfl
  · rfl

/-- The displays a message to capture displays includes. -/
def captured (add sub set : List Nat) : List Nat :=
  if !add.isEmpty then add else if !sub.isEmpty then [] else set

theorem isSubed_captureOn {n : ServiceName} {server : Server} {add sub set : List Nat}
    (h : (captureOn s.conn server add sub set).isSubed n s.conn.id = true) :
    server.isSubed n s.conn.id = true ∨
      ∃ d ∈ captured add sub set, n = .video s.conn.videoSource d := by
  have ensure : ∀ (names : List ServiceName) (server : Server),
      (names.foldl Server.ensureService server).isSubed n s.conn.id = true →
        server.isSubed n s.conn.id = true := by
    intro names server hs
    have hFold : server.isSubed n s.conn.id = true ∨ False :=
      Server.isSubed_of_foldl server n s.conn.id Server.ensureService
        (fun t name ht => Or.inl (Server.isSubed_of_ensureService t name n s.conn.id ht)) names hs
    simpa using hFold
  unfold captureOn captured at *
  dsimp only at h
  split_ifs at h ⊢
  · rcases Server.isSubed_of_captureDisplays _ n s.conn.id _ _ _ _ h with hOld | ⟨hNew, -⟩
    · exact Or.inl (ensure _ _ (ensure _ _ hOld))
    · exact Or.inr hNew
  · rcases Server.isSubed_of_captureDisplays _ n s.conn.id _ _ _ _ h with hOld | ⟨-, hIn⟩
    · exact Or.inl (ensure _ _ (ensure _ _ hOld))
    · cases hIn
  · rcases Server.isSubed_of_captureDisplays _ n s.conn.id _ _ _ _ h with hOld | ⟨hNew, -⟩
    · exact Or.inl (ensure _ _ (ensure _ _ hOld))
    · exact Or.inr hNew

/-- Capturing displays subscribes to those it includes, and to the focus of
windows. -/
theorem subed_captureDisplays {n : ServiceName} {add sub set : List Nat}
    (h : (s.captureDisplays add sub set).subed n = true) :
    s.subed n = true ∨ n = .windowFocus ∨
      ∃ d ∈ captured add sub set, n = .video s.conn.videoSource d := by
  unfold captureDisplays at h
  cases hServer : s.server with
  | none =>
      simp only [hServer] at h
      exact Or.inl h
  | some server =>
      simp only [hServer] at h
      have hOn : n = .windowFocus ∨
          (captureOn s.conn server add sub set).isSubed n s.conn.id = true := by
        split_ifs at h
        · rcases subed_subscribe h with ⟨hFocus, -⟩ | ⟨-, hOld⟩
          · exact Or.inl hFocus
          · exact Or.inr hOld
        · exact Or.inr h
      rcases hOn with hFocus | hOn
      · exact Or.inr (Or.inl hFocus)
      · refine (isSubed_captureOn s hOn).imp (fun hOld => ?_) Or.inr
        unfold State.subed
        rw [hServer]
        exact hOld

/-- From `s` to `t` a voice call was accepted or ended; the audio of a camera
connection follows it. -/
def CallSwitched (accepted : Bool) (s t : State) : Prop :=
  ∃ u, u.serviceView = { s.serviceView with
      permissions := { s.conn.permissionView with voiceCalling := accepted } } ∧
    Emits (fun effect => effect.isControl = false) s u ∧
    t = if s.conn.isAuthedViewCameraConn then
      u.subscribe .audio (s.conn.audioEnabled && accepted) else u

theorem callSwitched_of_quiet {s u : State} (h : Quiet s u) (accepted : Bool) :
    CallSwitched accepted s
      (let t := { u with conn := { u.conn with voiceCalling := accepted } }
       if t.conn.isAuthedViewCameraConn then t.subscribe .audio (t.conn.audioEnabled && accepted)
       else t) := by
  have hPermissions : u.conn.permissionView = s.conn.permissionView :=
    congrArg ServiceView.permissions h.view
  have hKind : u.conn.authedConnId = s.conn.authedConnId := congrArg ServiceView.authedConnId h.view
  refine ⟨{ u with conn := { u.conn with voiceCalling := accepted } }, ?_, h.emits, ?_⟩
  · rw [← h.view, ← hPermissions]
    rfl
  · have hAudio : u.conn.audioEnabled = s.conn.audioEnabled :=
      congrArg (fun p : PermissionView => p.audio && !p.disableAudio) hPermissions
    unfold Connection.isAuthedViewCameraConn
    dsimp only
    rw [← hKind, ← hAudio]
    rfl

theorem callSwitched_closeVoiceCall : CallSwitched false s s.closeVoiceCall := by
  have hCall := callSwitched_of_quiet (.emit (.emit (.refl s) rfl) rfl :
    Quiet s ((s.emit (.setVoiceCallInputDevice false)).sendToCm .closeVoiceCall)) false
  simp only [Bool.and_false] at hCall
  exact hCall

theorem callSwitched_handleVoiceCall (accepted : Bool) :
    s.handleVoiceCall accepted = s ∨ CallSwitched accepted s (s.handleVoiceCall accepted) := by
  unfold handleVoiceCall
  split
  · refine Or.inr (callSwitched_of_quiet (.emit (.ite ?_ ?_) rfl) accepted)
    · exact .emit (.emit (.set (.refl s) rfl rfl) rfl) rfl
    · exact .emit (.set (.refl s) rfl rfl) rfl
  · exact Or.inl rfl

end Messages

end State

namespace Loop
variable (fixed : Fixed)

/-- The event authorizes the connection. -/
def Grants (l : Loop) (event : Event) : Prop :=
  l.state.conn.authorized = false ∧
  match event.2 with
  | .peer (.loginRequest lr) =>
      let s := l.stored event.1 lr
      s.kindAllowed fixed event.1 lr = true ∧
        s.Accepted fixed event.1 lr (State.desktopError fixed event.1 lr)
  | .peer (.auth2fa code _) => (l.received event.1).CodeAccepted fixed event.1 code
  | .peer (.switchSidesResponse uuid (some lr)) =>
      fixed.build.flutter = true ∧ (l.received event.1).switchSidesMatches event.1 uuid lr = true
  | .cm .authorize => True
  | _ => False

/-- The fields of the connection when the event authorizes it. -/
def logonView (l : Loop) (event : Event) : LoginView :=
  match event.2 with
  | .peer (.loginRequest lr) => (l.stored event.1 lr).conn.loginView.withKind lr.union
  | .peer (.switchSidesResponse _ (some lr)) =>
      { (l.stored event.1 lr).conn.loginView with fromSwitch := true }
  | _ => { l.state.conn.loginView with require2fa := none }

/-- What one event does to the services: nothing, or what one of the handlers
does that bear on them. -/
inductive ServiceCase (l : Loop) : Event → Loop → Prop where
  | inert {event l'} (hInert : State.Inert l.state l'.state) : ServiceCase l event l'
  | closes {event l'} (hCloses : State.Closes l.state l'.state) (hEnd : l'.running = false) :
      ServiceCase l event l'
  | quiet {event l'} (hQuiet : State.Quiet l.state l'.state) : ServiceCase l event l'
  | grants {event l' u} (hGrants : Grants fixed l event) (hBefore : State.Quiet l.state u)
      (hView : u.conn.loginView = logonView l event)
      (hAfter : State.Quiet (u.authorize.afterAuthorize fixed event.1) l'.state) :
      ServiceCase l event l'
  | handled {env msg l'} (hAuthorized : l.state.conn.authorized = true)
      (hSocket : l.state.conn.portForwardSocket = none) (hIdle : msg.isIdle = false)
      (hState : l'.state = ((l.received env).onAuthorizedMessage fixed env msg).1) :
      ServiceCase l (env, .peer msg) l'
  | switchPermission {env name enabled l'}
      (hState : l'.state = l.state.switchPermission fixed name enabled) :
      ServiceCase l (env, .cm (.switchPermission name enabled)) l'
  | voiceCallResponse {env accepted l'} (hState : l'.state = l.state.handleVoiceCall accepted) :
      ServiceCase l (env, .cm (.voiceCallResponse accepted)) l'
  | closeVoiceCall {env l'}
      (hState : l'.state = l.state.closeVoiceCall.send (.voiceCallRequest false)) :
      ServiceCase l (env, .cm .closeVoiceCall) l'

section Steps
variable {fixed} {l l' : Loop} {env : Env} {input : Input}

/-- An event that made the connection authorized is one that grants it. -/
theorem StepCase.grants (h : StepCase fixed l (env, input) l')
    (hOpen : l.state.conn.authorized = false) (hYes : l'.state.conn.authorized = true) :
    Grants fixed l (env, input) := by
  have same : ∀ {v : LoginView}, l'.state.conn.loginView = v → v.authorized = false →
      Grants fixed l (env, input) := by
    rintro v rfl hNo
    exact absurd (hYes.symm.trans hNo) (by simp)
  cases h with
  | ordinary _ hKeeps => exact same hKeeps.view hOpen
  | closes _ hCloses _ => exact same hCloses.login hOpen
  | @loginRequest _ lr _ _ hOutcome =>
      have hStored : (l.stored env lr).conn.loginView.authorized = false :=
        (congrArg LoginView.authorized (received_view l env)).trans hOpen
      cases hOutcome with
      | late hLate => exact absurd (hLate.symm.trans hStored) (by simp)
      | refused _ _ hView =>
          obtain ⟨terminal, address, hView, -⟩ := hView
          exact same hView hStored
      | offline _ _ _ _ hView =>
          exact same hView ((LoginView.withKind_authorized ..).trans hStored)
      | waiting _ _ hView => exact same hView ((LoginView.withKind_authorized ..).trans hStored)
      | accepted _ hKind hAccepted => exact ⟨hOpen, hKind, hAccepted⟩
  | wrongCode _ hKeeps => exact same hKeeps.view hOpen
  | rightCode hCode => exact ⟨hOpen, hCode⟩
  | noSwitch _ hKeeps => exact same hKeeps.view hOpen
  | wrongSwitch _ _ hKeeps =>
      exact same hKeeps.view ((congrArg LoginView.authorized (received_view l env)).trans hOpen)
  | rightSwitch hFlutter hMatches => exact ⟨hOpen, hFlutter, hMatches⟩
  | authorize => exact ⟨hOpen, trivial⟩

/-- A message that logs in, as a case for the services. -/
theorem serviceCase_of_logon (hCase : StepCase fixed l (env, input) l')
    (h : State.Logon fixed env (logonView l (env, input)) l.state l'.state) :
    ServiceCase fixed l (env, input) l' := by
  rcases h with hStill | ⟨u, hFirst, hNo, hView, hLast⟩
  · exact .quiet hStill.quiet
  · have hBefore := hFirst.quiet
    have hAfter := hLast.quiet
    have hSame : u.conn.authorized = l.state.conn.authorized :=
      congrArg ServiceView.authorized hBefore.view
    have hAdmits := State.admits_afterAuthorize fixed env u (State.admits_authorize u hNo)
    have hKept : l'.state.conn.authorized = (u.authorize.afterAuthorize fixed env).conn.authorized :=
      congrArg ServiceView.authorized hAfter.view
    have hYes : l'.state.conn.authorized = true :=
      hKept.trans (congrArg LoginView.authorized hAdmits.view)
    exact .grants (hCase.grants (hSame.symm.trans hNo) hYes) hBefore hView hAfter

theorem authorized_of_grants {event : Event} {u t : State} (h : Grants fixed l event)
    (hBefore : State.Quiet l.state u)
    (hAfter : State.Quiet (u.authorize.afterAuthorize fixed event.1) t) :
    t.conn.authorized = true := by
  have hNo : u.conn.authorized = false := (congrArg ServiceView.authorized hBefore.view).trans h.1
  have hAdmits := State.admits_afterAuthorize fixed event.1 u (State.admits_authorize u hNo)
  exact (congrArg ServiceView.authorized hAfter.view).trans
    (congrArg LoginView.authorized hAdmits.view)

theorem still_received (l : Loop) (env : Env) : State.Still l.state (l.received env) := by
  refine .set (.refl _) ?_ ?_ <;> (unfold received State.touchSession; split <;> rfl)

theorem received_conn (l : Loop) (env : Env) : (l.received env).conn = l.state.conn := by
  unfold received State.touchSession
  split <;> rfl

/-- Messages that neither log in nor are inert are for authorized connections. -/
theorem onMessage_eq {s : State} {msg : Message} (hIdle : msg.isIdle = false)
    (hLogin : msg.isLogin = false) :
    s.onMessage fixed env msg =
      if s.conn.authorized && s.conn.portForwardSocket.isNone then s.onAuthorizedMessage fixed env msg
      else (s, true) := by
  unfold State.onMessage
  split
  · cases hIdle
  · cases hLogin
  · cases hLogin
  · cases hIdle
  · cases hLogin
  · rfl

theorem service_case_of_message {msg : Message} (hIdle : msg.isIdle = false)
    (hLogin : msg.isLogin = false)
    (hState : l'.state = (l.state.onInput fixed env l.lastRecvTime (.peer msg)).1) :
    ServiceCase fixed l (env, .peer msg) l' := by
  have hMessage : l'.state = ((l.received env).onMessage fixed env msg).1 := hState
  have hView := received_view l env
  rw [onMessage_eq hIdle hLogin] at hMessage
  split_ifs at hMessage with hReady
  · simp only [Bool.and_eq_true, Option.isNone_iff_eq_none] at hReady
    exact .handled ((congrArg LoginView.authorized hView).symm.trans hReady.1)
      ((congrArg LoginView.portForwardSocket hView).symm.trans hReady.2) hIdle hMessage
  · refine .quiet ?_
    rw [hMessage]
    exact (still_received l env).quiet

variable (fixed) in
/-- Every event a running loop handles is one of the cases. -/
theorem service_case (event : Event) (h : l.running = true) (hOpen : l.state.conn.closed = false) :
    ServiceCase fixed l event (l.step fixed event) := by
  obtain ⟨env, input⟩ := event
  have hCase := step_case fixed l (env, input) h hOpen
  have hState := step_state fixed l env input h
  have hRunning := step_running fixed l env input h
  have hReceived := still_received l env
  have hView := received_view l env
  cases hIdle : input.isIdle with
  | true =>
      rcases State.idle_onInput fixed env hOpen l.lastRecvTime hIdle with
        ⟨hInert, -⟩ | ⟨hCloses, hEnd⟩
      · exact .inert (by rwa [hState])
      · exact .closes (by rwa [hState]) (by rwa [hRunning])
  | false =>
      cases input with
      | cm message =>
          cases message with
          | authorize =>
              refine serviceCase_of_logon hCase ?_
              rw [hState]
              exact State.logon_onAuthorize fixed env l.state
          | switchPermission name enabled => exact .switchPermission hState
          | voiceCallResponse accepted => exact .voiceCallResponse hState
          | closeVoiceCall => exact .closeVoiceCall hState
          | _ => cases hIdle
      | peer message =>
          cases message with
          | loginRequest lr =>
              refine serviceCase_of_logon hCase (.before hReceived ?_)
              rw [hState]
              exact State.logon_onLoginRequest fixed env (l.received env) lr
          | auth2fa code hwid =>
              refine serviceCase_of_logon hCase (.before hReceived ?_)
              rw [hState, logonView, ← hView]
              exact State.logon_onAuth2fa fixed env (l.received env) code hwid
          | switchSidesResponse uuid lr =>
              cases lr with
              | none =>
                  refine .quiet ?_
                  rw [hState]
                  exact hReceived.quiet
              | some lr =>
                  refine serviceCase_of_logon hCase (.before hReceived ?_)
                  rw [hState]
                  exact State.logon_onSwitchSidesResponse fixed env (l.received env) uuid lr
          | _ => exact service_case_of_message hIdle rfl hState
      | _ => cases hIdle

end Steps

end Loop

end HibtDesk
