import HibtDesk.Connection.Frame

/-! What each login message does to the fields a login decides, one
specification for each handler. The later modules use these and never unfold
the handlers. -/
namespace HibtDesk

/-- The session of a peer, unless its last message is too old. -/
def World.recentSession (world : World) (now : Nat) (key : SessionKey) : Option Session :=
  (world.retainSessions now).sessions key

/-- The first flag set, as `send_logon_response` looks at them. -/
def LoginView.authConnType (v : LoginView) : AuthConnType :=
  if v.fileTransfer.isSome then .fileTransfer
  else if v.portForwardSocket.isSome then .portForward
  else if v.viewCamera then .viewCamera
  else if v.terminal then .terminal
  else .remote

/-- The fields after the kind of a request was accepted. -/
def LoginView.withKind (v : LoginView) : Option LoginUnion → LoginView
  | some (.fileTransfer dir showHidden) => { v with fileTransfer := some (dir, showHidden) }
  | some .viewCamera => { v with viewCamera := true }
  | some (.terminal _) => { v with terminal := true }
  | some (.portForward host port) =>
      { v with
        portForwardSocket := some (forwardAddress host port)
        portForwardAddress := forwardAddress host port }
  | none => v

/-- The fields after the connection was authorized. -/
def LoginView.admitted (v : LoginView) (optionsInLogin : Option OptionMessage) : LoginView :=
  { v with
    authorized := true
    authedConnId := some v.authConnType
    optionsInLogin := optionsInLogin }

/-- The fields after `send_logon_response` when no second factor is missing. -/
def LoginView.authorize (v : LoginView) (optionsInLogin : Option OptionMessage) : LoginView :=
  if v.authorized then v else v.admitted optionsInLogin

section
variable (v : LoginView) (kind : Option LoginUnion)

@[simp] theorem LoginView.withKind_authorized : (v.withKind kind).authorized = v.authorized := by
  unfold LoginView.withKind
  split <;> rfl

@[simp] theorem LoginView.withKind_closed : (v.withKind kind).closed = v.closed := by
  unfold LoginView.withKind
  split <;> rfl

@[simp] theorem LoginView.withKind_require2fa : (v.withKind kind).require2fa = v.require2fa := by
  unfold LoginView.withKind
  split <;> rfl

@[simp] theorem LoginView.withKind_fromSwitch : (v.withKind kind).fromSwitch = v.fromSwitch := by
  unfold LoginView.withKind
  split <;> rfl

@[simp] theorem LoginView.withKind_lr : (v.withKind kind).lr = v.lr := by
  unfold LoginView.withKind
  split <;> rfl

@[simp] theorem LoginView.authorize_authorized (options : Option OptionMessage) :
    (v.authorize options).authorized = true := by
  unfold LoginView.authorize
  split_ifs with h
  · exact h
  · rfl

@[simp] theorem LoginView.authorize_closed (options : Option OptionMessage) :
    (v.authorize options).closed = v.closed := by
  unfold LoginView.authorize
  split_ifs <;> rfl

@[simp] theorem LoginView.authorize_lr (options : Option OptionMessage) :
    (v.authorize options).lr = v.lr := by
  unfold LoginView.authorize
  split_ifs <;> rfl

end

/-- The login shown last to the user of the connection manager. -/
def shownLogin (effects : List Effect) : Option CmLogin :=
  effects.reverse.findSome? fun
    | .toCm (.login login) => some login
    | _ => none

/-- How often a login was shown. -/
def shownCount (effects : List Effect) : Nat :=
  effects.countP fun
    | .toCm (.login _) => true
    | _ => false

/-- The login shown is the one of these fields. -/
def CmLogin.Shows (login : CmLogin) (v : LoginView) : Prop :=
  login.portForward = v.portForwardAddress ∧ login.isFileTransfer = v.fileTransfer.isSome ∧
    login.isViewCamera = v.viewCamera ∧ login.isTerminal = v.terminal

namespace State

/-- The stored request carries the hash of an enabled password, or of the
password of a recent session of this peer. -/
def PasswordMatches (fixed : Fixed) (env : Env) (s : State) : Prop :=
  let config := s.world.config
  (config.temporaryEnabled = true ∧
      s.conn.validateOnePassword fixed.deps config.temporaryPassword = true) ∨
    (config.permanentEnabled = true ∧
      s.conn.validateOnePassword fixed.deps config.permanentPassword = true) ∨
    ∃ session, s.world.recentSession env.now s.conn.sessionKey = some session ∧
      s.conn.validateOnePassword fixed.deps session.randomPassword = true

/-- A recent session of this peer has passed the second factor. -/
def SessionPassed (env : Env) (s : State) : Prop :=
  ∃ session, s.world.recentSession env.now s.conn.sessionKey = some session ∧ session.tfa = true

/-- From `s` to `t` the connection becomes authorized. -/
structure Admits (s t : State) : Prop where
  unauthorized : s.conn.authorized = false
  view : t.conn.loginView = s.conn.loginView.admitted t.conn.optionsInLogin
  emits : Emits (fun effect => effect.isLogin = false) s t

section Logon
variable (fixed : Fixed) (env : Env) (s : State)

theorem Admits.keeps {t u : State} (h : Admits s t) (h' : KeepsLogin t u) : Admits s u := by
  refine ⟨h.unauthorized, ?_, h.emits.trans h'.emits⟩
  have hOptions : u.conn.optionsInLogin = t.conn.optionsInLogin :=
    congrArg LoginView.optionsInLogin h'.view
  rw [h'.view, h.view, hOptions]

theorem keepsLogin_sendLoginAnswer : KeepsLogin s (s.sendLoginAnswer env).1 := by
  unfold sendLoginAnswer
  split_ifs
  · exact .emit (.refl s) rfl
  · exact .emit (.emit (.refl s) rfl) rfl
  · split
    · exact .emit (.emit (.refl s) rfl) rfl
    · exact .emit (.emit (.refl s) rfl) rfl

theorem keepsLogin_startKind (wait subService : Bool) :
    KeepsLogin s (s.startKind fixed env wait subService) := by
  unfold startKind
  split
  · exact .ite (.set (.refl s) rfl rfl) (.emit (.refl s) rfl)
  · refine .ite ?_ (.ite ?_ (.ite (keepsLogin_trySubMonitorServices fixed env s) (.refl s)))
    · unfold initTerminalService
      split
      · exact .set (.refl s) rfl rfl
      · exact .set (.refl s) rfl rfl
    · refine .emit (.set (.ite (.refl s) ?_) rfl rfl) rfl
      exact .set (.refl s) rfl rfl

theorem admits_applyOptionsInLogin {t : State} (h : Admits s t) :
    Admits s (t.applyOptionsInLogin fixed env) := by
  unfold applyOptionsInLogin
  split
  · refine Admits.keeps s ?_ (keepsLogin_updateOptions fixed env _ _)
    exact ⟨h.unauthorized, by
      have hView := h.view
      simp only [Connection.loginView, LoginView.admitted, LoginView.mk.injEq] at hView ⊢
      simp [hView], h.emits⟩
  · exact h

theorem admits_afterAuthorize {t : State} (h : Admits s t) :
    Admits s (t.afterAuthorize fixed env) := by
  unfold afterAuthorize
  split_ifs
  · exact h.keeps s (.emit (.refl t) rfl)
  · exact h.keeps s (.emit (.refl t) rfl)
  · exact (admits_applyOptionsInLogin fixed env s
      (h.keeps s (keepsLogin_sendLoginAnswer env t))).keeps s (keepsLogin_startKind fixed env _ _ _)

theorem admits_authorize (h : s.conn.authorized = false) : Admits s s.authorize :=
  ⟨h, rfl, .refl s⟩

theorem secondFactorMissing_spec :
    KeepsLogin s (s.secondFactorMissing fixed env).1 ∧
      ((s.secondFactorMissing fixed env).2 = true →
        s.conn.require2fa.isSome = true ∧ s.conn.fromSwitch = false) ∧
      ((s.secondFactorMissing fixed env).2 = false →
        s.conn.require2fa = none ∨ s.conn.fromSwitch = true ∨ s.SessionPassed env) := by
  unfold secondFactorMissing isRecentSession
  split_ifs with hRequired
  · dsimp only
    split
    · rename_i session hSession
      refine ⟨.set (.refl s) rfl rfl, fun h => ?_, fun h => ?_⟩
      · exact ⟨hRequired, by simp_all⟩
      · by_cases hSwitch : s.conn.fromSwitch = true
        · exact Or.inr (Or.inl hSwitch)
        · refine Or.inr (Or.inr ⟨session, hSession, ?_⟩)
          simp_all
    · refine ⟨.set (.refl s) rfl rfl, fun h => ?_, fun h => ?_⟩
      · exact ⟨hRequired, by simp_all⟩
      · exact Or.inr (Or.inl (by simp_all))
  · exact ⟨.refl s, by simp, fun _ => Or.inl (by simpa using hRequired)⟩

/-- `send_logon_response` authorizes the connection unless it is authorized
already or the second factor is missing. -/
theorem sendLogonResponse_spec :
    (KeepsLogin s (s.sendLogonResponse fixed env) ∧
      (s.conn.authorized = true ∨
        s.conn.authorized = false ∧ s.conn.require2fa.isSome = true ∧ s.conn.fromSwitch = false)) ∨
      (Admits s (s.sendLogonResponse fixed env) ∧
        (s.conn.require2fa = none ∨ s.conn.fromSwitch = true ∨ s.SessionPassed env)) := by
  obtain ⟨hKeeps, hMissing, hGiven⟩ := secondFactorMissing_spec fixed env s
  unfold sendLogonResponse
  split_ifs with hAuthorized
  · exact Or.inl ⟨.refl s, Or.inl hAuthorized⟩
  · have hOpen : s.conn.authorized = false := by simpa using hAuthorized
    dsimp only
    split_ifs with hm
    · exact Or.inl ⟨.emit hKeeps rfl, Or.inr ⟨hOpen, hMissing hm⟩⟩
    · refine Or.inr ⟨?_, hGiven (by simpa using hm)⟩
      have hStill : (s.secondFactorMissing fixed env).1.conn.authorized = false :=
        (congrArg LoginView.authorized hKeeps.view).trans hOpen
      have hAdmits := admits_afterAuthorize fixed env _ (admits_authorize _ hStill)
      refine ⟨hOpen, ?_, hKeeps.emits.trans hAdmits.emits⟩
      rw [hAdmits.view, hKeeps.view]

end Logon

section Effects

theorem shownLogin_append (effects more : List Effect) (h : ∀ e ∈ more, e.isLogin = false) :
    shownLogin (effects ++ more) = shownLogin effects := by
  unfold shownLogin
  rw [List.reverse_append, List.findSome?_append]
  have hNone : more.reverse.findSome? (fun
      | .toCm (.login login) => some login
      | _ => none) = none := by
    rw [List.findSome?_eq_none_iff]
    intro e hMem
    have hQuiet := h e (List.mem_reverse.mp hMem)
    split
    · cases hQuiet
    · rfl
  rw [hNone, Option.none_or]

theorem shownLogin_login (effects : List Effect) (login : CmLogin) :
    shownLogin (effects ++ [.toCm (.login login)]) = some login := by
  unfold shownLogin
  rw [List.reverse_append]
  rfl

theorem shownCount_append (effects more : List Effect) (h : ∀ e ∈ more, e.isLogin = false) :
    shownCount (effects ++ more) = shownCount effects := by
  unfold shownCount
  rw [List.countP_append, Nat.add_eq_left, List.countP_eq_zero]
  intro e hMem hShow
  have hQuiet := h e hMem
  split at hShow
  · cases hQuiet
  · cases hShow

theorem Emits.shown {s t : State} (h : Emits (fun effect => effect.isLogin = false) s t) :
    shownLogin t.effects = shownLogin s.effects ∧ shownCount t.effects = shownCount s.effects := by
  obtain ⟨more, hMore, hQuiet⟩ := h
  rw [hMore]
  exact ⟨shownLogin_append _ _ hQuiet, shownCount_append _ _ hQuiet⟩

/-- After a login message: no login was shown, or the one shown last is that of
the present fields; no relay was started. -/
structure Presents (s t : State) : Prop where
  shown : (shownLogin t.effects = shownLogin s.effects ∧
      shownCount t.effects = shownCount s.effects) ∨
    (shownCount s.effects < shownCount t.effects ∧
      ∃ login, shownLogin t.effects = some login ∧ login.Shows t.conn.loginView)
  emits : Emits (fun effect => ∀ target, effect ≠ .startRelay target) s t

theorem presents_of_emits {s t : State} (h : Emits (fun effect => effect.isLogin = false) s t) :
    Presents s t := by
  refine ⟨Or.inl h.shown, h.mono fun effect hQuiet target hRelay => ?_⟩
  rw [hRelay] at hQuiet
  cases hQuiet

theorem Presents.after {s t u : State} (h : Emits (fun effect => effect.isLogin = false) s t)
    (h' : Presents t u) : Presents s u := by
  refine ⟨?_, (presents_of_emits h).emits.trans h'.emits⟩
  rw [← h.shown.1, ← h.shown.2]
  exact h'.shown

theorem Presents.keeps {s t u : State} (h : Presents s t) (h' : KeepsLogin t u) : Presents s u := by
  refine ⟨?_, h.emits.trans (presents_of_emits h'.emits).emits⟩
  rw [h'.emits.shown.1, h'.emits.shown.2, h'.view]
  exact h.shown

theorem Emits.shownCount_le {allowed : Effect → Prop} {s t : State} (h : Emits allowed s t) :
    shownCount s.effects ≤ shownCount t.effects := by
  obtain ⟨more, hMore, -⟩ := h
  rw [hMore, shownCount, shownCount, List.countP_append]
  exact Nat.le_add_right ..

theorem Presents.tryStartCm {s t : State} (h : Presents s t) (peerId name : String)
    (authorized : Bool) : Presents s (t.tryStartCm peerId name authorized) := by
  refine ⟨Or.inr ⟨?_, _, shownLogin_login t.effects _, rfl, rfl, rfl, rfl⟩, h.emits.emit (by simp)⟩
  refine Nat.lt_of_le_of_lt h.emits.shownCount_le ?_
  unfold shownCount State.tryStartCm sendToCm
  rw [emit_effects, List.countP_append]
  exact Nat.lt_succ_self _

end Effects

section LoginRequest
variable (fixed : Fixed) (env : Env) (s : State)

/-- What the second half of a login request can do: nothing to the fields a
login decides, or authorize the connection after its password was accepted. -/
structure Answers (accepted : Prop) (s t : State) : Prop where
  view : t.conn.loginView = s.conn.loginView ∨
    (accepted ∧ s.conn.authorized = false ∧
      t.conn.loginView = s.conn.loginView.admitted t.conn.optionsInLogin)
  presents : Presents s t

theorem KeepsLogin.answers {p : Prop} {t : State} (h : KeepsLogin s t) :
    Answers p s t :=
  ⟨Or.inl h.view, presents_of_emits h.emits⟩

theorem Answers.tryStartCm {accepted : Prop} {t : State} (h : Answers accepted s t)
    (peerId name : String) (authorized : Bool) :
    Answers accepted s (t.tryStartCm peerId name authorized) :=
  ⟨h.view, h.presents.tryStartCm peerId name authorized⟩

theorem Answers.keeps {accepted : Prop} {t u : State} (h : Answers accepted s t)
    (h' : KeepsLogin t u) : Answers accepted s u := by
  refine ⟨?_, h.presents.keeps h'⟩
  have hOptions : u.conn.optionsInLogin = t.conn.optionsInLogin :=
    congrArg LoginView.optionsInLogin h'.view
  rw [h'.view, hOptions]
  exact h.view

theorem KeepsLogin.then_answers {accepted accepted' : Prop} {t u : State} (h : KeepsLogin s t)
    (h' : Answers accepted t u) (hAccepted : accepted → accepted') : Answers accepted' s u := by
  have hAuthorized : t.conn.authorized = s.conn.authorized :=
    congrArg LoginView.authorized h.view
  refine ⟨?_, ⟨?_, (presents_of_emits h.emits).emits.trans h'.presents.emits⟩⟩
  · rw [← h.view, ← hAuthorized]
    exact h'.view.imp_right fun hAdmit => ⟨hAccepted hAdmit.1, hAdmit.2⟩
  · rw [← h.emits.shown.1, ← h.emits.shown.2]
    exact h'.presents.shown

/-- The second factor is not needed or was given. -/
def SecondFactor (s : State) (env : Env) : Prop :=
  s.conn.require2fa = none ∨ s.conn.fromSwitch = true ∨ s.SessionPassed env

theorem answers_sendLogonResponse :
    Answers (s.SecondFactor env) s (s.sendLogonResponse fixed env) := by
  rcases sendLogonResponse_spec fixed env s with ⟨hKeeps, -⟩ | ⟨hAdmits, hGiven⟩
  · exact hKeeps.answers
  · exact ⟨Or.inr ⟨hGiven, hAdmits.unauthorized, hAdmits.view⟩, presents_of_emits hAdmits.emits⟩

theorem answers_loginAccepted (lr : LoginRequest) (errMsg : String) :
    Answers (errMsg = "" ∧ s.SecondFactor env) s (s.loginAccepted fixed env lr errMsg) := by
  unfold loginAccepted
  split_ifs with hReady
  · refine Answers.tryStartCm s ?_ _ _ _
    exact KeepsLogin.then_answers s (.refl s) (answers_sendLogonResponse fixed env s)
      fun h => ⟨hReady, h⟩
  · exact KeepsLogin.answers s (.emit (.refl s) rfl)

theorem checkFailure_spec (i : Fin 2) :
    KeepsLogin s (s.checkFailure fixed env i).1 ∧
      (s.checkFailure fixed env i).1.world = s.world ∧
      (s.checkFailure fixed env i).1.conn = s.conn ∧
      (s.checkFailure fixed env i).2 = HibtDesk.checkFailure fixed.deps s.conn.ip
        (s.world.loginFailures i) (minuteOf env.time) := by
  unfold checkFailure
  dsimp only
  split
  · exact ⟨.emit (.refl s) rfl, rfl, rfl, rfl⟩
  · exact ⟨.refl s, rfl, rfl, rfl⟩

theorem updateOrInsertSession_tfa (world : World) (now : Nat) (key : SessionKey)
    (password : Option String) (tfa : Bool) :
    ∃ session, (world.updateOrInsertSession now key password (some tfa)).sessions key = some session ∧
      session.tfa = tfa := by
  unfold World.updateOrInsertSession
  split
  · exact ⟨_, Function.update_self .., rfl⟩
  · exact ⟨_, Function.update_self .., rfl⟩

/-- `validate_password` accepts the hash of an enabled password. It changes
nothing but the session, which then has no second factor. -/
theorem validatePassword_spec :
    KeepsLogin s (s.validatePassword fixed env).1 ∧
      (s.validatePassword fixed env).1.conn = s.conn ∧
      ((s.validatePassword fixed env).2 = true → s.PasswordMatches fixed env) ∧
      ((s.validatePassword fixed env).1.SessionPassed env → s.SessionPassed env) := by
  unfold validatePassword
  dsimp only
  split_ifs with hTemporary hPermanent
  · refine ⟨.set (.refl s) rfl rfl, rfl, fun _ => Or.inl (by simpa using hTemporary), ?_⟩
    rintro ⟨session, hRecent, hPassed⟩
    -- the session just written has no second factor
    exfalso
    obtain ⟨written, hWritten, hTfa⟩ := updateOrInsertSession_tfa s.world env.now s.conn.sessionKey
      (some s.world.config.temporaryPassword) false
    simp only [World.recentSession, World.retainSessions, Option.filter_eq_some_iff] at hRecent
    have hSame : written = session := Option.some.inj (hWritten.symm.trans hRecent.1)
    rw [hSame, hPassed] at hTfa
    cases hTfa
  · exact ⟨.refl s, rfl, fun _ => Or.inr (Or.inl (by simpa using hPermanent)), fun h => h⟩
  · exact ⟨.refl s, rfl, fun h => by simp at h, fun h => h⟩

theorem updateFailure_keepsLogin (check : FailureCheck) (remove : Bool) (i : Fin 2) :
    KeepsLogin s (s.updateFailure fixed check remove i) := .set (.refl s) rfl rfl

theorem answers_loginPassword (lr : LoginRequest) (errMsg : String) :
    Answers (errMsg = "" ∧ s.PasswordMatches fixed env ∧ s.SecondFactor env) s
      (s.loginPassword fixed env lr errMsg) := by
  obtain ⟨hCheck, hWorld, hConn, -⟩ := checkFailure_spec fixed env s 0
  unfold loginPassword
  dsimp only
  generalize (s.checkFailure fixed env 0).1 = t at *
  generalize (s.checkFailure fixed env 0).2 = check at *
  obtain ⟨hValidate, hSame, hMatches, hPassed⟩ := validatePassword_spec fixed env t
  have hUpdate := fun remove =>
    (hCheck.trans hValidate).trans (updateFailure_keepsLogin fixed _ check remove 0)
  split_ifs with hError hValid hReady
  · exact hCheck.answers s
  · refine (hUpdate true).then_answers s (answers_loginAccepted fixed env _ lr errMsg) ?_
    rintro ⟨hReady, hFactor⟩
    refine ⟨hReady, ?_, ?_⟩
    · have hm := hMatches hValid
      unfold PasswordMatches at hm ⊢
      rwa [hWorld, hConn] at hm
    · rcases hFactor with hNone | hSwitch | ⟨session, hRecent, hTfa⟩
      · exact Or.inl ((congrArg LoginView.require2fa (hUpdate true).view).symm.trans hNone)
      · exact Or.inr (Or.inl ((congrArg LoginView.fromSwitch (hUpdate true).view).symm.trans hSwitch))
      · have hOld := hPassed ⟨session, hRecent, hTfa⟩
        unfold SessionPassed at hOld
        rw [hWorld, hConn] at hOld
        exact Or.inr (Or.inr hOld)
  · exact Answers.tryStartCm s (KeepsLogin.answers s (.emit (hUpdate false) rfl)) _ _ _
  · exact KeepsLogin.answers s (.emit (hUpdate false) rfl)

/-- The login request is one the chain accepts: the peer asks for this
machine, a click is not required, and the password is right. -/
structure Accepted (s : State) (lr : LoginRequest) (errMsg : String) : Prop where
  ready : errMsg = ""
  username : s.knowsUsername fixed lr = true
  noClick : s.needsClick env = false
  password : s.PasswordMatches fixed env
  secondFactor : s.SecondFactor env

theorem isRecentSession_spec :
    KeepsLogin s (s.isRecentSession fixed env false).1 ∧
      (s.isRecentSession fixed env false).1.conn = s.conn ∧
      (s.isRecentSession fixed env false).1.world = s.world.retainSessions env.now ∧
      ((s.isRecentSession fixed env false).2 = true → s.PasswordMatches fixed env) := by
  unfold isRecentSession
  dsimp only
  split
  · rename_i session hSession
    refine ⟨.set (.refl s) rfl rfl, rfl, rfl, fun h => ?_⟩
    exact Or.inr (Or.inr ⟨session, hSession, by simp_all⟩)
  · exact ⟨.set (.refl s) rfl rfl, rfl, rfl, fun h => by simp at h⟩

theorem recentSession_retain (world : World) (now : Nat) (key : SessionKey) :
    (world.retainSessions now).recentSession now key = world.recentSession now key := by
  unfold World.recentSession World.retainSessions
  simp only [Option.filter_filter]
  congr 1
  funext session
  exact Bool.and_self _

/-- Pruning the sessions changes no answer about them. -/
theorem of_retainSessions {t : State} (hConn : t.conn = s.conn)
    (hWorld : t.world = s.world.retainSessions env.now) :
    (t.PasswordMatches fixed env → s.PasswordMatches fixed env) ∧
      (t.SecondFactor env → s.SecondFactor env) := by
  unfold PasswordMatches SecondFactor SessionPassed
  rw [hConn, hWorld, recentSession_retain]
  exact ⟨fun h => h, fun h => h⟩

theorem loginChain_spec (lr : LoginRequest) (errMsg : String) :
    Answers (Accepted fixed env s lr errMsg) s (s.loginChain fixed env lr errMsg).1 ∧
      ((s.loginChain fixed env lr errMsg).2 = false ↔ s.knowsUsername fixed lr = false) := by
  obtain ⟨hKeeps, hConn, hWorld, hMatches⟩ := isRecentSession_spec fixed env s
  have hBack := of_retainSessions fixed env s hConn hWorld
  cases hName : s.knowsUsername fixed lr with
  | false =>
      have hCase : s.loginCase fixed env lr = (s, .offline) := by simp [loginCase, hName]
      simp only [loginChain, hCase]
      exact ⟨KeepsLogin.answers s (.emit (.refl s) rfl), by simp [refuse]⟩
  | true =>
      cases hClick : s.needsClick env with
      | true =>
          have hCase : s.loginCase fixed env lr = (s, .click) := by simp [loginCase, hName, hClick]
          simp only [loginChain, hCase]
          have hShown := Answers.tryStartCm s
            (KeepsLogin.answers (p := Accepted fixed env s lr errMsg) s (.refl s))
            lr.myId lr.myName false
          split_ifs
          · exact ⟨hShown.keeps s (.emit (.refl _) rfl), by simp⟩
          · exact ⟨hShown, by simp⟩
      | false =>
          cases hRecent : (s.isRecentSession fixed env false).2 with
          | true =>
              have hCase : s.loginCase fixed env lr =
                  ((s.isRecentSession fixed env false).1, .recentSession) := by
                simp [loginCase, hName, hClick, hRecent]
              simp only [loginChain, hCase]
              refine ⟨hKeeps.then_answers s (answers_loginAccepted fixed env _ lr errMsg) ?_, by simp⟩
              exact fun h => ⟨h.1, hName, hClick, hMatches hRecent, hBack.2 h.2⟩
          | false =>
              cases hEmpty : lr.password.isEmpty with
              | true =>
                  have hCase : s.loginCase fixed env lr =
                      ((s.isRecentSession fixed env false).1, .emptyPassword) := by
                    simp [loginCase, hName, hClick, hRecent, List.isEmpty_iff.mp hEmpty]
                  simp only [loginChain, hCase]
                  split_ifs
                  · exact ⟨(hKeeps.answers s).tryStartCm s _ _ _, by simp⟩
                  · exact ⟨KeepsLogin.answers s (.emit hKeeps rfl), by simp⟩
              | false =>
                  have hCase : s.loginCase fixed env lr =
                      ((s.isRecentSession fixed env false).1, .password) := by
                    simp only [loginCase, hName, hClick, hRecent, hEmpty]
                    rfl
                  simp only [loginChain, hCase]
                  refine ⟨hKeeps.then_answers s (answers_loginPassword fixed env _ lr errMsg) ?_,
                    by simp⟩
                  exact fun h => ⟨h.1, hName, hClick, hBack.1 h.2.1, hBack.2 h.2.2⟩

end LoginRequest

section Kind
variable (fixed : Fixed) (env : Env) (s : State) (lr : LoginRequest)

/-- The user a terminal runs as. -/
def terminalUser (osLogin : OsLogin) : Except String TerminalUserToken :=
  if fixed.build.targetOs ≠ .windows then .ok .selfUser
  else if osLogin.username ≠ "" then
    match env.administratorCheck osLogin.username osLogin.password with
    | none => .ok .selfUser
    | some error => .error error
  else if env.isPrelogin then
    .error "No active console user logged on, please connect and logon first."
  else if env.isInstalled then env.installedUserToken.map .currentLogonUser
  else .ok .selfUser

/-- A terminal may be opened: the permission is given, the build can log the
user in, and an existing service belongs to the same sort of user. -/
def terminalAllowed (serviceId : String) : Bool :=
  let osLogin := lr.osLogin.getD {}
  s.permission fixed "enable-terminal"
    && !(fixed.build.targetOs == .windows && osLogin.username != "" && !env.isInstalled)
    && match terminalUser fixed env osLogin with
      | .ok token => match env.isServiceSpecifiedUser serviceId with
        | some isUser => isUser == token.toTerminalServiceToken.isSome
        | none => true
      | .error _ => false

/-- What the kind of a login request needs is there. -/
def kindAllowed : Bool :=
  match lr.union with
  | some (.fileTransfer ..) => s.permission fixed "enable-file-transfer"
  | some .viewCamera => s.permission fixed "enable-camera"
  | some (.terminal serviceId) => s.terminalAllowed fixed env lr serviceId
  | some (.portForward host port) =>
      s.permission fixed "enable-tunnel" && env.connects (forwardAddress host port)
  | none => !env.isInPrivacyMode

/-- A request whose kind is refused changes at most these two fields, and the
first only if it asked for a terminal. -/
def RefusedView (kind : Option LoginUnion) (v w : LoginView) : Prop :=
  ∃ terminal address, w = { v with terminal := terminal, portForwardAddress := address } ∧
    (terminal = v.terminal ∨ ∃ serviceId, kind = some (.terminal serviceId))

theorem RefusedView.refl (kind : Option LoginUnion) (v : LoginView) : RefusedView kind v v :=
  ⟨v.terminal, v.portForwardAddress, rfl, Or.inl rfl⟩

theorem fillTerminalUserToken_spec (osLogin : OsLogin) :
    (∃ token, terminalUser fixed env osLogin = .ok token ∧
      s.fillTerminalUserToken fixed env osLogin =
        ({ s with conn := { s.conn with terminalUserToken := some token } }, none)) ∨
    (∃ error token, terminalUser fixed env osLogin = .error error ∧
      s.fillTerminalUserToken fixed env osLogin =
        ({ s with conn := { s.conn with terminalUserToken := token } }, some error)) := by
  unfold fillTerminalUserToken terminalUser
  dsimp only
  split_ifs
  · exact Or.inl ⟨_, rfl, rfl⟩
  · cases env.administratorCheck osLogin.username osLogin.password with
    | none => exact Or.inl ⟨_, rfl, rfl⟩
    | some error => exact Or.inr ⟨error, s.conn.terminalUserToken, rfl, rfl⟩
  · exact Or.inr ⟨_, none, rfl, rfl⟩
  · cases env.installedUserToken with
    | ok token => exact Or.inl ⟨_, rfl, rfl⟩
    | error error => exact Or.inr ⟨error, s.conn.terminalUserToken, rfl, rfl⟩
  · exact Or.inl ⟨_, rfl, rfl⟩

theorem terminalUserMismatch_eq {t : TerminalUserToken}
    (h : s.conn.terminalUserToken = some t) :
    s.terminalUserMismatch env = !match env.isServiceSpecifiedUser s.conn.terminalServiceId with
      | some isUser => isUser == t.toTerminalServiceToken.isSome
      | none => true := by
  unfold terminalUserMismatch
  rw [h]
  cases env.isServiceSpecifiedUser s.conn.terminalServiceId <;> rfl

/-- The result of the first half of a login request: refused, or with the
fields of its kind set. -/
structure KindChecked (kind : Option LoginUnion) (s : State) (r : State × Bool) : Prop where
  emits : Emits (fun effect => effect.isLogin = false) s r.1
  world : r.1.world = s.world
  refused : r.2 = false → RefusedView kind s.conn.loginView r.1.conn.loginView
  accepted : r.2 = true → r.1.conn.loginView = s.conn.loginView.withKind kind

theorem kindChecked_refuse {kind : Option LoginUnion} {t : State} (error : String)
    (hEmits : Emits (fun effect => effect.isLogin = false) s t) (hWorld : t.world = s.world)
    (hView : RefusedView kind s.conn.loginView t.conn.loginView) :
    KindChecked kind s (t.refuse error) :=
  ⟨hEmits.emit rfl, hWorld, fun _ => hView, fun h => by cases h⟩

theorem loginTerminal_spec (serviceId : String) :
    KindChecked (some (.terminal serviceId)) s
        (s.loginTerminal fixed env lr serviceId) ∧
      (s.loginTerminal fixed env lr serviceId).2 = s.terminalAllowed fixed env lr serviceId := by
  have hRefuse := fun error => kindChecked_refuse s error (.refl s) rfl
    (.refl (some (.terminal serviceId)) _)
  unfold loginTerminal terminalAllowed
  dsimp only
  split_ifs with hPermission hInstalled
  · exact ⟨hRefuse _, by simp_all [refuse]⟩
  · exact ⟨hRefuse _, by simp_all [refuse]⟩
  · have hAllowed : s.permission fixed "enable-terminal" = true := by simpa using hPermission
    have hCan : (fixed.build.targetOs == .windows && (lr.osLogin.getD {}).username != ""
        && !env.isInstalled) = false := by
      simpa [and_assoc] using hInstalled
    simp only [hAllowed, hCan, Bool.not_false, Bool.true_and]
    unfold checkTerminalUser
    rcases fillTerminalUserToken_spec fixed env (s.openTerminal serviceId) (lr.osLogin.getD {}) with
      ⟨token, hUser, hFill⟩ | ⟨error, token, hUser, hFill⟩
    · simp only [hUser, hFill]
      rw [terminalUserMismatch_eq (t := token) env _ rfl]
      split_ifs with hMismatch
      · refine ⟨kindChecked_refuse s _ (.refl s) rfl ⟨true, _, rfl, Or.inr ⟨_, rfl⟩⟩, ?_⟩
        exact (Bool.not_eq_true' _).mp hMismatch |>.symm
      · refine ⟨⟨.refl s, rfl, fun h => by simp at h, fun _ => rfl⟩, ?_⟩
        simp only [Bool.not_eq_true', Bool.not_eq_false] at hMismatch
        exact hMismatch.symm
    · simp only [hUser, hFill]
      exact ⟨kindChecked_refuse s _ (.refl s) rfl ⟨true, _, rfl, Or.inr ⟨_, rfl⟩⟩, rfl⟩

theorem loginPortForward_spec (host : String) (port : Int) :
    KindChecked (some (.portForward host port)) s
        (s.loginPortForward fixed env host port) ∧
      (s.loginPortForward fixed env host port).2 =
        (s.permission fixed "enable-tunnel" && env.connects (forwardAddress host port)) := by
  unfold loginPortForward
  dsimp only
  split_ifs with hPermission hConnects
  · exact ⟨kindChecked_refuse s _ (.refl s) rfl (.refl _ _), by simp_all [refuse]⟩
  · exact ⟨⟨.refl s, rfl, fun h => by simp at h, fun _ => rfl⟩, by simp_all⟩
  · exact ⟨kindChecked_refuse s _ (.refl s) rfl ⟨_, _, rfl, Or.inl rfl⟩, by simp_all [refuse]⟩
  · exact ⟨kindChecked_refuse s _ (.refl s) rfl ⟨_, _, rfl, Or.inl rfl⟩, by simp_all [refuse]⟩

theorem loginKind_spec :
    KindChecked lr.union s (s.loginKind fixed env lr) ∧
      (s.loginKind fixed env lr).2 = s.kindAllowed fixed env lr := by
  unfold loginKind kindAllowed
  split
  · rename_i dir showHidden hUnion
    split_ifs with hPermission
    · exact ⟨kindChecked_refuse s _ (.refl s) rfl (.refl _ _), by simp_all [refuse]⟩
    · exact ⟨⟨.refl s, rfl, fun h => by simp at h, fun _ => by rw [hUnion]; rfl⟩, by simp_all⟩
  · rename_i hUnion
    split_ifs with hPermission
    · exact ⟨kindChecked_refuse s _ (.refl s) rfl (.refl _ _), by simp_all [refuse]⟩
    · exact ⟨⟨.refl s, rfl, fun h => by simp at h, fun _ => by rw [hUnion]; rfl⟩, by simp_all⟩
  · rename_i serviceId hUnion
    rw [hUnion]
    exact loginTerminal_spec fixed env s lr serviceId
  · rename_i host port hUnion
    rw [hUnion]
    exact loginPortForward_spec fixed env s host port
  · rename_i hUnion
    split_ifs with hPrivacy
    · exact ⟨kindChecked_refuse s _ (.refl s) rfl (.refl _ _), by simp_all [refuse]⟩
    · exact ⟨⟨.refl s, rfl, fun h => by simp at h, fun _ => by rw [hUnion]; rfl⟩, by simp_all⟩

end Kind

section Messages
variable (fixed : Fixed) (env : Env) (s : State) (lr : LoginRequest)

/-- What a login request can come to, from the state `s` in which it has been
stored already. -/
inductive LoginOutcome : State × Bool → Prop where
  /-- The connection is authorized already. -/
  | late {t : State} (hAuthorized : s.conn.authorized = true) (hSame : t = s) :
      LoginOutcome (t, true)
  /-- The kind is refused, which ends the loop. -/
  | refused {t : State} (hAuthorized : s.conn.authorized = false)
      (hKind : s.kindAllowed fixed env lr = false)
      (hView : RefusedView lr.union s.conn.loginView t.conn.loginView) (hPresents : Presents s t) :
      LoginOutcome (t, false)
  /-- The peer asks for another machine, which ends the loop. -/
  | offline {t : State} (hAuthorized : s.conn.authorized = false)
      (hKind : s.kindAllowed fixed env lr = true) (hName : s.knowsUsername fixed lr = false)
      (hReady : desktopError fixed env lr = "" ∨
        desktopError fixed env lr = "Desktop session not ready")
      (hView : t.conn.loginView = s.conn.loginView.withKind lr.union) (hPresents : Presents s t) :
      LoginOutcome (t, false)
  /-- The request is not accepted yet, and the loop goes on. -/
  | waiting {t : State} (hAuthorized : s.conn.authorized = false)
      (hKind : s.kindAllowed fixed env lr = true)
      (hView : t.conn.loginView = s.conn.loginView.withKind lr.union) (hPresents : Presents s t) :
      LoginOutcome (t, true)
  /-- The request is accepted and the connection authorized. -/
  | accepted {t : State} (hAuthorized : s.conn.authorized = false)
      (hKind : s.kindAllowed fixed env lr = true)
      (hAccepted : s.Accepted fixed env lr (desktopError fixed env lr))
      (hView : t.conn.loginView =
        (s.conn.loginView.withKind lr.union).admitted t.conn.optionsInLogin)
      (hPresents : Presents s t) : LoginOutcome (t, true)

theorem LoginOutcome.presents {r : State × Bool} (h : LoginOutcome fixed env s lr r) :
    Presents s r.1 := by
  cases h with
  | late _ hSame =>
      rw [hSame]
      exact presents_of_emits (.refl s)
  | refused _ _ _ hPresents => exact hPresents
  | offline _ _ _ _ _ hPresents => exact hPresents
  | waiting _ _ _ hPresents => exact hPresents
  | accepted _ _ _ _ hPresents => exact hPresents

/-- A login request neither closes the connection nor takes back what it has. -/
theorem LoginOutcome.view {r : State × Bool} (h : LoginOutcome fixed env s lr r) :
    r.1.conn.closed = s.conn.closed ∧ r.1.conn.lr = s.conn.lr ∧
      r.1.conn.require2fa = s.conn.require2fa ∧ r.1.conn.fromSwitch = s.conn.fromSwitch ∧
      (s.conn.authorized = true → r = (s, true)) := by
  have fields : ∀ {t : State} {v : LoginView}, t.conn.loginView = v →
      v.closed = s.conn.closed → v.lr = s.conn.lr → v.require2fa = s.conn.require2fa →
      v.fromSwitch = s.conn.fromSwitch → t.conn.closed = s.conn.closed ∧ t.conn.lr = s.conn.lr ∧
        t.conn.require2fa = s.conn.require2fa ∧ t.conn.fromSwitch = s.conn.fromSwitch := by
    rintro t v rfl h₁ h₂ h₃ h₄
    exact ⟨h₁, h₂, h₃, h₄⟩
  have late : s.conn.authorized = false → ∀ {P : Prop}, s.conn.authorized = true → P := by
    intro hNo P hYes
    rw [hNo] at hYes
    cases hYes
  cases h with
  | late _ hSame =>
      rw [hSame]
      exact ⟨rfl, rfl, rfl, rfl, fun _ => rfl⟩
  | refused hAuthorized _ hView =>
      obtain ⟨terminal, address, hView, -⟩ := hView
      obtain ⟨h₁, h₂, h₃, h₄⟩ := fields hView rfl rfl rfl rfl
      exact ⟨h₁, h₂, h₃, h₄, late hAuthorized⟩
  | offline hAuthorized _ _ _ hView =>
      obtain ⟨h₁, h₂, h₃, h₄⟩ := fields hView (by simp; rfl) (by simp; rfl) (by simp; rfl) (by simp; rfl)
      exact ⟨h₁, h₂, h₃, h₄, late hAuthorized⟩
  | waiting hAuthorized _ hView =>
      obtain ⟨h₁, h₂, h₃, h₄⟩ := fields hView (by simp; rfl) (by simp; rfl) (by simp; rfl) (by simp; rfl)
      exact ⟨h₁, h₂, h₃, h₄, late hAuthorized⟩
  | accepted hAuthorized _ _ hView =>
      obtain ⟨h₁, h₂, h₃, h₄⟩ := fields hView (by simp [LoginView.admitted]; rfl)
        (by simp [LoginView.admitted]; rfl) (by simp [LoginView.admitted]; rfl)
        (by simp [LoginView.admitted]; rfl)
      exact ⟨h₁, h₂, h₃, h₄, late hAuthorized⟩

/-- Acceptance reads nothing that the kind of the request sets. -/
theorem Accepted.of_kind {t : State} {errMsg : String} (h : t.Accepted fixed env lr errMsg)
    (hWorld : t.world = s.world)
    (hView : t.conn.loginView = s.conn.loginView.withKind lr.union) :
    s.Accepted fixed env lr errMsg := by
  have hSalt : t.conn.salt = s.conn.salt ∧ t.conn.challenge = s.conn.challenge ∧
      t.conn.lr = s.conn.lr ∧ t.conn.require2fa = s.conn.require2fa ∧
      t.conn.fromSwitch = s.conn.fromSwitch := by
    have hFields := hView
    unfold LoginView.withKind at hFields
    split at hFields <;> simp_all [Connection.loginView]
  obtain ⟨hReady, hName, hClick, hPassword, hFactor⟩ := h
  refine ⟨hReady, ?_, ?_, ?_, ?_⟩
  · rwa [knowsUsername, hWorld] at hName
  · rwa [needsClick, hWorld] at hClick
  · unfold PasswordMatches at hPassword ⊢
    simpa only [hWorld, Connection.validateOnePassword, Connection.sessionKey, hSalt] using hPassword
  · unfold SecondFactor SessionPassed at hFactor ⊢
    simpa only [hWorld, Connection.sessionKey, hSalt] using hFactor

theorem onLoginRequest_spec :
    LoginOutcome fixed env (s.handleLoginRequestWithoutValidation env lr) lr
      (s.onLoginRequest fixed env lr) := by
  unfold onLoginRequest
  generalize s.handleLoginRequestWithoutValidation env lr = t
  dsimp only
  cases hAuthorized : t.conn.authorized with
  | true => exact .late hAuthorized rfl
  | false =>
      obtain ⟨hChecked, hKind⟩ := loginKind_spec fixed env t lr
      have hPresents := presents_of_emits hChecked.emits
      simp only [Bool.false_eq_true, if_false]
      split_ifs with hRefused hFatal
      · have hEnd : (t.loginKind fixed env lr).2 = false := by simpa using hRefused
        exact .refused hAuthorized (hKind.symm.trans hEnd) (hChecked.refused hEnd) hPresents
      · have hGood : (t.loginKind fixed env lr).2 = true := by simpa using hRefused
        refine .waiting hAuthorized (hKind.symm.trans hGood) ?_ (hPresents.keeps ?_)
        · exact hChecked.accepted hGood
        · exact .emit (.set (.refl _) rfl rfl) rfl
      · have hGood : (t.loginKind fixed env lr).2 = true := by simpa using hRefused
        have hKind' := hKind.symm.trans hGood
        have hReady : desktopError fixed env lr = "" ∨
            desktopError fixed env lr = "Desktop session not ready" := by
          by_cases he : desktopError fixed env lr = ""
          · exact Or.inl he
          · exact Or.inr (by simpa [he] using hFatal)
        generalize hStart : ({ (t.loginKind fixed env lr).1 with
          conn := { (t.loginKind fixed env lr).1.conn with cmIpcStarted := true } } : State) = u
        have hView : u.conn.loginView = t.conn.loginView.withKind lr.union := by
          rw [← hStart]
          exact hChecked.accepted hGood
        have hWorld : u.world = t.world := by
          rw [← hStart]
          exact hChecked.world
        have hEmits : Emits (fun effect => effect.isLogin = false) t u := by
          rw [← hStart]
          exact hChecked.emits
        obtain ⟨hAnswers, hOffline⟩ := loginChain_spec fixed env u lr (desktopError fixed env lr)
        have hShown := Presents.after hEmits hAnswers.presents
        cases hEnd : (u.loginChain fixed env lr (desktopError fixed env lr)).2 with
        | false =>
            have hName := hOffline.mp hEnd
            rw [show u.loginChain fixed env lr (desktopError fixed env lr) =
              ((u.loginChain fixed env lr (desktopError fixed env lr)).1, false) by rw [← hEnd]]
            refine .offline hAuthorized hKind' ?_ hReady ?_ hShown
            · rwa [knowsUsername, hWorld] at hName
            · rcases hAnswers.view with hSame | ⟨hAccepted, -⟩
              · rw [hSame, hView]
              · rw [hAccepted.username] at hName
                cases hName
        | true =>
            rw [show u.loginChain fixed env lr (desktopError fixed env lr) =
              ((u.loginChain fixed env lr (desktopError fixed env lr)).1, true) by rw [← hEnd]]
            rcases hAnswers.view with hSame | ⟨hAccepted, -, hAdmitted⟩
            · exact .waiting hAuthorized hKind' (hSame.trans hView) hShown
            · refine .accepted hAuthorized hKind' (hAccepted.of_kind fixed env t lr hWorld hView) ?_ hShown
              rw [hAdmitted, hView]

theorem sendLogonResponse_view (h : s.conn.require2fa = none ∨ s.conn.fromSwitch = true) :
    (s.sendLogonResponse fixed env).conn.loginView =
        LoginView.authorize s.conn.loginView (s.sendLogonResponse fixed env).conn.optionsInLogin ∧
      Emits (fun effect => effect.isLogin = false) s (s.sendLogonResponse fixed env) := by
  rcases sendLogonResponse_spec fixed env s with ⟨hKeeps, hWhy⟩ | ⟨hAdmits, -⟩
  · refine ⟨?_, hKeeps.emits⟩
    rcases hWhy with hAuthorized | ⟨-, hSome, hSwitch⟩
    · have hView : s.conn.loginView.authorized = true := hAuthorized
      rw [hKeeps.view, LoginView.authorize, if_pos hView]
    · rcases h with hNone | hTrue
      · rw [hNone] at hSome
        cases hSome
      · rw [hSwitch] at hTrue
        cases hTrue
  · refine ⟨?_, hAdmits.emits⟩
    have hOpen : s.conn.loginView.authorized = false := hAdmits.unauthorized
    rw [hAdmits.view, LoginView.authorize, hOpen]
    rfl

theorem acceptCode_spec (check : FailureCheck) (hwid : Bytes) :
    Presents s (s.acceptCode fixed env check hwid) ∧ ∃ options,
      (s.acceptCode fixed env check hwid).conn.loginView =
        LoginView.authorize { s.conn.loginView with require2fa := none } options := by
  have hPass : (s.passSecondFactor fixed env check).conn.loginView =
      { s.conn.loginView with require2fa := none } := rfl
  obtain ⟨hView, hQuiet⟩ := sendLogonResponse_view fixed env (s.passSecondFactor fixed env check)
    (Or.inl (congrArg LoginView.require2fa hPass))
  have hRemember : ∀ t : State, KeepsLogin t (t.rememberDevice env hwid) := by
    intro t
    unfold rememberDevice
    split_ifs
    · exact .set (.refl t) rfl rfl
    · exact .refl t
  unfold acceptCode
  refine ⟨Presents.keeps (.tryStartCm (presents_of_emits ?_) _ _ _) (hRemember _),
    ((s.passSecondFactor fixed env check).sendLogonResponse fixed env).conn.optionsInLogin, ?_⟩
  · exact hQuiet
  · rw [(hRemember _).view]
    exact hView

theorem onAuth2fa_spec (code : String) (hwid : Bytes) :
    Presents s (s.onAuth2fa fixed env code hwid) ∧
      (¬ CodeAccepted fixed env s code → KeepsLogin s (s.onAuth2fa fixed env code hwid)) ∧
      (CodeAccepted fixed env s code → ∃ options,
        (s.onAuth2fa fixed env code hwid).conn.loginView =
          LoginView.authorize { s.conn.loginView with require2fa := none } options) := by
  obtain ⟨hKeeps, -, hConn, hCheck⟩ := checkFailure_spec fixed env s 1
  have quiet : ∀ t, KeepsLogin s t → ¬ CodeAccepted fixed env s code →
      Presents s t ∧ (¬ CodeAccepted fixed env s code → KeepsLogin s t) ∧
        (CodeAccepted fixed env s code → ∃ options, t.conn.loginView =
          LoginView.authorize { s.conn.loginView with require2fa := none } options) := fun t h hNot =>
    ⟨presents_of_emits h.emits, fun _ => h, fun hYes => absurd hYes hNot⟩
  unfold onAuth2fa
  dsimp only
  rw [hConn]
  split_ifs with hError
  · refine quiet _ hKeeps ?_
    rintro ⟨-, -, -, hNone⟩
    rw [← hCheck] at hNone
    simp [hNone] at hError
  · have hNone : (HibtDesk.checkFailure fixed.deps s.conn.ip (s.world.loginFailures 1)
        (minuteOf env.time)).error = none := by
      rw [← hCheck]
      simpa using hError
    split
    · rename_i hNot
      refine quiet _ hKeeps ?_
      rintro ⟨totp, hTotp, -⟩
      rw [hNot] at hTotp
      cases hTotp
    · rename_i totp hTotp
      have hCode : CodeAccepted fixed env s code ↔ env.checkCurrent totp code = some true := by
        unfold CodeAccepted
        simp [hTotp, hNone]
      split
      · rename_i hBad
        exact quiet _ hKeeps (by simp [hCode, hBad])
      · rename_i hGood
        obtain ⟨hPresents, options, hView⟩ := acceptCode_spec fixed env
          (s.checkFailure fixed env 1).1 (s.checkFailure fixed env 1).2 hwid
        refine ⟨Presents.after hKeeps.emits hPresents, fun hNot => absurd (hCode.mpr hGood) hNot,
          fun _ => ⟨options, ?_⟩⟩
        rw [hView, hConn]
      · rename_i hBad
        refine quiet _ (.emit (hKeeps.trans (updateFailure_keepsLogin ..)) rfl) ?_
        simp [hCode, hBad]

/-- The fields after a correct answer to a switch of sides. -/
theorem onSwitchSidesResponse_spec (uuid : Bytes) (lr : Option LoginRequest) :
    Presents s (s.onSwitchSidesResponse fixed env uuid lr) ∧
      (((lr = none ∨ fixed.build.flutter = false) ∧
          KeepsLogin s (s.onSwitchSidesResponse fixed env uuid lr)) ∨
        ∃ stored, lr = some stored ∧ fixed.build.flutter = true ∧
          let t := s.handleLoginRequestWithoutValidation env stored
          (t.switchSidesMatches env uuid stored = false ∧
            KeepsLogin t (s.onSwitchSidesResponse fixed env uuid lr)) ∨
          (t.switchSidesMatches env uuid stored = true ∧ ∃ options,
            (s.onSwitchSidesResponse fixed env uuid lr).conn.loginView =
              LoginView.authorize { t.conn.loginView with fromSwitch := true } options)) := by
  unfold onSwitchSidesResponse
  cases lr with
  | none => exact ⟨presents_of_emits (.refl s), Or.inl ⟨Or.inl rfl, .refl s⟩⟩
  | some stored =>
      dsimp only
      cases hFlutter : fixed.build.flutter with
      | false => exact ⟨presents_of_emits (.refl s), Or.inl ⟨Or.inr rfl, .refl s⟩⟩
      | true =>
          simp only [if_true]
          generalize hStored : s.handleLoginRequestWithoutValidation env stored = t
          have hEmits : Emits (fun effect => effect.isLogin = false) s t := by
            rw [← hStored]
            exact .refl s
          cases hMatches : t.switchSidesMatches env uuid stored with
          | false =>
              simp only [Bool.false_eq_true, if_false]
              exact ⟨presents_of_emits hEmits,
                Or.inr ⟨stored, rfl, trivial, Or.inl (by rw [hStored]; exact ⟨hMatches, .set (.refl t) rfl rfl⟩)⟩⟩
          | true =>
              simp only [if_true]
              obtain ⟨hView, hQuiet⟩ := sendLogonResponse_view fixed env
                { t.takeSwitchSides env stored with
                  conn := { (t.takeSwitchSides env stored).conn with fromSwitch := true } } (Or.inr rfl)
              have hLate := hEmits.trans hQuiet
              refine ⟨Presents.keeps (.tryStartCm (presents_of_emits hLate) _ _ _)
                (.set (.refl _) rfl rfl), ?_⟩
              refine Or.inr ⟨stored, rfl, trivial, Or.inr ?_⟩
              rw [hStored]
              exact ⟨hMatches, _, hView⟩

theorem onAuthorize_spec :
    Presents s (s.onAuthorize fixed env) ∧ ∃ options,
      (s.onAuthorize fixed env).conn.loginView =
        LoginView.authorize { s.conn.loginView with require2fa := none } options := by
  obtain ⟨hView, hEmits⟩ := sendLogonResponse_view fixed env
    { s with conn := { s.conn with require2fa := none } } (Or.inl rfl)
  exact ⟨presents_of_emits hEmits, _, hView⟩

end Messages

end State

end HibtDesk
