import HibtDesk.Connection.Inversion

/-! Which kind a connection is authorized as. Each kind of login request sets
its own flag, no request clears the flag of another kind, and the kind
recorded is the first flag found set. -/
namespace HibtDesk

/-- The kind a login request asks for. -/
def kindOf : Option LoginUnion → AuthConnType
  | some (.fileTransfer ..) => .fileTransfer
  | some .viewCamera => .viewCamera
  | some (.terminal _) => .terminal
  | some (.portForward ..) => .portForward
  | none => .remote

namespace LoginView

/-- The flag of a kind; remote control has none. -/
def flag (v : LoginView) : AuthConnType → Bool
  | .fileTransfer => v.fileTransfer.isSome
  | .portForward => v.portForwardSocket.isSome
  | .viewCamera => v.viewCamera
  | .terminal => v.terminal
  | .remote => false

/-- At most one of the four flags is set. -/
def AtMostOne (v : LoginView) : Prop := ∀ k k', v.flag k = true → v.flag k' = true → k = k'

/-- No flag but that of the kind is set. -/
def Only (v : LoginView) (k : AuthConnType) : Prop := ∀ k', v.flag k' = true → k' = k

theorem Only.atMostOne {v : LoginView} {k : AuthConnType} (h : v.Only k) : v.AtMostOne :=
  fun _ _ h₁ h₂ => (h _ h₁).trans (h _ h₂).symm

/-- With no flag of another kind, the first flag is the flag of the kind. -/
theorem authConnType_of_only {v : LoginView} {k : AuthConnType} (h : v.Only k)
    (hSet : k = .remote ∨ v.flag k = true) : v.authConnType = k := by
  have hFile := h .fileTransfer
  have hForward := h .portForward
  have hCamera := h .viewCamera
  have hTerminal := h .terminal
  unfold authConnType
  simp only [flag] at hFile hForward hCamera hTerminal hSet
  split_ifs with h₁ h₂ h₃ h₄
  · exact hFile h₁
  · exact hForward h₂
  · exact hCamera h₃
  · exact hTerminal h₄
  · cases k <;> simp_all

theorem authConnType_congr {v w : LoginView} (h : ∀ k, v.flag k = w.flag k) :
    v.authConnType = w.authConnType := by
  have hFile := h .fileTransfer
  have hForward := h .portForward
  have hCamera := h .viewCamera
  have hTerminal := h .terminal
  simp only [flag] at hFile hForward hCamera hTerminal
  simp only [authConnType, hFile, hForward, hCamera, hTerminal]

theorem flag_withKind (v : LoginView) (kind : Option LoginUnion) (k : AuthConnType) :
    (v.withKind kind).flag k = (v.flag k || (decide (k = kindOf kind) && decide (k ≠ .remote))) := by
  unfold withKind
  split <;> cases k <;> simp [flag, kindOf]

/-- The only flag set is that of the stored request. -/
def Settled (v : LoginView) : Prop :=
  v.Only (kindOf v.lr.union) ∧
    (kindOf v.lr.union = .remote ∨ v.flag (kindOf v.lr.union) = true)

theorem Settled.authConnType {v : LoginView} (h : v.Settled) :
    v.authConnType = kindOf v.lr.union :=
  authConnType_of_only h.1 h.2

/-- A request that finds no flag of another kind leaves its own. -/
theorem settled_withKind {v : LoginView} (h : v.Only (kindOf v.lr.union)) :
    (v.withKind v.lr.union).Settled := by
  unfold Settled Only
  simp only [withKind_lr, flag_withKind]
  refine ⟨fun k hk => ?_, ?_⟩
  · rcases Bool.or_eq_true_iff.mp hk with hOld | hNew
    · exact h k hOld
    · simp_all
  · by_cases hRemote : kindOf v.lr.union = .remote
    · exact Or.inl hRemote
    · exact Or.inr (by simp [hRemote])

/-- The address shown tells whether a target socket is held. -/
def AddressShown (v : LoginView) : Prop :=
  v.portForwardSocket.isSome = true ↔ v.portForwardAddress ≠ ""

theorem forwardAddress_ne (host : String) (port : Int) : forwardAddress host port ≠ "" := by
  unfold forwardAddress
  intro h
  have hLength := congrArg String.length h
  simp [String.length_append] at hLength

theorem addressShown_withKind {v : LoginView} (h : v.AddressShown) (kind : Option LoginUnion) :
    (v.withKind kind).AddressShown := by
  unfold withKind
  split
  · exact h
  · exact h
  · exact h
  · simp [AddressShown, forwardAddress_ne]
  · exact h

/-- One login is shown for one kind only. -/
theorem authConnType_of_shows {v w : LoginView} {login : CmLogin} (hv : login.Shows v)
    (hw : login.Shows w) (hvAddress : v.AddressShown) (hwAddress : w.AddressShown) :
    v.authConnType = w.authConnType := by
  obtain ⟨hAddress, hFile, hCamera, hTerminal⟩ := hv
  obtain ⟨hAddress', hFile', hCamera', hTerminal'⟩ := hw
  have hSocket : v.portForwardSocket.isSome = w.portForwardSocket.isSome := by
    unfold AddressShown at hvAddress hwAddress
    rw [Bool.eq_iff_iff, hvAddress, hwAddress, ← hAddress, ← hAddress']
  unfold LoginView.authConnType
  rw [← hFile, ← hCamera, ← hTerminal, hFile', hCamera', hTerminal', hSocket]

theorem AtMostOne.mono {v w : LoginView} (h : v.AtMostOne)
    (hFlag : ∀ k, w.flag k = true → v.flag k = true) : w.AtMostOne :=
  fun _ _ h₁ h₂ => h _ _ (hFlag _ h₁) (hFlag _ h₂)

/-- Dropping the target socket sets no flag. -/
theorem flag_dropSocket (v : LoginView) (closed : Bool) (k : AuthConnType)
    (h : flag { v with portForwardSocket := none, closed := closed } k = true) :
    v.flag k = true := by
  cases k <;> first | exact h | cases h

theorem flag_authorize (v : LoginView) (options : Option OptionMessage) (k : AuthConnType) :
    (v.authorize options).flag k = v.flag k := by
  unfold authorize admitted
  split_ifs <;> cases k <;> rfl

theorem authorize_authedConnId {v : LoginView} (options : Option OptionMessage)
    (h : v.authorized = false) : (v.authorize options).authedConnId = some v.authConnType := by
  unfold authorize
  rw [h]
  rfl

end LoginView

namespace Loop
variable (fixed : Fixed)

/-- The login request shown last to the user of the connection manager. -/
def Approved (start : Loop) (past : List Event) (lr : LoginRequest) : Prop :=
  ∃ first env last, past = first ++ (env, .peer (.loginRequest lr)) :: last ∧
    shownCount (start.run fixed first).state.effects <
      shownCount (start.run fixed (first ++ [(env, .peer (.loginRequest lr))])).state.effects ∧
    shownCount (start.run fixed past).state.effects =
      shownCount (start.run fixed (first ++ [(env, .peer (.loginRequest lr))])).state.effects

/-- No flag of another kind is left when a request arrives, and a click is for
the login that was shown. -/
def KindMatches (l : Loop) (event : Event) : Prop :=
  l.running = true → l.state.conn.authorized = false →
  match event.2 with
  | .peer (.loginRequest lr) => l.state.conn.loginView.Only (kindOf lr.union)
  | .peer (.switchSidesResponse _ (some lr)) =>
      fixed.build.flutter = true → l.state.conn.loginView.authConnType = kindOf lr.union
  | .cm .authorize => ∀ login, shownLogin l.state.effects = some login →
      login.Shows l.state.conn.loginView
  | _ => True

/-- If the event authorizes the connection, the kind recorded is that of the
request it accepts, completes or approves. -/
def KindRecorded (start : Loop) (past : List Event) (event : Event) : Prop :=
  let l := start.run fixed past
  let l' := l.step fixed event
  l.running = true → l.state.conn.authorized = false → l'.state.conn.authorized = true →
  match event.2 with
  | .peer (.loginRequest lr) => l'.state.conn.authedConnId = some (kindOf lr.union)
  | .peer (.auth2fa ..) => l'.state.conn.authedConnId = some (kindOf l.state.conn.lr.union)
  | .peer (.switchSidesResponse _ (some lr)) =>
      l'.state.conn.authedConnId = some (kindOf lr.union)
  | .cm .authorize => ∀ lr, Approved fixed start past lr →
      l'.state.conn.authedConnId = some (kindOf lr.union)
  | _ => False

section Approved
variable {start : Loop}

theorem step_shownCount_le (hClosed : start.state.conn.closed = false) (past : List Event)
    (event : Event) :
    shownCount (start.run fixed past).state.effects ≤
      shownCount (start.run fixed (past ++ [event])).state.effects := by
  rw [run_concat]
  cases hRun : (start.run fixed past).running with
  | false => exact Nat.le_of_eq (by rw [step_stopped fixed _ event hRun])
  | true =>
      exact (step_case fixed _ event hRun (run_isOpen hClosed past hRun)).presents.emits.shownCount_le

theorem run_shownCount_le (hClosed : start.state.conn.closed = false) (first last : List Event) :
    shownCount (start.run fixed first).state.effects ≤
      shownCount (start.run fixed (first ++ last)).state.effects := by
  induction last using List.reverseRecOn with
  | nil => simp
  | append_singleton middle event ih =>
      rw [← List.append_assoc]
      exact Nat.le_trans ih (step_shownCount_le fixed hClosed _ event)

variable {fixed} in
/-- The request shown last was shown by the last event, or the last event
showed nothing. -/
theorem Approved.last (hClosed : start.state.conn.closed = false) {past : List Event}
    {event : Event} {lr : LoginRequest} (h : Approved fixed start (past ++ [event]) lr) :
    (event.2 = .peer (.loginRequest lr) ∧ shownCount (start.run fixed past).state.effects <
        shownCount (start.run fixed (past ++ [event])).state.effects) ∨
      (Approved fixed start past lr ∧ shownCount (start.run fixed (past ++ [event])).state.effects =
        shownCount (start.run fixed past).state.effects) := by
  obtain ⟨first, env, last, hSplit, hShown, hSame⟩ := h
  rcases List.eq_nil_or_concat last with rfl | ⟨middle, final, rfl⟩
  · obtain ⟨rfl, hEvent⟩ := List.append_inj' hSplit rfl
    obtain rfl := (List.cons.inj hEvent).1
    exact Or.inl ⟨rfl, hShown⟩
  · rw [List.concat_eq_append, ← List.cons_append, ← List.append_assoc] at hSplit
    obtain ⟨rfl, -⟩ := List.append_inj' hSplit rfl
    have hUp := step_shownCount_le fixed hClosed
      (first ++ (env, .peer (.loginRequest lr)) :: middle) event
    have hFrom := run_shownCount_le fixed hClosed
      (first ++ [(env, .peer (.loginRequest lr))]) middle
    rw [List.append_assoc] at hFrom
    simp only [List.singleton_append] at hFrom
    refine Or.inr ⟨⟨first, env, middle, rfl, hShown, ?_⟩, ?_⟩
    · omega
    · omega

end Approved

/-- The login shown for a request says its kind. -/
def ShownKind (effects : List Effect) (lr : LoginRequest) : Prop :=
  ∃ login v, shownLogin effects = some login ∧ login.Shows v ∧ v.AddressShown ∧
    v.authConnType = kindOf lr.union

/-- What is known about the kind in every state of a run. -/
structure OneKind (start : Loop) (past : List Event) (l : Loop) : Prop where
  one : l.state.conn.loginView.AtMostOne
  settled : l.running = true → l.state.conn.authorized = false → l.state.conn.loginView.Settled
  address : l.running = true → l.state.conn.authorized = false →
    l.state.conn.loginView.AddressShown
  approved : l.running = true → l.state.conn.authorized = false →
    ∀ lr, Approved fixed start past lr → ShownKind l.state.effects lr

section Invariant
variable {fixed} {start : Loop} {past : List Event} {event : Event}

/-- A state in which the connection is authorized only has to keep its flags. -/
theorem OneKind.of_authorized {l' : Loop} (hOne : l'.state.conn.loginView.AtMostOne)
    (hYes : l'.state.conn.authorized = true) :
    OneKind fixed start past l' := by
  refine ⟨hOne, fun _ hNo => ?_, fun _ hNo => ?_, fun _ hNo => ?_⟩
  all_goals
    rw [hYes] at hNo
    cases hNo

/-- So does a state in which the loop is left. -/
theorem OneKind.of_stopped {l' : Loop} (hOne : l'.state.conn.loginView.AtMostOne)
    (hStop : l'.running = false) : OneKind fixed start past l' := by
  refine ⟨hOne, fun hRun => ?_, fun hRun => ?_, fun hRun => ?_⟩
  all_goals
    rw [hStop] at hRun
    cases hRun

theorem received_flag (l : Loop) (env : Env) (lr : LoginRequest) (k : AuthConnType) :
    (l.stored env lr).conn.loginView.flag k = l.state.conn.loginView.flag k := by
  rw [← received_view l env]
  cases k <;> rfl

theorem stored_addressShown {l : Loop} {env : Env} {lr : LoginRequest}
    (h : l.state.conn.loginView.AddressShown) :
    (l.stored env lr).conn.loginView.AddressShown := by
  rw [← received_view l env] at h
  exact h

/-- Events on an authorized connection set no flag. -/
theorem StepCase.flag_of_authorized {l l' : Loop} (h : StepCase fixed l event l')
    (hYes : l.state.conn.authorized = true) (k : AuthConnType)
    (hFlag : l'.state.conn.loginView.flag k = true) : l.state.conn.loginView.flag k = true := by
  cases h with
  | ordinary _ hKeeps => rwa [hKeeps.view] at hFlag
  | closes _ hCloses _ =>
      rw [hCloses.login] at hFlag
      exact LoginView.flag_dropSocket _ _ k hFlag
  | @loginRequest env lr _ _ hOutcome =>
      have hStored : (l.stored env lr).conn.authorized = true :=
        (congrArg LoginView.authorized (received_view l env)).trans hYes
      have hSame : l'.state = l.stored env lr :=
        congrArg Prod.fst (hOutcome.view.2.2.2.2 hStored)
      rwa [hSame, received_flag] at hFlag
  | wrongCode _ hKeeps => rwa [hKeeps.view] at hFlag
  | rightCode _ hView =>
      rw [hView, LoginView.flag_authorize] at hFlag
      cases k <;> exact hFlag
  | noSwitch _ hKeeps => rwa [hKeeps.view] at hFlag
  | wrongSwitch _ _ hKeeps => rwa [hKeeps.view, received_flag] at hFlag
  | @rightSwitch env _ lr _ _ _ _ hView =>
      rw [hView, LoginView.flag_authorize] at hFlag
      rw [← received_flag l env lr]
      cases k <;> exact hFlag
  | authorize hView =>
      rw [hView, LoginView.flag_authorize] at hFlag
      cases k <;> exact hFlag

variable {l l' : Loop} (hLoop : l = start.run fixed past) (hLoop' : l' = start.run fixed (past ++ [event]))
  (hClosed : start.state.conn.closed = false)
include hLoop hLoop' hClosed

/-- An event that leaves the fields of the kind and shows nothing. -/
theorem OneKind.quiet (hInv : OneKind fixed start past l) (hRun : l.running = true)
    (hOpen : l.state.conn.authorized = false)
    (hShown : shownLogin l'.state.effects = shownLogin l.state.effects ∧
      shownCount l'.state.effects = shownCount l.state.effects)
    (hSettled : l'.state.conn.loginView.Settled) (hAddress : l'.state.conn.loginView.AddressShown) :
    OneKind fixed start (past ++ [event]) l' := by
  refine ⟨hSettled.1.atMostOne, fun _ _ => hSettled, fun _ _ => hAddress, fun _ _ lr hLr => ?_⟩
  rw [ShownKind, hShown.1]
  rcases hLr.last hClosed with ⟨-, hMore⟩ | ⟨hOld, -⟩
  · rw [← hLoop, ← hLoop'] at hMore
    exact absurd hShown.2 (Nat.ne_of_gt hMore)
  · exact hInv.approved hRun hOpen lr hOld

/-- A login request that waits. -/
theorem OneKind.waiting (hInv : OneKind fixed start past l) (hRun : l.running = true)
    (hOpen : l.state.conn.authorized = false) {lr : LoginRequest}
    (hEvent : event.2 = .peer (.loginRequest lr))
    (hPresents : State.Presents l.state l'.state) (hLr : l'.state.conn.loginView.lr = lr)
    (hSettled : l'.state.conn.loginView.Settled) (hAddress : l'.state.conn.loginView.AddressShown) :
    OneKind fixed start (past ++ [event]) l' := by
  rcases hPresents.shown with hSame | ⟨hMore, login, hLogin, hShows⟩
  · exact hInv.quiet hLoop hLoop' hClosed hRun hOpen hSame hSettled hAddress
  · refine ⟨hSettled.1.atMostOne, fun _ _ => hSettled, fun _ _ => hAddress, fun _ _ lr' hLr' => ?_⟩
    rcases hLr'.last hClosed with ⟨hLast, -⟩ | ⟨-, hSame⟩
    · obtain rfl : lr' = lr := by
        rw [hEvent] at hLast
        simpa using hLast.symm
      exact ⟨login, _, hLogin, hShows, hAddress, by rw [hSettled.authConnType, hLr]⟩
    · rw [← hLoop, ← hLoop'] at hSame
      exact absurd hSame (Nat.ne_of_gt hMore)

/-- One event keeps one kind, if no flag of another kind is in its way. -/
theorem OneKind.step (hInv : OneKind fixed start past l) (hRun : l.running = true)
    (hCase : StepCase fixed l event l') (hMatches : KindMatches fixed l event) :
    OneKind fixed start (past ++ [event]) l' := by
  cases hOpen : l.state.conn.authorized with
  | true =>
      exact .of_authorized (hInv.one.mono (hCase.flag_of_authorized hOpen)) (hCase.authorized hOpen)
  | false =>
      have hSettled := hInv.settled hRun hOpen
      have hAddress := hInv.address hRun hOpen
      have grant : ∀ {v : LoginView}, l'.state.conn.loginView = v → v.authorized = true →
          v.AtMostOne → OneKind fixed start (past ++ [event]) l' := by
        rintro v rfl hYes hOne
        exact .of_authorized hOne hYes
      have hStay : ∀ options, LoginView.AtMostOne (LoginView.authorize
          { l.state.conn.loginView with require2fa := none } options) := by
        intro options
        refine hInv.one.mono fun k hk => ?_
        rw [LoginView.flag_authorize] at hk
        cases k <;> exact hk
      cases hCase with
      | ordinary _ hKeeps =>
          exact hInv.quiet hLoop hLoop' hClosed hRun hOpen hKeeps.emits.shown
            (by rwa [hKeeps.view]) (by rwa [hKeeps.view])
      | closes _ hCloses hEnd =>
          refine .of_stopped (hInv.one.mono fun k hk => ?_) hEnd
          rw [hCloses.login] at hk
          exact LoginView.flag_dropSocket _ _ k hk
      | @loginRequest env lr continues _ hOutcome hRunning =>
          have hOnly : (l.stored env lr).conn.loginView.Only
              (kindOf (l.stored env lr).conn.loginView.lr.union) := by
            intro k hk
            rw [received_flag] at hk
            exact hMatches hRun hOpen k hk
          have hStored : (l.stored env lr).conn.loginView.AddressShown :=
            stored_addressShown hAddress
          have hPresents := stored_presents l hOutcome.presents
          have hNext : (LoginView.withKind (l.stored env lr).conn.loginView lr.union).Settled :=
            LoginView.settled_withKind hOnly
          have hNextAddress := LoginView.addressShown_withKind hStored lr.union
          cases hOutcome with
          | late hYes =>
              have hNo := (congrArg LoginView.authorized (received_view l env)).trans hOpen
              exact absurd (hYes.symm.trans hNo) (by simp)
          | refused _ _ hView =>
              refine .of_stopped ?_ (by simpa using hRunning)
              obtain ⟨terminal, address, hView, hTerminal⟩ := hView
              refine hNext.1.atMostOne.mono fun k hk => ?_
              rw [LoginView.flag_withKind]
              rw [hView] at hk
              cases k with
              | terminal =>
                  rcases hTerminal with rfl | ⟨serviceId, hKind⟩
                  · exact Bool.or_eq_true_iff.mpr (Or.inl hk)
                  · simp [hKind, kindOf]
              | _ => exact Bool.or_eq_true_iff.mpr (Or.inl hk)
          | offline _ _ _ _ hView =>
              refine .of_stopped ?_ (by simpa using hRunning)
              rw [hView]
              exact hNext.1.atMostOne
          | waiting _ _ hView =>
              refine hInv.waiting hLoop hLoop' hClosed hRun hOpen rfl hPresents ?_ ?_ ?_
              · rw [hView, LoginView.withKind_lr]
                rfl
              · rwa [hView]
              · rwa [hView]
          | accepted _ _ _ hView =>
              refine grant hView rfl (hNext.1.atMostOne.mono fun k hk => ?_)
              cases k <;> exact hk
      | wrongCode _ hKeeps =>
          exact hInv.quiet hLoop hLoop' hClosed hRun hOpen hKeeps.emits.shown
            (by rwa [hKeeps.view]) (by rwa [hKeeps.view])
      | rightCode _ hView =>
          exact grant hView (LoginView.authorize_authorized ..) (hStay _)
      | noSwitch _ hKeeps =>
          exact hInv.quiet hLoop hLoop' hClosed hRun hOpen hKeeps.emits.shown
            (by rwa [hKeeps.view]) (by rwa [hKeeps.view])
      | @wrongSwitch env uuid lr _ hFlutter _ hKeeps =>
          have hKind : l.state.conn.loginView.authConnType = kindOf lr.union :=
            hMatches hRun hOpen hFlutter
          rw [hSettled.authConnType] at hKind
          have hEmits : State.Emits (fun effect => effect.isLogin = false) l.state l'.state :=
            .trans (received_emits l env) ⟨hKeeps.emits.choose, hKeeps.emits.choose_spec⟩
          refine hInv.quiet hLoop hLoop' hClosed hRun hOpen hEmits.shown ?_ ?_
          · rw [hKeeps.view]
            refine ⟨fun k hk => ?_, ?_⟩
            · rw [received_flag] at hk
              exact (hSettled.1 k hk).trans hKind
            · rw [received_flag]
              exact hKind ▸ hSettled.2
          · rw [hKeeps.view]
            exact stored_addressShown hAddress
      | @rightSwitch env uuid lr _ _ _ _ hView =>
          refine grant hView (LoginView.authorize_authorized ..) (hInv.one.mono fun k hk => ?_)
          rw [LoginView.flag_authorize] at hk
          rw [← received_flag l env lr]
          cases k <;> exact hk
      | authorize hView => exact grant hView (LoginView.authorize_authorized ..) (hStay _)

end Invariant

section Runs
variable {fixed} {start : Loop}

/-- The kind recorded by an event that authorizes. -/
theorem OneKind.recorded {past : List Event} {event : Event} (hClosed : start.state.conn.closed = false)
    (hInv : OneKind fixed start past (start.run fixed past))
    (hMatches : KindMatches fixed (start.run fixed past) event) :
    KindRecorded fixed start past event := by
  intro hRun hOpen hYes
  have hCase := step_case fixed _ event hRun (run_isOpen hClosed past hRun)
  have hSettled := hInv.settled hRun hOpen
  have hMatch := hMatches hRun hOpen
  generalize Loop.step fixed (start.run fixed past) event = l' at hCase hYes ⊢
  generalize hLoop : start.run fixed past = l at *
  have refute : ∀ {v : LoginView} {P : Prop}, l'.state.conn.loginView = v →
      v.authorized = false → P := by
    rintro v P rfl hNo
    exact absurd (hYes.symm.trans hNo) (by simp)
  have recorded : ∀ {v w : LoginView} {options : Option OptionMessage} {k : AuthConnType},
      l'.state.conn.loginView = v.authorize options → v.authorized = false →
      (∀ k, v.flag k = w.flag k) → w.authConnType = k → l'.state.conn.authedConnId = some k := by
    intro v w options k hView hNo hFlags hKind
    have hId : l'.state.conn.authedConnId = (v.authorize options).authedConnId :=
      congrArg LoginView.authedConnId hView
    rw [hId, LoginView.authorize_authedConnId options hNo, LoginView.authConnType_congr hFlags, hKind]
  cases hCase with
  | ordinary _ hKeeps => exact refute hKeeps.view hOpen
  | closes _ hCloses _ => exact refute hCloses.login hOpen
  | @loginRequest env lr _ _ hOutcome =>
      have hStored : (l.stored env lr).conn.loginView.authorized = false :=
        (congrArg LoginView.authorized (received_view l env)).trans hOpen
      cases hOutcome with
      | late hLate => exact absurd (hLate.symm.trans hStored) (by simp)
      | refused _ _ hView =>
          obtain ⟨terminal, address, hView, -⟩ := hView
          exact refute hView hStored
      | offline _ _ _ _ hView =>
          exact refute hView ((LoginView.withKind_authorized ..).trans hStored)
      | waiting _ _ hView =>
          exact refute hView ((LoginView.withKind_authorized ..).trans hStored)
      | accepted _ _ _ hView =>
          have hOnly : (l.stored env lr).conn.loginView.Only
              (kindOf (l.stored env lr).conn.loginView.lr.union) := by
            intro k hk
            rw [received_flag] at hk
            exact hMatch k hk
          have hNext := LoginView.settled_withKind hOnly
          have hKind := hNext.authConnType
          rw [LoginView.withKind_lr] at hKind
          have hId := congrArg LoginView.authedConnId hView
          exact hId.trans (congrArg some hKind)
  | wrongCode _ hKeeps => exact refute hKeeps.view hOpen
  | rightCode _ hView =>
      refine recorded (w := l.state.conn.loginView) hView hOpen (fun k => ?_) hSettled.authConnType
      cases k <;> rfl
  | noSwitch _ hKeeps => exact refute hKeeps.view hOpen
  | wrongSwitch _ _ hKeeps =>
      exact refute hKeeps.view ((congrArg LoginView.authorized (received_view l _)).trans hOpen)
  | @rightSwitch env uuid lr _ _ hFlutter _ hView =>
      refine recorded (w := l.state.conn.loginView) hView
        ((congrArg LoginView.authorized (received_view l env)).trans hOpen) (fun k => ?_)
        (hMatch hFlutter)
      rw [← received_flag l env lr]
      cases k <;> rfl
  | authorize hView =>
      intro lr hApproved
      obtain ⟨login, v, hLogin, hShows, hAddress, hKind⟩ := hInv.approved hRun hOpen lr hApproved
      have hPresent := hMatch login hLogin
      have hSame := LoginView.authConnType_of_shows hShows hPresent hAddress
        (hInv.address hRun hOpen)
      refine recorded (w := l.state.conn.loginView) hView hOpen (fun k => ?_) (hSame.symm.trans hKind)
      cases k <;> rfl

/-- A run in which no request meets the flag of another kind. -/
theorem oneKind_run (hClosed : start.state.conn.closed = false)
    (hStart : start.state.conn.loginView.Settled)
    (hAddress : start.state.conn.loginView.AddressShown) (events : List Event)
    (hMatches : Trace.Along (fun past event => KindMatches fixed (start.run fixed past) event) events) :
    OneKind fixed start events (start.run fixed events) := by
  refine Trace.invariant (step fixed) (fun past l => OneKind fixed start past l)
    ?_ ?_ events hMatches
  · refine ⟨hStart.1.atMostOne, fun _ _ => hStart, fun _ _ => hAddress, fun _ _ lr hLr => ?_⟩
    obtain ⟨first, env, last, hSplit, -⟩ := hLr
    simp at hSplit
  · intro past event hMatch hInv
    cases hRun : (start.run fixed past).running with
    | true =>
        have hCase := step_case fixed _ event hRun (run_isOpen hClosed past hRun)
        exact hInv.step rfl (run_concat past event).symm hClosed hRun hCase hMatch
    | false =>
        rw [show Loop.step fixed (Trace.run (step fixed) start past) event = _ from
          step_stopped fixed _ event hRun]
        exact .of_stopped hInv.one hRun

end Runs

section Statement
variable (fixed : Fixed) (world : World) (server : Option Server) (now : Nat) (id : Int)
  (ip salt challenge : String) (require2fa : Option Totp) (controlPermissions : Option Nat)
  (events : List Event)

/-- In every run in which no login request meets the flag of another kind, and
each click is for the login shown, at most one flag is set in every state and
each authorization records the kind of its request. -/
theorem one_kind_of_matching_requests :
    let start := Loop.start fixed world server now id ip salt challenge require2fa controlPermissions
    Trace.Along (fun past event => KindMatches fixed (start.run fixed past) event) events →
    (∀ past, past <+: events → (start.run fixed past).state.conn.loginView.AtMostOne) ∧
      Trace.Along (KindRecorded fixed start) events := by
  intro start hMatches
  have hInv : ∀ past, past <+: events →
      OneKind fixed start past (start.run fixed past) := by
    rintro past ⟨rest, rfl⟩
    refine oneKind_run rfl ?_ ?_ past fun first event last hSplit =>
      hMatches first event (last ++ rest) (by simp [hSplit])
    · refine ⟨fun k hk => ?_, Or.inl rfl⟩
      cases k <;> cases hk
    · exact ⟨fun h => (by cases h), fun h => absurd rfl h⟩
  refine ⟨fun past hPast => (hInv past hPast).one, fun past event rest hSplit => ?_⟩
  exact (hInv past ⟨event :: rest, hSplit.symm⟩).recorded rfl (hMatches past event rest hSplit)

end Statement

/-- A file transfer accepted by its password is recorded as one. -/
theorem one_kind_of_file_transfer :
    let world : World := { (default : World) with
      config := { (default : Config) with permanentPassword := "password" } }
    let start := Loop.start default world none 0 1 "10.0.0.1" "salt" "challenge" none none
    let lr : LoginRequest :=
      { password := utf8 "passwordsaltchallenge", union := some (.fileTransfer "" false) }
    let events : List Event := [(default, .peer (.loginRequest lr))]
    (start.run default events).state.conn.authedConnId = some .fileTransfer ∧
      (∀ past, past <+: events → (start.run default past).state.conn.loginView.AtMostOne) ∧
      Trace.Along (KindRecorded default start) events := by
  intro world start lr events
  refine ⟨by decide +kernel, one_kind_of_matching_requests default world none 0 1 "10.0.0.1" "salt" "challenge"
    none none events ?_⟩
  refine (Trace.along_singleton _).mpr fun _ _ k hk => ?_
  cases k <;> cases hk

/-- A request for a file transfer and one for the camera, both without a
password, leave both flags set. -/
theorem two_kinds_at_once :
    ¬ ∀ (fixed : Fixed) (world : World) (server : Option Server) (now : Nat) (id : Int)
        (ip salt challenge : String) (require2fa : Option Totp) (controlPermissions : Option Nat)
        (events : List Event),
      let start := Loop.start fixed world server now id ip salt challenge require2fa controlPermissions
      (∀ past, past <+: events → (start.run fixed past).state.conn.loginView.AtMostOne) ∧
        Trace.Along (KindRecorded fixed start) events := by
  intro h
  let events : List Event :=
    [(default, .peer (.loginRequest { union := some (.fileTransfer "" false) })),
      (default, .peer (.loginRequest { union := some .viewCamera }))]
  have hOne := (h default default none 0 1 "10.0.0.1" "salt" "challenge" none none events).1
    events (List.prefix_refl _)
  have hSame := hOne .fileTransfer .viewCamera (by rfl) (by rfl)
  cases hSame

end Loop

end HibtDesk
