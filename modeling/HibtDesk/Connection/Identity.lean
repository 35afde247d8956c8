import HibtDesk.Connection.Inversion

/-! Whose connection it is. The identity a connection stands for is read from
the stored login request, which every later request replaces. -/
namespace HibtDesk

/-- What is audited, shown, and used to find the session of a peer. -/
structure Identity where
  myId : String
  myName : String
  sessionId : Nat
  version : String
  myPlatform : String
  deriving DecidableEq, Repr

def LoginRequest.identity (lr : LoginRequest) : Identity :=
  { myId := lr.myId
    myName := lr.myName
    sessionId := lr.sessionId
    version := lr.version
    myPlatform := lr.myPlatform }

/-- The login request a message brings. Switching sides is a feature of the
flutter build. -/
def Input.carried (fixed : Fixed) : Input → Option LoginRequest
  | .peer (.loginRequest lr) => some lr
  | .peer (.switchSidesResponse _ lr) => if fixed.build.flutter then lr else none
  | _ => none

theorem Input.carried_of_not_login (fixed : Fixed) {input : Input} (h : input.isLogin = false) :
    input.carried fixed = none := by
  unfold Input.carried
  split
  · cases h
  · cases h
  · rfl

namespace Loop

/-- The stored login request is the last one brought. -/
theorem StepCase.lr {fixed : Fixed} {l l' : Loop} {event : Event}
    (h : StepCase fixed l event l') :
    l'.state.conn.lr = (event.2.carried fixed).getD l.state.conn.lr := by
  have same : ∀ {v : LoginView}, l'.state.conn.loginView = v → l'.state.conn.lr = v.lr := by
    rintro v rfl
    rfl
  cases h with
  | ordinary hLogin hKeeps => rw [same hKeeps.view, Input.carried_of_not_login fixed hLogin]; rfl
  | closes hLogin hCloses => rw [same hCloses.login, Input.carried_of_not_login fixed hLogin]; rfl
  | loginRequest hOutcome => exact hOutcome.view.2.1
  | wrongCode _ hKeeps => exact same hKeeps.view
  | rightCode _ hView => exact (same hView).trans (LoginView.authorize_lr ..)
  | noSwitch hNone hKeeps =>
      rw [same hKeeps.view]
      rcases hNone with rfl | hNo
      · simp [Input.carried]
        rfl
      · simp [Input.carried, hNo]
        rfl
  | wrongSwitch hFlutter _ hKeeps =>
      rw [same hKeeps.view]
      simp [Input.carried, hFlutter]
      rfl
  | rightSwitch hFlutter _ hView =>
      rw [same hView, LoginView.authorize_lr]
      simp [Input.carried, hFlutter]
      rfl
  | authorize hView => exact (same hView).trans (LoginView.authorize_lr ..)

/-- The connection stands for the same peer and session as before. -/
def SamePeer (l l' : Loop) : Prop :=
  l'.state.conn.lr.identity = l.state.conn.lr.identity ∧
    l'.state.conn.sessionKey = l.state.conn.sessionKey

theorem samePeer_of_identity {l l' : Loop}
    (h : l'.state.conn.lr.identity = l.state.conn.lr.identity) : SamePeer l l' := by
  refine ⟨h, ?_⟩
  simp only [LoginRequest.identity, Identity.mk.injEq] at h
  simp [Connection.sessionKey, h]

section Statement
variable (fixed : Fixed) (world : World) (server : Option Server) (now : Nat) (id : Int)
  (ip salt challenge : String) (require2fa : Option Totp) (controlPermissions : Option Nat)
  (before events : List Event)

/-- From the moment a connection is authorized, it stands for the same peer in
every later state exactly if every login request brought later carries the
identity that was authorized. -/
theorem identity_frozen_iff_requests_agree :
    let start := Loop.start fixed world server now id ip salt challenge require2fa controlPermissions
    let authorized := start.run fixed before
    authorized.state.conn.authorized = true →
    ((∀ past, past <+: events → SamePeer authorized (authorized.run fixed past)) ↔
      Trace.Along (fun past event => (authorized.run fixed past).running = true →
        ∀ lr, event.2.carried fixed = some lr →
          lr.identity = authorized.state.conn.lr.identity) events) := by
  intro start authorized _
  have hOpen : ∀ past, (authorized.run fixed past).running = true →
      (authorized.run fixed past).state.conn.closed = false := by
    intro past hRun
    have hWhole : authorized.run fixed past = start.run fixed (before ++ past) :=
      (Trace.run_append ..).symm
    rw [hWhole] at hRun ⊢
    exact run_isOpen rfl _ hRun
  constructor
  · rintro hSame past event rest rfl hRun lr hCarried
    have hLr := (step_case fixed _ event hRun (hOpen past hRun)).lr
    rw [hCarried, ← run_concat] at hLr
    rw [← (hSame (past ++ [event]) ⟨rest, by simp⟩).1, hLr]
    rfl
  · rintro hAgree past ⟨rest, rfl⟩
    refine samePeer_of_identity ?_
    refine Trace.invariant (step fixed)
      (fun _ l => l.state.conn.lr.identity = authorized.state.conn.lr.identity) rfl ?_ past
      (fun first event last hSplit => hAgree first event (last ++ rest) (by simp [hSplit]))
    intro first event hAgree hInv
    cases hRun : (authorized.run fixed first).running with
    | false =>
        rw [show Loop.step fixed (Trace.run (step fixed) authorized first) event = _ from
          step_stopped fixed _ event hRun]
        exact hInv
    | true =>
        rw [(step_case fixed _ event hRun (hOpen first hRun)).lr]
        cases hCarried : event.2.carried fixed with
        | none => exact hInv
        | some lr => exact hAgree hRun lr hCarried

end Statement

/-- After a click, a repeated request of the same peer changes nothing. -/
theorem identity_frozen_after_click :
    let start := Loop.start default default none 0 1 "10.0.0.1" "salt" "challenge" none none
    let authorized := start.run default [(default, .cm .authorize)]
    authorized.state.conn.authorized = true ∧
      ∀ past, past <+: [(default, .peer (.loginRequest {}))] →
        SamePeer authorized (authorized.run default past) := by
  refine ⟨rfl, (identity_frozen_iff_requests_agree default default none 0 1 "10.0.0.1" "salt"
    "challenge" none none [(default, .cm .authorize)] _ rfl).mpr ?_⟩
  refine (Trace.along_singleton _).mpr fun _ lr hCarried => ?_
  cases hCarried
  rfl

/-- An authorized connection stands for another peer after one more login
request. -/
theorem identity_replaced_after_authorization :
    ¬ ∀ (fixed : Fixed) (world : World) (server : Option Server) (now : Nat) (id : Int)
        (ip salt challenge : String) (require2fa : Option Totp) (controlPermissions : Option Nat)
        (before events past : List Event),
      let start := Loop.start fixed world server now id ip salt challenge require2fa controlPermissions
      let authorized := start.run fixed before
      authorized.state.conn.authorized = true → past <+: events →
        SamePeer authorized (authorized.run fixed past) := by
  intro h
  let events : List Event := [(default, .peer (.loginRequest { myId := "123456789" }))]
  have hSame := h default default none 0 1 "10.0.0.1" "salt" "challenge" none none
    [(default, .cm .authorize)] events events rfl (List.prefix_refl _)
  exact absurd (congrArg Identity.myId hSame.1) (by decide)

end Loop

end HibtDesk
