import HibtDesk.Connection.Confinement
import HibtDesk.Connection.InputFrame

/-! What one event of a connection enters into the registries of the process: the connection
itself once it is authorized, and what the encoder is told of its peer. -/
namespace HibtDesk

/-- The connection is authorized under a kind that is sent pictures. -/
def Connection.SentPictures (conn : Connection) : Prop :=
  ∃ k, conn.authedConnId = some k ∧ k.isVideo = true

/-- From `s` to `t` the connection enters at most itself into the registries: with its kind
when it is authorized, at the encoder if it is sent pictures, at the services if it is a
remote one. -/
structure State.Enters (s t : State) : Prop where
  id : t.conn.id = s.conn.id
  permissions : t.conn.controlPermissions = s.conn.controlPermissions
  authed : (t.conn.authedConnId = s.conn.authedConnId ∧ t.world.authedConns = s.world.authedConns) ∨
    ∃ k key, s.conn.authedConnId = none ∧ t.conn.authedConnId = some k ∧
      t.world.authedConns = s.world.authedConns ++ [⟨s.conn.id, k, key⟩]
  others : ∀ name other, other ≠ s.conn.id → Server.heard t.server name other = true →
    Server.heard s.server name other = true
  subed : t.conn.servicesSubed = true →
    s.conn.servicesSubed = true ∨ t.conn.authedConnId = some .remote
  emits : State.Emits (fun effect => effect.isDecoding = true → t.conn.SentPictures) s t

theorem State.Enters.refl (s : State) : State.Enters s s :=
  ⟨rfl, rfl, Or.inl ⟨rfl, rfl⟩, fun _ _ _ h => h, Or.inl, .refl s⟩

/-- The kind under which a connection is registered is the one its flags say. -/
structure Connection.Registered (conn : Connection) : Prop where
  recorded : conn.loginView.Recorded
  unregistered : conn.authorized = false → conn.authedConnId = none

namespace Loop
variable (fixed : Fixed)

/-- The decodings of the peer are told to the encoder only by connections that are sent
pictures: with the options of a login the event grants, or with an option message. -/
def DecodingSafe (l : Loop) (event : Event) : Prop :=
  (Grants fixed l event → (logonView l event).Tells fixed event.1 →
    (logonView l event).authConnType.isVideo = true) ∧
  (event.2.isDecoding = true → l.state.conn.authorized = true →
    l.state.conn.portForwardSocket = none →
      l.state.conn.SentPictures)

/-- What one event bears on, as its handler's frame, or as the one call that authorizes the
connection. -/
inductive EntryCase (l : Loop) : Event → Loop → Prop where
  | handled {event l'}
      (hTouches : State.Touches
        { decoding := event.2.isDecoding = true ∧ l.state.conn.authorized = true ∧
            l.state.conn.portForwardSocket = none
          services := l.state.conn.authorized = true ∧ l.state.conn.isRemote = true
          call := True } l.state l'.state) : EntryCase l event l'
  | grants {event l' u} (hGrants : Grants fixed l event) (hBefore : State.Apart l.state u)
      (hOpen : u.conn.authorized = false) (hView : u.conn.loginView = logonView l event)
      (hAfter : State.Apart (u.authorize.afterAuthorize fixed event.1) l'.state) :
      EntryCase l event l'

section Steps
variable {fixed} {l l' : Loop} {env : Env} {input : Input}

theorem authorized_of_afterAuthorize {u t : State}
    (hAfter : State.Apart (u.authorize.afterAuthorize fixed env) t) : t.conn.authorized = true := by
  have hLogin : State.Touches ⟨True, True, False⟩ u.authorize (u.authorize.afterAuthorize fixed env) :=
    State.touches_afterAuthorize fixed env _ (fun _ => trivial) fun _ => trivial
  exact (congrArg EntryView.authorized hAfter.entries).trans (congrArg EntryView.authorized hLogin.entries)

/-- A message that logs in, as a case for the entries. -/
theorem entryCase_of_logon (hCase : StepCase fixed l (env, input) l')
    (h : State.Logon fixed env (logonView l (env, input)) l.state l'.state) :
    EntryCase fixed l (env, input) l' := by
  rcases h with hStill | ⟨u, hFirst, hNo, hView, hLast⟩
  · exact .handled (hStill.apart.mono False.elim False.elim False.elim)
  · have hBefore : State.Apart l.state u := hFirst.apart
    have hAfter : State.Apart _ l'.state := hLast.apart
    have hOpen : l.state.conn.authorized = false :=
      (congrArg EntryView.authorized hBefore.entries).symm.trans hNo
    exact .grants (hCase.grants hOpen (authorized_of_afterAuthorize hAfter)) hBefore hNo hView hAfter

variable (fixed) in
/-- Every event a running loop handles is one of the cases. -/
theorem entry_case (event : Event) (hRun : l.running = true) (hOpen : l.state.conn.closed = false)
    (hOwn : event.2.isOthers = false) : EntryCase fixed l event (l.step fixed event) := by
  obtain ⟨env, input⟩ := event
  have hCase := step_case fixed l (env, input) hRun hOpen
  have hState := step_state fixed l env input hRun
  cases hLogin : input.isLogin with
  | false =>
      refine .handled ?_
      rw [hState]
      exact State.touches_onInput fixed env l.state l.lastRecvTime hLogin hOwn
        (fun hIs hYes hNone => ⟨hIs, hYes, hNone⟩) (fun hYes hRemote => ⟨hYes, hRemote⟩) fun _ => trivial
  | true =>
      refine entryCase_of_logon hCase ?_
      rw [hState]
      cases input with
      | cm message =>
          cases message with
          | authorize => exact State.logon_onAuthorize fixed env l.state
          | _ => cases hLogin
      | peer message =>
          refine .before (still_received l env) ?_
          cases message with
          | loginRequest lr => exact State.logon_onLoginRequest fixed env (l.received env) lr
          | auth2fa code hwid =>
              rw [logonView, ← received_view l env]
              exact State.logon_onAuth2fa fixed env (l.received env) code hwid
          | switchSidesResponse uuid lr =>
              cases lr with
              | none => exact (State.Still.refl _).logon
              | some lr => exact State.logon_onSwitchSidesResponse fixed env (l.received env) uuid lr
          | _ => cases hLogin
      | _ => cases hLogin

theorem enters_of_case {event : Event} (hCase : EntryCase fixed l event l')
    (hRegistered : l.state.conn.Registered) (hSafe : DecodingSafe fixed l event) :
    State.Enters l.state l'.state := by
  cases hCase with
  | handled hTouches =>
      have hKind : l'.state.conn.authedConnId = l.state.conn.authedConnId :=
        congrArg EntryView.authedConnId hTouches.entries
      refine ⟨hTouches.id, congrArg EntryView.controlPermissions hTouches.entries,
        Or.inl ⟨hKind, congrArg EntryView.authedConns hTouches.entries⟩, hTouches.others,
        fun hSubed => (hTouches.subed hSubed).imp_right ?_, hTouches.emits.mono fun _ hEffect hIs => ?_⟩
      · rintro ⟨hYes, hRemote⟩
        rw [State.isRemote_eq, decide_eq_true_iff] at hRemote
        rw [hKind, ← hRemote]
        exact hRegistered.recorded hYes
      · obtain ⟨hDecoding, hYes, hNone⟩ := hEffect hIs
        unfold Connection.SentPictures
        rw [hKind]
        exact hSafe.2 hDecoding hYes hNone
  | @grants u hGrants hBefore hOpen hView hAfter =>
      let view := logonView l event
      have hFlags : u.authorize.conn.loginView.authConnType = view.authConnType := by
        change u.conn.loginView.authConnType = _
        rw [hView]
      have hTells : u.authorize.conn.loginView.Tells fixed event.1 → view.Tells fixed event.1 := by
        change u.conn.loginView.Tells fixed event.1 → _
        rw [hView]
        exact id
      have hLogin : State.Touches ⟨view.authConnType.isVideo = true ∨ view.Tells fixed event.1,
          view.authConnType = .remote, True⟩ u.authorize (u.authorize.afterAuthorize fixed event.1) :=
        State.touches_afterAuthorize fixed event.1 _ (by rw [hFlags]; exact Or.imp_right hTells)
          hFlags.symm.trans
      have hRest := hLogin.trans (hAfter.mono False.elim False.elim False.elim)
      have hKind : l'.state.conn.authedConnId = some view.authConnType := by
        refine (congrArg EntryView.authedConnId hRest.entries).trans ?_
        exact congrArg some hFlags
      have hAuthed : l'.state.world.authedConns =
          u.world.authedConns ++ [⟨u.conn.id, u.conn.authConnType, u.conn.sessionKey⟩] :=
        congrArg EntryView.authedConns hRest.entries
      have hOld : u.world.authedConns = l.state.world.authedConns :=
        congrArg EntryView.authedConns hBefore.entries
      refine ⟨hRest.id.trans hBefore.id, ?_, Or.inr ⟨view.authConnType, u.conn.sessionKey, ?_, hKind, ?_⟩,
        fun name other hOther hHeard => ?_, fun hSubed => ?_, ?_⟩
      · exact (congrArg EntryView.controlPermissions hRest.entries).trans
          (congrArg EntryView.controlPermissions hBefore.entries)
      · exact hRegistered.unregistered hGrants.1
      · rw [hAuthed, hOld, hBefore.id, show u.conn.authConnType = view.authConnType from hFlags]
      · refine hBefore.others name other hOther (hRest.others name other ?_ hHeard)
        rwa [show u.authorize.conn.id = l.state.conn.id from hBefore.id]
      · rcases hRest.subed hSubed with hSubed | hRemote
        · exact Or.inl ((hBefore.subed hSubed).resolve_right id)
        · exact Or.inr (hKind.trans (congrArg some hRemote))
      · refine State.Emits.trans (hBefore.emits.mono fun _ hEffect hIs => (hEffect hIs).elim) ?_
        refine State.Emits.mono hRest.emits fun _ hEffect hIs => ⟨_, hKind, ?_⟩
        exact (hEffect hIs).elim id (hSafe.1 hGrants)

/-- A connection that is open is registered under the kind of its flags, and stays so. -/
structure Sound (l : Loop) : Prop where
  isOpen : l.running = true → l.state.conn.closed = false
  registered : l.running = true → l.state.conn.Registered

theorem Sound.step (h : Sound l) {event : Event} (hOwn : event.2.isOthers = false) :
    Sound (l.step fixed event) := by
  cases hRun : l.running with
  | false =>
      rw [step_stopped fixed l event hRun]
      exact h
  | true =>
      have hStep := step_case fixed l event hRun (h.isOpen hRun)
      have hEntry := entry_case fixed event hRun (h.isOpen hRun) hOwn
      refine ⟨hStep.isOpen (h.isOpen hRun), fun hNext => ⟨?_, fun hNo => ?_⟩⟩
      · exact hStep.recorded (h.registered hRun).recorded hNext
      · cases hEntry with
        | handled hTouches =>
            refine (congrArg EntryView.authedConnId hTouches.entries).trans ?_
            exact (h.registered hRun).unregistered
              ((congrArg EntryView.authorized hTouches.entries).symm.trans hNo)
        | grants hGrants hBefore hOpen hView hAfter =>
            exact absurd (hNo.symm.trans (authorized_of_afterAuthorize hAfter)) (by simp)

/-- What one event of a sound connection enters. -/
theorem Sound.enters (h : Sound l) {event : Event} (hOwn : event.2.isOthers = false)
    (hSafe : l.running = true → DecodingSafe fixed l event) :
    State.Enters l.state (l.step fixed event).state := by
  cases hRun : l.running with
  | false =>
      rw [step_stopped fixed l event hRun]
      exact .refl _
  | true =>
      exact enters_of_case (entry_case fixed event hRun (h.isOpen hRun) hOwn) (h.registered hRun)
        (hSafe hRun)

end Steps

end Loop

namespace Server
variable {server : Server} {id : Int}

theorem subed_foldl_onUnsubscribe (names : List ServiceName) (server : Server) (n : ServiceName)
    (other : Int) : (names.foldl (fun server name => server.onUnsubscribe name id) server).subed n other =
      (server.subed n other && !(names.contains n && decide (other = id))) := by
  induction names generalizing server with
  | nil => simp
  | cons name rest ih =>
      rw [List.foldl_cons, ih]
      by_cases hName : n = name <;> by_cases hOther : other = id <;>
        simp [onUnsubscribe, hName, hOther]

theorem services_foldl_onUnsubscribe (names : List ServiceName) (server : Server) :
    (names.foldl (fun server name => server.onUnsubscribe name id) server).services =
      server.services := by
  induction names generalizing server with
  | nil => rfl
  | cons name rest ih =>
      rw [List.foldl_cons, ih]
      rfl

theorem isSubed_removeConnection (server : Server) (name : ServiceName) (other : Int) :
    (server.removeConnection id).isSubed name other =
      (server.isSubed name other && decide (other ≠ id)) := by
  unfold isSubed contains removeConnection
  dsimp only
  rw [services_foldl_onUnsubscribe, subed_foldl_onUnsubscribe]
  cases server.services.contains name <;> simp

end Server

namespace State
variable (fixed : Fixed) (env : Env) (s : State)

theorem touches_leaveServer : Apart s s.leaveServer := by
  unfold leaveServer
  cases hServer : s.server with
  | none =>
      refine .set (.refl s) ?_
      unfold kept keptEntries
      rw [hServer]
      rfl
  | some server =>
      refine Touches.serve (.refl s) hServer fun name other hOther hSubed => ?_
      rw [Server.isSubed_removeConnection] at hSubed
      exact (Bool.and_eq_true_iff.mp hSubed).1

/-- The end of the loop enters nothing, and the connection leaves the server. -/
theorem finish_spec : Apart s (s.finish fixed env) ∧
    ∀ name, Server.heard (s.finish fixed env).server name s.conn.id = false := by
  have hRelayed : Apart s ((s.renewTemporaryPassword env).tryPortForwardLoop) := by
    unfold tryPortForwardLoop
    have hRenewed : Apart s (s.renewTemporaryPassword env) := .ite (.set (.refl s) rfl) (.refl s)
    refine hRenewed.trans ?_
    split
    · exact .emit (.set (.refl _) rfl) rfl
    · exact .refl _
  have hBefore : Apart s (if (s.renewTemporaryPassword env).conn.portForwardSocket.isSome then
      (s.renewTemporaryPassword env).tryPortForwardLoop.afterRelay fixed
      else (s.renewTemporaryPassword env).tryPortForwardLoop) :=
    .ite (hRelayed.trans ((touches_onClose _ false fixed.build).trans
      (calm_checkRemoveSession _ _ _).touches)) hRelayed
  unfold finish
  dsimp only
  generalize (if (s.renewTemporaryPassword env).conn.portForwardSocket.isSome = true then
    (s.renewTemporaryPassword env).tryPortForwardLoop.afterRelay fixed
    else (s.renewTemporaryPassword env).tryPortForwardLoop) = t at *
  have hServer : (t.leaveServer.onClose true fixed.build).server = t.leaveServer.server := by
    unfold onClose
    dsimp only
    split_ifs <;> rfl
  refine ⟨(hBefore.trans (touches_leaveServer t)).trans (touches_onClose _ true fixed.build),
    fun name => ?_⟩
  rw [hServer, ← hBefore.id]
  unfold leaveServer Server.heard
  cases t.server with
  | none => rfl
  | some server => simp [Server.isSubed_removeConnection]

end State

end HibtDesk
