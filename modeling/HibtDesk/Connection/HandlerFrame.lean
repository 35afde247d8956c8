import HibtDesk.Connection.Services

/-! What the handlers leave alone of the voice call and of the entries a connection makes in
the registries of the process. Few events are about them: a connection is registered when it
is authorized, its decodings are told to the encoder then or with an option, a remote
connection is subscribed to the services, and five messages are about the call. A connection
subscribes nobody but itself. -/
namespace HibtDesk

/-- The fields of a connection that belong to the voice call, and the audio
handed to the player so far. -/
structure CallView where
  audioSender : Bool
  voiceCallRequestTimestamp : Option Int
  voiceCalling : Bool
  played : List Bytes
  deriving DecidableEq, Repr

/-- The messages of the peer that are about the voice call. -/
def Message.isCall : Message → Bool
  | .misc (.audioFormat ..) | audioFrame _ | voiceCallRequest .. => true
  | _ => false

/-- The messages of the connection manager that are about the voice call. -/
def CmMessage.isCall : CmMessage → Bool
  | voiceCallResponse _ | closeVoiceCall => true
  | _ => false

/-- The events that are about the voice call. -/
def Input.isCall : Input → Bool
  | cm message => message.isCall
  | peer message => message.isCall
  | _ => false

/-- The options of the peer that say what it can decode. -/
def Message.isDecoding : Message → Bool
  | .misc (.option o) => o.supportedDecoding.isSome
  | _ => false

/-- The events that say what the peer can decode, logins apart. -/
def Input.isDecoding : Input → Bool
  | peer message => message.isDecoding
  | _ => false

/-- The steps of the other connections. -/
def Input.isOthers : Input → Bool
  | others .. => true
  | _ => false

namespace Server
variable {server next last : Server} {id : Int}

/-- From one server to the next nobody but the connection `id` is subscribed. -/
def Others (id : Int) (server next : Server) : Prop :=
  ∀ name other, other ≠ id → next.isSubed name other = true → server.isSubed name other = true

theorem Others.refl (server : Server) : Others id server server := fun _ _ _ h => h

theorem Others.trans (h : Others id server next) (h' : Others id next last) : Others id server last :=
  fun name other hOther hLast => h name other hOther (h' name other hOther hLast)

theorem Others.ite {c : Prop} [Decidable c] (h : Others id server next) (h' : Others id server last) :
    Others id server (if c then next else last) := by
  split_ifs
  · exact h
  · exact h'

theorem Others.foldl {pass : Server → ServiceName → Server}
    (hPass : ∀ server name, Others id server (pass server name)) (names : List ServiceName)
    (server : Server) : Others id server (names.foldl pass server) := by
  induction names generalizing server with
  | nil => exact .refl server
  | cons name rest ih => exact (hPass server name).trans (ih _)

theorem others_ensureService (server : Server) (name : ServiceName) :
    Others id server (server.ensureService name) := fun n other _ h =>
  isSubed_of_ensureService server name n other h

theorem others_onSubscribe (server : Server) (name : ServiceName) :
    Others id server (server.onSubscribe name id) := by
  intro n other hOther h
  simpa [isSubed, contains, onSubscribe, hOther] using h

theorem others_onUnsubscribe (server : Server) (name : ServiceName) :
    Others id server (server.onUnsubscribe name id) := by
  intro n other hOther h
  simpa [isSubed, contains, onUnsubscribe, hOther] using h

theorem others_subscribe (server : Server) (name : ServiceName) (sub : Bool) :
    Others id server (server.subscribe name id sub) := by
  unfold subscribe
  exact .ite (.ite (.refl _) (.ite (others_onSubscribe _ _) (others_onUnsubscribe _ _))) (.refl _)

theorem others_addConnection (server : Server) (primaryDisplayIdx : Nat) (noperms : List ServiceName) :
    Others id server (server.addConnection primaryDisplayIdx id noperms) := by
  refine Others.foldl (fun server name => ?_) _ server
  unfold addConnectionTo
  exact .ite (.refl _) (.ite (.refl _) (others_onSubscribe _ _))

theorem others_addCameraConnection (server : Server) (primaryCameraExists : Bool)
    (primaryCameraIdx : Nat) :
    Others id server (server.addCameraConnection primaryCameraExists primaryCameraIdx id) :=
  by exact Others.ite (others_onSubscribe _ _) (.refl _)

theorem others_captureDisplays (server : Server) (source : VideoSource) (displays : List Nat)
    (including excluding : Bool) :
    Others id server (server.captureDisplays id source displays including excluding) := by
  refine Others.foldl (fun server name => ?_) _ server
  unfold captureDisplay
  exact .ite (.ite (.ite (others_subscribe _ _ _) (.refl _)) (.ite (others_subscribe _ _ _) (.refl _)))
    (.refl _)

end Server

/-- A connection is subscribed to a service of the server, as long as there is one. -/
def Server.heard (server : Option Server) (name : ServiceName) (id : Int) : Bool :=
  match server with
  | some server => server.isSubed name id
  | none => false

/-- The kinds that are sent pictures: remote control and the camera. -/
def AuthConnType.isVideo : AuthConnType → Bool
  | .remote | .viewCamera => true
  | .fileTransfer | .portForward | .terminal => false

/-- The options applied by a login with the fields `v` tell the encoder of decodings. -/
def LoginView.Tells (fixed : Fixed) (env : Env) (v : LoginView) : Prop :=
  ∃ o, v.appliedOptions fixed env = some o ∧ o.supportedDecoding.isSome = true

/-- The fields of a connection that its entries are made from, and those of it that are
authorized. -/
structure EntryView where
  id : Int
  authorized : Bool
  controlPermissions : Option Nat
  authedConnId : Option AuthConnType
  authedConns : List AuthedConn

/-- What an event may bear on: what the encoder knows of the peer, the subscription to the
services, the voice call. -/
structure Bears where
  decoding : Prop
  services : Prop
  call : Prop

namespace State

/-- The audio frames handed to the player so far. -/
def played (s : State) : List Bytes := s.effects.filterMap Effect.audio

def callView (s : State) : CallView :=
  { audioSender := s.conn.audioSender
    voiceCallRequestTimestamp := s.conn.voiceCallRequestTimestamp
    voiceCalling := s.conn.voiceCalling
    played := s.played }

/-- Nothing of the call changes from `s` to `t`. -/
def KeepsCall (s t : State) : Prop := t.callView = s.callView

def entryView (s : State) : EntryView :=
  { id := s.conn.id
    authorized := s.conn.authorized
    controlPermissions := s.conn.controlPermissions
    authedConnId := s.conn.authedConnId
    authedConns := s.world.authedConns }

/-- From `s` to `t` nothing is registered, nobody else is subscribed, and the rest changes
only where the event bears on it. -/
structure Touches (b : Bears) (s t : State) : Prop where
  entries : t.entryView = s.entryView
  others : ∀ name other, other ≠ s.conn.id → Server.heard t.server name other = true →
    Server.heard s.server name other = true
  subed : t.conn.servicesSubed = true → s.conn.servicesSubed = true ∨ b.services
  call : KeepsCall s t ∨ b.call
  emits : Emits (fun effect => effect.isDecoding = true → b.decoding) s t

/-- The part of the state the entries depend on. -/
def keptEntries (s : State) : EntryView × Bool × Option Server × List Effect :=
  (s.entryView, s.conn.servicesSubed, s.server, s.effects)

/-- The part of the state the entries and the call depend on. -/
def kept (s : State) : CallView × EntryView × Bool × Option Server × List Effect :=
  (s.callView, s.keptEntries)

section Frames
variable {b : Bears} {s t u : State} {effect : Effect}

theorem Touches.id (h : Touches b s t) : t.conn.id = s.conn.id := congrArg EntryView.id h.entries

theorem Touches.refl (s : State) : Touches b s s :=
  ⟨rfl, fun _ _ _ h => h, Or.inl, Or.inl rfl, .refl s⟩

theorem Touches.trans (h : Touches b s t) (h' : Touches b t u) : Touches b s u where
  entries := h'.entries.trans h.entries
  others := fun name other hOther hu =>
    h.others name other hOther (h'.others name other (fun hSame => hOther (hSame.trans h.id)) hu)
  subed := fun hu => (h'.subed hu).elim h.subed Or.inr
  call := by
    rcases h.call with hFirst | hCall
    · exact h'.call.imp_left fun hLast => Eq.trans hLast hFirst
    · exact Or.inr hCall
  emits := h.emits.trans h'.emits

theorem Touches.mono {wider : Bears} (h : Touches b s t) (hDecoding : b.decoding → wider.decoding)
    (hServices : b.services → wider.services) (hCall : b.call → wider.call) : Touches wider s t where
  entries := h.entries
  others := h.others
  subed := fun ht => (h.subed ht).imp_right hServices
  call := h.call.imp_right hCall
  emits := h.emits.mono fun _ hEffect hIs => hDecoding (hEffect hIs)

theorem callView_emit (s : State) (hAudio : effect.audio = none) :
    (s.emit effect).callView = s.callView := by
  simp [callView, played, State.emit, hAudio]

theorem Touches.told (h : Touches b s t) (hDecoding : effect.isDecoding = true → b.decoding)
    (hAudio : effect.audio = none) : Touches b s (t.emit effect) :=
  h.trans ⟨rfl, fun _ _ _ h => h, Or.inl, Or.inl (callView_emit t hAudio), .emit (.refl t) hDecoding⟩

theorem Touches.play (h : Touches b s t) (data : Bytes) (hCall : b.call) :
    Touches b s (t.emit (.playAudio data)) :=
  h.trans ⟨rfl, fun _ _ _ h => h, Or.inl, Or.inr hCall, .emit (.refl t) nofun⟩

theorem Touches.emit (h : Touches b s t) (hPlain : effect.isPlain = true) :
    Touches b s (t.emit effect) := by
  simp only [Effect.isPlain, Bool.and_eq_true, Bool.not_eq_true', Option.isNone_iff_eq_none] at hPlain
  exact h.told (fun hDecoding => absurd (hDecoding.symm.trans hPlain.1) (by simp)) hPlain.2

theorem touches_of_kept (hSame : u.keptEntries = t.keptEntries) (hCall : KeepsCall t u ∨ b.call) :
    Touches b t u := by
  have hSubed : u.conn.servicesSubed = t.conn.servicesSubed := congrArg (fun k => k.2.1) hSame
  have hServer : u.server = t.server := congrArg (fun k => k.2.2.1) hSame
  have hEffects : u.effects = t.effects := congrArg (fun k => k.2.2.2) hSame
  refine ⟨congrArg (fun k => k.1) hSame, fun name other _ hu => ?_, fun hu => Or.inl ?_, hCall,
    ⟨[], by simp [hEffects], by simp⟩⟩
  · rwa [hServer] at hu
  · rwa [hSubed] at hu

/-- Fields of the connection that neither an entry nor the call is made from, and other
tables. -/
theorem Touches.set (h : Touches b s t) (hSame : u.kept = t.kept) : Touches b s u :=
  h.trans (touches_of_kept (congrArg Prod.snd hSame) (Or.inl (congrArg Prod.fst hSame)))

/-- Fields of the connection that no entry is made from, where the event is about the call. -/
theorem Touches.setCall (h : Touches b s t) (hSame : u.keptEntries = t.keptEntries) (hCall : b.call) :
    Touches b s u := h.trans (touches_of_kept hSame (Or.inr hCall))

theorem Touches.ite {c : Prop} [Decidable c] (h : Touches b s t) (h' : Touches b s u) :
    Touches b s (if c then t else u) := by
  split_ifs
  · exact h
  · exact h'

/-- The server is replaced by one in which nobody else is subscribed. -/
theorem Touches.serve (h : Touches b s t) {server next : Server} (hServer : t.server = some server)
    (hOthers : server.Others t.conn.id next) : Touches b s { t with server := some next } := by
  refine h.trans ⟨rfl, fun name other hOther hu => ?_, Or.inl, Or.inl rfl, .refl t⟩
  rw [hServer]
  exact hOthers name other hOther hu

theorem Touches.subscribe (h : Touches b s t) (name : ServiceName) (sub : Bool) :
    Touches b s (t.subscribe name sub) := by
  cases hServer : t.server with
  | none =>
      refine h.set ?_
      unfold kept keptEntries State.subscribe
      rw [hServer]
      rfl
  | some server =>
      have hNext := h.serve hServer (Server.others_subscribe server name sub)
      unfold State.subscribe
      rwa [hServer]

/-- The call is left alone where the event does not bear on it. -/
theorem Touches.keepsCall (h : Touches b s t) (hCall : ¬ b.call) : KeepsCall s t :=
  h.call.resolve_right hCall

theorem KeepsCall.trans (h : KeepsCall s t) (h' : KeepsCall t u) : KeepsCall s u := Eq.trans h' h

theorem KeepsCall.emit (h : KeepsCall s t) (hEffect : effect.audio = none) :
    KeepsCall s (t.emit effect) := (callView_emit t hEffect).trans h

end Frames

section Options
variable {b : Bears} (fixed : Fixed) (env : Env) (s : State)

theorem touches_refreshAudio : Touches b s (refreshAudio s) := by
  unfold refreshAudio
  exact .ite (.ite (.subscribe (.refl s) _ _) (.refl s)) (.subscribe (.refl s) _ _)

theorem touches_refreshFileClipboard : Touches b s (s.refreshFileClipboard fixed) := by
  unfold refreshFileClipboard
  exact .ite (.subscribe (.refl s) _ _) (.refl s)

theorem touches_refreshClipboard : Touches b s s.refreshClipboard := .subscribe (.refl s) _ _

theorem touches_setEnableFileTransfer (v : Bool) :
    Touches b s (setEnableFileTransfer fixed s v) := by
  unfold setEnableFileTransfer
  refine .ite (.trans ?_ (touches_refreshFileClipboard fixed _)) (.refl s)
  refine .trans ?_ (.ite (.emit (.refl _) rfl) (.refl _))
  refine .trans ?_ (.ite (.emit (.refl _) rfl) (.refl _))
  exact .set (.refl s) rfl

/-- The encoder is told of the decodings in an option message. -/
theorem touches_updateOptions (o : OptionMessage)
    (hDecoding : o.supportedDecoding.isSome = true → b.decoding) :
    Touches b s (s.updateOptions fixed env o) := by
  refine updateOptions_induct fixed env s (motive := Touches b s) o (.refl s)
    ?_ ?_ ?_ ?_ ?_ ?_ ?_ ?_ ?_ ?_ ?_
  · intro t effect hEffect h
    exact h.told (fun hKind => hDecoding (hEffect.2.2.2 hKind)) hEffect.2.2.1
  · intro t v _ h; exact h.set rfl
  · intro t v _ h
    unfold setShowRemoteCursor
    refine .subscribe (.subscribe ?_ _ _) _ _
    exact h.set rfl
  · intro t v _ h; exact h.set rfl
  · intro t v _ h
    unfold setFollowRemoteWindow
    refine .subscribe ?_ _ _
    exact h.set rfl
  · intro t v _ h
    unfold setDisableAudio
    refine .trans ?_ (touches_refreshAudio _)
    exact h.set rfl
  · intro t v _ h; exact h.trans (touches_setEnableFileTransfer fixed t v)
  · intro t v _ h
    unfold setDisableClipboard
    refine .trans ?_ (touches_refreshClipboard _)
    exact h.set rfl
  · intro t v _ h
    unfold setDisableKeyboard
    refine .subscribe (.trans ?_ (touches_refreshFileClipboard fixed _)) _ _
    refine .trans ?_ (touches_refreshClipboard _)
    exact h.set rfl
  · intro t v _ h; exact .emit (h.set rfl) rfl
  · intro t v _ h
    unfold setShowMyCursor
    exact .ite (.emit (h.set rfl) rfl) (.ite (.emit (h.set rfl) rfl) (h.set rfl))

end Options

/-- No entry is made from `s` to `t`. -/
abbrev Apart (s t : State) : Prop := Touches ⟨False, False, False⟩ s t

theorem Still.apart {s t : State} (h : Still s t) : Apart s t := by
  have hView := h.view
  simp only [stillView, serviceView, Prod.mk.injEq, ServiceView.mk.injEq] at hView
  obtain ⟨⟨hId, hAuthorized, hAuthed, -, -, hServer⟩, ⟨hSender, hAsked, hCalling⟩, hGranted, hConns, hSubed⟩ :=
    hView
  have hPlain : Emits (fun effect => effect.isDecoding = false ∧ effect.audio = none) s t := by
    refine h.emits.mono fun effect hStill => ?_
    simpa [Effect.isPlain] using ((Bool.and_eq_true _ _).mp hStill).2
  have hPlayed : t.played = s.played := by
    obtain ⟨more, hMore, hAll⟩ := hPlain
    unfold played
    rw [hMore, List.filterMap_append, List.filterMap_eq_nil_iff.mpr fun effect hMem => (hAll effect hMem).2,
      List.append_nil]
  refine ⟨?_, fun name other _ ht => by rwa [hServer] at ht, fun ht => Or.inl (hSubed ▸ ht), Or.inl ?_,
    hPlain.mono fun effect hEffect hIs => absurd (hIs.symm.trans hEffect.1) (by simp)⟩
  · simp only [entryView, hId, hAuthorized, hGranted, hAuthed, hConns]
  · simp only [KeepsCall, callView, hSender, hAsked, hCalling, hPlayed]

theorem Calm.touches {b : Bears} {s t : State} (h : Calm s t) : Touches b s t :=
  h.toStill.apart.mono False.elim False.elim False.elim

section Authorized
variable {b : Bears} (fixed : Fixed) (env : Env) (s : State)

theorem touches_sendLoginAnswer
    (hDecoding : s.conn.fileTransfer.isSome = false → s.conn.terminal = false → b.decoding) :
    Touches b s (s.sendLoginAnswer env).1 := by
  unfold sendLoginAnswer
  split_ifs with hOther hCamera
  · exact .emit (.refl s) rfl
  all_goals
    simp only [Bool.or_eq_true, not_or, Bool.not_eq_true] at hOther
    have hTold : Touches b s s.updateCodecOnLogin := .told (.refl s) (fun _ => hDecoding hOther.1 hOther.2) rfl
  · exact hTold.emit rfl
  · split <;> exact hTold.emit rfl

theorem touches_applyOptionsInLogin
    (hDecoding : ∀ o, s.conn.optionsInLogin = some o → o.supportedDecoding.isSome = true → b.decoding) :
    Touches b s (s.applyOptionsInLogin fixed env) := by
  unfold applyOptionsInLogin
  split
  · rename_i o hSome
    refine .trans ?_ (touches_updateOptions fixed env _ o (hDecoding o hSome))
    exact .set (.refl s) rfl
  · exact .refl s

theorem touches_trySubMonitorServices (hRemote : s.conn.isRemote = true → b.services) :
    Touches b s (s.trySubMonitorServices fixed env) := by
  unfold trySubMonitorServices
  split_ifs with hReady
  · simp only [Bool.and_eq_true] at hReady
    have hMarked : Touches b s { s with conn := { s.conn with servicesSubed := true } } :=
      ⟨rfl, fun _ _ _ h => h, fun _ => Or.inr (hRemote hReady.1), Or.inl rfl, .refl s⟩
    dsimp only
    split
    · rename_i server hServer
      have hServed := hMarked.serve hServer
        (Server.Others.trans (Server.others_ensureService server (.video .monitor fixed.primaryDisplayIdx))
          (Server.others_addConnection _ fixed.primaryDisplayIdx
            (noperms fixed { s with conn := { s.conn with servicesSubed := true } })))
      exact hServed.set rfl
    · exact hMarked
  · exact .refl s

theorem touches_trySubCameraDisplays : Touches b s (s.trySubCameraDisplays fixed env) := by
  unfold trySubCameraDisplays
  cases hServer : s.server with
  | none =>
      refine .set (.refl s) ?_
      unfold kept keptEntries
      rw [hServer]
      rfl
  | some server =>
      refine Touches.serve (.refl s) hServer (.trans ?_ (Server.others_addCameraConnection _ _ _))
      exact .ite (Server.others_ensureService server _) (.refl server)

theorem touches_initTerminalService : Touches b s (s.initTerminalService env) := by
  unfold initTerminalService
  split
  · exact .set (.refl s) rfl
  · exact .refl s

theorem touches_startKind (wait subService : Bool) (hRemote : s.conn.isRemote = true → b.services) :
    Touches b s (s.startKind fixed env wait subService) := by
  unfold startKind
  split
  · exact .ite (.set (.refl s) rfl) (.emit (.refl s) rfl)
  · refine .ite ?_ (.ite ?_ (.ite (touches_trySubMonitorServices fixed env s hRemote) (.refl s)))
    · refine .trans ?_ (touches_initTerminalService env _)
      exact .set (.refl s) rfl
    · refine .emit ?_ rfl
      exact .set (.ite (.refl s) (touches_trySubCameraDisplays fixed env s)) rfl

theorem isRemote_applyOptionsInLogin :
    (s.applyOptionsInLogin fixed env).conn.isRemote = s.conn.isRemote := by
  unfold applyOptionsInLogin
  split
  · rw [isRemote_eq, isRemote_eq, (keepsLogin_updateOptions fixed env _ _).view]
    rfl
  · rfl

/-- A login tells the encoder of decodings for the kinds that are sent pictures, or with its
options; only a remote connection is subscribed to the services. -/
theorem touches_afterAuthorize
    (hDecoding : s.conn.loginView.authConnType.isVideo = true ∨ s.conn.loginView.Tells fixed env →
      b.decoding)
    (hServices : s.conn.loginView.authConnType = .remote → b.services) :
    Touches b s (s.afterAuthorize fixed env) := by
  unfold afterAuthorize
  split_ifs with hSocket hError
  · exact .emit (.refl s) rfl
  · exact .emit (.refl s) rfl
  have hApplied : s.conn.loginView.appliedOptions fixed env = s.conn.optionsInLogin := by
    unfold LoginView.appliedOptions
    rw [isRemote_eq] at hError
    have hNone : ¬ s.conn.loginView.portForwardSocket.isSome = true := hSocket
    rw [if_neg hNone, if_neg (by simpa using hError)]
    rfl
  have hKeeps := (keepsLogin_sendLoginAnswer env s).view
  have hAnswer : Touches b s (s.sendLoginAnswer env).1 := by
    refine touches_sendLoginAnswer env s fun hFile hTerminal => hDecoding (Or.inl ?_)
    unfold LoginView.authConnType
    simp only [Connection.loginView, hFile, hSocket, hTerminal]
    cases s.conn.viewCamera <;> rfl
  dsimp only
  generalize s.sendLoginAnswer env = answer at *
  refine (hAnswer.trans (touches_applyOptionsInLogin fixed env _ fun o hSome hTells => ?_)).trans
    (touches_startKind fixed env _ _ _ fun hRemote => hServices ?_)
  · refine hDecoding (Or.inr ⟨o, ?_, hTells⟩)
    rw [hApplied, ← hSome]
    exact (congrArg LoginView.optionsInLogin hKeeps).symm
  · rwa [isRemote_applyOptionsInLogin, isRemote_eq, hKeeps, decide_eq_true_iff] at hRemote

end Authorized

end State

end HibtDesk
