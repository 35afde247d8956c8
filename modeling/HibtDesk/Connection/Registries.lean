import HibtDesk.Connection.Entries

/-! The process with its connections and the registries they enter themselves in. Every
connection of the process runs its own loop on the tables and the server it shares with the
others; it is registered when it is opened and when it is authorized, and its destructors run
when its value is dropped. -/
namespace HibtDesk

/-- What the encoder knows a peer can decode: what the peer told, or the default. -/
inductive PeerDecoding where
  | supported (supportedDecoding : Nat)
  | newOnlyVp9
  deriving DecidableEq, Repr

/-- The registries of the process. `AUTHED_CONNS` is not here: the handlers read it with the
other tables. -/
structure Registries where
  aliveConns : List Int
  controlPermissionsArray : List (Int × Nat)
  qosUsers : Int → Bool
  peerDecodings : Int → Option PeerDecoding
  recordCursorPosRunning : Bool

namespace Registries

/-- `ConnectionID::new` and `ControlPermissionsID::new`. -/
def openConnection (r : Registries) (id : Int) (controlPermissions : Option Nat) : Registries :=
  { r with
    aliveConns := r.aliveConns ++ [id]
    controlPermissionsArray := match controlPermissions with
      | some permissions => r.controlPermissionsArray ++ [(id, permissions)]
      | none => r.controlPermissionsArray }

/-- `ControlPermissionsID::drop`, then `ConnectionID::drop`. -/
def dropConnection (r : Registries) (id : Int) (controlPermissions : Option Nat) : Registries :=
  { r with
    controlPermissionsArray :=
      if controlPermissions.isSome then r.controlPermissionsArray.filter (·.1 != id)
      else r.controlPermissionsArray
    aliveConns := r.aliveConns.filter (· != id) }

/-- `AuthedConnID::new` for what `AUTHED_CONNS` does not hold. -/
def openAuthed (r : Registries) (id : Int) (connType : AuthConnType) : Registries :=
  if connType = .remote ∨ connType = .viewCamera then
    { r with qosUsers := Function.update r.qosUsers id true }
  else r

/-- `AuthedConnID::drop` for what `AUTHED_CONNS` does not hold. -/
def dropAuthed (r : Registries) (id : Int) (connType : AuthConnType) : Registries :=
  if connType = .remote ∨ connType = .viewCamera then
    { r with
      peerDecodings := Function.update r.peerDecodings id none
      qosUsers := Function.update r.qosUsers id false }
  else r

/-- `Encoder::update` for the effects that call it. -/
def updateEncoder (id : Int) (r : Registries) (effect : Effect) : Registries :=
  match effect with
  | .updateEncoder supportedDecoding =>
      let decoding := match supportedDecoding with
        | some q => PeerDecoding.supported q
        | none => .newOnlyVp9
      { r with peerDecodings := Function.update r.peerDecodings id (some decoding) }
  | _ => r

/-- `try_start_record_cursor_pos`. -/
def tryStartRecordCursorPos (r : Registries) : Registries := { r with recordCursorPosRunning := true }

/-- `try_stop_record_cursor_pos`: it goes on while a remote connection is registered. -/
def tryStopRecordCursorPos (r : Registries) (authedConns : List AuthedConn) : Registries :=
  if (authedConns.filter fun c => c.connType == .remote).length > 0 then r
  else { r with recordCursorPosRunning := false }

/-- What one event of a connection enters: the connection when it is authorized, what the
encoder is told, and the recorder when `try_sub_monitor_services` reaches the server. -/
def enter (r : Registries) (before after : State) : Registries :=
  let id := before.conn.id
  let r := match before.conn.authedConnId, after.conn.authedConnId with
    | none, some connType => r.openAuthed id connType
    | _, _ => r
  let r := (after.effects.drop before.effects.length).foldl (updateEncoder id) r
  if !before.conn.servicesSubed && after.conn.servicesSubed && after.server.isSome then
    r.tryStartRecordCursorPos
  else r

section Lemmas
variable {r : Registries} {id other : Int} {s t : State}

theorem foldl_updateEncoder (id : Int) (effects : List Effect) :
    ∃ decodings, effects.foldl (updateEncoder id) r = { r with peerDecodings := decodings } ∧
      ∀ other, decodings other ≠ none → r.peerDecodings other ≠ none ∨
        other = id ∧ ∃ effect ∈ effects, effect.isDecoding = true := by
  induction effects generalizing r with
  | nil => exact ⟨r.peerDecodings, rfl, fun _ => Or.inl⟩
  | cons effect rest ih =>
      obtain ⟨decodings, hFold, hTold⟩ := ih (r := updateEncoder id r effect)
      have hOne : updateEncoder id r effect =
          { r with peerDecodings := (updateEncoder id r effect).peerDecodings } := by
        unfold updateEncoder
        split <;> rfl
      refine ⟨decodings, ?_, fun other hOther => ?_⟩
      · rw [List.foldl_cons, hFold, hOne]
      · rcases hTold other hOther with hOld | ⟨hSame, found, hMem, hIs⟩
        · by_cases hNew : other = id ∧ effect.isDecoding = true
          · exact Or.inr ⟨hNew.1, effect, by simp, hNew.2⟩
          · left
            unfold updateEncoder at hOld
            split at hOld
            · have hSame : other ≠ id := fun hSame => hNew ⟨hSame, rfl⟩
              simpa [hSame] using hOld
            · exact hOld
        · exact Or.inr ⟨hSame, found, by simp [hMem], hIs⟩

/-- What `enter` leaves alone, and what each entry it makes comes from. -/
theorem enter_spec (r : Registries) (s t : State) :
    (r.enter s t).aliveConns = r.aliveConns ∧
    (r.enter s t).controlPermissionsArray = r.controlPermissionsArray ∧
    (∀ other, (r.enter s t).qosUsers other = true → r.qosUsers other = true ∨
      other = s.conn.id ∧ s.conn.authedConnId = none ∧ t.conn.SentPictures) ∧
    (∀ other, (r.enter s t).peerDecodings other ≠ none → r.peerDecodings other ≠ none ∨
      other = s.conn.id ∧ ∃ effect ∈ t.effects.drop s.effects.length, effect.isDecoding = true) ∧
    ((r.enter s t).recordCursorPosRunning = true → r.recordCursorPosRunning = true ∨
      s.conn.servicesSubed = false ∧ t.conn.servicesSubed = true) := by
  have hAuthed : ∃ users, (match s.conn.authedConnId, t.conn.authedConnId with
      | none, some connType => r.openAuthed s.conn.id connType
      | _, _ => r) = { r with qosUsers := users } ∧
      ∀ other, users other = true → r.qosUsers other = true ∨
        other = s.conn.id ∧ s.conn.authedConnId = none ∧ t.conn.SentPictures := by
    split
    · rename_i connType hNone hSome
      unfold openAuthed
      split_ifs with hVideo
      · refine ⟨_, rfl, fun other hUser => ?_⟩
        by_cases hSame : other = s.conn.id
        · refine Or.inr ⟨hSame, hNone, connType, hSome, ?_⟩
          rcases hVideo with rfl | rfl <;> rfl
        · exact Or.inl (by simpa [hSame] using hUser)
      · exact ⟨r.qosUsers, rfl, fun _ => Or.inl⟩
    · exact ⟨r.qosUsers, rfl, fun _ => Or.inl⟩
  obtain ⟨users, hOpened, hUsers⟩ := hAuthed
  obtain ⟨decodings, hFold, hTold⟩ := foldl_updateEncoder (r := { r with qosUsers := users })
    s.conn.id (t.effects.drop s.effects.length)
  unfold enter
  dsimp only
  rw [hOpened, hFold]
  split_ifs with hStarts
  · simp only [Bool.and_eq_true, Bool.not_eq_true'] at hStarts
    exact ⟨rfl, rfl, hUsers, hTold, fun _ => Or.inr hStarts.1⟩
  · exact ⟨rfl, rfl, hUsers, hTold, Or.inl⟩

end Lemmas

end Registries

/-- A connection of the process: in `Connection::start`, at the end of it with its value still
there, or dropped. -/
inductive Life where
  | serving (l : Loop)
  | left (conn : Connection)
  | dropped

def Life.conn : Life → Option Connection
  | serving l => some l.state.conn
  | left conn => some conn
  | dropped => none

/-- The tables, the server and the registries are those of all connections. -/
structure Process where
  world : World
  server : Option Server
  registries : Registries
  idCount : Int
  conns : Int → Option Life

/-- A step of the process. What is not a step of a connection is `elsewhere`: the services and
the tables change without one, and the server goes away when the process is stopped. -/
inductive ProcessEvent where
  | start (onOpen : Bool) (now : Nat) (ip salt challenge : String) (require2fa : Option Totp)
      (controlPermissions : Option Nat)
  | handle (id : Int) (event : Event)
  | finish (id : Int) (env : Env)
  | drop (id : Int)
  | elsewhere (world : World) (added : List ServiceName)
  | stop

namespace Process
variable (fixed : Fixed)

/-- No connection was opened yet. -/
def init (world : World) (services : Option (List ServiceName)) (idCount : Int) : Process :=
  { world := { world with authedConns := [] }
    server := services.map fun services => ⟨services, fun _ _ => false, []⟩
    registries := ⟨[], [], fun _ => false, fun _ => none, false⟩
    idCount := idCount
    conns := fun _ => none }

def setLife (p : Process) (id : Int) (life : Life) : Process :=
  { p with conns := Function.update p.conns id (some life) }

/-- The loop of a connection works on what the connections share. -/
def shared (p : Process) (l : Loop) : Loop :=
  { l with state := { l.state with world := p.world, server := p.server } }

/-- `Connection::start` with the next id of `get_new_id`. A connection that `on_open` refuses
comes to its end at once. -/
def start (p : Process) (onOpen : Bool) (now : Nat) (ip salt challenge : String)
    (require2fa : Option Totp) (controlPermissions : Option Nat) : Process :=
  let id := p.idCount + 1
  let l := Loop.start fixed p.world p.server now id ip salt challenge require2fa controlPermissions
  let life := if onOpen then .serving l else .left { l.state.conn with closed := true }
  { p with
    registries := p.registries.openConnection id controlPermissions
    idCount := id }.setLife id life

/-- An event of one connection. What the others do is not an event of it here. -/
def handle (p : Process) (id : Int) (event : Event) : Process :=
  match p.conns id with
  | some (.serving l) =>
      if event.2.isOthers then p
      else
        let before := p.shared l
        let after := before.step fixed event
        { p with
          world := after.state.world
          server := after.state.server
          registries := p.registries.enter before.state after.state }.setLife id (.serving after)
  | _ => p

/-- The end of `Connection::start`, once the loop was left. -/
def finish (p : Process) (id : Int) (env : Env) : Process :=
  match p.conns id with
  | some (.serving l) =>
      if l.running then p
      else
        let s := (p.shared l).state.finish fixed env
        { p with
          world := s.world
          server := s.server
          registries :=
            if s.server.isSome then p.registries.tryStopRecordCursorPos s.world.authedConns
            else p.registries }.setLife id (.left s.conn)
  | _ => p

/-- `AuthedConnID::drop`, if the connection was authorized. -/
def dropAuthed (p : Process) (id : Int) (authedConnId : Option AuthConnType) : Process :=
  match authedConnId with
  | some connType =>
      { p with
        registries := p.registries.dropAuthed id connType
        world := { p.world with
          authedConns := p.world.authedConns.filter fun c => c.connId != id } }
  | none => p

/-- The value of the connection is dropped: `AuthedConnID` with it, and then what
`Connection::start` holds besides. -/
def drop (p : Process) (id : Int) : Process :=
  match p.conns id with
  | some (.left conn) =>
      let q := p.dropAuthed id conn.authedConnId
      { q with registries := q.registries.dropConnection id conn.controlPermissions }.setLife id .dropped
  | _ => p

/-- The services and the tables change by themselves; who is authorized does not. -/
def elsewhere (p : Process) (world : World) (added : List ServiceName) : Process :=
  { p with
    world := { world with authedConns := p.world.authedConns }
    server := p.server.map fun server => added.foldl Server.ensureService server }

def step (p : Process) (event : ProcessEvent) : Process :=
  match event with
  | .start onOpen now ip salt challenge require2fa controlPermissions =>
      p.start fixed onOpen now ip salt challenge require2fa controlPermissions
  | .handle id event => p.handle fixed id event
  | .finish id env => p.finish fixed id env
  | .drop id => p.drop id
  | .elsewhere world added => p.elsewhere world added
  | .stop => { p with server := none }

/-- The process after a list of events. -/
abbrev run (p : Process) (events : List ProcessEvent) : Process := Trace.run (step fixed) p events

def conn (p : Process) (id : Int) : Option Connection := (p.conns id).bind Life.conn

/-- The kind under which a connection that still exists is authorized. -/
def kind (p : Process) (id : Int) : Option AuthConnType := (p.conn id).bind (·.authedConnId)

/-- The value of the connection was dropped. -/
def ended (p : Process) (id : Int) : Bool :=
  match p.conns id with
  | some .dropped => true
  | _ => false

/-- The id is in no registry, and no service knows it. -/
structure Absent (p : Process) (id : Int) : Prop where
  authed : ∀ c ∈ p.world.authedConns, c.connId ≠ id
  alive : id ∉ p.registries.aliveConns
  qos : p.registries.qosUsers id = false
  decodings : p.registries.peerDecodings id = none
  permissions : ∀ entry ∈ p.registries.controlPermissionsArray, entry.1 ≠ id
  subscribers : ∀ name, Server.heard p.server name id = false

/-- Nothing is left of the connections that were dropped, and without a remote connection the
recorder is stopped. -/
structure Clean (p : Process) : Prop where
  absent : ∀ id, p.ended id = true → p.Absent id
  recorder : (∀ id, p.kind id ≠ some .remote) → p.registries.recordCursorPosRunning = false

/-- The connection still exists and is sent pictures. -/
def SentPictures (p : Process) (id : Int) : Prop := ∃ k, p.kind id = some k ∧ k.isVideo = true

/-- Every entry of a registry is that of a connection that still exists and whose destructors
remove it. -/
structure Tidy (p : Process) : Prop where
  unused : ∀ id, p.idCount < id → p.conns id = none
  ids : ∀ id conn, p.conn id = some conn → conn.id = id
  sound : ∀ id l, p.conns id = some (.serving l) → l.Sound
  alive : ∀ id ∈ p.registries.aliveConns, (p.conn id).isSome = true
  permissions : ∀ entry ∈ p.registries.controlPermissionsArray,
    ∃ conn, p.conn entry.1 = some conn ∧ conn.controlPermissions.isSome = true
  authed : ∀ c ∈ p.world.authedConns, p.kind c.connId = some c.connType
  qos : ∀ id, p.registries.qosUsers id = true → p.SentPictures id
  decodings : ∀ id, p.registries.peerDecodings id ≠ none → p.SentPictures id
  subscribers : ∀ name id, Server.heard p.server name id = true → ∃ l, p.conns id = some (.serving l)
  recorder : p.registries.recordCursorPosRunning = true → ∃ id, p.kind id = some .remote

theorem Tidy.clean {p : Process} (h : p.Tidy) : p.Clean := by
  refine ⟨fun id hDropped => ?_, fun hNone => ?_⟩
  · have hDropped : p.conns id = some .dropped := by
      unfold ended at hDropped
      split at hDropped
      · assumption
      · cases hDropped
    have hConn : p.conn id = none := by simp [conn, hDropped, Life.conn]
    have hKind : p.kind id = none := by simp [kind, hConn]
    have hPictures : ¬ p.SentPictures id := by simp [SentPictures, hKind]
    refine ⟨fun c hMem hSame => ?_, fun hMem => ?_, ?_, ?_, fun entry hMem hSame => ?_, fun name => ?_⟩
    · have hAuthed := h.authed c hMem
      rw [hSame, hKind] at hAuthed
      cases hAuthed
    · simpa [hConn] using h.alive id hMem
    · simpa using fun hUser => hPictures (h.qos id hUser)
    · by_contra hTold
      exact hPictures (h.decodings id hTold)
    · obtain ⟨conn, hSome, -⟩ := h.permissions entry hMem
      rw [hSame, hConn] at hSome
      cases hSome
    · by_contra hHeard
      obtain ⟨l, hServing⟩ := h.subscribers name id (by simpa using hHeard)
      rw [hDropped] at hServing
      cases hServing
  · by_contra hRunning
    obtain ⟨id, hRemote⟩ := h.recorder (by simpa using hRunning)
    exact hNone id hRemote

/-- From `p` to `q` no connection is dropped, and none changes its kind. -/
def Grows (p q : Process) : Prop :=
  ∀ id conn, p.conn id = some conn → ∃ next, q.conn id = some next ∧
    next.controlPermissions = conn.controlPermissions ∧
    ∀ k, conn.authedConnId = some k → next.authedConnId = some k

section Steps
variable {p q : Process} {id : Int} {life : Life}

theorem conn_setLife (other : Int) :
    (p.setLife id life).conn other = if other = id then life.conn else p.conn other := by
  unfold conn setLife
  by_cases hSame : other = id
  · subst hSame
    simp
  · simp [hSame]

theorem Grows.kind (h : Grows p q) {other : Int} {k : AuthConnType} (hKind : p.kind other = some k) :
    q.kind other = some k := by
  obtain ⟨conn, hConn, hAuthed⟩ := Option.bind_eq_some_iff.mp hKind
  obtain ⟨next, hNext, -, hKeeps⟩ := h other conn hConn
  exact Option.bind_eq_some_iff.mpr ⟨next, hNext, hKeeps k hAuthed⟩

theorem Grows.pictures (h : Grows p q) {other : Int} (hPictures : p.SentPictures other) :
    q.SentPictures other := by
  obtain ⟨k, hKind, hVideo⟩ := hPictures
  exact ⟨k, h.kind hKind, hVideo⟩

theorem Grows.alive (h : Grows p q) {other : Int} (hAlive : (p.conn other).isSome = true) :
    (q.conn other).isSome = true := by
  obtain ⟨conn, hConn⟩ := Option.isSome_iff_exists.mp hAlive
  obtain ⟨next, hNext, -⟩ := h other conn hConn
  simp [hNext]

theorem Grows.permissions (h : Grows p q) {other : Int}
    (hSome : ∃ conn, p.conn other = some conn ∧ conn.controlPermissions.isSome = true) :
    ∃ conn, q.conn other = some conn ∧ conn.controlPermissions.isSome = true := by
  obtain ⟨conn, hConn, hPermissions⟩ := hSome
  obtain ⟨next, hNext, hSame, -⟩ := h other conn hConn
  exact ⟨next, hNext, hSame ▸ hPermissions⟩

/-- A step that drops no connection keeps the registries tidy if its new entries are. -/
theorem Tidy.grow (h : p.Tidy) (hGrows : Grows p q)
    (unused : ∀ id, q.idCount < id → q.conns id = none)
    (ids : ∀ id conn, q.conn id = some conn → conn.id = id)
    (sound : ∀ id l, q.conns id = some (.serving l) → l.Sound)
    (alive : ∀ id ∈ q.registries.aliveConns, id ∈ p.registries.aliveConns ∨ (q.conn id).isSome = true)
    (permissions : ∀ entry ∈ q.registries.controlPermissionsArray,
      entry ∈ p.registries.controlPermissionsArray ∨
        ∃ conn, q.conn entry.1 = some conn ∧ conn.controlPermissions.isSome = true)
    (authed : ∀ c ∈ q.world.authedConns, c ∈ p.world.authedConns ∨ q.kind c.connId = some c.connType)
    (qos : ∀ id, q.registries.qosUsers id = true → p.registries.qosUsers id = true ∨ q.SentPictures id)
    (decodings : ∀ id, q.registries.peerDecodings id ≠ none →
      p.registries.peerDecodings id ≠ none ∨ q.SentPictures id)
    (subscribers : ∀ name id, Server.heard q.server name id = true →
      ∃ l, q.conns id = some (.serving l))
    (recorder : q.registries.recordCursorPosRunning = true →
      p.registries.recordCursorPosRunning = true ∨ ∃ id, q.kind id = some .remote) : q.Tidy where
  unused := unused
  ids := ids
  sound := sound
  alive := fun id hMem => (alive id hMem).elim (fun hOld => hGrows.alive (h.alive id hOld)) (·)
  permissions := fun entry hMem =>
    (permissions entry hMem).elim (fun hOld => hGrows.permissions (h.permissions entry hOld)) (·)
  authed := fun c hMem => (authed c hMem).elim (fun hOld => hGrows.kind (h.authed c hOld)) (·)
  qos := fun id hUser => (qos id hUser).elim (fun hOld => hGrows.pictures (h.qos id hOld)) (·)
  decodings := fun id hTold =>
    (decodings id hTold).elim (fun hOld => hGrows.pictures (h.decodings id hOld)) (·)
  subscribers := subscribers
  recorder := fun hRunning => (recorder hRunning).elim
    (fun hOld => (h.recorder hOld).imp fun _ hRemote => hGrows.kind hRemote) (·)

/-- One connection goes on, or is new. -/
theorem grows_setLife {conn : Connection} (hLife : life.conn = some conn)
    (hOld : ∀ old, p.conn id = some old → conn.controlPermissions = old.controlPermissions ∧
      ∀ k, old.authedConnId = some k → conn.authedConnId = some k) :
    Grows p (p.setLife id life) := by
  intro other old hConn
  rw [conn_setLife]
  split_ifs with hSame
  · subst hSame
    exact ⟨conn, hLife, hOld old hConn⟩
  · exact ⟨old, hConn, rfl, fun _ h => h⟩

theorem ids_setLife {conn : Connection}
    (hIds : ∀ other found, p.conn other = some found → found.id = other) (hLife : life.conn = some conn)
    (hId : conn.id = id) (other : Int) (found : Connection)
    (hFound : (p.setLife id life).conn other = some found) : found.id = other := by
  rw [conn_setLife] at hFound
  split_ifs at hFound with hSame
  · rw [hLife] at hFound
    cases hFound
    exact hId.trans hSame.symm
  · exact hIds other found hFound

theorem conns_setLife (other : Int) :
    (p.setLife id life).conns other = if other = id then some life else p.conns other := by
  unfold setLife
  by_cases hSame : other = id
  · subst hSame
    simp
  · simp [hSame]

/-- An id that no connection has is not the one whose life goes on. -/
theorem conns_setLife_unused {other : Int} {old : Life} (hOld : p.conns id = some old)
    (hUnused : p.conns other = none) : (p.setLife id life).conns other = none := by
  rw [conns_setLife, if_neg]
  · exact hUnused
  · rintro rfl
    exact absurd (hOld.symm.trans hUnused) (by simp)

variable {fixed : Fixed}

theorem Tidy.start (h : p.Tidy) (onOpen : Bool) (now : Nat) (ip salt challenge : String)
    (require2fa : Option Totp) (controlPermissions : Option Nat) :
    (p.start fixed onOpen now ip salt challenge require2fa controlPermissions).Tidy := by
  have hNew : p.conns (p.idCount + 1) = none := h.unused _ (by omega)
  have hNone : p.conn (p.idCount + 1) = none := by simp [conn, hNew]
  unfold Process.start
  dsimp only
  generalize hLoop : Loop.start fixed p.world p.server now (p.idCount + 1) ip salt challenge require2fa
    controlPermissions = l
  generalize hLife : (if onOpen then Life.serving l
    else .left { l.state.conn with closed := true }) = life
  obtain ⟨conn, hConn, hId, hPermissions, hSound⟩ : ∃ conn, life.conn = some conn ∧
      conn.id = p.idCount + 1 ∧ conn.controlPermissions = controlPermissions ∧
      ∀ l, life = .serving l → l.Sound := by
    have hFirst : l.Sound := by
      subst hLoop
      exact ⟨fun _ => rfl, fun _ => ⟨nofun, fun _ => rfl⟩⟩
    cases onOpen with
    | true => exact ⟨l.state.conn, by rw [← hLife]; rfl, by rw [← hLoop]; rfl, by rw [← hLoop]; rfl,
        fun found hFound => by cases hLife.trans hFound; exact hFirst⟩
    | false => exact ⟨{ l.state.conn with closed := true }, by rw [← hLife]; rfl, by rw [← hLoop]; rfl,
        by rw [← hLoop]; rfl, fun found hFound => by cases hLife.trans hFound⟩
  refine h.grow (grows_setLife hConn fun old hOld => ?_) (fun other hOther => ?_)
    (ids_setLife h.ids hConn hId) (fun other found hFound => ?_) (fun other hMem => ?_)
    (fun entry hMem => ?_) (fun _ => Or.inl) (fun _ => Or.inl) (fun _ => Or.inl)
    (fun name other hHeard => ?_) Or.inl
  · exact absurd (hOld.symm.trans hNone) (by simp)
  · rw [conns_setLife, if_neg (by rintro rfl; exact lt_irrefl _ hOther)]
    exact h.unused other (by change p.idCount + 1 < other at hOther; omega)
  · rw [conns_setLife] at hFound
    split_ifs at hFound
    · exact hSound found (Option.some.inj hFound)
    · exact h.sound other found hFound
  · rcases List.mem_append.mp hMem with hOld | hLast
    · exact Or.inl hOld
    · rw [List.mem_singleton.mp hLast, conn_setLife, if_pos rfl, hConn]
      exact Or.inr rfl
  · cases controlPermissions with
    | none => exact Or.inl hMem
    | some permissions =>
        rcases List.mem_append.mp hMem with hOld | hLast
        · exact Or.inl hOld
        · rw [List.mem_singleton.mp hLast, conn_setLife, if_pos rfl]
          exact Or.inr ⟨conn, hConn, by rw [hPermissions]; rfl⟩
  · obtain ⟨serving, hServing⟩ := h.subscribers name other hHeard
    have hOther : other ≠ p.idCount + 1 := by
      rintro rfl
      rw [hNew] at hServing
      cases hServing
    exact ⟨serving, by rw [conns_setLife, if_neg hOther]; exact hServing⟩

theorem conn_of_serving {l : Loop} (h : p.conns id = some (.serving l)) : p.conn id = some l.state.conn := by
  simp [conn, h, Life.conn]

theorem Tidy.handle (h : p.Tidy) {event : Event}
    (hSafe : ∀ l, p.conns id = some (.serving l) → l.running = true → Loop.DecodingSafe fixed (p.shared l) event) :
    (p.handle fixed id event).Tidy := by
  unfold Process.handle
  split
  · rename_i l hServing
    split_ifs with hOthers
    · exact h
    have hConn := conn_of_serving hServing
    have hId : l.state.conn.id = id := h.ids id _ hConn
    have hSound : (p.shared l).Sound := ⟨(h.sound id l hServing).isOpen, (h.sound id l hServing).registered⟩
    have hOwn : event.2.isOthers = false := by simpa using hOthers
    have hEnters := hSound.enters hOwn (hSafe l hServing)
    have hNext : ((p.shared l).step fixed event).Sound := hSound.step hOwn
    dsimp only
    generalize (p.shared l).step fixed event = after at *
    obtain ⟨hAlive, hArray, hUsers, hDecodings, hRunning⟩ :=
      Registries.enter_spec p.registries (p.shared l).state after.state
    have hLife : (Life.serving after).conn = some after.state.conn := rfl
    have hKind : ∀ k, after.state.conn.authedConnId = some k →
        (p.setLife id (.serving after)).kind id = some k := by
      intro k hSome
      unfold Process.kind
      rw [conn_setLife, if_pos rfl, hLife]
      exact hSome
    refine h.grow (grows_setLife hLife fun old hOld => ?_) (fun other hOther => ?_)
      (ids_setLife h.ids hLife (hEnters.id.trans hId)) (fun other found hFound => ?_)
      (fun other hMem => ?_) (fun entry hMem => ?_) (fun c hMem => ?_) (fun other hUser => ?_)
      (fun other hTold => ?_) (fun name other hHeard => ?_) (fun hRuns => ?_)
    · obtain rfl := Option.some.inj (hConn.symm.trans hOld)
      refine ⟨hEnters.permissions, fun k hSome => ?_⟩
      rcases hEnters.authed with ⟨hSame, -⟩ | ⟨-, -, hNone, -⟩
      · exact hSame.trans hSome
      · exact absurd (hSome.symm.trans hNone) (by simp)
    · exact conns_setLife_unused hServing (h.unused other hOther)
    · rw [conns_setLife] at hFound
      split_ifs at hFound
      · cases hFound
        exact hNext
      · exact h.sound other found hFound
    · exact Or.inl (hAlive ▸ hMem)
    · exact Or.inl (hArray ▸ hMem)
    · rcases hEnters.authed with ⟨-, hSame⟩ | ⟨k, key, -, hSome, hAdded⟩
      · exact Or.inl (hSame ▸ hMem)
      · change c ∈ after.state.world.authedConns at hMem
        rw [hAdded] at hMem
        rcases List.mem_append.mp hMem with hOld | hLast
        · exact Or.inl hOld
        · rw [List.mem_singleton.mp hLast, show (p.shared l).state.conn.id = id from hId]
          exact Or.inr (hKind k hSome)
    · rcases hUsers other hUser with hOld | ⟨rfl, -, k, hSome, hVideo⟩
      · exact Or.inl hOld
      · rw [show (p.shared l).state.conn.id = id from hId]
        exact Or.inr ⟨k, hKind k hSome, hVideo⟩
    · rcases hDecodings other hTold with hOld | ⟨rfl, effect, hMem, hIs⟩
      · exact Or.inl hOld
      · obtain ⟨more, hMore, hAllowed⟩ := hEnters.emits
        rw [hMore, List.drop_left] at hMem
        obtain ⟨k, hSome, hVideo⟩ := hAllowed effect hMem hIs
        rw [show (p.shared l).state.conn.id = id from hId]
        exact Or.inr ⟨k, hKind k hSome, hVideo⟩
    · rw [conns_setLife]
      split_ifs with hSame
      · exact ⟨after, rfl⟩
      · refine h.subscribers name other (hEnters.others name other ?_ hHeard)
        rwa [show (p.shared l).state.conn.id = id from hId]
    · rcases hRunning hRuns with hOld | ⟨hNot, hNow⟩
      · exact Or.inl hOld
      · rcases hEnters.subed hNow with hYes | hRemote
        · exact absurd (hYes.symm.trans hNot) (by simp)
        · exact Or.inr ⟨id, hKind _ hRemote⟩
  · exact h

theorem Tidy.finish (h : p.Tidy) (env : Env) : (p.finish fixed id env).Tidy := by
  unfold Process.finish
  split
  · rename_i l hServing
    split_ifs with hRun
    · exact h
    have hConn := conn_of_serving hServing
    have hId : l.state.conn.id = id := h.ids id _ hConn
    obtain ⟨hApart, hSilent⟩ := State.finish_spec fixed env (p.shared l).state
    dsimp only
    generalize (p.shared l).state.finish fixed env = s at *
    have hStops : ∀ r : Registries, r = (if s.server.isSome then
        p.registries.tryStopRecordCursorPos s.world.authedConns else p.registries) →
        r.aliveConns = p.registries.aliveConns ∧
        r.controlPermissionsArray = p.registries.controlPermissionsArray ∧
        r.qosUsers = p.registries.qosUsers ∧ r.peerDecodings = p.registries.peerDecodings ∧
        (r.recordCursorPosRunning = true → p.registries.recordCursorPosRunning = true) := by
      rintro r rfl
      unfold Registries.tryStopRecordCursorPos
      split_ifs <;> simp
    generalize hStopped : (if s.server.isSome = true then
      p.registries.tryStopRecordCursorPos s.world.authedConns else p.registries) = r
    obtain ⟨hAlive, hArray, hUsers, hDecodings, hRunning⟩ := hStops r hStopped.symm
    have hLife : (Life.left s.conn).conn = some s.conn := rfl
    refine h.grow (grows_setLife hLife fun old hOld => ?_) (fun other hOther => ?_)
      (ids_setLife h.ids hLife (hApart.id.trans hId)) (fun other found hFound => ?_)
      (fun other hMem => Or.inl (hAlive ▸ hMem)) (fun entry hMem => Or.inl (hArray ▸ hMem))
      (fun c hMem => Or.inl ?_) (fun other hUser => Or.inl (hUsers ▸ hUser))
      (fun other hTold => Or.inl (hDecodings ▸ hTold)) (fun name other hHeard => ?_)
      (fun hRuns => Or.inl (hRunning hRuns))
    · obtain rfl := Option.some.inj (hConn.symm.trans hOld)
      exact ⟨congrArg EntryView.controlPermissions hApart.entries,
        fun k => (congrArg EntryView.authedConnId hApart.entries).trans⟩
    · exact conns_setLife_unused hServing (h.unused other hOther)
    · rw [conns_setLife] at hFound
      split_ifs at hFound
      · cases hFound
      · exact h.sound other found hFound
    · have hSame : s.world.authedConns = p.world.authedConns :=
        congrArg EntryView.authedConns hApart.entries
      change c ∈ s.world.authedConns at hMem
      rwa [hSame] at hMem
    · by_cases hSame : other = id
      · subst hSame
        have hNone := hSilent name
        rw [show (p.shared l).state.conn.id = other from hId] at hNone
        exact absurd (hHeard.symm.trans hNone) (by simp)
      · rw [conns_setLife, if_neg hSame]
        refine h.subscribers name other (hApart.others name other ?_ hHeard)
        rwa [show (p.shared l).state.conn.id = id from hId]
  · exact h

theorem dropAuthed_frame (p : Process) (id : Int) (authedConnId : Option AuthConnType) :
    let q := p.dropAuthed id authedConnId
    q.conns = p.conns ∧ q.idCount = p.idCount ∧ q.server = p.server ∧
      q.registries.aliveConns = p.registries.aliveConns ∧
      q.registries.controlPermissionsArray = p.registries.controlPermissionsArray ∧
      q.registries.recordCursorPosRunning = p.registries.recordCursorPosRunning := by
  unfold dropAuthed Registries.dropAuthed
  cases authedConnId with
  | none => exact ⟨rfl, rfl, rfl, rfl, rfl, rfl⟩
  | some k =>
      dsimp only
      split_ifs <;> exact ⟨rfl, rfl, rfl, rfl, rfl, rfl⟩

/-- The entries made when the connection was authorized go with its kind. -/
theorem Tidy.dropAuthed (h : p.Tidy) {authedConnId : Option AuthConnType}
    (hKind : p.kind id = authedConnId) :
    let q := p.dropAuthed id authedConnId
    (∀ c ∈ q.world.authedConns, c.connId ≠ id ∧ c ∈ p.world.authedConns) ∧
    (∀ other, q.registries.qosUsers other = true →
      other ≠ id ∧ p.registries.qosUsers other = true) ∧
    (∀ other, q.registries.peerDecodings other ≠ none →
      other ≠ id ∧ p.registries.peerDecodings other ≠ none) := by
  cases authedConnId with
  | none =>
      have hPictures : ¬ p.SentPictures id := by simp [SentPictures, hKind]
      refine ⟨fun c hMem => ⟨?_, hMem⟩, fun other hUser => ⟨?_, hUser⟩, fun other hTold => ⟨?_, hTold⟩⟩
      · rintro rfl
        exact absurd ((h.authed c hMem).symm.trans hKind) (by simp)
      · rintro rfl
        exact hPictures (h.qos other hUser)
      · rintro rfl
        exact hPictures (h.decodings other hTold)
  | some k =>
      refine ⟨fun c hMem => ?_, ?_⟩
      · obtain ⟨hOld, hOther⟩ := List.mem_filter.mp hMem
        exact ⟨by simpa using hOther, hOld⟩
      unfold Process.dropAuthed Registries.dropAuthed
      dsimp only
      split_ifs with hVideo
      · constructor <;>
        · intro other hOther
          by_cases hSame : other = id
          · simp [hSame] at hOther
          · exact ⟨hSame, by simpa [hSame] using hOther⟩
      · have hPictures : ¬ p.SentPictures id := by
          rintro ⟨found, hFound, hIs⟩
          obtain rfl := Option.some.inj (hFound.symm.trans hKind)
          cases found <;> simp_all [AuthConnType.isVideo]
        constructor
        · rintro other hUser
          exact ⟨fun hSame => hPictures (hSame ▸ h.qos other hUser), hUser⟩
        · rintro other hTold
          exact ⟨fun hSame => hPictures (hSame ▸ h.decodings other hTold), hTold⟩

theorem Tidy.drop (h : p.Tidy)
    (hSafe : p.kind id = some .remote → p.registries.recordCursorPosRunning = true →
      ∃ other, other ≠ id ∧ p.kind other = some .remote) : (p.drop id).Tidy := by
  unfold Process.drop
  split
  · rename_i conn hLeft
    have hConn : p.conn id = some conn := by simp [Process.conn, hLeft, Life.conn]
    have hKind : p.kind id = conn.authedConnId := by simp [Process.kind, hConn]
    obtain ⟨hAuthed, hUsers, hDecodings⟩ := h.dropAuthed hKind
    obtain ⟨hConns, hCount, hServer, hAlive, hArray, hRecorder⟩ := dropAuthed_frame p id conn.authedConnId
    dsimp only
    generalize p.dropAuthed id conn.authedConnId = q at *
    generalize hDropped : ({ q with
      registries := q.registries.dropConnection id conn.controlPermissions } : Process).setLife id
      .dropped = r
    have hLives : ∀ other, r.conns other = if other = id then some .dropped else p.conns other := by
      intro other
      rw [← hDropped, conns_setLife, ← hConns]
    have hRest : ∀ other, other ≠ id → r.conn other = p.conn other := by
      intro other hOther
      unfold Process.conn
      rw [hLives, if_neg hOther]
    have hPictures : ∀ other, other ≠ id → p.SentPictures other → r.SentPictures other := by
      rintro other hOther ⟨k, hSome, hVideo⟩
      refine ⟨k, ?_, hVideo⟩
      unfold Process.kind
      rw [hRest other hOther]
      exact hSome
    refine ⟨fun other hOther => ?_, fun other found hFound => ?_, fun other l hFound => ?_,
      fun other hMem => ?_, fun entry hMem => ?_, fun c hMem => ?_, fun other hUser => ?_,
      fun other hTold => ?_, fun name other hHeard => ?_, fun hRuns => ?_⟩
    · have hUnused := h.unused other (by rw [← hCount]; rw [← hDropped] at hOther; exact hOther)
      rw [hLives, if_neg]
      · exact hUnused
      · rintro rfl
        exact absurd (hLeft.symm.trans hUnused) (by simp)
    · by_cases hSame : other = id
      · simp [Process.conn, hLives, hSame, Life.conn] at hFound
      · exact h.ids other found ((hRest other hSame).symm.trans hFound)
    · rw [hLives] at hFound
      split_ifs at hFound
      · cases hFound
      · exact h.sound other l hFound
    · rw [← hDropped] at hMem
      obtain ⟨hOld, hOther⟩ := List.mem_filter.mp hMem
      rw [hRest other (by simpa using hOther)]
      exact h.alive other (hAlive ▸ hOld)
    · rw [← hDropped] at hMem
      have hOld : entry ∈ p.registries.controlPermissionsArray := by
        rw [← hArray]
        unfold setLife Registries.dropConnection at hMem
        dsimp only at hMem
        split_ifs at hMem
        · exact (List.mem_filter.mp hMem).1
        · exact hMem
      have hOther : entry.1 ≠ id := by
        intro hSame
        obtain ⟨found, hFound, hSome⟩ := h.permissions entry hOld
        rw [hSame, hConn] at hFound
        obtain rfl := Option.some.inj hFound
        unfold setLife Registries.dropConnection at hMem
        dsimp only at hMem
        rw [if_pos hSome] at hMem
        simpa [hSame] using (List.mem_filter.mp hMem).2
      rw [hRest _ hOther]
      exact h.permissions entry hOld
    · rw [← hDropped] at hMem
      obtain ⟨hOther, hOld⟩ := hAuthed c hMem
      unfold Process.kind
      rw [hRest _ hOther]
      exact h.authed c hOld
    · rw [← hDropped] at hUser
      obtain ⟨hOther, hOld⟩ := hUsers other hUser
      exact hPictures other hOther (h.qos other hOld)
    · rw [← hDropped] at hTold
      obtain ⟨hOther, hOld⟩ := hDecodings other hTold
      exact hPictures other hOther (h.decodings other hOld)
    · rw [← hDropped] at hHeard
      obtain ⟨l, hServing⟩ := h.subscribers name other (hServer ▸ hHeard)
      refine ⟨l, ?_⟩
      rw [hLives, if_neg]
      · exact hServing
      · rintro rfl
        exact absurd (hLeft.symm.trans hServing) (by simp)
    · rw [← hDropped] at hRuns
      have hOld : p.registries.recordCursorPosRunning = true := hRecorder ▸ hRuns
      obtain ⟨other, hRemote⟩ := h.recorder hOld
      have hAnother : ∃ other, other ≠ id ∧ p.kind other = some .remote := by
        by_cases hSame : other = id
        · exact hSafe (hSame ▸ hRemote) hOld
        · exact ⟨other, hSame, hRemote⟩
      obtain ⟨another, hOther, hKept⟩ := hAnother
      refine ⟨another, ?_⟩
      unfold Process.kind
      rw [hRest another hOther]
      exact hKept
  · exact h

theorem Tidy.elsewhere (h : p.Tidy) (world : World) (added : List ServiceName) :
    (p.elsewhere world added).Tidy := by
  refine h.grow (fun _ conn hConn => ⟨conn, hConn, rfl, fun _ h => h⟩) h.unused h.ids h.sound
    (fun _ => Or.inl) (fun _ => Or.inl) (fun _ => Or.inl) (fun _ => Or.inl) (fun _ => Or.inl)
    (fun name other hHeard => h.subscribers name other ?_) Or.inl
  unfold Process.elsewhere Server.heard at hHeard
  unfold Server.heard
  cases hServer : p.server with
  | none => simp [hServer] at hHeard
  | some server =>
      rw [hServer] at hHeard
      have hFold : server.isSubed name other = true ∨ False :=
        Server.isSubed_of_foldl server name other Server.ensureService
          (fun s n hs => Or.inl (Server.isSubed_of_ensureService s n name other hs)) added hHeard
      exact hFold.resolve_right False.elim

theorem Tidy.stop (h : p.Tidy) : Tidy { p with server := none } :=
  h.grow (fun _ conn hConn => ⟨conn, hConn, rfl, fun _ h => h⟩) h.unused h.ids h.sound
    (fun _ => Or.inl) (fun _ => Or.inl) (fun _ => Or.inl) (fun _ => Or.inl) (fun _ => Or.inl)
    (fun _ _ hHeard => by cases hHeard) Or.inl

end Steps

/-- What a step may leave behind is not reached: decodings are told only by connections that
are sent pictures, and the last remote connection is not dropped while the recorder runs. -/
def Safe (p : Process) : ProcessEvent → Prop
  | .handle id event => ∀ l, p.conns id = some (.serving l) → l.running = true →
      Loop.DecodingSafe fixed (p.shared l) event
  | .drop id => (∃ conn, p.conns id = some (.left conn)) → p.kind id = some .remote →
      p.registries.recordCursorPosRunning = true → ∃ other, other ≠ id ∧ p.kind other = some .remote
  | _ => True

theorem Tidy.step {p : Process} (h : p.Tidy) {event : ProcessEvent} (hSafe : p.Safe fixed event) :
    (p.step fixed event).Tidy := by
  cases event with
  | start => exact h.start ..
  | handle id event => exact h.handle hSafe
  | finish id env => exact h.finish env
  | drop id =>
      by_cases hLeft : ∃ conn, p.conns id = some (.left conn)
      · exact h.drop (hSafe hLeft)
      · have hSame : p.drop id = p := by
          unfold Process.drop
          split
          · rename_i conn hFound
            exact absurd ⟨conn, hFound⟩ hLeft
          · rfl
        change (p.drop id).Tidy
        rwa [hSame]
  | elsewhere world added => exact h.elsewhere world added
  | stop => exact h.stop

theorem tidy_init (world : World) (services : Option (List ServiceName)) (idCount : Int) :
    (init world services idCount).Tidy := by
  have hConns : ∀ id, (init world services idCount).conns id = none := fun _ => rfl
  have hConn : ∀ id, (init world services idCount).conn id = none := fun _ => rfl
  refine ⟨fun id _ => hConns id, fun id conn hFound => ?_, fun id l hFound => ?_, fun id hMem => ?_,
    fun entry hMem => ?_, fun c hMem => ?_, fun id hUser => ?_, fun id hTold => ?_,
    fun name id hHeard => ?_, fun hRuns => ?_⟩
  · exact absurd (hFound.symm.trans (hConn id)) (by simp)
  · exact absurd (hFound.symm.trans (hConns id)) (by simp)
  · exact absurd hMem List.not_mem_nil
  · exact absurd hMem List.not_mem_nil
  · exact absurd hMem List.not_mem_nil
  · exact absurd hUser Bool.false_ne_true
  · exact absurd rfl hTold
  · unfold init Server.heard at hHeard
    cases services <;> simp [Server.isSubed] at hHeard
  · exact absurd hRuns Bool.false_ne_true

/-- In a run whose steps are safe nothing is left of a connection once it is dropped, and the
recorder is stopped when no remote connection remains. -/
theorem clean_of_safe_steps (world : World) (services : Option (List ServiceName)) (idCount : Int)
    (events : List ProcessEvent)
    (hSafe : Trace.Always (step fixed) (Safe fixed) (init world services idCount) events) :
    (run fixed (init world services idCount) events).Clean :=
  (Trace.invariant_of_always (step fixed) Tidy (fun _ _ hStep h => h.step fixed hStep)
    (tidy_init world services idCount) hSafe).clean

/-- A file transfer connection is gone once it was dropped. -/
theorem file_transfer_is_gone :
    let world : World := { (default : World) with
      config := { (default : Config) with permanentPassword := "password" } }
    let lr : LoginRequest :=
      { password := utf8 "passwordsaltchallenge", union := some (.fileTransfer "" false) }
    let events : List ProcessEvent := [.start true 0 "10.0.0.1" "salt" "challenge" none (some 0),
      .handle 1 (default, .peer (.loginRequest lr)), .handle 1 (default, .streamEnd),
      .finish 1 default, .drop 1]
    let p := run default (init world (some [.mouseCursor]) 0) events
    p.ended 1 = true ∧ p.Absent 1 := by
  intro world lr events p
  have hDropped : p.ended 1 = true := by decide +kernel
  refine ⟨hDropped, (clean_of_safe_steps default world (some [.mouseCursor]) 0 events ?_).absent 1 hDropped⟩
  refine ⟨trivial, fun l hServing hRun => ⟨fun _ hTells => ?_, nofun⟩,
    fun l _ _ => ⟨fun hGrants => hGrants.2.elim, nofun⟩, trivial, fun _ hKind => ?_, trivial⟩
  · obtain rfl := Life.serving.inj (Option.some.inj hServing)
    obtain ⟨o, hOption, -⟩ := hTells
    cases hOption
  · exact absurd hKind (by decide +kernel)

/-- A file transfer connection that told what it can decode stays in the table of the encoder. -/
theorem decodings_outlive_file_transfer :
    ¬ ∀ (fixed : Fixed) (world : World) (services : Option (List ServiceName)) (idCount : Int)
        (events : List ProcessEvent), (run fixed (init world services idCount) events).Clean := by
  intro h
  let world : World := { (default : World) with
    config := { (default : Config) with permanentPassword := "password" } }
  let lr : LoginRequest :=
    { password := utf8 "passwordsaltchallenge", union := some (.fileTransfer "" false)
      option := some { supportedDecoding := some 1 } }
  let events : List ProcessEvent := [.start true 0 "10.0.0.1" "salt" "challenge" none none,
    .handle 1 (default, .peer (.loginRequest lr)), .handle 1 (default, .streamEnd),
    .finish 1 default, .drop 1]
  have hAbsent := (h default world (some [.mouseCursor]) 0 events).absent 1 (by decide +kernel)
  exact absurd hAbsent.decodings (by decide +kernel)

/-- The recorder that a remote connection started goes on after the connection was dropped. -/
example :
    let world : World := { (default : World) with
      config := { (default : Config) with permanentPassword := "password" } }
    let lr : LoginRequest := { password := utf8 "passwordsaltchallenge" }
    let p := run default (init world (some [.mouseCursor]) 0)
      [.start true 0 "10.0.0.1" "salt" "challenge" none none,
        .handle 1 (default, .peer (.loginRequest lr)), .handle 1 (default, .streamEnd),
        .finish 1 default, .drop 1]
    p.kind 1 = none ∧ p.registries.recordCursorPosRunning = true := by decide +kernel

end Process

end HibtDesk
