import HibtDesk.FileTransfer.Job
import HibtDesk.Terminal.Helper
import HibtDesk.Terminal.OutputBuffer

/-! A terminal service: its sessions, what the actions of a connection do to them,
and the passes in which the service thread reads their output. A session is
shared, so the map from terminal ids holds references to it; a reference a pass
has taken stays good after the session has left the map. -/
namespace HibtDesk.Terminal

/-- An `Arc<Mutex<TerminalSession>>`. -/
abbrev SessionRef := Nat

structure TerminalSession where
  pid : Nat
  rows : Nat
  cols : Nat
  /-- The size of the pseudo terminal, if the session has one of its own. -/
  ptyPair : Option (Nat × Nat)
  child : Bool
  /-- What has been handed to the writer thread. -/
  inputTx : Option (List Bytes)
  /-- What the reader thread has sent and nobody has received. -/
  outputRx : Option (List Bytes)
  /-- Whether the reader thread has finished. -/
  readerThread : Option Bool
  outputBuffer : Except TrimFault OutputBuffer
  closedMessageSent : Bool
  isOpened : Bool
  isHelperMode : Bool

/-- `TerminalSession::new`. -/
def TerminalSession.new (rows cols : Nat) : TerminalSession where
  pid := 0
  rows := rows
  cols := cols
  ptyPair := none
  child := false
  inputTx := none
  outputRx := none
  readerThread := none
  outputBuffer := .ok .new
  closedMessageSent := false
  isOpened := false
  isHelperMode := false

inductive TerminalResponse where
  | opened (terminalId : Int) (success : Bool) (message : String) (pid : Nat) (serviceId : String)
      (persistentSessions : List Int)
  | data (terminalId : Int) (data : Bytes) (compressed : Bool)
  | closed (terminalId : Int) (exitCode : Int)
  deriving DecidableEq, Repr

/-- `PersistentTerminalService`, with the sessions it refers to. -/
structure TerminalService where
  serviceId : String
  sessions : List (Int × SessionRef)
  isPersistent : Bool
  needsSessionSync : Bool
  session : SessionRef → TerminalSession
  /-- The next session to be allocated. -/
  next : SessionRef

def channelBufferSize : Nat := 100

def compressThreshold : Nat := 512

/-- `as u16`. -/
def asU16 (n : Nat) : Nat := n % 65536

/-- How the platform answers an attempt to start a shell: its process id, or the
text of the error. -/
abbrev Spawned := Except String Nat

namespace TerminalService

/-- `sessions.get`. -/
def get (sessions : List (Int × SessionRef)) (terminalId : Int) : Option SessionRef :=
  sessions.lookup terminalId

/-- `sessions.remove`. -/
def remove (sessions : List (Int × SessionRef)) (terminalId : Int) : List (Int × SessionRef) :=
  sessions.filter fun entry => entry.1 != terminalId

def ids (sessions : List (Int × SessionRef)) : List Int := sessions.map Prod.fst

def setSession (service : TerminalService) (ref : SessionRef) (session : TerminalSession) :
    TerminalService :=
  { service with session := Function.update service.session ref session }

/-- `PersistentTerminalService::new`. -/
def new (serviceId : String) (isPersistent : Bool) : TerminalService where
  serviceId := serviceId
  sessions := []
  isPersistent := isPersistent
  needsSessionSync := false
  session := fun _ => .new 0 0
  next := 0

/-- `reset_status`, when a connection attaches to the service. -/
def resetStatus (service : TerminalService) (isPersistent : Bool) : TerminalService :=
  { service with
    isPersistent := isPersistent
    needsSessionSync := true
    session := fun ref =>
      if ref ∈ service.sessions.map Prod.snd then { service.session ref with isOpened := false }
      else service.session ref }

/-- `handle_open` for a terminal that is there already. -/
def reconnect (service : TerminalService) (terminalId : Int) (ref : SessionRef) :
    TerminalResponse × TerminalService :=
  let session := service.session ref
  let persistentSessions :=
    if service.needsSessionSync && decide (1 < service.sessions.length) then
      (ids service.sessions).filter (· != terminalId)
    else []
  (.opened terminalId true "Reconnected to existing terminal" session.pid service.serviceId
      persistentSessions,
    { service with needsSessionSync := false }.setSession ref { session with isOpened := true })

/-- The session `handle_open` and `handle_open_with_helper` set up for a shell that
runs. -/
def spawn (helper : Bool) (pid rows cols : Nat) : TerminalSession :=
  { TerminalSession.new (asU16 rows) (asU16 cols) with
    pid := pid
    ptyPair := if helper then none else some (asU16 rows, asU16 cols)
    child := !helper
    inputTx := some []
    outputRx := some []
    readerThread := some false
    isOpened := true
    isHelperMode := helper }

/-- `handle_open`. With a user token, on Windows, the shell is run by a helper. -/
def handleOpen (service : TerminalService) (helper : Bool) (spawned : Spawned) (terminalId : Int)
    (rows cols : Nat) : Except String TerminalResponse × TerminalService :=
  match get service.sessions terminalId with
  | some ref =>
      let (response, service) := service.reconnect terminalId ref
      (.ok response, service)
  | none =>
      match spawned with
      | .error error => (.error error, service)
      | .ok pid =>
          let message := if helper then "Terminal opened (helper mode)" else "Terminal opened"
          let persistentSessions := if service.needsSessionSync then ids service.sessions else []
          (.ok (.opened terminalId true message pid service.serviceId persistentSessions),
            { service with
              needsSessionSync := false
              sessions := service.sessions ++ [(terminalId, service.next)]
              session := Function.update service.session service.next (spawn helper pid rows cols)
              next := service.next + 1 })

/-- Hand a message to the writer thread. -/
def sendInput (session : TerminalSession) (msg : Bytes) : TerminalSession :=
  { session with inputTx := session.inputTx.map (· ++ [msg]) }

def handleData (session : TerminalSession) (data : Bytes) : TerminalSession :=
  sendInput session (if session.isHelperMode then encodeHelperMessage msgTypeData data else data)

/-- `handle_resize`, unless the pseudo terminal refuses the size. -/
def handleResize (session : TerminalSession) (rows cols : Nat) : TerminalSession :=
  let session := { session with rows := asU16 rows, cols := asU16 cols }
  if session.isHelperMode then sendInput session (encodeResizeMessage (asU16 rows) (asU16 cols))
  else { session with ptyPair := session.ptyPair.map fun _ => (asU16 rows, asU16 cols) }

/-- `handle_close`. The session leaves the map even if its shell cannot be killed. -/
def handleClose (service : TerminalService) (killed : Except String Unit) (terminalId : Int) :
    Except String (Option TerminalResponse) × TerminalService :=
  match get service.sessions terminalId with
  | none => (.ok none, service)
  | some ref =>
      let session := service.session ref
      let after :=
        { service with sessions := remove service.sessions terminalId }.setSession ref
          { session with child := false }
      if session.child then
        match killed with
        | .error error => (.error error, after)
        | .ok () => (.ok (some (.closed terminalId (-1))), after)
      else (.ok (some (.closed terminalId 0)), after)

/-- The reader thread hands on what it read, unless the channel is full. -/
def readerSends (session : TerminalSession) (data : Bytes) : TerminalSession :=
  if session.readerThread = some false then
    { session with
      outputRx := session.outputRx.map fun sent =>
        if sent.length < channelBufferSize then sent ++ [data] else sent }
  else session

/-- The shell is gone and the reader thread has ended. -/
def readerEnds (session : TerminalSession) : TerminalSession :=
  { session with readerThread := session.readerThread.map fun _ => true }

/-- The reader thread of the session has ended. -/
def ended (session : TerminalSession) : Bool := session.readerThread == some true

end TerminalService

/-- What a connection and the threads of the sessions do to a service between the
steps of a pass. -/
inductive Action where
  | openTerminal (helper : Bool) (spawned : Spawned) (terminalId : Int) (rows cols : Nat)
  | data (terminalId : Int) (data : Bytes)
  | resize (terminalId : Int) (rows cols : Nat)
  | close (killed : Except String Unit) (terminalId : Int)
  | resetStatus (isPersistent : Bool)
  | setPersistent (isPersistent : Bool)
  | readerSends (ref : SessionRef) (data : Bytes)
  | readerEnds (ref : SessionRef)

namespace TerminalService

/-- Change the session a terminal id stands for, if there is one. -/
def changeSession (service : TerminalService) (terminalId : Int)
    (change : TerminalSession → TerminalSession) : TerminalService :=
  match get service.sessions terminalId with
  | some ref => service.setSession ref (change (service.session ref))
  | none => service

/-- `handle_action` and the other things that happen to the sessions. -/
def act (service : TerminalService) : Action → TerminalService
  | .openTerminal helper spawned terminalId rows cols =>
      (service.handleOpen helper spawned terminalId rows cols).2
  | .data terminalId data => service.changeSession terminalId (handleData · data)
  | .resize terminalId rows cols => service.changeSession terminalId (handleResize · rows cols)
  | .close killed terminalId => (service.handleClose killed terminalId).2
  | .resetStatus isPersistent => service.resetStatus isPersistent
  | .setPersistent isPersistent => { service with isPersistent := isPersistent }
  | .readerSends ref data => service.setSession ref (readerSends (service.session ref) data)
  | .readerEnds ref => service.setSession ref (readerEnds (service.session ref))

end TerminalService

/-- A call of `read_outputs` under way: the sessions collected and not yet read,
the terminals found closed, and, once the cleanup has begun, the copy of the map
it works with. -/
structure Pass where
  isPersistent : Bool
  todo : List (Int × SessionRef)
  closedTerminals : List Int
  sessions : Option (List (Int × SessionRef))
  responses : List TerminalResponse

namespace TerminalService
variable (zstdCompress : Bytes → Option Bytes)

/-- The first part of `read_outputs`, under the lock of the service. -/
def collect (service : TerminalService) : Pass where
  isPersistent := service.isPersistent
  todo := service.sessions
  closedTerminals := []
  sessions := none
  responses := []

def dataResponse (terminalId : Int) (data : Bytes) : TerminalResponse :=
  let compressed := FileTransfer.compress zstdCompress data
  if compressThreshold < data.length ∧ compressed.length < data.length then
    .data terminalId compressed true
  else .data terminalId data false

def shouldSendClosed (session : TerminalSession) : Bool :=
  !session.closedMessageSent && ended session

/-- The output that is there to be read; none of a session nobody has opened. -/
def received (session : TerminalSession) : List Bytes :=
  if session.isOpened then session.outputRx.getD [] else []

/-- The session after a pass has looked at it. -/
def visited (session : TerminalSession) : TerminalSession :=
  { session with
    closedMessageSent := session.closedMessageSent || shouldSendClosed session
    outputRx := if session.isOpened then session.outputRx.map fun _ => [] else session.outputRx
    outputBuffer := (received session).foldl OutputBuffer.appendStep session.outputBuffer }

/-- The part of `read_outputs` under the lock of one session. A session whose lock
is taken is passed over. -/
def readSession (locked : Bool) (entry : Int × SessionRef) (service : TerminalService)
    (pass : Pass) : TerminalService × Pass :=
  if locked then (service, pass)
  else
    let session := service.session entry.2
    (service.setSession entry.2 (visited session),
      { pass with
        closedTerminals :=
          pass.closedTerminals ++ if shouldSendClosed session then [entry.1] else []
        responses := pass.responses ++ (received session).map (dataResponse zstdCompress entry.1) })

/-- The cleanup begins with a copy of the map. -/
def beginCleanup (service : TerminalService) (pass : Pass) : Pass :=
  { pass with sessions := some service.sessions }

/-- The part of the cleanup that is about one terminal, with the exit code of the
shell if it is known. -/
def cleanTerminal (exitCode : Option Int) (terminalId : Int) (service : TerminalService)
    (pass : Pass) : TerminalService × Pass :=
  let copy := pass.sessions.getD []
  match get copy terminalId with
  | none =>
      (service, { pass with responses := pass.responses ++ [.closed terminalId 0] })
  | some ref =>
      let session := service.session ref
      let code := if session.child then exitCode.getD 0 else 0
      let cleaned := service.setSession ref { session with child := false }
      if pass.isPersistent then
        (cleaned, { pass with responses := pass.responses ++ [.closed terminalId code] })
      else
        ({ cleaned with sessions := remove cleaned.sessions terminalId },
          { pass with
            sessions := some (remove copy terminalId)
            responses := pass.responses ++ [.closed terminalId code] })

/-- The loop over the collected sessions, with the locks that are taken. -/
def readAll (locked : SessionRef → Bool) :
    List (Int × SessionRef) → TerminalService → Pass → TerminalService × Pass
  | [], service, pass => (service, pass)
  | entry :: todo, service, pass =>
      let (service, pass) := readSession zstdCompress (locked entry.2) entry service pass
      readAll locked todo service pass

/-- The loop over the terminals found closed. -/
def cleanAll (exitCode : Int → Option Int) :
    List Int → TerminalService → Pass → TerminalService × Pass
  | [], service, pass => (service, pass)
  | terminalId :: terminals, service, pass =>
      let (service, pass) := cleanTerminal (exitCode terminalId) terminalId service pass
      cleanAll exitCode terminals service pass

/-- `read_outputs`, if nothing else happens meanwhile. -/
def readOutputs (locked : SessionRef → Bool) (exitCode : Int → Option Int)
    (service : TerminalService) : List TerminalResponse × TerminalService :=
  let pass := service.collect
  let (service, pass) := readAll zstdCompress locked pass.todo service pass
  if pass.closedTerminals.isEmpty then (pass.responses, service)
  else
    let (service, pass) :=
      cleanAll exitCode pass.closedTerminals service (service.beginCleanup pass)
    (pass.responses, service)

section Sessions
variable {sessions : List (Int × SessionRef)} {terminalId other : Int} {ref : SessionRef}

theorem mem_of_get (hGet : get sessions terminalId = some ref) : (terminalId, ref) ∈ sessions := by
  obtain ⟨first, second, hSplit, -⟩ := List.lookup_eq_some_iff.mp hGet
  rw [hSplit]
  simp

@[simp] theorem get_remove_self : get (remove sessions terminalId) terminalId = none := by
  unfold get remove
  rw [List.lookup_eq_none_iff]
  intro entry hEntry
  have hOther := (List.mem_filter.mp hEntry).2
  simp only [bne_iff_ne] at hOther
  simpa using Ne.symm hOther

theorem get_remove_of_ne (hOther : other ≠ terminalId) :
    get (remove sessions terminalId) other = get sessions other := by
  unfold get remove
  induction sessions with
  | nil => rfl
  | cons entry rest ih =>
      by_cases hThis : entry.1 = terminalId
      · have hDiffers : (other == entry.1) = false := by
          rw [hThis]
          simpa using hOther
        rw [List.filter_cons_of_neg (by simp [hThis]), ih, List.lookup_cons, hDiffers]
      · rw [List.filter_cons_of_pos (by simpa using hThis), List.lookup_cons, List.lookup_cons, ih]

theorem get_of_get_remove (hGet : get (remove sessions terminalId) other = some ref) :
    get sessions other = some ref := by
  by_cases hOther : other = terminalId
  · rw [hOther, get_remove_self] at hGet
    cases hGet
  · rwa [get_remove_of_ne hOther] at hGet

theorem get_concat (sessions : List (Int × SessionRef)) (terminalId other : Int) (ref : SessionRef) :
    get (sessions ++ [(terminalId, ref)]) other =
      (get sessions other).or (if other = terminalId then some ref else none) := by
  unfold get
  rw [List.lookup_append, List.lookup_cons, List.lookup_nil]
  by_cases hSame : other = terminalId
  · simp [hSame]
  · have hDiffers : (other == terminalId) = false := by simpa using hSame
    rw [hDiffers, if_neg hSame]

end Sessions

/-- What every step leaves alone in a session it does not read, and that a reader
that has ended stays so. -/
structure Kept (before after : TerminalSession) : Prop where
  closedMessageSent : after.closedMessageSent = before.closedMessageSent
  ended : ended before = true → ended after = true

theorem Kept.refl (session : TerminalSession) : Kept session session := ⟨rfl, id⟩

theorem Kept.setSession {service : TerminalService} {ref : SessionRef} {session : TerminalSession}
    (hKept : Kept (service.session ref) session) (other : SessionRef) :
    Kept (service.session other) ((service.setSession ref session).session other) := by
  by_cases hSame : other = ref
  · subst hSame
    simpa [TerminalService.setSession] using hKept
  · simpa [TerminalService.setSession, hSame] using Kept.refl (service.session other)

theorem kept_sendInput (session : TerminalSession) (msg : Bytes) :
    Kept session (sendInput session msg) := ⟨rfl, id⟩

theorem kept_handleResize (session : TerminalSession) (rows cols : Nat) :
    Kept session (handleResize session rows cols) := by
  unfold handleResize
  dsimp only
  split
  · exact ⟨rfl, id⟩
  · exact ⟨rfl, id⟩

theorem kept_readerSends (session : TerminalSession) (data : Bytes) :
    Kept session (readerSends session data) := by
  unfold readerSends
  split
  · exact ⟨rfl, id⟩
  · exact Kept.refl session

theorem ended_iff (session : TerminalSession) :
    ended session = true ↔ session.readerThread = some true := by
  simp [ended]

theorem kept_readerEnds (session : TerminalSession) : Kept session (readerEnds session) := by
  refine ⟨rfl, fun hEnded => ?_⟩
  rw [ended_iff] at hEnded ⊢
  simp [readerEnds, hEnded]

theorem handleClose_of_none {service : TerminalService} {terminalId : Int}
    (hGet : get service.sessions terminalId = none) (killed : Except String Unit) :
    (service.handleClose killed terminalId).2 = service := by
  unfold handleClose
  rw [hGet]

theorem handleClose_of_some {service : TerminalService} {terminalId : Int} {ref : SessionRef}
    (hGet : get service.sessions terminalId = some ref) (killed : Except String Unit) :
    (service.handleClose killed terminalId).2 =
      { service with sessions := remove service.sessions terminalId }.setSession ref
        { service.session ref with child := false } := by
  unfold handleClose
  rw [hGet]
  dsimp only
  split
  · cases killed with
    | error error => rfl
    | ok killed => rfl
  · rfl

theorem handleOpen_of_some {service : TerminalService} {terminalId : Int} {ref : SessionRef}
    (hGet : get service.sessions terminalId = some ref) (helper : Bool) (spawned : Spawned)
    (rows cols : Nat) :
    (service.handleOpen helper spawned terminalId rows cols).2 =
      { service with needsSessionSync := false }.setSession ref
        { service.session ref with isOpened := true } := by
  unfold handleOpen
  rw [hGet]
  rfl

/-- What an action can do: change sessions in ways that do not matter to a pass,
take one from the map, or add a new one. -/
theorem act_cases (service : TerminalService) (action : Action) :
    ((service.act action).sessions = service.sessions ∧ (service.act action).next = service.next ∧
      ∀ ref, Kept (service.session ref) ((service.act action).session ref)) ∨
    (∃ killed terminalId, action = .close killed terminalId ∧
      (service.act action).sessions = remove service.sessions terminalId ∧
      (service.act action).next = service.next ∧
      ∀ ref, Kept (service.session ref) ((service.act action).session ref)) ∨
    (∃ helper pid terminalId rows cols, action = .openTerminal helper (.ok pid) terminalId rows cols ∧
      get service.sessions terminalId = none ∧
      (service.act action).sessions = service.sessions ++ [(terminalId, service.next)] ∧
      (service.act action).next = service.next + 1 ∧
      (service.act action).session =
        Function.update service.session service.next (spawn helper pid rows cols)) := by
  have change : ∀ terminalId f, (∀ session, Kept session (f session)) →
      (service.changeSession terminalId f).sessions = service.sessions ∧
      (service.changeSession terminalId f).next = service.next ∧
      ∀ ref, Kept (service.session ref) ((service.changeSession terminalId f).session ref) := by
    intro terminalId f hKept
    unfold changeSession
    cases get service.sessions terminalId with
    | none => exact ⟨rfl, rfl, fun ref => Kept.refl _⟩
    | some ref => exact ⟨rfl, rfl, (hKept (service.session ref)).setSession⟩
  cases action with
  | data terminalId data => exact Or.inl (change terminalId _ fun session => kept_sendInput session _)
  | resize terminalId rows cols =>
      exact Or.inl (change terminalId _ fun session => kept_handleResize session rows cols)
  | setPersistent isPersistent => exact Or.inl ⟨rfl, rfl, fun ref => Kept.refl _⟩
  | readerSends ref data => exact Or.inl ⟨rfl, rfl, (kept_readerSends _ data).setSession⟩
  | readerEnds ref => exact Or.inl ⟨rfl, rfl, (kept_readerEnds _).setSession⟩
  | resetStatus isPersistent =>
      refine Or.inl ⟨rfl, rfl, fun ref => ?_⟩
      show Kept (service.session ref)
        (if ref ∈ service.sessions.map Prod.snd then { service.session ref with isOpened := false }
        else service.session ref)
      split
      · exact ⟨rfl, id⟩
      · exact Kept.refl _
  | close killed terminalId =>
      rw [act]
      cases hGet : get service.sessions terminalId with
      | none =>
          rw [handleClose_of_none hGet]
          exact Or.inl ⟨rfl, rfl, fun ref => Kept.refl _⟩
      | some ref =>
          rw [handleClose_of_some hGet]
          have hKept : Kept (service.session ref) { service.session ref with child := false } :=
            ⟨rfl, id⟩
          exact Or.inr (Or.inl ⟨killed, terminalId, rfl, rfl, rfl, hKept.setSession⟩)
  | openTerminal helper spawned terminalId rows cols =>
      rw [act]
      cases hGet : get service.sessions terminalId with
      | some ref =>
          rw [handleOpen_of_some hGet]
          have hKept : Kept (service.session ref) { service.session ref with isOpened := true } :=
            ⟨rfl, id⟩
          exact Or.inl ⟨rfl, rfl, hKept.setSession⟩
      | none =>
          unfold handleOpen
          rw [hGet]
          cases spawned with
          | error error => exact Or.inl ⟨rfl, rfl, fun ref => Kept.refl _⟩
          | ok pid =>
              exact Or.inr (Or.inr ⟨helper, pid, terminalId, rows, cols, rfl, hGet, rfl, rfl, rfl⟩)

/-- The references in the map are those of sessions that were allocated. -/
def Allocated (service : TerminalService) : Prop :=
  ∀ terminalId ref, get service.sessions terminalId = some ref → ref < service.next

theorem Allocated.act {service : TerminalService} (hAllocated : service.Allocated)
    (action : Action) : (service.act action).Allocated := by
  intro other ref hGet
  rcases act_cases service action with ⟨hSessions, hNext, -⟩ | ⟨killed, terminalId, -, hSessions, hNext, -⟩ |
    ⟨helper, pid, terminalId, rows, cols, -, hNone, hSessions, hNext, -⟩
  · rw [hSessions] at hGet
    rw [hNext]
    exact hAllocated other ref hGet
  · rw [hSessions] at hGet
    rw [hNext]
    exact hAllocated other ref (get_of_get_remove hGet)
  · rw [hSessions, get_concat] at hGet
    rw [hNext]
    cases hOld : get service.sessions other with
    | some old =>
        rw [hOld, Option.some_or] at hGet
        cases hGet
        exact Nat.lt_succ_of_lt (hAllocated other ref hOld)
    | none =>
        rw [hOld, Option.none_or] at hGet
        split at hGet
        · cases hGet
          exact Nat.lt_succ_self _
        · cases hGet

end TerminalService

end HibtDesk.Terminal
