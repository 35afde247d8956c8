import HibtDesk.Clipboard.FuseHandles
import HibtDesk.Clipboard.HandleBook

/-! The handles over whole runs of the file system. -/
namespace HibtDesk.Clipboard.Handles

/-- The file system, with the log of its calls. -/
structure Session where
  server : FuseServer
  log : List Outcome

/-- The calls in which the list or a handle changes. -/
inductive Event where
  | init (now : Nat)
  | loadFileList (now : Nat) (files : List FileDescription)
  | openFile (ino : Nat)
  | opendir (ino : Nat)
  | release (ino fh : Nat)
  | releasedir (ino fh : Nat)

/-- The calls that ask for a handle. -/
def Event.asksHandle : Event → Bool
  | .openFile _ => true
  | .opendir _ => true
  | _ => false

/-- The handles on the node of a place, none if there is no such node. -/
def FuseServer.handlesAt (server : FuseServer) (index : Nat) : List Nat :=
  match server.files[index]? with
  | none => []
  | some node => node.fileHandlers.handlers

section Calls
variable (overflowChecks : Bool)

/-- Where a node is that can be opened as one of a kind. -/
def FuseServer.openable (server : FuseServer) (kind : FileType) (ino : Nat) : Option Nat :=
  (TreeNode.askedIndex overflowChecks ino).filter fun index =>
    server.files[index]?.any fun node =>
      decide (node.node.attributes.kind = kind) && !node.fileHandlers.marked

/-- Where the node is that a call opens. -/
def Event.opens (server : FuseServer) : Event → Option Nat
  | .openFile ino => server.openable overflowChecks .file ino
  | .opendir ino => server.openable overflowChecks .directory ino
  | _ => none

/-- No call that needs a handle goes through with this one, on any inode. -/
structure FuseServer.Refuses (server : FuseServer) (fh : Nat) : Prop where
  read : ∀ ino, server.read overflowChecks ino fh ≠ .ok
  readdir : ∀ ino, server.readdir overflowChecks ino fh ≠ .ok
  release : ∀ ino, (server.release overflowChecks ino fh).1 ≠ .ok
  releasedir : ∀ ino, (server.releasedir overflowChecks ino fh).1 ≠ .ok

namespace Session

def new : Session := ⟨.new, []⟩

def opening (session : Session) (ino : Nat) (called : Reply × FuseServer) : Session where
  server := called.2
  log :=
    match called.1, TreeNode.askedIndex overflowChecks ino with
    | .opened fh, some index => .opened index fh :: session.log
    | _, _ => session.log

def releasing (session : Session) (ino fh : Nat) (called : Reply × FuseServer) : Session where
  server := called.2
  log :=
    match called.1, TreeNode.askedIndex overflowChecks ino with
    | .ok, some index => .released index fh :: session.log
    | _, _ => session.log

/-- A call, and what it has done. -/
def step (session : Session) : Event → Session
  | .init now => { session with server := session.server.init now }
  | .loadFileList now files =>
      match session.server.loadFileList now files with
      | .error _ => session
      | .ok server => ⟨server, .loaded :: session.log⟩
  | .openFile ino => session.opening overflowChecks ino (session.server.openFile overflowChecks ino)
  | .opendir ino => session.opening overflowChecks ino (session.server.opendir overflowChecks ino)
  | .release ino fh =>
      session.releasing overflowChecks ino fh (session.server.release overflowChecks ino fh)
  | .releasedir ino fh =>
      session.releasing overflowChecks ino fh (session.server.releasedir overflowChecks ino fh)

/-- The handles of each node are in order, those it has are exactly those that are held on it,
and none from before the list is taken. -/
structure Exact (session : Session) : Prop where
  increasing : ∀ node ∈ session.server.files, node.fileHandlers.handlers.Pairwise (· < ·)
  haveHandler : ∀ index node, session.server.files[index]? = some node →
    ∀ fh, node.fileHandlers.haveHandler fh = true ↔ Held session.log index fh
  refuses : ∀ fh, Before session.log fh → session.server.Refuses overflowChecks fh

/-- A call that opens a node gives it a handle that is larger than all the node has, and that
was not used for an earlier list. -/
def Fresh (session : Session) (event : Event) : Prop :=
  ∀ index, event.opens overflowChecks session.server = some index →
    (∀ fh ∈ session.server.handlesAt index, fh < session.server.fileHandleCounter) ∧
      ¬ Before session.log session.server.fileHandleCounter

def book (session : Session) : Book where
  handles := session.server.handlesAt
  next := session.server.fileHandleCounter
  log := session.log

end Session

namespace FuseServer
variable {overflowChecks : Bool} {server : FuseServer} {node : FuseNode} {kind : FileType} {errno : Errno}
  {ino index fh : Nat}

theorem handlesAt_of_getElem? (hNode : server.files[index]? = some node) :
    server.handlesAt index = node.fileHandlers.handlers := by
  rw [handlesAt, hNode]

theorem handlesAt_put (hNode : server.files[index]? = some node) (handles : FileHandles) :
    (server.put index handles).handlesAt = Function.update server.handlesAt index handles.handlers := by
  funext i
  rw [Function.update_apply, handlesAt, put]
  dsimp only
  by_cases hSame : i = index
  · subst hSame
    rw [if_pos rfl, List.getElem?_modify_eq, hNode]
    rfl
  · rw [if_neg hSame, List.getElem?_modify_ne _ _ (Ne.symm hSame)]
    rfl

/-- A node that can be opened gets the next handle, and any other call changes nothing. -/
theorem openAs_cases (overflowChecks : Bool) (kind : FileType) (errno : Errno) (server : FuseServer)
    (ino : Nat) :
    (server.openable overflowChecks kind ino = none ∧
      ∃ reply, openAs overflowChecks kind errno server ino = (reply, server) ∧
        ∀ fh, reply ≠ .opened fh) ∨
    ∃ index node, server.openable overflowChecks kind ino = some index ∧
      TreeNode.askedIndex overflowChecks ino = some index ∧ server.files[index]? = some node ∧
      openAs overflowChecks kind errno server ino =
        (.opened server.fileHandleCounter, server.allocFd.2.put index
          { node.fileHandlers with
            handlers := node.fileHandlers.handlers ++ [server.fileHandleCounter] }) := by
  rw [openable, openAs, withEntry]
  cases hIndex : TreeNode.askedIndex overflowChecks ino with
  | none =>
      left
      exact ⟨rfl, _, rfl, fun _ h => by cases h⟩
  | some index =>
      rw [Option.filter_some]
      dsimp only
      cases hNode : server.files[index]? with
      | none =>
          left
          exact ⟨rfl, _, rfl, fun _ h => by cases h⟩
      | some node =>
          rw [Option.any_some]
          dsimp only
          by_cases hKind : node.node.attributes.kind = kind
          · by_cases hMarked : node.fileHandlers.marked = true
            · left
              rw [if_neg (not_not.mpr hKind), if_pos hMarked, hMarked]
              exact ⟨by simp, _, rfl, fun _ h => by cases h⟩
            · right
              refine ⟨index, node, ?_, rfl, hNode, ?_⟩
              · simp [hKind, hMarked]
              · rw [if_neg (not_not.mpr hKind), if_neg hMarked, FileHandles.addHandler, if_neg hMarked]
                rfl
          · left
            rw [if_pos hKind]
            exact ⟨by simp [hKind], _, rfl, fun _ h => by cases h⟩

/-- A call for a node that is not there ends without it. -/
theorem withEntry_cases (overflowChecks : Bool) (server : FuseServer) (ino : Nat)
    (call : Nat → FuseNode → Reply × FuseServer) :
    (∃ reply, withEntry overflowChecks server ino call = (reply, server) ∧ reply ≠ .ok) ∨
    ∃ index node, TreeNode.askedIndex overflowChecks ino = some index ∧
      server.files[index]? = some node ∧ withEntry overflowChecks server ino call = call index node := by
  rw [withEntry]
  cases hIndex : TreeNode.askedIndex overflowChecks ino with
  | none => exact Or.inl ⟨_, rfl, fun h => by cases h⟩
  | some index =>
      dsimp only
      cases hNode : server.files[index]? with
      | none => exact Or.inl ⟨_, rfl, fun h => by cases h⟩
      | some node => exact Or.inr ⟨index, node, rfl, hNode, rfl⟩

/-- What a call that releases a handle does. -/
def Releases (overflowChecks : Bool) (server : FuseServer) (ino fh : Nat) (called : Reply × FuseServer) :
    Prop :=
  (∃ reply, called = (reply, server) ∧ reply ≠ .ok) ∨
    ∃ index node place, TreeNode.askedIndex overflowChecks ino = some index ∧
      server.files[index]? = some node ∧
      BinarySearch.search node.fileHandlers.handlers fh = .ok place ∧
      called = (.ok, server.put index
        { node.fileHandlers with handlers := node.fileHandlers.handlers.eraseIdx place })

theorem release_releases (overflowChecks : Bool) (server : FuseServer) (ino fh : Nat) :
    Releases overflowChecks server ino fh (server.release overflowChecks ino fh) := by
  rw [release]
  rcases withEntry_cases overflowChecks server ino _ with hNot | ⟨index, node, hIndex, hNode, hCall⟩
  · exact Or.inl hNot
  · rw [hCall, FileHandles.unregister]
    cases hFound : BinarySearch.search node.fileHandlers.handlers fh with
    | error place => exact Or.inl ⟨_, rfl, fun h => by cases h⟩
    | ok place => exact Or.inr ⟨index, node, place, hIndex, hNode, hFound, rfl⟩

theorem releasedir_releases (overflowChecks : Bool) (server : FuseServer) (ino fh : Nat) :
    Releases overflowChecks server ino fh (server.releasedir overflowChecks ino fh) := by
  rw [releasedir]
  rcases withEntry_cases overflowChecks server ino _ with hNot | ⟨index, node, hIndex, hNode, hCall⟩
  · exact Or.inl hNot
  · rw [hCall, FileHandles.unregister, FileHandles.haveHandler]
    split
    · exact Or.inl ⟨_, rfl, fun h => by cases h⟩
    · cases hFound : BinarySearch.search node.fileHandlers.handlers fh with
      | error place => exact Or.inl ⟨_, rfl, fun h => by cases h⟩
      | ok place => exact Or.inr ⟨index, node, place, hIndex, hNode, hFound, rfl⟩

theorem not_haveHandler (hNot : ∀ i, fh ∉ server.handlesAt i)
    (hNode : server.files[index]? = some node) : node.fileHandlers.haveHandler fh = false := by
  rw [FileHandles.haveHandler]
  cases hFound : BinarySearch.search node.fileHandlers.handlers fh with
  | error place => rfl
  | ok place =>
      refine absurd ?_ (hNot index)
      rw [handlesAt_of_getElem? hNode]
      exact List.mem_of_getElem? (BinarySearch.getElem?_of_searchFrom hFound)

theorem Releases.refused {called : Reply × FuseServer} (hNot : ∀ i, fh ∉ server.handlesAt i)
    (hReleases : Releases overflowChecks server ino fh called) : called.1 ≠ .ok := by
  rcases hReleases with ⟨reply, rfl, hReply⟩ | ⟨index, node, place, -, hNode, hFound, -⟩
  · exact hReply
  · have hHave := not_haveHandler hNot hNode
    rw [FileHandles.haveHandler, hFound] at hHave
    cases hHave

/-- A call that needs the handle goes through on no node. -/
theorem withEntry_refused (hNot : ∀ i, fh ∉ server.handlesAt i) (ino : Nat)
    {call : Nat → FuseNode → Reply × FuseServer}
    (hNeeds : ∀ index node, node.fileHandlers.haveHandler fh = false → (call index node).1 ≠ .ok) :
    (withEntry overflowChecks server ino call).1 ≠ .ok := by
  rcases withEntry_cases overflowChecks server ino call with
    ⟨reply, hCall, hReply⟩ | ⟨index, node, -, hNode, hCall⟩
  · rwa [hCall]
  · rw [hCall]
    exact hNeeds index node (not_haveHandler hNot hNode)

/-- A handle that is on no node is refused. -/
theorem refuses_of_notMem (hNot : ∀ i, fh ∉ server.handlesAt i) : server.Refuses overflowChecks fh where
  read := by
    intro ino
    apply withEntry_refused hNot ino
    intro index node hHave
    simp [hHave]
  readdir := by
    intro ino
    apply withEntry_refused hNot ino
    intro index node hHave
    simp [hHave]
  release := fun ino => (release_releases overflowChecks server ino fh).refused hNot
  releasedir := fun ino => (releasedir_releases overflowChecks server ino fh).refused hNot

theorem handlesAt_init (server : FuseServer) (now : Nat) :
    (server.init now).handlesAt = server.handlesAt := by
  rw [init]
  split
  · rename_i hEmpty
    funext i
    rw [handlesAt, handlesAt, hEmpty]
    cases i with
    | zero => rfl
    | succ i => rfl
  · rfl

theorem handlesAt_loadFileList {now : Nat} {files : List FileDescription} {after : FuseServer}
    (hLoad : server.loadFileList now files = .ok after) :
    after.handlesAt = (fun _ => []) ∧ after.fileHandleCounter = server.fileHandleCounter := by
  rw [loadFileList] at hLoad
  cases hTree : TreeNode.buildTree now files with
  | error e =>
      rw [hTree] at hLoad
      cases hLoad
  | ok tree =>
      rw [hTree] at hLoad
      obtain rfl := Except.ok.inj hLoad
      refine ⟨?_, rfl⟩
      funext i
      rw [handlesAt, List.getElem?_map]
      cases tree[i]? with
      | none => rfl
      | some node => rfl

theorem fileHandleCounter_init (server : FuseServer) (now : Nat) :
    (server.init now).fileHandleCounter = server.fileHandleCounter := by
  rw [init]
  split
  · rfl
  · rfl

end FuseServer

namespace Session

open Book (Moves Counted)

variable {overflowChecks : Bool} {session : Session} {event : Event} {index : Nat}

theorem book_mk (server : FuseServer) (log : List Outcome) :
    (Session.mk server log).book = ⟨server.handlesAt, server.fileHandleCounter, log⟩ := rfl

theorem opening_of_ne {ino : Nat} {called : Reply × FuseServer} (hNot : ∀ fh, called.1 ≠ .opened fh) :
    session.opening overflowChecks ino called = ⟨called.2, session.log⟩ := by
  rw [opening]
  split
  · rename_i fh _ hOpened _
    exact absurd hOpened (hNot fh)
  · rfl

theorem releasing_of_ne {ino fh : Nat} {called : Reply × FuseServer} (hNot : called.1 ≠ .ok) :
    session.releasing overflowChecks ino fh called = ⟨called.2, session.log⟩ := by
  rw [releasing]
  split
  · rename_i hOk _
    exact absurd hOk hNot
  · rfl

theorem book_opening (overflowChecks : Bool) (kind : FileType) (errno : Errno) (session : Session)
    (ino : Nat) :
    let after := session.opening overflowChecks ino
      (FuseServer.openAs overflowChecks kind errno session.server ino)
    (session.server.openable overflowChecks kind ino = none ∧ Moves session.book after.book) ∨
      ∃ index, session.server.openable overflowChecks kind ino = some index ∧
        after.book = session.book.opened index := by
  intro after
  rcases FuseServer.openAs_cases overflowChecks kind errno session.server ino with
    ⟨hNone, reply, hCall, hReply⟩ | ⟨index, node, hSome, hIndex, hNode, hCall⟩
  · refine Or.inl ⟨hNone, ?_⟩
    have hSame : after = session := by
      simp only [after, hCall]
      exact opening_of_ne hReply
    rw [hSame]
    exact Moves.stays
  · refine Or.inr ⟨index, hSome, ?_⟩
    have hAfter : (session.server.allocFd.2).files[index]? = some node := hNode
    have hHandles := FuseServer.handlesAt_put hAfter
      { node.fileHandlers with
        handlers := node.fileHandlers.handlers ++ [session.server.fileHandleCounter] }
    simp only [after, opening, hCall, hIndex, book_mk, hHandles]
    rw [← FuseServer.handlesAt_of_getElem? hNode]
    rfl

theorem moves_releasing {ino fh : Nat} {called : Reply × FuseServer}
    (hReleases : FuseServer.Releases overflowChecks session.server ino fh called) :
    Moves session.book (session.releasing overflowChecks ino fh called).book := by
  rcases hReleases with ⟨reply, rfl, hReply⟩ | ⟨index, node, place, hIndex, hNode, hFound, rfl⟩
  · rw [releasing_of_ne hReply]
    exact Moves.stays
  · rw [← FuseServer.handlesAt_of_getElem? hNode] at hFound
    have hHandles := FuseServer.handlesAt_put hNode
      { node.fileHandlers with handlers := node.fileHandlers.handlers.eraseIdx place }
    have hMove : (session.releasing overflowChecks ino fh (.ok, session.server.put index
        { node.fileHandlers with handlers := node.fileHandlers.handlers.eraseIdx place })).book =
          session.book.released index fh place := by
      simp only [releasing, hIndex]
      rw [book_mk (session.server.put _ _), hHandles, ← FuseServer.handlesAt_of_getElem? hNode]
      rfl
    rw [hMove]
    exact Moves.releases hFound

/-- A call opens a node, and the node gets the next handle, or it moves the handles in some
other way. -/
theorem book_step (overflowChecks : Bool) (session : Session) (event : Event) :
    (event.opens overflowChecks session.server = none ∧
      Moves session.book (session.step overflowChecks event).book) ∨
    ∃ index, event.opens overflowChecks session.server = some index ∧
      (session.step overflowChecks event).book = session.book.opened index := by
  cases event with
  | init now =>
      refine Or.inl ⟨rfl, ?_⟩
      rw [step, book_mk (session.server.init now), FuseServer.handlesAt_init,
        FuseServer.fileHandleCounter_init]
      exact Moves.stays
  | loadFileList now files =>
      refine Or.inl ⟨rfl, ?_⟩
      rw [step]
      cases hLoad : session.server.loadFileList now files with
      | error e => exact Moves.stays
      | ok after =>
          obtain ⟨hHandles, hCounter⟩ := FuseServer.handlesAt_loadFileList hLoad
          dsimp only
          rw [book_mk after, hHandles, hCounter]
          exact Moves.loads
  | openFile ino => exact book_opening overflowChecks .file .enfile session ino
  | opendir ino => exact book_opening overflowChecks .directory .enotdir session ino
  | release ino fh =>
      exact Or.inl ⟨rfl, moves_releasing (FuseServer.release_releases overflowChecks session.server ino fh)⟩
  | releasedir ino fh =>
      exact Or.inl ⟨rfl, moves_releasing (FuseServer.releasedir_releases overflowChecks session.server ino fh)⟩

theorem sound_new : Session.new.book.Sound where
  increasing := fun _ => List.Pairwise.nil
  held := fun _ _ => iff_of_false List.not_mem_nil id
  current := fun _ _ hMem => absurd hMem List.not_mem_nil

/-- Fresh handles keep the book sound. -/
theorem sound_step (hSound : session.book.Sound) (hFresh : session.Fresh overflowChecks event) :
    (session.step overflowChecks event).book.Sound := by
  rcases book_step overflowChecks session event with ⟨-, hMoves⟩ | ⟨index, hOpens, hOpened⟩
  · exact Moves.sound hSound hMoves
  · rw [hOpened]
    exact hSound.opened (hFresh index hOpens)

theorem exact_of_sound (hSound : session.book.Sound) : session.Exact overflowChecks where
  increasing := by
    intro node hMem
    obtain ⟨index, hNode⟩ := List.getElem?_of_mem hMem
    rw [← FuseServer.handlesAt_of_getElem? hNode]
    exact hSound.increasing index
  haveHandler := by
    intro index node hNode fh
    have hSorted := hSound.increasing index
    have hHeld := hSound.held index fh
    have hHandles : session.book.handles index = node.fileHandlers.handlers :=
      FuseServer.handlesAt_of_getElem? hNode
    rw [hHandles] at hSorted hHeld
    exact (BinarySearch.search_isOk_iff (hSorted.imp le_of_lt)).trans hHeld
  refuses := fun fh hBefore =>
    FuseServer.refuses_of_notMem fun index hMem => hSound.current index fh hMem hBefore

theorem asked_of_opens {server : FuseServer}
    (hOpens : event.opens overflowChecks server = some index) :
    event.asksHandle = true := by
  cases event with
  | openFile ino => rfl
  | opendir ino => rfl
  | init now => cases hOpens
  | loadFileList now files => cases hOpens
  | release ino fh => cases hOpens
  | releasedir ino fh => cases hOpens

theorem always_fresh_of_counted {count : Nat} {events : List Event}
    (hCounted : Counted session.book count)
    (hFew : count + events.countP Event.asksHandle ≤ 2 ^ 64) :
    Trace.Always (step overflowChecks) (Fresh overflowChecks) session events := by
  induction events generalizing session count with
  | nil => trivial
  | cons event rest ih =>
      rw [List.countP_cons] at hFew
      rcases book_step overflowChecks session event with ⟨hNone, hMoves⟩ | ⟨index, hOpens, hOpened⟩
      · refine ⟨?_, ih (hCounted.moves hMoves) (by omega)⟩
        intro index hOpens
        rw [hNone] at hOpens
        cases hOpens
      · rw [if_pos (asked_of_opens hOpens)] at hFew
        have hLess : count < 2 ^ 64 := by omega
        have hAfter : Counted (session.step overflowChecks event).book (count + 1) := by
          rw [hOpened]
          exact hCounted.opened hLess index
        exact ⟨fun i _ => hCounted.fresh hLess i, ih hAfter (by omega)⟩

/-- Every handle is fresh while at most `2 ^ 64` are asked for. -/
theorem always_fresh_of_few (overflowChecks : Bool) {events : List Event}
    (hFew : events.countP Event.asksHandle ≤ 2 ^ 64) :
    Trace.Always (step overflowChecks) (Fresh overflowChecks) new events := by
  have hStart : Counted new.book 0 := by
    refine ⟨sound_new, rfl, ?_⟩
    rintro fh ⟨index, hMem⟩
    cases hMem
  exact always_fresh_of_counted hStart (by rwa [Nat.zero_add])

/-- In any order of the calls, for any inodes, the handles of every node are in order, a node
has exactly the handles that are held on it, and handles from before the list are refused, while
at most `2 ^ 64` handles are asked for. -/
theorem exact_of_few (overflowChecks : Bool) {events : List Event}
    (hFew : events.countP Event.asksHandle ≤ 2 ^ 64) :
    (Trace.run (step overflowChecks) new events).Exact overflowChecks := by
  have hKeeps : ∀ (session : Session) (event : Event), session.Fresh overflowChecks event →
      session.book.Sound → (session.step overflowChecks event).book.Sound :=
    fun _ _ hFresh hSound => sound_step hSound hFresh
  exact exact_of_sound (Trace.invariant_of_always (step overflowChecks) (·.book.Sound) hKeeps sound_new
    (always_fresh_of_few overflowChecks hFew))

/-- The root is opened twice, and the first handle is released. -/
theorem exact_of_few_twice : (Trace.run (step true) new
    [.init 0, .opendir 1, .opendir 1, .releasedir 1 0]).Exact true :=
  exact_of_few true (by decide)

/-- The root is opened and stays open, while it is opened and released again and again. -/
def circle (rounds : Nat) : List Event :=
  .init 0 :: .opendir 1 ::
    (List.range rounds).flatMap fun k => [.opendir 1, .releasedir 1 (k + 1)]

/-- The root with some handles, and the counter. -/
def openRoot (handlers : List Nat) (counter : Nat) : FuseServer :=
  ⟨[⟨TreeNode.newRoot 0, ⟨handlers, false⟩⟩], counter⟩

theorem opendir_openRoot (overflowChecks : Bool) (handlers : List Nat) (counter : Nat) :
    FuseServer.opendir overflowChecks (openRoot handlers counter) 1 =
      (.opened counter, openRoot (handlers ++ [counter]) ((counter + 1) % 2 ^ 64)) := rfl

theorem releasedir_openRoot (overflowChecks : Bool) {fh : Nat} (hPos : 0 < fh) (counter : Nat) :
    (FuseServer.releasedir overflowChecks (openRoot [0, fh] counter) 1 fh).2 = openRoot [0] counter := by
  have hSorted : [0, fh].Pairwise (· < ·) := by simpa using hPos
  have hHave : FileHandles.haveHandler ⟨[0, fh], false⟩ fh = true :=
    (BinarySearch.search_isOk_iff (hSorted.imp le_of_lt)).mpr (by simp)
  have hGone : FileHandles.unregister ⟨[0, fh], false⟩ fh = some ⟨[0], false⟩ := by
    rw [FileHandles.haveHandler] at hHave
    rw [FileHandles.unregister]
    cases hFound : BinarySearch.search [0, fh] fh with
    | error place =>
        rw [hFound] at hHave
        cases hHave
    | ok place =>
        dsimp only
        rw [BinarySearch.eraseIdx_of_search hSorted hFound, List.erase_cons_tail (by simp [hPos.ne]),
          List.erase_cons_head]
  have hRoot : (TreeNode.newRoot 0).attributes.kind = .directory := rfl
  simp [FuseServer.releasedir, FuseServer.withEntry, TreeNode.askedIndex, openRoot, FuseServer.put, hHave,
    hGone, hRoot]

theorem server_circle (overflowChecks : Bool) {rounds : Nat} (hRounds : rounds < 2 ^ 64) :
    (Trace.run (step overflowChecks) new (circle rounds)).server =
      openRoot [0] ((rounds + 1) % 2 ^ 64) := by
  induction rounds with
  | zero => rfl
  | succ k ih =>
      have hBefore := ih (Nat.lt_of_succ_lt hRounds)
      have hSplit : circle (k + 1) = circle k ++ [.opendir 1, .releasedir 1 (k + 1)] := by
        simp [circle, List.range_succ]
      have hSteps : ∀ session : Session,
          (Trace.run (step overflowChecks) session [.opendir 1, .releasedir 1 (k + 1)]).server =
            (FuseServer.releasedir overflowChecks
              (FuseServer.opendir overflowChecks session.server 1).2 1 (k + 1)).2 := fun _ => rfl
      rw [hSplit, Trace.run_append, hSteps, hBefore, opendir_openRoot, Nat.mod_eq_of_lt hRounds]
      exact releasedir_openRoot overflowChecks (Nat.succ_pos k) _

/-- When the counter comes round, a handle that is still open is given out once more. -/
theorem circle_not_exact (overflowChecks : Bool) {rounds : Nat} (hRounds : rounds + 1 = 2 ^ 64) :
    ¬ (Trace.run (step overflowChecks) new (circle rounds ++ [.opendir 1])).Exact overflowChecks := by
  intro hExact
  have hSteps : ∀ session : Session,
      (Trace.run (step overflowChecks) session [.opendir 1]).server =
        (FuseServer.opendir overflowChecks session.server 1).2 := fun _ => rfl
  have hServer : (Trace.run (step overflowChecks) new (circle rounds ++ [.opendir 1])).server =
      openRoot [0, 0] 1 := by
    rw [Trace.run_append, hSteps, server_circle overflowChecks (Nat.lt_of_succ_le hRounds.le), hRounds,
      opendir_openRoot, Nat.mod_self]
    rfl
  have hSorted := hExact.increasing ⟨TreeNode.newRoot 0, ⟨[0, 0], false⟩⟩ (by
    rw [hServer]
    exact List.mem_singleton_self _)
  exact absurd hSorted (by decide)

theorem handle_comes_round :
    ¬ (Trace.run (step true) new (circle (2 ^ 64 - 1) ++ [.opendir 1])).Exact true :=
  circle_not_exact true rfl

end Session

end Calls

end HibtDesk.Clipboard.Handles
