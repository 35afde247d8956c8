import HibtDesk.Clipboard.PastedShape
import HibtDesk.Library.BinarySearch
import HibtDesk.Library.Trace

/-! The handles of the file system. A counter gives out the handles, each node keeps the ones
that are open on it, in the order in which they were given out, and finds them by binary
search. A new list of files comes with new nodes. -/
namespace HibtDesk.Clipboard.Handles

/-- `FileHandles`. Nothing sets `gc`. -/
structure FileHandles where
  handlers : List Nat
  gc : Bool
  deriving DecidableEq, Repr

namespace FileHandles

def new : FileHandles := ⟨[], false⟩

def marked (handles : FileHandles) : Bool := handles.gc

/-- There is no result if it panics. -/
def addHandler (handles : FileHandles) (fh : Nat) : Option FileHandles :=
  if handles.marked then none else some { handles with handlers := handles.handlers ++ [fh] }

def haveHandler (handles : FileHandles) (handler : Nat) : Bool :=
  (BinarySearch.search handles.handlers handler).isOk

/-- There is no result if the handler is not found. -/
def unregister (handles : FileHandles) (handler : Nat) : Option FileHandles :=
  match BinarySearch.search handles.handlers handler with
  | .error _ => none
  | .ok idx => some { handles with handlers := handles.handlers.eraseIdx idx }

end FileHandles

/-- A `FuseNode`: its place in the tree, and the handles. -/
structure FuseNode where
  node : TreeNode
  fileHandlers : FileHandles
  deriving DecidableEq, Repr

/-- The part of `FuseServer` that the handles depend on. -/
structure FuseServer where
  files : List FuseNode
  fileHandleCounter : Nat
  deriving DecidableEq, Repr

/-- The errors of the calls with handles. -/
inductive Errno where
  | enoent | enotdir | enfile | ebadf | ebusy
  deriving DecidableEq, Repr

inductive Reply where
  | opened (fh : Nat)
  | ok
  | error (errno : Errno)
  | panicked
  deriving DecidableEq, Repr

namespace FuseServer

def new : FuseServer := ⟨[], 0⟩

/-- `init`, at a time. -/
def init (server : FuseServer) (now : Nat) : FuseServer :=
  if server.files = [] then { server with files := [⟨TreeNode.newRoot now, .new⟩] } else server

/-- A list that cannot be made a tree leaves everything as it is. -/
def loadFileList (server : FuseServer) (now : Nat) (files : List FileDescription) :
    Except CliprdrError FuseServer :=
  (TreeNode.buildTree now files).map fun tree => { server with files := tree.map (⟨·, .new⟩) }

/-- `fetch_add` gives the value before, and wraps. -/
def allocFd (server : FuseServer) : Nat × FuseServer :=
  (server.fileHandleCounter,
    { server with fileHandleCounter := (server.fileHandleCounter + 1) % 2 ^ 64 })

/-- The handles of a node change. -/
def put (server : FuseServer) (index : Nat) (handles : FileHandles) : FuseServer :=
  { server with files := server.files.modify index fun entry => { entry with fileHandlers := handles } }

section Calls
variable (overflowChecks : Bool)

/-- `let Some(entry) = files.get(ino as usize - 1) else { .. }`. -/
def withEntry (server : FuseServer) (ino : Nat) (call : Nat → FuseNode → Reply × FuseServer) :
    Reply × FuseServer :=
  match TreeNode.askedIndex overflowChecks ino with
  | none => (.panicked, server)
  | some index =>
      match server.files[index]? with
      | none => (.error .enoent, server)
      | some entry => call index entry

/-- Opening a node of one kind. -/
def openAs (kind : FileType) (errno : Errno) (server : FuseServer) (ino : Nat) : Reply × FuseServer :=
  withEntry overflowChecks server ino fun index entry =>
    if entry.node.attributes.kind ≠ kind then (.error errno, server)
    else if entry.fileHandlers.marked then (.error .ebusy, server)
    else
      let (fh, server) := server.allocFd
      match entry.fileHandlers.addHandler fh with
      | none => (.panicked, server)
      | some handles => (.opened fh, server.put index handles)

/-- `open`. -/
def openFile := openAs overflowChecks .file .enfile

def opendir := openAs overflowChecks .directory .enotdir

/-- `read` up to `read_node`. -/
def read (server : FuseServer) (ino fh : Nat) : Reply :=
  (withEntry overflowChecks server ino fun _ entry =>
    if !entry.fileHandlers.haveHandler fh then (.error .ebadf, server)
    else if entry.node.attributes.kind ≠ .file then (.error .enfile, server)
    else if entry.fileHandlers.marked then (.error .ebusy, server)
    else (.ok, server)).1

/-- `readdir` up to the entries. -/
def readdir (server : FuseServer) (ino fh : Nat) : Reply :=
  (withEntry overflowChecks server ino fun _ entry =>
    if !entry.fileHandlers.haveHandler fh then (.error .ebadf, server)
    else if entry.node.attributes.kind ≠ .directory then (.error .enotdir, server)
    else (.ok, server)).1

def release (server : FuseServer) (ino fh : Nat) : Reply × FuseServer :=
  withEntry overflowChecks server ino fun index entry =>
    match entry.fileHandlers.unregister fh with
    | none => (.error .ebadf, server)
    | some handles => (.ok, server.put index handles)

def releasedir (server : FuseServer) (ino fh : Nat) : Reply × FuseServer :=
  withEntry overflowChecks server ino fun index entry =>
    if entry.node.attributes.kind ≠ .directory then (.error .enotdir, server)
    else if !entry.fileHandlers.haveHandler fh then (.error .ebadf, server)
    else
      match entry.fileHandlers.unregister fh with
      | none => (.ok, server)
      | some handles => (.ok, server.put index handles)

end Calls

end FuseServer

end HibtDesk.Clipboard.Handles
