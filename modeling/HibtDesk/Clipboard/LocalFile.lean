import HibtDesk.Common.Options
import HibtDesk.Library.Path

/-! The copied files as the side keeps them that serves them. A file is opened when
it is first read, and the reader is kept, together with the offset it should be at,
until the end of the file has been read. -/
namespace HibtDesk.Clipboard

open Lexical (Text)

inductive IoError where
  | notFound (text : String)
  | invalidData (text : String)
  | unexpectedEof
  | other
  deriving DecidableEq, Repr

inductive CliprdrError where
  | fileError (path : Text) (err : IoError)
  | invalidRequest (description : String)
  | commonError (description : String)
  | conversionFailure
  deriving DecidableEq, Repr

/-- What the operating system says of a path. The length is an `off_t`; the time is
in nanoseconds from 1970 on. -/
structure Metadata where
  len : Nat
  isDir : Bool
  readonly : Bool
  mode : Nat
  modified : Option Int
  deriving DecidableEq, Repr

/-- The files at one moment: what a path leads to if it can be opened, whether it is
a regular file, and what the files hold. -/
structure FileSystem where
  node : Text → Option Nat
  isFile : Text → Bool
  content : Nat → Bytes

/-- An open file. -/
structure Reader where
  node : Nat
  pos : Nat
  deriving DecidableEq, Repr

structure LocalFile where
  relativeRoot : Text
  path : Text
  handle : Option Reader
  offset : Nat
  name : Text
  size : Nat
  lastWriteTime : Int
  isDir : Bool
  perm : Nat
  readOnly : Bool
  hidden : Bool
  system : Bool
  archive : Bool
  normal : Bool
  deriving DecidableEq, Repr

/-- What goes wrong with a file that is open, and where a read that fails leaves its
reader. -/
structure ReadFaults where
  seekFails : Bool
  readFails : Bool
  stopsAt : Nat
  deriving DecidableEq, Repr

namespace LocalFile

/-- `try_open` of a path the metadata of which could be read. -/
def tryOpen (relativeRoot path : Text) (mt : Metadata) : LocalFile :=
  let hidden := path.head? == some '.'
  { relativeRoot := relativeRoot
    path := path
    handle := none
    offset := 0
    name := (path.dropWhile (· == '/')).map fun c => if c == '/' then '\\' else c
    size := mt.len
    lastWriteTime := mt.modified.getD 0
    isDir := mt.isDir
    perm := mt.mode
    readOnly := mt.readonly
    hidden := hidden
    system := false
    archive := false
    normal := !(mt.isDir || mt.readonly || hidden) }

def loadHandle (fs : FileSystem) (file : LocalFile) : Except CliprdrError Unit × LocalFile :=
  if !file.isDir && file.handle.isNone then
    match fs.node file.path with
    | some node => (.ok (), { file with handle := some { node := node, pos := 0 } })
    | none => (.error (.fileError file.path .other), file)
  else (.ok (), file)

/-- `read_exact_at` of a reader, with the bytes it fills the buffer with. -/
def readFrom (fs : FileSystem) (faults : ReadFaults) (file : LocalFile) (reader : Reader)
    (length offset : Nat) : Except CliprdrError Bytes × LocalFile :=
  if offset ≠ file.offset ∧ faults.seekFails then (.error (.fileError file.path .other), file)
  else
    let pos := if offset ≠ file.offset then offset else reader.pos
    let buf := ((fs.content reader.node).drop pos).take length
    -- An empty buffer is filled without reading.
    if 0 < length ∧ faults.readFails ∨ buf.length < length then
      (.error (.fileError file.path (if faults.readFails then .other else .unexpectedEof)),
        { file with handle := some { reader with pos := faults.stopsAt } })
    else
      let newOffset := offset + length
      -- The reader is given up at the end of the file.
      if file.size ≤ newOffset then (.ok buf, { file with handle := none, offset := 0 })
      else
        (.ok buf,
          { file with handle := some { reader with pos := pos + length }, offset := newOffset })

def readExactAt (fs : FileSystem) (faults : ReadFaults) (file : LocalFile) (length offset : Nat) :
    Except CliprdrError Bytes × LocalFile :=
  match file.loadHandle fs with
  | (.error error, file) => (.error error, file)
  | (.ok (), file) =>
      match file.handle with
      | some reader => file.readFrom fs faults reader length offset
      | none =>
          (.error (.fileError file.path (.notFound "file handle not found")), file)

/-- The reader of a file, if there is one, is where the offset says. -/
structure Steady (node : Nat) (file : LocalFile) : Prop where
  closed : file.handle = none → file.offset = 0
  placed : ∀ reader, file.handle = some reader → reader = { node := node, pos := file.offset }

/-- The same file, with its reader elsewhere. -/
structure SameFile (file other : LocalFile) : Prop where
  path : other.path = file.path
  size : other.size = file.size
  isDir : other.isDir = file.isDir

theorem SameFile.refl (file : LocalFile) : file.SameFile file := ⟨rfl, rfl, rfl⟩

theorem SameFile.trans {file other third : LocalFile} (hFirst : file.SameFile other)
    (hSecond : other.SameFile third) : file.SameFile third :=
  ⟨hSecond.path.trans hFirst.path, hSecond.size.trans hFirst.size,
    hSecond.isDir.trans hFirst.isDir⟩

theorem steady_tryOpen (node : Nat) (relativeRoot path : Text) (mt : Metadata) :
    (tryOpen relativeRoot path mt).Steady node where
  closed := fun _ => rfl
  placed := fun _ hHandle => by cases hHandle

section Handle
variable {fs : FileSystem} {node : Nat} {file : LocalFile}

theorem sameFile_loadHandle (fs : FileSystem) (file : LocalFile) :
    file.SameFile (file.loadHandle fs).2 := by
  unfold loadHandle
  split
  · split <;> exact ⟨rfl, rfl, rfl⟩
  · exact .refl file

/-- A file is opened at its start, where the offset of a closed one is. -/
theorem Steady.loaded (hSteady : file.Steady node) (hDir : file.isDir = false)
    (hNode : fs.node file.path = some node) :
    file.loadHandle fs =
      (.ok (), { file with handle := some { node := node, pos := file.offset } }) := by
  unfold LocalFile.loadHandle
  cases hHandle : file.handle with
  | none => simp [hDir, hNode, hSteady.closed hHandle]
  | some reader =>
      rw [← hSteady.placed reader hHandle]
      simp only [Option.isNone_some, Bool.and_false, Bool.false_eq_true, if_false]
      cases file
      cases hHandle
      rfl

theorem Steady.loadHandle (hSteady : file.Steady node) (hDir : file.isDir = false)
    (hNode : fs.node file.path = some node) : (file.loadHandle fs).2.Steady node := by
  rw [hSteady.loaded hDir hNode]
  constructor
  · intro hNone
    cases hNone
  · intro reader hReader
    exact (Option.some.inj hReader).symm

theorem loadHandle_eq_ok_iff (fs : FileSystem) (file : LocalFile) :
    (file.loadHandle fs).1 = .ok () ↔
      (file.isDir = false → file.handle = none → (fs.node file.path).isSome = true) := by
  unfold loadHandle
  cases hDir : file.isDir with
  | true => simp
  | false =>
      cases hHandle : file.handle with
      | some reader => simp
      | none => cases hNode : fs.node file.path <;> simp

theorem sameFile_readFrom (fs : FileSystem) (faults : ReadFaults) (file : LocalFile)
    (reader : Reader) (length offset : Nat) :
    file.SameFile (file.readFrom fs faults reader length offset).2 := by
  unfold readFrom
  by_cases hSeek : offset ≠ file.offset ∧ faults.seekFails = true
  · rw [if_pos hSeek]
    exact .refl file
  · rw [if_neg hSeek]
    dsimp only
    generalize (if offset ≠ file.offset then offset else reader.pos) = pos
    split
    · exact ⟨rfl, rfl, rfl⟩
    · split <;> exact ⟨rfl, rfl, rfl⟩

theorem sameFile_readExactAt (fs : FileSystem) (faults : ReadFaults) (file : LocalFile)
    (length offset : Nat) : file.SameFile (file.readExactAt fs faults length offset).2 := by
  have hLoaded := sameFile_loadHandle fs file
  unfold readExactAt
  generalize file.loadHandle fs = loaded at hLoaded
  obtain ⟨result, after⟩ := loaded
  cases result with
  | error error => exact hLoaded
  | ok _ =>
      dsimp only at hLoaded ⊢
      split
      · exact hLoaded.trans (sameFile_readFrom ..)
      · exact hLoaded

/-- A read inside the file gives the bytes that stand there, and leaves the reader
where the offset says. -/
theorem Steady.readExactAt (hSteady : file.Steady node) (hDir : file.isDir = false)
    (hNode : fs.node file.path = some node) {faults : ReadFaults}
    (hSmooth : faults.seekFails = false ∧ faults.readFails = false) {length offset : Nat}
    (hInside : offset + length ≤ (fs.content node).length) :
    (file.readExactAt fs faults length offset).1 = .ok (((fs.content node).drop offset).take length) ∧
      (file.readExactAt fs faults length offset).2.Steady node := by
  have hRead : file.readExactAt fs faults length offset =
      { file with handle := some { node := node, pos := file.offset } : LocalFile }.readFrom fs faults
        { node := node, pos := file.offset } length offset := by
    unfold LocalFile.readExactAt
    rw [hSteady.loaded hDir hNode]
  have hPos : (if offset ≠ file.offset then offset else file.offset) = offset := by
    split
    · rfl
    · rename_i hSame
      exact (not_not.mp hSame).symm
  have hFull : (((fs.content node).drop offset).take length).length = length := by
    rw [List.length_take, List.length_drop]
    omega
  rw [hRead]
  unfold readFrom
  simp only [hSmooth.1, hSmooth.2, hPos, hFull, Bool.false_eq_true, and_false, lt_self_iff_false,
    or_self, if_false]
  split
  · exact ⟨rfl, fun _ => rfl, fun reader hReader => by cases hReader⟩
  · refine ⟨rfl, fun hNone => ?_, fun reader hReader => ?_⟩
    · cases hNone
    · exact (Option.some.inj hReader).symm

end Handle

end LocalFile

end HibtDesk.Clipboard
