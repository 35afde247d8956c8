import HibtDesk.Clipboard.ServFiles
import HibtDesk.Library.UnixPath
import HibtDesk.Library.Utf16
import HibtDesk.Network.BytesCodec

/-! The list of the copied files. A selection is listed with everything below it, each
directory before what it holds, and the list is kept for the peers together with the
bytes that tell them of it. -/
namespace HibtDesk.Clipboard

open Lexical (Text)
open BytesCodec (putLe)

def flagsFdAttributes : Nat := 0x04
def flagsFdSize : Nat := 0x40
def flagsFdLastWrite : Nat := 0x20
def flagsFdProgressui : Nat := 0x4000
def flagsFdUnixMode : Nat := 0x08

/-- The time from which Windows counts up to 1970, in units of 100 ns. -/
def ldapEpochDelta : Nat := 116444772610000000

def zeros (n : Nat) : Bytes := List.replicate n 0

namespace LocalFile

def attributes (file : LocalFile) : Nat :=
  (if file.readOnly then 0x1 else 0) ||| (if file.hidden then 0x2 else 0) |||
    (if file.system then 0x4 else 0) ||| (if file.isDir then 0x10 else 0) |||
    (if file.archive then 0x20 else 0) ||| (if file.normal then 0x80 else 0)

/-- The time of the last change as it is sent, cut to 64 bits in nanoseconds. -/
def win32Time (file : LocalFile) : Nat := file.lastWriteTime.toNat % 2 ^ 64 / 100 + ldapEpochDelta

/-- The path as it is sent. -/
def wirePath (file : LocalFile) : Text :=
  (Lexical.Unix.stripPrefix file.relativeRoot file.path).getD file.path

/-- `as_bin`, unless the path is too long for its place. -/
def asBin (file : LocalFile) : Option Bytes :=
  let name := Utf16.toLe (Utf16.encode file.wirePath)
  if 520 < name.length then none
  else
    some (putLe 4 (flagsFdSize ||| flagsFdLastWrite ||| flagsFdAttributes ||| flagsFdProgressui |||
        flagsFdUnixMode) ++
      zeros 32 ++ putLe 4 file.attributes ++ zeros 12 ++ putLe 4 file.perm ++
      putLe 8 file.win32Time ++ putLe 4 (file.size >>> 32) ++ putLe 4 (file.size &&& 0xffffffff) ++
      name ++ zeros (520 - name.length))

end LocalFile

/-- What listing reads of the file system: the metadata of what a path leads to, and the
names in a directory, one by one. -/
structure Listing where
  metadata : Text → Option Metadata
  readDir : Text → Option (List (Option Text))

/-- The files listed so far and the paths seen. -/
structure Walk where
  fileList : List LocalFile
  visited : List Text

/-- Whether a path has been seen, in any spelling. -/
def Walk.contains (walk : Walk) (path : Text) : Bool :=
  walk.visited.any fun seen => Lexical.Unix.components seen == Lexical.Unix.components path

/-- List the entries of a directory by means of `visit`. -/
def listEntries (visit : Text → Walk → Option (Except CliprdrError Walk)) (path : Text) :
    List (Option Text) → Walk → Option (Except CliprdrError Walk)
  | [], walk => some (.ok walk)
  | none :: _, _ => some (.error (.fileError path .other))
  | some name :: rest, walk =>
      match visit (Lexical.Platform.unix.join path name) walk with
      | some (.ok walk) => listEntries visit path rest walk
      | other => other

/-- `constr_file_lst`, to a depth. There is no result if the directories go deeper. -/
def constrFileLst (listing : Listing) (relativeRoot : Text) :
    Nat → Text → Walk → Option (Except CliprdrError Walk)
  | 0, _, _ => none
  | depth + 1, path, walk =>
      if walk.contains path then some (.ok walk)
      else
        match listing.metadata path with
        | none => some (.error (.fileError path .other))
        | some mt =>
            let walk : Walk :=
              { fileList := walk.fileList ++ [LocalFile.tryOpen relativeRoot path mt]
                visited := path :: walk.visited }
            if mt.isDir then
              match listing.readDir path with
              | none => some (.error (.fileError path .other))
              | some dir => listEntries (constrFileLst listing relativeRoot depth) path dir walk
            else some (.ok walk)

/-- The loop of `construct_file_list` over the selection. -/
def listPaths (listing : Listing) (relativeRoot : Text) (depth : Nat) :
    List Text → Walk → Option (Except CliprdrError Walk)
  | [], walk => some (.ok walk)
  | path :: rest, walk =>
      match constrFileLst listing relativeRoot depth path walk with
      | some (.ok walk) => listPaths listing relativeRoot depth rest walk
      | other => other

def constructFileList (listing : Listing) (depth : Nat) (paths : List Text) :
    Option (Except CliprdrError (List LocalFile)) :=
  match paths with
  | [] => some (.error (.invalidRequest "empty file list"))
  | first :: _ =>
      match Lexical.Unix.parent first with
      | none => some (.error (.invalidRequest "empty parent"))
      | some relativeRoot =>
          (listPaths listing relativeRoot depth paths { fileList := [], visited := [] }).map
            fun result => result.map (·.fileList)

/-- The entries of the list, unless there is one with too long a path. -/
def filesToBin : List LocalFile → Option Bytes
  | [] => some []
  | file :: rest =>
      match file.asBin, filesToBin rest with
      | some bin, some bins => some (bin ++ bins)
      | _, _ => none

/-- `build_file_list_pdu`, unless it panics. -/
def buildFileListPdu (fileList : List LocalFile) : Option Bytes :=
  (filesToBin fileList).map (putLe 4 fileList.length ++ ·)

/-- `CLIP_FILES`: the selection, the list of the files and what a peer is told of it. -/
structure CopiedFiles where
  files : List Text
  clip : ClipFiles
  filesPdu : Bytes

/-- How a call of `sync_files` ends, if it does. -/
inductive SyncResult where
  | unfinished
  | panicked
  | returned (result : Except CliprdrError Unit)

namespace CopiedFiles

def new : CopiedFiles where
  files := []
  clip := { fileList := [], firstFileIndex := 0 }
  filesPdu := []

def clear (_ : CopiedFiles) : CopiedFiles where
  files := []
  clip := { fileList := [], firstFileIndex := 2 ^ 64 - 1 }
  filesPdu := []

/-- The place of the first file that is no directory by now. -/
def firstFileIndex (listing : Listing) (fileList : List LocalFile) : Nat :=
  (fileList.findIdx? fun file => !(listing.metadata file.path).any (·.isDir)).getD (2 ^ 64 - 1)

def syncFiles (listing : Listing) (depth : Nat) (files : List Text) (copied : CopiedFiles) :
    SyncResult × CopiedFiles :=
  if copied.files = files then (.returned (.ok ()), copied)
  else
    match constructFileList listing depth files with
    | none => (.unfinished, copied)
    | some (.error error) => (.returned (.error error), copied)
    | some (.ok fileList) =>
        let copied : CopiedFiles :=
          { copied with
            files := files
            clip := { fileList := fileList, firstFileIndex := firstFileIndex listing fileList } }
        match buildFileListPdu fileList with
        -- The list is there by then, but the bytes are still those of the list before.
        | none => (.panicked, copied)
        | some pdu => (.returned (.ok ()), { copied with filesPdu := pdu })

/-- The list stays as it was or becomes the one that has been made. -/
theorem fileList_syncFiles (listing : Listing) (depth : Nat) (files : List Text)
    (copied : CopiedFiles) :
    (copied.syncFiles listing depth files).2.clip.fileList = copied.clip.fileList ∨
      ∃ fileList, constructFileList listing depth files = some (.ok fileList) ∧
        (copied.syncFiles listing depth files).2.clip.fileList = fileList := by
  unfold syncFiles
  split
  · exact Or.inl rfl
  · cases hList : constructFileList listing depth files with
    | none => exact Or.inl rfl
    | some result =>
        cases result with
        | error error => exact Or.inl rfl
        | ok fileList =>
            refine Or.inr ⟨fileList, rfl, ?_⟩
            dsimp only
            split <;> rfl

end CopiedFiles

section Walk
variable {listing : Listing} {relativeRoot : Text}

/-- The entries of a list as listing makes them. -/
def Fresh (file : LocalFile) : Prop := file.handle = none

theorem fresh_listEntries {visit : Text → Walk → Option (Except CliprdrError Walk)}
    (hVisit : ∀ path walk walk', visit path walk = some (.ok walk') →
      (∀ file ∈ walk.fileList, Fresh file) → ∀ file ∈ walk'.fileList, Fresh file)
    {path : Text} {dir : List (Option Text)} {walk walk' : Walk}
    (hList : listEntries visit path dir walk = some (.ok walk'))
    (hWalk : ∀ file ∈ walk.fileList, Fresh file) : ∀ file ∈ walk'.fileList, Fresh file := by
  induction dir generalizing walk with
  | nil =>
      cases hList
      exact hWalk
  | cons entry rest ih =>
      cases entry with
      | none => cases hList
      | some name =>
          rw [listEntries] at hList
          split at hList
          · rename_i walk₁ hFirst
            exact ih hList (hVisit _ _ _ hFirst hWalk)
          · rename_i hOther
            exact absurd hList (hOther walk')

theorem fresh_constrFileLst {depth : Nat} {path : Text} {walk walk' : Walk}
    (hList : constrFileLst listing relativeRoot depth path walk = some (.ok walk'))
    (hWalk : ∀ file ∈ walk.fileList, Fresh file) : ∀ file ∈ walk'.fileList, Fresh file := by
  induction depth generalizing path walk walk' with
  | zero => cases hList
  | succ depth ih =>
      rw [constrFileLst] at hList
      split at hList
      · cases hList
        exact hWalk
      · split at hList
        · cases hList
        · rename_i mt hMetadata
          have hPushed : ∀ file ∈ walk.fileList ++ [LocalFile.tryOpen relativeRoot path mt],
              Fresh file := by
            intro file hFile
            rcases List.mem_append.mp hFile with hOld | hNew
            · exact hWalk file hOld
            · rw [List.mem_singleton.mp hNew]
              rfl
          dsimp only at hList
          split at hList
          · split at hList
            · cases hList
            · exact fresh_listEntries (fun _ _ _ => ih) hList hPushed
          · cases hList
            exact hPushed

/-- No file is open in a list that has just been made. -/
theorem fresh_constructFileList {depth : Nat} {paths : List Text} {fileList : List LocalFile}
    (hList : constructFileList listing depth paths = some (.ok fileList)) :
    ∀ file ∈ fileList, Fresh file := by
  have hPaths : ∀ (relativeRoot : Text) (paths : List Text) (walk walk' : Walk),
      listPaths listing relativeRoot depth paths walk = some (.ok walk') →
      (∀ file ∈ walk.fileList, Fresh file) → ∀ file ∈ walk'.fileList, Fresh file := by
    intro relativeRoot paths
    induction paths with
    | nil =>
        intro walk walk' hList hWalk
        cases hList
        exact hWalk
    | cons path rest ih =>
        intro walk walk' hList hWalk
        rw [listPaths] at hList
        split at hList
        · rename_i walk₁ hFirst
          exact ih walk₁ walk' hList (fresh_constrFileLst hFirst hWalk)
        · rename_i hOther
          exact absurd hList (hOther walk')
  unfold constructFileList at hList
  split at hList
  · cases hList
  · split at hList
    · cases hList
    · rename_i root hRoot
      obtain ⟨result, hResult, hMap⟩ := Option.map_eq_some_iff.mp hList
      cases result with
      | error error => cases hMap
      | ok walk =>
          obtain rfl : walk.fileList = fileList := by simpa [Except.map] using hMap
          exact hPaths _ _ _ _ hResult (by simp)

end Walk

end HibtDesk.Clipboard
