import HibtDesk.Clipboard.PasteKeeps
import HibtDesk.Clipboard.PastedTree

/-! What a paste leaves alone. A task joins the names of the peer to its directory, so it
stays in there if these names do. The tree that is mounted takes the last of the names of a
path, so what is told to the desktop is always right below the mount point. -/
namespace HibtDesk.Clipboard

open Lexical (Text)
open Lexical.Unix (PlainName fileStem extension plainName_of_fileName plainName_of_mem
  splitAtDot splitAtDot_subset)

/-- A touched path is in the directory, which is itself a directory to be made. A path that
is empty is none. -/
def Touch.Inside (dir : Text) : Touch → Prop
  | .dir path => Lexical.Platform.unix.within dir path = true
  | .file path => path = [] ∨ Lexical.Platform.unix.inside dir path = true

/-- Where a description belongs. -/
def FileDescription.place (targetDir : Text) (desc : FileDescription) : Option Touch :=
  match desc.kind with
  | .file => some (.file (Lexical.Platform.unix.join targetDir desc.name))
  | .directory => some (.dir (Lexical.Platform.unix.join targetDir desc.name))
  | .symlink => none

namespace PasteTask

/-- The descriptions that the task comes to belong in the directory. -/
def NamesInside (targetDir : Text) (files : List FileDescription) : Prop :=
  ∀ desc ∈ reached files, ∀ touch ∈ desc.place targetDir, touch.Inside targetDir

/-- Whatever is on the disk, fails there and comes from the peer, a task for the files
touches nothing outside the directory. -/
def StaysInside (targetDir : Text) (files : List FileDescription) : Prop :=
  ∀ (W H : Type) (ops : FileOps W H) (w : W) (task : PasteTask (Handle H)) (events : List Event),
    task.isFinished = true →
      let started := start ops.logged (w, []) task targetDir files
      ∀ touch ∈ (run ops.logged (started.1, started.2.1) events).1.2, touch.Inside targetDir

section Names
variable {path name dir suffix found : Text}

theorem sep_notMem_digits (i : Nat) : '/' ∉ digits i := by
  intro hMem
  have hDigit := Nat.isDigit_of_mem_toDigits (by decide) (by decide) hMem
  exact absurd hDigit (by decide)

/-- The number that is put into a name makes another name of it. -/
theorem plainName_numbered {ext : Text} (hExt : extension path = some ext) (i : Nat) :
    PlainName ((fileStem path).getD [] ++ '-' :: digits i ++ '.' :: ext) := by
  obtain ⟨name, hName, hSplit⟩ := Option.bind_eq_some_iff.mp hExt
  have hNoSep := (plainName_of_fileName hName).noSep
  obtain ⟨hStem, hAfter⟩ := splitAtDot_subset name
  refine plainName_of_mem (c := '-') ?_ (by simp) (by decide)
  have hStemOf : (fileStem path).getD [] = (splitAtDot name).1 := by simp [fileStem, hName]
  rw [hStemOf]
  simp only [List.mem_append, List.mem_cons, not_or]
  exact ⟨⟨fun hMem => hNoSep (hStem hMem), by decide, sep_notMem_digits i⟩, by decide,
    fun hMem => hNoSep (hAfter ext hSplit hMem)⟩

/-- A path in the directory, or an empty one of an empty directory, goes on to one in it. -/
theorem inside_append (hPlain : PlainName suffix) (hLong : 2 < suffix.length)
    (hColon : suffix.head? ≠ some ':')
    (hPath : path = [] ∧ dir = [] ∨ Lexical.Platform.unix.inside dir path = true) :
    Lexical.Platform.unix.inside dir (path ++ suffix) = true := by
  rcases hPath with ⟨rfl, rfl⟩ | hInside
  · have hJoin : Lexical.Platform.unix.join [] suffix = suffix := by
      rw [Lexical.Unix.join_unix_of_relative]
      · rfl
      · rw [Lexical.Unix.rooted_unix]
        cases suffix with
        | nil => rfl
        | cons c rest => simpa using Ne.symm (List.ne_of_not_mem_cons hPlain.noSep)
    rw [List.nil_append, ← hJoin]
    exact Lexical.Unix.inside_join_of_within rfl hPlain
  · refine Lexical.Platform.inside_append_suffix ?_ ?_ hLong hColon hInside
    · simp [Lexical.Unix.opensShare_unix]
    · intro c hc
      have hNe : c ≠ '/' := fun hSep => hPlain.noSep (hSep ▸ hc)
      simpa [Lexical.Platform.isSep] using hNe

theorem inside_numbered (hPath : path = [] ∧ dir = [] ∨ Lexical.Platform.unix.inside dir path = true)
    (kind : FileType) (i : Nat) :
    Lexical.Platform.unix.inside dir (numbered path kind i) = true := by
  unfold numbered
  split
  · rename_i ext hExt
    rcases hPath with ⟨rfl, -⟩ | hInside
    · cases hExt
    · exact Lexical.Unix.inside_withFileName hInside (plainName_numbered hExt i)
  · have hPlain : PlainName (' ' :: '(' :: digits i ++ [')']) := by
      refine plainName_of_mem (c := '(') ?_ (by simp) (by decide)
      simp [sep_notMem_digits]
    rw [List.append_assoc]
    exact inside_append hPlain (by simp) (by simp) hPath

theorem inside_getFirstFilename {isThere : Text → Bool} {kind : FileType}
    (hPath : path = [] ∧ dir = [] ∨ Lexical.Platform.unix.inside dir path = true)
    (hFound : getFirstFilename isThere path kind = some found) :
    found = path ∨ Lexical.Platform.unix.inside dir found = true := by
  unfold getFirstFilename at hFound
  split at hFound
  · exact Or.inl (Option.some.inj hFound).symm
  · split at hFound
    · cases hFound
    · obtain ⟨i, -, rfl⟩ := List.mem_map.mp (List.mem_of_find?_eq_some hFound)
      exact Or.inr (inside_numbered hPath kind i)

end Names

/-- If the descriptions belong in the directory, what the task comes up with is there. -/
theorem allows_inside {targetDir : Text} {files : List FileDescription}
    (hNames : NamesInside targetDir files) : Allows (Touch.Inside targetDir) targetDir files := by
  have hPlace : ∀ desc ∈ reached files, desc.kind = .file →
      let path := Lexical.Platform.unix.join targetDir desc.name
      path = [] ∧ targetDir = [] ∨ Lexical.Platform.unix.inside targetDir path = true := by
    intro desc hDesc hKind
    have hInside := hNames desc hDesc _ (by unfold FileDescription.place; rw [hKind]; rfl)
    refine hInside.imp_left fun hNil => ⟨hNil, ?_⟩
    by_contra hSome
    unfold Lexical.Platform.join at hNil
    split at hNil
    · rename_i hVolume
      simp at hVolume
    · split at hNil
      · rename_i hRooted
        rw [Lexical.Unix.volume_unix, List.nil_append] at hNil
        rw [hNil] at hRooted
        cases hRooted
      · split at hNil <;> exact hSome (List.append_eq_nil_iff.mp hNil).1
  have hDownload : ∀ desc ∈ reached files, desc.kind = .file → ∀ isThere found,
      getFirstFilename isThere (download (Lexical.Platform.unix.join targetDir desc.name)) .file =
        some found → Lexical.Platform.unix.inside targetDir found = true := by
    intro desc hDesc hKind isThere found hFound
    have hStart : Lexical.Platform.unix.inside targetDir
        (download (Lexical.Platform.unix.join targetDir desc.name)) = true :=
      inside_append (plainName_of_mem (c := 'r') (by decide) (by decide) (by decide)) (by decide)
        (by decide) (hPlace desc hDesc hKind)
    rcases inside_getFirstFilename (Or.inr hStart) hFound with rfl | hInside
    · exact hStart
    · exact hInside
  constructor
  case nothing => exact Or.inl rfl
  case directory =>
    intro desc hDesc hKind
    exact hNames desc hDesc (.dir _) (by unfold FileDescription.place; rw [hKind]; rfl)
  case final =>
    intro desc hDesc hKind isThere path hNew
    have hPath := hPlace desc hDesc hKind
    unfold getNewFilename at hNew
    dsimp only at hNew
    split at hNew
    · rcases inside_getFirstFilename hPath hNew with rfl | hInside
      · exact hPath.imp_left And.left
      · exact Or.inr hInside
    · obtain rfl := Option.some.inj hNew
      exact hPath.imp_left And.left
  case download =>
    intro desc hDesc hKind isThere path hFound
    exact Or.inr (hDownload desc hDesc hKind isThere path hFound)
  case parent =>
    intro desc hDesc hKind isThere path above hFound hParent
    exact Lexical.Unix.within_parent (hDownload desc hDesc hKind isThere path hFound) hParent

/-- A task for descriptions that belong in the directory stays in there. -/
theorem staysInside_of_namesInside {targetDir : Text} {files : List FileDescription}
    (hNames : NamesInside targetDir files) : StaysInside targetDir files := by
  intro W H ops w task events hFinished
  have hAllows := allows_inside hNames
  have hOps := ops.logged_allowed (Touch.Inside targetDir)
  have hStarted := kept_start hOps hAllows hFinished (w := (w, [])) (by simp)
  exact (kept_run hOps hAllows hStarted events).keep

end PasteTask

end HibtDesk.Clipboard
