import HibtDesk.Clipboard.FileList
import HibtDesk.Library.Trace

/-! What is listed for a selection in a forest of files and directories. Everything at or
below the selection is listed once, and each file stands after its directory unless it was
selected itself before anything listed it. -/
namespace HibtDesk.Clipboard

open Lexical (Text)
open Lexical.Unix (components PlainName)

/-- A name in a directory. -/
def IsEntry (listing : Listing) (dir name : Text) : Prop :=
  ∃ mt names, listing.metadata dir = some mt ∧ mt.isDir = true ∧ listing.readDir dir = some names ∧
    some name ∈ names

/-- The path of a name in a directory. -/
def entryPath (dir name : Text) : Text := Lexical.Platform.unix.join dir name

/-- The files form a forest: a path may be spelled in several ways, a directory can be read
and holds what is below it. -/
structure Forest (listing : Listing) : Prop where
  named : ∀ path, components path = [] → listing.metadata path = none
  spelled : ∀ p q, components p = components q →
    listing.metadata p = listing.metadata q ∧ listing.readDir p = listing.readDir q
  readable : ∀ dir mt, listing.metadata dir = some mt → mt.isDir = true →
    ∃ names : List Text, listing.readDir dir = some (names.map some)
  entries : ∀ dir name, IsEntry listing dir name →
    PlainName name ∧ (listing.metadata (entryPath dir name)).isSome = true
  complete : ∀ dir path name, components dir ≠ [] → components path = components dir ++ [.normal name] →
    (listing.metadata path).isSome = true → IsEntry listing dir name

/-- A path leads to a file, or to a directory that goes no deeper than this. -/
def Shallow (listing : Listing) : Nat → Text → Prop
  | 0, _ => False
  | depth + 1, path => ∀ name, IsEntry listing path name → Shallow listing depth (entryPath path name)

/-- The paths at and below some paths. -/
inductive Below (listing : Listing) (paths : List Text) : Text → Prop where
  | selected {path : Text} (hPath : path ∈ paths) : Below listing paths path
  | entry {dir name : Text} (hDir : Below listing paths dir) (hName : IsEntry listing dir name) :
      Below listing paths (entryPath dir name)

/-- A path is listed, in some spelling. -/
def Seen (files : List LocalFile) (path : Text) : Prop :=
  ∃ file ∈ files, components file.path = components path

/-- Why a file stands where it does: its directory was listed before, or it was selected
and everything selected before was listed. -/
def Placed (listing : Listing) (paths : List Text) (before : List LocalFile) (file : LocalFile) : Prop :=
  (∃ dir ∈ before, ∃ name, IsEntry listing dir.path name ∧ file.path = entryPath dir.path name) ∨
    ∃ k, paths[k]? = some file.path ∧ ∀ path, Below listing (paths.take k) path → Seen before path

namespace Walk

/-- The files of a walk are those of its paths, each once and in its place. -/
structure Sound (listing : Listing) (relativeRoot : Text) (paths : List Text) (walk : Walk) : Prop where
  visited : walk.visited = (walk.fileList.map (·.path)).reverse
  made : ∀ file ∈ walk.fileList, ∃ mt, listing.metadata file.path = some mt ∧
    file = .tryOpen relativeRoot file.path mt
  distinct : (walk.fileList.map fun file => components file.path).Nodup
  placed : Trace.Along (Placed listing paths) walk.fileList

/-- Whatever is in a directory has been seen, unless the directory is still being listed. -/
def Closed (listing : Listing) (pending : List Text) (walk : Walk) : Prop :=
  ∀ file ∈ walk.fileList, file.path ∉ pending → ∀ name, IsEntry listing file.path name →
    Seen walk.fileList (entryPath file.path name)

section Lemmas
variable {listing : Listing} {relativeRoot path : Text} {paths pending : List Text} {walk : Walk}

theorem Sound.contains_iff (hSound : walk.Sound listing relativeRoot paths) (path : Text) :
    walk.contains path = true ↔ Seen walk.fileList path := by
  unfold Walk.contains Seen
  rw [hSound.visited]
  simp

/-- A file that has not been seen is added. -/
theorem Sound.push (hSound : walk.Sound listing relativeRoot paths) {mt : Metadata}
    (hMetadata : listing.metadata path = some mt) (hNew : ¬ Seen walk.fileList path)
    (hPlaced : Placed listing paths walk.fileList (.tryOpen relativeRoot path mt)) :
    Sound listing relativeRoot paths
      { fileList := walk.fileList ++ [.tryOpen relativeRoot path mt], visited := path :: walk.visited } where
  visited := by
    rw [hSound.visited]
    simp [LocalFile.tryOpen]
  made := by
    intro file hFile
    rcases List.mem_append.mp hFile with hOld | hLast
    · exact hSound.made file hOld
    · rw [List.mem_singleton.mp hLast]
      exact ⟨mt, hMetadata, rfl⟩
  distinct := by
    rw [List.map_append, List.nodup_append]
    refine ⟨hSound.distinct, by simp, ?_⟩
    rintro cs hOld _ hLast rfl
    obtain ⟨file, hFile, hSame⟩ := List.mem_map.mp hOld
    rw [List.map_singleton, List.mem_singleton] at hLast
    exact hNew ⟨file, hFile, hSame.trans hLast⟩
  placed := (Trace.along_concat _ _).mpr ⟨hSound.placed, hPlaced⟩

end Lemmas

end Walk

theorem Seen.mono {files more : List LocalFile} {path : Text} (hSeen : Seen files path)
    (hMore : files ⊆ more) : Seen more path := by
  obtain ⟨file, hFile, hSame⟩ := hSeen
  exact ⟨file, hMore hFile, hSame⟩

/-- How paths are read: alike in any spelling, and a directory names what it holds. -/
structure Consistent (listing : Listing) : Prop where
  spelled : ∀ p q, components p = components q →
    listing.metadata p = listing.metadata q ∧ listing.readDir p = listing.readDir q
  plain : ∀ dir name, IsEntry listing dir name → PlainName name
  named : ∀ dir mt found, listing.metadata dir = some mt → mt.isDir = true →
    listing.readDir dir = some found → ∃ names : List Text, found = names.map some

/-- The path leads nowhere, or to a directory that cannot be read. -/
def Blocked (listing : Listing) (path : Text) : Prop :=
  listing.metadata path = none ∨
    ∃ mt, listing.metadata path = some mt ∧ mt.isDir = true ∧ listing.readDir path = none

theorem Forest.consistent {listing : Listing} (hForest : Forest listing) : Consistent listing where
  spelled := hForest.spelled
  plain := fun dir name hEntry => (hForest.entries dir name hEntry).1
  named := by
    intro dir mt found hMetadata hDir hFound
    obtain ⟨names, hNames⟩ := hForest.readable dir mt hMetadata hDir
    exact ⟨names, Option.some.inj (hFound.symm.trans hNames)⟩

section Respelled
variable {listing : Listing} (hConsistent : Consistent listing) {dir other name : Text}
include hConsistent

theorem IsEntry.respelled (hEntry : IsEntry listing dir name) (hSame : components dir = components other) :
    IsEntry listing other name := by
  obtain ⟨mt, names, hMetadata, hDir, hNames, hMem⟩ := hEntry
  obtain ⟨hSameMetadata, hSameNames⟩ := hConsistent.spelled dir other hSame
  exact ⟨mt, names, hSameMetadata ▸ hMetadata, hDir, hSameNames ▸ hNames, hMem⟩

theorem Blocked.respelled (hBlocked : Blocked listing dir) (hSame : components dir = components other) :
    Blocked listing other := by
  obtain ⟨hSameMetadata, hSameNames⟩ := hConsistent.spelled dir other hSame
  unfold Blocked at *
  rw [← hSameMetadata, ← hSameNames]
  exact hBlocked

theorem IsEntry.components_entryPath (hEntry : IsEntry listing dir name) :
    components (entryPath dir name) = components dir ++ [.normal name] :=
  Lexical.Unix.components_join (hConsistent.plain dir name hEntry)

end Respelled

/-- What is below paths that are below a selection is below the selection. -/
theorem Below.trans {listing : Listing} {paths others : List Text}
    (hOthers : ∀ path ∈ others, Below listing paths path) {path : Text}
    (hBelow : Below listing others path) : Below listing paths path := by
  induction hBelow with
  | selected hPath => exact hOthers _ hPath
  | entry _ hName ih => exact .entry ih hName

/-- In a forest nothing below a path that is there is blocked. -/
theorem Forest.not_blocked {listing : Listing} (hForest : Forest listing) {paths : List Text}
    (hExists : ∀ path ∈ paths, (listing.metadata path).isSome = true) {path : Text}
    (hBelow : Below listing paths path) : ¬ Blocked listing path := by
  have hFound : (listing.metadata path).isSome = true := by
    cases hBelow with
    | selected hPath => exact hExists path hPath
    | entry _ hName => exact (hForest.entries _ _ hName).2
  rintro (hNone | ⟨mt, hMetadata, hDir, hNone⟩)
  · rw [hNone] at hFound
    cases hFound
  · obtain ⟨names, hNames⟩ := hForest.readable path mt hMetadata hDir
    rw [hNone] at hNames
    cases hNames

/-- A walk that is sound, that listed what is in its directories, and that was not blocked. -/
structure Walk.Good (listing : Listing) (relativeRoot : Text) (paths pending : List Text) (walk : Walk) :
    Prop where
  sound : walk.Sound listing relativeRoot paths
  closed : walk.Closed listing pending
  passed : ∀ file ∈ walk.fileList, ¬ Blocked listing file.path

section Good
variable {listing : Listing} {relativeRoot path : Text} {paths pending : List Text} {walk : Walk}

theorem not_blocked_of_readDir {mt : Metadata} {found : List (Option Text)}
    (hMetadata : listing.metadata path = some mt) (hFound : listing.readDir path = some found) :
    ¬ Blocked listing path := by
  rintro (hNone | ⟨-, -, -, hNone⟩)
  · rw [hMetadata] at hNone
    cases hNone
  · rw [hFound] at hNone
    cases hNone

theorem not_blocked_of_file {mt : Metadata} (hMetadata : listing.metadata path = some mt)
    (hFile : ¬ mt.isDir = true) : ¬ Blocked listing path := by
  rintro (hNone | ⟨other, hOther, hDir, -⟩)
  · rw [hMetadata] at hNone
    cases hNone
  · obtain rfl := Option.some.inj (hMetadata.symm.trans hOther)
    exact hFile hDir

/-- A file is added, and what it holds is still to be listed. -/
theorem Walk.Good.enter (hGood : walk.Good listing relativeRoot paths pending) {mt : Metadata}
    (hMetadata : listing.metadata path = some mt) (hNew : ¬ Seen walk.fileList path)
    (hPlaced : Placed listing paths walk.fileList (.tryOpen relativeRoot path mt))
    (hFree : ¬ Blocked listing path) :
    Walk.Good listing relativeRoot paths (path :: pending)
      { fileList := walk.fileList ++ [.tryOpen relativeRoot path mt], visited := path :: walk.visited } where
  sound := hGood.sound.push hMetadata hNew hPlaced
  closed := by
    intro file hFile hNot name hName
    rw [List.mem_cons, not_or] at hNot
    rcases List.mem_append.mp hFile with hOld | hLast
    · exact (hGood.closed file hOld hNot.2 name hName).mono (List.subset_append_left _ _)
    · rw [List.mem_singleton.mp hLast] at hNot
      exact absurd rfl hNot.1
  passed := by
    intro file hFile
    rcases List.mem_append.mp hFile with hOld | hLast
    · exact hGood.passed file hOld
    · rw [List.mem_singleton.mp hLast]
      exact hFree

/-- All that a path holds has been seen. -/
theorem Walk.Good.leave (hGood : walk.Good listing relativeRoot paths (path :: pending))
    (hSeen : ∀ name, IsEntry listing path name → Seen walk.fileList (entryPath path name)) :
    walk.Good listing relativeRoot paths pending where
  sound := hGood.sound
  closed := by
    intro file hFile hNot name hName
    by_cases hSame : file.path = path
    · rw [hSame] at hName ⊢
      exact hSeen name hName
    · exact hGood.closed file hFile (by simp [hSame, hNot]) name hName
  passed := hGood.passed

end Good

section Calls
variable {listing : Listing} {relativeRoot : Text} {paths : List Text}

/-- A call goes through, with what is known of the walk, and the path has been seen, or it
fails at something blocked at or below the path, or it is not deep enough. -/
def Outcome (listing : Listing) (relativeRoot : Text) (paths pending : List Text) (path : Text)
    (walk : Walk) (result : Option (Except CliprdrError Walk)) : Prop :=
  (∃ walk' : Walk, result = some (.ok walk') ∧ walk'.Good listing relativeRoot paths pending ∧
    walk.fileList ⊆ walk'.fileList ∧ Seen walk'.fileList path) ∨
  (∃ error, result = some (.error error) ∧ ∃ below, Below listing [path] below ∧ Blocked listing below) ∨
  result = none

/-- The entries of a directory that is listed are listed as well. -/
theorem listEntries_outcome {visit : Text → Walk → Option (Except CliprdrError Walk)}
    {dir : LocalFile} {pending : List Text} {names : List Text}
    (hVisit : ∀ name ∈ names, ∀ walk : Walk, walk.Good listing relativeRoot paths pending →
      dir ∈ walk.fileList →
      Outcome listing relativeRoot paths pending (entryPath dir.path name) walk
        (visit (entryPath dir.path name) walk))
    {walk : Walk} (hGood : walk.Good listing relativeRoot paths pending) (hDir : dir ∈ walk.fileList) :
    (∃ walk', listEntries visit dir.path (names.map some) walk = some (.ok walk') ∧
      walk'.Good listing relativeRoot paths pending ∧ walk.fileList ⊆ walk'.fileList ∧
      ∀ name ∈ names, Seen walk'.fileList (entryPath dir.path name)) ∨
    (∃ error, listEntries visit dir.path (names.map some) walk = some (.error error) ∧
      ∃ name ∈ names, ∃ below, Below listing [entryPath dir.path name] below ∧ Blocked listing below) ∨
    listEntries visit dir.path (names.map some) walk = none := by
  induction names generalizing walk with
  | nil => exact Or.inl ⟨walk, rfl, hGood, List.Subset.refl _, by simp⟩
  | cons name names ih =>
      have hCall := hVisit name List.mem_cons_self walk hGood hDir
      rw [List.map_cons, listEntries]
      rcases hCall with ⟨walk₁, hFirst, hGood₁, hSubset₁, hSeen₁⟩ |
        ⟨error, hFirst, below, hBelow, hBlocked⟩ | hFirst
      · unfold entryPath at hFirst
        rw [hFirst]
        rcases ih (fun other hOther => hVisit other (List.mem_cons_of_mem _ hOther)) hGood₁
          (hSubset₁ hDir) with ⟨walk₂, hRest, hGood₂, hSubset₂, hSeen₂⟩ |
            ⟨error, hRest, other, hOther, hFails⟩ | hRest
        · refine Or.inl ⟨walk₂, hRest, hGood₂, List.Subset.trans hSubset₁ hSubset₂, ?_⟩
          intro other hOther
          rcases List.mem_cons.mp hOther with rfl | hLater
          · exact hSeen₁.mono hSubset₂
          · exact hSeen₂ other hLater
        · exact Or.inr (Or.inl ⟨error, hRest, other, List.mem_cons_of_mem _ hOther, hFails⟩)
        · exact Or.inr (Or.inr hRest)
      · unfold entryPath at hFirst
        rw [hFirst]
        exact Or.inr (Or.inl ⟨error, rfl, name, List.mem_cons_self, below, hBelow, hBlocked⟩)
      · unfold entryPath at hFirst
        rw [hFirst]
        exact Or.inr (Or.inr rfl)

/-- Everything at or below a path is listed, unless something there is blocked. -/
theorem constrFileLst_outcome (hConsistent : Consistent listing) (depth : Nat) {path : Text}
    {pending : List Text} {walk : Walk} (hGood : walk.Good listing relativeRoot paths pending)
    (hPlaced : ¬ Seen walk.fileList path →
      ∀ mt, Placed listing paths walk.fileList (.tryOpen relativeRoot path mt)) :
    Outcome listing relativeRoot paths pending path walk
      (constrFileLst listing relativeRoot depth path walk) := by
  induction depth generalizing path pending walk with
  | zero => exact Or.inr (Or.inr rfl)
  | succ depth ih =>
      rw [constrFileLst]
      by_cases hSeen : Seen walk.fileList path
      · rw [if_pos ((hGood.sound.contains_iff path).mpr hSeen)]
        exact Or.inl ⟨walk, rfl, hGood, List.Subset.refl _, hSeen⟩
      · rw [if_neg (mt (hGood.sound.contains_iff path).mp hSeen)]
        have hSelf : Below listing [path] path := .selected List.mem_cons_self
        cases hMetadata : listing.metadata path with
        | none => exact Or.inr (Or.inl ⟨_, rfl, path, hSelf, Or.inl hMetadata⟩)
        | some mt =>
            dsimp only
            have hEnter := fun hFree => hGood.enter hMetadata hSeen (hPlaced hSeen mt) hFree
            have hSubset : walk.fileList ⊆ walk.fileList ++ [LocalFile.tryOpen relativeRoot path mt] :=
              List.subset_append_left _ _
            have hLast : LocalFile.tryOpen relativeRoot path mt ∈
                walk.fileList ++ [LocalFile.tryOpen relativeRoot path mt] :=
              List.mem_append_right _ List.mem_cons_self
            split
            · rename_i hDir
              cases hFound : listing.readDir path with
              | none => exact Or.inr (Or.inl ⟨_, rfl, path, hSelf, Or.inr ⟨mt, hMetadata, hDir, hFound⟩⟩)
              | some found =>
                  obtain ⟨names, rfl⟩ := hConsistent.named path mt found hMetadata hDir hFound
                  dsimp only
                  have hEntries : ∀ name ∈ names, IsEntry listing path name := fun name hName =>
                    ⟨mt, _, hMetadata, hDir, hFound, List.mem_map_of_mem hName⟩
                  have hVisit : ∀ name ∈ names, ∀ walk : Walk,
                      walk.Good listing relativeRoot paths (path :: pending) →
                      LocalFile.tryOpen relativeRoot path mt ∈ walk.fileList →
                      Outcome listing relativeRoot paths (path :: pending) (entryPath path name) walk
                        (constrFileLst listing relativeRoot depth (entryPath path name) walk) :=
                    fun name hName walk hGood hMem =>
                      ih hGood fun _ other => Or.inl ⟨_, hMem, name, hEntries name hName, rfl⟩
                  rcases listEntries_outcome hVisit (hEnter (not_blocked_of_readDir hMetadata hFound))
                      hLast with
                    ⟨walk₂, hList, hGood₂, hSubset₂, hSeen₂⟩ |
                      ⟨error, hList, name, hName, below, hBelow, hBlocked⟩ | hList
                  · refine Or.inl ⟨walk₂, hList, hGood₂.leave ?_, List.Subset.trans hSubset hSubset₂,
                      ⟨_, hSubset₂ hLast, rfl⟩⟩
                    rintro name ⟨mt', names', -, -, hNames', hMem⟩
                    obtain rfl := Option.some.inj (hFound.symm.trans hNames')
                    obtain ⟨found, hFoundName, hSameName⟩ := List.mem_map.mp hMem
                    obtain rfl := Option.some.inj hSameName
                    exact hSeen₂ found hFoundName
                  · refine Or.inr (Or.inl ⟨error, hList, below, hBelow.trans ?_, hBlocked⟩)
                    intro other hOther
                    rw [List.mem_singleton.mp hOther]
                    exact .entry hSelf (hEntries name hName)
                  · exact Or.inr (Or.inr hList)
            · rename_i hFile
              refine Or.inl ⟨_, rfl, (hEnter (not_blocked_of_file hMetadata hFile)).leave ?_, hSubset,
                ⟨_, hLast, rfl⟩⟩
              -- A file that is no directory has no entries.
              rintro name ⟨mt', -, hMetadata', hDir, -⟩
              obtain rfl := Option.some.inj (hMetadata.symm.trans hMetadata')
              exact absurd hDir hFile

/-- Once some paths have been seen, and nothing is still being listed, all below them has
been seen. -/
theorem seen_of_below (hConsistent : Consistent listing) {walk : Walk} (hClosed : walk.Closed listing [])
    {seen : List Text} (hSeen : ∀ path ∈ seen, Seen walk.fileList path) {path : Text}
    (hBelow : Below listing seen path) : Seen walk.fileList path := by
  induction hBelow with
  | selected hPath => exact hSeen _ hPath
  | entry hDir hName ih =>
      obtain ⟨file, hFile, hSame⟩ := ih
      have hFileName := hName.respelled hConsistent hSame.symm
      obtain ⟨found, hFound, hFoundSame⟩ := hClosed file hFile List.not_mem_nil _ hFileName
      refine ⟨found, hFound, hFoundSame.trans ?_⟩
      rw [hFileName.components_entryPath hConsistent, hName.components_entryPath hConsistent, hSame]

/-- The selection is listed path by path. -/
theorem listPaths_outcome (hConsistent : Consistent listing) (depth : Nat) {seen rest : List Text}
    (hPaths : paths = seen ++ rest) {walk : Walk} (hGood : walk.Good listing relativeRoot paths [])
    (hSeen : ∀ path ∈ seen, Seen walk.fileList path) :
    (∃ walk', listPaths listing relativeRoot depth rest walk = some (.ok walk') ∧
      walk'.Good listing relativeRoot paths [] ∧ ∀ path ∈ paths, Seen walk'.fileList path) ∨
    (∃ error, listPaths listing relativeRoot depth rest walk = some (.error error) ∧
      ∃ below, Below listing paths below ∧ Blocked listing below) ∨
    listPaths listing relativeRoot depth rest walk = none := by
  induction rest generalizing seen walk with
  | nil =>
      rw [List.append_nil] at hPaths
      exact Or.inl ⟨walk, rfl, hGood, hPaths ▸ hSeen⟩
  | cons path rest ih =>
      have hPlaced : ¬ Seen walk.fileList path →
          ∀ mt, Placed listing paths walk.fileList (.tryOpen relativeRoot path mt) := by
        refine fun _ mt => Or.inr ⟨seen.length, ?_, fun below hBelow => ?_⟩
        · rw [hPaths]
          simp [LocalFile.tryOpen]
        · rw [hPaths, List.take_left] at hBelow
          exact seen_of_below hConsistent hGood.closed hSeen hBelow
      rw [listPaths]
      rcases constrFileLst_outcome hConsistent depth hGood hPlaced with
        ⟨walk₁, hFirst, hGood₁, hSubset₁, hSeen₁⟩ | ⟨error, hFirst, below, hBelow, hBlocked⟩ | hFirst
      · rw [hFirst]
        refine ih (hPaths.trans (List.append_cons seen path rest)) hGood₁ (fun other hOther => ?_)
        rcases List.mem_append.mp hOther with hOld | hNew
        · exact (hSeen other hOld).mono hSubset₁
        · rw [List.mem_singleton.mp hNew]
          exact hSeen₁
      · rw [hFirst]
        refine Or.inr (Or.inl ⟨error, rfl, below, hBelow.trans fun other hOther => ?_, hBlocked⟩)
        rw [List.mem_singleton.mp hOther, hPaths]
        exact .selected (List.mem_append_right seen List.mem_cons_self)
      · rw [hFirst]
        exact Or.inr (Or.inr rfl)

theorem listEntries_isSome {visit : Text → Walk → Option (Except CliprdrError Walk)} {path : Text}
    {found : List (Option Text)} (hVisit : ∀ name, some name ∈ found → ∀ walk,
      (visit (Lexical.Platform.unix.join path name) walk).isSome = true) (walk : Walk) :
    (listEntries visit path found walk).isSome = true := by
  induction found generalizing walk with
  | nil => rfl
  | cons name found ih =>
      cases name with
      | none => rfl
      | some name =>
          rw [listEntries]
          obtain ⟨result, hResult⟩ := Option.isSome_iff_exists.mp (hVisit name List.mem_cons_self walk)
          rw [hResult]
          cases result with
          | error error => rfl
          | ok walk => exact ih (fun other hOther => hVisit other (List.mem_cons_of_mem _ hOther)) walk

/-- A call ends if the directories go no deeper. -/
theorem constrFileLst_isSome {depth : Nat} {path : Text} (hShallow : Shallow listing depth path)
    (walk : Walk) : (constrFileLst listing relativeRoot depth path walk).isSome = true := by
  induction depth generalizing path walk with
  | zero => exact hShallow.elim
  | succ depth ih =>
      rw [constrFileLst]
      split
      · rfl
      · cases hMetadata : listing.metadata path with
        | none => rfl
        | some mt =>
            dsimp only
            split
            · rename_i hDir
              cases hFound : listing.readDir path with
              | none => rfl
              | some found =>
                  refine listEntries_isSome (fun name hName walk => ?_) _
                  exact ih (hShallow name ⟨mt, found, hMetadata, hDir, hFound, hName⟩) walk
            · rfl

theorem listPaths_isSome {depth : Nat} {rest : List Text}
    (hShallow : ∀ path ∈ rest, Shallow listing depth path) (walk : Walk) :
    (listPaths listing relativeRoot depth rest walk).isSome = true := by
  induction rest generalizing walk with
  | nil => rfl
  | cons path rest ih =>
      obtain ⟨hPath, hRest⟩ := List.forall_mem_cons.mp hShallow
      rw [listPaths]
      obtain ⟨result, hResult⟩ := Option.isSome_iff_exists.mp
        (constrFileLst_isSome hPath walk)
      rw [hResult]
      cases result with
      | error error => rfl
      | ok walk => exact ih hRest walk

end Calls

/-- The list of a selection: everything at or below it, each file once and in its place. -/
structure Listed (listing : Listing) (relativeRoot : Text) (paths : List Text)
    (files : List LocalFile) : Prop where
  made : ∀ file ∈ files, ∃ mt, listing.metadata file.path = some mt ∧
    file = .tryOpen relativeRoot file.path mt
  distinct : (files.map fun file => components file.path).Nodup
  placed : Trace.Along (Placed listing paths) files
  covers : ∀ path, Below listing paths path → Seen files path

section Selections
variable {listing : Listing} {first relativeRoot : Text} {rest : List Text}

/-- A selection is listed unless something at or below it is blocked, if the directories go
no deeper. -/
theorem constructFileList_outcome (hConsistent : Consistent listing) (depth : Nat) (rest : List Text)
    (hParent : Lexical.Unix.parent first = some relativeRoot) :
    (∃ files, constructFileList listing depth (first :: rest) = some (.ok files) ∧
      Listed listing relativeRoot (first :: rest) files ∧
      ∀ path, Below listing (first :: rest) path → ¬ Blocked listing path) ∨
    (∃ error, constructFileList listing depth (first :: rest) = some (.error error) ∧
      ∃ path, Below listing (first :: rest) path ∧ Blocked listing path) ∨
    constructFileList listing depth (first :: rest) = none := by
  have hGood : Walk.Good listing relativeRoot (first :: rest) [] { fileList := [], visited := [] } :=
    ⟨⟨rfl, by simp, by simp, Trace.Along.nil⟩, (fun _ hFile => by cases hFile),
      (fun _ hFile => by cases hFile)⟩
  have hNothing : first :: rest = [] ++ first :: rest := rfl
  have hList : constructFileList listing depth (first :: rest) =
      (listPaths listing relativeRoot depth (first :: rest) { fileList := [], visited := [] }).map
        fun result => result.map (·.fileList) := by
    unfold constructFileList
    dsimp only
    rw [hParent]
  rw [hList]
  rcases listPaths_outcome hConsistent depth hNothing hGood (by simp) with
    ⟨walk, hWalk, ⟨hSound, hClosed, hPassed⟩, hSeen⟩ | ⟨error, hWalk, hBlocked⟩ | hWalk
  · rw [hWalk]
    have hCovers := fun path (hBelow : Below listing (first :: rest) path) =>
      seen_of_below hConsistent hClosed hSeen hBelow
    refine Or.inl ⟨walk.fileList, rfl, ⟨hSound.made, hSound.distinct, hSound.placed, hCovers⟩, ?_⟩
    intro path hBelow hBlocked
    obtain ⟨file, hFile, hSame⟩ := hCovers path hBelow
    exact hPassed file hFile (hBlocked.respelled hConsistent hSame.symm)
  · rw [hWalk]
    exact Or.inr (Or.inl ⟨error, rfl, hBlocked⟩)
  · rw [hWalk]
    exact Or.inr (Or.inr rfl)

theorem constructFileList_isSome {depth : Nat} (hShallow : ∀ path ∈ first :: rest, Shallow listing depth path) :
    (constructFileList listing depth (first :: rest)).isSome = true := by
  unfold constructFileList
  dsimp only
  split
  · rfl
  · rw [Option.isSome_map]
    exact listPaths_isSome hShallow _

/-- A selection in a forest is listed. -/
theorem constructFileList_spec (hForest : Forest listing) {depth : Nat}
    (hShallow : ∀ path ∈ first :: rest, Shallow listing depth path)
    (hExists : ∀ path ∈ first :: rest, (listing.metadata path).isSome = true)
    (hParent : Lexical.Unix.parent first = some relativeRoot) :
    ∃ files, constructFileList listing depth (first :: rest) = some (.ok files) ∧
      Listed listing relativeRoot (first :: rest) files := by
  have hSome := constructFileList_isSome hShallow
  rcases constructFileList_outcome hForest.consistent depth rest hParent with
    ⟨files, hList, hListed, -⟩ | ⟨-, -, path, hBelow, hBlocked⟩ | hNone
  · exact ⟨files, hList, hListed⟩
  · exact absurd hBlocked (hForest.not_blocked hExists hBelow)
  · rw [hNone] at hSome
    cases hSome

end Selections

namespace Listed
variable {listing : Listing} {relativeRoot : Text} {paths : List Text} {files : List LocalFile}
  (hListed : Listed listing relativeRoot paths files)
include hListed

/-- Nothing else is listed. -/
theorem below {file : LocalFile} (hFile : file ∈ files) : Below listing paths file.path := by
  obtain ⟨before, after, hSplit⟩ := List.append_of_mem hFile
  have hAll : ∀ before file after, files = before ++ file :: after → Below listing paths file.path := by
    intro before
    induction hLength : before.length using Nat.strong_induction_on generalizing before with
    | _ n ih =>
        intro file after hSplit
        rcases hListed.placed before file after hSplit with ⟨dir, hDir, name, hName, hPath⟩ | ⟨k, hk, -⟩
        · obtain ⟨front, back, rfl⟩ := List.append_of_mem hDir
          rw [hPath]
          refine .entry (ih front.length ?_ front rfl dir (back ++ file :: after) ?_) hName
          · rw [← hLength, List.length_append, List.length_cons]
            omega
          · rw [hSplit, List.append_assoc, List.cons_append]
        · exact .selected (List.mem_of_getElem? hk)
  exact hAll before file after hSplit

end Listed

end HibtDesk.Clipboard
