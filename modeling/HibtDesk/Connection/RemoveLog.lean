import HibtDesk.Library.Trace
import HibtDesk.Library.UnixPath
import Mathlib.Logic.Relation

/-! The log of what a peer removes. What is removed within a second is collected, and a
directory is to stand for what was removed in it before. -/
namespace HibtDesk.RemoveLog

/-- The characters of a string. -/
abbrev Text := List Char

/-- The part of `FileRemoveFile` that is logged, with the number of the call, which tells
equal ones apart. -/
structure FileRemoveFile where
  call : Nat
  id : Int
  path : Text
  deriving DecidableEq, Repr

/-- The part of `FileRemoveDir` that is logged, with the number of the call. -/
structure FileRemoveDir where
  call : Nat
  id : Int
  path : Text
  deriving DecidableEq, Repr

/-- An entry that is sent, with the number of the call that it is about. -/
structure FileActionLog where
  call : Nat
  id : Int
  connId : Int
  path : Text
  dir : Bool
  deriving DecidableEq, Repr

/-- Instants are in milliseconds. `calls` counts the calls. -/
structure FileRemoveLogControl where
  connId : Int
  instant : Nat
  removedFiles : List FileRemoveFile
  removedDirs : List FileRemoveDir
  calls : Nat
  deriving DecidableEq, Repr

/-- What `std::path` does: paths that are the same are one, and most have a parent. -/
structure Paths (Path : Type) where
  pathBuf : Text → Path
  parent : Path → Option Path

/-- On Unix a path is its components. -/
def Paths.unix : Paths (List Lexical.Unix.Component) where
  pathBuf := Lexical.Unix.components
  parent := fun components =>
    match components.getLast? with
    | none | some .rootDir => none
    | some _ => some components.dropLast

/-- A call while something is removed, at an instant. -/
inductive Call where
  | removeFile (now : Nat) (id : Int) (path : Text)
  | removeDir (now : Nat) (id : Int) (path : Text)
  deriving DecidableEq, Repr

section Control
variable {Path : Type} [DecidableEq Path] (paths : Paths Path)

/-- The closure of `on_remove_dir`. -/
def directChild (parent child : Text) : Bool :=
  paths.parent (paths.pathBuf child) = some (paths.pathBuf parent)

namespace FileRemoveLogControl

def new (connId : Int) (now : Nat) : FileRemoveLogControl := ⟨connId, now, [], [], 0⟩

/-- `FileRemoveLogControl::on_remove_file`. -/
def onRemoveFile (control : FileRemoveLogControl) (now : Nat) (id : Int) (path : Text) :
    FileRemoveLogControl × Option FileActionLog :=
  ({ control with
      instant := now
      removedFiles := control.removedFiles ++ [⟨control.calls, id, path⟩]
      calls := control.calls + 1 },
    some ⟨control.calls, id, control.connId, path, false⟩)

/-- `FileRemoveLogControl::on_remove_dir`. -/
def onRemoveDir (control : FileRemoveLogControl) (now : Nat) (id : Int) (path : Text) :
    FileRemoveLogControl × Option FileActionLog :=
  let removedFiles := control.removedFiles.filter fun f => !directChild paths f.path path
  let removedDirs := control.removedDirs.filter fun x => !directChild paths path x.path
  let removedDirs :=
    if !removedDirs.any fun x => directChild paths x.path path then
      removedDirs ++ [⟨control.calls, id, path⟩]
    else removedDirs
  ({ control with instant := now, removedFiles, removedDirs, calls := control.calls + 1 },
    some ⟨control.calls, id, control.connId, path, true⟩)

/-- `FileRemoveLogControl::on_timer`. -/
def onTimer (control : FileRemoveLogControl) (now : Nat) : FileRemoveLogControl × List FileActionLog :=
  if (now - control.instant) / 1000 < 1 then (control, [])
  else
    ({ control with removedFiles := [], removedDirs := [] },
      control.removedFiles.map (fun f => ⟨f.call, f.id, control.connId, f.path, false⟩) ++
        control.removedDirs.map fun d => ⟨d.call, d.id, control.connId, d.path, true⟩)

def step (control : FileRemoveLogControl) : Call → FileRemoveLogControl
  | .removeFile now id path => (control.onRemoveFile now id path).1
  | .removeDir now id path => (control.onRemoveDir paths now id path).1

end FileRemoveLogControl

/-- A file was removed by the n-th call, by the path. -/
def FileAt (calls : List Call) (n : Nat) (path : Text) : Prop :=
  ∃ now id, calls[n]? = some (.removeFile now id path)

/-- A directory was removed by the n-th call, by the path. -/
def DirAt (calls : List Call) (n : Nat) (path : Text) : Prop :=
  ∃ now id, calls[n]? = some (.removeDir now id path)

/-- `dir` is the path or a directory above it. -/
def Above (dir path : Text) : Prop :=
  Relation.ReflTransGen (fun up p => paths.parent p = some up) (paths.pathBuf dir) (paths.pathBuf path)

/-- A file is forgotten where a later directory lies in it, as if it were a directory: the
closure has its arguments the other way round there. -/
def Dropped (calls : List Call) (n : Nat) (path : Text) : Prop :=
  ∃ later dir, n < later ∧ DirAt calls later dir ∧ directChild paths path dir = true

/-- Every path is covered by an entry, its own or one of a directory above it, and no entry
is left whose directory was removed after it. -/
def Coalesced (calls : List Call) (entries : List FileActionLog) : Prop :=
  (∀ n path, FileAt calls n path ∨ DirAt calls n path →
      ∃ entry ∈ entries, paths.pathBuf entry.path = paths.pathBuf path ∨
        entry.dir = true ∧ Above paths entry.path path) ∧
    ∀ entry ∈ entries, ∀ later dir, entry.call < later → DirAt calls later dir →
      directChild paths dir entry.path = false

/-- A file that is not forgotten is not followed by the removal of its directory; and one that
is forgotten is covered by another removal. -/
def FoldsFiles (calls : List Call) : Prop :=
  ∀ n path, FileAt calls n path →
    (¬ Dropped paths calls n path →
        ∀ later dir, n < later → DirAt calls later dir → directChild paths dir path = false) ∧
      (Dropped paths calls n path →
        (∃ other same, FileAt calls other same ∧ paths.pathBuf same = paths.pathBuf path ∧
            ¬ Dropped paths calls other same) ∨
          ∃ k dir, DirAt calls k dir ∧ Above paths dir path)

section Calls
variable {calls : List Call} {call : Call} {n : Nat} {path : Text}

theorem getElem?_concat_iff {c : Call} :
    (calls ++ [call])[n]? = some c ↔ calls[n]? = some c ∨ n = calls.length ∧ call = c := by
  rcases lt_trichotomy n calls.length with hLt | rfl | hGt
  · rw [List.getElem?_append_left hLt]
    exact ⟨Or.inl, fun h => h.resolve_right fun hLast => absurd hLast.1 hLt.ne⟩
  · rw [List.getElem?_concat_length]
    constructor
    · exact fun h => Or.inr ⟨rfl, Option.some.inj h⟩
    · rintro (h | ⟨-, rfl⟩)
      · rw [List.getElem?_eq_none le_rfl] at h
        exact absurd h.symm (Option.some_ne_none c)
      · rfl
  · have hNone : (calls ++ [call])[n]? = none := by
      rw [List.getElem?_eq_none_iff, List.length_append]
      exact hGt
    rw [hNone, List.getElem?_eq_none hGt.le]
    constructor
    · exact fun h => absurd h.symm (Option.some_ne_none c)
    · rintro (h | ⟨hLast, -⟩)
      · exact absurd h.symm (Option.some_ne_none c)
      · exact absurd hLast hGt.ne'

theorem exists_concat_iff {make : Nat → Int → Call} :
    (∃ now id, (calls ++ [call])[n]? = some (make now id)) ↔
      (∃ now id, calls[n]? = some (make now id)) ∨ n = calls.length ∧ ∃ now id, call = make now id := by
  simp only [getElem?_concat_iff]
  constructor
  · rintro ⟨now, id, h | ⟨hLast, hCall⟩⟩
    · exact Or.inl ⟨now, id, h⟩
    · exact Or.inr ⟨hLast, now, id, hCall⟩
  · rintro (⟨now, id, h⟩ | ⟨hLast, now, id, hCall⟩)
    · exact ⟨now, id, Or.inl h⟩
    · exact ⟨now, id, Or.inr ⟨hLast, hCall⟩⟩

theorem fileAt_concat :
    FileAt (calls ++ [call]) n path ↔
      FileAt calls n path ∨ n = calls.length ∧ ∃ now id, call = .removeFile now id path :=
  exists_concat_iff

theorem dirAt_concat :
    DirAt (calls ++ [call]) n path ↔
      DirAt calls n path ∨ n = calls.length ∧ ∃ now id, call = .removeDir now id path :=
  exists_concat_iff

theorem FileAt.lt (h : FileAt calls n path) : n < calls.length := by
  obtain ⟨now, id, hCall⟩ := h
  exact (List.getElem?_eq_some_iff.mp hCall).1

theorem DirAt.lt (h : DirAt calls n path) : n < calls.length := by
  obtain ⟨now, id, hCall⟩ := h
  exact (List.getElem?_eq_some_iff.mp hCall).1

omit [DecidableEq Path] in
theorem Above.refl : Above paths path path := Relation.ReflTransGen.refl

omit [DecidableEq Path] in
theorem Above.trans {dir up : Text} (hUp : Above paths up dir) (hDir : Above paths dir path) :
    Above paths up path := Relation.ReflTransGen.trans hUp hDir

theorem above_of_directChild {parent : Text} (hChild : directChild paths parent path = true) :
    Above paths parent path := Relation.ReflTransGen.single (of_decide_eq_true hChild)

end Calls

/-- What the two lists are after some calls: files that are not forgotten, directories whose own
directory was not removed later, and these are above all that were removed. -/
structure Collected (calls : List Call) (control : FileRemoveLogControl) : Prop where
  counted : control.calls = calls.length
  files : ∀ f ∈ control.removedFiles, FileAt calls f.call f.path ∧ ¬ Dropped paths calls f.call f.path
  kept : ∀ n path, FileAt calls n path → ¬ Dropped paths calls n path →
    ∃ f ∈ control.removedFiles, f.call = n ∧ f.path = path
  dirs : ∀ d ∈ control.removedDirs, DirAt calls d.call d.path ∧
    ∀ later dir, d.call < later → DirAt calls later dir → directChild paths dir d.path = false
  covers : ∀ n path, DirAt calls n path → ∃ d ∈ control.removedDirs, Above paths d.path path

variable {paths} {calls : List Call} {control : FileRemoveLogControl}

theorem collected_new (connId : Int) (now : Nat) : Collected paths [] (.new connId now) where
  counted := rfl
  files := fun _ hMem => absurd hMem List.not_mem_nil
  kept := fun _ _ hFile => absurd hFile.lt (Nat.not_lt_zero _)
  dirs := fun _ hMem => absurd hMem List.not_mem_nil
  covers := fun _ _ hDir => absurd hDir.lt (Nat.not_lt_zero _)

/-- The last call comes after all others. -/
theorem not_dirAt_after {call : Call} {later : Nat} {dir : Text} (hLater : calls.length < later) :
    ¬ DirAt (calls ++ [call]) later dir := by
  intro hDir
  have hLt := hDir.lt
  rw [List.length_append, List.length_singleton] at hLt
  omega

theorem dirAt_removeFile {now : Nat} {id : Int} {file dir : Text} {n : Nat} :
    DirAt (calls ++ [.removeFile now id file]) n dir ↔ DirAt calls n dir := by
  rw [dirAt_concat]
  refine ⟨fun h => h.resolve_right ?_, Or.inl⟩
  rintro ⟨-, _, _, hCall⟩
  cases hCall

theorem fileAt_removeDir {now : Nat} {id : Int} {file dir : Text} {n : Nat} :
    FileAt (calls ++ [.removeDir now id dir]) n file ↔ FileAt calls n file := by
  rw [fileAt_concat]
  refine ⟨fun h => h.resolve_right ?_, Or.inl⟩
  rintro ⟨-, _, _, hCall⟩
  cases hCall

theorem dirAt_removeDir {now : Nat} {id : Int} {dir other : Text} {n : Nat} :
    DirAt (calls ++ [.removeDir now id dir]) n other ↔ DirAt calls n other ∨ n = calls.length ∧ other = dir := by
  rw [dirAt_concat]
  refine or_congr_right (and_congr_right fun _ => ⟨?_, ?_⟩)
  · rintro ⟨_, _, hCall⟩
    cases hCall
    rfl
  · rintro rfl
    exact ⟨now, id, rfl⟩

theorem Collected.removeFile (h : Collected paths calls control) (now : Nat) (id : Int) (path : Text) :
    Collected paths (calls ++ [.removeFile now id path]) (control.onRemoveFile now id path).1 where
  counted := by
    rw [List.length_append, ← h.counted]
    rfl
  files := by
    intro f hMem
    rcases List.mem_append.mp hMem with hOld | hNew
    · obtain ⟨hFile, hKept⟩ := h.files f hOld
      refine ⟨fileAt_concat.mpr (Or.inl hFile), ?_⟩
      rintro ⟨later, dir, hLater, hDir, hChild⟩
      exact hKept ⟨later, dir, hLater, dirAt_removeFile.mp hDir, hChild⟩
    · rw [List.mem_singleton.mp hNew]
      refine ⟨fileAt_concat.mpr (Or.inr ⟨h.counted, now, id, rfl⟩), ?_⟩
      rintro ⟨later, dir, hLater, hDir, -⟩
      exact not_dirAt_after (h.counted ▸ hLater) hDir
  kept := by
    intro n file hFile hNot
    rcases fileAt_concat.mp hFile with hOld | ⟨rfl, _, _, hCall⟩
    · have hNotOld : ¬ Dropped paths calls n file := by
        rintro ⟨later, dir, hLater, hDir, hChild⟩
        exact hNot ⟨later, dir, hLater, dirAt_removeFile.mpr hDir, hChild⟩
      obtain ⟨f, hMem, hSame⟩ := h.kept n file hOld hNotOld
      exact ⟨f, List.mem_append_left _ hMem, hSame⟩
    · cases hCall
      exact ⟨_, List.mem_append_right _ (List.mem_singleton_self _), h.counted, rfl⟩
  dirs := by
    intro d hMem
    obtain ⟨hDir, hLast⟩ := h.dirs d hMem
    exact ⟨dirAt_removeFile.mpr hDir, fun later dir hLater hOther =>
      hLast later dir hLater (dirAt_removeFile.mp hOther)⟩
  covers := fun n dir hDir => h.covers n dir (dirAt_removeFile.mp hDir)

theorem Collected.removeDir (h : Collected paths calls control) (now : Nat) (id : Int) (path : Text) :
    Collected paths (calls ++ [.removeDir now id path]) (control.onRemoveDir paths now id path).1 := by
  unfold FileRemoveLogControl.onRemoveDir
  dsimp only
  refine ⟨?_, fun f hMem => ?_, fun n file hFile hNot => ?_, fun d hMem => ?_, fun n dir hDir => ?_⟩
  · rw [List.length_append, ← h.counted]
    rfl
  · obtain ⟨hOld, hNoChild⟩ := List.mem_filter.mp hMem
    obtain ⟨hFile, hKept⟩ := h.files f hOld
    refine ⟨fileAt_removeDir.mpr hFile, ?_⟩
    rintro ⟨later, dir, hLater, hDir, hChild⟩
    rcases dirAt_removeDir.mp hDir with hBefore | ⟨-, rfl⟩
    · exact hKept ⟨later, dir, hLater, hBefore, hChild⟩
    · rw [hChild] at hNoChild
      exact absurd hNoChild Bool.false_ne_true
  · have hOld := fileAt_removeDir.mp hFile
    have hNotOld : ¬ Dropped paths calls n file := by
      rintro ⟨later, dir, hLater, hDir, hChild⟩
      exact hNot ⟨later, dir, hLater, dirAt_removeDir.mpr (Or.inl hDir), hChild⟩
    obtain ⟨f, hMem, rfl, rfl⟩ := h.kept n file hOld hNotOld
    refine ⟨f, List.mem_filter.mpr ⟨hMem, ?_⟩, rfl, rfl⟩
    cases hChild : directChild paths f.path path with
    | false => rfl
    | true => exact absurd ⟨_, path, hOld.lt, dirAt_removeDir.mpr (Or.inr ⟨rfl, rfl⟩), hChild⟩ hNot
  · have hFiltered : ∀ x ∈ control.removedDirs.filter fun x => !directChild paths path x.path,
        DirAt (calls ++ [.removeDir now id path]) x.call x.path ∧ ∀ later dir, x.call < later →
          DirAt (calls ++ [.removeDir now id path]) later dir → directChild paths dir x.path = false := by
      intro x hMem
      obtain ⟨hOld, hNoChild⟩ := List.mem_filter.mp hMem
      obtain ⟨hDir, hLast⟩ := h.dirs x hOld
      refine ⟨dirAt_removeDir.mpr (Or.inl hDir), fun later dir hLater hOther => ?_⟩
      rcases dirAt_removeDir.mp hOther with hBefore | ⟨-, rfl⟩
      · exact hLast later dir hLater hBefore
      · simpa using hNoChild
    split_ifs at hMem
    · rcases List.mem_append.mp hMem with hOld | hNew
      · exact hFiltered d hOld
      · rw [List.mem_singleton.mp hNew]
        refine ⟨dirAt_removeDir.mpr (Or.inr ⟨h.counted, rfl⟩), fun later dir hLater hOther => ?_⟩
        exact absurd hOther (not_dirAt_after (h.counted ▸ hLater))
    · exact hFiltered d hMem
  · generalize hDirs : control.removedDirs.filter (fun x => !directChild paths path x.path) = filtered
    have hOwn : ∃ d ∈ (if !filtered.any fun x => directChild paths x.path path then
        filtered ++ [⟨control.calls, id, path⟩] else filtered), Above paths d.path path := by
      cases hAny : filtered.any fun x => directChild paths x.path path with
      | true =>
          obtain ⟨x, hMem, hChild⟩ := List.any_eq_true.mp hAny
          exact ⟨x, hMem, above_of_directChild paths hChild⟩
      | false => exact ⟨_, List.mem_append_right _ (List.mem_singleton_self _), Above.refl paths⟩
    rcases dirAt_removeDir.mp hDir with hBefore | ⟨-, rfl⟩
    · obtain ⟨d, hMem, hAbove⟩ := h.covers n dir hBefore
      cases hChild : directChild paths path d.path with
      | true =>
          obtain ⟨own, hOwnMem, hOwnAbove⟩ := hOwn
          exact ⟨own, hOwnMem, (hOwnAbove.trans paths (above_of_directChild paths hChild)).trans paths hAbove⟩
      | false =>
          have hFiltered : d ∈ filtered := by
            rw [← hDirs]
            exact List.mem_filter.mpr ⟨hMem, by rw [hChild]; rfl⟩
          refine ⟨d, ?_, hAbove⟩
          split_ifs
          · exact List.mem_append_left _ hFiltered
          · exact hFiltered
    · exact hOwn

/-- The control after some calls. -/
def afterCalls (paths : Paths Path) (connId : Int) (start : Nat) (calls : List Call) : FileRemoveLogControl :=
  Trace.run (FileRemoveLogControl.step paths) (.new connId start) calls

theorem collected_afterCalls (paths : Paths Path) (connId : Int) (start : Nat) (calls : List Call) :
    Collected paths calls (afterCalls paths connId start calls) := by
  unfold afterCalls
  induction calls using List.reverseRecOn with
  | nil => exact collected_new connId start
  | append_singleton calls call ih =>
      rw [Trace.run_append]
      cases call with
      | removeFile now id path => exact ih.removeFile now id path
      | removeDir now id path => exact ih.removeDir now id path

/-- A second after the last call the timer sends what is collected. -/
theorem mem_onTimer_iff {control : FileRemoveLogControl} {now : Nat} (hLater : control.instant + 1000 ≤ now)
    (entry : FileActionLog) :
    entry ∈ (control.onTimer now).2 ↔
      (∃ f ∈ control.removedFiles, entry = ⟨f.call, f.id, control.connId, f.path, false⟩) ∨
        ∃ d ∈ control.removedDirs, entry = ⟨d.call, d.id, control.connId, d.path, true⟩ := by
  have hSecond : ¬ (now - control.instant) / 1000 < 1 := by omega
  unfold FileRemoveLogControl.onTimer
  rw [if_neg hSecond, List.mem_append, List.mem_map, List.mem_map]
  simp only [eq_comm]

/-- The entries cover all removals and fold what they can, exactly if the files do. -/
theorem coalesced_iff (paths : Paths Path) (connId : Int) (start : Nat) (calls : List Call) {now : Nat}
    (hLater : (afterCalls paths connId start calls).instant + 1000 ≤ now) :
    Coalesced paths calls ((afterCalls paths connId start calls).onTimer now).2 ↔ FoldsFiles paths calls := by
  have hCollected := collected_afterCalls paths connId start calls
  have hEntries := mem_onTimer_iff hLater
  generalize afterCalls paths connId start calls = control at hCollected hEntries
  constructor
  · rintro ⟨hCovered, hFolded⟩ n path hFile
    refine ⟨fun hKept => ?_, fun hDropped => ?_⟩
    · obtain ⟨f, hMem, rfl, rfl⟩ := hCollected.kept n path hFile hKept
      exact hFolded _ ((hEntries _).mpr (Or.inl ⟨f, hMem, rfl⟩))
    · obtain ⟨entry, hEntry, hCovers⟩ := hCovered n path (Or.inl hFile)
      rcases (hEntries entry).mp hEntry with ⟨f, hMem, rfl⟩ | ⟨d, hMem, rfl⟩
      · obtain ⟨hOther, hKept⟩ := hCollected.files f hMem
        have hSame := hCovers.resolve_right fun hDir => Bool.false_ne_true hDir.1
        exact Or.inl ⟨f.call, f.path, hOther, hSame, hKept⟩
      · refine Or.inr ⟨d.call, d.path, (hCollected.dirs d hMem).1, ?_⟩
        rcases hCovers with hSame | ⟨-, hAbove⟩
        · unfold Above
          rw [show paths.pathBuf d.path = paths.pathBuf path from hSame]
        · exact hAbove
  · intro hFolds
    have hDirCovered : ∀ n path, DirAt calls n path →
        ∃ entry ∈ (control.onTimer now).2, entry.dir = true ∧ Above paths entry.path path := by
      intro n path hDir
      obtain ⟨d, hMem, hAbove⟩ := hCollected.covers n path hDir
      exact ⟨_, (hEntries _).mpr (Or.inr ⟨d, hMem, rfl⟩), rfl, hAbove⟩
    refine ⟨fun n path hRemoved => ?_, fun entry hEntry => ?_⟩
    · rcases hRemoved with hFile | hDir
      · by_cases hDropped : Dropped paths calls n path
        · rcases (hFolds n path hFile).2 hDropped with ⟨other, same, hOther, hSame, hKept⟩ | ⟨k, dir, hDir, hAbove⟩
          · obtain ⟨f, hMem, rfl, rfl⟩ := hCollected.kept other same hOther hKept
            exact ⟨_, (hEntries _).mpr (Or.inl ⟨f, hMem, rfl⟩), Or.inl hSame⟩
          · obtain ⟨entry, hEntry, hIsDir, hEntryAbove⟩ := hDirCovered k dir hDir
            exact ⟨entry, hEntry, Or.inr ⟨hIsDir, hEntryAbove.trans paths hAbove⟩⟩
        · obtain ⟨f, hMem, rfl, rfl⟩ := hCollected.kept n path hFile hDropped
          exact ⟨_, (hEntries _).mpr (Or.inl ⟨f, hMem, rfl⟩), Or.inl rfl⟩
      · obtain ⟨entry, hEntry, hAbove⟩ := hDirCovered n path hDir
        exact ⟨entry, hEntry, Or.inr hAbove⟩
    · rcases (hEntries entry).mp hEntry with ⟨f, hMem, rfl⟩ | ⟨d, hMem, rfl⟩
      · obtain ⟨hFile, hKept⟩ := hCollected.files f hMem
        exact (hFolds f.call f.path hFile).1 hKept
      · exact (hCollected.dirs d hMem).2

end Control

/-- Two files of one directory. -/
def twoFiles : List Call := [.removeFile 5 1 ['/', 'd', '/', 'f'], .removeFile 6 1 ['/', 'd', '/', 'g']]

theorem twoFiles_coalesced :
    (afterCalls .unix 7 0 twoFiles).instant + 1000 ≤ 2000 ∧
      (Coalesced .unix twoFiles ((afterCalls .unix 7 0 twoFiles).onTimer 2000).2 ↔
        FoldsFiles .unix twoFiles) :=
  ⟨by decide, coalesced_iff .unix 7 0 twoFiles (by decide)⟩

/-- A file, and then its directory. -/
def fileThenDir : List Call := [.removeFile 5 1 ['/', 'd', '/', 'f'], .removeDir 6 1 ['/', 'd']]

/-- The file is sent although its directory is. -/
theorem fileThenDir_not_coalesced :
    ¬ Coalesced .unix fileThenDir ((afterCalls .unix 7 0 fileThenDir).onTimer 2000).2 := by
  rintro ⟨-, hFolded⟩
  have hEntry : (⟨0, 1, 7, ['/', 'd', '/', 'f'], false⟩ : FileActionLog) ∈
      ((afterCalls .unix 7 0 fileThenDir).onTimer 2000).2 := by decide
  have hChild := hFolded _ hEntry 1 ['/', 'd'] (by decide) ⟨6, 1, rfl⟩
  exact absurd hChild (by decide)

end HibtDesk.RemoveLog
