import HibtDesk.Clipboard.Pasting
import HibtDesk.Library.SymbolicLinks

/-! The list of the copied files where symbolic links lead from one directory to another.
The paths that have been seen keep no track of what they lead to, so a link that leads back
is followed again and again, until the system gives up on its path. -/
namespace HibtDesk.Clipboard

open Lexical (Text)
open Lexical.Unix (components Component LinkedTree Node Place)

/-- A directory holds what the path names. -/
def Holds (listing : Listing) (dir path : Text) : Prop :=
  ∃ name, IsEntry listing dir name ∧ components path = components dir ++ [.normal name]

/-- A finite file system, with the directories that can be read and the one at hand. -/
structure LinkedFiles where
  tree : LinkedTree
  info : Nat → Metadata
  readable : Nat → Bool
  cwd : Place

namespace LinkedFiles

section Model
variable (files : LinkedFiles)

def place (path : Text) : Option Place := files.tree.locate files.cwd path

/-- What a path really is. -/
def identity (path : Text) : Option Nat := (files.place path).map (·.headD 0)

def listing : Listing where
  metadata path :=
    (files.place path).bind fun place =>
      match files.tree.node place with
      | some (.dir _) => some { files.info (place.headD 0) with isDir := true }
      | some .file => some { files.info (place.headD 0) with isDir := false }
      | _ => none
  readDir path :=
    (files.place path).bind fun place =>
      match files.tree.node place with
      | some (.dir entries) =>
          if files.readable (place.headD 0) then some ((entries.map Prod.fst).map some) else none
      | _ => none

/-- A path from a selected one on, with the places it comes through, the last one first. -/
inductive Trail (paths : List Text) : Text → List Place → Prop where
  | selected {path : Text} {place : Place} (hPath : path ∈ paths)
      (hPlace : files.place path = some place) : Trail paths path [place]
  | entry {dir name : Text} {places : List Place} {place : Place} (hDir : Trail paths dir places)
      (hName : IsEntry files.listing dir name)
      (hPlace : files.place (entryPath dir name) = some place) :
      Trail paths (entryPath dir name) (place :: places)

/-- A path, in some spelling, comes through no place twice. -/
def CycleFree (paths : List Text) (cs : List Component) : Prop :=
  ∃ path places, components path = cs ∧ files.Trail paths path places ∧ places.Nodup

def cycleFreePaths (paths : List Text) (node : Nat) : Set (List Component) :=
  {cs | files.CycleFree paths cs ∧ ∃ path, components path = cs ∧ files.identity path = some node}

/-- Each file of the list comes after its directory, if that is listed, and no file is there
more often than there are cycle-free paths to it. -/
structure ListedOnce (paths : List Text) (list : List LocalFile) : Prop where
  ordered : ∀ before file after, list = before ++ file :: after →
    (∃ dir ∈ before, Holds files.listing dir.path file.path) ∨
      (file.path ∈ paths ∧ ∀ dir ∈ list, ¬ Holds files.listing dir.path file.path)
  counted : ∀ node,
    ((list.filter fun file => files.identity file.path == some node).length : ℕ∞) ≤
      (files.cycleFreePaths paths node).encard

/-- The selection has a root; whatever is at or below it can be read; and what a directory in
it holds is not selected before that directory is reached. -/
structure Listable (paths : List Text) : Prop where
  rooted : ∃ first rest relativeRoot, paths = first :: rest ∧ Lexical.Unix.parent first = some relativeRoot
  free : ∀ path, Below files.listing paths path → ¬ Blocked files.listing path
  sorted : ∀ (k : Nat) (path : Text), paths[k]? = some path → ∀ dir, Below files.listing paths dir →
    Holds files.listing dir path →
      ∃ earlier, Below files.listing (paths.take k) earlier ∧ components earlier = components path

/-- The path goes on from another one by these names. -/
inductive Descends (base : Text) : List Text → Text → Prop where
  | here : Descends base [] base
  | entry {names : List Text} {dir name : Text} (hDir : Descends base names dir)
      (hName : IsEntry files.listing dir name) : Descends base (names ++ [name]) (entryPath dir name)

/-- How deep the directories go before the system gives up. -/
def limit : Nat := (files.tree.maxLinks + 1) * files.tree.nodes.length

end Model

section Listing
variable {files : LinkedFiles} {path : Text}

theorem place_congr {other : Text} (hSame : components path = components other) :
    files.place path = files.place other := by
  unfold place LinkedTree.locate
  rw [hSame]

theorem readDir_eq_some {found : List (Option Text)} (hFound : files.listing.readDir path = some found) :
    ∃ place entries, files.place path = some place ∧ files.tree.node place = some (Node.dir entries) ∧
      found = (entries.map Prod.fst).map some := by
  obtain ⟨place, hPlace, hRead⟩ := Option.bind_eq_some_iff.mp hFound
  split at hRead
  · rename_i entries hNode
    split at hRead
    · exact ⟨place, entries, hPlace, hNode, (Option.some.inj hRead).symm⟩
    · cases hRead
  · cases hRead

theorem consistent_listing (files : LinkedFiles) : Consistent files.listing where
  spelled := by
    intro p q hSame
    unfold listing
    simp only [place_congr hSame, and_self]
  plain := by
    rintro dir name ⟨-, found, -, -, hFound, hMem⟩
    obtain ⟨place, entries, -, hNode, rfl⟩ := readDir_eq_some hFound
    obtain ⟨other, hOther, hSame⟩ := List.mem_map.mp hMem
    obtain ⟨entry, hEntry, hName⟩ := List.mem_map.mp hOther
    rw [← Option.some.inj hSame, ← hName]
    exact (files.tree.ordered _ _ hNode entry hEntry).1
  named := by
    intro dir mt found _ _ hFound
    obtain ⟨place, entries, -, -, hNames⟩ := readDir_eq_some hFound
    exact ⟨entries.map Prod.fst, hNames⟩

theorem resolve_of_place {place : Place} (hPlace : files.place path = some place) :
    files.tree.resolve files.tree.maxLinks files.cwd (components path) = some place := by
  unfold LinkedFiles.place LinkedTree.locate at hPlace
  split at hPlace
  · cases hPlace
  · exact hPlace

/-- There are no more names than this at the end of a path that leads to something. -/
theorem length_le_limit {place : Place} {front : List Component} {names : List Text}
    (hPath : components path = front ++ names.map .normal) (hPlace : files.place path = some place) :
    names.length ≤ files.limit := by
  have hResolve := resolve_of_place hPlace
  rw [hPath] at hResolve
  exact LinkedTree.length_le_of_resolve files.tree.maxLinks hResolve

/-- The directories go no deeper than the system follows a path. -/
theorem shallow_listing {depth : Nat} (front : List Component) (names : List Text)
    (hPath : components path = front ++ names.map .normal)
    (hDepth : names.length + depth = files.limit + 2) (hNames : names.length ≤ files.limit + 1) :
    Shallow files.listing depth path := by
  induction depth generalizing path names with
  | zero => omega
  | succ depth ih =>
      intro name hEntry
      have hName := hEntry.components_entryPath (consistent_listing files)
      obtain ⟨-, found, -, -, hFound, -⟩ := hEntry
      obtain ⟨place, -, hPlace, -⟩ := readDir_eq_some hFound
      have hShort := length_le_limit hPath hPlace
      have hLonger : (names ++ [name]).length = names.length + 1 := by
        rw [List.length_append, List.length_singleton]
      refine ih (names ++ [name]) ?_ (by omega) (by omega)
      rw [hName, hPath, List.map_append, List.map_singleton, List.append_assoc]

theorem below_of_trail {paths : List Text} {places : List Place} (hTrail : files.Trail paths path places) :
    Below files.listing paths path := by
  induction hTrail with
  | selected hPath _ => exact .selected hPath
  | entry _ hName _ ih => exact .entry ih hName

/-- What is not blocked is somewhere. -/
theorem place_of_free (hFree : ¬ Blocked files.listing path) : ∃ place, files.place path = some place := by
  cases hPlace : files.place path with
  | some place => exact ⟨place, rfl⟩
  | none =>
      refine absurd (Or.inl ?_) hFree
      unfold listing
      simp only [hPlace, Option.bind_none]

end Listing

section Cycles
variable {files : LinkedFiles} {paths : List Text}

/-- What a path holds is what its place holds. -/
theorem isEntry_congr {dir other name : Text} (hPlace : files.place dir = files.place other)
    (hEntry : IsEntry files.listing dir name) : IsEntry files.listing other name := by
  obtain ⟨mt, found, hMetadata, hDir, hFound, hMem⟩ := hEntry
  unfold listing at hMetadata hFound
  simp only [hPlace] at hMetadata hFound
  exact ⟨mt, found, hMetadata, hDir, hFound, hMem⟩

/-- Where a name leads depends on the place alone. -/
theorem place_entryPath_unique {dir other name : Text} {middle first second : Place}
    (hEntry : IsEntry files.listing dir name) (hDir : files.place dir = some middle)
    (hOther : files.place other = some middle) (hFirst : files.place (entryPath dir name) = some first)
    (hSecond : files.place (entryPath other name) = some second) : first = second := by
  have hStep : ∀ {path target}, IsEntry files.listing path name → files.place path = some middle →
      files.place (entryPath path name) = some target →
        ∃ left, files.tree.resolve left middle [.normal name] = some target := by
    intro path target hName hPath hTarget
    have hResolve := resolve_of_place hTarget
    rw [hName.components_entryPath files.consistent_listing] at hResolve
    obtain ⟨found, left, hFound, hLeft⟩ := LinkedTree.resolve_append hResolve
    obtain rfl := Option.some.inj (hFound.symm.trans (resolve_of_place hPath))
    exact ⟨left, hLeft⟩
  obtain ⟨left, hLeft⟩ := hStep hEntry hDir hFirst
  obtain ⟨right, hRight⟩ := hStep (isEntry_congr (hDir.trans hOther.symm) hEntry) hOther hSecond
  exact LinkedTree.resolve_unique hLeft hRight

theorem Descends.components_eq {base path : Text} {names : List Text}
    (hDescends : files.Descends base names path) :
    components path = components base ++ names.map .normal := by
  induction hDescends with
  | here => rw [List.map_nil, List.append_nil]
  | entry _ hName ih =>
      rw [hName.components_entryPath files.consistent_listing, ih, List.map_append, List.map_singleton,
        List.append_assoc]

theorem Descends.below_of {base path : Text} {names : List Text}
    (hDescends : files.Descends base names path) (hBase : Below files.listing paths base) :
    Below files.listing paths path := by
  induction hDescends with
  | here => exact hBase
  | entry _ hName ih => exact .entry ih hName

/-- The same names lead from the same place to the same place. -/
theorem Descends.moved (hFree : ∀ path, Below files.listing paths path → ¬ Blocked files.listing path)
    {base other path : Text} {names : List Text} (hDescends : files.Descends base names path)
    (hBase : Below files.listing paths base) (hOther : Below files.listing paths other)
    (hSame : files.place base = files.place other) :
    ∃ moved, files.Descends other names moved ∧ files.place moved = files.place path := by
  induction hDescends with
  | here => exact ⟨other, .here, hSame.symm⟩
  | @entry names dir name hDir hName ih =>
      obtain ⟨moved, hMoved, hPlace⟩ := ih
      have hMovedName := isEntry_congr hPlace.symm hName
      have hNext := hMoved.entry hMovedName
      refine ⟨_, hNext, ?_⟩
      obtain ⟨middle, hMiddle⟩ := place_of_free (hFree dir (hDir.below_of hBase))
      obtain ⟨first, hFirst⟩ := place_of_free (hFree _ ((hDir.entry hName).below_of hBase))
      obtain ⟨second, hSecond⟩ := place_of_free (hFree _ (hNext.below_of hOther))
      rw [hFirst, hSecond,
        place_entryPath_unique hName hMiddle (hPlace.trans hMiddle) hFirst hSecond]

/-- Where a trail comes through, it goes on from there. -/
theorem Trail.exists_descends {path : Text} {places : List Place} (hTrail : files.Trail paths path places)
    {place : Place} (hMem : place ∈ places) :
    ∃ base names, Below files.listing paths base ∧ files.place base = some place ∧
      files.Descends base names path := by
  induction hTrail with
  | @selected path found hPath hPlace =>
      obtain rfl := List.mem_singleton.mp hMem
      exact ⟨path, [], .selected hPath, hPlace, .here⟩
  | @entry dir name places found hDir hName hPlace ih =>
      rcases List.mem_cons.mp hMem with rfl | hBefore
      · exact ⟨entryPath dir name, [], .entry (below_of_trail hDir) hName, hPlace, .here⟩
      · obtain ⟨base, names, hBase, hBasePlace, hDescends⟩ := ih hBefore
        exact ⟨base, names ++ [name], hBase, hBasePlace, hDescends.entry hName⟩

/-- A trail that comes through a place twice goes around. -/
theorem Trail.exists_loop {path : Text} {places : List Place} (hTrail : files.Trail paths path places)
    (hTwice : ¬ places.Nodup) :
    ∃ base names around, Below files.listing paths base ∧ names ≠ [] ∧
      files.Descends base names around ∧ files.place around = files.place base := by
  induction hTrail with
  | selected _ _ => exact absurd (List.nodup_singleton _) hTwice
  | @entry dir name places found hDir hName hPlace ih =>
      by_cases hMem : found ∈ places
      · obtain ⟨base, names, hBase, hBasePlace, hDescends⟩ := hDir.exists_descends hMem
        exact ⟨base, names ++ [name], _, hBase, by simp, hDescends.entry hName,
          hPlace.trans hBasePlace.symm⟩
      · exact ih fun hNodup => hTwice (List.nodup_cons.mpr ⟨hMem, hNodup⟩)

/-- Whoever can go around once can go around as often as they like. -/
theorem exists_long_of_loop
    (hFree : ∀ path, Below files.listing paths path → ¬ Blocked files.listing path)
    {base around : Text} {names : List Text} (hBase : Below files.listing paths base)
    (hSome : names ≠ []) (hLoop : files.Descends base names around)
    (hPlace : files.place around = files.place base) (k : Nat) :
    ∃ (path : Text) (steps : List Text), Below files.listing paths path ∧
      files.place path = files.place base ∧ k ≤ steps.length ∧
        components path = components base ++ steps.map .normal := by
  induction k with
  | zero => exact ⟨base, [], hBase, rfl, Nat.le_refl 0, by simp⟩
  | succ k ih =>
      obtain ⟨path, steps, hBelow, hSame, hLong, hComponents⟩ := ih
      obtain ⟨moved, hMoved, hMovedPlace⟩ := hLoop.moved hFree hBase hBelow hSame.symm
      refine ⟨moved, steps ++ names, hMoved.below_of hBelow, hMovedPlace.trans hPlace, ?_, ?_⟩
      · have hOne := List.length_pos_iff.mpr hSome
        rw [List.length_append]
        omega
      · rw [hMoved.components_eq, hComponents, List.map_append, List.append_assoc]

theorem exists_trail (hFree : ∀ path, Below files.listing paths path → ¬ Blocked files.listing path)
    {path : Text} (hBelow : Below files.listing paths path) : ∃ places, files.Trail paths path places := by
  induction hBelow with
  | selected hPath =>
      obtain ⟨place, hPlace⟩ := place_of_free (hFree _ (.selected hPath))
      exact ⟨[place], .selected hPath hPlace⟩
  | entry hDir hName ih =>
      obtain ⟨places, hTrail⟩ := ih
      obtain ⟨place, hPlace⟩ := place_of_free (hFree _ (.entry hDir hName))
      exact ⟨place :: places, .entry hTrail hName hPlace⟩

/-- Where nothing is blocked there are no cycles: the system would give up on one. -/
theorem cycleFree_of_free
    (hFree : ∀ path, Below files.listing paths path → ¬ Blocked files.listing path) {path : Text}
    (hBelow : Below files.listing paths path) : files.CycleFree paths (components path) := by
  obtain ⟨places, hTrail⟩ := exists_trail hFree hBelow
  refine ⟨path, places, rfl, hTrail, ?_⟩
  by_contra hTwice
  obtain ⟨base, names, around, hBase, hSome, hLoop, hPlace⟩ := hTrail.exists_loop hTwice
  obtain ⟨long, steps, hLongBelow, -, hLong, hComponents⟩ :=
    exists_long_of_loop hFree hBase hSome hLoop hPlace (files.limit + 1)
  obtain ⟨place, hLongPlace⟩ := place_of_free (hFree long hLongBelow)
  have hShort := length_le_limit hComponents hLongPlace
  omega

end Cycles

section Order
variable {files : LinkedFiles} {relativeRoot : Text} {paths : List Text} {list : List LocalFile}

theorem holds_respelled {dir path other otherPath : Text} (hHolds : Holds files.listing dir path)
    (hDir : components dir = components other) (hPath : components path = components otherPath) :
    Holds files.listing other otherPath := by
  obtain ⟨name, hName, hComponents⟩ := hHolds
  refine ⟨name, hName.respelled files.consistent_listing hDir, ?_⟩
  rw [← hPath, ← hDir, hComponents]

/-- The files come after their directories if and only if nothing that a listed directory
holds was selected before that directory was reached. -/
theorem ordered_iff_sorted (hListed : Listed files.listing relativeRoot paths list) :
    (∀ before file after, list = before ++ file :: after →
      (∃ dir ∈ before, Holds files.listing dir.path file.path) ∨
        (file.path ∈ paths ∧ ∀ dir ∈ list, ¬ Holds files.listing dir.path file.path)) ↔
    ∀ (k : Nat) (path : Text), paths[k]? = some path → ∀ dir, Below files.listing paths dir →
      Holds files.listing dir path →
        ∃ earlier, Below files.listing (paths.take k) earlier ∧ components earlier = components path := by
  constructor
  · intro hOrdered k path hk dir hDir hHolds
    obtain ⟨file, hFile, hSame⟩ := hListed.covers path (.selected (List.mem_of_getElem? hk))
    obtain ⟨before, after, hSplit⟩ := List.append_of_mem hFile
    have hAt : list[before.length]? = some file := by
      rw [hSplit, List.getElem?_append_right (Nat.le_refl _), Nat.sub_self]
      rfl
    rcases hOrdered before file after hSplit with ⟨found, hFound, hFoundHolds⟩ | ⟨-, hNone⟩
    · have hFoundMem : found ∈ list.take before.length := by
        rw [hSplit, List.take_left]
        exact hFound
      obtain ⟨d, hd, hFoundAt⟩ := exists_of_mem_take hFoundMem
      obtain ⟨j, k', top, hj, hTop, hk', hSeen, hBelow⟩ := hListed.reached hFoundAt
      rcases Nat.lt_trichotomy k' k with hBefore | rfl | hAfter
      · -- The directory was reached before, and so was what it holds.
        obtain ⟨name, hName, hComponents⟩ := hFoundHolds
        refine ⟨entryPath found.path name, .entry (hBelow.trans fun other hOther => ?_) hName, ?_⟩
        · rw [List.mem_singleton.mp hOther]
          refine .selected (List.mem_of_getElem? (i := k') ?_)
          rw [List.getElem?_take_of_lt hBefore]
          exact hk'
        · rw [hName.components_entryPath files.consistent_listing, ← hComponents, hSame]
      · have hTopSame : components top.path = components file.path := by
          rw [← Option.some.inj (hk.symm.trans hk'), hSame]
        have hEq := hListed.eq_of_components hTop hAt hTopSame
        omega
      · -- The path was seen before the top of the directory was listed.
        have hEarly : path ∈ paths.take k' := by
          refine List.mem_of_getElem? (i := k) ?_
          rw [List.getElem?_take_of_lt hAfter]
          exact hk
        obtain ⟨other, hOther, hOtherSame⟩ := hSeen path (.selected hEarly)
        obtain ⟨e, he, hOtherAt⟩ := exists_of_mem_take hOther
        have hEq := hListed.eq_of_components hOtherAt hAt (hOtherSame.trans hSame.symm)
        omega
    · obtain ⟨dirFile, hDirFile, hDirSame⟩ := hListed.covers dir hDir
      exact absurd (holds_respelled hHolds hDirSame.symm hSame.symm) (hNone dirFile hDirFile)
  · intro hSorted before file after hSplit
    rcases hListed.placed before file after hSplit with ⟨dir, hDir, name, hName, hPath⟩ | ⟨k, hk, hSeen⟩
    · refine Or.inl ⟨dir, hDir, name, hName, ?_⟩
      rw [hPath, hName.components_entryPath files.consistent_listing]
    · refine Or.inr ⟨List.mem_of_getElem? hk, fun dir hDir hHolds => ?_⟩
      obtain ⟨earlier, hEarlier, hSame⟩ := hSorted k file.path hk dir.path (hListed.below hDir) hHolds
      obtain ⟨other, hOther, hOtherSame⟩ := hSeen earlier hEarlier
      have hDistinct := hListed.distinct
      rw [hSplit, List.map_append, List.nodup_append] at hDistinct
      refine hDistinct.2.2 _ (List.mem_map_of_mem hOther) _ (List.mem_map_of_mem List.mem_cons_self) ?_
      exact hOtherSame.trans hSame

end Order

section Count
variable {files : LinkedFiles} {relativeRoot : Text} {paths : List Text} {list : List LocalFile}

/-- The paths of the list that lead to a node. -/
def listedPaths (files : LinkedFiles) (list : List LocalFile) (node : Nat) : Set (List Component) :=
  {cs | ∃ file ∈ list, components file.path = cs ∧ files.identity file.path = some node}

/-- There are as many of them as files of the list. -/
theorem encard_listedPaths (hListed : Listed files.listing relativeRoot paths list) (node : Nat) :
    (files.listedPaths list node).encard =
      ((list.filter fun file => files.identity file.path == some node).length : ℕ∞) := by
  have hSet : files.listedPaths list node =
      ↑((list.filter fun file => files.identity file.path == some node).map
        fun file => components file.path).toFinset := by
    ext cs
    simp only [listedPaths, Set.mem_ofPred_eq, List.coe_toFinset, List.mem_map, List.mem_filter, beq_iff_eq]
    constructor
    · rintro ⟨file, hFile, hSame, hNode⟩
      exact ⟨file, ⟨hFile, hNode⟩, hSame⟩
    · rintro ⟨file, ⟨hFile, hNode⟩, hSame⟩
      exact ⟨file, hFile, hSame, hNode⟩
  have hNodup : ((list.filter fun file => files.identity file.path == some node).map
      fun file => components file.path).Nodup :=
    hListed.distinct.sublist (List.filter_sublist.map _)
  rw [hSet, Set.encard_coe_eq_coe_finsetCard, List.toFinset_card_of_nodup hNodup, List.length_map]

/-- Nothing is listed more often than there are cycle-free paths to it. -/
theorem counted_of_free (hListed : Listed files.listing relativeRoot paths list)
    (hFree : ∀ path, Below files.listing paths path → ¬ Blocked files.listing path) (node : Nat) :
    ((list.filter fun file => files.identity file.path == some node).length : ℕ∞) ≤
      (files.cycleFreePaths paths node).encard := by
  rw [← encard_listedPaths hListed node]
  apply Set.encard_le_encard
  rintro cs ⟨file, hFile, hSame, hNode⟩
  rw [← hSame]
  exact ⟨cycleFree_of_free hFree (hListed.below hFile), file.path, rfl, hNode⟩

end Count

/-- Listing always ends, and it ends with each file listed once and after its directory
exactly for the selections that can be listed so. -/
theorem lists_once_iff (files : LinkedFiles) (paths : List Text) :
    (∃ depth, (constructFileList files.listing depth paths).isSome = true) ∧
    ((∃ depth list, constructFileList files.listing depth paths = some (.ok list) ∧
      files.ListedOnce paths list) ↔ files.Listable paths) := by
  have hShallow : ∀ path ∈ paths, Shallow files.listing (files.limit + 2) path := by
    intro path _
    exact shallow_listing (components path) [] (by simp) (by simp) (by simp)
  have hEnds : (constructFileList files.listing (files.limit + 2) paths).isSome = true := by
    cases paths with
    | nil => rfl
    | cons first rest => exact constructFileList_isSome hShallow
  refine ⟨⟨_, hEnds⟩, ?_⟩
  constructor
  · rintro ⟨depth, list, hList, hOnce⟩
    cases paths with
    | nil => cases hList
    | cons first rest =>
        cases hParent : Lexical.Unix.parent first with
        | none =>
            unfold constructFileList at hList
            dsimp only at hList
            rw [hParent] at hList
            cases hList
        | some relativeRoot =>
            rcases constructFileList_outcome files.consistent_listing depth rest hParent with
              ⟨found, hFound, hListed, hFree⟩ | ⟨error, hError, -⟩ | hNone
            · rw [hFound] at hList
              cases hList
              exact ⟨⟨first, rest, relativeRoot, rfl, hParent⟩, hFree,
                (ordered_iff_sorted hListed).mp hOnce.ordered⟩
            · rw [hError] at hList
              cases hList
            · rw [hNone] at hList
              cases hList
  · rintro ⟨⟨first, rest, relativeRoot, rfl, hParent⟩, hFree, hSorted⟩
    rcases constructFileList_outcome files.consistent_listing (files.limit + 2) rest hParent with
      ⟨list, hList, hListed, -⟩ | ⟨-, -, path, hBelow, hBlocked⟩ | hNone
    · exact ⟨_, list, hList, (ordered_iff_sorted hListed).mpr hSorted, counted_of_free hListed hFree⟩
    · exact absurd hBlocked (hFree path hBelow)
    · rw [hNone] at hEnds
      cases hEnds

/-- A directory `/a` with a link in it that leads to the directory itself. -/
def looping : LinkedFiles where
  tree :=
    { nodes := [.dir [(['a'], 1)], .dir [(['l'], 2)], .link ['.']]
      maxLinks := 40
      ordered := by
        intro id entries hNode entry hEntry
        match id, hNode with
        | 0, hNode =>
            cases hNode
            cases List.mem_singleton.mp hEntry
            exact ⟨⟨by decide, by decide, by decide⟩, by decide⟩
        | 1, hNode =>
            cases hNode
            cases List.mem_singleton.mp hEntry
            exact ⟨⟨by decide, by decide, by decide⟩, by decide⟩
        | 2, hNode => cases hNode
        | _ + 3, hNode => cases hNode }
  info := fun _ => { len := 4096, isDir := true, readonly := false, mode := 0o40755, modified := some 0 }
  readable := fun _ => true
  cwd := []

/-- The directory after so many trips around its link. -/
def loopPath : Nat → Text
  | 0 => "/a".toList
  | trips + 1 => entryPath (loopPath trips) ['l']

theorem place_loopPath : ∀ trips < 41, looping.place (loopPath trips) = some [1] := by
  decide +kernel

theorem below_loopPath (trips : Nat) (hTrips : trips < 42) :
    Below looping.listing ["/a".toList] (loopPath trips) := by
  induction trips with
  | zero => exact .selected List.mem_cons_self
  | succ trips ih =>
      have hPlace := place_loopPath trips (by omega)
      refine .entry (ih (by omega))
        ⟨{ looping.info 1 with isDir := true }, [some ['l']], ?_, rfl, ?_, List.mem_cons_self⟩
      · simp only [listing, hPlace, Option.bind_some]
        rfl
      · simp only [listing, hPlace, Option.bind_some]
        rfl

/-- The system gives up on the way around the link, and with it the listing. -/
theorem link_cycle_fails :
    ¬ ∀ (files : LinkedFiles) (paths : List Text), paths ≠ [] →
      ∃ depth list, constructFileList files.listing depth paths = some (.ok list) ∧
        files.ListedOnce paths list := by
  intro hClaim
  obtain ⟨depth, list, hList, -⟩ := hClaim looping ["/a".toList] (List.cons_ne_nil _ _)
  have hParent : Lexical.Unix.parent "/a".toList = some "/".toList := by decide +kernel
  rcases constructFileList_outcome looping.consistent_listing depth [] hParent with
    ⟨-, -, -, hFree⟩ | ⟨error, hError, -⟩ | hNone
  · have hLost : looping.place (loopPath 41) = none := by decide +kernel
    refine hFree (loopPath 41) (below_loopPath 41 (by omega)) (Or.inl ?_)
    simp only [listing, hLost, Option.bind_none]
  · rw [hError] at hList
    cases hList
  · rw [hNone] at hList
    cases hList

end LinkedFiles

end HibtDesk.Clipboard
