import HibtDesk.Clipboard.Listed
import HibtDesk.Clipboard.PastedTree
import Mathlib.Data.Set.Card

/-! The pasted tree against the copied one. What is selected is named relative to the
directory of the first path of the selection, so the trees agree for a selection from that
directory, and a path from elsewhere loses its place. -/
namespace HibtDesk.Clipboard

open Lexical (Text)
open Lexical.Unix (components stripPrefix PlainName)
open FileDescription (parseFileDescriptors)

/-- The node of a file has its kind, size and permissions, its time to 100 ns, and its path
relative to the root of the selection. -/
structure MirrorsFile (relativeRoot : Text) (nodes : List TreeNode) (i : Nat) (file : LocalFile)
    (node : TreeNode) : Prop where
  index : node.index = i
  kind : node.attributes.kind = if file.isDir then .directory else .file
  size : node.attributes.size = file.size
  perm : node.attributes.perm = file.perm % 2 ^ 16
  path : ∃ names : List Text, components file.path = components relativeRoot ++ names.map .normal ∧
    LinkedPath nodes node names
  time : 0 ≤ file.lastWriteTime → (node.attributes.lastModified : Int) ≤ file.lastWriteTime ∧
    file.lastWriteTime < node.attributes.lastModified + 100

/-- The nodes after the root are those of the files, in their order. -/
structure Mirrors (relativeRoot : Text) (files : List LocalFile) (nodes : List TreeNode) : Prop where
  length : nodes.length = files.length + 1
  node : ∀ (i : Nat) (file : LocalFile), files[i]? = some file →
    ∃ node, nodes[i + 1]? = some node ∧ MirrorsFile relativeRoot nodes i file node

/-- The root of a selection. -/
def selectionRoot (paths : List Text) : Option Text := paths.head?.bind Lexical.Unix.parent

/-- The files of a selection are told of, and the tree that is made of that mirrors them. -/
def PastesTree (listing : Listing) (depth : Nat) (paths : List Text) (overflowChecks : Bool)
    (connId : Int) (now : Nat) : Prop :=
  ∃ relativeRoot copied descs nodes, selectionRoot paths = some relativeRoot ∧
    CopiedFiles.new.syncFiles listing depth paths = (.returned (.ok ()), copied) ∧
    parseFileDescriptors overflowChecks connId copied.filesPdu = some (.ok descs) ∧
    TreeNode.buildTree now descs = .ok nodes ∧
    Mirrors relativeRoot copied.clip.fileList nodes

/-- A selection in a forest, with names that can be told. -/
structure Selection (listing : Listing) (depth : Nat) (paths : List Text) : Prop where
  forest : Forest listing
  nonempty : paths ≠ []
  present : ∀ path ∈ paths, (listing.metadata path).isSome = true
  shallow : ∀ path ∈ paths, Shallow listing depth path
  widths : ∀ path mt, listing.metadata path = some mt → mt.len < 2 ^ 64 ∧ mt.mode < 2 ^ 32
  names : ∀ relativeRoot path rest, selectionRoot paths = some relativeRoot →
    Below listing paths path → stripPrefix relativeRoot path = some rest →
    (Utf16.encode rest).length ≤ 260 ∧ '\\' ∉ rest ∧ Char.ofNat 0 ∉ rest

/-- A path is another one with names after it, or that one itself. -/
def AtOrBelow (above path : Text) : Prop :=
  ∃ names : List Text, components path = components above ++ names.map .normal

/-- Every selected path is a name in the root of the selection, or is at or below one that
is selected before it. -/
def Rooted (relativeRoot : Text) (paths : List Text) : Prop :=
  ∀ (k : Nat) (path : Text), paths[k]? = some path →
    (∃ name, components path = components relativeRoot ++ [.normal name]) ∨
      ∃ earlier ∈ paths.take k, AtOrBelow earlier path

/-- The paths at and below a selection, in any spelling. -/
def selectedComponents (listing : Listing) (paths : List Text) : Set (List Lexical.Unix.Component) :=
  {cs | ∃ path, Below listing paths path ∧ components path = cs}

/-- All that is selected comes from one directory, there are fewer than 2^32 files, and the
times are before the end of 64 bits of nanoseconds. -/
structure FromOneDirectory (listing : Listing) (paths : List Text) (relativeRoot : Text) : Prop where
  root : selectionRoot paths = some relativeRoot
  rooted : Rooted relativeRoot paths
  count : (selectedComponents listing paths).ncard < 2 ^ 32
  times : ∀ path mt, Below listing paths path → listing.metadata path = some mt →
    mt.modified.getD 0 < 2 ^ 64

theorem exists_of_mem_take {files : List LocalFile} {i : Nat} {file : LocalFile}
    (hFile : file ∈ files.take i) : ∃ j, j < i ∧ files[j]? = some file := by
  obtain ⟨j, hj, hFound⟩ := List.getElem_of_mem hFile
  rw [List.length_take] at hj
  rw [List.getElem_take] at hFound
  exact ⟨j, by omega, by rw [← hFound, List.getElem?_eq_getElem (by omega)]⟩

section Below
variable {listing : Listing}

/-- What is below a path that is listed is listed with it. -/
theorem exists_below (hForest : Forest listing) {paths : List Text} {above path : Text}
    (hAbove : Below listing paths above) (hExists : (listing.metadata above).isSome = true)
    (hPath : (listing.metadata path).isSome = true) (hBelow : AtOrBelow above path) :
    ∃ found, Below listing paths found ∧ components found = components path := by
  obtain ⟨names, hNames⟩ := hBelow
  induction names using List.reverseRecOn generalizing path with
  | nil => exact ⟨above, hAbove, by simpa using hNames.symm⟩
  | append_singleton names name ih =>
      rw [List.map_append, ← List.append_assoc, List.map_singleton] at hNames
      have hLast : (components path).getLast? = some (.normal name) := by
        rw [hNames, List.getLast?_concat]
      obtain ⟨dir, hDir⟩ := Lexical.Unix.parent_of_fileName (Lexical.Unix.fileName_of_getLast? hLast)
      have hComponents : components dir = components above ++ names.map .normal := by
        rw [(Lexical.Unix.components_parent hDir).2, hNames, List.dropLast_concat]
      have hSome : components dir ≠ [] := by
        intro hNil
        rw [hComponents, List.append_eq_nil_iff] at hNil
        have hMissing := hForest.named above hNil.1
        rw [hMissing] at hExists
        cases hExists
      have hEntry := hForest.complete dir path name hSome (by rw [hNames, hComponents]) hPath
      have hDirExists : (listing.metadata dir).isSome = true := by
        obtain ⟨mt, _, hMetadata, -⟩ := hEntry
        rw [hMetadata]
        rfl
      obtain ⟨found, hFound, hSame⟩ := ih hDirExists hComponents
      have hFoundEntry := hEntry.respelled hForest.consistent hSame.symm
      refine ⟨_, .entry hFound hFoundEntry, ?_⟩
      unfold entryPath
      rw [Lexical.Unix.components_join (hForest.entries _ _ hEntry).1, hSame, hNames, hComponents]

/-- What is below a path has a longer path, in some spelling. -/
theorem Forest.atOrBelow (hForest : Forest listing) {top path : Text} (hBelow : Below listing [top] path) :
    AtOrBelow top path := by
  induction hBelow with
  | selected hPath =>
      rw [List.mem_singleton.mp hPath]
      exact ⟨[], by simp⟩
  | @entry dir name _ hName ih =>
      obtain ⟨names, hNames⟩ := ih
      refine ⟨names ++ [name], ?_⟩
      rw [hName.components_entryPath hForest.consistent, hNames, List.map_append, List.map_singleton,
        List.append_assoc]

end Below

namespace Listed
variable {listing : Listing} {relativeRoot : Text} {paths : List Text} {files : List LocalFile}
  (hListed : Listed listing relativeRoot paths files)
include hListed

theorem eq_of_components {i j : Nat} {file other : LocalFile} (hFile : files[i]? = some file)
    (hOther : files[j]? = some other) (hSame : components file.path = components other.path) : i = j := by
  have hi := (List.getElem?_eq_some_iff.mp hFile).1
  refine (List.getElem?_inj (by simpa using hi) hListed.distinct).mp ?_
  rw [List.getElem?_map, List.getElem?_map, hFile, hOther, Option.map_some, Option.map_some, hSame]

theorem placed_at {i : Nat} {file : LocalFile} (hFile : files[i]? = some file) :
    Placed listing paths (files.take i) file := by
  obtain ⟨hi, rfl⟩ := List.getElem?_eq_some_iff.mp hFile
  refine hListed.placed _ _ (files.drop (i + 1)) ?_
  rw [← List.drop_eq_getElem_cons hi, List.take_append_drop]

/-- Each file is at or below a selected path that stands no later in the list and was listed
for itself, after all that was selected before. -/
theorem reached {i : Nat} {file : LocalFile} (hFile : files[i]? = some file) :
    ∃ j k top, j ≤ i ∧ files[j]? = some top ∧ paths[k]? = some top.path ∧
      (∀ path, Below listing (paths.take k) path → Seen (files.take j) path) ∧
      Below listing [top.path] file.path := by
  induction i using Nat.strong_induction_on generalizing file with
  | _ i ih =>
      rcases hListed.placed_at hFile with ⟨dir, hDir, name, hName, hPath⟩ | ⟨k, hk, hSeen⟩
      · obtain ⟨j, hj, hDirAt⟩ := exists_of_mem_take hDir
        obtain ⟨first, k, top, hFirst, hTop, hk, hSeen, hBelow⟩ := ih j hj hDirAt
        refine ⟨first, k, top, by omega, hTop, hk, hSeen, ?_⟩
        rw [hPath]
        exact .entry hBelow hName
      · exact ⟨i, k, file, Nat.le_refl i, hFile, hk, hSeen, .selected List.mem_cons_self⟩

theorem origin (hForest : Forest listing) {i : Nat} {file : LocalFile} (hFile : files[i]? = some file) :
    ∃ j k top, j ≤ i ∧ files[j]? = some top ∧ paths[k]? = some top.path ∧
      (∀ path, Below listing (paths.take k) path → Seen (files.take j) path) ∧
      AtOrBelow top.path file.path := by
  obtain ⟨j, k, top, hj, hTop, hk, hSeen, hBelow⟩ := hListed.reached hFile
  exact ⟨j, k, top, hj, hTop, hk, hSeen, hForest.atOrBelow hBelow⟩

/-- There are as many files as there are paths at and below the selection. -/
theorem ncard_selectedComponents : (selectedComponents listing paths).ncard = files.length := by
  have hSame : selectedComponents listing paths =
      ↑(files.map fun file => components file.path).toFinset := by
    ext cs
    simp only [selectedComponents, Set.mem_ofPred_eq, List.coe_toFinset, List.mem_map]
    constructor
    · rintro ⟨path, hBelow, rfl⟩
      exact hListed.covers path hBelow
    · rintro ⟨file, hFile, rfl⟩
      exact ⟨file.path, hListed.below hFile, rfl⟩
  rw [hSame, Set.ncard_coe_finset, List.toFinset_card_of_nodup hListed.distinct, List.length_map]

/-- A file with a path from the root on is told of under that path. -/
theorem components_described {file : LocalFile} (hFile : file ∈ files) {names : List Text}
    (hNames : components file.path = components relativeRoot ++ names.map .normal) (connId : Int) :
    NamedBy (file.described connId) names := by
  obtain ⟨mt, -, hMade⟩ := hListed.made file hFile
  have hRoot : file.relativeRoot = relativeRoot := by
    rw [hMade]
    rfl
  obtain ⟨rest, hRest⟩ := Option.isSome_iff_exists.mp
    (Lexical.Unix.stripPrefix_isSome_iff.mpr ⟨_, hNames.symm⟩)
  have hComponents := Lexical.Unix.components_stripPrefix hRest
  rw [hNames] at hComponents
  have hWire : file.wirePath = rest := by rw [LocalFile.wirePath, hRoot, hRest, Option.getD_some]
  exact (congrArg components hWire).trans (List.append_cancel_left hComponents).symm

theorem tellable {depth : Nat} (hSelection : Selection listing depth paths)
    (hRoot : selectionRoot paths = some relativeRoot) {file : LocalFile} (hFile : file ∈ files)
    {names : List Text}
    (hNames : components file.path = components relativeRoot ++ names.map .normal) : file.Tellable := by
  obtain ⟨mt, hMetadata, hMade⟩ := hListed.made file hFile
  obtain ⟨hLen, hMode⟩ := hSelection.widths _ _ hMetadata
  obtain ⟨rest, hRest⟩ := Option.isSome_iff_exists.mp
    (Lexical.Unix.stripPrefix_isSome_iff.mpr ⟨_, hNames.symm⟩)
  have hFileRoot : file.relativeRoot = relativeRoot := by
    rw [hMade]
    rfl
  have hWire : file.wirePath = rest := by
    rw [LocalFile.wirePath, hFileRoot, hRest, Option.getD_some]
  obtain ⟨hShort, hBackslash, hZero⟩ := hSelection.names _ _ _ hRoot (hListed.below hFile) hRest
  refine ⟨?_, ?_, hWire ▸ hShort, hWire ▸ hBackslash, hWire ▸ hZero⟩
  · rw [hMade]
    exact hLen
  · rw [hMade]
    exact hMode

/-- Each file of a selection from one directory is at the top or after its directory. -/
theorem named_of_rooted {depth : Nat} (hSelection : Selection listing depth paths)
    (hRooted : Rooted relativeRoot paths) {i : Nat} {file : LocalFile} (hFile : files[i]? = some file) :
    ∃ names : List Text, names ≠ [] ∧ components file.path = components relativeRoot ++ names.map .normal ∧
      (names.dropLast = [] ∨ ∃ j dir, j < i ∧ files[j]? = some dir ∧ dir.isDir = true ∧
        components dir.path = components relativeRoot ++ names.dropLast.map .normal) := by
  have hForest := hSelection.forest
  induction i using Nat.strong_induction_on generalizing file with
  | _ i ih =>
      rcases hListed.placed_at hFile with ⟨dir, hDir, name, hName, hPath⟩ | ⟨k, hk, hSeen⟩
      · obtain ⟨j, hj, hDirAt⟩ := exists_of_mem_take hDir
        obtain ⟨names, -, hNames, -⟩ := ih j hj hDirAt
        refine ⟨names ++ [name], by simp, ?_, Or.inr ⟨j, dir, hj, hDirAt, ?_, ?_⟩⟩
        · rw [hPath, entryPath, Lexical.Unix.components_join (hForest.entries _ _ hName).1, hNames,
            List.append_assoc, List.map_append, List.map_singleton]
        · obtain ⟨mt, hMetadata, hMade⟩ := hListed.made dir (List.mem_of_getElem? hDirAt)
          obtain ⟨mt', _, hMetadata', hIsDir, -⟩ := hName
          obtain rfl := Option.some.inj (hMetadata.symm.trans hMetadata')
          rw [hMade]
          exact hIsDir
        · rw [List.dropLast_concat, hNames]
      · rcases hRooted k file.path hk with ⟨name, hName⟩ | ⟨earlier, hEarlier, hBelow⟩
        · exact ⟨[name], by simp, hName, Or.inl rfl⟩
        · -- What is below an earlier path has been listed with that.
          obtain ⟨found, hFound, hSame⟩ := exists_below hForest (.selected hEarlier)
            (hSelection.present _ (List.mem_of_mem_take hEarlier))
            (hSelection.present _ (List.mem_of_getElem? hk)) hBelow
          obtain ⟨other, hOther, hOtherSame⟩ := hSeen found hFound
          obtain ⟨j, hj, hOtherAt⟩ := exists_of_mem_take hOther
          have hEq := hListed.eq_of_components hOtherAt hFile (hOtherSame.trans hSame)
          omega

end Listed

section Tree
variable {listing : Listing} {depth : Nat} {paths : List Text} {relativeRoot : Text}
  {files : List LocalFile} {overflowChecks : Bool} {connId : Int} {now : Nat}
  {nodes : List TreeNode}

/-- A selection is listed, and its tree is the one that is made of the list. -/
theorem pastesTree_iff (hSelection : Selection listing depth paths) {relativeRoot : Text}
    (hRoot : selectionRoot paths = some relativeRoot) :
    ∃ files, Listed listing relativeRoot paths files ∧
      (PastesTree listing depth paths overflowChecks connId now ↔ ∃ pdu descs nodes,
        buildFileListPdu files = some pdu ∧
          parseFileDescriptors overflowChecks connId pdu = some (.ok descs) ∧
          TreeNode.buildTree now descs = .ok nodes ∧ Mirrors relativeRoot files nodes) := by
  obtain ⟨first, rest, rfl⟩ := List.exists_cons_of_ne_nil hSelection.nonempty
  obtain ⟨files, hList, hListed⟩ :=
    constructFileList_spec hSelection.forest hSelection.shallow hSelection.present hRoot
  refine ⟨files, hListed, ?_⟩
  have hSync : CopiedFiles.new.syncFiles listing depth (first :: rest) =
      (buildFileListPdu files).elim
        (.panicked, { files := first :: rest, filesPdu := [], clip :=
          { fileList := files, firstFileIndex := CopiedFiles.firstFileIndex listing files } })
        (fun pdu => (.returned (.ok ()), { files := first :: rest, filesPdu := pdu, clip :=
          { fileList := files, firstFileIndex := CopiedFiles.firstFileIndex listing files } })) := by
    unfold CopiedFiles.syncFiles
    rw [if_neg (by simp [CopiedFiles.new]), hList]
    dsimp only
    cases buildFileListPdu files <;> rfl
  constructor
  · rintro ⟨root, copied, descs, nodes, hFound, hSynced, hParsed, hBuilt, hMirrors⟩
    obtain rfl := Option.some.inj (hRoot.symm.trans hFound)
    rw [hSync] at hSynced
    cases hPdu : buildFileListPdu files with
    | none =>
        rw [hPdu] at hSynced
        cases (Prod.mk.inj hSynced).1
    | some pdu =>
        rw [hPdu] at hSynced
        obtain rfl := (Prod.mk.inj hSynced).2
        exact ⟨pdu, descs, nodes, rfl, hParsed, hBuilt, hMirrors⟩
  · rintro ⟨pdu, descs, nodes, hPdu, hParsed, hBuilt, hMirrors⟩
    rw [hPdu] at hSync
    exact ⟨relativeRoot, _, descs, nodes, hRoot, hSync, hParsed, hBuilt, hMirrors⟩

/-- The descriptions of a selection from one directory make a tree of their own. -/
theorem Listed.preordered (hListed : Listed listing relativeRoot paths files)
    (hSelection : Selection listing depth paths) (hRooted : Rooted relativeRoot paths) (connId : Int) :
    Preordered (files.map (·.described connId)) := by
  have hNamed : ∀ {i : Nat} {desc : FileDescription}, (files.map (·.described connId))[i]? = some desc →
      ∃ file names, files[i]? = some file ∧ desc = file.described connId ∧ names ≠ [] ∧
        components file.path = components relativeRoot ++ names.map .normal ∧ NamedBy desc names ∧
        (names.dropLast = [] ∨ ∃ j dir, j < i ∧ files[j]? = some dir ∧ dir.isDir = true ∧
          components dir.path = components relativeRoot ++ names.dropLast.map .normal) := by
    intro i desc hDesc
    rw [List.getElem?_map] at hDesc
    obtain ⟨file, hFile, rfl⟩ := Option.map_eq_some_iff.mp hDesc
    obtain ⟨names, hSome, hNames, hPlace⟩ := hListed.named_of_rooted hSelection hRooted hFile
    exact ⟨file, names, hFile, rfl, hSome, hNames,
      hListed.components_described (List.mem_of_getElem? hFile) hNames connId, hPlace⟩
  refine ⟨fun desc hDesc => ?_, fun i j desc other hi hj hSame => ?_, fun i desc names hi hNames => ?_⟩
  · obtain ⟨i, hi⟩ := List.getElem?_of_mem hDesc
    obtain ⟨_, names, -, -, hSome, -, hNames, -⟩ := hNamed hi
    exact ⟨names, hSome, hNames⟩
  · obtain ⟨file, names, hFile, -, -, hPath, hNames, -⟩ := hNamed hi
    obtain ⟨file', names', hFile', -, -, hPath', hNames', -⟩ := hNamed hj
    have hMaps : names.map Lexical.Unix.Component.normal = names'.map .normal :=
      hNames.symm.trans (hSame.trans hNames')
    exact hListed.eq_of_components hFile hFile' (by rw [hPath, hPath', hMaps])
  · obtain ⟨file, names', -, -, -, -, hNames', hPlace⟩ := hNamed hi
    have hMaps : names'.map Lexical.Unix.Component.normal = names.map .normal :=
      hNames'.symm.trans hNames
    obtain rfl : names' = names :=
      List.map_injective_iff.mpr (fun _ _ h => Lexical.Unix.Component.normal.inj h) hMaps
    rcases hPlace with hTop | ⟨j, dir, hj, hDir, hIsDir, hAbove⟩
    · exact Or.inl hTop
    · refine Or.inr ⟨j, dir.described connId, hj, by rw [List.getElem?_map, hDir]; rfl, ?_, ?_⟩
      · exact if_pos hIsDir
      · exact hListed.components_described (List.mem_of_getElem? hDir) hAbove connId

/-- A time that fits in its place arrives to 100 ns. -/
theorem arrivedTime_close {file : LocalFile} (hLt : file.lastWriteTime < 2 ^ 64)
    (hLe : 0 ≤ file.lastWriteTime) :
    (file.arrivedTime : Int) ≤ file.lastWriteTime ∧ file.lastWriteTime < file.arrivedTime + 100 := by
  unfold LocalFile.arrivedTime
  omega

/-- The tree of a selection from one directory mirrors it. -/
theorem Listed.mirrors (hListed : Listed listing relativeRoot paths files)
    (hSelection : Selection listing depth paths) (hFrom : FromOneDirectory listing paths relativeRoot)
    (hBuilt : TreeNode.buildTree now (files.map (·.described connId)) = .ok nodes) :
    Mirrors relativeRoot files nodes := by
  have hPreordered := hListed.preordered hSelection hFrom.rooted connId
  obtain ⟨hLength, -, hNodes⟩ := TreeNode.nodes_buildTree hBuilt
  refine ⟨by rw [hLength, List.length_map], fun i file hFile => ?_⟩
  have hDesc : (files.map (·.described connId))[i]? = some (file.described connId) := by
    rw [List.getElem?_map, hFile, Option.map_some]
  obtain ⟨names, hSome, hNames, -⟩ := hListed.named_of_rooted hSelection hFrom.rooted hFile
  have hMem := List.mem_of_getElem? hFile
  obtain ⟨node, hNode, hLinked⟩ := hPreordered.linkedPath hBuilt hDesc hSome
    (hListed.components_described hMem hNames connId)
  obtain ⟨found, hFound, hBare⟩ := hNodes i _ hDesc
  obtain rfl := Option.some.inj (hNode.symm.trans hFound)
  refine ⟨node, hNode, ?_, ?_, ?_, ?_, ⟨names, hNames, hLinked⟩, fun hLe => ?_⟩
  · exact (congrArg TreeNode.index hBare).trans (Nat.add_sub_cancel i 2)
  · exact congrArg (fun node => node.attributes.kind) hBare
  · exact congrArg (fun node => node.attributes.size) hBare
  · exact congrArg (fun node => node.attributes.perm) hBare
  · have hTime : node.attributes.lastModified = file.arrivedTime :=
      congrArg (fun node => node.attributes.lastModified) hBare
    obtain ⟨mt, hMetadata, hMade⟩ := hListed.made file hMem
    have hLt : file.lastWriteTime < 2 ^ 64 := by
      rw [hMade]
      exact hFrom.times _ _ (hListed.below hMem) hMetadata
    rw [hTime]
    exact arrivedTime_close hLt hLe

/-- Where the tree mirrors the list, a file is at the top or at or below one before it. -/
theorem Mirrors.above {descs : List FileDescription} (hMirrors : Mirrors relativeRoot files nodes)
    (hBuilt : TreeNode.buildTree now descs = .ok nodes) {i : Nat} {file : LocalFile}
    (hFile : files[i]? = some file) :
    (∃ name, components file.path = components relativeRoot ++ [.normal name]) ∨
      ∃ j dir, j < i ∧ files[j]? = some dir ∧ AtOrBelow dir.path file.path := by
  obtain ⟨hLength, ⟨root, hRoot, hNoParent⟩, hNodes⟩ := TreeNode.nodes_buildTree hBuilt
  obtain ⟨node, hNode, hMirrored⟩ := hMirrors.node i file hFile
  obtain ⟨names, hNames, hLinked⟩ := hMirrored.path
  have hi : i < descs.length := by
    have hLt := (List.getElem?_eq_some_iff.mp hNode).1
    omega
  obtain ⟨found, hFound, hBare⟩ := hNodes i _ (List.getElem?_eq_getElem hi)
  obtain rfl := Option.some.inj (hNode.symm.trans hFound)
  have hLink : node.parent = some (TreeNode.parentInode (TreeNode.kept (descs.take i)) descs[i].name) :=
    congrArg TreeNode.parent hBare
  obtain ⟨hLow, hHigh⟩ := @TreeNode.parentInode_bounds descs i descs[i].name
  cases hLinked with
  | root hNone =>
      rw [hNone] at hLink
      cases hLink
  | @child _ above inode before hParent hAbove hBefore =>
      obtain rfl := Option.some.inj (hParent.symm.trans hLink)
      generalize TreeNode.parentInode (TreeNode.kept (descs.take i)) descs[i].name = inode at *
      cases hPlace : inode - 1 with
      | zero =>
          rw [hPlace, hRoot] at hAbove
          obtain rfl := Option.some.inj hAbove
          rw [hBefore.unique (.root hNoParent)] at hNames
          exact Or.inl ⟨_, hNames⟩
      | succ j =>
          rw [hPlace] at hAbove
          have hj : j < files.length := by
            have hLt := (List.getElem?_eq_some_iff.mp hAbove).1
            rw [hMirrors.length] at hLt
            omega
          obtain ⟨dirNode, hDirNode, hDirMirrored⟩ := hMirrors.node j _ (List.getElem?_eq_getElem hj)
          obtain rfl := Option.some.inj (hAbove.symm.trans hDirNode)
          obtain ⟨dirNames, hDirNames, hDirLinked⟩ := hDirMirrored.path
          obtain rfl := hBefore.unique hDirLinked
          refine Or.inr ⟨j, files[j], by omega, List.getElem?_eq_getElem hj, [node.name], ?_⟩
          rw [hNames, hDirNames, List.map_append, List.append_assoc]

/-- Where the tree mirrors the list, the selection is rooted. -/
theorem Mirrors.rooted {descs : List FileDescription} (hMirrors : Mirrors relativeRoot files nodes)
    (hListed : Listed listing relativeRoot paths files) (hForest : Forest listing)
    (hBuilt : TreeNode.buildTree now descs = .ok nodes) : Rooted relativeRoot paths := by
  intro k path hPath
  obtain ⟨file, hMem, hSame⟩ := hListed.covers path (.selected (List.mem_of_getElem? hPath))
  obtain ⟨i, hFile⟩ := List.getElem?_of_mem hMem
  rcases hMirrors.above hBuilt hFile with ⟨name, hName⟩ | ⟨j, dir, hj, hDir, names, hNames⟩
  · exact Or.inl ⟨name, hSame ▸ hName⟩
  · obtain ⟨first, k', top, hFirst, hTop, hk', hSeen, topNames, hTopNames⟩ :=
      hListed.origin hForest hDir
    have hBelow : AtOrBelow top.path path := by
      refine ⟨topNames ++ names, ?_⟩
      rw [← hSame, hNames, hTopNames, List.append_assoc, List.map_append]
    rcases Nat.lt_trichotomy k' k with hBefore | rfl | hAfter
    · refine Or.inr ⟨top.path, ?_, hBelow⟩
      exact List.mem_of_getElem? (i := k') (by rw [List.getElem?_take_of_lt hBefore, hk'])
    · -- The file of the path itself stands no earlier than what it is below of.
      obtain rfl := Option.some.inj (hPath.symm.trans hk')
      have hEq := hListed.eq_of_components hTop hFile hSame.symm
      omega
    · obtain ⟨other, hOther, hOtherSame⟩ := hSeen path
        (.selected (List.mem_of_getElem? (i := k) (by rw [List.getElem?_take_of_lt hAfter, hPath])))
      obtain ⟨l, hl, hOtherAt⟩ := exists_of_mem_take hOther
      have hEq := hListed.eq_of_components hOtherAt hFile (hOtherSame.trans hSame.symm)
      omega

/-- Where the tree mirrors the list, the times fit in their places. -/
theorem Mirrors.times {pdu : Bytes} {descs : List FileDescription}
    (hMirrors : Mirrors relativeRoot files nodes) (hListed : Listed listing relativeRoot paths files)
    (hSelection : Selection listing depth paths) (hRoot : selectionRoot paths = some relativeRoot)
    (hPdu : buildFileListPdu files = some pdu)
    (hParsed : parseFileDescriptors overflowChecks connId pdu = some (.ok descs))
    (hBuilt : TreeNode.buildTree now descs = .ok nodes) :
    ∀ path mt, Below listing paths path → listing.metadata path = some mt →
      mt.modified.getD 0 < 2 ^ 64 := by
  have hTellable : ∀ file ∈ files, file.Tellable := by
    intro file hMem
    obtain ⟨i, hFile⟩ := List.getElem?_of_mem hMem
    obtain ⟨node, -, hMirrored⟩ := hMirrors.node i file hFile
    obtain ⟨names, hNames, -⟩ := hMirrored.path
    exact hListed.tellable hSelection hRoot hMem hNames
  obtain ⟨pdu', hPdu', hParsed'⟩ := FileDescription.parseFileDescriptors_pdu hTellable
    (FileDescription.lt_of_parsed hPdu hParsed) overflowChecks connId
  obtain rfl := Option.some.inj (hPdu.symm.trans hPdu')
  obtain rfl := Except.ok.inj (Option.some.inj (hParsed.symm.trans hParsed'))
  intro path mt hBelow hMetadata
  obtain ⟨file, hMem, hSame⟩ := hListed.covers path hBelow
  obtain ⟨mt', hMetadata', hMade⟩ := hListed.made file hMem
  rw [(hSelection.forest.spelled _ _ hSame).1, hMetadata] at hMetadata'
  obtain rfl := Option.some.inj hMetadata'
  have hModified : file.lastWriteTime = mt.modified.getD 0 := by
    rw [hMade]
    rfl
  obtain ⟨i, hFile⟩ := List.getElem?_of_mem hMem
  obtain ⟨node, hNode, hMirrored⟩ := hMirrors.node i file hFile
  have hDesc : (files.map (·.described connId))[i]? = some (file.described connId) := by
    rw [List.getElem?_map, hFile, Option.map_some]
  obtain ⟨found, hFound, hBare⟩ := (TreeNode.nodes_buildTree hBuilt).2.2 i _ hDesc
  obtain rfl := Option.some.inj (hNode.symm.trans hFound)
  have hTime : node.attributes.lastModified = file.lastWriteTime.toNat % 2 ^ 64 / 100 * 100 :=
    congrArg (fun node => node.attributes.lastModified) hBare
  rw [← hModified]
  by_contra hNot
  have hClose := (hMirrored.time (by omega)).2
  rw [hTime] at hClose
  omega

/-- A selection the tree of which mirrors it is one from one directory. -/
theorem PastesTree.fromOneDirectory (hSelection : Selection listing depth paths)
    (hPastes : PastesTree listing depth paths overflowChecks connId now) :
    ∃ relativeRoot, FromOneDirectory listing paths relativeRoot := by
  obtain ⟨relativeRoot, hRoot⟩ : ∃ relativeRoot, selectionRoot paths = some relativeRoot := by
    obtain ⟨relativeRoot, _, _, _, hRoot, -⟩ := hPastes
    exact ⟨relativeRoot, hRoot⟩
  obtain ⟨files, hListed, hIff⟩ := pastesTree_iff hSelection hRoot
  obtain ⟨pdu, descs, nodes, hPdu, hParsed, hBuilt, hMirrors⟩ := hIff.mp hPastes
  refine ⟨relativeRoot, hRoot, hMirrors.rooted hListed hSelection.forest hBuilt, ?_,
    hMirrors.times hListed hSelection hRoot hPdu hParsed hBuilt⟩
  rw [hListed.ncard_selectedComponents]
  exact FileDescription.lt_of_parsed hPdu hParsed

/-- A selection from one directory makes a tree that mirrors it. -/
theorem FromOneDirectory.pastesTree (hFrom : FromOneDirectory listing paths relativeRoot)
    (hSelection : Selection listing depth paths) :
    PastesTree listing depth paths overflowChecks connId now := by
  obtain ⟨files, hListed, hIff⟩ := pastesTree_iff hSelection hFrom.root
  have hTellable : ∀ file ∈ files, file.Tellable := by
    intro file hMem
    obtain ⟨i, hFile⟩ := List.getElem?_of_mem hMem
    obtain ⟨names, -, hNames, -⟩ := hListed.named_of_rooted hSelection hFrom.rooted hFile
    exact hListed.tellable hSelection hFrom.root hMem hNames
  have hCount := hFrom.count
  rw [hListed.ncard_selectedComponents] at hCount
  obtain ⟨pdu, hPdu, hParsed⟩ :=
    FileDescription.parseFileDescriptors_pdu hTellable hCount overflowChecks connId
  obtain ⟨nodes, hBuilt⟩ := (hListed.preordered hSelection hFrom.rooted connId).exists_nodes now
  exact hIff.mpr ⟨pdu, _, nodes, hPdu, hParsed, hBuilt, hListed.mirrors hSelection hFrom hBuilt⟩

/-- The pasted tree mirrors the copied one exactly for a selection from one directory, of as
many files as can be counted and with times that fit in their places. -/
theorem pastesTree_iff_fromOneDirectory (hSelection : Selection listing depth paths)
    (overflowChecks : Bool) (connId : Int) (now : Nat) :
    PastesTree listing depth paths overflowChecks connId now ↔
      ∃ relativeRoot, FromOneDirectory listing paths relativeRoot :=
  ⟨PastesTree.fromOneDirectory hSelection, fun ⟨_, hFrom⟩ => hFrom.pastesTree hSelection⟩

end Tree

/-- A directory `/a` with a file `x` in it, and a file `/y`. -/
def smallForest : Listing where
  metadata path :=
    match components path with
    | [.rootDir] | [.rootDir, .normal ['a']] =>
        some { len := 4096, isDir := true, readonly := false, mode := 0o40755, modified := some 0 }
    | [.rootDir, .normal ['a'], .normal ['x']] | [.rootDir, .normal ['y']] =>
        some { len := 3, isDir := false, readonly := false, mode := 0o100644, modified := some 250 }
    | _ => none
  readDir path :=
    match components path with
    | [.rootDir] => some [some ['a'], some ['y']]
    | [.rootDir, .normal ['a']] => some [some ['x']]
    | _ => none

section SmallForest

theorem smallForest_isEntry_iff {dir name : Text} :
    IsEntry smallForest dir name ↔
      components dir = [.rootDir] ∧ (name = ['a'] ∨ name = ['y']) ∨
        components dir = [.rootDir, .normal ['a']] ∧ name = ['x'] := by
  constructor
  · rintro ⟨mt, names, -, -, hNames, hMem⟩
    unfold smallForest at hNames
    dsimp only at hNames
    split at hNames
    · rename_i hDir
      obtain rfl := Option.some.inj hNames
      exact Or.inl ⟨hDir, by simpa using hMem⟩
    · rename_i hDir
      obtain rfl := Option.some.inj hNames
      exact Or.inr ⟨hDir, by simpa using hMem⟩
    · cases hNames
  · rintro (⟨hDir, hName⟩ | ⟨hDir, rfl⟩)
    · exact ⟨_, _, by simp only [smallForest, hDir]; rfl, rfl, by simp only [smallForest, hDir]; rfl,
        by simpa using hName⟩
    · exact ⟨_, _, by simp only [smallForest, hDir]; rfl, rfl, by simp only [smallForest, hDir]; rfl,
        by simp⟩

theorem smallForest_metadata {path : Text} {mt : Metadata}
    (hMetadata : smallForest.metadata path = some mt) :
    mt.len < 2 ^ 64 ∧ mt.mode < 2 ^ 32 ∧ mt.modified.getD 0 < 2 ^ 64 ∧
      ((components path = [.rootDir] ∨ components path = [.rootDir, .normal ['a']]) ∧ mt.isDir = true ∨
        (components path = [.rootDir, .normal ['a'], .normal ['x']] ∨
          components path = [.rootDir, .normal ['y']]) ∧ mt.isDir = false) := by
  unfold smallForest at hMetadata
  dsimp only at hMetadata
  split at hMetadata
  all_goals
    cases hMetadata
    try simp_all

theorem smallForest_forest : Forest smallForest := by
  have hPlain : ∀ name ∈ [['a'], ['x'], ['y']], PlainName name := by
    intro name hName
    simp only [List.mem_cons, List.not_mem_nil, or_false] at hName
    rcases hName with rfl | rfl | rfl <;> exact ⟨by decide, by decide, by decide⟩
  refine ⟨fun path hNil => ?_, fun p q hSame => ?_, fun dir mt hMetadata hDir => ?_,
    fun dir name hEntry => ?_, fun dir path name _ hBelow hExists => ?_⟩
  · simp [smallForest, hNil]
  · simp [smallForest, hSame]
  · obtain ⟨-, -, -, ⟨hRoot | hRoot, -⟩ | ⟨-, hFile⟩⟩ := smallForest_metadata hMetadata
    · exact ⟨[['a'], ['y']], by simp [smallForest, hRoot]⟩
    · exact ⟨[['x']], by simp [smallForest, hRoot]⟩
    · rw [hFile] at hDir
      cases hDir
  · unfold entryPath
    rcases smallForest_isEntry_iff.mp hEntry with ⟨hDir, rfl | rfl⟩ | ⟨hDir, rfl⟩
    all_goals
      refine ⟨hPlain _ (by simp), ?_⟩
      simp [smallForest, Lexical.Unix.components_join (hPlain _ _), hDir]
  · obtain ⟨mt, hMetadata⟩ := Option.isSome_iff_exists.mp hExists
    have hDir : components dir = (components path).dropLast := by rw [hBelow, List.dropLast_concat]
    have hLast : (components path).getLast? = some (.normal name) := by
      rw [hBelow, List.getLast?_concat]
    rw [smallForest_isEntry_iff, hDir]
    obtain ⟨-, -, -, ⟨hPath | hPath, -⟩ | ⟨hPath | hPath, -⟩⟩ := smallForest_metadata hMetadata
    all_goals
      rw [hPath] at hLast
      cases hLast
    all_goals simp [hPath]

/-- The paths at and below some paths are those that are found from them by entering. -/
theorem below_subset {listing : Listing} {paths found : List Text} (hPaths : paths ⊆ found)
    (hFound : ∀ dir ∈ found, ∀ name, IsEntry listing dir name → entryPath dir name ∈ found)
    {path : Text} (hBelow : Below listing paths path) : path ∈ found := by
  induction hBelow with
  | selected hPath => exact hPaths hPath
  | entry _ hName ih => exact hFound _ ih _ hName

/-- A selection in the small forest, with the paths found from it. -/
theorem smallForest_selection {depth : Nat} {paths found : List Text} {relativeRoot : Text}
    (hSome : paths ≠ []) (hPaths : paths ⊆ found)
    (hFound : ∀ dir ∈ found, ∀ name, IsEntry smallForest dir name → entryPath dir name ∈ found)
    (hPresent : ∀ path ∈ paths, (smallForest.metadata path).isSome = true)
    (hShallow : ∀ path ∈ paths, Shallow smallForest depth path)
    (hRoot : selectionRoot paths = some relativeRoot)
    (hNames : ∀ path ∈ found, ∀ rest ∈ stripPrefix relativeRoot path,
      (Utf16.encode rest).length ≤ 260 ∧ '\\' ∉ rest ∧ Char.ofNat 0 ∉ rest) :
    Selection smallForest depth paths where
  forest := smallForest_forest
  nonempty := hSome
  present := hPresent
  shallow := hShallow
  widths := fun path mt hMetadata =>
    ⟨(smallForest_metadata hMetadata).1, (smallForest_metadata hMetadata).2.1⟩
  names := by
    intro root path rest hSame hBelow hRest
    obtain rfl := Option.some.inj (hRoot.symm.trans hSame)
    exact hNames path (below_subset hPaths hFound hBelow) rest hRest

/-- A file of the small forest has no entries. -/
theorem smallForest_file {path name : Text}
    (hFile : (smallForest.metadata path).any (·.isDir) = false) : ¬ IsEntry smallForest path name := by
  rintro ⟨mt, _, hMetadata, hDir, -⟩
  rw [hMetadata] at hFile
  simp [hDir] at hFile

end SmallForest

/-- Of a file and another one from elsewhere no tree is made that mirrors them. -/
theorem elsewhere_loses_place :
    Selection smallForest 1 ["/a/x".toList, "/y".toList] ∧
      ¬ PastesTree smallForest 1 ["/a/x".toList, "/y".toList] false 0 0 := by
  have hFiles : ∀ path ∈ ["/a/x".toList, "/y".toList], ∀ name, ¬ IsEntry smallForest path name := by
    have hKinds : ∀ path ∈ ["/a/x".toList, "/y".toList],
        (smallForest.metadata path).any (·.isDir) = false := by
      decide
    exact fun path hPath name => smallForest_file (hKinds path hPath)
  have hRoot : selectionRoot ["/a/x".toList, "/y".toList] = some "/a".toList := by decide
  have hSelection : Selection smallForest 1 ["/a/x".toList, "/y".toList] :=
    smallForest_selection (by decide) (List.Subset.refl _)
      (fun dir hDir name hName => absurd hName (hFiles dir hDir name)) (by decide)
      (fun path hPath name hName => absurd hName (hFiles path hPath name)) hRoot (by decide)
  refine ⟨hSelection, fun hPastes => ?_⟩
  obtain ⟨relativeRoot, hFrom⟩ := hPastes.fromOneDirectory hSelection
  obtain rfl := Option.some.inj (hRoot.symm.trans hFrom.root)
  have hFile : components "/a/x".toList = [.rootDir, .normal ['a'], .normal ['x']] := by decide
  have hDir : components "/a".toList = [.rootDir, .normal ['a']] := by decide
  have hOther : components "/y".toList = [.rootDir, .normal ['y']] := by decide
  rcases hFrom.rooted 1 "/y".toList rfl with ⟨name, hName⟩ | ⟨earlier, hEarlier, names, hNames⟩
  · rw [hDir, hOther] at hName
    simp at hName
  · obtain rfl := List.mem_singleton.mp hEarlier
    rw [hFile, hOther] at hNames
    simp at hNames

theorem pastesTree_of_directory : PastesTree smallForest 2 ["/a".toList] true 7 0 := by
  have hEntry : ∀ name, IsEntry smallForest "/a".toList name → name = ['x'] := by
    intro name hName
    have hDir : components "/a".toList = [.rootDir, .normal ['a']] := by decide
    rw [smallForest_isEntry_iff, hDir] at hName
    simpa using hName
  have hFile : ∀ name, ¬ IsEntry smallForest "/a/x".toList name := fun _ =>
    smallForest_file (by decide)
  have hPath : entryPath "/a".toList ['x'] = "/a/x".toList := by decide
  have hFound : ∀ dir ∈ ["/a".toList, "/a/x".toList], ∀ name, IsEntry smallForest dir name →
      entryPath dir name ∈ ["/a".toList, "/a/x".toList] := by
    intro dir hDir name hName
    rcases List.mem_cons.mp hDir with rfl | hLast
    · rw [hEntry name hName, hPath]
      exact List.mem_cons_of_mem _ List.mem_cons_self
    · rw [List.mem_singleton.mp hLast] at hName
      exact absurd hName (hFile name)
  have hShallow : ∀ path ∈ ["/a".toList], Shallow smallForest 2 path := by
    intro path hPathMem name hName
    obtain rfl := List.mem_singleton.mp hPathMem
    rw [hEntry name hName, hPath]
    exact fun name hName => absurd hName (hFile name)
  have hRoot : selectionRoot ["/a".toList] = some "/".toList := by decide
  have hSelection : Selection smallForest 2 ["/a".toList] :=
    smallForest_selection (by decide) (by decide) hFound (by decide) hShallow hRoot (by decide)
  refine (pastesTree_iff_fromOneDirectory hSelection true 7 0).mpr ⟨_, hRoot, ?_, ?_, ?_⟩
  · intro k path hAt
    obtain rfl := List.mem_singleton.mp (List.mem_of_getElem? hAt)
    exact Or.inl ⟨['a'], by decide⟩
  · have hSubset : selectedComponents smallForest ["/a".toList] ⊆
        ↑[components "/a".toList, components "/a/x".toList].toFinset := by
      rintro cs ⟨path, hBelow, rfl⟩
      rw [List.coe_toFinset]
      exact List.mem_map_of_mem (f := components) (below_subset (by decide) hFound hBelow)
    have hFew := Set.ncard_le_ncard hSubset
    rw [Set.ncard_coe_finset] at hFew
    exact Nat.lt_of_le_of_lt (hFew.trans (List.toFinset_card_le _)) (by decide)
  · exact fun path mt _ hMetadata => (smallForest_metadata hMetadata).2.2.1

end HibtDesk.Clipboard
