import HibtDesk.Clipboard.Described

/-! The tree that is made of a list. A file ends up below the directory with the path of
its parent if that was listed before it, and below the root otherwise. -/
namespace HibtDesk.Clipboard

open Lexical (Text)
open Lexical.Unix (components fileName)

/-- The names on the way from the root to a node, along the links to the parents. -/
inductive LinkedPath (nodes : List TreeNode) : TreeNode → List Text → Prop where
  | root {node : TreeNode} (hRoot : node.parent = none) : LinkedPath nodes node []
  | child {node above : TreeNode} {inode : Nat} {names : List Text} (hParent : node.parent = some inode)
      (hAbove : nodes[inode - 1]? = some above) (hNames : LinkedPath nodes above names) :
      LinkedPath nodes node (names ++ [node.name])

/-- A node has one path. -/
theorem LinkedPath.unique {nodes : List TreeNode} {node : TreeNode} {names others : List Text}
    (hNames : LinkedPath nodes node names) (hOthers : LinkedPath nodes node others) :
    names = others := by
  induction hNames generalizing others with
  | root hRoot =>
      cases hOthers with
      | root _ => rfl
      | child hParent _ _ =>
          rw [hRoot] at hParent
          cases hParent
  | child hParent hAbove hNames ih =>
      cases hOthers with
      | root hRoot =>
          rw [hRoot] at hParent
          cases hParent
      | child hParent' hAbove' hNames' =>
          obtain rfl := Option.some.inj (hParent.symm.trans hParent')
          obtain rfl := Option.some.inj (hAbove.symm.trans hAbove')
          rw [ih hNames']

namespace TreeNode

/-- A node without the list of what hangs below it. -/
def bare (node : TreeNode) : TreeNode := { node with children := [] }

/-- The paths kept after some more files. -/
def subRoots (count : Nat) (subRootMap : List (Text × Nat)) : List FileDescription → List (Text × Nat)
  | [] => subRootMap
  | file :: files =>
      subRoots (count + 1)
        (if file.kind = .directory then (file.name, count + fuseRootId) :: subRootMap else subRootMap)
        files

/-- The node of a file below a parent. -/
def hung (inode parent : Nat) (file : FileDescription) : TreeNode :=
  { fromDescription inode { file with name := (fileName file.name).getD [] } with
    parent := some parent }

/-- The nodes of some more files. -/
def hungFrom (count : Nat) (subRootMap : List (Text × Nat)) : List FileDescription → List TreeNode
  | [] => []
  | file :: files =>
      hung (count + fuseRootId) (parentInode subRootMap file.name) file ::
        hungFrom (count + 1) (subRoots count subRootMap [file]) files

section Build
variable {treeList nodes : List TreeNode} {subRootMap : List (Text × Nat)}
  {files : List FileDescription}

theorem bare_modify_addChild (treeList : List TreeNode) (k inode : Nat) :
    (treeList.modify k (·.addChild inode)).map bare = treeList.map bare := by
  induction treeList generalizing k with
  | nil => simp
  | cons node rest ih =>
      cases k with
      | zero => simp [addChild, bare]
      | succ k => simp [ih]

/-- Building goes through if every file has a name. -/
theorem buildFrom_of_named (hNamed : ∀ file ∈ files, (fileName file.name).isSome = true) :
    ∃ nodes, buildFrom treeList subRootMap files = .ok nodes := by
  induction files generalizing treeList subRootMap with
  | nil => exact ⟨treeList, rfl⟩
  | cons file files ih =>
      obtain ⟨hFile, hFiles⟩ := List.forall_mem_cons.mp hNamed
      obtain ⟨baseName, hBase⟩ := Option.isSome_iff_exists.mp hFile
      rw [buildFrom]
      dsimp only
      rw [hBase]
      exact ih hFiles

/-- Apart from their children the nodes are those of the files, one after the other. -/
theorem bare_buildFrom (hBuild : buildFrom treeList subRootMap files = .ok nodes) :
    nodes.map bare = treeList.map bare ++ hungFrom treeList.length subRootMap files := by
  induction files generalizing treeList subRootMap with
  | nil =>
      obtain rfl := Except.ok.inj hBuild
      rw [hungFrom, List.append_nil]
  | cons file files ih =>
      rw [buildFrom] at hBuild
      dsimp only at hBuild
      split at hBuild
      · cases hBuild
      · rename_i baseName hBase
        have hRest := ih hBuild
        rw [hRest, List.map_append, bare_modify_addChild, List.append_assoc, List.length_append,
          List.length_modify, hungFrom]
        simp only [hung, hBase, Option.getD_some, subRoots]
        rfl

theorem getElem?_hungFrom (count : Nat) {i : Nat} {file : FileDescription}
    (hFile : files[i]? = some file) :
    (hungFrom count subRootMap files)[i]? =
      some (hung (count + i + fuseRootId)
        (parentInode (subRoots count subRootMap (files.take i)) file.name) file) := by
  induction files generalizing count subRootMap i with
  | nil => simp at hFile
  | cons first files ih =>
      cases i with
      | zero =>
          obtain rfl : first = file := by simpa using hFile
          rfl
      | succ i =>
          have hRest : files[i]? = some file := by simpa using hFile
          rw [hungFrom, List.getElem?_cons_succ, ih (count + 1) hRest, List.take_succ_cons]
          simp only [subRoots, Nat.add_assoc, Nat.add_comm 1]

theorem length_hungFrom (count : Nat) (subRootMap : List (Text × Nat)) (files : List FileDescription) :
    (hungFrom count subRootMap files).length = files.length := by
  induction files generalizing count subRootMap with
  | nil => rfl
  | cons file files ih => rw [hungFrom, List.length_cons, ih, List.length_cons]

/-- What is kept for a path is from before or stands for a directory of the list. -/
theorem mem_subRoots {count inode : Nat} {path : Text}
    (hMem : (path, inode) ∈ subRoots count subRootMap files) :
    (path, inode) ∈ subRootMap ∨ ∃ j file, files[j]? = some file ∧ file.kind = .directory ∧
      path = file.name ∧ inode = count + j + fuseRootId := by
  induction files generalizing count subRootMap with
  | nil => exact Or.inl hMem
  | cons first files ih =>
      rcases ih hMem with hBefore | ⟨j, file, hFile, hDir, hPath, hInode⟩
      · split at hBefore
        · rename_i hDir
          rcases List.mem_cons.mp hBefore with hFirst | hOld
          · obtain ⟨rfl, rfl⟩ := Prod.mk.inj hFirst
            exact Or.inr ⟨0, first, rfl, hDir, rfl, rfl⟩
          · exact Or.inl hOld
        · exact Or.inl hBefore
      · refine Or.inr ⟨j + 1, file, hFile, hDir, hPath, ?_⟩
        rw [hInode]
        omega

theorem subRootMap_subset_subRoots (count : Nat) (subRootMap : List (Text × Nat))
    (files : List FileDescription) : subRootMap ⊆ subRoots count subRootMap files := by
  induction files generalizing count subRootMap with
  | nil => exact List.Subset.refl _
  | cons first files ih =>
      refine List.Subset.trans ?_ (ih _ _)
      split
      · exact List.subset_cons_self _ _
      · exact List.Subset.refl _

/-- Every directory of the list is kept. -/
theorem subRoots_of_directory {count j : Nat} {file : FileDescription} (hFile : files[j]? = some file)
    (hDir : file.kind = .directory) :
    (file.name, count + j + fuseRootId) ∈ subRoots count subRootMap files := by
  induction files generalizing count subRootMap j with
  | nil => simp at hFile
  | cons first files ih =>
      cases j with
      | zero =>
          obtain rfl : first = file := by simpa using hFile
          refine subRootMap_subset_subRoots _ _ files ?_
          rw [if_pos hDir]
          exact List.mem_cons_self
      | succ j =>
          have hRest : files[j]? = some file := by simpa using hFile
          have hPlace : count + (j + 1) + fuseRootId = count + 1 + j + fuseRootId := by omega
          rw [hPlace]
          exact ih hRest

theorem subRoot_eq_some {path : Text} {inode : Nat} (hFound : subRoot subRootMap path = some inode) :
    ∃ spelled, (spelled, inode) ∈ subRootMap ∧ components spelled = components path := by
  obtain ⟨⟨spelled, found⟩, hEntry, rfl⟩ := Option.map_eq_some_iff.mp hFound
  exact ⟨spelled, List.mem_of_find?_eq_some hEntry, by simpa using List.find?_some hEntry⟩

theorem subRoot_isSome {path spelled : Text} {inode : Nat} (hMem : (spelled, inode) ∈ subRootMap)
    (hSame : components spelled = components path) : ∃ found, subRoot subRootMap path = some found := by
  unfold subRoot
  cases hFind : subRootMap.find? fun entry => components entry.1 == components path with
  | some entry => exact ⟨entry.2, rfl⟩
  | none =>
      have hNot := List.find?_eq_none.mp hFind _ hMem
      simp [hSame] at hNot

end Build

/-- What the tree keeps for paths once it has some files. -/
def kept (files : List FileDescription) : List (Text × Nat) :=
  subRoots 1 [(['/'], fuseRootId), ([], fuseRootId)] files

section Tree
variable {now : Nat} {files : List FileDescription} {nodes : List TreeNode}

/-- The first node is the root, and the others are those of the files. -/
theorem nodes_buildTree (hBuild : buildTree now files = .ok nodes) :
    nodes.length = files.length + 1 ∧ (∃ root, nodes[0]? = some root ∧ root.parent = none) ∧
      ∀ i file, files[i]? = some file → ∃ node, nodes[i + 1]? = some node ∧
        node.bare = hung (i + 2) (parentInode (kept (files.take i)) file.name) file := by
  have hBare := bare_buildFrom hBuild
  have hLength := congrArg List.length hBare
  simp only [List.length_map, List.length_append, length_hungFrom, List.length_cons,
    List.length_nil] at hLength
  refine ⟨by omega, ?_, fun i file hFile => ?_⟩
  · have hFirst := congrArg (·[0]?) hBare
    simp only [List.getElem?_map, List.map_cons, List.map_nil, List.cons_append,
      List.getElem?_cons_zero] at hFirst
    obtain ⟨root, hRoot, hSame⟩ := Option.map_eq_some_iff.mp hFirst
    exact ⟨root, hRoot, congrArg TreeNode.parent hSame⟩
  · have hNode := congrArg (·[i + 1]?) hBare
    simp only [List.getElem?_map, List.map_cons, List.map_nil, List.cons_append, List.nil_append,
      List.getElem?_cons_succ] at hNode
    rw [getElem?_hungFrom _ hFile] at hNode
    obtain ⟨node, hFound, hSame⟩ := Option.map_eq_some_iff.mp hNode
    refine ⟨node, hFound, hSame.trans ?_⟩
    have hInode : [newRoot now].length + i + fuseRootId = i + 2 := by
      simp [fuseRootId]
      omega
    rw [hInode]
    rfl

/-- A file hangs below a node before its own. -/
theorem parentInode_bounds (i : Nat) (name : Text) :
    1 ≤ parentInode (kept (files.take i)) name ∧ parentInode (kept (files.take i)) name ≤ i + 1 := by
  unfold parentInode
  split
  · rename_i above hAbove
    cases hFound : subRoot (kept (files.take i)) above with
    | none => exact ⟨Nat.le_refl _, Nat.le_add_left _ _⟩
    | some inode =>
        obtain ⟨spelled, hMem, -⟩ := subRoot_eq_some hFound
        rw [Option.getD_some]
        rcases mem_subRoots hMem with hRoots | ⟨j, file, hFile, -, -, rfl⟩
        · simp only [List.mem_cons, Prod.mk.injEq, List.not_mem_nil, or_false] at hRoots
          rcases hRoots with ⟨-, rfl⟩ | ⟨-, rfl⟩ <;> exact ⟨Nat.le_refl _, Nat.le_add_left _ _⟩
        · have hj : j < (files.take i).length := (List.getElem?_eq_some_iff.mp hFile).1
          have hTake := List.length_take_le i files
          unfold fuseRootId
          omega
  · exact ⟨Nat.le_refl _, Nat.le_add_left _ _⟩

end Tree

end TreeNode

/-- A description has these names for its path. -/
def NamedBy (file : FileDescription) (names : List Text) : Prop :=
  components file.name = names.map .normal

/-- Every file of the list has a path of names of its own, and stands at the top or after
the directory it is in. -/
structure Preordered (files : List FileDescription) : Prop where
  named : ∀ file ∈ files, ∃ names, names ≠ [] ∧ NamedBy file names
  distinct : ∀ (i j : Nat) (file other : FileDescription), files[i]? = some file → files[j]? = some other →
    components file.name = components other.name → i = j
  order : ∀ (i : Nat) (file : FileDescription) names, files[i]? = some file → NamedBy file names →
    names.dropLast = [] ∨ ∃ j dir, j < i ∧ files[j]? = some dir ∧ dir.kind = .directory ∧
      NamedBy dir names.dropLast

namespace Preordered
variable {now : Nat} {files : List FileDescription} {nodes : List TreeNode}
  (hPreordered : Preordered files)
include hPreordered

omit hPreordered in
/-- The last of the names is the name of the file. -/
theorem fileName_eq {file : FileDescription} {names : List Text} (hSome : names ≠ [])
    (hNames : NamedBy file names) : fileName file.name = some (names.getLast hSome) := by
  apply Lexical.Unix.fileName_of_getLast?
  rw [hNames, List.getLast?_map, List.getLast?_eq_some_getLast hSome]
  rfl

theorem exists_nodes (now : Nat) : ∃ nodes, TreeNode.buildTree now files = .ok nodes := by
  refine TreeNode.buildFrom_of_named fun file hFile => ?_
  obtain ⟨names, hSome, hNames⟩ := hPreordered.named file hFile
  rw [fileName_eq hSome hNames]
  rfl

omit hPreordered in
theorem exists_parent {file : FileDescription} {names : List Text} (hSome : names ≠ [])
    (hNames : NamedBy file names) :
    ∃ above, Lexical.Unix.parent file.name = some above ∧
      components above = names.dropLast.map .normal := by
  obtain ⟨above, hAbove⟩ := Lexical.Unix.parent_of_fileName (fileName_eq hSome hNames)
  refine ⟨above, hAbove, ?_⟩
  rw [(Lexical.Unix.components_parent hAbove).2, hNames, List.map_dropLast]

/-- A file at the top hangs below the root. -/
theorem parentInode_top {i : Nat} {file : FileDescription} {names : List Text}
    (hSome : names ≠ []) (hNames : NamedBy file names) (hTop : names.dropLast = []) :
    TreeNode.parentInode (TreeNode.kept (files.take i)) file.name = 1 := by
  obtain ⟨above, hAbove, hComponents⟩ := exists_parent hSome hNames
  rw [hTop, List.map_nil] at hComponents
  unfold TreeNode.parentInode
  rw [hAbove]
  dsimp only
  cases hFound : TreeNode.subRoot (TreeNode.kept (files.take i)) above with
  | none => rfl
  | some inode =>
      obtain ⟨spelled, hMem, hSame⟩ := TreeNode.subRoot_eq_some hFound
      rcases TreeNode.mem_subRoots hMem with hRoots | ⟨j, dir, hDir, -, rfl, -⟩
      · simp only [List.mem_cons, Prod.mk.injEq, List.not_mem_nil, or_false] at hRoots
        rcases hRoots with ⟨-, rfl⟩ | ⟨-, rfl⟩ <;> rfl
      · -- No directory of the list has the empty path.
        obtain ⟨others, hOthers, hDirNames⟩ :=
          hPreordered.named dir (List.mem_of_mem_take (List.mem_of_getElem? hDir))
        rw [hDirNames, hComponents, List.map_eq_nil_iff] at hSame
        exact absurd hSame hOthers

/-- A file in a directory hangs below the node of that. -/
theorem parentInode_dir {i j : Nat} {file dir : FileDescription} {names : List Text}
    (hSome : names ≠ []) (hNames : NamedBy file names) (hBefore : j < i) (hDir : files[j]? = some dir)
    (hKind : dir.kind = .directory) (hAbove : NamedBy dir names.dropLast) :
    TreeNode.parentInode (TreeNode.kept (files.take i)) file.name = j + 2 := by
  obtain ⟨above, hParent, hComponents⟩ := exists_parent hSome hNames
  have hSame : components dir.name = components above := hAbove.trans hComponents.symm
  have hTaken : (files.take i)[j]? = some dir := by rw [List.getElem?_take_of_lt hBefore, hDir]
  unfold TreeNode.parentInode
  rw [hParent]
  dsimp only
  have hKept : (dir.name, j + 2) ∈ TreeNode.kept (files.take i) := by
    have hPlace : j + 2 = 1 + j + fuseRootId := by
      unfold fuseRootId
      omega
    rw [hPlace]
    exact TreeNode.subRoots_of_directory hTaken hKind
  obtain ⟨inode, hFound⟩ := TreeNode.subRoot_isSome hKept hSame
  obtain ⟨spelled, hMem, hSpelled⟩ := TreeNode.subRoot_eq_some hFound
  have hNode : inode = j + 2 := by
    rcases TreeNode.mem_subRoots hMem with hRoots | ⟨k, other, hOther, -, rfl, rfl⟩
    · -- The paths of the root are not made of names.
      have hDirName : components spelled = names.dropLast.map .normal := hSpelled.trans hComponents
      have hSomeDir : names.dropLast ≠ [] := by
        obtain ⟨others, hOthers, hDirNames⟩ := hPreordered.named dir (List.mem_of_getElem? hDir)
        intro hNil
        rw [NamedBy, hAbove, hNil, List.map_nil] at hDirNames
        exact hOthers (List.map_eq_nil_iff.mp hDirNames.symm)
      simp only [List.mem_cons, Prod.mk.injEq, List.not_mem_nil, or_false] at hRoots
      obtain ⟨first, rest, hCons⟩ := List.exists_cons_of_ne_nil hSomeDir
      rw [hCons] at hDirName
      rcases hRoots with ⟨rfl, -⟩ | ⟨rfl, -⟩ <;> simp [components, Lexical.Unix.front,
        Lexical.Unix.pieces, Lexical.Unix.component, Lexical.Unix.blank] at hDirName
    · have hPlace : (files.take i)[k]? = some other := hOther
      have hk : files[k]? = some other := by
        have hLt : k < (files.take i).length := (List.getElem?_eq_some_iff.mp hPlace).1
        rw [List.length_take] at hLt
        rwa [List.getElem?_take_of_lt (by omega)] at hPlace
      have hEq := hPreordered.distinct k j other dir hk hDir (hSpelled.trans hSame.symm)
      unfold fuseRootId
      omega
  rw [hFound, hNode]
  rfl

/-- Along the links each node has the path of its file. -/
theorem linkedPath (hBuild : TreeNode.buildTree now files = .ok nodes) {i : Nat}
    {file : FileDescription} {names : List Text} (hFile : files[i]? = some file) (hSome : names ≠ [])
    (hNames : NamedBy file names) : ∃ node, nodes[i + 1]? = some node ∧ LinkedPath nodes node names := by
  obtain ⟨-, ⟨root, hRoot, hNoParent⟩, hNodes⟩ := TreeNode.nodes_buildTree hBuild
  induction i using Nat.strong_induction_on generalizing file names with
  | _ i ih =>
      obtain ⟨node, hNode, hBare⟩ := hNodes i file hFile
      have hName : node.name = names.getLast hSome := by
        have hSame : node.name = (fileName file.name).getD [] := congrArg TreeNode.name hBare
        rw [hSame, fileName_eq hSome hNames, Option.getD_some]
      have hParent : node.parent =
          some (TreeNode.parentInode (TreeNode.kept (files.take i)) file.name) :=
        congrArg TreeNode.parent hBare
      have hWhole : names.dropLast ++ [node.name] = names := by
        rw [hName, List.dropLast_append_getLast]
      refine ⟨node, hNode, ?_⟩
      rw [← hWhole]
      rcases hPreordered.order i file names hFile hNames with hTop | ⟨j, dir, hBefore, hDir, hKind, hAbove⟩
      · rw [hPreordered.parentInode_top hSome hNames hTop] at hParent
        rw [hTop]
        exact .child hParent hRoot (.root hNoParent)
      · rw [hPreordered.parentInode_dir hSome hNames hBefore hDir hKind hAbove] at hParent
        obtain ⟨others, hOthers, hDirNames⟩ := hPreordered.named dir (List.mem_of_getElem? hDir)
        have hSame : others = names.dropLast := by
          have hMaps : others.map Lexical.Unix.Component.normal = names.dropLast.map .normal :=
            hDirNames.symm.trans hAbove
          exact List.map_injective_iff.mpr (fun _ _ h => Lexical.Unix.Component.normal.inj h) hMaps
        obtain ⟨above, hAboveNode, hLinked⟩ := ih j hBefore hDir hOthers hDirNames
        rw [hSame] at hLinked
        exact .child hParent hAboveNode hLinked

end Preordered

end HibtDesk.Clipboard
