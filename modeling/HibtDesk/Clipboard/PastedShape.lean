import HibtDesk.Clipboard.PastedPlaces

/-! The shape of the tree that is made of a list, whatever the peer put in it, and what the
file system finds in it. A file whose directory was not listed before it hangs below the
root, so that every link goes to a directory that came earlier. -/
namespace HibtDesk.Clipboard

open Lexical (Text)
open Lexical.Unix (PlainName fileName)

/-- The errors a file system answers with. -/
inductive Errno where
  | enametoolong | enoent | enotdir | ebadf
  deriving DecidableEq, Repr

def maxNameLen : Nat := 255

namespace TreeNode

/-- The place of an inode the kernel asks for, `inode as usize - 1`. For an inode of zero it
wraps, or panics in a build with overflow checks. -/
def askedIndex (overflowChecks : Bool) (inode : Nat) : Option Nat :=
  if inode = 0 then (if overflowChecks then none else some (2 ^ 64 - 1)) else some (inode - 1)

/-- `files[inode as usize - 1]` for an inode of the tree. There is no result if it panics. -/
def entry (files : List TreeNode) (inode : Nat) : Option TreeNode :=
  if inode = 0 then none else files[inode - 1]?

/-- The loop of `lookup` over the children of a directory. -/
def lookupChild (entries : List TreeNode) (name : Text) :
    List Nat → Option (Except Errno InodeAttributes)
  | [] => some (.error .enoent)
  | inode :: rest =>
      match entry entries inode with
      | none => none
      | some child =>
          if child.name = name then some (.ok child.attributes) else lookupChild entries name rest

/-- `lookup`, with what it replies. There is no result if it panics. -/
def lookup (overflowChecks : Bool) (files : List TreeNode) (parent : Nat) (name : Text) :
    Option (Except Errno InodeAttributes) :=
  if maxNameLen < (String.ofList name).utf8ByteSize then some (.error .enametoolong)
  else
    match askedIndex overflowChecks parent with
    | none => none
    | some index =>
        match files[index]? with
        | none => some (.error .enoent)
        | some parentEntry =>
            if parentEntry.attributes.kind ≠ .directory then some (.error .enotdir)
            else lookupChild files name parentEntry.children

/-- The children of a directory as `readdir` lists them. -/
def childEntries (files : List TreeNode) : List Nat → Option (List (Nat × FileType × Text))
  | [] => some []
  | inode :: rest =>
      match entry files inode, childEntries files rest with
      | some child, some entries => some ((inode, child.attributes.kind, child.name) :: entries)
      | _, _ => none

/-- `readdir` into a reply that takes so many entries. There is no result if it panics. -/
def readdir (overflowChecks : Bool) (files : List TreeNode) (ino : Nat) (haveHandler : Bool)
    (offset : Int) (room : Nat) : Option (Except Errno (List (Nat × FileType × Text))) :=
  match askedIndex overflowChecks ino with
  | none => none
  | some index =>
      match files[index]? with
      | none => some (.error .enoent)
      | some node =>
          if !haveHandler then some (.error .ebadf)
          else if node.attributes.kind ≠ .directory then some (.error .enotdir)
          else
            let own : List (Nat × FileType × Text) := [(ino, .directory, ['.'])]
            let above := node.parent.toList.map fun inode => (inode, FileType.directory, ['.', '.'])
            (childEntries files node.children).map fun children =>
              .ok (((own ++ above ++ children).drop (offset % 2 ^ 64).toNat).take room)

/-- The tree is one: its nodes are numbered in order, each but the root hangs below a
directory that came before it and is there once, and has a name of its own. -/
structure WellFormed (nodes : List TreeNode) : Prop where
  root : ∃ node, nodes[0]? = some node ∧ node.parent = none ∧ node.attributes.kind = .directory
  inode : ∀ k node, nodes[k]? = some node → node.attributes.inode = k + 1
  index : ∀ k node, nodes[k + 1]? = some node → node.index = k
  parent : ∀ k node, nodes[k + 1]? = some node → ∃ p above, node.parent = some p ∧ 1 ≤ p ∧ p < k + 2 ∧
    nodes[p - 1]? = some above ∧ above.attributes.kind = .directory ∧ above.children.count (k + 2) = 1
  only : ∀ j node inode, nodes[j]? = some node → inode ∈ node.children → ∃ below, 2 ≤ inode ∧
    nodes[inode - 1]? = some below ∧ below.parent = some (j + 1)
  name : ∀ k node, nodes[k + 1]? = some node → PlainName node.name

/-- The paths are kept with directories of the tree. -/
def Points (nodes : List TreeNode) (subRootMap : List (Text × Nat)) : Prop :=
  ∀ entry ∈ subRootMap, 1 ≤ entry.2 ∧
    ∃ node, nodes[entry.2 - 1]? = some node ∧ node.attributes.kind = .directory

section Grow
variable {nodes : List TreeNode} {p : Nat} {last : TreeNode}

/-- The tree with one more node, below the one with an inode. -/
def grow (nodes : List TreeNode) (p : Nat) (last : TreeNode) : List TreeNode :=
  nodes.modify (p - 1) (·.addChild (nodes.length + fuseRootId)) ++ [last]

/-- A node of the grown tree is one of before, or the one that was added. -/
theorem grow_cases {k : Nat} {node : TreeNode} (hNode : (grow nodes p last)[k]? = some node) :
    (∃ before, nodes[k]? = some before ∧
      node = if p - 1 = k then before.addChild (nodes.length + fuseRootId) else before) ∨
    k = nodes.length ∧ node = last := by
  unfold grow at hNode
  rw [List.getElem?_append, List.length_modify] at hNode
  split at hNode
  · rw [List.getElem?_modify] at hNode
    obtain ⟨before, hBefore, rfl⟩ := Option.map_eq_some_iff.mp hNode
    exact Or.inl ⟨before, hBefore, rfl⟩
  · rename_i hPast
    obtain rfl := List.mem_singleton.mp (List.mem_of_getElem? hNode)
    have hIndex := (List.getElem?_eq_some_iff.mp hNode).1
    rw [List.length_singleton] at hIndex
    exact Or.inr ⟨by omega, rfl⟩

theorem getElem?_grow {k : Nat} {before : TreeNode} (hBefore : nodes[k]? = some before) :
    (grow nodes p last)[k]? =
      some (if p - 1 = k then before.addChild (nodes.length + fuseRootId) else before) := by
  have hIndex : k < nodes.length := (List.getElem?_eq_some_iff.mp hBefore).1
  unfold grow
  rw [List.getElem?_append_left (by rw [List.length_modify]; exact hIndex), List.getElem?_modify,
    hBefore]
  rfl

theorem getElem?_grow_last : (grow nodes p last)[nodes.length]? = some last := by
  unfold grow
  rw [List.getElem?_append_right (by rw [List.length_modify])]
  simp

/-- The node that is added below a directory of the tree. -/
structure Hangs (nodes : List TreeNode) (p : Nat) (last : TreeNode) : Prop where
  first : 1 ≤ p
  above : ∃ above, nodes[p - 1]? = some above ∧ above.attributes.kind = .directory
  parent : last.parent = some p
  inode : last.attributes.inode = nodes.length + 1
  index : last.index = nodes.length - 1
  name : PlainName last.name
  children : last.children = []

theorem WellFormed.length_pos (hFormed : WellFormed nodes) : 0 < nodes.length := by
  obtain ⟨root, hRoot, -⟩ := hFormed.root
  exact (List.getElem?_eq_some_iff.mp hRoot).1

/-- No node has a child yet that is to be added. -/
theorem WellFormed.count_eq_zero (hFormed : WellFormed nodes) {j : Nat} {node : TreeNode}
    (hNode : nodes[j]? = some node) : node.children.count (nodes.length + 1) = 0 := by
  refine List.count_eq_zero.mpr fun hMem => ?_
  obtain ⟨below, -, hBelow, -⟩ := hFormed.only j node _ hNode hMem
  have hIndex := (List.getElem?_eq_some_iff.mp hBelow).1
  omega

theorem WellFormed.only_grow (hFormed : WellFormed nodes) (hHangs : Hangs nodes p last) {j inode : Nat}
    {node : TreeNode} (hNode : (grow nodes p last)[j]? = some node) (hMem : inode ∈ node.children) :
    ∃ below, 2 ≤ inode ∧ (grow nodes p last)[inode - 1]? = some below ∧ below.parent = some (j + 1) := by
  have hOld : ∀ before : TreeNode, nodes[j]? = some before → inode ∈ before.children →
      ∃ below, 2 ≤ inode ∧ (grow nodes p last)[inode - 1]? = some below ∧
        below.parent = some (j + 1) := by
    intro before hBefore hMem
    obtain ⟨below, hTwo, hBelow, hParent⟩ := hFormed.only j before inode hBefore hMem
    refine ⟨_, hTwo, getElem?_grow hBelow, ?_⟩
    split <;> exact hParent
  rcases grow_cases hNode with ⟨before, hBefore, rfl⟩ | ⟨-, rfl⟩
  · split at hMem
    · rename_i hPlace
      rcases List.mem_append.mp hMem with hBeforehand | hNew
      · exact hOld before hBefore hBeforehand
      · obtain rfl := List.mem_singleton.mp hNew
        have hPositive := hFormed.length_pos
        have hFirst := hHangs.first
        refine ⟨last, by unfold fuseRootId; omega, getElem?_grow_last, ?_⟩
        rw [hHangs.parent]
        congr 1
        omega
    · exact hOld before hBefore hMem
  · rw [hHangs.children] at hMem
    cases hMem

theorem WellFormed.parent_grow (hFormed : WellFormed nodes) (hHangs : Hangs nodes p last) {k : Nat}
    {node : TreeNode} (hNode : (grow nodes p last)[k + 1]? = some node) :
    ∃ q above, node.parent = some q ∧ 1 ≤ q ∧ q < k + 2 ∧ (grow nodes p last)[q - 1]? = some above ∧
      above.attributes.kind = .directory ∧ above.children.count (k + 2) = 1 := by
  rcases grow_cases hNode with ⟨before, hBefore, rfl⟩ | ⟨hLast, rfl⟩
  · obtain ⟨q, above, hParent, hFirst, hEarlier, hAbove, hDir, hOnce⟩ := hFormed.parent k before hBefore
    have hIndex := (List.getElem?_eq_some_iff.mp hBefore).1
    refine ⟨q, _, ?_, hFirst, hEarlier, getElem?_grow hAbove, ?_, ?_⟩
    · split <;> exact hParent
    · split <;> exact hDir
    · split
      · have hOther : nodes.length + fuseRootId ≠ k + 2 := by
          unfold fuseRootId
          omega
        rw [addChild, List.count_append, hOnce, List.count_singleton, if_neg (by simpa using hOther)]
      · exact hOnce
  · obtain ⟨above, hAbove, hDir⟩ := hHangs.above
    have hIndex := (List.getElem?_eq_some_iff.mp hAbove).1
    have hInode : nodes.length + fuseRootId = k + 2 := by
      unfold fuseRootId
      omega
    refine ⟨p, _, hHangs.parent, hHangs.first, by omega, getElem?_grow hAbove, ?_, ?_⟩
    · rw [if_pos rfl]
      exact hDir
    · have hZero := hFormed.count_eq_zero hAbove
      have hSame : nodes.length + 1 = k + 2 := hInode
      rw [if_pos rfl, addChild, List.count_append, hInode, ← hSame, hZero, List.count_singleton_self]

/-- A tree stays one with a node more. -/
theorem WellFormed.grow (hFormed : WellFormed nodes) (hHangs : Hangs nodes p last) :
    WellFormed (grow nodes p last) := by
  have hPositive := hFormed.length_pos
  constructor
  case root =>
    obtain ⟨root, hRoot, hParent, hDir⟩ := hFormed.root
    refine ⟨_, getElem?_grow hRoot, ?_, ?_⟩
    · split <;> exact hParent
    · split <;> exact hDir
  case inode =>
    intro k node hNode
    rcases grow_cases hNode with ⟨before, hBefore, rfl⟩ | ⟨rfl, rfl⟩
    · have hInode := hFormed.inode k before hBefore
      split <;> exact hInode
    · exact hHangs.inode
  case index =>
    intro k node hNode
    rcases grow_cases hNode with ⟨before, hBefore, rfl⟩ | ⟨hLast, rfl⟩
    · have hIndex := hFormed.index k before hBefore
      split <;> exact hIndex
    · rw [hHangs.index]
      omega
  case parent => exact fun k node hNode => hFormed.parent_grow hHangs hNode
  case only => exact fun j node inode hNode hMem => hFormed.only_grow hHangs hNode hMem
  case name =>
    intro k node hNode
    rcases grow_cases hNode with ⟨before, hBefore, rfl⟩ | ⟨-, rfl⟩
    · have hName := hFormed.name k before hBefore
      split <;> exact hName
    · exact hHangs.name

theorem Points.grow {subRootMap : List (Text × Nat)} (hPoints : Points nodes subRootMap) :
    Points (grow nodes p last) subRootMap := by
  intro entry hEntry
  obtain ⟨hFirst, node, hNode, hDir⟩ := hPoints entry hEntry
  refine ⟨hFirst, _, getElem?_grow hNode, ?_⟩
  split <;> exact hDir

/-- The parent of a file is a directory of the tree. -/
theorem Points.parentInode {subRootMap : List (Text × Nat)} (hFormed : WellFormed nodes)
    (hPoints : Points nodes subRootMap) (name : Text) :
    1 ≤ parentInode subRootMap name ∧ ∃ above, nodes[parentInode subRootMap name - 1]? = some above ∧
      above.attributes.kind = .directory := by
  have hRoot : 1 ≤ fuseRootId ∧ ∃ above, nodes[fuseRootId - 1]? = some above ∧
      above.attributes.kind = .directory := by
    obtain ⟨root, hRoot, -, hDir⟩ := hFormed.root
    exact ⟨Nat.le_refl _, root, hRoot, hDir⟩
  unfold TreeNode.parentInode
  split
  · rename_i above hAbove
    cases hFound : subRoot subRootMap above with
    | none => exact hRoot
    | some inode =>
        obtain ⟨spelled, hMem, -⟩ := subRoot_eq_some hFound
        exact hPoints _ hMem
  · exact hRoot

end Grow

/-- Building keeps the tree one, and its paths with directories of it. -/
theorem wellFormed_buildFrom {treeList nodes : List TreeNode} {subRootMap : List (Text × Nat)}
    {files : List FileDescription} (hFormed : WellFormed treeList) (hPoints : Points treeList subRootMap)
    (hBuild : buildFrom treeList subRootMap files = .ok nodes) : WellFormed nodes := by
  induction files generalizing treeList subRootMap with
  | nil =>
      obtain rfl := Except.ok.inj hBuild
      exact hFormed
  | cons file files ih =>
      obtain ⟨hFirst, hAbove⟩ := hPoints.parentInode hFormed file.name
      unfold buildFrom at hBuild
      dsimp only at hBuild
      split at hBuild
      · cases hBuild
      · rename_i baseName hName
        have hHangs : Hangs treeList (parentInode subRootMap file.name)
            { fromDescription (treeList.length + fuseRootId) { file with name := baseName } with
              parent := some (parentInode subRootMap file.name) } :=
          { first := hFirst
            above := hAbove
            parent := rfl
            inode := rfl
            index := by
              show treeList.length + fuseRootId - 2 = treeList.length - 1
              unfold fuseRootId
              omega
            name := Lexical.Unix.plainName_of_fileName hName
            children := rfl }
        refine ih (hFormed.grow hHangs) ?_ hBuild
        split
        · rename_i hDir
          intro entry hEntry
          rcases List.mem_cons.mp hEntry with rfl | hOld
          · exact ⟨Nat.le_add_left _ _, _, getElem?_grow_last, hDir⟩
          · exact hPoints.grow entry hOld
        · exact hPoints.grow

theorem wellFormed_buildTree {now : Nat} {files : List FileDescription} {nodes : List TreeNode}
    (hBuild : buildTree now files = .ok nodes) : WellFormed nodes := by
  refine wellFormed_buildFrom ?_ ?_ hBuild
  · refine ⟨⟨_, rfl, rfl, rfl⟩, ?_, ?_, ?_, ?_, ?_⟩
    · intro k node hNode
      cases k with
      | zero =>
          obtain rfl := Option.some.inj hNode
          rfl
      | succ k => cases hNode
    · intro k node hNode
      cases hNode
    · intro k node hNode
      cases hNode
    · intro j node inode hNode hMem
      obtain rfl := List.mem_singleton.mp (List.mem_of_getElem? hNode)
      cases hMem
    · intro k node hNode
      cases hNode
  · intro entry hEntry
    have hRoot : 1 ≤ fuseRootId ∧ ∃ node, [newRoot now][fuseRootId - 1]? = some node ∧
        node.attributes.kind = .directory := ⟨Nat.le_refl _, newRoot now, rfl, rfl⟩
    simp only [List.mem_cons, List.not_mem_nil, or_false] at hEntry
    rcases hEntry with rfl | rfl
    · exact hRoot
    · exact hRoot

/-- What the file system and the clipboard ask a tree for is found without a panic, and the
links to the parents lead to the root. -/
structure Served (nodes : List TreeNode) : Prop where
  lookup : ∀ overflowChecks parent name, (overflowChecks = true → parent ≠ 0) →
    lookup overflowChecks nodes parent name ≠ none
  readdir : ∀ overflowChecks ino haveHandler offset room, (overflowChecks = true → ino ≠ 0) →
    readdir overflowChecks nodes ino haveHandler offset room ≠ none
  listRoot : listRoot nodes ≠ none
  ascends : ∀ node ∈ nodes, ∃ names, LinkedPath nodes node names

section Served
variable {nodes : List TreeNode}

theorem askedIndex_ne_none {overflowChecks : Bool} {inode : Nat} (hAsked : overflowChecks = true → inode ≠ 0) :
    ∃ index, askedIndex overflowChecks inode = some index := by
  unfold askedIndex
  by_cases hZero : inode = 0
  · cases overflowChecks with
    | true => exact absurd hZero (hAsked rfl)
    | false => exact ⟨_, by rw [if_pos hZero, if_neg Bool.false_ne_true]⟩
  · exact ⟨_, if_neg hZero⟩

/-- A child of a node is there. -/
theorem WellFormed.entry (hFormed : WellFormed nodes) {j inode : Nat} {node : TreeNode}
    (hNode : nodes[j]? = some node) (hMem : inode ∈ node.children) :
    ∃ child, TreeNode.entry nodes inode = some child ∧ nodes[inode - 1]? = some child := by
  obtain ⟨below, hTwo, hBelow, -⟩ := hFormed.only j node inode hNode hMem
  refine ⟨below, ?_, hBelow⟩
  unfold TreeNode.entry
  rw [if_neg (by omega), hBelow]

theorem lookupChild_ne_none {inodes : List Nat} (name : Text)
    (hThere : ∀ inode ∈ inodes, ∃ child, entry nodes inode = some child) :
    lookupChild nodes name inodes ≠ none := by
  induction inodes with
  | nil => exact Option.some_ne_none _
  | cons inode rest ih =>
      obtain ⟨⟨child, hChild⟩, hRest⟩ := List.forall_mem_cons.mp hThere
      rw [lookupChild, hChild]
      dsimp only
      split
      · exact Option.some_ne_none _
      · exact ih hRest

theorem childEntries_isSome {inodes : List Nat}
    (hThere : ∀ inode ∈ inodes, ∃ child, entry nodes inode = some child) :
    ∃ entries, childEntries nodes inodes = some entries := by
  induction inodes with
  | nil => exact ⟨[], rfl⟩
  | cons inode rest ih =>
      obtain ⟨⟨child, hChild⟩, hRest⟩ := List.forall_mem_cons.mp hThere
      obtain ⟨entries, hEntries⟩ := ih hRest
      refine ⟨(inode, child.attributes.kind, child.name) :: entries, ?_⟩
      rw [childEntries, hChild, hEntries]

theorem mapM_isSome {inodes : List Nat} (hThere : ∀ inode ∈ inodes, ∃ child, nodes[inode - 1]? = some child) :
    (inodes.mapM fun inode => (nodes[inode - 1]?).map (·.name)) ≠ none := by
  induction inodes with
  | nil => exact Option.some_ne_none _
  | cons inode rest ih =>
      obtain ⟨⟨child, hChild⟩, hRest⟩ := List.forall_mem_cons.mp hThere
      obtain ⟨names, hNames⟩ := Option.ne_none_iff_exists'.mp (ih hRest)
      rw [List.mapM_cons, hChild, hNames]
      exact Option.some_ne_none _

/-- From every node the links lead up to the root, since each leads to an earlier node. -/
theorem WellFormed.ascends (hFormed : WellFormed nodes) (k : Nat) {node : TreeNode}
    (hNode : nodes[k]? = some node) : ∃ names, LinkedPath nodes node names := by
  induction k using Nat.strong_induction_on generalizing node with
  | _ k ih =>
      cases k with
      | zero =>
          obtain ⟨root, hRoot, hParent, -⟩ := hFormed.root
          obtain rfl := Option.some.inj (hRoot.symm.trans hNode)
          exact ⟨[], .root hParent⟩
      | succ k =>
          obtain ⟨p, above, hParent, hFirst, hEarlier, hAbove, -⟩ := hFormed.parent k node hNode
          obtain ⟨names, hNames⟩ := ih (p - 1) (by omega) hAbove
          exact ⟨_, .child hParent hAbove hNames⟩

theorem WellFormed.served (hFormed : WellFormed nodes) : Served nodes := by
  have hChildren : ∀ (j : Nat) (node : TreeNode), nodes[j]? = some node →
      ∀ inode ∈ node.children, ∃ child, TreeNode.entry nodes inode = some child := by
    intro j node hNode inode hMem
    obtain ⟨child, hChild, -⟩ := hFormed.entry hNode hMem
    exact ⟨child, hChild⟩
  constructor
  case lookup =>
    intro overflowChecks parent name hAsked
    obtain ⟨index, hIndex⟩ := askedIndex_ne_none hAsked
    unfold TreeNode.lookup
    rw [hIndex]
    dsimp only
    split
    · exact Option.some_ne_none _
    · cases hNode : nodes[index]? with
      | none => exact Option.some_ne_none _
      | some node =>
          dsimp only
          split
          · exact Option.some_ne_none _
          · exact lookupChild_ne_none name (hChildren index node hNode)
  case readdir =>
    intro overflowChecks ino haveHandler offset room hAsked
    obtain ⟨index, hIndex⟩ := askedIndex_ne_none hAsked
    unfold TreeNode.readdir
    rw [hIndex]
    dsimp only
    cases hNode : nodes[index]? with
    | none => exact Option.some_ne_none _
    | some node =>
        obtain ⟨entries, hEntries⟩ := childEntries_isSome (hChildren index node hNode)
        dsimp only
        rw [hEntries]
        split
        · exact Option.some_ne_none _
        · split <;> exact Option.some_ne_none _
  case listRoot =>
    obtain ⟨root, hRoot, -⟩ := hFormed.root
    have hHead : nodes.head? = some root := by rw [List.head?_eq_getElem?, hRoot]
    unfold TreeNode.listRoot
    rw [hHead]
    refine mapM_isSome fun inode hMem => ?_
    obtain ⟨child, -, hChild⟩ := hFormed.entry hRoot hMem
    exact ⟨child, hChild⟩
  case ascends =>
    intro node hMem
    obtain ⟨k, hNode⟩ := List.mem_iff_getElem?.mp hMem
    exact hFormed.ascends k hNode

end Served

/-- Whatever a peer lists, the tree made of it is one, and what is asked of it is found. -/
theorem tree_of_any_list {now : Nat} {files : List FileDescription} {nodes : List TreeNode}
    (hBuild : buildTree now files = .ok nodes) : WellFormed nodes ∧ Served nodes := by
  have hFormed := wellFormed_buildTree hBuild
  exact ⟨hFormed, hFormed.served⟩

/-- A file with a name, of a kind. -/
def listed (name : String) (kind : FileType) : FileDescription where
  connId := 0
  name := name.toList
  kind := kind
  atime := 0
  lastModified := 0
  lastMetadataChanged := 0
  creationTime := 0
  size := 0
  perm := 0

/-- A directory listed twice, a file below a file, one below a missing directory and one
with an absolute path. -/
def oddList : List FileDescription :=
  [listed "a" .directory, listed "a/b" .file, listed "a" .directory, listed "a/b/c" .file,
    listed "x/y" .file, listed "/a/z" .file]

theorem odd_list_makes_tree :
    ∃ nodes, buildTree 0 oddList = .ok nodes ∧ WellFormed nodes ∧ Served nodes := by
  obtain ⟨nodes, hBuild⟩ : ∃ nodes, buildTree 0 oddList = .ok nodes :=
    buildFrom_of_named (by decide +kernel)
  exact ⟨nodes, hBuild, tree_of_any_list hBuild⟩

end TreeNode

end HibtDesk.Clipboard
