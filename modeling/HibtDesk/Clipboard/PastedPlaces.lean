import HibtDesk.Clipboard.PasteReach

/-! Where the two ways to paste go. A task makes files in a directory, under the names that
came from the peer. A mount point shows them in a tree, and the desktop is told of what is at
the top of it. -/
namespace HibtDesk.Clipboard

open Lexical (Text)
open Lexical.Unix (PlainName components)
open BytesCodec (leValue leValue_take_lt)

namespace TreeNode

/-- `list_root`. There is no result if it panics. -/
def listRoot (nodes : List TreeNode) : Option (List Text) :=
  nodes.head?.bind fun root =>
    root.children.mapM fun inode => (nodes[inode - 1]?).map (·.name)

end TreeNode

/-- `format_data_response_to_urls` of a context with this mount point. -/
def formatDataResponseToUrls (overflowChecks : Bool) (now : Nat) (mountPoint : Text) (connId : Int)
    (formatData : Bytes) : Option (Except CliprdrError (List Text)) :=
  match FileDescription.parseFileDescriptors overflowChecks connId formatData with
  | none => none
  | some (.error error) => some (.error error)
  | some (.ok files) =>
      match TreeNode.buildTree now files with
      | .error error => some (.error error)
      | .ok nodes =>
          (TreeNode.listRoot nodes).map fun paths =>
            .ok (paths.map (Lexical.Platform.unix.join mountPoint))

/-- The path is the directory with one more name. -/
def DirectChild (dir path : Text) : Prop :=
  ∃ name, PlainName name ∧ components path = components dir ++ [.normal name]

/-- Every paste of what these bytes tell of stays inside: the task in its directory, and
what is put on the clipboard right below the mount point. -/
def PastesInside (overflowChecks : Bool) (connId : Int) (formatData : Bytes) (targetDir : Text) : Prop :=
  ∀ files, FileDescription.parseFileDescriptors overflowChecks connId formatData = some (.ok files) →
    PasteTask.StaysInside targetDir files ∧ ∀ now mountPoint paths,
      formatDataResponseToUrls overflowChecks now mountPoint connId formatData = some (.ok paths) →
        ∀ path ∈ paths, DirectChild mountPoint path

section Sizes

theorem size_of_parseFileDescriptor {overflowChecks : Bool} {connId : Int} {bytes : Bytes}
    {desc : FileDescription}
    (hParsed : FileDescription.parseFileDescriptor overflowChecks connId bytes = some (.ok desc)) :
    desc.size < 2 ^ 64 := by
  have hHigh := leValue_take_lt (bytes.drop 64) 4
  have hLow := leValue_take_lt (bytes.drop 68) 4
  unfold FileDescription.parseFileDescriptor at hParsed
  dsimp only at hParsed
  split at hParsed
  · cases hParsed
  · split at hParsed
    · cases hParsed
    · obtain ⟨lastModified, -, hDesc⟩ := Option.map_eq_some_iff.mp hParsed
      obtain rfl := Except.ok.inj hDesc
      dsimp only
      rw [Nat.shiftLeft_eq]
      omega

theorem sizes_of_parseBlocks {overflowChecks : Bool} {connId : Int} (count : Nat) {data : Bytes}
    {files : List FileDescription}
    (hParsed : FileDescription.parseBlocks overflowChecks connId count data = some (.ok files)) :
    ∀ desc ∈ files, desc.size < 2 ^ 64 := by
  induction count generalizing data files with
  | zero =>
      obtain rfl := Except.ok.inj (Option.some.inj hParsed)
      intro desc hDesc
      cases hDesc
  | succ count ih =>
      unfold FileDescription.parseBlocks at hParsed
      split at hParsed
      · cases hParsed
      · cases hParsed
      · rename_i first hFirst
        obtain ⟨result, hRest, hResult⟩ := Option.map_eq_some_iff.mp hParsed
        cases result with
        | error error => cases hResult
        | ok rest =>
            obtain rfl := Except.ok.inj hResult
            intro desc hDesc
            rcases List.mem_cons.mp hDesc with rfl | hMem
            · exact size_of_parseFileDescriptor hFirst
            · exact ih hRest desc hMem

/-- A size comes in two fields of four bytes. -/
theorem sizes_of_parseFileDescriptors {overflowChecks : Bool} {connId : Int} {data : Bytes}
    {files : List FileDescription}
    (hParsed : FileDescription.parseFileDescriptors overflowChecks connId data = some (.ok files)) :
    ∀ desc ∈ files, desc.size < 2 ^ 64 := by
  unfold FileDescription.parseFileDescriptors at hParsed
  dsimp only at hParsed
  split at hParsed
  · cases hParsed
  · split at hParsed
    · obtain rfl := Except.ok.inj (Option.some.inj hParsed)
      intro desc hDesc
      cases hDesc
    · split at hParsed
      · cases hParsed
      · exact sizes_of_parseBlocks _ hParsed

end Sizes

namespace TreeNode

/-- Below the root every node has a name of its own, and children are nodes below it. -/
structure Grown (nodes : List TreeNode) : Prop where
  root : 0 < nodes.length
  name : ∀ i node, nodes[i + 1]? = some node → PlainName node.name
  children : ∀ node ∈ nodes, ∀ inode ∈ node.children, 2 ≤ inode ∧ inode ≤ nodes.length

theorem grown_buildFrom {treeList : List TreeNode} {subRootMap : List (Text × Nat)}
    {files : List FileDescription} {nodes : List TreeNode} (hGrown : Grown treeList)
    (hBuild : buildFrom treeList subRootMap files = .ok nodes) : Grown nodes := by
  induction files generalizing treeList subRootMap with
  | nil =>
      obtain rfl := Except.ok.inj hBuild
      exact hGrown
  | cons file files ih =>
      unfold buildFrom at hBuild
      dsimp only at hBuild
      split at hBuild
      · cases hBuild
      · rename_i baseName hName
        refine ih ?_ hBuild
        constructor
        case root => simp
        case name =>
          intro i node hNode
          rw [List.getElem?_append, List.length_modify] at hNode
          split at hNode
          · rw [List.getElem?_modify] at hNode
            obtain ⟨before, hBefore, rfl⟩ := Option.map_eq_some_iff.mp hNode
            have hPlain := hGrown.name i before hBefore
            split <;> exact hPlain
          · obtain rfl := List.mem_singleton.mp (List.mem_of_getElem? hNode)
            exact Lexical.Unix.plainName_of_fileName hName
        case children =>
          intro node hNode inode hInode
          rw [List.length_append, List.length_modify, List.length_singleton]
          rcases List.mem_append.mp hNode with hMem | hLast
          · obtain ⟨k, hk⟩ := List.mem_iff_getElem?.mp hMem
            rw [List.getElem?_modify] at hk
            obtain ⟨before, hBefore, rfl⟩ := Option.map_eq_some_iff.mp hk
            have hOld := hGrown.children before (List.mem_of_getElem? hBefore)
            have hRoot := hGrown.root
            split at hInode
            · rcases List.mem_append.mp hInode with hBeforehand | hNew
              · have hBounds := hOld inode hBeforehand
                omega
              · obtain rfl := List.mem_singleton.mp hNew
                unfold fuseRootId
                omega
            · have hBounds := hOld inode hInode
              omega
          · obtain rfl := List.mem_singleton.mp hLast
            cases hInode

/-- What is at the top of a tree has names of its own. -/
theorem listRoot_buildTree {now : Nat} {files : List FileDescription} {nodes : List TreeNode}
    (hBuild : buildTree now files = .ok nodes) :
    ∃ names, listRoot nodes = some names ∧ ∀ name ∈ names, PlainName name := by
  have hGrown : Grown nodes := by
    refine grown_buildFrom ⟨by simp, ?_, ?_⟩ hBuild
    · intro i node hNode
      cases hNode
    · intro node hNode inode hInode
      obtain rfl := List.mem_singleton.mp hNode
      cases hInode
  obtain ⟨root, rest, rfl⟩ := List.exists_cons_of_length_pos hGrown.root
  have hNamed : ∀ inodes : List Nat, (∀ inode ∈ inodes, 2 ≤ inode ∧ inode ≤ (root :: rest).length) →
      ∃ names, (inodes.mapM fun inode => ((root :: rest)[inode - 1]?).map (·.name)) = some names ∧
        ∀ name ∈ names, PlainName name := by
    intro inodes hInodes
    induction inodes with
    | nil => exact ⟨[], rfl, by simp⟩
    | cons inode inodes ih =>
        obtain ⟨names, hNames, hPlain⟩ := ih fun other hOther => hInodes other (List.mem_cons_of_mem _ hOther)
        obtain ⟨hTwo, hLe⟩ := hInodes inode List.mem_cons_self
        obtain ⟨node, hNode⟩ : ∃ node, (root :: rest)[inode - 2 + 1]? = some node :=
          ⟨_, List.getElem?_eq_getElem (by omega)⟩
        have hName := hGrown.name _ node hNode
        have hIndex : inode - 2 + 1 = inode - 1 := by omega
        rw [hIndex] at hNode
        refine ⟨node.name :: names, ?_, ?_⟩
        · rw [List.mapM_cons, hNode, hNames]
          rfl
        · intro name hMem
          rcases List.mem_cons.mp hMem with rfl | hLater
          · exact hName
          · exact hPlain name hLater
  exact hNamed root.children fun inode hInode => hGrown.children root List.mem_cons_self inode hInode

end TreeNode

/-- What is put on the clipboard is right below the mount point. -/
theorem directChild_of_urls {overflowChecks : Bool} {now : Nat} {mountPoint : Text} {connId : Int}
    {formatData : Bytes} {paths : List Text}
    (hUrls : formatDataResponseToUrls overflowChecks now mountPoint connId formatData = some (.ok paths)) :
    ∀ path ∈ paths, DirectChild mountPoint path := by
  unfold formatDataResponseToUrls at hUrls
  split at hUrls
  · cases hUrls
  · cases hUrls
  · split at hUrls
    · cases hUrls
    · rename_i nodes hBuild
      obtain ⟨names, hNames, hPlain⟩ := TreeNode.listRoot_buildTree hBuild
      rw [hNames] at hUrls
      obtain rfl := Except.ok.inj (Option.some.inj hUrls)
      intro path hPath
      obtain ⟨name, hName, rfl⟩ := List.mem_map.mp hPath
      exact ⟨name, hPlain name hName, Lexical.Unix.components_join (hPlain name hName)⟩

/-- Pastes stay inside exactly if the names that are joined to the directory lead into it.
For what is put on the clipboard they need not. -/
theorem pastesInside_iff (overflowChecks : Bool) (connId : Int) (formatData : Bytes) (targetDir : Text) :
    PastesInside overflowChecks connId formatData targetDir ↔
      ∀ files, FileDescription.parseFileDescriptors overflowChecks connId formatData =
        some (.ok files) → PasteTask.NamesInside targetDir files := by
  constructor
  · intro hPastes files hParsed
    exact PasteTask.namesInside_of_staysInside (sizes_of_parseFileDescriptors hParsed)
      (hPastes files hParsed).1
  · intro hNames files hParsed
    exact ⟨PasteTask.staysInside_of_namesInside (hNames files hParsed),
      fun _ _ _ hUrls => directChild_of_urls hUrls⟩

/-- One empty file with the name `../x`. -/
def climbingDescriptors : Bytes :=
  [1, 0, 0, 0] ++ [4, 0, 0, 0] ++ List.replicate 32 0 ++ [0x80, 0, 0, 0] ++ List.replicate 32 0 ++
    [0x2e, 0, 0x2e, 0, 0x2f, 0, 0x78, 0] ++ List.replicate 512 0

def climbing : FileDescription where
  connId := 0
  name := "../x".toList
  kind := .file
  atime := 0
  lastModified := 0
  lastMetadataChanged := 0
  creationTime := 0
  size := 0
  perm := permRwx

theorem climbing_name_leaves_directory : ¬ PastesInside true 0 climbingDescriptors "/home/u".toList := by
  intro hPastes
  have hParsed : FileDescription.parseFileDescriptors true 0 climbingDescriptors =
      some (.ok [climbing]) := by decide +kernel
  have hNames := PasteTask.namesInside_of_staysInside (sizes_of_parseFileDescriptors hParsed)
    (hPastes [climbing] hParsed).1
  have hInside := hNames climbing (by decide) _ rfl
  exact absurd hInside (by unfold Touch.Inside; decide)

end HibtDesk.Clipboard
