import HibtDesk.Clipboard.FileList
import HibtDesk.Network.Framing

/-! The files as the peer is told of them, and the tree it makes of them. A list of
descriptions comes in blocks of one size; the tree has a root of its own, and each file
hangs below the directory that was listed before it under the path of its parent. -/
namespace HibtDesk.Clipboard

open Lexical (Text)
open BytesCodec (leValue)

inductive FileType where
  | file | directory | symlink
  deriving DecidableEq, Repr

def permRead : Nat := 0o444
def permRw : Nat := 0o644
def permSelfRo : Nat := 0o400
def permRwx : Nat := 0o755

/-- `FileDescription`, with times in nanoseconds from 1970 on. -/
structure FileDescription where
  connId : Int
  name : Text
  kind : FileType
  atime : Nat
  lastModified : Nat
  lastMetadataChanged : Nat
  creationTime : Nat
  size : Nat
  perm : Nat
  deriving DecidableEq, Repr

/-- `n * 100` of a `u64`. In a build without overflow checks it wraps, with them it panics. -/
def hundredfold (overflowChecks : Bool) (n : Nat) : Option Nat :=
  if n * 100 < 2 ^ 64 then some (n * 100)
  else if overflowChecks then none
  else some (n * 100 % 2 ^ 64)

/-- The text before the zeros at its end. -/
def trimZeros (text : Text) : Text := text.rdropWhile (· == Char.ofNat 0)

namespace FileDescription

/-- The permissions of a file, which come from its attributes unless the sender is a unix one. -/
def parsePerm (fromUnix : Bool) (attributes perm : Nat) : Nat :=
  if fromUnix then perm
  else if attributes = 0x80 then permRwx
  else if attributes &&& 0x01 ≠ 0 then permRead
  else if attributes &&& 0x02 ≠ 0 then permSelfRo
  else if attributes &&& 0x10 ≠ 0 then permRwx
  else permRw

/-- `parse_file_descriptor` of a block of 592 bytes. There is no result if it panics. -/
def parseFileDescriptor (overflowChecks : Bool) (connId : Int) (bytes : Bytes) :
    Option (Except CliprdrError FileDescription) :=
  let flags := leValue (bytes.take 4)
  let attributes := leValue ((bytes.drop 36).take 4)
  let perm := leValue ((bytes.drop 52).take 4) % 2 ^ 16
  let lastWriteTime := leValue ((bytes.drop 56).take 8)
  let fileSizeHigh := leValue ((bytes.drop 64).take 4)
  let fileSizeLow := leValue ((bytes.drop 68).take 4)
  match Utf16.decode (Utf16.ofLe ((bytes.drop 72).take 520)) with
  | none => some (.error .conversionFailure)
  | some wstr =>
      if flags &&& flagsFdAttributes = 0 then
        some (.error (.invalidRequest "file description must have valid attributes"))
      else
        let kind := if attributes &&& 0x10 ≠ 0 then FileType.directory else .file
        let lastModified :=
          if flags &&& flagsFdLastWrite ≠ 0 ∧ ldapEpochDelta ≤ lastWriteTime then
            hundredfold overflowChecks (lastWriteTime - ldapEpochDelta)
          else some 0
        lastModified.map fun lastModified => .ok
          { connId := connId
            name := trimZeros (wstr.map fun c => if c = '\\' then '/' else c)
            kind := kind
            atime := lastModified
            lastModified := lastModified
            lastMetadataChanged := lastModified
            creationTime := lastModified
            size := (fileSizeHigh <<< 32) + fileSizeLow
            perm := parsePerm (flags &&& flagsFdUnixMode ≠ 0) attributes perm }

/-- The loop of `parse_file_descriptors`. -/
def parseBlocks (overflowChecks : Bool) (connId : Int) :
    Nat → Bytes → Option (Except CliprdrError (List FileDescription))
  | 0, _ => some (.ok [])
  | count + 1, data =>
      match parseFileDescriptor overflowChecks connId (data.take 592) with
      | none => none
      | some (.error error) => some (.error error)
      | some (.ok desc) =>
          (parseBlocks overflowChecks connId count (data.drop 592)).map fun result =>
            result.map (desc :: ·)

def parseFileDescriptors (overflowChecks : Bool) (connId : Int) (fileDescriptorPdu : Bytes) :
    Option (Except CliprdrError (List FileDescription)) :=
  if fileDescriptorPdu.length < 4 then
    some (.error (.invalidRequest "file descriptor request with infficient length"))
  else
    let count := leValue (fileDescriptorPdu.take 4)
    let data := fileDescriptorPdu.drop 4
    if data.length = 0 ∧ count = 0 then some (.ok [])
    else if data.length ≠ 592 * count then
      some (.error (.invalidRequest "file descriptor request with invalid length"))
    else parseBlocks overflowChecks connId count data

end FileDescription

/-- `InodeAttributes`, without the time of the last access. -/
structure InodeAttributes where
  inode : Nat
  size : Nat
  lastModified : Nat
  lastMetadataChanged : Nat
  creationTime : Nat
  kind : FileType
  perm : Nat
  deriving DecidableEq, Repr

/-- A `FuseNode` as the tree is made of it. -/
structure TreeNode where
  connId : Int
  index : Nat
  parent : Option Nat
  name : Text
  attributes : InodeAttributes
  children : List Nat
  deriving DecidableEq, Repr

def fuseRootId : Nat := 1

namespace TreeNode

def fromDescription (inode : Nat) (desc : FileDescription) : TreeNode where
  connId := desc.connId
  index := inode - 2
  parent := none
  name := desc.name
  attributes :=
    { inode := inode
      size := desc.size
      lastModified := desc.lastModified
      lastMetadataChanged := desc.lastMetadataChanged
      creationTime := desc.creationTime
      kind := desc.kind
      perm := desc.perm }
  children := []

def newRoot (now : Nat) : TreeNode where
  connId := 0
  index := 0
  parent := none
  name := ['/']
  attributes :=
    { inode := fuseRootId
      size := 0
      lastModified := now
      lastMetadataChanged := now
      creationTime := now
      kind := .directory
      perm := permRwx }
  children := []

def addChild (node : TreeNode) (inode : Nat) : TreeNode :=
  { node with children := node.children ++ [inode] }

/-- The inode kept for a path, in any spelling. -/
def subRoot (subRootMap : List (Text × Nat)) (path : Text) : Option Nat :=
  (subRootMap.find? fun entry =>
    Lexical.Unix.components entry.1 == Lexical.Unix.components path).map (·.2)

/-- The directory a file hangs below. -/
def parentInode (subRootMap : List (Text × Nat)) (name : Text) : Nat :=
  match Lexical.Unix.parent name with
  | some parent => (subRoot subRootMap parent).getD fuseRootId
  | none => fuseRootId

/-- The loop of `build_tree`. -/
def buildFrom (treeList : List TreeNode) (subRootMap : List (Text × Nat)) :
    List FileDescription → Except CliprdrError (List TreeNode)
  | [] => .ok treeList
  | file :: files =>
      let inode := treeList.length + fuseRootId
      let parent := parentInode subRootMap file.name
      let treeList := treeList.modify (parent - 1) (·.addChild inode)
      match Lexical.Unix.fileName file.name with
      | none =>
          let path := String.ofList file.name
          .error (.fileError file.name (.invalidData s!"invalid file name {path}"))
      | some baseName =>
          let subRootMap :=
            if file.kind = .directory then (file.name, inode) :: subRootMap else subRootMap
          let node := { fromDescription inode { file with name := baseName } with parent := some parent }
          buildFrom (treeList ++ [node]) subRootMap files

def buildTree (now : Nat) (files : List FileDescription) : Except CliprdrError (List TreeNode) :=
  buildFrom [newRoot now] [(['/'], fuseRootId), ([], fuseRootId)] files

end TreeNode

end HibtDesk.Clipboard
