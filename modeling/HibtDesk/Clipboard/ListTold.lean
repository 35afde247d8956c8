import HibtDesk.Clipboard.DescriptorSafety

/-! When a peer can be told of a list. The path of a file goes into a field of 520 bytes,
however deep the file lies. -/
namespace HibtDesk.Clipboard

open Lexical (Text)

/-- The bytes of a list can be made, and a peer reads them as a list. -/
structure Told (files : List LocalFile) (connId : Int) : Prop where
  entries : ∀ file ∈ files, file.win32Time < 2 ^ 64 ∧
    ∃ bin, file.asBin = some bin ∧ bin.length = 592
  read : ∃ pdu, buildFileListPdu files = some pdu ∧ ∀ overflowChecks, ∃ descs,
    FileDescription.parseFileDescriptors overflowChecks connId pdu = some (.ok descs)

namespace FileDescription

/-- The block of a file is one that is read, at a time that can be told. -/
theorem readable_block {file : LocalFile} {bin : Bytes} (hBlock : Block file bin) :
    Readable bin ∧ Timely bin := by
  unfold Readable Timely blockFlags blockTime
  rw [hBlock.name, hBlock.flags, hBlock.lastWrite]
  refine ⟨⟨rfl, by decide⟩, fun _ _ => ?_⟩
  unfold LocalFile.win32Time
  omega

/-- The blocks of a list that can be told of are all read. -/
theorem parseBlocks_of_short {files : List LocalFile}
    (hShort : ∀ file ∈ files, (Utf16.encode file.wirePath).length ≤ 260) :
    ∃ bins, filesToBin files = some bins ∧ ∀ overflowChecks connId, ∃ descs,
      parseBlocks overflowChecks connId files.length bins = some (.ok descs) := by
  induction files with
  | nil => exact ⟨[], rfl, fun _ _ => ⟨[], rfl⟩⟩
  | cons file rest ih =>
      obtain ⟨hFile, hRest⟩ := List.forall_mem_cons.mp hShort
      obtain ⟨bins, hBins, hParsed⟩ := ih hRest
      obtain ⟨bin, hBin⟩ := exists_asBin hFile
      have hBlock := block_asBin hBin
      obtain ⟨hReadable, hTimely⟩ := readable_block hBlock
      refine ⟨bin ++ bins, by simp only [filesToBin, hBin, hBins], fun overflowChecks connId => ?_⟩
      obtain ⟨desc, hDesc⟩ := (parseFileDescriptor_of_readable hReadable overflowChecks connId).1 hTimely
      obtain ⟨descs, hDescs⟩ := hParsed overflowChecks connId
      refine ⟨desc :: descs, ?_⟩
      rw [List.length_cons, parseBlocks, List.take_left' hBlock.length, List.drop_left' hBlock.length,
        hDesc]
      dsimp only
      rw [hDescs]
      rfl

end FileDescription

open FileDescription in
/-- A peer can be told of a list if and only if the path of each file in it takes at most
260 units of UTF-16, and the count of the files fits in four bytes. -/
theorem told_iff (files : List LocalFile) (connId : Int) :
    Told files connId ↔
      (∀ file ∈ files, (Utf16.encode file.wirePath).length ≤ 260) ∧ files.length < 2 ^ 32 := by
  constructor
  · intro hTold
    refine ⟨fun file hFile => ?_, ?_⟩
    · obtain ⟨-, bin, hBin, -⟩ := hTold.entries file hFile
      by_contra hLong
      rw [(asBin_eq_none_iff file).mpr (Nat.not_le.mp hLong)] at hBin
      cases hBin
    · obtain ⟨pdu, hPdu, hRead⟩ := hTold.read
      obtain ⟨descs, hDescs⟩ := hRead true
      exact lt_of_parsed hPdu hDescs
  · rintro ⟨hShort, hCount⟩
    obtain ⟨bins, hBins, hParsed⟩ := parseBlocks_of_short hShort
    refine ⟨fun file hFile => ⟨win32Time_lt file, ?_⟩, ?_⟩
    · obtain ⟨bin, hBin⟩ := exists_asBin (hShort file hFile)
      exact ⟨bin, hBin, (block_asBin hBin).length⟩
    · refine ⟨_, by rw [buildFileListPdu, hBins]; rfl, fun overflowChecks => ?_⟩
      obtain ⟨descs, hDescs⟩ := hParsed overflowChecks connId
      exact ⟨descs, parseFileDescriptors_of_blocks hBins hCount hDescs⟩

/-- A directory whose name and that of the file in it are 131 characters long. -/
def deepListing : Listing where
  metadata := fun path =>
    some { len := 1, isDir := path.length < 200, readonly := false, mode := 0o644, modified := none }
  readDir := fun _ => some [some (List.replicate 131 'b')]

def deepDir : Text := '/' :: List.replicate 131 'a'

/-- The file in the directory is listed, but its path does not fit. -/
theorem deep_file_untold :
    ¬ ∀ (listing : Listing) (depth : Nat) (paths : List Text) (files : List LocalFile) (connId : Int),
      constructFileList listing depth paths = some (.ok files) → Told files connId := by
  intro hClaim
  let files : List LocalFile :=
    [.tryOpen ['/'] deepDir
        { len := 1, isDir := true, readonly := false, mode := 0o644, modified := none },
      .tryOpen ['/'] (deepDir ++ '/' :: List.replicate 131 'b')
        { len := 1, isDir := false, readonly := false, mode := 0o644, modified := none }]
  have hList : constructFileList deepListing 3 [deepDir] = some (.ok files) := by decide +kernel
  have hTold := hClaim _ _ _ _ 1 hList
  obtain ⟨-, bin, hBin, -⟩ := hTold.entries files[1] (List.getElem_mem _)
  have hNone : files[1].asBin = none :=
    (FileDescription.asBin_eq_none_iff files[1]).mpr (by decide +kernel)
  rw [hNone] at hBin
  cases hBin

end HibtDesk.Clipboard
