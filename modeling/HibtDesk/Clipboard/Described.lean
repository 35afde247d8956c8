import HibtDesk.Clipboard.FileDescription

/-! What the bytes of the list tell of it. The block that is made of a file is read as
the description of that file, and the list of the blocks as the list of the descriptions. -/
namespace HibtDesk.Clipboard

open Lexical (Text)
open BytesCodec (leValue putLe leValue_putLe leValue_putLe_of_lt length_putLe)

namespace LocalFile

/-- The time of the last change as it arrives, in whole units of 100 ns. -/
def arrivedTime (file : LocalFile) : Nat := file.lastWriteTime.toNat % 2 ^ 64 / 100 * 100

/-- The description of a file that its peer reads. -/
def described (connId : Int) (file : LocalFile) : FileDescription where
  connId := connId
  name := file.wirePath
  kind := if file.isDir then .directory else .file
  atime := file.arrivedTime
  lastModified := file.arrivedTime
  lastMetadataChanged := file.arrivedTime
  creationTime := file.arrivedTime
  size := file.size
  perm := file.perm % 2 ^ 16

/-- The file can be told of in full: its numbers are of the widths they have, and its path
is short enough and has no character that is read as another. -/
structure Tellable (file : LocalFile) : Prop where
  size : file.size < 2 ^ 64
  perm : file.perm < 2 ^ 32
  short : (Utf16.encode file.wirePath).length ≤ 260
  noBackslash : '\\' ∉ file.wirePath
  noZero : Char.ofNat 0 ∉ file.wirePath

end LocalFile

section Fields

/-- The next field stands where a field ends. -/
theorem drop_field {bytes field rest : Bytes} {k n : Nat} (hField : bytes.drop k = field ++ rest)
    (hLength : field.length = n) : bytes.drop (k + n) = rest := by
  rw [← List.drop_drop, hField, List.drop_left' hLength]

theorem take_field {bytes field rest : Bytes} {k n : Nat} (hField : bytes.drop k = field ++ rest)
    (hLength : field.length = n) : (bytes.drop k).take n = field := by
  rw [hField, List.take_left' hLength]

@[simp] theorem length_zeros (n : Nat) : (zeros n).length = n := List.length_replicate

theorem attributes_lt (file : LocalFile) : file.attributes < 2 ^ 8 := by
  have hAll : ∀ r h s d a n : Bool, ((if r then 0x1 else 0) ||| (if h then 0x2 else 0) |||
      (if s then 0x4 else 0) ||| (if d then 0x10 else 0) ||| (if a then 0x20 else 0) |||
      (if n then 0x80 else 0) : Nat) < 2 ^ 8 := by
    decide
  exact hAll ..

/-- The bit of the directories tells them from other files. -/
theorem attributes_dir (file : LocalFile) : file.attributes &&& 0x10 ≠ 0 ↔ file.isDir = true := by
  have hAll : ∀ r h s d a n : Bool, ((if r then 0x1 else 0) ||| (if h then 0x2 else 0) |||
      (if s then 0x4 else 0) ||| (if d then 0x10 else 0) ||| (if a then 0x20 else 0) |||
      (if n then 0x80 else 0) : Nat) &&& 0x10 ≠ 0 ↔ d = true := by
    decide
  exact hAll ..

/-- Both halves of a size make it up again. -/
theorem size_halves (size : Nat) : (size >>> 32) <<< 32 + (size &&& 0xffffffff) = size := by
  have hOnes : (0xffffffff : Nat) = 2 ^ 32 - 1 := rfl
  rw [hOnes, Nat.and_two_pow_sub_one_eq_mod, Nat.shiftLeft_eq, Nat.shiftRight_eq_div_pow]
  omega

theorem trimZeros_append {text : Text} (hText : Char.ofNat 0 ∉ text) (n : Nat) :
    trimZeros (text ++ List.replicate n (Char.ofNat 0)) = text := by
  induction n with
  | zero =>
      rw [List.replicate_zero, List.append_nil]
      refine List.rdropWhile_eq_self_iff.mpr fun hSome hLast => hText ?_
      rw [← beq_iff_eq.mp hLast]
      exact List.getLast_mem hSome
  | succ n ih =>
      rw [List.replicate_succ', ← List.append_assoc]
      exact (List.rdropWhile_concat_pos (· == Char.ofNat 0) _ _ (beq_self_eq_true _)).trans ih

end Fields

namespace FileDescription

/-- Where the fields of a file stand in its block. -/
structure Block (file : LocalFile) (bin : Bytes) : Prop where
  length : bin.length = 592
  flags : leValue (bin.take 4) = 0x406c
  attributes : leValue ((bin.drop 36).take 4) = file.attributes
  perm : leValue ((bin.drop 52).take 4) = file.perm % 2 ^ 32
  lastWrite : leValue ((bin.drop 56).take 8) = file.win32Time
  high : leValue ((bin.drop 64).take 4) = (file.size >>> 32) % 2 ^ 32
  low : leValue ((bin.drop 68).take 4) = file.size &&& 0xffffffff
  name : Utf16.decode (Utf16.ofLe ((bin.drop 72).take 520)) =
    some (file.wirePath ++
      List.replicate (260 - (Utf16.encode file.wirePath).length) (Char.ofNat 0))

theorem win32Time_lt (file : LocalFile) : file.win32Time < 2 ^ 64 := by
  unfold LocalFile.win32Time ldapEpochDelta
  omega

theorem asBin_eq_none_iff (file : LocalFile) :
    file.asBin = none ↔ 260 < (Utf16.encode file.wirePath).length := by
  unfold LocalFile.asBin
  dsimp only
  rw [Utf16.length_toLe]
  split
  · exact iff_of_true rfl (by omega)
  · refine iff_of_false (fun hNone => ?_) (by omega)
    cases hNone

theorem exists_asBin {file : LocalFile} (hShort : (Utf16.encode file.wirePath).length ≤ 260) :
    ∃ bin, file.asBin = some bin := by
  refine Option.ne_none_iff_exists'.mp fun hNone => ?_
  exact absurd ((asBin_eq_none_iff file).mp hNone) (Nat.not_lt.mpr hShort)

theorem block_asBin {file : LocalFile} {bin : Bytes} (hBin : file.asBin = some bin) : Block file bin := by
  have hUnits : (Utf16.encode file.wirePath).length ≤ 260 := by
    by_contra hLong
    rw [(asBin_eq_none_iff file).mpr (Nat.not_le.mp hLong)] at hBin
    cases hBin
  have hShort : (Utf16.toLe (Utf16.encode file.wirePath)).length ≤ 520 := by
    rw [Utf16.length_toLe]
    omega
  unfold LocalFile.asBin at hBin
  dsimp only at hBin
  rw [if_neg (Nat.not_lt.mpr hShort)] at hBin
  generalize hName : Utf16.toLe (Utf16.encode file.wirePath) = name at hBin hShort
  generalize hFlags : flagsFdSize ||| flagsFdLastWrite ||| flagsFdAttributes ||| flagsFdProgressui |||
    flagsFdUnixMode = flags at hBin
  have hBytes := (Option.some.inj hBin).symm
  simp only [List.append_assoc] at hBytes
  have hDrop4 := drop_field (k := 0) hBytes (length_putLe 4 flags)
  have hDrop36 := drop_field hDrop4 (length_zeros 32)
  have hDrop40 := drop_field hDrop36 (length_putLe 4 _)
  have hDrop52 := drop_field hDrop40 (length_zeros 12)
  have hDrop56 := drop_field hDrop52 (length_putLe 4 _)
  have hDrop64 := drop_field hDrop56 (length_putLe 8 _)
  have hDrop68 := drop_field hDrop64 (length_putLe 4 _)
  have hDrop72 := drop_field hDrop68 (length_putLe 4 _)
  have hWidth : 256 ^ 4 = 2 ^ 32 := by decide
  have hTime := win32Time_lt file
  refine ⟨?_, ?_, ?_, ?_, ?_, ?_, ?_, ?_⟩
  · rw [hBytes]
    simp only [List.length_append, length_putLe, length_zeros]
    omega
  · have hField : bin.take 4 = putLe 4 flags := take_field (k := 0) hBytes (length_putLe ..)
    rw [hField, ← hFlags]
    decide
  · have hField : (bin.drop 36).take 4 = putLe 4 file.attributes := take_field hDrop36 (length_putLe ..)
    have hLt := attributes_lt file
    rw [hField, leValue_putLe_of_lt (by omega)]
  · have hField : (bin.drop 52).take 4 = putLe 4 file.perm := take_field hDrop52 (length_putLe ..)
    rw [hField, leValue_putLe, hWidth]
  · have hField : (bin.drop 56).take 8 = putLe 8 file.win32Time := take_field hDrop56 (length_putLe ..)
    rw [hField, leValue_putLe_of_lt (by omega)]
  · have hField : (bin.drop 64).take 4 = putLe 4 (file.size >>> 32) :=
      take_field hDrop64 (length_putLe ..)
    rw [hField, leValue_putLe, hWidth]
  · have hField : (bin.drop 68).take 4 = putLe 4 (file.size &&& 0xffffffff) :=
      take_field hDrop68 (length_putLe ..)
    have hLt : file.size &&& 0xffffffff ≤ 0xffffffff := Nat.and_le_right
    rw [hField, leValue_putLe_of_lt (by omega)]
  · have hBlock : (bin.drop 72).take 520 = name ++ zeros (520 - name.length) := by
      rw [hDrop72]
      exact List.take_of_length_le (by simp; omega)
    have hEven : 520 - name.length = 2 * (260 - (Utf16.encode file.wirePath).length) := by
      rw [← hName, Utf16.length_toLe]
      omega
    rw [hBlock, hEven, ← hName, zeros, Utf16.ofLe_toLe_append fun u => Utf16.lt_of_mem_encode,
      Utf16.ofLe_zeros, Utf16.decode_encode_append, Utf16.decode_zeros]
    rfl

/-- The block of a file is read as its description. -/
theorem parseFileDescriptor_asBin {file : LocalFile} (hTellable : file.Tellable) {bin : Bytes}
    (hBin : file.asBin = some bin) (overflowChecks : Bool) (connId : Int) :
    bin.length = 592 ∧
      parseFileDescriptor overflowChecks connId bin = some (.ok (file.described connId)) := by
  have hBlock := block_asBin hBin
  refine ⟨hBlock.length, ?_⟩
  have hArrives : hundredfold overflowChecks (file.win32Time - ldapEpochDelta) = some file.arrivedTime := by
    unfold hundredfold LocalFile.win32Time
    rw [Nat.add_sub_cancel, if_pos (by omega)]
    rfl
  have hText : (file.wirePath ++ List.replicate (260 - (Utf16.encode file.wirePath).length)
      (Char.ofNat 0)).map (fun c => if c = '\\' then '/' else c) =
      file.wirePath ++ List.replicate (260 - (Utf16.encode file.wirePath).length) (Char.ofNat 0) := by
    refine (List.map_congr_left fun c hc => ?_).trans (List.map_id _)
    refine if_neg fun hSlash => ?_
    subst hSlash
    rcases List.mem_append.mp hc with hName | hZero
    · exact hTellable.noBackslash hName
    · exact absurd (List.mem_replicate.mp hZero).2 (by decide)
  have hPerm : file.perm % 2 ^ 32 = file.perm := Nat.mod_eq_of_lt hTellable.perm
  have hHigh : (file.size >>> 32) % 2 ^ 32 = file.size >>> 32 := by
    have hLt := hTellable.size
    rw [Nat.shiftRight_eq_div_pow]
    exact Nat.mod_eq_of_lt (by omega)
  have hValid : 0x406c &&& flagsFdLastWrite ≠ 0 ∧ ldapEpochDelta ≤ file.win32Time :=
    ⟨by decide, Nat.le_add_left _ _⟩
  have hUnix : ∀ attributes perm, parsePerm (0x406c &&& flagsFdUnixMode ≠ 0) attributes perm = perm :=
    fun _ _ => rfl
  unfold parseFileDescriptor
  rw [hBlock.name]
  dsimp only
  rw [hBlock.flags, hBlock.attributes, hBlock.perm, hBlock.lastWrite, hBlock.high, hBlock.low, hPerm,
    hHigh, size_halves, hText, trimZeros_append hTellable.noZero, hArrives, if_neg (by decide),
    if_pos hValid, hUnix]
  simp only [attributes_dir]
  rfl

/-- The blocks of a list are read as the descriptions of its files. -/
theorem parseBlocks_filesToBin {files : List LocalFile} (hTellable : ∀ file ∈ files, file.Tellable)
    (overflowChecks : Bool) (connId : Int) :
    ∃ bins, filesToBin files = some bins ∧ bins.length = 592 * files.length ∧
      parseBlocks overflowChecks connId files.length bins =
        some (.ok (files.map (·.described connId))) := by
  induction files with
  | nil => exact ⟨[], rfl, rfl, rfl⟩
  | cons file rest ih =>
      obtain ⟨hFile, hRest⟩ := List.forall_mem_cons.mp hTellable
      obtain ⟨bins, hBins, hLength, hParsed⟩ := ih hRest
      obtain ⟨bin, hBin⟩ := exists_asBin hFile.short
      obtain ⟨hBinLength, hDescribed⟩ := parseFileDescriptor_asBin hFile hBin overflowChecks connId
      refine ⟨bin ++ bins, by simp only [filesToBin, hBin, hBins], ?_, ?_⟩
      · rw [List.length_append, hBinLength, hLength, List.length_cons]
        omega
      · rw [List.length_cons, parseBlocks, List.take_left' hBinLength, List.drop_left' hBinLength,
          hDescribed]
        dsimp only
        rw [hParsed]
        rfl

/-- The length of the bytes is that of the list, whatever the list holds. -/
theorem length_filesToBin {files : List LocalFile} {bins : Bytes} (hBins : filesToBin files = some bins) :
    bins.length = 592 * files.length := by
  induction files generalizing bins with
  | nil =>
      cases hBins
      rfl
  | cons file rest ih =>
      rw [filesToBin] at hBins
      split at hBins
      · rename_i bin more hBin hMore
        obtain rfl := Option.some.inj hBins
        have hBinLength := (block_asBin hBin).length
        rw [List.length_append, hBinLength, ih hMore, List.length_cons]
        omega
      · cases hBins

section Pdu
variable {files : List LocalFile} {bins : Bytes}

theorem leValue_pdu : leValue ((putLe 4 files.length ++ bins).take 4) = files.length % 2 ^ 32 := by
  have hWidth : 256 ^ 4 = 2 ^ 32 := by decide
  rw [List.take_left' (length_putLe ..), leValue_putLe, hWidth]

theorem drop_pdu : (putLe 4 files.length ++ bins).drop 4 = bins := List.drop_left' (length_putLe ..)

/-- The bytes of a list are read block by block if its count fits in four of them. -/
theorem parseFileDescriptors_of_blocks (hBins : filesToBin files = some bins)
    (hCount : files.length < 2 ^ 32) {overflowChecks : Bool} {connId : Int}
    {descs : List FileDescription}
    (hParsed : parseBlocks overflowChecks connId files.length bins = some (.ok descs)) :
    parseFileDescriptors overflowChecks connId (putLe 4 files.length ++ bins) = some (.ok descs) := by
  have hLength := length_filesToBin hBins
  unfold parseFileDescriptors
  rw [if_neg (by simp)]
  dsimp only
  rw [leValue_pdu, drop_pdu, hLength, Nat.mod_eq_of_lt hCount]
  by_cases hEmpty : 592 * files.length = 0 ∧ files.length = 0
  · rw [hEmpty.2] at hParsed
    rw [if_pos hEmpty]
    exact hParsed
  · rw [if_neg hEmpty, if_neg (by simp), hParsed]

/-- The bytes that tell of a list are read as that list. -/
theorem parseFileDescriptors_pdu (hTellable : ∀ file ∈ files, file.Tellable)
    (hCount : files.length < 2 ^ 32) (overflowChecks : Bool) (connId : Int) :
    ∃ pdu, buildFileListPdu files = some pdu ∧
      parseFileDescriptors overflowChecks connId pdu =
        some (.ok (files.map (·.described connId))) := by
  obtain ⟨bins, hBins, -, hParsed⟩ := parseBlocks_filesToBin hTellable overflowChecks connId
  refine ⟨putLe 4 files.length ++ bins, by simp only [buildFileListPdu, hBins, Option.map_some], ?_⟩
  exact parseFileDescriptors_of_blocks hBins hCount hParsed

/-- A list is read only if its count fits in four bytes. -/
theorem lt_of_parsed {pdu : Bytes} (hPdu : buildFileListPdu files = some pdu) {overflowChecks : Bool}
    {connId : Int} {descs : List FileDescription}
    (hParsed : parseFileDescriptors overflowChecks connId pdu = some (.ok descs)) :
    files.length < 2 ^ 32 := by
  obtain ⟨bins, hBins, rfl⟩ := Option.map_eq_some_iff.mp hPdu
  have hLength := length_filesToBin hBins
  unfold parseFileDescriptors at hParsed
  dsimp only at hParsed
  rw [leValue_pdu, drop_pdu, hLength] at hParsed
  split at hParsed
  · cases hParsed
  · split at hParsed
    · omega
    · split at hParsed
      · cases hParsed
      · omega

end Pdu

end FileDescription

end HibtDesk.Clipboard
