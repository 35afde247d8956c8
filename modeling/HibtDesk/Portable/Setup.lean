import HibtDesk.Common.Version
import HibtDesk.Library.Lines
import HibtDesk.Portable.Package

/-! Unpacking the portable package. A directory that has the build's timestamp is kept and
only repaired; any other one is removed first. The timestamp is only known where it was
compared, which it is not where the directory is to be cleared anyway. -/
namespace HibtDesk.Portable

/-- `APP_METADATA_CONFIG`. -/
def appMetadataConfig : Text := "meta.toml".toList

/-- `META_LINE_PREFIX_TIMESTAMP`. -/
def metaLinePrefixTimestamp : Text := "timestamp = ".toList

/-- `WIN_TOPMOST_INJECTED_PROCESS_EXE`. -/
def winTopmostInjectedProcessExe : Text := "RuntimeBroker_hibtdesk.exe".toList

/-- `str::replace` by nothing. What is left of a match is skipped. -/
def removeAll (pattern : Text) : Nat → Text → Text
  | _, [] => []
  | skip + 1, _ :: rest => removeAll pattern skip rest
  | 0, c :: rest =>
      if pattern.isPrefixOf (c :: rest) then removeAll pattern (pattern.length - 1) rest
      else c :: removeAll pattern 0 rest

/-- A line of `str::lines`, without its end. -/
def chomp (line : Text) : Text :=
  if line.getLast? = some '\n' then
    if line.dropLast.getLast? = some '\r' then line.dropLast.dropLast else line.dropLast
  else line

/-- The first timestamp in a text that can be read. -/
def storedTimestamp (content : Text) : Option Nat :=
  ((Lines.split '\n' content).map chomp).findSome? fun line =>
    if metaLinePrefixTimestamp.isPrefixOf line then
      parseU64 (removeAll metaLinePrefixTimestamp 0 line)
    else none

/-- `str::from_utf8`. -/
def fromUtf8 (bytes : Bytes) : Option Text := (String.fromUTF8? bytes.toByteArray).map String.toList

/-- What `write_meta` writes. -/
def metaContent (ts : Nat) : Bytes := encodeUtf8 (metaLinePrefixTimestamp ++ Nat.toDigits 10 ts)

/-- What setup rests on: a hash, the decoder, the file that a path in the directory leads to,
the metadata of the build and, on Windows, the program that is copied. -/
structure Machine (Place : Type) where
  md5 : Bytes → Text
  decompress : Bytes → Bytes
  place : Text → Place
  appMetadata : Bytes
  runtimeBroker : Option Bytes

/-- The directory, whether it was removed, and what was written. -/
structure Outcome (Place : Type) where
  disk : Place → Option Bytes
  removed : Bool
  written : List Place

section Setup
variable {Place : Type} [DecidableEq Place]

/-- `fs::write`. -/
def Outcome.write (out : Outcome Place) (p : Place) (content : Bytes) : Outcome Place :=
  { out with disk := fun q => if q = p then some content else out.disk q, written := out.written ++ [p] }

variable (m : Machine Place)

/-- `is_timestamp_matches`, with the timestamp after it. -/
def isTimestampMatches (disk : Place → Option Bytes) (ts : Nat) : Bool × Nat :=
  match fromUtf8 m.appMetadata with
  | none => (true, ts)
  | some appMetadata =>
      let ts := (storedTimestamp appMetadata).getD ts
      if ts = 0 then (true, ts)
      else
        (((disk (m.place appMetadataConfig)).bind fromUtf8).any fun content =>
          storedTimestamp content = some ts, ts)

/-- `write_meta`. -/
def writeMeta (out : Outcome Place) (ts : Nat) : Outcome Place :=
  if ts ≠ 0 then out.write (m.place appMetadataConfig) (metaContent ts) else out

/-- `BinaryData::write_to_file`. -/
def writeToFile (out : Outcome Place) (file : BinaryData) : Outcome Place :=
  let p := m.place file.path
  match out.disk p with
  | some f =>
      if m.md5 f = fromUtf8Lossy file.md5Code then out else out.write p (m.decompress file.raw)
  | none => out.write p (m.decompress file.raw)

/-- `win::copy_runtime_broker`, on Windows. -/
def copyRuntimeBroker (out : Outcome Place) : Outcome Place :=
  let p := m.place winTopmostInjectedProcessExe
  match m.runtimeBroker with
  | none => out
  | some src =>
      match out.disk p with
      | some tgt => if m.md5 src = m.md5 tgt then out else out.write p src
      | none => out.write p src

/-- `setup`. -/
def setup (files : List BinaryData) (disk : Place → Option Bytes) (clear : Bool) : Outcome Place :=
  let (kept, ts) := if clear then (false, 0) else isTimestampMatches m disk 0
  let out : Outcome Place := if kept then ⟨disk, false, []⟩ else ⟨fun _ => none, true, []⟩
  let out := files.foldl (writeToFile m) out
  copyRuntimeBroker m (writeMeta m out ts)

/-- Every packaged file is there after setup; and another setup removes no file and rewrites
none, the one with the timestamp apart, which gets what it has. -/
def CompleteAndIdempotent (files : List BinaryData) (disk : Place → Option Bytes) (clear : Bool) : Prop :=
  let first := setup m files disk clear
  let second := setup m files first.disk false
  (∀ file ∈ files, first.disk (m.place file.path) = some (m.decompress file.raw)) ∧
    (second.removed = true → ∀ p, first.disk p = none) ∧
    ∀ p content, first.disk p = some content →
      (p ∈ second.written → p = m.place appMetadataConfig) ∧ second.disk p = some content

/-- The package has no other file in the place of the timestamp or of the copied program; what
the next setup looks for is written, where anything is; and no file that is kept only has the
hash of the packaged one. -/
def Recognised (files : List BinaryData) (disk : Place → Option Bytes) (clear : Bool) (ts : Nat) : Prop :=
  (∀ file ∈ files, m.place file.path = m.place appMetadataConfig →
      m.decompress file.raw = metaContent ts) ∧
    (∀ src ∈ m.runtimeBroker, ∀ file ∈ files, m.place file.path = m.place winTopmostInjectedProcessExe →
      m.md5 src = m.md5 (m.decompress file.raw)) ∧
    if clear then
      (∃ file ∈ files, m.place file.path = m.place appMetadataConfig) ∨ files = [] ∧ m.runtimeBroker = none
    else
      (isTimestampMatches m disk 0).1 = true → ∀ file ∈ files, m.place file.path ≠ m.place appMetadataConfig →
        ∀ content, disk (m.place file.path) = some content →
          m.md5 content = m.md5 (m.decompress file.raw) → content = m.decompress file.raw

end Setup

section Timestamp

theorem metaLinePrefixTimestamp_eq :
    metaLinePrefixTimestamp = ['t', 'i', 'm', 'e', 's', 't', 'a', 'm', 'p', ' ', '=', ' '] := by
  unfold metaLinePrefixTimestamp
  simp only [String.reduceToList]

theorem removeAll_skip (pattern front rest : Text) :
    removeAll pattern front.length (front ++ rest) = removeAll pattern 0 rest := by
  induction front with
  | nil => rfl
  | cons c front ih => exact ih

/-- Nothing is removed where no match can begin. -/
theorem removeAll_of_notMem {first : Char} {pattern text : Text} (hNone : first ∉ text) :
    removeAll (first :: pattern) 0 text = text := by
  induction text with
  | nil => rfl
  | cons c text ih =>
      obtain ⟨hFirst, hRest⟩ := not_or.mp (List.mem_cons.not.mp hNone)
      have hNoMatch : ¬ (first :: pattern).isPrefixOf (c :: text) = true := by
        intro hPrefix
        exact hFirst (List.cons_prefix_cons.mp (List.isPrefixOf_iff_prefix.mp hPrefix)).1
      rw [removeAll, if_neg hNoMatch, ih hRest]

/-- A match in front is removed. -/
theorem removeAll_front {first : Char} {pattern text : Text} (hNone : first ∉ text) :
    removeAll (first :: pattern) 0 (first :: pattern ++ text) = text := by
  have hMatch : (first :: pattern).isPrefixOf (first :: (pattern ++ text)) = true :=
    List.isPrefixOf_iff_prefix.mpr (List.prefix_append (first :: pattern) text)
  rw [List.cons_append, removeAll, if_pos hMatch, List.length_cons, Nat.add_sub_cancel, removeAll_skip,
    removeAll_of_notMem hNone]

theorem fromUtf8_encodeUtf8 (text : Text) : fromUtf8 (encodeUtf8 text) = some text := by
  have hBytes : (encodeUtf8 text).toByteArray = (String.ofList text).toByteArray := by
    rw [← String.utf8Encode_toList, String.toList_ofList]
    rfl
  unfold fromUtf8 String.fromUTF8?
  rw [dif_pos (hBytes ▸ (String.ofList text).isValidUTF8), Option.map_some]
  refine congrArg some (Eq.trans ?_ (String.toList_ofList))
  congr 1

/-- What `write_meta` writes is recognised. -/
theorem storedTimestamp_metaContent {ts : Nat} (hSmall : ts < 2 ^ 64) :
    (fromUtf8 (metaContent ts)).bind storedTimestamp = some ts := by
  have hDigit : ∀ c ∈ Nat.toDigits 10 ts, c.isDigit = true :=
    fun c hMem => Nat.isDigit_of_mem_toDigits (by decide) (by decide) hMem
  have hNone : ∀ c : Char, c.isDigit = false → c ∉ Nat.toDigits 10 ts := by
    intro c hNot hMem
    rw [hDigit c hMem] at hNot
    exact absurd hNot Bool.true_eq_false.mp
  have hLine : '\n' ∉ metaLinePrefixTimestamp ++ Nat.toDigits 10 ts := by
    rw [metaLinePrefixTimestamp_eq, List.mem_append, not_or]
    exact ⟨by decide, hNone '\n' (by decide)⟩
  have hChomp : chomp (metaLinePrefixTimestamp ++ Nat.toDigits 10 ts) =
      metaLinePrefixTimestamp ++ Nat.toDigits 10 ts :=
    if_neg fun hLast => hLine (List.mem_of_getLast? hLast)
  have hPrefix : metaLinePrefixTimestamp.isPrefixOf (metaLinePrefixTimestamp ++ Nat.toDigits 10 ts) = true :=
    List.isPrefixOf_iff_prefix.mpr (List.prefix_append _ _)
  have hRemoved : removeAll metaLinePrefixTimestamp 0 (metaLinePrefixTimestamp ++ Nat.toDigits 10 ts) =
      Nat.toDigits 10 ts := by
    rw [metaLinePrefixTimestamp_eq]
    exact removeAll_front (hNone 't' (by decide))
  unfold metaContent
  rw [fromUtf8_encodeUtf8, Option.bind_some]
  unfold storedTimestamp
  rw [Lines.split_body hLine (by rw [metaLinePrefixTimestamp_eq]; exact List.cons_ne_nil _ _),
    List.map_singleton, hChomp, List.findSome?_cons, if_pos hPrefix, hRemoved, parseU64_toDigits hSmall]

theorem storedTimestamp_lt {content : Text} {ts : Nat} (hStored : storedTimestamp content = some ts) :
    ts < 2 ^ 64 := by
  obtain ⟨line, -, hLine⟩ := List.exists_of_findSome?_eq_some hStored
  split at hLine
  · unfold parseU64 at hLine
    exact of_decide_eq_true (Option.filter_eq_some_iff.mp hLine).2
  · exact absurd hLine.symm (Option.some_ne_none ts)

end Timestamp

section Spec
variable {Place : Type} [DecidableEq Place] (m : Machine Place)

theorem write_disk_self (out : Outcome Place) (p : Place) (content : Bytes) :
    (out.write p content).disk p = some content := if_pos rfl

theorem write_disk_ne (out : Outcome Place) {p q : Place} (hNe : q ≠ p) (content : Bytes) :
    (out.write p content).disk q = out.disk q := if_neg hNe

/-- The content a file has once it was looked at. -/
def settled (disk : Place → Option Bytes) (file : BinaryData) : Bytes :=
  match disk (m.place file.path) with
  | some f => if m.md5 f = fromUtf8Lossy file.md5Code then f else m.decompress file.raw
  | none => m.decompress file.raw

theorem writeToFile_disk_self (out : Outcome Place) (file : BinaryData) :
    (writeToFile m out file).disk (m.place file.path) = some (settled m out.disk file) := by
  unfold writeToFile settled
  dsimp only
  cases hFile : out.disk (m.place file.path) with
  | none => exact write_disk_self out _ _
  | some f =>
      dsimp only
      split_ifs
      · exact hFile
      · exact write_disk_self out _ _

theorem writeToFile_disk_ne (out : Outcome Place) (file : BinaryData) {p : Place}
    (hNe : p ≠ m.place file.path) : (writeToFile m out file).disk p = out.disk p := by
  unfold writeToFile
  dsimp only
  split
  · split_ifs
    · rfl
    · exact write_disk_ne out hNe _
  · exact write_disk_ne out hNe _

/-- The files that are not packaged stay. -/
theorem foldl_disk_other (files : List BinaryData) (out : Outcome Place) {p : Place}
    (hOther : ∀ file ∈ files, m.place file.path ≠ p) :
    (files.foldl (writeToFile m) out).disk p = out.disk p := by
  induction files generalizing out with
  | nil => rfl
  | cons file rest ih =>
      rw [List.foldl_cons, ih _ fun other hMem => hOther other (List.mem_cons_of_mem file hMem)]
      exact writeToFile_disk_ne m out file (hOther file (List.mem_cons_self ..)).symm

/-- Every packaged file is looked at, where it was. -/
theorem foldl_disk (files : List BinaryData) (out : Outcome Place)
    (hPlaces : (files.map fun file => m.place file.path).Nodup) :
    ∀ file ∈ files, (files.foldl (writeToFile m) out).disk (m.place file.path) =
      some (settled m out.disk file) := by
  induction files generalizing out with
  | nil => exact fun file hMem => absurd hMem List.not_mem_nil
  | cons first rest ih =>
      obtain ⟨hFirst, hRest⟩ := List.nodup_cons.mp hPlaces
      have hNe : ∀ other ∈ rest, m.place other.path ≠ m.place first.path :=
        fun other hOther hSame => hFirst (List.mem_map.mpr ⟨other, hOther, hSame⟩)
      intro file hMem
      rw [List.foldl_cons]
      rcases List.mem_cons.mp hMem with rfl | hLater
      · rw [foldl_disk_other m rest _ hNe]
        exact writeToFile_disk_self m out file
      · rw [ih _ hRest file hLater]
        unfold settled
        rw [writeToFile_disk_ne m out first (hNe file hLater)]

/-- Nothing is written where every packaged file has its hash. -/
theorem foldl_skips (files : List BinaryData) (out : Outcome Place)
    (hHashes : ∀ file ∈ files, ∃ f, out.disk (m.place file.path) = some f ∧
      m.md5 f = fromUtf8Lossy file.md5Code) : files.foldl (writeToFile m) out = out := by
  induction files with
  | nil => rfl
  | cons file rest ih =>
      obtain ⟨f, hFile, hHash⟩ := hHashes file (List.mem_cons_self ..)
      have hSkip : writeToFile m out file = out := by
        unfold writeToFile
        dsimp only
        rw [hFile]
        exact if_pos hHash
      rw [List.foldl_cons, hSkip]
      exact ih fun other hMem => hHashes other (List.mem_cons_of_mem file hMem)

theorem copyRuntimeBroker_disk_ne (out : Outcome Place) {p : Place}
    (hNe : p ≠ m.place winTopmostInjectedProcessExe) : (copyRuntimeBroker m out).disk p = out.disk p := by
  unfold copyRuntimeBroker
  dsimp only
  split
  · rfl
  · split
    · split_ifs
      · rfl
      · exact write_disk_ne out hNe _
    · exact write_disk_ne out hNe _

/-- The copy has the hash of the program. -/
theorem copyRuntimeBroker_disk_self (out : Outcome Place) {src : Bytes} (hSrc : m.runtimeBroker = some src) :
    ∃ tgt, (copyRuntimeBroker m out).disk (m.place winTopmostInjectedProcessExe) = some tgt ∧
      m.md5 src = m.md5 tgt ∧
      (tgt = src ∨ out.disk (m.place winTopmostInjectedProcessExe) = some tgt) := by
  unfold copyRuntimeBroker
  rw [hSrc]
  dsimp only
  cases hTgt : out.disk (m.place winTopmostInjectedProcessExe) with
  | none => exact ⟨src, write_disk_self out _ _, rfl, Or.inl rfl⟩
  | some tgt =>
      dsimp only
      split_ifs with hSame
      · exact ⟨tgt, hTgt, hSame, Or.inr rfl⟩
      · exact ⟨src, write_disk_self out _ _, rfl, Or.inl rfl⟩

theorem copyRuntimeBroker_none (out : Outcome Place) (hNone : m.runtimeBroker = none) :
    copyRuntimeBroker m out = out := by
  unfold copyRuntimeBroker
  rw [hNone]

/-- A copy that has the hash is not written again. -/
theorem copyRuntimeBroker_skips (out : Outcome Place)
    (hCopy : ∀ src ∈ m.runtimeBroker, ∃ tgt,
      out.disk (m.place winTopmostInjectedProcessExe) = some tgt ∧ m.md5 src = m.md5 tgt) :
    copyRuntimeBroker m out = out := by
  cases hSrc : m.runtimeBroker with
  | none => exact copyRuntimeBroker_none m out hSrc
  | some src =>
      obtain ⟨tgt, hTgt, hSame⟩ := hCopy src hSrc
      unfold copyRuntimeBroker
      rw [hSrc]
      dsimp only
      rw [hTgt]
      exact if_pos hSame

/-- Writing does not undo the removal. -/
theorem removed_of_writes (files : List BinaryData) (out : Outcome Place) (ts : Nat) :
    (copyRuntimeBroker m (writeMeta m (files.foldl (writeToFile m) out) ts)).removed = out.removed := by
  have hFile : ∀ (out : Outcome Place) (file : BinaryData), (writeToFile m out file).removed = out.removed := by
    intro out file
    unfold writeToFile
    dsimp only
    split
    · split_ifs <;> rfl
    · rfl
  have hMeta : ∀ out : Outcome Place, (writeMeta m out ts).removed = out.removed := by
    intro out
    unfold writeMeta
    split_ifs <;> rfl
  have hCopy : ∀ out : Outcome Place, (copyRuntimeBroker m out).removed = out.removed := by
    intro out
    unfold copyRuntimeBroker
    dsimp only
    split
    · rfl
    · split
      · split_ifs <;> rfl
      · rfl
  rw [hCopy, hMeta]
  induction files generalizing out with
  | nil => rfl
  | cons file rest ih => rw [List.foldl_cons, ih, hFile]

/-- Setup copies the program in the end. -/
theorem setup_copy (files : List BinaryData) (disk : Place → Option Bytes) (clear : Bool) {src : Bytes}
    (hSrc : m.runtimeBroker = some src) :
    ∃ tgt, (setup m files disk clear).disk (m.place winTopmostInjectedProcessExe) = some tgt ∧
      m.md5 src = m.md5 tgt := by
  unfold setup
  dsimp only
  obtain ⟨tgt, hTgt, hSame, -⟩ := copyRuntimeBroker_disk_self m
    (writeMeta m (files.foldl (writeToFile m)
      (if (if clear = true then (false, 0) else isTimestampMatches m disk 0).1 = true then ⟨disk, false, []⟩
        else ⟨fun _ => none, true, []⟩))
      (if clear = true then (false, 0) else isTimestampMatches m disk 0).2) hSrc
  exact ⟨tgt, hTgt, hSame⟩

/-- Packaged files that are there stay so where a packaged copy has the hash of the program. -/
theorem copyRuntimeBroker_full {files : List BinaryData} {out : Outcome Place}
    (hFull : ∀ file ∈ files, out.disk (m.place file.path) = some (m.decompress file.raw))
    (hCopy : ∀ src ∈ m.runtimeBroker, ∀ file ∈ files,
      m.place file.path = m.place winTopmostInjectedProcessExe →
        m.md5 src = m.md5 (m.decompress file.raw)) :
    ∀ file ∈ files, (copyRuntimeBroker m out).disk (m.place file.path) = some (m.decompress file.raw) := by
  intro file hMem
  by_cases hPlace : m.place file.path = m.place winTopmostInjectedProcessExe
  · rw [copyRuntimeBroker_skips m out fun src hSrc => ⟨_, hPlace ▸ hFull file hMem, hCopy src hSrc file hMem hPlace⟩]
    exact hFull file hMem
  · rw [copyRuntimeBroker_disk_ne m out hPlace]
    exact hFull file hMem

/-- Setup of a directory that is cleared. -/
theorem setup_clear (files : List BinaryData) (disk : Place → Option Bytes) :
    setup m files disk true = copyRuntimeBroker m (files.foldl (writeToFile m) ⟨fun _ => none, true, []⟩) := rfl

theorem foldl_empty (files : List BinaryData) (hPlaces : (files.map fun file => m.place file.path).Nodup) :
    ∀ file ∈ files, (files.foldl (writeToFile m) ⟨fun _ => none, true, []⟩).disk (m.place file.path) =
      some (m.decompress file.raw) :=
  foldl_disk m files _ hPlaces

omit [DecidableEq Place] in
/-- A file that is kept has the hash. -/
theorem settled_eq {file : BinaryData} {disk : Place → Option Bytes}
    (hMd5 : fromUtf8Lossy file.md5Code = m.md5 (m.decompress file.raw))
    (hKept : ∀ content, disk (m.place file.path) = some content →
      m.md5 content = m.md5 (m.decompress file.raw) → content = m.decompress file.raw) :
    settled m disk file = m.decompress file.raw := by
  unfold settled
  cases hFile : disk (m.place file.path) with
  | none => rfl
  | some f =>
      dsimp only
      split_ifs with hHash
      · exact hKept f hFile (hHash.trans hMd5)
      · rfl

section Timestamped
variable {m} {ts : Nat} {files : List BinaryData} {disk : Place → Option Bytes}
  (hMeta : (fromUtf8 m.appMetadata).bind storedTimestamp = some ts) (hTs : ts ≠ 0)
include hMeta hTs

omit [DecidableEq Place] in
/-- The comparison, in a build with a timestamp. -/
theorem isTimestampMatches_eq :
    isTimestampMatches m disk 0 =
      (((disk (m.place appMetadataConfig)).bind fromUtf8).any fun content => storedTimestamp content = some ts,
        ts) := by
  obtain ⟨appMetadata, hText, hStored⟩ := Option.bind_eq_some_iff.mp hMeta
  unfold isTimestampMatches
  rw [hText]
  dsimp only
  rw [hStored, Option.getD_some, if_neg hTs]

omit [DecidableEq Place] in
theorem isTimestampMatches_of_meta (hDisk : disk (m.place appMetadataConfig) = some (metaContent ts)) :
    isTimestampMatches m disk 0 = (true, ts) := by
  obtain ⟨appMetadata, -, hStored⟩ := Option.bind_eq_some_iff.mp hMeta
  obtain ⟨content, hContent, hSame⟩ := Option.bind_eq_some_iff.mp
    (storedTimestamp_metaContent (storedTimestamp_lt hStored))
  rw [isTimestampMatches_eq hMeta hTs, hDisk, Option.bind_some, hContent, Option.any_some, hSame]
  simp

omit [DecidableEq Place] in
theorem isTimestampMatches_of_none (hDisk : disk (m.place appMetadataConfig) = none) :
    isTimestampMatches m disk 0 = (false, ts) := by
  rw [isTimestampMatches_eq hMeta hTs, hDisk]
  rfl

/-- Setup of a directory that is not to be cleared. -/
theorem setup_keep : setup m files disk false =
    copyRuntimeBroker m ((files.foldl (writeToFile m)
      (if (isTimestampMatches m disk 0).1 = true then ⟨disk, false, []⟩ else ⟨fun _ => none, true, []⟩)).write
        (m.place appMetadataConfig) (metaContent ts)) := by
  have hSecond : (isTimestampMatches m disk 0).2 = ts := by
    rw [isTimestampMatches_eq hMeta hTs]
  unfold setup writeMeta
  rw [if_neg Bool.false_ne_true]
  dsimp only
  rw [hSecond, if_pos hTs]

/-- The timestamp is written where it was compared. -/
theorem setup_keep_meta (hNames : m.place appMetadataConfig ≠ m.place winTopmostInjectedProcessExe) :
    (setup m files disk false).disk (m.place appMetadataConfig) = some (metaContent ts) := by
  rw [setup_keep hMeta hTs, copyRuntimeBroker_disk_ne m _ hNames]
  exact write_disk_self ..

/-- A directory without the timestamp is removed. -/
theorem setup_keep_removed (hDisk : disk (m.place appMetadataConfig) = none) :
    (setup m files disk false).removed = true := by
  rw [setup_keep hMeta hTs, isTimestampMatches_of_none hMeta hTs hDisk, if_neg Bool.false_ne_true]
  have hRemoved := removed_of_writes m files ⟨fun _ => none, true, []⟩ ts
  unfold writeMeta at hRemoved
  rwa [if_pos hTs] at hRemoved

/-- In a directory that is recognised and complete, only the timestamp is written. -/
theorem setup_complete (hMd5 : ∀ file ∈ files, fromUtf8Lossy file.md5Code = m.md5 (m.decompress file.raw))
    (hFull : ∀ file ∈ files, disk (m.place file.path) = some (m.decompress file.raw))
    (hDisk : disk (m.place appMetadataConfig) = some (metaContent ts))
    (hCopy : ∀ src ∈ m.runtimeBroker, ∃ tgt, disk (m.place winTopmostInjectedProcessExe) = some tgt ∧
      m.md5 src = m.md5 tgt) :
    setup m files disk false =
      Outcome.write ⟨disk, false, []⟩ (m.place appMetadataConfig) (metaContent ts) := by
  have hSame : (Outcome.write ⟨disk, false, []⟩ (m.place appMetadataConfig) (metaContent ts)).disk = disk := by
    funext p
    by_cases hPlace : p = m.place appMetadataConfig
    · rw [hPlace, write_disk_self, hDisk]
    · exact write_disk_ne _ hPlace _
  rw [setup_keep hMeta hTs, isTimestampMatches_of_meta hMeta hTs hDisk, if_pos rfl,
    foldl_skips m files _ fun file hMem => ⟨_, hFull file hMem, (hMd5 file hMem).symm⟩]
  refine copyRuntimeBroker_skips m _ fun src hSrc => ?_
  rw [hSame]
  exact hCopy src hSrc

/-- A first setup that leaves a directory as the next one wants it. -/
theorem completeAndIdempotent_of_complete {clear : Bool}
    (hMd5 : ∀ file ∈ files, fromUtf8Lossy file.md5Code = m.md5 (m.decompress file.raw))
    (hFull : ∀ file ∈ files,
      (setup m files disk clear).disk (m.place file.path) = some (m.decompress file.raw))
    (hDisk : (setup m files disk clear).disk (m.place appMetadataConfig) = some (metaContent ts)) :
    CompleteAndIdempotent m files disk clear := by
  have hSecond := setup_complete hMeta hTs hMd5 hFull hDisk fun _ hSrc => setup_copy m files disk clear hSrc
  unfold CompleteAndIdempotent
  dsimp only
  rw [hSecond]
  refine ⟨hFull, fun hRemoved => absurd hRemoved Bool.false_ne_true, fun p content hContent => ⟨?_, ?_⟩⟩
  · exact fun hWritten => List.mem_singleton.mp hWritten
  · by_cases hPlace : p = m.place appMetadataConfig
    · rw [hPlace] at hContent ⊢
      rw [write_disk_self, ← hDisk, hContent]
    · rw [write_disk_ne _ hPlace]
      exact hContent

end Timestamped

section Iff
variable {m} {ts : Nat} {files : List BinaryData} {disk : Place → Option Bytes}
  (hMeta : (fromUtf8 m.appMetadata).bind storedTimestamp = some ts) (hTs : ts ≠ 0)
  (hNames : m.place appMetadataConfig ≠ m.place winTopmostInjectedProcessExe)
  (hPlaces : (files.map fun file => m.place file.path).Nodup)
  (hMd5 : ∀ file ∈ files, fromUtf8Lossy file.md5Code = m.md5 (m.decompress file.raw))

include hMeta hTs hNames hPlaces hMd5 in
/-- What is recognised in the end: where the directory was cleared, because the package
brings the timestamp or there is nothing. -/
theorem completeAndIdempotent_of_recognised {clear : Bool} (h : Recognised m files disk clear ts) :
    CompleteAndIdempotent m files disk clear := by
  obtain ⟨hOwnMeta, hOwnCopy, hCase⟩ := h
  cases clear with
  | true =>
      have hEmpty := foldl_empty m files hPlaces
      have hFull := copyRuntimeBroker_full m hEmpty hOwnCopy
      rcases (if_pos rfl ▸ hCase : _ ∨ _) with ⟨file, hMem, hPlace⟩ | ⟨rfl, hNone⟩
      · refine completeAndIdempotent_of_complete hMeta hTs hMd5 hFull ?_
        rw [← hPlace, setup_clear, hFull file hMem, hOwnMeta file hMem hPlace]
      · have hNothing : ∀ p, (setup m [] disk true).disk p = none := by
          intro p
          rw [setup_clear, copyRuntimeBroker_none m _ hNone]
          rfl
        refine ⟨fun file hMem => absurd hMem List.not_mem_nil, fun _ => hNothing, fun p content hContent => ?_⟩
        rw [hNothing] at hContent
        exact absurd hContent (Option.some_ne_none content).symm
  | false =>
      refine completeAndIdempotent_of_complete hMeta hTs hMd5 ?_ (setup_keep_meta hMeta hTs hNames)
      rw [setup_keep hMeta hTs]
      refine copyRuntimeBroker_full m (fun file hMem => ?_) hOwnCopy
      by_cases hPlace : m.place file.path = m.place appMetadataConfig
      · rw [hPlace, write_disk_self, hOwnMeta file hMem hPlace]
      · rw [write_disk_ne _ hPlace, foldl_disk m files _ hPlaces file hMem]
        refine congrArg some (settled_eq m (hMd5 file hMem) fun content hContent hHash => ?_)
        by_cases hMatches : (isTimestampMatches m disk 0).1 = true
        · rw [if_pos hMatches] at hContent
          exact hCase hMatches file hMem hPlace content hContent hHash
        · rw [if_neg hMatches] at hContent
          exact absurd hContent (Option.some_ne_none content).symm

include hMeta hTs hNames hPlaces hMd5 in
/-- What a complete directory that stays as it is tells of the first setup. -/
theorem recognised_of_completeAndIdempotent {clear : Bool} (h : CompleteAndIdempotent m files disk clear) :
    Recognised m files disk clear ts := by
  obtain ⟨hFull, hRemoved, hStays⟩ := h
  have hOwnMeta : ∀ file ∈ files, m.place file.path = m.place appMetadataConfig →
      m.decompress file.raw = metaContent ts := by
    intro file hMem hPlace
    have hFirst := hFull file hMem
    rw [hPlace] at hFirst
    have hSecond := (hStays _ _ hFirst).2
    rw [setup_keep_meta hMeta hTs hNames] at hSecond
    exact (Option.some.inj hSecond).symm
  have hOwnCopy : ∀ src ∈ m.runtimeBroker, ∀ file ∈ files,
      m.place file.path = m.place winTopmostInjectedProcessExe → m.md5 src = m.md5 (m.decompress file.raw) := by
    intro src hSrc file hMem hPlace
    obtain ⟨tgt, hTgt, hSame⟩ := setup_copy m files disk clear hSrc
    have hFirst := hFull file hMem
    rw [hPlace, hTgt] at hFirst
    rw [hSame, Option.some.inj hFirst]
  refine ⟨hOwnMeta, hOwnCopy, ?_⟩
  cases clear with
  | true =>
      rw [if_pos rfl]
      by_contra hNeither
      obtain ⟨hNoMeta, hSomething⟩ := not_or.mp hNeither
      have hNone : (setup m files disk true).disk (m.place appMetadataConfig) = none := by
        rw [setup_clear, copyRuntimeBroker_disk_ne m _ hNames]
        exact foldl_disk_other m files _ fun file hMem hPlace => hNoMeta ⟨file, hMem, hPlace⟩
      have hNothing := hRemoved (setup_keep_removed hMeta hTs hNone)
      refine hSomething ⟨List.eq_nil_iff_forall_not_mem.mpr fun file hMem => ?_, ?_⟩
      · have hFirst := hFull file hMem
        rw [hNothing] at hFirst
        exact absurd hFirst (Option.some_ne_none _).symm
      · by_contra hSome
        obtain ⟨src, hSrc⟩ := Option.ne_none_iff_exists'.mp hSome
        obtain ⟨tgt, hTgt, -⟩ := setup_copy m files disk true hSrc
        rw [hNothing] at hTgt
        exact absurd hTgt (Option.some_ne_none _).symm
  | false =>
      rw [if_neg Bool.false_ne_true]
      intro hMatches file hMem hPlace content hContent hHash
      have hFirst := hFull file hMem
      rw [setup_keep hMeta hTs, if_pos hMatches] at hFirst
      have hBefore : ((files.foldl (writeToFile m) ⟨disk, false, []⟩).write (m.place appMetadataConfig)
          (metaContent ts)).disk (m.place file.path) = some content := by
        rw [write_disk_ne _ hPlace, foldl_disk m files _ hPlaces file hMem]
        unfold settled
        dsimp only
        rw [hContent]
        exact congrArg some (if_pos (hHash.trans (hMd5 file hMem).symm))
      by_cases hCopy : m.place file.path = m.place winTopmostInjectedProcessExe
      · rw [copyRuntimeBroker_skips m _ fun src hSrc =>
          ⟨content, hCopy ▸ hBefore, (hOwnCopy src hSrc file hMem hCopy).trans hHash.symm⟩, hBefore] at hFirst
        exact Option.some.inj hFirst
      · rw [copyRuntimeBroker_disk_ne m _ hCopy, hBefore] at hFirst
        exact Option.some.inj hFirst

end Iff

end Spec

/-- Setup is complete, and idempotent, exactly if the next one recognises what it left. -/
theorem completeAndIdempotent_iff {Place : Type} [DecidableEq Place] (m : Machine Place) {ts : Nat}
    {files : List BinaryData} (disk : Place → Option Bytes) (clear : Bool)
    (hMeta : (fromUtf8 m.appMetadata).bind storedTimestamp = some ts) (hTs : ts ≠ 0)
    (hNames : m.place appMetadataConfig ≠ m.place winTopmostInjectedProcessExe)
    (hPlaces : (files.map fun file => m.place file.path).Nodup)
    (hMd5 : ∀ file ∈ files, fromUtf8Lossy file.md5Code = m.md5 (m.decompress file.raw)) :
    CompleteAndIdempotent m files disk clear ↔ Recognised m files disk clear ts :=
  ⟨recognised_of_completeAndIdempotent hMeta hTs hNames hPlaces hMd5,
    completeAndIdempotent_of_recognised hMeta hTs hNames hPlaces hMd5⟩

/-- The hash of two bytes, "hi". -/
def hiDigest : Text := "49f68a5c8493ec2c0bf489821c21fc3b".toList

/-- Windows, where the program that is copied is these two bytes. -/
def windows : Machine Text where
  md5 := fun bytes => if bytes = [0x68, 0x69] then hiDigest else []
  decompress := fun raw => if raw = [0x8b, 0x00, 0x80, 0x68, 0x69, 0x03] then [0x68, 0x69] else []
  place := id
  appMetadata := metaContent 1700000000000
  runtimeBroker := some [0x68, 0x69]

/-- A program of the two bytes, as it is packaged. -/
def hiExe : BinaryData where
  md5Code := encodeUtf8 hiDigest
  raw := [0x8b, 0x00, 0x80, 0x68, 0x69, 0x03]
  path := "hi.exe".toList

theorem windows_meta : (fromUtf8 windows.appMetadata).bind storedTimestamp = some 1700000000000 :=
  storedTimestamp_metaContent (by decide)

theorem windows_names : windows.place appMetadataConfig ≠ windows.place winTopmostInjectedProcessExe := by
  show appMetadataConfig ≠ winTopmostInjectedProcessExe
  unfold appMetadataConfig winTopmostInjectedProcessExe
  simp only [String.reduceToList]
  decide

theorem hiExe_places : ([hiExe].map fun file => windows.place file.path).Nodup :=
  List.pairwise_singleton _ _

theorem hiExe_md5 : ∀ file ∈ [hiExe], fromUtf8Lossy file.md5Code = windows.md5 (windows.decompress file.raw) := by
  intro file hMem
  obtain rfl := List.mem_singleton.mp hMem
  exact fromUtf8Lossy_encodeUtf8 hiDigest

theorem hiExe_kept :
    CompleteAndIdempotent windows [hiExe] (fun _ => none) false ↔
      Recognised windows [hiExe] (fun _ => none) false 1700000000000 :=
  completeAndIdempotent_iff windows (fun _ => none) false windows_meta (by decide) windows_names
    hiExe_places hiExe_md5

/-- A directory that was cleared has no timestamp, and the next setup removes it again. -/
theorem hiExe_cleared : ¬ CompleteAndIdempotent windows [hiExe] (fun _ => none) true := by
  intro hComplete
  obtain ⟨-, -, hCase⟩ := recognised_of_completeAndIdempotent windows_meta (by decide) windows_names
    hiExe_places hiExe_md5 hComplete
  rw [if_pos rfl] at hCase
  rcases hCase with ⟨file, hMem, hPlace⟩ | ⟨hNil, -⟩
  · obtain rfl := List.mem_singleton.mp hMem
    change hiExe.path = appMetadataConfig at hPlace
    unfold hiExe appMetadataConfig at hPlace
    simp only [String.reduceToList] at hPlace
    exact absurd hPlace (by decide)
  · exact absurd hNil (List.cons_ne_nil _ _)

end HibtDesk.Portable
