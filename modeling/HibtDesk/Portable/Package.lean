import HibtDesk.Common.Options

/-! The portable package: `generate.py` writes the files of the program into
`data.bin`, and the portable executable reads them back from the bytes it was
built with. Both sides know the format only from their own code. -/
namespace HibtDesk.Portable

/-- The characters of a string. -/
abbrev Text := List Char

/-- `str.encode(encoding='utf-8')`. -/
def encodeUtf8 (text : Text) : Bytes := text.flatMap String.utf8EncodeChar

/-- One item of the table of files: its path, its compressed content and the
MD5 code of its content. -/
structure Entry where
  path : Text
  compressed : Bytes
  md5 : Bytes
  deriving DecidableEq, Repr

/-- `int.to_bytes(length=width, byteorder='big')` without its overflow check. -/
def bigEndian : Nat → Nat → Bytes
  | 0, _ => []
  | width + 1, n => bigEndian width (n / 256) ++ [UInt8.ofNat n]

/-- `int.to_bytes(length=4, byteorder='big')`, which raises on a longer number. -/
def toBytes (n : Nat) : Option Bytes :=
  if n < 2 ^ 32 then some (bigEndian 4 n) else none

/-- What is written for one file. -/
def writeEntry (entry : Entry) : Option Bytes := do
  let path := encodeUtf8 entry.path
  let pathLength ← toBytes path.length
  let dataLength ← toBytes entry.compressed.length
  some (pathLength ++ path ++ dataLength ++ entry.compressed ++ entry.md5)

/-- What is written for all of them, in the order of the table. -/
def writeEntries : List Entry → Option Bytes
  | [] => some []
  | entry :: table => do
      let first ← writeEntry entry
      let rest ← writeEntries table
      some (first ++ rest)

/-- The writer, with the word it puts before and after the files. -/
def writeWith (marker : Bytes) (table : List Entry) (exe : Text) : Option Bytes := do
  let entries ← writeEntries table
  some (marker ++ entries ++ marker ++ encodeUtf8 exe)

/-- `write_package_metadata`. -/
def writePackageMetadata (table : List Entry) (exe : Text) : Option Bytes :=
  writeWith (encodeUtf8 "hibtdesk".toList) table exe

/-- The bytes an ill-formed sequence at the front takes up, at most three: as far
as it is the beginning of a well-formed one. -/
def invalidLen : Bytes → Nat
  | first :: second :: rest =>
      let continues := fun byte : UInt8 => 0x80 ≤ byte ∧ byte ≤ 0xBF
      let secondOk :=
        (first = 0xE0 ∧ 0xA0 ≤ second ∧ second ≤ 0xBF) ∨
        (0xE1 ≤ first ∧ first ≤ 0xEC ∧ continues second) ∨
        (first = 0xED ∧ 0x80 ≤ second ∧ second ≤ 0x9F) ∨
        (0xEE ≤ first ∧ first ≤ 0xEF ∧ continues second) ∨
        (first = 0xF0 ∧ 0x90 ≤ second ∧ second ≤ 0xBF) ∨
        (0xF1 ≤ first ∧ first ≤ 0xF3 ∧ continues second) ∨
        (first = 0xF4 ∧ 0x80 ≤ second ∧ second ≤ 0x8F)
      if secondOk then
        match rest with
        | third :: _ => if 0xF0 ≤ first ∧ continues third then 3 else 2
        | [] => 2
      else 1
  | _ => 1

/-- `String::from_utf8_lossy`, with at most `fuel` characters. -/
def lossyChars : Nat → Bytes → Text
  | 0, _ => []
  | _, [] => []
  | fuel + 1, bytes =>
      match ByteArray.utf8DecodeChar? ⟨bytes.toArray⟩ 0 with
      | some c => c :: lossyChars fuel (bytes.drop c.utf8Size)
      | none => '\uFFFD' :: lossyChars fuel (bytes.drop (invalidLen bytes))

def fromUtf8Lossy (bytes : Bytes) : Text := lossyChars bytes.length bytes

theorem lossyChars_encodeUtf8 (s : Text) {fuel : Nat} (hFuel : (encodeUtf8 s).length ≤ fuel) :
    lossyChars fuel (encodeUtf8 s) = s := by
  induction s generalizing fuel with
  | nil => cases fuel <;> rfl
  | cons c rest ih =>
      change (String.utf8EncodeChar c ++ encodeUtf8 rest).length ≤ fuel at hFuel
      change lossyChars fuel (String.utf8EncodeChar c ++ encodeUtf8 rest) = c :: rest
      have hSize := String.length_utf8EncodeChar c
      have hPos := c.utf8Size_pos
      rw [List.length_append, hSize] at hFuel
      cases fuel with
      | zero => omega
      | succ fuel =>
          have hDecode : ByteArray.utf8DecodeChar?
              ⟨(String.utf8EncodeChar c ++ encodeUtf8 rest).toArray⟩ 0 = some c := by
            have hBytes : (⟨(String.utf8EncodeChar c ++ encodeUtf8 rest).toArray⟩ : ByteArray) =
                (String.utf8EncodeChar c).toByteArray ++ (encodeUtf8 rest).toByteArray := by
              rw [← List.toByteArray_append]
              exact ByteArray.ext List.data_toByteArray.symm
            rw [hBytes]
            exact ByteArray.utf8DecodeChar?_utf8EncodeChar_append
          have hDrop : (String.utf8EncodeChar c ++ encodeUtf8 rest).drop c.utf8Size = encodeUtf8 rest := by
            rw [← hSize, List.drop_left]
          obtain ⟨byte, bytes, hCons⟩ : ∃ byte bytes,
              String.utf8EncodeChar c ++ encodeUtf8 rest = byte :: bytes := by
            refine List.exists_cons_of_ne_nil fun hNil => ?_
            have := congrArg List.length hNil
            rw [List.length_append, hSize, List.length_nil] at this
            omega
          rw [hCons] at hDecode hDrop ⊢
          simp only [lossyChars, hDecode, hDrop]
          rw [ih (by omega)]

/-- What is text is read as it is. -/
theorem fromUtf8Lossy_encodeUtf8 (s : Text) : fromUtf8Lossy (encodeUtf8 s) = s :=
  lossyChars_encodeUtf8 s le_rfl

/-- Where the reader stops the program. -/
inductive Panic where
  | binDataInvalid
  | binFileNotValid
  | outOfRange
  deriving DecidableEq, Repr

/-- `BinaryData`. -/
structure BinaryData where
  md5Code : Bytes
  raw : Bytes
  path : Text
  deriving DecidableEq, Repr

/-- `&data[base..base + length]`. -/
def slice (data : Bytes) (base length : Nat) : Except Panic Bytes :=
  if base + length ≤ data.length then .ok ((data.drop base).take length)
  else .error .outOfRange

/-- `u32::from_be_bytes` on the four bytes at `base`. -/
def readLength (data : Bytes) (base : Nat) : Except Panic Nat := do
  let bytes ← slice data base 4
  .ok (bytes.foldl (fun n byte => 256 * n + byte.toNat) 0)

/-- One turn of the reader's loop: a file and where the next one starts. -/
def readEntry (data : Bytes) (base : Nat) : Except Panic (BinaryData × Nat) := do
  let pathLength ← readLength data base
  let path ← slice data (base + 4) pathLength
  let fileLength ← readLength data (base + 4 + pathLength)
  let raw ← slice data (base + 4 + pathLength + 4) fileLength
  let md5 ← slice data (base + 4 + pathLength + 4 + fileLength) 32
  .ok ({ md5Code := md5, raw := raw, path := fromUtf8Lossy path },
    base + 4 + pathLength + 4 + fileLength + 32)

/-- The word the reader looks for. -/
def identifier : Text := "rustdesk".toList

theorem bind_eq_ok {α β : Type} {first : Except Panic α} {next : α → Except Panic β} {result : β} :
    (first >>= next) = .ok result ↔ ∃ found, first = .ok found ∧ next found = .ok result := by
  cases first with
  | error panic => exact ⟨fun h => (nomatch h), fun ⟨_, h, _⟩ => (nomatch h)⟩
  | ok found =>
      constructor
      · exact fun h => ⟨found, rfl, h⟩
      · rintro ⟨other, hOther, hNext⟩
        cases hOther
        exact hNext

theorem slice_eq_ok {data found : Bytes} {base length : Nat} :
    slice data base length = .ok found ↔
      base + length ≤ data.length ∧ found = (data.drop base).take length := by
  unfold slice
  split
  · rename_i hRange
    simp [hRange, eq_comm]
  · rename_i hRange
    simp [hRange]

/-- A file that is read lies within the data. -/
theorem readEntry_base {data : Bytes} {base next : Nat} {file : BinaryData}
    (h : readEntry data base = .ok (file, next)) : base < next ∧ next ≤ data.length := by
  unfold readEntry at h
  obtain ⟨pathLength, -, h⟩ := bind_eq_ok.mp h
  obtain ⟨path, -, h⟩ := bind_eq_ok.mp h
  obtain ⟨fileLength, -, h⟩ := bind_eq_ok.mp h
  obtain ⟨raw, -, h⟩ := bind_eq_ok.mp h
  obtain ⟨md5, hMd5, h⟩ := bind_eq_ok.mp h
  obtain ⟨hRange, -⟩ := slice_eq_ok.mp hMd5
  cases h
  exact ⟨by omega, hRange⟩

/-- The reader's loop from `base` on, and where it stops. -/
def readEntries (data : Bytes) (base : Nat) : Except Panic (List BinaryData × Nat) :=
  match slice data base 8 with
  | .error panic => .error panic
  | .ok iden =>
      if fromUtf8Lossy iden = identifier then .ok ([], base + 8)
      else
        match _hEntry : readEntry data base with
        | .error panic => .error panic
        | .ok (file, next) =>
            match readEntries data next with
            | .error panic => .error panic
            | .ok (files, stop) => .ok (file :: files, stop)
termination_by data.length - base
decreasing_by
  have hNext := readEntry_base _hEntry
  omega

/-- `BinaryReader::read` on the bytes built into the executable. -/
def read (binData : Bytes) : Except Panic (List BinaryData × Text) := do
  if binData.length ≤ 8 then .error .binDataInvalid
  else
    let iden ← slice binData 0 8
    if fromUtf8Lossy iden ≠ identifier then .error .binFileNotValid
    else
      let (files, stop) ← readEntries binData 8
      .ok (files, fromUtf8Lossy (binData.drop stop))

/-- The package holds the files of the table and the name of the executable. -/
def RoundTrips (table : List Entry) (exe : Text) : Prop :=
  ∃ data, writePackageMetadata table exe = some data ∧
    read data = .ok (table.map (fun entry =>
      { md5Code := entry.md5, raw := entry.compressed, path := entry.path }), exe)

/-- Every length of the table fits into its four bytes. -/
def Fits (table : List Entry) : Prop :=
  ∀ entry ∈ table, (encodeUtf8 entry.path).length < 2 ^ 32 ∧ entry.compressed.length < 2 ^ 32

theorem writeEntries_of_fits {table : List Entry} (hFits : Fits table) :
    ∃ bytes, writeEntries table = some bytes := by
  induction table with
  | nil => exact ⟨[], rfl⟩
  | cons entry table ih =>
      obtain ⟨rest, hRest⟩ := ih fun other hOther => hFits other (List.mem_cons_of_mem _ hOther)
      obtain ⟨hPath, hData⟩ := hFits entry (List.mem_cons_self ..)
      simp only [writeEntries, writeEntry, toBytes, hPath, hData, hRest, if_true]
      exact ⟨_, rfl⟩

theorem writePackageMetadata_of_fits {table : List Entry} (hFits : Fits table) (exe : Text) :
    ∃ rest, writePackageMetadata table exe = some (encodeUtf8 "hibtdesk".toList ++ rest) ∧
      8 ≤ rest.length := by
  obtain ⟨entries, hEntries⟩ := writeEntries_of_fits hFits
  refine ⟨entries ++ encodeUtf8 "hibtdesk".toList ++ encodeUtf8 exe, ?_, ?_⟩
  · simp [writePackageMetadata, writeWith, hEntries]
  · have hWord : (encodeUtf8 "hibtdesk".toList).length = 8 := by decide
    simp only [List.length_append, hWord]
    omega

/-- The reader refuses every package the writer makes: the two put different
words at its front. -/
theorem read_of_package (table : List Entry) (hFits : Fits table) (exe : Text) :
    (∃ data, writePackageMetadata table exe = some data ∧ read data = .error .binFileNotValid) ∧
      ¬ RoundTrips table exe := by
  obtain ⟨rest, hWrite, hLong⟩ := writePackageMetadata_of_fits hFits exe
  have hWord : (encodeUtf8 "hibtdesk".toList).length = 8 := by decide
  have hRead : read (encodeUtf8 "hibtdesk".toList ++ rest) = .error .binFileNotValid := by
    have hSlice : slice (encodeUtf8 "hibtdesk".toList ++ rest) 0 8 =
        .ok (encodeUtf8 "hibtdesk".toList) :=
      slice_eq_ok.mpr ⟨by rw [List.length_append, hWord]; omega,
        by rw [List.drop_zero, List.take_left' hWord]⟩
    have hOther : fromUtf8Lossy (encodeUtf8 "hibtdesk".toList) ≠ identifier := by decide
    unfold read
    rw [if_neg (by rw [List.length_append, hWord]; omega), hSlice]
    simp only [bind, Except.bind]
    rw [if_pos hOther]
  refine ⟨⟨_, hWrite, hRead⟩, ?_⟩
  rintro ⟨data, hData, hOk⟩
  obtain rfl := Option.some.inj (hWrite.symm.trans hData)
  rw [hRead] at hOk
  cases hOk

theorem read_of_one_file :
    ¬ RoundTrips [{ path := "./a".toList, compressed := [1, 2], md5 := List.replicate 32 97 }]
      "./HibtDesk.exe".toList :=
  (read_of_package [{ path := "./a".toList, compressed := [1, 2], md5 := List.replicate 32 97 }]
    (by simp only [Fits, List.mem_singleton, forall_eq]; decide) "./HibtDesk.exe".toList).2

/-- A package of one file does not come back. -/
theorem package_of_one_file_refused :
    writePackageMetadata
        [{ path := "./a".toList, compressed := [1, 2], md5 := List.replicate 32 97 }]
        "./HibtDesk.exe".toList ≠ none ∧
      (writePackageMetadata
        [{ path := "./a".toList, compressed := [1, 2], md5 := List.replicate 32 97 }]
        "./HibtDesk.exe".toList).map read = some (.error .binFileNotValid) :=
  ⟨by decide, by rfl⟩

end HibtDesk.Portable
