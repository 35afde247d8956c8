import HibtDesk.Common.PasswordSecurity
import HibtDesk.Library.Base64
import HibtDesk.Portable.Package

/-! How secrets that are strings are kept in the configuration. -/
namespace HibtDesk

open Portable (Text encodeUtf8 lossyChars fromUtf8Lossy fromUtf8Lossy_encodeUtf8 invalidLen)

/-- The string with these ASCII bytes. -/
def ofAscii (bytes : Bytes) : Text := bytes.map fun byte => Char.ofNat byte.toNat

/-- There is nothing but ASCII in what base64 decodes. -/
def SecretBox.DecodesAscii (box : SecretBox) : Prop :=
  ∀ text data, box.base64Decode text = some data → ∀ byte ∈ text, byte < 128

/-- Boxes in the clear, behind sixteen zeros. -/
def SecretBox.clear : SecretBox where
  getUuid := []
  sealBox data _ _ := List.replicate 16 0 ++ data
  openBox sealed _ _ :=
    if sealed.take 16 = List.replicate 16 0 then some (sealed.drop 16) else none
  base64Encode := Base64.encode
  base64Decode := Base64.decode

theorem SecretBox.clear_documented : SecretBox.clear.Documented := by
  refine ⟨fun data nonce key sealed => ?_, fun data nonce key => ?_, Base64.decode_encode,
    fun text data hDecode => (Base64.decode_shape hDecode).1⟩
  · simp only [clear]
    constructor
    · intro hOpen
      split_ifs at hOpen with hTag
      rw [← hTag, ← Option.some.inj hOpen, List.take_append_drop]
    · rintro rfl
      simp
  · simp only [clear, List.length_append, List.length_replicate]
    omega

theorem SecretBox.clear_decodesAscii : SecretBox.clear.DecodesAscii :=
  fun _ _ hDecode => (Base64.decode_shape hDecode).2

variable (box : SecretBox)

/-- `decrypt_str_or_original`. -/
def decryptStrOrOriginal (s : Text) (currentVersion : String) : Text × Bool × Bool :=
  if (encodeUtf8 s).length > versionLen ∧ ['0', '0'] <+: s then
    match decrypt box ((encodeUtf8 s).drop versionLen) with
    | some v => (fromUtf8Lossy v, true, "00" != currentVersion)
    | none => (s, false, !s.isEmpty)
  else (s, false, !s.isEmpty)

/-- `encrypt_str_or_original`. The length is that in characters. -/
def encryptStrOrOriginal (s : Text) (version : String) (maxLen : Nat) : Text :=
  if (decryptStrOrOriginal box s version).2.1 then s
  else if s.length > maxLen then []
  else if version = "00" then
    match encrypt box (encodeUtf8 s) with
    | some sealed => version.toList ++ ofAscii sealed
    | none => s
  else s

section Utf8

theorem encodeUtf8_append (first second : Text) :
    encodeUtf8 (first ++ second) = encodeUtf8 first ++ encodeUtf8 second := List.flatMap_append

theorem encodeUtf8_length_pos {s : Text} (h : s ≠ []) : 0 < (encodeUtf8 s).length := by
  cases s with
  | nil => exact absurd rfl h
  | cons c rest =>
      change 0 < (String.utf8EncodeChar c ++ encodeUtf8 rest).length
      rw [List.length_append, String.length_utf8EncodeChar]
      have := c.utf8Size_pos
      omega

theorem utf8EncodeChar_ofNat {byte : UInt8} (h : byte < 128) :
    String.utf8EncodeChar (Char.ofNat byte.toNat) = [byte] := by
  have hAll : ∀ n : Fin 128, String.utf8EncodeChar (Char.ofNat n.val) = [UInt8.ofNat n.val] := by decide
  have hByte := hAll ⟨byte.toNat, h⟩
  rw [UInt8.ofNat_toNat] at hByte
  exact hByte

theorem encodeUtf8_ofAscii {bytes : Bytes} (h : ∀ byte ∈ bytes, byte < 128) :
    encodeUtf8 (ofAscii bytes) = bytes := by
  induction bytes with
  | nil => rfl
  | cons byte rest ih =>
      change String.utf8EncodeChar (Char.ofNat byte.toNat) ++ encodeUtf8 (ofAscii rest) = byte :: rest
      rw [utf8EncodeChar_ofNat (h byte List.mem_cons_self),
        ih fun other hMem => h other (List.mem_cons_of_mem _ hMem)]
      rfl

/-- A string of nothing but ASCII has as many characters as bytes. -/
theorem ofAscii_encodeUtf8 {s : Text} (h : ∀ byte ∈ encodeUtf8 s, byte < 128) :
    ofAscii (encodeUtf8 s) = s := by
  rw [← fromUtf8Lossy_encodeUtf8 (ofAscii (encodeUtf8 s)), encodeUtf8_ofAscii h,
    fromUtf8Lossy_encodeUtf8]

theorem utf8Size_of_mem_ofAscii {bytes : Bytes} (h : ∀ byte ∈ bytes, byte < 128) {c : Char}
    (hMem : c ∈ ofAscii bytes) : c.utf8Size = 1 := by
  obtain ⟨byte, hByte, rfl⟩ := List.mem_map.mp hMem
  rw [← String.length_utf8EncodeChar, utf8EncodeChar_ofNat (h byte hByte), List.length_singleton]

/-- Where only ASCII comes out of any bytes, each byte has become one character. -/
theorem length_lossyChars {fuel : Nat} {bytes : Bytes} (hFuel : bytes.length ≤ fuel)
    (hAscii : ∀ c ∈ lossyChars fuel bytes, c.utf8Size = 1) :
    (lossyChars fuel bytes).length = bytes.length := by
  induction fuel generalizing bytes with
  | zero =>
      obtain rfl := List.eq_nil_of_length_eq_zero (Nat.le_zero.mp hFuel)
      rfl
  | succ fuel ih =>
      cases bytes with
      | nil => rfl
      | cons byte rest =>
          unfold lossyChars at hAscii ⊢
          cases hDecode : ByteArray.utf8DecodeChar? ⟨(byte :: rest).toArray⟩ 0 with
          | none =>
              rw [hDecode] at hAscii
              exact absurd (hAscii '\uFFFD' List.mem_cons_self) (by decide)
          | some c =>
              rw [hDecode] at hAscii
              dsimp only at hAscii ⊢
              have hOne := hAscii c List.mem_cons_self
              rw [hOne, List.drop_one, List.tail_cons] at hAscii ⊢
              rw [List.length_cons, List.length_cons,
                ih (Nat.le_of_succ_le_succ hFuel) fun other hMem =>
                  hAscii other (List.mem_cons_of_mem _ hMem)]

theorem mem_ofAscii {bytes : Bytes} (hAscii : ∀ byte ∈ bytes, byte < 128) {code : UInt8}
    (hCode : code < 128) : Char.ofNat code.toNat ∈ ofAscii bytes ↔ code ∈ bytes := by
  constructor
  · intro hMem
    obtain ⟨byte, hByte, hSame⟩ := List.mem_map.mp hMem
    have hBytes := congrArg String.utf8EncodeChar hSame
    rw [utf8EncodeChar_ofNat (hAscii byte hByte), utf8EncodeChar_ofNat hCode] at hBytes
    rwa [← List.singleton_inj.mp hBytes]
  · exact List.mem_map_of_mem

/-- No byte of a string has all bits set. -/
theorem last_notMem_encodeUtf8 (s : Text) : 255 ∉ encodeUtf8 s := by
  intro hMem
  obtain ⟨c, -, hByte⟩ := List.mem_flatMap.mp hMem
  have hSmall : ∀ byte ∈ String.utf8EncodeChar c, byte.toNat ≤ 254 := by
    intro byte hIn
    unfold String.utf8EncodeChar at hIn
    dsimp only at hIn
    split_ifs at hIn
    all_goals
      simp only [List.mem_cons, List.not_mem_nil, or_false] at hIn
    · subst hIn
      simp only [UInt8.toNat_ofNat']
      omega
    · rcases hIn with rfl | rfl
      all_goals
        simp only [UInt8.toNat_ofNat']
        omega
    · rcases hIn with rfl | rfl | rfl
      all_goals
        simp only [UInt8.toNat_ofNat']
        omega
    · rcases hIn with rfl | rfl | rfl | rfl
      all_goals
        simp only [UInt8.toNat_ofNat']
        omega
  exact absurd (hSmall 255 hByte) (by decide)

theorem length_lossyChars_le (fuel : Nat) (bytes : Bytes) :
    (lossyChars fuel bytes).length ≤ fuel := by
  induction fuel generalizing bytes with
  | zero => simp [lossyChars]
  | succ fuel ih =>
      cases bytes with
      | nil => simp [lossyChars]
      | cons byte rest =>
          unfold lossyChars
          cases ByteArray.utf8DecodeChar? ⟨(byte :: rest).toArray⟩ 0 with
          | none => exact Nat.succ_le_succ (ih _)
          | some c => exact Nat.succ_le_succ (ih _)

end Utf8

section Documented
variable {box} (hBox : box.Documented) (hAscii : box.DecodesAscii)
include hBox hAscii

theorem encrypt_ascii {v sealed : Bytes} (h : encrypt box v = some sealed) :
    ∀ byte ∈ sealed, byte < 128 := by
  unfold encrypt at h
  split_ifs at h
  rw [symmetricCrypt_seal, Option.map_some] at h
  obtain rfl := Option.some.inj h
  exact hAscii _ _ (hBox.decode_encode _)

/-- A secret that is short enough, and is not an encrypted one itself, comes back. -/
theorem decryptStr_encryptStr {s : Text} {maxLen : Nat} (hSome : s ≠ [])
    (hPlain : (decryptStrOrOriginal box s "00").2.1 = false) (hLength : s.length ≤ maxLen) :
    decryptStrOrOriginal box (encryptStrOrOriginal box s "00" maxLen) "00" = (s, true, false) := by
  have hBytes : encodeUtf8 s ≠ [] := List.length_pos_iff.mp (encodeUtf8_length_pos hSome)
  obtain ⟨sealed, hSealed⟩ : ∃ sealed, encrypt box (encodeUtf8 s) = some sealed := by
    unfold encrypt
    rw [if_neg (by simpa using hBytes), symmetricCrypt_seal]
    exact ⟨_, rfl⟩
  obtain ⟨hDecrypt, hNonempty⟩ := decrypt_encrypt hBox hSealed
  have hEncrypt : encryptStrOrOriginal box s "00" maxLen = ['0', '0'] ++ ofAscii sealed := by
    unfold encryptStrOrOriginal
    rw [hPlain, if_neg Bool.false_ne_true, if_neg (by omega), if_pos rfl, hSealed]
    rfl
  have hText : encodeUtf8 (['0', '0'] ++ ofAscii sealed) = [48, 48] ++ sealed := by
    rw [encodeUtf8_append, encodeUtf8_ofAscii (encrypt_ascii hBox hAscii hSealed)]
    rfl
  rw [hEncrypt]
  unfold decryptStrOrOriginal
  rw [hText, if_pos]
  · rw [show ([48, 48] ++ sealed : Bytes).drop versionLen = sealed from rfl, hDecrypt]
    simp only [fromUtf8Lossy_encodeUtf8, bne_self_eq_false]
  · refine ⟨?_, List.prefix_append _ _⟩
    have := List.length_pos_iff.mpr hNonempty
    simp only [List.length_append, List.length_cons, List.length_nil, versionLen]
    omega

/-- What an encrypted secret is decrypted to is not that secret itself. -/
theorem decryptStr_ne {s text : Text} {version : String} {store : Bool}
    (h : decryptStrOrOriginal box s version = (text, true, store)) : text ≠ s := by
  unfold decryptStrOrOriginal at h
  split_ifs at h with hLong
  · cases hDecrypt : decrypt box ((encodeUtf8 s).drop versionLen) with
    | none => simp [hDecrypt] at h
    | some v =>
        obtain rfl : fromUtf8Lossy v = text := by simpa [hDecrypt] using congrArg Prod.fst h
        intro hSame
        have hShorter := decrypt_length hBox hDecrypt
        have hTail : ∀ byte ∈ (encodeUtf8 s).drop versionLen, byte < 128 := by
          unfold decrypt at hDecrypt
          split_ifs at hDecrypt
          obtain ⟨sealed, hDecode, -⟩ := Option.bind_eq_some_iff.mp hDecrypt
          exact hAscii _ _ hDecode
        have hBytes : ∀ byte ∈ encodeUtf8 s, byte < 128 := by
          obtain ⟨rest, hRest⟩ := hLong.2
          rw [← hRest, encodeUtf8_append] at hTail ⊢
          intro byte hMem
          rcases List.mem_append.mp hMem with hVersion | hLater
          · have hZeros : encodeUtf8 ['0', '0'] = List.replicate 2 48 := rfl
            rw [hZeros] at hVersion
            rw [List.eq_of_mem_replicate hVersion]
            decide
          · exact hTail byte hLater
        have hString := ofAscii_encodeUtf8 hBytes
        have hCount : (fromUtf8Lossy v).length = v.length := by
          refine length_lossyChars le_rfl fun c hMem => ?_
          change c ∈ fromUtf8Lossy v at hMem
          rw [hSame, ← hString] at hMem
          exact utf8Size_of_mem_ofAscii hBytes hMem
        have hLength : s.length = (encodeUtf8 s).length := by
          rw [← congrArg List.length hString]
          exact List.length_map ..
        rw [hSame, hLength] at hCount
        rw [List.length_drop] at hShorter
        omega
  · simp at h

omit hAscii in
/-- Bytes that are few enough, and not an encrypted secret themselves, come back. -/
theorem decryptVec_encryptVec {v : Bytes} {maxLen : Nat}
    (hPlain : (decryptVecOrOriginal box v "00").2.1 = false) (hLength : v.length ≤ maxLen) :
    decryptVecOrOriginal box (encryptVecOrOriginal box v "00" maxLen) "00" =
      (v, !v.isEmpty, false) := by
  cases v with
  | nil =>
      have hNone : encryptVecOrOriginal box [] "00" maxLen = [] := by
        simp [encryptVecOrOriginal, encrypt, decryptVecOrOriginal, versionLen]
      rw [hNone]
      rfl
  | cons byte rest =>
      obtain ⟨store, hBack⟩ :=
        (decryptVecOrOriginal_encrypt_iff hBox hLength).mpr ⟨List.cons_ne_nil _ _, hPlain⟩
      have hStore := decryptVec_current box hBack
      rw [hBack, hStore]
      rfl

omit hAscii in
/-- Of an encrypted secret, encrypting it once more makes nothing else. -/
theorem encryptVec_idempotent {v : Bytes} {maxLen : Nat}
    (hSome : encryptVecOrOriginal box v "00" maxLen ≠ []) :
    encryptVecOrOriginal box (encryptVecOrOriginal box v "00" maxLen) "00" maxLen =
      encryptVecOrOriginal box v "00" maxLen := by
  cases hPlain : (decryptVecOrOriginal box v "00").2.1 with
  | true =>
      have hSame : encryptVecOrOriginal box v "00" maxLen = v := by
        rw [encryptVecOrOriginal, hPlain, if_pos rfl]
      rw [hSame, hSame]
  | false =>
      have hLength : v.length ≤ maxLen := by
        by_contra hLong
        apply hSome
        rw [encryptVecOrOriginal, hPlain, if_neg Bool.false_ne_true, if_pos (by omega)]
      have hBack := decryptVec_encryptVec hBox hPlain hLength
      have hNonempty : v ≠ [] := by
        rintro rfl
        apply hSome
        simp [encryptVecOrOriginal, encrypt, decryptVecOrOriginal, versionLen]
      have hFound : (!v.isEmpty) = true := by simpa using hNonempty
      rw [encryptVecOrOriginal, hBack, if_pos hFound]

theorem encryptStr_idempotent {s : Text} {maxLen : Nat}
    (hSome : encryptStrOrOriginal box s "00" maxLen ≠ []) :
    encryptStrOrOriginal box (encryptStrOrOriginal box s "00" maxLen) "00" maxLen =
      encryptStrOrOriginal box s "00" maxLen := by
  cases hPlain : (decryptStrOrOriginal box s "00").2.1 with
  | true =>
      have hSame : encryptStrOrOriginal box s "00" maxLen = s := by
        rw [encryptStrOrOriginal, hPlain, if_pos rfl]
      rw [hSame, hSame]
  | false =>
      have hLength : s.length ≤ maxLen := by
        by_contra hLong
        apply hSome
        rw [encryptStrOrOriginal, hPlain, if_neg Bool.false_ne_true, if_pos (by omega)]
      have hNonempty : s ≠ [] := by
        rintro rfl
        apply hSome
        rw [encryptStrOrOriginal, hPlain]
        rfl
      have hBack := decryptStr_encryptStr hBox hAscii hNonempty hPlain hLength
      rw [encryptStrOrOriginal, hBack, if_pos rfl]

/-- A plain field comes back from storage, and an encrypted one is not
encrypted twice. The fields that are strings and those that are bytes agree. -/
theorem encryptOrOriginal_roundtrip (maxLen : Nat) :
    (∀ s : Text, (decryptStrOrOriginal box s "00").2.1 = false → s.length ≤ maxLen →
      decryptStrOrOriginal box (encryptStrOrOriginal box s "00" maxLen) "00" =
        (s, !s.isEmpty, false)) ∧
    (∀ v : Bytes, (decryptVecOrOriginal box v "00").2.1 = false → v.length ≤ maxLen →
      decryptVecOrOriginal box (encryptVecOrOriginal box v "00" maxLen) "00" =
        (v, !v.isEmpty, false)) ∧
    (∀ s : Text, encryptStrOrOriginal box s "00" maxLen ≠ [] →
      encryptStrOrOriginal box (encryptStrOrOriginal box s "00" maxLen) "00" maxLen =
        encryptStrOrOriginal box s "00" maxLen) ∧
    (∀ v : Bytes, encryptVecOrOriginal box v "00" maxLen ≠ [] →
      encryptVecOrOriginal box (encryptVecOrOriginal box v "00" maxLen) "00" maxLen =
        encryptVecOrOriginal box v "00" maxLen) := by
  refine ⟨fun s hPlain hLength => ?_, fun v hPlain hLength => ?_, fun s hSome => ?_,
    fun v hSome => ?_⟩
  · cases s with
    | nil => rfl
    | cons c rest =>
        exact decryptStr_encryptStr hBox hAscii (List.cons_ne_nil _ _) hPlain hLength
  · exact decryptVec_encryptVec hBox hPlain hLength
  · exact encryptStr_idempotent hBox hAscii hSome
  · exact encryptVec_idempotent hBox hSome

end Documented

/-- A plain string that starts like an encrypted one, kept behind sixteen zeros. -/
theorem encryptOrOriginal_roundtrip_clear :
    decryptStrOrOriginal SecretBox.clear
        (encryptStrOrOriginal SecretBox.clear ['0', '0', 'é'] "00" 3) "00" =
      (['0', '0', 'é'], true, false) :=
  (encryptOrOriginal_roundtrip SecretBox.clear_documented SecretBox.clear_decodesAscii 3).1 _
    (by decide +kernel) (by decide)

end HibtDesk
