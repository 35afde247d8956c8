import Mathlib.Tactic.SplitIfs
import HibtDesk.Common.Options

/-! How secrets are kept in the configuration: sealed with a key made from the
id of the machine, written in base64 and marked with a version. -/
namespace HibtDesk

/-- The secretbox and base64 of `sodiumoxide`, and the id of the machine. -/
structure SecretBox where
  getUuid : Bytes
  sealBox : Bytes → Bytes → Bytes → Bytes
  openBox : Bytes → Bytes → Bytes → Option Bytes
  base64Encode : Bytes → Bytes
  base64Decode : Bytes → Option Bytes

/-- What the documentation of the two promises. The nonce is fixed, so a box is
opened exactly if it is the one `seal` makes. -/
structure SecretBox.Documented (box : SecretBox) : Prop where
  open_iff : ∀ data nonce key sealed,
    box.openBox sealed nonce key = some data ↔ sealed = box.sealBox data nonce key
  seal_length : ∀ data nonce key, (box.sealBox data nonce key).length = data.length + 16
  decode_encode : ∀ data, box.base64Decode (box.base64Encode data) = some data
  decode_length : ∀ text data, box.base64Decode text = some data → data.length ≤ text.length

/-- `Vec::resize` with zeros. -/
def resize (v : Bytes) (length : Nat) : Bytes :=
  v.take length ++ List.replicate (length - v.length) 0

variable (box : SecretBox)

/-- `symmetric_crypt`. The key always has the right length. -/
def symmetricCrypt (data : Bytes) (encrypt : Bool) : Option Bytes :=
  let key := resize box.getUuid 32
  let nonce := List.replicate 24 0
  if encrypt then some (box.sealBox data nonce key) else box.openBox data nonce key

def encrypt (v : Bytes) : Option Bytes :=
  if v.isEmpty then none else (symmetricCrypt box v true).map box.base64Encode

def decrypt (v : Bytes) : Option Bytes :=
  if v.isEmpty then none else (box.base64Decode v).bind (symmetricCrypt box · false)

def versionLen : Nat := 2

/-- `decrypt_vec_or_original`: the secret, whether it was decrypted, and
whether it should be stored anew. -/
def decryptVecOrOriginal (v : Bytes) (currentVersion : String) : Bytes × Bool × Bool :=
  if v.length > versionLen ∧ v.take versionLen = utf8 "00" then
    match decrypt box (v.drop versionLen) with
    | some secret => (secret, true, "00" != currentVersion)
    | none => (v, false, !v.isEmpty)
  else (v, false, !v.isEmpty)

/-- `encrypt_vec_or_original`. What already decrypts is left as it is. -/
def encryptVecOrOriginal (v : Bytes) (version : String) (maxLen : Nat) : Bytes :=
  if (decryptVecOrOriginal box v version).2.1 then v
  else if v.length > maxLen then []
  else if version = "00" then
    match encrypt box v with
    | some s => utf8 version ++ s
    | none => v
  else v

theorem symmetricCrypt_seal (data : Bytes) : symmetricCrypt box data true =
    some (box.sealBox data (List.replicate 24 0) (resize box.getUuid 32)) := rfl

theorem symmetricCrypt_open (data : Bytes) : symmetricCrypt box data false =
    box.openBox data (List.replicate 24 0) (resize box.getUuid 32) := rfl

/-- What decrypts under the current version need not be stored anew. -/
theorem decryptVec_current {v secret : Bytes} {store : Bool}
    (h : decryptVecOrOriginal box v "00" = (secret, true, store)) : store = false := by
  unfold decryptVecOrOriginal at h
  split_ifs at h
  · split at h
    · exact (congrArg (fun found => found.2.2) h).symm
    · simp at h
  · simp at h

section Documented
variable {box} (hBox : box.Documented)
include hBox

/-- What was encrypted is decrypted again. -/
theorem decrypt_encrypt {v sealed : Bytes} (h : encrypt box v = some sealed) :
    decrypt box sealed = some v ∧ sealed ≠ [] := by
  unfold encrypt at h
  rw [symmetricCrypt_seal] at h
  split_ifs at h with hEmpty
  obtain rfl := Option.some.inj h
  have hDecode := hBox.decode_encode (box.sealBox v (List.replicate 24 0) (resize box.getUuid 32))
  have hLength := hBox.decode_length _ _ hDecode
  rw [hBox.seal_length] at hLength
  have hSome : box.base64Encode (box.sealBox v (List.replicate 24 0) (resize box.getUuid 32)) ≠ [] := by
    intro hNil
    rw [hNil] at hLength
    simp at hLength
  refine ⟨?_, hSome⟩
  unfold decrypt
  rw [if_neg (by simpa using hSome), hDecode, Option.bind_some, symmetricCrypt_open]
  exact (hBox.open_iff ..).mpr rfl

/-- Decrypting makes a secret shorter. -/
theorem decrypt_length {v secret : Bytes} (h : decrypt box v = some secret) :
    secret.length < v.length := by
  unfold decrypt at h
  split_ifs at h
  obtain ⟨sealed, hDecode, hOpen⟩ := Option.bind_eq_some_iff.mp h
  rw [symmetricCrypt_open] at hOpen
  have hSealed := (hBox.open_iff ..).mp hOpen
  have hLength := hBox.decode_length _ _ hDecode
  rw [hSealed, hBox.seal_length] at hLength
  omega

theorem decryptVecOrOriginal_length {v secret : Bytes} {version : String} {store : Bool}
    (h : decryptVecOrOriginal box v version = (secret, true, store)) : secret.length < v.length := by
  unfold decryptVecOrOriginal at h
  split_ifs at h with hLong
  · cases hDecrypt : decrypt box (v.drop versionLen) with
    | none => simp [hDecrypt] at h
    | some found =>
        obtain rfl : found = secret := by simpa [hDecrypt] using congrArg Prod.fst h
        have hLength := decrypt_length hBox hDecrypt
        rw [List.length_drop] at hLength
        omega
  · simp at h

/-- A secret of at most `maxLen` bytes comes back from the configuration
exactly if it is not empty and not itself an encrypted secret. -/
theorem decryptVecOrOriginal_encrypt_iff {v : Bytes} {maxLen : Nat} (hLength : v.length ≤ maxLen) :
    (∃ store, decryptVecOrOriginal box (encryptVecOrOriginal box v "00" maxLen) "00" =
      (v, true, store)) ↔ v ≠ [] ∧ (decryptVecOrOriginal box v "00").2.1 = false := by
  unfold encryptVecOrOriginal
  cases hTwice : (decryptVecOrOriginal box v "00").2.1 with
  | true =>
      -- the secret was left as it is and decrypts to something shorter
      simp only [if_true, Bool.true_eq_false, and_false, iff_false]
      rintro ⟨store, hSame⟩
      exact absurd (decryptVecOrOriginal_length hBox hSame) (Nat.lt_irrefl _)
  | false =>
      rw [if_neg (by simp), if_neg (by omega), if_pos rfl]
      simp only [and_true]
      cases hEncrypt : encrypt box v with
      | none =>
          obtain rfl : v = [] := by
            simpa [encrypt, symmetricCrypt_seal] using hEncrypt
          simp [decryptVecOrOriginal, versionLen]
      | some sealed =>
          obtain ⟨hDecrypt, hSome⟩ := decrypt_encrypt hBox hEncrypt
          have hVersion : (utf8 "00").length = versionLen := by decide +kernel
          have hLong : (utf8 "00" ++ sealed).length > versionLen := by
            rw [List.length_append, hVersion]
            have := List.length_pos_iff.mpr hSome
            omega
          have hNe : v ≠ [] := by
            rintro rfl
            simp [encrypt] at hEncrypt
          simp only [ne_eq, hNe, not_false_eq_true, iff_true]
          unfold decryptVecOrOriginal
          rw [← hVersion, List.take_left, List.drop_left, hDecrypt, if_pos ⟨hVersion ▸ hLong, rfl⟩]
          exact ⟨_, rfl⟩

end Documented

end HibtDesk
