import HibtDesk.Common.StringSecurity
import HibtDesk.Library.Table

/-! The configuration with the id, the password and the keys, in memory and in its file. The
file has the password and the id encrypted. -/
namespace HibtDesk.Credentials

open Portable (Text)

structure Config where
  id : Text
  encId : Text
  password : Text
  salt : Text
  keyPair : Bytes × Bytes
  keyConfirmed : Bool
  keysConfirmed : Table Text Bool

def encryptMaxLen : Nat := 128

def passwordEncVersion : String := "00"

variable (box : SecretBox)

/-- `Config::store`: what is written to the file. -/
def Config.store (config : Config) : Config :=
  { config with
    password := encryptStrOrOriginal box config.password passwordEncVersion encryptMaxLen
    encId := encryptStrOrOriginal box config.id passwordEncVersion encryptMaxLen
    id := [] }

/-- The id that was found in the file, if it is valid, and whether it should be stored anew. -/
def validId (file : Config) : Option (Text × Bool) :=
  let (id, encrypted, store) := decryptStrOrOriginal box file.encId passwordEncVersion
  if encrypted then some (id, store)
  else if !file.id.isEmpty && file.encId.isEmpty &&
      !(decryptStrOrOriginal box file.id passwordEncVersion).2.1 then some (file.id, true)
  else none

/-- `Config::load`, with what it writes to the file, if it does. `generated` is what comes of
trying to make a new id, try by try. -/
def load (generated : List (Option Text)) (file : Config) : Config × Option Config :=
  let (password, _, store) := decryptStrOrOriginal box file.password passwordEncVersion
  let config := { file with password := password }
  let (config, store) :=
    match validId box file with
    | some (id, again) => ({ config with id := id }, store || again)
    | none =>
        match (generated.take 3).findSome? (fun found => found) with
        | some id => ({ config with id := id }, true)
        | none => (config, store)
  (config, if store then some (config.store box) else none)

/-- The file after a program has loaded it. -/
def reload (generated : List (Option Text)) (file : Config) : Config :=
  (load box generated file).2.getD file

/-- Stored and loaded, the configuration is the same, and loading once more writes nothing. -/
structure Survives (config : Config) (first second : List (Option Text)) : Prop where
  id : (load box first (config.store box)).1.id = config.id
  password : (load box first (config.store box)).1.password = config.password
  salt : (load box first (config.store box)).1.salt = config.salt
  keyPair : (load box first (config.store box)).1.keyPair = config.keyPair
  keyConfirmed : (load box first (config.store box)).1.keyConfirmed = config.keyConfirmed
  keysConfirmed : (load box first (config.store box)).1.keysConfirmed = config.keysConfirmed
  settled : (load box second (reload box first (config.store box))).2 = none

/-- A string that is short enough and not an encrypted one. -/
def Storable (s : Text) : Prop :=
  s.length ≤ encryptMaxLen ∧ (decryptStrOrOriginal box s passwordEncVersion).2.1 = false

variable {box}

section Load
variable {generated : List (Option Text)} {file : Config}

theorem load_password : (load box generated file).1.password =
    (decryptStrOrOriginal box file.password passwordEncVersion).1 := by
  unfold load
  cases validId box file with
  | some found => rfl
  | none => cases (generated.take 3).findSome? (fun found => found) <;> rfl

/-- With an id that needs no other form, only the password may have to be stored anew. -/
theorem load_of_validId {id : Text} (hValid : validId box file = some (id, false)) :
    load box generated file =
      ({ file with
          password := (decryptStrOrOriginal box file.password passwordEncVersion).1
          id := id },
        if (decryptStrOrOriginal box file.password passwordEncVersion).2.2 then
          some (Config.store box
            { file with
              password := (decryptStrOrOriginal box file.password passwordEncVersion).1
              id := id })
        else none) := by
  unfold load
  rw [hValid]
  simp only [Bool.or_false]

theorem load_id_of_some {id : Text} {again : Bool} (hValid : validId box file = some (id, again)) :
    (load box generated file).1.id = id := by
  unfold load
  rw [hValid]

theorem load_id_of_none (hValid : validId box file = none) :
    (load box [] file).1.id = file.id := by
  unfold load
  rw [hValid]
  rfl

end Load

section Storable
variable (hBox : box.Documented) (hAscii : box.DecodesAscii)
include hBox hAscii

theorem decrypt_of_storable {s : Text} (hStorable : Storable box s) (hSome : s ≠ []) :
    decryptStrOrOriginal box (encryptStrOrOriginal box s passwordEncVersion encryptMaxLen)
      passwordEncVersion = (s, true, false) :=
  decryptStr_encryptStr hBox hAscii hSome hStorable.2 hStorable.1

/-- A string that is too long is stored as none, and an encrypted one loses its encryption. -/
theorem storable_of_decrypt {s : Text}
    (hSame : (decryptStrOrOriginal box (encryptStrOrOriginal box s passwordEncVersion encryptMaxLen)
      passwordEncVersion).1 = s) : Storable box s := by
  cases hPlain : (decryptStrOrOriginal box s passwordEncVersion).2.1 with
  | true =>
      have hLeft : encryptStrOrOriginal box s passwordEncVersion encryptMaxLen = s := by
        unfold encryptStrOrOriginal
        rw [if_pos hPlain]
      rw [hLeft] at hSame
      cases hDecrypt : decryptStrOrOriginal box s passwordEncVersion with
      | mk text rest =>
          obtain ⟨success, store⟩ := rest
          rw [hDecrypt] at hPlain hSame
          obtain rfl : success = true := hPlain
          exact absurd hSame (decryptStr_ne hBox hAscii hDecrypt)
  | false =>
      refine ⟨?_, hPlain⟩
      by_contra hLong
      have hGone : encryptStrOrOriginal box s passwordEncVersion encryptMaxLen = [] := by
        unfold encryptStrOrOriginal
        rw [hPlain, if_neg Bool.false_ne_true, if_pos (Nat.not_le.mp hLong)]
      rw [hGone] at hSame
      obtain rfl : [] = s := hSame
      exact hLong (Nat.zero_le _)

theorem decrypt_password {config : Config} (hStorable : Storable box config.password) :
    (decryptStrOrOriginal box (config.store box).password passwordEncVersion).1 = config.password ∧
      (decryptStrOrOriginal box (config.store box).password passwordEncVersion).2.2 = false := by
  change (decryptStrOrOriginal box
    (encryptStrOrOriginal box config.password passwordEncVersion encryptMaxLen) passwordEncVersion).1 = _ ∧
    (decryptStrOrOriginal box
    (encryptStrOrOriginal box config.password passwordEncVersion encryptMaxLen) passwordEncVersion).2.2 = _
  by_cases hEmpty : config.password = []
  · rw [hEmpty]
    exact ⟨rfl, rfl⟩
  · rw [decrypt_of_storable hBox hAscii hStorable hEmpty]
    exact ⟨rfl, rfl⟩

/-- A configuration with an id survives a restart exactly if its id and its password are short
enough and not encrypted ones themselves. -/
theorem credentials_survive_iff (config : Config) (hId : config.id ≠ []) :
    (∀ first second, Survives box config first second) ↔
      Storable box config.id ∧ Storable box config.password := by
  constructor
  · intro hAll
    obtain ⟨hLoadedId, hLoadedPassword, -⟩ := hAll [] []
    refine ⟨storable_of_decrypt hBox hAscii ?_, storable_of_decrypt hBox hAscii ?_⟩
    · cases hEncrypted : (decryptStrOrOriginal box (config.store box).encId passwordEncVersion).2.1 with
      | true =>
          have hValid : validId box (config.store box) =
              some ((decryptStrOrOriginal box (config.store box).encId passwordEncVersion).1,
                (decryptStrOrOriginal box (config.store box).encId passwordEncVersion).2.2) := by
            simp only [validId, hEncrypted, if_true]
          rw [load_id_of_some hValid] at hLoadedId
          exact hLoadedId
      | false =>
          -- In the file there is no plain id to fall back on.
          have hNone : validId box (config.store box) = none := by
            have hNoId : (config.store box).id = [] := rfl
            simp only [validId, hEncrypted, hNoId, List.isEmpty_nil, Bool.not_true, Bool.false_and,
              Bool.false_eq_true, if_false]
          rw [load_id_of_none hNone] at hLoadedId
          exact absurd hLoadedId.symm hId
    · rw [load_password] at hLoadedPassword
      exact hLoadedPassword
  · rintro ⟨hStorableId, hStorablePassword⟩ first second
    obtain ⟨hPassword, hSettled⟩ := decrypt_password hBox hAscii hStorablePassword
    have hValid : validId box (config.store box) = some (config.id, false) := by
      have hDecrypt : decryptStrOrOriginal box (config.store box).encId passwordEncVersion =
          (config.id, true, false) := decrypt_of_storable hBox hAscii hStorableId hId
      simp only [validId, hDecrypt, if_true]
    have hLoad : ∀ generated, load box generated (config.store box) =
        ({ config.store box with password := config.password, id := config.id }, none) := by
      intro generated
      rw [load_of_validId hValid, hPassword, hSettled]
      rfl
    have hReload : reload box first (config.store box) = config.store box := by
      unfold reload
      rw [hLoad]
      rfl
    refine ⟨?_, ?_, ?_, ?_, ?_, ?_, ?_⟩
    · rw [hLoad]
    · rw [hLoad]
    · rw [hLoad]
      rfl
    · rw [hLoad]
      rfl
    · rw [hLoad]
      rfl
    · rw [hLoad]
      rfl
    · rw [hReload, hLoad]

end Storable

/-- A configuration with an id and a password, and nothing else. -/
def withPassword (id password : Text) : Config where
  id := id
  encId := []
  password := password
  salt := []
  keyPair := ([], [])
  keyConfirmed := false
  keysConfirmed := .empty

theorem short_password_survives : Survives .clear (withPassword ['1'] ['p']) [some ['2']] [none] :=
  (credentials_survive_iff SecretBox.clear_documented SecretBox.clear_decodesAscii
    (withPassword ['1'] ['p']) (List.cons_ne_nil _ _)).mpr
    ⟨⟨by decide, by decide⟩, ⟨by decide, by decide⟩⟩ _ _

/-- A password of 129 characters is gone. -/
theorem long_password_is_lost :
    ¬ ∀ first second, Survives .clear (withPassword ['1'] (List.replicate 129 'a')) first second := by
  intro hAll
  have hPassword := (hAll [] []).password
  rw [load_password] at hPassword
  exact absurd (congrArg List.length hPassword) (by decide +kernel)

end HibtDesk.Credentials
