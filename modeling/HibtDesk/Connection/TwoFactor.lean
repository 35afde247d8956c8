import HibtDesk.Common.PasswordSecurity
import HibtDesk.Connection.Authorization

/-! The second factor as the option `2fa` keeps it, and what a connection that
starts with that option asks for. Every error on the way from the option to the
code generator ends in the same value as an option that is not set. -/
namespace HibtDesk

/-- `TOTPInfo`. -/
structure TotpInfo where
  name : String
  secret : Bytes
  digits : UInt64
  createdAt : Int64
  deriving DecidableEq

/-- `serde_json` for `TOTPInfo` and `TOTP::new` of `totp_rs`, with SHA-1, one
step of skew and steps of thirty seconds. -/
structure TwoFactorDeps where
  box : SecretBox
  toJson : TotpInfo → String
  fromJson : String → Option TotpInfo
  newTotp : Nat → Bytes → String → String → Option Totp

/-- `TOTP::new` takes six to eight digits, 128 bits of secret and more, and
names without a colon. -/
structure TwoFactorDeps.Documented (deps : TwoFactorDeps) : Prop where
  box : deps.box.Documented
  newTotp_iff : ∀ digits secret issuer account totp,
    deps.newTotp digits secret issuer account = some totp ↔
      (6 ≤ digits ∧ digits ≤ 8 ∧ 16 ≤ secret.length ∧ ':' ∉ issuer.toList ∧ ':' ∉ account.toList) ∧
        totp = ⟨digits, secret, issuer, account⟩

namespace TotpInfo
variable (deps : TwoFactorDeps)

def newTotp (info : TotpInfo) : Option Totp :=
  deps.newTotp info.digits.toNat info.secret ("RustDesk" ++ " " ++ "Connection") info.name

/-- The record that is written to the option. -/
def stored (info : TotpInfo) : TotpInfo :=
  { info with secret := encryptVecOrOriginal deps.box info.secret "00" 1024 }

def intoString (info : TotpInfo) : String := deps.toJson (info.stored deps)

/-- `TOTPInfo::from_str`, all errors alike. -/
def fromStr (data : String) : Option Totp :=
  (deps.fromJson data).bind fun info =>
    let (secret, success, _) := decryptVecOrOriginal deps.box info.secret "00"
    if success then newTotp deps { info with secret := secret } else none

/-- What `TOTP::new` asks of the record. -/
def Acceptable (info : TotpInfo) : Prop :=
  6 ≤ info.digits.toNat ∧ info.digits.toNat ≤ 8 ∧ 16 ≤ info.secret.length ∧ ':' ∉ info.name.toList

end TotpInfo

/-- `get_2fa`; without an argument it reads the option. -/
def get2fa (deps : TwoFactorDeps) (config : Config) (raw : Option String) : Option Totp :=
  TotpInfo.fromStr deps (raw.getD (config.option "2fa"))

/-- The value is a record whose secret decrypts on this machine and which
`TOTP::new` takes. -/
def Decodes (deps : TwoFactorDeps) (raw : String) : Prop :=
  ∃ info secret store, deps.fromJson raw = some info ∧
    decryptVecOrOriginal deps.box info.secret "00" = (secret, true, store) ∧
    TotpInfo.Acceptable { info with secret := secret }

section Decoding
variable {deps : TwoFactorDeps} (hDeps : deps.Documented)
include hDeps

theorem newTotp_eq_some_iff (info : TotpInfo) (totp : Totp) :
    info.newTotp deps = some totp ↔ info.Acceptable ∧
      totp = ⟨info.digits.toNat, info.secret, "RustDesk Connection", info.name⟩ := by
  have hIssuer : "RustDesk" ++ " " ++ "Connection" = "RustDesk Connection" := by decide +kernel
  have hColon : ':' ∉ "RustDesk Connection".toList := by decide +kernel
  unfold TotpInfo.newTotp TotpInfo.Acceptable
  rw [hDeps.newTotp_iff, hIssuer]
  simp only [hColon, not_false_eq_true, true_and]

/-- `from_str` in one piece: the record is parsed, decrypted and taken. -/
theorem fromStr_eq_some_iff (raw : String) (totp : Totp) :
    TotpInfo.fromStr deps raw = some totp ↔ ∃ info secret store, deps.fromJson raw = some info ∧
      decryptVecOrOriginal deps.box info.secret "00" = (secret, true, store) ∧
      TotpInfo.Acceptable { info with secret := secret } ∧
      totp = ⟨info.digits.toNat, secret, "RustDesk Connection", info.name⟩ := by
  unfold TotpInfo.fromStr
  rw [Option.bind_eq_some_iff]
  constructor
  · rintro ⟨info, hInfo, hTotp⟩
    dsimp only at hTotp
    split_ifs at hTotp with hSuccess
    obtain ⟨hAcceptable, hEq⟩ := (newTotp_eq_some_iff hDeps _ _).mp hTotp
    exact ⟨info, _, _, hInfo, Prod.ext rfl (Prod.ext hSuccess rfl), hAcceptable, hEq⟩
  · rintro ⟨info, secret, store, hInfo, hDecrypt, hAcceptable, hEq⟩
    refine ⟨info, hInfo, ?_⟩
    rw [hDecrypt]
    exact (newTotp_eq_some_iff hDeps _ _).mpr ⟨hAcceptable, hEq⟩

theorem get2fa_eq_none_iff (config : Config) :
    get2fa deps config none = none ↔ ¬ Decodes deps (config.option "2fa") := by
  rw [Option.eq_none_iff_forall_ne_some]
  unfold get2fa Decodes
  rw [Option.getD_none]
  constructor
  · rintro hNone ⟨info, secret, store, hInfo, hDecrypt, hAcceptable⟩
    exact hNone _ ((fromStr_eq_some_iff hDeps _ _).mpr
      ⟨info, secret, store, hInfo, hDecrypt, hAcceptable, rfl⟩)
  · intro hNot totp hSome
    obtain ⟨info, secret, store, hInfo, hDecrypt, hAcceptable, -⟩ :=
      (fromStr_eq_some_iff hDeps _ _).mp hSome
    exact hNot ⟨info, secret, store, hInfo, hDecrypt, hAcceptable⟩

/-- A record comes back with its secret exactly if the secret is not itself an
encrypted one and `TOTP::new` takes the record. -/
theorem get2fa_intoString_iff (config : Config) {info : TotpInfo}
    (hLength : info.secret.length ≤ 1024)
    (hJson : deps.fromJson (info.intoString deps) = some (info.stored deps)) :
    (∃ totp, get2fa deps config (some (info.intoString deps)) = some totp ∧
      totp.secret = info.secret ∧ totp.digits = info.digits.toNat) ↔
    (decryptVecOrOriginal deps.box info.secret "00").2.1 = false ∧ info.Acceptable := by
  have hRound := decryptVecOrOriginal_encrypt_iff hDeps.box hLength
  unfold get2fa
  rw [Option.getD_some]
  constructor
  · rintro ⟨totp, hTotp, hSecret, -⟩
    obtain ⟨found, secret, store, hFound, hDecrypt, hAcceptable, rfl⟩ :=
      (fromStr_eq_some_iff hDeps _ _).mp hTotp
    obtain rfl := Option.some.inj (hJson.symm.trans hFound)
    obtain rfl : secret = info.secret := hSecret
    exact ⟨(hRound.mp ⟨store, hDecrypt⟩).2, hAcceptable⟩
  · rintro ⟨hPlain, hAcceptable⟩
    have hSome : info.secret ≠ [] := by
      intro hNil
      have hLong := hAcceptable.2.2.1
      simp [hNil] at hLong
    obtain ⟨store, hDecrypt⟩ := hRound.mpr ⟨hSome, hPlain⟩
    exact ⟨_, (fromStr_eq_some_iff hDeps _ _).mpr
      ⟨_, info.secret, store, hJson, hDecrypt, hAcceptable, rfl⟩, rfl, rfl⟩

end Decoding

namespace Loop

/-- Something besides a password was presented: a click in the connection
manager, a switch of sides, a correct code, a trusted device or a session that
has passed the second factor. -/
def MoreThanPassword (fixed : Fixed) (start : Loop) (events : List Event) : Prop :=
  Trace.Once (step fixed) ManagerAuthorized start events ∨
    Trace.Once (step fixed) (SwitchAccepted fixed) start events ∨
    Trace.Once (step fixed) (CodeReceived start.state.conn.require2fa) start events ∨
    Trace.Once (step fixed) DeviceTrusted start events ∨
    Trace.Once (step fixed) SecondFactorPassed start events

/-- No connection that starts while the option has this value is authorized by
its password alone. -/
def FailsClosed (deps : TwoFactorDeps) (raw : String) : Prop :=
  ∀ (fixed : Fixed) (world : World) (server : Option Server) (now : Nat) (id : Int)
    (ip salt challenge : String) (controlPermissions : Option Nat) (events : List Event),
    world.config.option "2fa" = raw →
    let start := Loop.start fixed world server now id ip salt challenge
      (get2fa deps world.config none) controlPermissions
    (start.run fixed events).state.conn.authorized = true → MoreThanPassword fixed start events

/-- With a second factor on record the password is not enough. -/
theorem moreThanPassword_of_required {fixed : Fixed} {start : Loop} {events : List Event}
    (hUnauthorized : start.state.conn.authorized = false)
    (hFresh : start.state.conn.fromSwitch = false) (hClosed : start.state.conn.closed = false)
    (hRequired : start.state.conn.require2fa.isSome = true)
    (hAuthorized : (start.run fixed events).state.conn.authorized = true) :
    MoreThanPassword fixed start events := by
  have hCredentials : Credentials fixed start events (start.run fixed events) :=
    credentials_run hUnauthorized hFresh hClosed
  rcases hCredentials.justified hAuthorized with (hManager | hSwitch | ⟨-, hFactor⟩) | hCode
  · exact Or.inl hManager
  · exact Or.inr (Or.inl hSwitch)
  · exact Or.inr (Or.inr (hFactor hRequired))
  · exact Or.inr (Or.inr (Or.inl (hCode.mono _ fun _ _ h => h.2)))

/-- A password is enough for a connection that starts without a second factor. -/
theorem password_alone_authorizes (raw : String) :
    let deps : Deps := { (default : Deps) with sha256 := fun _ => [1] }
    let fixed : Fixed := { (default : Fixed) with deps := deps }
    let config : Config := { (default : Config) with
      option := fun key => if key = "2fa" then raw else ""
      permanentPassword := "password" }
    let world : World := { (default : World) with config := config }
    let start := Loop.start fixed world none 0 1 "10.0.0.1" "salt" "challenge" none none
    let events : List Event := [(default, .peer (.loginRequest { password := [1] }))]
    (start.run fixed events).state.conn.authorized = true ∧ ¬ MoreThanPassword fixed start events := by
  intro deps fixed config world start events
  have hDevice : State.isTrustedDevice default config { password := [1] } = false := by rfl
  have hSession : ¬ (start.stored default { password := [1] }).SessionPassed default := by
    rintro ⟨session, hRecent, -⟩
    have hNone : (none : Option Session) = some session := hRecent
    cases hNone
  refine ⟨by rfl, ?_⟩
  unfold MoreThanPassword
  simp only [events, Trace.once_singleton]
  rintro (⟨-, hEvent⟩ | ⟨-, -, _, _, hEvent, -⟩ | ⟨-, _, _, _, -, hEvent, -⟩ |
    ⟨-, lr, hEvent, hTrusted⟩ | ⟨-, lr, hEvent, hPassed⟩)
  · cases hEvent
  · cases hEvent
  · cases hEvent
  · rcases hEvent with hEvent | ⟨_, hEvent⟩
    · cases hEvent
      exact absurd (hDevice.symm.trans hTrusted) (by decide)
    · cases hEvent
  · cases hEvent
    exact hSession hPassed

section Statement
variable (deps : TwoFactorDeps) (hDeps : deps.Documented)
include hDeps

/-- A record survives the way through the option exactly if its secret is not
itself an encrypted one and the record is acceptable, and an option fails closed
exactly if it decodes. -/
theorem second_factor_required_iff_decodes :
    (∀ (config : Config) (info : TotpInfo), info.secret.length ≤ 1024 →
      deps.fromJson (info.intoString deps) = some (info.stored deps) →
      ((∃ totp, get2fa deps config (some (info.intoString deps)) = some totp ∧
        totp.secret = info.secret ∧ totp.digits = info.digits.toNat) ↔
      (decryptVecOrOriginal deps.box info.secret "00").2.1 = false ∧ info.Acceptable)) ∧
    ∀ raw : String, FailsClosed deps raw ↔ Decodes deps raw := by
  refine ⟨fun config info hLength hJson => get2fa_intoString_iff hDeps config hLength hJson, ?_⟩
  intro raw
  constructor
  · intro hClosed
    by_contra hDecodes
    let config : Config := { (default : Config) with
      option := fun key => if key = "2fa" then raw else ""
      permanentPassword := "password" }
    have hNone : get2fa deps config none = none := (get2fa_eq_none_iff hDeps config).mpr hDecodes
    obtain ⟨hAuthorized, hAlone⟩ := password_alone_authorizes raw
    refine hAlone ?_
    have hMore := hClosed { (default : Fixed) with deps := { (default : Deps) with sha256 := fun _ => [1] } }
      { (default : World) with config := config } none 0 1 "10.0.0.1" "salt" "challenge" none
      [(default, .peer (.loginRequest { password := [1] }))] rfl
    rw [hNone] at hMore
    exact hMore hAuthorized
  · rintro hDecodes fixed world server now id ip salt challenge controlPermissions events rfl
    intro start hAuthorized
    refine moreThanPassword_of_required rfl rfl rfl ?_ hAuthorized
    by_contra hNot
    have hNone : get2fa deps world.config none = none := Option.not_isSome_iff_eq_none.mp hNot
    exact (get2fa_eq_none_iff hDeps world.config).mp hNone hDecodes

end Statement

/-- The record of a fresh second factor. -/
def sampleInfo : TotpInfo :=
  { name := "123456789", secret := [1, 2, 3, 4, 5, 6, 7, 8, 9, 10, 11, 12, 13, 14, 15, 16]
    digits := 6, createdAt := 0 }

/-- An ideal box in the clear: the tag is sixteen zeros. The base64 of the
sample's box is the real one; the first character of any other is no base64. -/
def sampleBox : SecretBox where
  getUuid := []
  sealBox data _ _ := List.replicate 16 0 ++ data
  openBox sealed _ _ :=
    if sealed.take 16 = List.replicate 16 0 then some (sealed.drop 16) else none
  base64Encode data :=
    if data = List.replicate 16 0 ++ sampleInfo.secret then
      utf8 "AAAAAAAAAAAAAAAAAAAAAAECAwQFBgcICQoLDA0ODxA="
    else 61 :: data
  base64Decode text :=
    if text = utf8 "AAAAAAAAAAAAAAAAAAAAAAECAwQFBgcICQoLDA0ODxA=" then
      some (List.replicate 16 0 ++ sampleInfo.secret)
    else match text with
      | 61 :: data => some data
      | _ => none

def sampleJson : String :=
  "\x7b\"name\":\"123456789\",\"secret\":[48,48,65,65,65,65,65,65,65,65,65,65,65,65" ++
    ",65,65,65,65,65,65,65,65,65,65,69,67,65,119,81,70,66,103,99,73,67,81,111,76,68,6" ++
    "5,48,79,68,120,65,61],\"digits\":6,\"created_at\":0\x7d"

def sampleDeps : TwoFactorDeps where
  box := sampleBox
  toJson _ := sampleJson
  fromJson text :=
    if text = sampleJson then
      some { sampleInfo with secret := utf8 "00AAAAAAAAAAAAAAAAAAAAAAECAwQFBgcICQoLDA0ODxA=" }
    else none
  newTotp digits secret issuer account :=
    if 6 ≤ digits ∧ digits ≤ 8 ∧ 16 ≤ secret.length ∧ ':' ∉ issuer.toList ∧ ':' ∉ account.toList
    then some ⟨digits, secret, issuer, account⟩ else none

theorem sampleBox_documented : sampleBox.Documented := by
  have hText : (utf8 "AAAAAAAAAAAAAAAAAAAAAAECAwQFBgcICQoLDA0ODxA=").head? ≠ some 61 ∧
      (utf8 "AAAAAAAAAAAAAAAAAAAAAAECAwQFBgcICQoLDA0ODxA=").length = 44 := by decide +kernel
  unfold sampleBox
  constructor
  case open_iff =>
    intro data _ _ sealed
    dsimp only
    constructor
    · intro h
      split_ifs at h with hTag
      rw [← hTag, ← Option.some.inj h, List.take_append_drop]
    · rintro rfl
      simp
  case seal_length =>
    intro data _ _
    simp
  case decode_encode =>
    intro data
    dsimp only
    by_cases hData : data = List.replicate 16 0 ++ sampleInfo.secret
    · rw [if_pos hData, if_pos rfl, hData]
    · have hOther : (61 :: data) ≠ utf8 "AAAAAAAAAAAAAAAAAAAAAAECAwQFBgcICQoLDA0ODxA=" := by
        intro hEq
        exact hText.1 (by rw [← hEq]; rfl)
      simp only [if_neg hData, if_neg hOther]
  case decode_length =>
    intro text data h
    dsimp only at h
    split_ifs at h with hSample
    · obtain rfl := Option.some.inj h
      rw [hSample, hText.2]
      decide
    · split at h
      · obtain rfl := Option.some.inj h
        simp
      · cases h

theorem sampleDeps_documented : sampleDeps.Documented := by
  refine ⟨sampleBox_documented, ?_⟩
  intro digits secret issuer account totp
  unfold sampleDeps
  dsimp only
  split_ifs with hTaken
  · simp [hTaken, eq_comm]
  · simp [hTaken]

/-- The sample comes back from its option, and that option fails closed. -/
theorem second_factor_required_by_sample :
    (∃ totp, get2fa sampleDeps default (some (sampleInfo.intoString sampleDeps)) = some totp ∧
      totp.secret = sampleInfo.secret ∧ totp.digits = 6) ∧ FailsClosed sampleDeps sampleJson := by
  obtain ⟨hRound, hClosed⟩ := second_factor_required_iff_decodes sampleDeps sampleDeps_documented
  have hAcceptable : sampleInfo.Acceptable := by
    unfold TotpInfo.Acceptable
    decide +kernel
  have hJson : sampleDeps.fromJson (sampleInfo.intoString sampleDeps) =
      some (sampleInfo.stored sampleDeps) := by decide +kernel
  refine ⟨(hRound default sampleInfo (by decide) hJson).mpr ⟨by decide +kernel, hAcceptable⟩,
    (hClosed sampleJson).mpr ?_⟩
  exact ⟨_, sampleInfo.secret, false, hJson, by decide +kernel, hAcceptable⟩

/-- An option that is no record at all is as good as none: with it set, a
password is enough. -/
theorem unreadable_option_fails_open :
    ¬ ∀ deps : TwoFactorDeps, deps.Documented →
      (∀ (config : Config) (info : TotpInfo), info.secret.length ≤ 1024 →
        deps.fromJson (info.intoString deps) = some (info.stored deps) →
        ∃ totp, get2fa deps config (some (info.intoString deps)) = some totp ∧
          totp.secret = info.secret ∧ totp.digits = info.digits.toNat) ∧
      ∀ raw : String, raw ≠ "" → FailsClosed deps raw := by
  intro h
  have hClosed := (h sampleDeps sampleDeps_documented).2 "unreadable" (by decide)
  obtain ⟨hAuthorized, hAlone⟩ := password_alone_authorizes "unreadable"
  exact hAlone (hClosed _ _ none 0 1 "10.0.0.1" "salt" "challenge" none _ rfl hAuthorized)

end Loop

end HibtDesk
