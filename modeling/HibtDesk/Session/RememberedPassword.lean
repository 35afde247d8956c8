import HibtDesk.Session.ClientLogin

/-! What a client keeps of the passwords it logs in with. -/
namespace HibtDesk.Session.ClientLogin

variable {sha256 : Bytes → Bytes} {salt : Bytes} {allowed : Bytes → Prop} {lc : LoginConfigHandler}

namespace LoginConfigHandler

def next (sha256 : Bytes → Bytes) (lc : LoginConfigHandler) (event : Event) : LoginConfigHandler :=
  (lc.step sha256 event).1

end LoginConfigHandler

open LoginConfigHandler

/-- The event brings no hash of a password that is not allowed, other than the passwords of
shared address books and custom clients, and passwords that are not to be remembered. The peer
does not change its salt. -/
def Event.Respects (sha256 : Bytes → Bytes) (salt : Bytes) (allowed : Bytes → Prop) : Event → Prop
  | .hash readings told =>
      told.salt = salt ∧
        (readings.passwordPreset ≠ [] → allowed (sha256 (readings.passwordPreset ++ salt))) ∧
          ∀ entry ∈ readings.ab.abEntries, ∀ peer ∈ entry.peers, ∀ found, peer.hash = some found →
            allowed found
  | .loginFromUi _ _ password remember =>
      password ≠ [] → remember = true → allowed (sha256 (password ++ salt))
  | .fileWritten config => config.password = [] ∨ allowed config.password
  | .loginError _ | .peerInfo => True

/-- A token of another session is for a password that is allowed or was shared with it. -/
def ConnToken.Respects (sha256 : Bytes → Bytes) (salt : Bytes) (allowed : Bytes → Prop)
    (token : ConnToken) : Prop :=
  (allowed token.password ∨
      ∃ shared, token.passwordSource = .sharedAb shared ∧ token.password = sha256 (shared ++ salt)) ∧
    ∀ hash, token.passwordSource = .personalAb hash → allowed hash

/-- The password in use is allowed, or is not remembered, or is known to be shared. -/
structure Sorted (sha256 : Bytes → Bytes) (salt : Bytes) (allowed : Bytes → Prop)
    (lc : LoginConfigHandler) : Prop where
  stored : lc.stored.password = [] ∨ allowed lc.stored.password
  config : lc.config.password = [] ∨ allowed lc.config.password
  personal : ∀ hash, lc.passwordSource = .personalAb hash → allowed hash
  password : lc.password = [] ∨ allowed lc.password ∨ lc.remember = false ∨
    lc.switchUuid = none ∧ ∃ shared, lc.passwordSource = .sharedAb shared ∧
      lc.password = sha256 (shared ++ salt)

/-- From the first message of the peer on. -/
structure Underway (sha256 : Bytes → Bytes) (salt : Bytes) (allowed : Bytes → Prop)
    (lc : LoginConfigHandler) : Prop extends Sorted sha256 salt allowed lc where
  salt_eq : lc.hash.salt = salt
  switched : lc.switchUuid = none

section Choice
variable {readings : Readings}

theorem Underway.presetPassword (hUnderway : Underway sha256 salt allowed lc)
    (hPreset : readings.passwordPreset ≠ [] → allowed (sha256 (readings.passwordPreset ++ salt))) :
    Underway sha256 salt allowed (lc.presetPassword sha256 readings) := by
  unfold LoginConfigHandler.presetPassword
  split
  · rename_i hChosen
    simp only [Bool.and_eq_true, Bool.not_eq_true', List.isEmpty_eq_false_iff] at hChosen
    refine ⟨⟨hUnderway.stored, hUnderway.config, by simp, ?_⟩, hUnderway.salt_eq, hUnderway.switched⟩
    rw [hUnderway.salt_eq]
    exact Or.inr (Or.inl (hPreset hChosen.2))
  · exact hUnderway

theorem Underway.sharedAbPassword (hUnderway : Underway sha256 salt allowed lc) :
    Underway sha256 salt allowed (lc.sharedAbPassword sha256) := by
  unfold LoginConfigHandler.sharedAbPassword
  split
  · rename_i shared _
    split
    · exact ⟨⟨hUnderway.stored, hUnderway.config, hUnderway.personal, hUnderway.password⟩,
        hUnderway.salt_eq, hUnderway.switched⟩
    · refine ⟨⟨hUnderway.stored, hUnderway.config, by simp, ?_⟩, hUnderway.salt_eq, hUnderway.switched⟩
      exact Or.inr (Or.inr (Or.inr ⟨hUnderway.switched, shared, rfl, by rw [hUnderway.salt_eq]⟩))
  · exact hUnderway

theorem Underway.configPassword (hUnderway : Underway sha256 salt allowed lc) :
    Underway sha256 salt allowed lc.configPassword := by
  unfold LoginConfigHandler.configPassword
  split
  · refine ⟨⟨hUnderway.stored, hUnderway.config, by simp, ?_⟩, hUnderway.salt_eq, hUnderway.switched⟩
    rcases hUnderway.config with hEmpty | hAllowed
    · exact Or.inl hEmpty
    · exact Or.inr (Or.inl hAllowed)
  · exact hUnderway

theorem mem_of_personalAb {hash : Bytes}
    (hFound : lc.tryGetPasswordFromPersonalAb readings = some hash) :
    ∃ entry ∈ readings.ab.abEntries, ∃ peer ∈ entry.peers, peer.hash = some hash := by
  unfold tryGetPasswordFromPersonalAb at hFound
  split at hFound
  · cases hFound
  · simp only [Option.bind_eq_bind, Option.bind_eq_some_iff] at hFound
    obtain ⟨entry, hEntry, peer, hPeer, found, hHash, hSame⟩ := hFound
    split at hSame
    · cases hSame
    · cases hSame
      exact ⟨entry, List.mem_of_find?_eq_some hEntry, peer, List.mem_of_find?_eq_some hPeer, hHash⟩

theorem Underway.personalAbPassword (hUnderway : Underway sha256 salt allowed lc)
    (hAb : ∀ entry ∈ readings.ab.abEntries, ∀ peer ∈ entry.peers, ∀ found, peer.hash = some found →
      allowed found) :
    Underway sha256 salt allowed (lc.personalAbPassword readings) := by
  unfold LoginConfigHandler.personalAbPassword
  split
  · split
    · rename_i hash hFound
      obtain ⟨entry, hEntry, peer, hPeer, hHash⟩ := mem_of_personalAb hFound
      have hAllowed := hAb entry hEntry peer hPeer hash hHash
      refine ⟨⟨hUnderway.stored, hUnderway.config, ?_, Or.inr (Or.inl hAllowed)⟩, hUnderway.salt_eq,
        hUnderway.switched⟩
      rintro _ ⟨⟩
      exact hAllowed
    · exact hUnderway
  · exact hUnderway

theorem Underway.defaultPassword (hUnderway : Underway sha256 salt allowed lc) :
    Underway sha256 salt allowed (lc.defaultPassword sha256 readings) := by
  unfold LoginConfigHandler.defaultPassword
  split
  · refine ⟨⟨hUnderway.stored, hUnderway.config, by simp, ?_⟩, hUnderway.salt_eq, hUnderway.switched⟩
    exact Or.inr (Or.inr (Or.inr ⟨hUnderway.switched, _, rfl, by rw [hUnderway.salt_eq]⟩))
  · exact hUnderway

end Choice

/-- The first message, and every other of its kind, leads to a password that is sorted. -/
theorem Sorted.handleHash (hSorted : Sorted sha256 salt allowed lc) {readings : Readings} {hash : Hash}
    (hEvent : (Event.hash readings hash).Respects sha256 salt allowed) :
    Underway sha256 salt allowed (lc.handleHash sha256 readings hash).1 := by
  obtain ⟨hSalt, hPreset, hAb⟩ := hEvent
  have hStart : ∀ source, (lc.switchUuid = none → source = lc.passwordSource) →
      (∀ found, source = .personalAb found → allowed found) →
      Underway sha256 salt allowed
        { lc with hash := hash, switchUuid := none, passwordSource := source } := by
    intro source hSource hPersonal
    refine ⟨⟨hSorted.stored, hSorted.config, hPersonal, ?_⟩, hSalt, rfl⟩
    rcases hSorted.password with hEmpty | hAllowed | hForgotten | ⟨hNone, shared, hShared, hHash⟩
    · exact Or.inl hEmpty
    · exact Or.inr (Or.inl hAllowed)
    · exact Or.inr (Or.inr (Or.inl hForgotten))
    · exact Or.inr (Or.inr (Or.inr ⟨rfl, shared, (hSource hNone).trans hShared, hHash⟩))
  have hFrom := hStart lc.passwordSource (fun _ => rfl) hSorted.personal
  have hChosen : Underway sha256 salt allowed
      (({ lc with hash := hash, switchUuid := none }).choosePassword sha256 readings) :=
    (((hFrom.presetPassword hPreset).sharedAbPassword.configPassword).personalAbPassword
      hAb).defaultPassword
  unfold LoginConfigHandler.handleHash
  dsimp only
  cases hSwitch : lc.switchUuid with
  | none => exact hChosen
  | some uuid =>
      cases uuid with
      | none => exact hChosen
      | some uuid =>
          exact hStart .undefined (fun hNone => by rw [hSwitch] at hNone; cases hNone) (by simp)

theorem Underway.loginFromUi (hUnderway : Underway sha256 salt allowed lc)
    {osUsername osPassword password : Bytes} {remember : Bool}
    (hEvent : (Event.loginFromUi osUsername osPassword password remember).Respects sha256 salt allowed) :
    Underway sha256 salt allowed
      (lc.handleLoginFromUi sha256 osUsername osPassword password remember).1 := by
  unfold handleLoginFromUi
  dsimp only
  split
  · exact hUnderway.configPassword
  · rename_i hTyped
    have hNamed : password ≠ [] := fun hEmpty => hTyped (List.isEmpty_iff.mpr hEmpty)
    refine ⟨⟨hUnderway.stored, hUnderway.config, by simp, ?_⟩, hUnderway.salt_eq, hUnderway.switched⟩
    rw [hUnderway.salt_eq]
    cases remember with
    | true => exact Or.inr (Or.inl (hEvent hNamed rfl))
    | false => exact Or.inr (Or.inr (Or.inl rfl))

theorem Underway.loginError (hUnderway : Underway sha256 salt allowed lc) (error : LoginError) :
    Underway sha256 salt allowed (lc.handleLoginError error).1 := by
  cases error with
  | passwordEmpty | passwordWrong =>
      exact ⟨⟨hUnderway.stored, hUnderway.config, hUnderway.personal, Or.inl rfl⟩, hUnderway.salt_eq,
        hUnderway.switched⟩
  | wrong2fa | require2fa =>
      unfold handleLoginError
      dsimp only
      split
      · exact ⟨⟨hUnderway.stored, hUnderway.stored, hUnderway.personal, hUnderway.password⟩,
          hUnderway.salt_eq, hUnderway.switched⟩
      · exact hUnderway
  | other => exact hUnderway

/-- A password in use that is written to the file is allowed. -/
theorem Underway.rememberPassword (hUnderway : Underway sha256 salt allowed lc) :
    (lc.rememberPassword sha256).password = [] ∨ allowed (lc.rememberPassword sha256).password := by
  have hShared : lc.remember = true → lc.password ≠ [] →
      lc.passwordSource.isSharedAb sha256 lc.password lc.hash = false → allowed lc.password := by
    intro hRemember hPassword hNot
    rcases hUnderway.password with hEmpty | hAllowed | hForgotten | ⟨-, shared, hSource, hHash⟩
    · exact absurd hEmpty hPassword
    · exact hAllowed
    · rw [hRemember] at hForgotten
      cases hForgotten
    · rw [hSource, PasswordSource.isSharedAb, if_neg (fun hNil => hPassword (List.isEmpty_iff.mp hNil)),
        hUnderway.salt_eq, ← hHash, beq_self_eq_true] at hNot
      cases hNot
  have hPersonal : lc.passwordSource.isPersonalAb lc.password = true → allowed lc.password := by
    intro hIs
    unfold PasswordSource.isPersonalAb at hIs
    split at hIs
    · cases hIs
    · split at hIs
      · rename_i hash hSource
        rw [← beq_iff_eq.mp hIs]
        exact hUnderway.personal hash hSource
      · cases hIs
  unfold LoginConfigHandler.rememberPassword
  split
  · rename_i hRemember
    split
    · rename_i hNew
      simp only [Bool.and_eq_true, Bool.not_eq_true', List.isEmpty_eq_false_iff] at hNew
      exact Or.inr (hShared hRemember hNew.1.1 hNew.2)
    · exact hUnderway.stored
  · split
    · rename_i hIs
      exact Or.inr (hPersonal hIs)
    · split
      · exact Or.inl rfl
      · exact hUnderway.stored

theorem pushes_nothing_handleHash (sha256 : Bytes → Bytes) (lc : LoginConfigHandler)
    (readings : Readings) (hash : Hash) (pushed : Bytes) :
    .syncPeerHashPasswordToPersonalAb pushed ∉ (lc.handleHash sha256 readings hash).2 := by
  have hLogin : ∀ lc : LoginConfigHandler,
      .syncPeerHashPasswordToPersonalAb pushed ∉ lc.loginWithPassword sha256 := by
    intro lc
    unfold loginWithPassword
    split
    · simp
    · dsimp only
      split <;> simp
  unfold handleHash
  dsimp only
  split
  · simp
  · exact hLogin _
  · exact hLogin _

theorem Underway.step (hUnderway : Underway sha256 salt allowed lc) {event : Event}
    (hEvent : event.Respects sha256 salt allowed) :
    Underway sha256 salt allowed (lc.next sha256 event) ∧
      ∀ pushed, .syncPeerHashPasswordToPersonalAb pushed ∈ (lc.step sha256 event).2 → allowed pushed := by
  cases event with
  | hash readings hash =>
      exact ⟨hUnderway.toSorted.handleHash hEvent, fun pushed hPushed =>
        absurd hPushed (pushes_nothing_handleHash sha256 lc readings hash pushed)⟩
  | loginFromUi osUsername osPassword password remember =>
      refine ⟨hUnderway.loginFromUi hEvent, fun pushed hPushed => ?_⟩
      simp [LoginConfigHandler.step, handleLoginFromUi] at hPushed
  | loginError error =>
      refine ⟨hUnderway.loginError error, fun pushed hPushed => ?_⟩
      cases error <;> simp [LoginConfigHandler.step, handleLoginError] at hPushed
  | peerInfo =>
      have hKept := hUnderway.rememberPassword
      refine ⟨⟨⟨hKept, hKept, hUnderway.personal, hUnderway.password⟩, hUnderway.salt_eq,
        hUnderway.switched⟩, fun pushed hPushed => ?_⟩
      simp only [LoginConfigHandler.step, handlePeerInfo] at hPushed
      split at hPushed
      · rename_i hSome
        simp only [Bool.and_eq_true, Bool.not_eq_true', List.isEmpty_eq_false_iff] at hSome
        cases List.mem_singleton.mp hPushed
        exact hKept.resolve_left hSome.1.1
      · cases hPushed
  | fileWritten config =>
      exact ⟨⟨⟨hEvent, hUnderway.config, hUnderway.personal, hUnderway.password⟩, hUnderway.salt_eq,
        hUnderway.switched⟩, fun pushed hPushed => by cases hPushed⟩

/-- Whatever happens in a session with a peer that keeps its salt: the passwords that the file
of the peer holds, and those that are told to the personal address book, are such as were there
before, came with the token or from the personal address book, were given beforehand, or were
typed in to be remembered. A password of a shared address book, the default of a custom client
and a password that is not to be remembered are not among them, unless they are one of those. -/
theorem keeps_allowed (sha256 : Bytes → Bytes) (salt : Bytes) (allowed : Bytes → Prop) (id : Bytes)
    (isTerminal isTerminalAdmin : Bool) (switchUuid : Option (Option Nat)) (sharedPassword : Option Bytes)
    (connToken : Option ConnToken) (stored : PeerConfig) (readings : Readings) (hash : Hash)
    (events : List Event) (hStored : stored.password = [] ∨ allowed stored.password)
    (hToken : ∀ token, connToken = some token → token.Respects sha256 salt allowed)
    (hSwitch : switchUuid = none ∨ connToken = none)
    (hEvents : ∀ event ∈ .hash readings hash :: events, event.Respects sha256 salt allowed) :
    let start := initializeHandler id isTerminal isTerminalAdmin switchUuid sharedPassword connToken stored
    let after := Trace.run (next sha256) start (.hash readings hash :: events)
    (after.stored.password = [] ∨ allowed after.stored.password) ∧
      Trace.Always (next sha256) (fun lc event => ∀ pushed,
        .syncPeerHashPasswordToPersonalAb pushed ∈ (lc.step sha256 event).2 → allowed pushed)
        start (.hash readings hash :: events) := by
  intro start after
  have hSorted : Sorted sha256 salt allowed start := by
    cases connToken with
    | none => exact ⟨hStored, hStored, by rintro _ ⟨⟩, Or.inl rfl⟩
    | some token =>
        obtain ⟨hPassword, hPersonal⟩ := hToken token rfl
        refine ⟨hStored, hStored, hPersonal, ?_⟩
        rcases hPassword with hAllowed | hShared
        · exact Or.inr (Or.inl hAllowed)
        · exact Or.inr (Or.inr (Or.inr ⟨hSwitch.resolve_right (by simp), hShared⟩))
  have hFirst : Underway sha256 salt allowed (start.next sha256 (.hash readings hash)) :=
    hSorted.handleHash (hEvents _ List.mem_cons_self)
  have hRest := (Trace.always_iff_forall_mem (next sha256) (start.next sha256 (.hash readings hash))
    events).mpr fun event hMem => hEvents event (List.mem_cons_of_mem _ hMem)
  constructor
  · exact (Trace.invariant_of_always (next sha256) (Underway sha256 salt allowed)
      (fun lc event hEvent hUnderway => (hUnderway.step hEvent).1) hFirst hRest).stored
  · refine ⟨fun pushed hPushed => absurd hPushed (pushes_nothing_handleHash _ _ _ _ _), ?_⟩
    exact Trace.always_of_invariant (next sha256) (Underway sha256 salt allowed)
      (fun lc event hEvent hUnderway => (hUnderway.step hEvent).1)
      (fun lc event hEvent hUnderway => (hUnderway.step hEvent).2) hFirst hRest

/-- SHA-256 of `abc`, and of that. -/
def digests (data : Bytes) : Bytes :=
  if data = [97, 98, 99] then
    [186, 120, 22, 191, 143, 1, 207, 234, 65, 65, 64, 222, 93, 174, 34, 35]
      ++ [176, 3, 97, 163, 150, 23, 122, 156, 180, 16, 255, 97, 242, 0, 21, 173]
  else
    [79, 139, 66, 194, 45, 211, 114, 155, 81, 155, 166, 246, 141, 45, 167, 204]
      ++ [91, 45, 96, 109, 5, 218, 237, 90, 213, 18, 140, 192, 62, 108, 99, 88]

def nothingSet : Readings := ⟨[], [], ⟨[], []⟩, []⟩

/-- The password `a` is shared for a peer with the salt `bc`. Nothing is kept of it. -/
theorem keeps_nothing_shared :
    let start := initializeHandler [1] false false none (some [97]) none {}
    let after := Trace.run (next digests) start [.hash nothingSet ⟨[98, 99], []⟩, .peerInfo]
    (after.stored.password = [] ∨ False) ∧
      Trace.Always (next digests) (fun lc event => ∀ pushed,
        .syncPeerHashPasswordToPersonalAb pushed ∈ (lc.step digests event).2 → False)
        start [.hash nothingSet ⟨[98, 99], []⟩, .peerInfo] :=
  keeps_allowed digests [98, 99] (fun _ => False) [1] false false none (some [97]) none {}
    nothingSet ⟨[98, 99], []⟩ [.peerInfo] (Or.inl rfl) (by rintro _ ⟨⟩) (Or.inl rfl)
    (by simp [Event.Respects, nothingSet])

section Again
variable {password : Bytes}

/-- Nothing that changes the password in use: no refusal of it, and no other salt. -/
def Event.Harmless (salt : Bytes) : Event → Prop
  | .hash _ told => told.salt = salt
  | .loginError error => error ≠ .passwordEmpty ∧ error ≠ .passwordWrong
  | .fileWritten _ => True
  | .loginFromUi .. | .peerInfo => False

/-- The password in use was typed in, to be remembered. -/
structure Typed (digest salt : Bytes) (lc : LoginConfigHandler) : Prop where
  password : lc.password = digest
  remember : lc.remember = true
  source : lc.passwordSource = .undefined
  shared : lc.sharedPassword = none
  switched : lc.switchUuid = none
  salt_eq : lc.hash.salt = salt

theorem choosePassword_of_some (sha256 : Bytes → Bytes) (readings : Readings)
    (lc : LoginConfigHandler) (hPassword : lc.password ≠ []) (hShared : lc.sharedPassword = none) :
    lc.choosePassword sha256 readings = lc := by
  have hSome : lc.password.isEmpty = false := List.isEmpty_eq_false_iff.mpr hPassword
  have hPreset : lc.presetPassword sha256 readings = lc := by
    simp [LoginConfigHandler.presetPassword, hSome]
  have hAb : lc.sharedAbPassword sha256 = lc := by
    simp [LoginConfigHandler.sharedAbPassword, hShared]
  have hConfig : lc.configPassword = lc := by
    simp [LoginConfigHandler.configPassword, hSome]
  have hPersonal : lc.personalAbPassword readings = lc := by
    simp [LoginConfigHandler.personalAbPassword, hSome]
  have hDefault : lc.defaultPassword sha256 readings = lc := by
    simp [LoginConfigHandler.defaultPassword, hSome]
  unfold choosePassword
  rw [hPreset, hAb, hConfig, hPersonal, hDefault]

theorem Typed.step {digest : Bytes} (hDigest : digest ≠ []) (hTyped : Typed digest salt lc)
    {event : Event} (hEvent : event.Harmless salt) : Typed digest salt (lc.next sha256 event) := by
  cases event with
  | hash readings hash =>
      have hChosen := choosePassword_of_some sha256 readings { lc with hash := hash, switchUuid := none }
        (hTyped.password ▸ hDigest) hTyped.shared
      have hNext : lc.next sha256 (.hash readings hash) = { lc with hash := hash, switchUuid := none } := by
        simp only [next, LoginConfigHandler.step, handleHash, hTyped.switched]
        exact hChosen
      rw [hNext]
      exact ⟨hTyped.password, hTyped.remember, hTyped.source, hTyped.shared, rfl, hEvent⟩
  | loginError error =>
      cases error with
      | passwordEmpty => exact absurd rfl hEvent.1
      | passwordWrong => exact absurd rfl hEvent.2
      | wrong2fa | require2fa =>
          simp only [next, LoginConfigHandler.step, handleLoginError]
          split
          · exact ⟨hTyped.password, hTyped.remember, hTyped.source, hTyped.shared, hTyped.switched,
              hTyped.salt_eq⟩
          · exact hTyped
      | other => exact hTyped
  | fileWritten config =>
      exact ⟨hTyped.password, hTyped.remember, hTyped.source, hTyped.shared, hTyped.switched, hTyped.salt_eq⟩
  | loginFromUi osUsername osPassword password remember => exact hEvent.elim
  | peerInfo => exact hEvent.elim

/-- A typed password that is to be remembered is in the file once the peer has taken it. -/
theorem Typed.stored (sha256 : Bytes → Bytes) {digest : Bytes} (hDigest : digest ≠ [])
    (hTyped : Typed digest salt lc) :
    (lc.next sha256 .peerInfo).stored.password = digest := by
  have hShared : lc.passwordSource.isSharedAb sha256 lc.password lc.hash = false := by
    rw [hTyped.source]
    unfold PasswordSource.isSharedAb
    split <;> rfl
  change (lc.rememberPassword sha256).password = digest
  unfold rememberPassword
  rw [if_pos hTyped.remember, hShared, hTyped.password]
  by_cases hSame : digest = lc.stored.password
  · simp [← hSame]
  · simp [hDigest, hSame]

/-- A password that was typed in to be remembered and then taken by the peer, whatever else was
asked meanwhile, makes a later session send the very login it would send if the password was
typed in again, as long as the peer keeps its salt. -/
theorem remembered_logs_in (sha256 : Bytes → Bytes) (hDigest : ∀ data, sha256 data ≠ [])
    (lc : LoginConfigHandler) (hShared : lc.sharedPassword = none) (hSwitch : lc.switchUuid = none)
    (osUsername osPassword password : Bytes) (hPassword : password ≠ []) (between : List Event)
    (hBetween : ∀ event ∈ between, event.Harmless lc.hash.salt) (id : Bytes) (isTerminal : Bool)
    (readings : Readings) (hPreset : readings.passwordPreset = []) (challenge : Bytes) :
    let after := Trace.run (next sha256) lc
      (.loginFromUi osUsername osPassword password true :: between ++ [.peerInfo])
    let later := (initializeHandler id isTerminal false none none none after.stored).handleHash sha256
      readings ⟨lc.hash.salt, challenge⟩
    after.stored.password = sha256 (password ++ lc.hash.salt) ∧
      ∃ user osPassword, later.2 =
        (later.1.handleLoginFromUi sha256 user osPassword password true).2 := by
  intro after later
  have hTyped : Typed (sha256 (password ++ lc.hash.salt)) lc.hash.salt
      (lc.next sha256 (.loginFromUi osUsername osPassword password true)) := by
    have hSome : password.isEmpty = false := List.isEmpty_eq_false_iff.mpr hPassword
    simp only [next, LoginConfigHandler.step, handleLoginFromUi, hSome]
    exact ⟨rfl, rfl, rfl, hShared, hSwitch, rfl⟩
  have hAfter : Typed (sha256 (password ++ lc.hash.salt)) lc.hash.salt
      (Trace.run (next sha256) (lc.next sha256 (.loginFromUi osUsername osPassword password true)) between) :=
    Trace.invariant_of_always (next sha256) _ (fun lc event hEvent hInv => hInv.step (hDigest _) hEvent)
      hTyped ((Trace.always_iff_forall_mem (next sha256) _ between).mpr hBetween)
  have hStored : after.stored.password = sha256 (password ++ lc.hash.salt) := by
    have hLast := hAfter.stored sha256 (hDigest _)
    simpa [after, Trace.run_append] using hLast
  have hSome : after.stored.password ≠ [] := hStored ▸ hDigest _
  have hChosen : ({ initializeHandler id isTerminal false none none none after.stored with
        hash := ⟨lc.hash.salt, challenge⟩ }).choosePassword sha256 readings =
      { initializeHandler id isTerminal false none none none after.stored with
        hash := ⟨lc.hash.salt, challenge⟩, password := after.stored.password } := by
    simp [choosePassword, LoginConfigHandler.presetPassword, LoginConfigHandler.sharedAbPassword,
      LoginConfigHandler.configPassword, LoginConfigHandler.personalAbPassword,
      LoginConfigHandler.defaultPassword, initializeHandler, hPreset, hSome]
  have hLater : later = ({ initializeHandler id isTerminal false none none none after.stored with
        hash := ⟨lc.hash.salt, challenge⟩, password := after.stored.password },
      ({ initializeHandler id isTerminal false none none none after.stored with
        hash := ⟨lc.hash.salt, challenge⟩, password := after.stored.password }).loginWithPassword
          sha256) := by
    rw [← hChosen]
    rfl
  refine ⟨hStored, if isTerminal then [] else after.stored.osUsername,
    if isTerminal then [] else after.stored.osPassword, ?_⟩
  have hTypedAgain : password.isEmpty = false := List.isEmpty_eq_false_iff.mpr hPassword
  rw [hLater]
  simp [loginWithPassword, handleLoginFromUi, initializeHandler, tellsHwid, hStored, hDigest, hTypedAgain]

/-- The password `a`, typed in for a peer with the salt `bc`, which asks for a second factor and
then once more for the login, with another challenge. -/
theorem remembered_logs_in_typed :
    let lc := { initializeHandler [1] false false none none none {} with hash := ⟨[98, 99], []⟩ }
    let between : List Event := [.loginError .require2fa, .hash nothingSet ⟨[98, 99], [100]⟩]
    let after := Trace.run (next digests) lc (.loginFromUi [] [] [97] true :: between ++ [.peerInfo])
    let later := (initializeHandler [1] false false none none none after.stored).handleHash digests
      nothingSet ⟨[98, 99], []⟩
    after.stored.password = digests [97, 98, 99] ∧
      ∃ user osPassword, later.2 =
        (later.1.handleLoginFromUi digests user osPassword [97] true).2 :=
  remembered_logs_in digests (by intro data; unfold digests; split <;> simp)
    { initializeHandler [1] false false none none none {} with hash := ⟨[98, 99], []⟩ } rfl rfl [] [] [97]
    (by simp) [.loginError .require2fa, .hash nothingSet ⟨[98, 99], [100]⟩] (by simp [Event.Harmless]) [1]
    false nothingSet rfl []

end Again

end HibtDesk.Session.ClientLogin
