import HibtDesk.Connection.LoginSpec
import HibtDesk.Library.Transaction

/-! Password attempts of many connections against the table of failed logins.
An attempt looks the counters up, validates the password and writes the counters
back, and the attempts of different connections interleave between these steps. -/
namespace HibtDesk

/-- The address of a peer as `SocketAddr::ip` prints it. -/
structure PeerAddress where
  text : String
  noSlash : '/' ∉ text.toList

/-- The networks of an address with the number of failures each may have before
`check_failure` refuses. -/
def networkLimits (deps : Deps) (ip : String) : List (String × Int) :=
  match getIpv6Prefixes deps ip with
  | some (p64, p56, p48) => [(p64, 60), (p56, 80), (p48, 100)]
  | none => []

/-- A validated password attempt. -/
abbrev Attempt := Transaction.Entry Nat FailureCheck

/-- The three steps of an attempt by connection number `c`; the clock is in
milliseconds. -/
def attemptRules (deps : Deps) (address : Nat → PeerAddress) :
    Transaction.Rules Nat Int FailureTable FailureCheck where
  check c now table :=
    let check := checkFailure deps (address c).text table (minuteOf now)
    if check.error.isSome then none else some check
  update c check right table :=
    updateFailure deps (address c).text table check.failure check.time right

/-- The connections from one address. -/
def sameAddress (address : Nat → PeerAddress) (ip : String) (c : Nat) : Bool :=
  (address c).text == ip

/-- The connections from one network. -/
def inNetwork (deps : Deps) (address : Nat → PeerAddress) (key : String) (c : Nat) : Bool :=
  (networkLimits deps (address c).text).any fun network => network.1 == key

/-- The wrong attempts since the last right one. -/
def wrongAttempts (attempts : List Attempt) : List Attempt :=
  attempts.takeWhile fun attempt => !attempt.outcome

def wrongWithin (minute : Int) (attempts : List Attempt) : Nat :=
  (wrongAttempts attempts).countP fun attempt => attempt.ticket.time == minute

@[simp] theorem wrongAttempts_right (c : Nat) (check : FailureCheck) (past : List Attempt) :
    wrongAttempts (⟨c, check, true⟩ :: past) = [] := by simp [wrongAttempts]

@[simp] theorem wrongAttempts_wrong (c : Nat) (check : FailureCheck) (past : List Attempt) :
    wrongAttempts (⟨c, check, false⟩ :: past) = ⟨c, check, false⟩ :: wrongAttempts past := by
  simp [wrongAttempts]

section Table
variable {deps : Deps} {ip key : String} {table : FailureTable} {failure : Failure} {time : Int}

/-- Every network is written as an address and one of three lengths. -/
theorem mem_networkLimits {network : String × Int} (h : network ∈ networkLimits deps ip) :
    ∃ text : String, network = (text ++ "/64", 60) ∨ network = (text ++ "/56", 80) ∨
      network = (text ++ "/48", 100) := by
  unfold networkLimits getIpv6Prefixes at h
  dsimp only at h
  generalize deps.parseIpv6 _ = parsed at h
  cases parsed with
  | none => simp at h
  | some addr =>
      simp only [Option.map_some, List.mem_cons, List.not_mem_nil, or_false] at h
      rcases h with h | h | h
      · exact ⟨_, Or.inl h⟩
      · exact ⟨_, Or.inr (Or.inl h)⟩
      · exact ⟨_, Or.inr (Or.inr h)⟩

theorem slash_of_network {network : String × Int} (h : network ∈ networkLimits deps ip) :
    '/' ∈ network.1.toList := by
  obtain ⟨text, rfl | rfl | rfl⟩ := mem_networkLimits h <;> simp

theorem end_eq {a b x y : String} (h : a ++ x = b ++ y)
    (hLength : x.toList.length = y.toList.length) : x = y := by
  have hList := congrArg String.toList h
  simp only [String.toList_append] at hList
  exact String.toList_inj.mp (List.append_inj' hList hLength).2

/-- The name of a network tells its length, so it has one limit only. -/
theorem limit_unique {other : String} {first second : Int}
    (hFirst : (key, first) ∈ networkLimits deps ip)
    (hSecond : (key, second) ∈ networkLimits deps other) : first = second := by
  obtain ⟨a, hA⟩ := mem_networkLimits hFirst
  obtain ⟨b, hB⟩ := mem_networkLimits hSecond
  simp only [Prod.mk.injEq] at hA hB
  rcases hA with ⟨ha, rfl⟩ | ⟨ha, rfl⟩ | ⟨ha, rfl⟩ <;>
    rcases hB with ⟨hb, rfl⟩ | ⟨hb, rfl⟩ | ⟨hb, rfl⟩ <;>
    first
      | rfl
      | exact absurd (end_eq (ha.symm.trans hb) (by simp)) (by decide)

/-- A right password removes the counters if the address had one. -/
theorem updateFailure_right (key : String) :
    updateFailure deps ip table failure time true key =
      if failure.minute ≠ 0 ∧ (key = ip ∨ ∃ network ∈ networkLimits deps ip, network.1 = key)
      then none else table key := by
  unfold updateFailure networkLimits
  cases getIpv6Prefixes deps ip with
  | none =>
      by_cases hMinute : failure.minute = 0
      · simp [hMinute]
      · by_cases hKey : key = ip <;> simp [hMinute, hKey, FailureTable.remove]
  | some prefixes =>
      obtain ⟨p64, p56, p48⟩ := prefixes
      by_cases hMinute : failure.minute = 0
      · simp [hMinute]
      · simp only [hMinute, ne_eq, not_false_eq_true, if_true, FailureTable.remove, true_and,
          List.mem_cons, List.not_mem_nil, or_false, exists_eq_or_imp, exists_eq_left]
        grind

/-- A wrong password bumps the counter that was read for the address. -/
theorem updateFailure_wrong_address :
    updateFailure deps ip table failure time false ip = some (failure.bump time) := by
  unfold updateFailure
  cases getIpv6Prefixes deps ip with
  | none => simp [FailureTable.insert]
  | some prefixes => simp [FailureTable.insert]

/-- A wrong password bumps the counters of the networks as they stand. -/
theorem updateFailure_wrong_network (hIp : '/' ∉ ip.toList) {limit : Int}
    (hKey : (key, limit) ∈ networkLimits deps ip) :
    updateFailure deps ip table failure time false key =
      some (((table key).getD {}).bump time) := by
  have hNe : key ≠ ip := by
    rintro rfl
    exact hIp (slash_of_network hKey)
  -- the three keys differ, so the loop over them bumps this one once
  have hUnique : ∀ other, (key, other) ∈ networkLimits deps ip → other = limit :=
    fun other hOther => limit_unique hOther hKey
  unfold updateFailure
  unfold networkLimits at hKey hUnique
  cases hPrefixes : getIpv6Prefixes deps ip with
  | none => simp [hPrefixes] at hKey
  | some prefixes =>
      obtain ⟨p64, p56, p48⟩ := prefixes
      simp only [hPrefixes, List.mem_cons, Prod.mk.injEq, List.not_mem_nil, or_false] at hKey hUnique
      simp only [Bool.false_eq_true, if_false, List.foldl_cons, List.foldl_nil,
        FailureTable.bumpPrefix, FailureTable.insert]
      have h64 := hUnique 60
      have h56 := hUnique 80
      have h48 := hUnique 100
      grind

/-- Every other counter stays as it is. -/
theorem updateFailure_other (right : Bool) (hAddress : key ≠ ip)
    (hNetwork : ∀ network ∈ networkLimits deps ip, network.1 ≠ key) :
    updateFailure deps ip table failure time right key = table key := by
  cases right with
  | true =>
      rw [updateFailure_right, if_neg]
      rintro ⟨-, hEq | ⟨network, hMem, hEq⟩⟩
      · exact hAddress hEq
      · exact hNetwork network hMem hEq
  | false =>
      unfold updateFailure
      unfold networkLimits at hNetwork
      cases hPrefixes : getIpv6Prefixes deps ip with
      | none => simp [FailureTable.insert, hAddress]
      | some prefixes =>
          obtain ⟨p64, p56, p48⟩ := prefixes
          simp only [hPrefixes, List.mem_cons, List.not_mem_nil, or_false, forall_eq_or_imp,
            forall_eq] at hNetwork
          simp [FailureTable.bumpPrefix, FailureTable.insert, hAddress, hNetwork.1.symm,
            hNetwork.2.1.symm, hNetwork.2.2.symm]

theorem checkFailureIpv6Prefix_error {bits : Nat} {thresh : Int} {check : FailureCheck}
    (h : checkFailureIpv6Prefix table time key bits thresh = some check) : check.error ≠ none := by
  unfold checkFailureIpv6Prefix at h
  dsimp only at h
  split_ifs at h
  cases h
  simp

theorem checkFailureIpv6Prefix_none {bits : Nat} {thresh : Int}
    (h : checkFailureIpv6Prefix table time key bits thresh = none) :
    ((table key).getD {}).total ≤ thresh := by
  unfold checkFailureIpv6Prefix at h
  dsimp only at h
  split_ifs at h with hTotal
  exact Int.not_lt.mp hTotal

/-- Whoever passes has passed for every network and is checked by address. -/
theorem checkFailure_networks (h : (checkFailure deps ip table time).error = none) :
    checkFailure deps ip table time = checkFailureAddress table time ip ∧
      ∀ network ∈ networkLimits deps ip, ((table network.1).getD {}).total ≤ network.2 := by
  unfold checkFailure networkLimits at *
  revert h
  cases getIpv6Prefixes deps ip with
  | none => exact fun _ => ⟨rfl, by simp⟩
  | some prefixes =>
      obtain ⟨p64, p56, p48⟩ := prefixes
      dsimp only
      cases h64 : checkFailureIpv6Prefix table time p64 64 60 with
      | some check => exact fun h => absurd h (checkFailureIpv6Prefix_error h64)
      | none =>
          cases h56 : checkFailureIpv6Prefix table time p56 56 80 with
          | some check => exact fun h => absurd h (checkFailureIpv6Prefix_error h56)
          | none =>
              cases h48 : checkFailureIpv6Prefix table time p48 48 100 with
              | some check => exact fun h => absurd h (checkFailureIpv6Prefix_error h48)
              | none =>
                  refine fun _ => ⟨rfl, ?_⟩
                  simp only [List.mem_cons, List.not_mem_nil, or_false, forall_eq_or_imp, forall_eq]
                  exact ⟨checkFailureIpv6Prefix_none h64, checkFailureIpv6Prefix_none h56,
                    checkFailureIpv6Prefix_none h48⟩

theorem checkFailureAddress_passed (h : (checkFailureAddress table time ip).error = none) :
    checkFailureAddress table time ip = ⟨(table ip).getD {}, time, none⟩ ∧
      ((table ip).getD {}).total ≤ 30 ∧
      ¬ (time = ((table ip).getD {}).minute ∧ ((table ip).getD {}).inMinute > 6) := by
  unfold checkFailureAddress at h ⊢
  dsimp only at h ⊢
  split_ifs at h ⊢ with hTotal hMinute
  exact ⟨rfl, Int.not_lt.mp hTotal, hMinute⟩

end Table

section Address
variable {deps : Deps} {address : Nat → PeerAddress} {ip : String}

/-- The counter of an address says how many attempts were wrong, and which of
them in the last minute. -/
structure Recorded (failure : Failure) (past : List Attempt) : Prop where
  total : failure.total = (wrongAttempts past).length
  atMost : (wrongAttempts past).length ≤ 31
  atMostWithin : ∀ minute, wrongWithin minute past ≤ 7
  empty : wrongAttempts past = [] → failure = {}
  minute : wrongAttempts past ≠ [] → failure.minute ≠ 0
  inMinute : wrongAttempts past ≠ [] → failure.inMinute = wrongWithin failure.minute past
  latest : wrongAttempts past ≠ [] → ∃ attempt ∈ past, attempt.ticket.time = failure.minute
  later : wrongAttempts past ≠ [] → ∀ minute, failure.minute < minute → wrongWithin minute past = 0

/-- A ticket for one more attempt from the address. -/
structure Admitted (failure : Failure) (past : List Attempt) (check : FailureCheck) : Prop where
  recorded : Recorded failure past
  fresh : check.failure = failure
  time : check.time ≠ 0
  forward : ∀ attempt ∈ past, attempt.ticket.time ≤ check.time
  total : failure.total ≤ 30
  inMinute : ¬ (check.time = failure.minute ∧ failure.inMinute > 6)

/-- The clock is past its first minute and does not run backwards. -/
def ClockForward (past : List Attempt) (now : Int) : Prop :=
  minuteOf now ≠ 0 ∧ ∀ attempt ∈ past, attempt.ticket.time ≤ minuteOf now

theorem wrongWithin_wrong (c : Nat) (check : FailureCheck) (past : List Attempt) (minute : Int) :
    wrongWithin minute (⟨c, check, false⟩ :: past) =
      wrongWithin minute past + if check.time = minute then 1 else 0 := by
  unfold wrongWithin
  rw [wrongAttempts_wrong, List.countP_cons]
  simp

theorem wrongWithin_of_empty {past : List Attempt} (h : wrongAttempts past = []) (minute : Int) :
    wrongWithin minute past = 0 := by
  unfold wrongWithin
  rw [h, List.countP_nil]

theorem Admitted.right {failure : Failure} {past : List Attempt} {check : FailureCheck}
    (h : Admitted failure past check) (c : Nat) :
    Recorded (if check.failure.minute ≠ 0 then {} else failure) (⟨c, check, true⟩ :: past) := by
  -- a counter without a minute was never bumped, so leaving it is the same
  have hEmpty : (if check.failure.minute ≠ 0 then {} else failure) = ({} : Failure) := by
    split_ifs with hMinute
    · rfl
    · rw [h.fresh, ne_eq, not_not] at hMinute
      by_contra hFailure
      exact h.recorded.minute (fun hWrong => hFailure (h.recorded.empty hWrong)) hMinute
  rw [hEmpty]
  constructor <;> simp [wrongWithin]

@[simp] theorem bump_minute (failure : Failure) (time : Int) : (failure.bump time).minute = time := by
  unfold Failure.bump
  split_ifs with h
  · exact h
  · rfl

@[simp] theorem bump_total (failure : Failure) (time : Int) :
    (failure.bump time).total = failure.total + 1 := by
  unfold Failure.bump
  split_ifs <;> rfl

/-- The counter of the minute is right after the bump, whether or not the
minute has changed since the last wrong attempt. -/
theorem Admitted.inMinute_bump {failure : Failure} {past : List Attempt} {check : FailureCheck}
    (h : Admitted failure past check) :
    (failure.bump check.time).inMinute = wrongWithin check.time past + 1 ∧
      wrongWithin check.time past ≤ 6 ∧
      ∀ minute, check.time < minute → wrongWithin minute past = 0 := by
  unfold Failure.bump
  by_cases hEmpty : wrongAttempts past = []
  · have hZero := wrongWithin_of_empty hEmpty
    have hTime : (0 : Int) ≠ check.time := h.time.symm
    rw [h.recorded.empty hEmpty, if_neg hTime]
    simp [hZero]
  · obtain ⟨attempt, hMem, hLatest⟩ := h.recorded.latest hEmpty
    have hLe : failure.minute ≤ check.time := hLatest ▸ h.forward attempt hMem
    have hInMinute := h.recorded.inMinute hEmpty
    have hLater := h.recorded.later hEmpty
    refine ⟨?_, ?_, fun minute hMinute => hLater minute (by omega)⟩
    · split_ifs with hSame
      · rw [← hSame, ← hInMinute]
      · simp [hLater check.time (by omega)]
    · by_cases hSame : failure.minute = check.time
      · have hFew : ¬ failure.inMinute > 6 := fun hMany => h.inMinute ⟨hSame.symm, hMany⟩
        rw [← hSame]
        omega
      · rw [hLater check.time (by omega)]
        omega

theorem Admitted.wrong {failure : Failure} {past : List Attempt} {check : FailureCheck}
    (h : Admitted failure past check) (c : Nat) :
    Recorded (check.failure.bump check.time) (⟨c, check, false⟩ :: past) := by
  obtain ⟨hBump, hFew, hLater⟩ := h.inMinute_bump
  have hTotal := h.recorded.total
  have hAtMost := h.total
  rw [h.fresh]
  constructor
  case total => simp [hTotal]
  case atMost =>
    rw [wrongAttempts_wrong, List.length_cons]
    omega
  case atMostWithin =>
    intro minute
    have hOld := h.recorded.atMostWithin minute
    rw [wrongWithin_wrong]
    split_ifs with hSame
    · rw [← hSame]
      omega
    · exact hOld
  case empty => simp
  case minute => simpa using h.time
  case inMinute =>
    intro _
    rw [hBump, bump_minute, wrongWithin_wrong, if_pos rfl]
    push_cast
    rfl
  case latest => exact fun _ => ⟨_, List.mem_cons_self, by simp⟩
  case later =>
    intro _ minute hMinute
    rw [bump_minute] at hMinute
    rw [wrongWithin_wrong, hLater minute hMinute, if_neg (by omega)]

/-- One attempt from an address keeps its counter right. -/
theorem preserves_recorded (deps : Deps) (address : Nat → PeerAddress)
    (hSlash : '/' ∉ ip.toList) :
    Transaction.Preserves (attemptRules deps address) (sameAddress address ip)
      (fun table => (table ip).getD {}) Recorded
      (fun failure past _ check => Admitted failure past check) ClockForward := by
  constructor
  case check =>
    intro c now table past check hAddress hRecorded hClock hCheck
    obtain rfl : (address c).text = ip := by simpa [sameAddress] using hAddress
    dsimp only [attemptRules] at hCheck
    split_ifs at hCheck with hError
    rw [Bool.not_eq_true, Option.isSome_eq_false_iff, Option.isNone_iff_eq_none] at hError
    obtain ⟨hEq, -⟩ := checkFailure_networks hError
    rw [hEq] at hCheck hError
    obtain ⟨hPassed, hTotal, hMinute⟩ := checkFailureAddress_passed hError
    rw [hPassed] at hCheck
    cases hCheck
    exact ⟨hRecorded, rfl, hClock.1, hClock.2, hTotal, hMinute⟩
  case settled =>
    intro c table past check hAdmitted
    exact hAdmitted.recorded
  case update =>
    intro c check table past right hAddress hAdmitted
    obtain rfl : (address c).text = ip := by simpa [sameAddress] using hAddress
    dsimp only [attemptRules] at hAdmitted ⊢
    cases right with
    | false =>
        rw [updateFailure_wrong_address, Option.getD_some]
        exact hAdmitted.wrong c
    | true =>
        have hRight := hAdmitted.right c
        rw [updateFailure_right]
        simp only [true_or, and_true]
        split_ifs at hRight ⊢
        · exact hRight
        · exact hRight
  case other =>
    intro c check right table hAddress
    have hNe : (address c).text ≠ ip := by simpa [sameAddress] using hAddress
    have hOther : ∀ network ∈ networkLimits deps (address c).text, network.1 ≠ ip := by
      rintro network hMem rfl
      exact hSlash (slash_of_network hMem)
    exact congrArg (·.getD {}) (updateFailure_other right hNe.symm hOther)

end Address

section Network
variable {deps : Deps} {address : Nat → PeerAddress} {key : String} {limit : Int}

/-- The counter of a network is at least the number of wrong attempts. -/
def Covered (limit : Int) (failure : Failure) (past : List Attempt) : Prop :=
  ((wrongAttempts past).length : Int) ≤ failure.total ∧
    ((wrongAttempts past).length : Int) ≤ limit + 1

theorem mem_of_inNetwork {c : Nat} (h : inNetwork deps address key c = true) :
    ∃ limit, (key, limit) ∈ networkLimits deps (address c).text := by
  unfold inNetwork at h
  rw [List.any_eq_true] at h
  obtain ⟨⟨name, limit⟩, hMem, hName⟩ := h
  obtain rfl : name = key := by simpa using hName
  exact ⟨limit, hMem⟩

/-- One attempt from a network keeps its counter high enough. -/
theorem preserves_covered (address : Nat → PeerAddress) {ip : String}
    (hLimit : (key, limit) ∈ networkLimits deps ip) (hPos : 0 ≤ limit) :
    Transaction.Preserves (attemptRules deps address) (inNetwork deps address key)
      (fun table => (table key).getD {}) (Covered limit)
      (fun failure past _ _ => Covered limit failure past ∧ failure.total ≤ limit)
      (fun _ _ => True) := by
  constructor
  case check =>
    intro c now table past check hNetwork hCovered _ hCheck
    obtain ⟨found, hFound⟩ := mem_of_inNetwork hNetwork
    obtain rfl := limit_unique hFound hLimit
    dsimp only [attemptRules] at hCheck
    split_ifs at hCheck with hError
    rw [Bool.not_eq_true, Option.isSome_eq_false_iff, Option.isNone_iff_eq_none] at hError
    exact ⟨hCovered, (checkFailure_networks hError).2 _ hFound⟩
  case settled =>
    intro c table past check hReady
    exact hReady.1
  case update =>
    intro c check table past right hNetwork hReady
    obtain ⟨found, hFound⟩ := mem_of_inNetwork hNetwork
    obtain ⟨⟨hTotal, -⟩, hFew⟩ := hReady
    dsimp only [attemptRules] at hTotal hFew ⊢
    unfold Covered
    cases right with
    | false =>
        rw [updateFailure_wrong_network (address c).noSlash hFound, Option.getD_some, bump_total,
          wrongAttempts_wrong, List.length_cons]
        push_cast
        omega
    | true =>
        have hNonneg : (0 : Int) ≤ ((table key).getD {}).total := by omega
        rw [wrongAttempts_right, updateFailure_right]
        split_ifs <;> simp <;> omega
  case other =>
    intro c check right table hNetwork
    have hNe : key ≠ (address c).text := by
      rintro rfl
      exact (address c).noSlash (slash_of_network hLimit)
    have hOther : ∀ network ∈ networkLimits deps (address c).text, network.1 ≠ key := by
      intro network hMem hEq
      simp only [inNetwork, List.any_eq_false, beq_iff_eq] at hNetwork
      exact hNetwork network hMem hEq
    exact congrArg (·.getD {}) (updateFailure_other right hNe hOther)

end Network

section Handler
variable (fixed : Fixed) (env : Env)

/-- A login request that comes to its password makes one attempt: the three
steps in this order, on the table of failed logins. -/
theorem State.loginPassword_steps (s : State) (lr : LoginRequest) (errMsg : String)
    (address : Nat → PeerAddress) {c : Nat} (hAddress : (address c).text = s.conn.ip) :
    s.loginPassword fixed env lr errMsg =
      match (attemptRules fixed.deps address).check c env.time (s.world.loginFailures 0) with
      | none => (s.checkFailure fixed env 0).1
      | some check =>
          let (s, right) := s.validatePassword fixed env
          let table := (attemptRules fixed.deps address).update c check right
            (s.world.loginFailures 0)
          let s : State := { s with world := { s.world with
            loginFailures := Function.update s.world.loginFailures 0 table } }
          if right then s.loginAccepted fixed env lr errMsg
          else if errMsg = "" then
            (s.sendLoginError "Wrong Password").tryStartCm lr.myId lr.myName false
          else s.sendLoginError "Desktop session not ready, password wrong" := by
  unfold loginPassword attemptRules
  dsimp only
  rw [hAddress]
  unfold State.checkFailure
  cases hError : (HibtDesk.checkFailure fixed.deps s.conn.ip (s.world.loginFailures 0)
      (minuteOf env.time)).error with
  | some error => simp [hError]
  | none =>
      simp only [hError, Option.isSome_none, Bool.false_eq_true, if_false]
      have hConn := (validatePassword_spec fixed env s).2.1
      cases (s.validatePassword fixed env).2 <;> simp [updateFailure, hConn]

end Handler

/-- The connections' attempts over the table, which starts empty. -/
def attemptRun (deps : Deps) (address : Nat → PeerAddress)
    (events : List (Transaction.Event Nat Int)) : Transaction.State Nat FailureTable FailureCheck :=
  Trace.run (Transaction.step (attemptRules deps address)) (.begin fun _ => none) events

/-- The wrong passwords validated for a group of connections since the last
right one. -/
def wrongFrom (group : Nat → Bool) (s : Transaction.State Nat FailureTable FailureCheck) : Nat :=
  (wrongAttempts (s.history group)).length

/-- Between two attempts every wrong one is on record, and the limits of the
address hold at any time. -/
structure AddressLimited (address : Nat → PeerAddress) (ip : String)
    (s : Transaction.State Nat FailureTable FailureCheck) : Prop where
  recorded : s.Quiet (sameAddress address ip) →
    ((s.store ip).getD {}).total = wrongFrom (sameAddress address ip) s
  total : wrongFrom (sameAddress address ip) s ≤ 31
  inMinute : ∀ minute, wrongWithin minute (s.history (sameAddress address ip)) ≤ 7

/-- No attempt from the address starts during another one or back in time. -/
def AddressOrderly (deps : Deps) (address : Nat → PeerAddress) (ip : String)
    (past : List (Transaction.Event Nat Int)) : Transaction.Event Nat Int → Prop :=
  Transaction.Orderly (sameAddress address ip) ClockForward (attemptRun deps address past)

/-- No attempt from the network starts during another one. -/
def NetworkOrderly (deps : Deps) (address : Nat → PeerAddress) (key : String)
    (past : List (Transaction.Event Nat Int)) : Transaction.Event Nat Int → Prop :=
  Transaction.Orderly (inNetwork deps address key) (fun _ _ => True) (attemptRun deps address past)

section Limits
variable (deps : Deps) (address : Nat → PeerAddress)

theorem addressLimited_of_orderly (events : List (Transaction.Event Nat Int)) (ip : PeerAddress)
    (h : Trace.Along (AddressOrderly deps address ip.text) events) :
    AddressLimited address ip.text (attemptRun deps address events) := by
  have hPreserves := preserves_recorded deps address ip.noSlash
  have hStart : Recorded {} [] := by
    constructor <;> simp [wrongAttempts, wrongWithin]
  have hSerial := hPreserves.run (fun _ => none) hStart events h
  obtain ⟨table, hRecorded⟩ := hPreserves.exists_settled hSerial
  exact ⟨fun hQuiet => (hSerial.settled hQuiet).total, hRecorded.atMost, hRecorded.atMostWithin⟩

theorem wrongFrom_network_le (events : List (Transaction.Event Nat Int)) (ip : String)
    {key : String} (limit : Nat) (hLimit : (key, (limit : Int)) ∈ networkLimits deps ip)
    (h : Trace.Along (NetworkOrderly deps address key) events) :
    wrongFrom (inNetwork deps address key) (attemptRun deps address events) ≤ limit + 1 := by
  have hPreserves := preserves_covered address hLimit (Int.natCast_nonneg limit)
  have hStart : Covered limit {} [] := by
    constructor
    · simp [wrongAttempts]
    · simp [wrongAttempts]
      omega
  have hSerial := hPreserves.run (fun _ => none) hStart events h
  obtain ⟨table, -, hFew⟩ := hPreserves.exists_settled hSerial
  exact_mod_cast hFew

/-- The limits hold for every address and every network whose attempts do not
overlap. -/
theorem attempts_limited_of_orderly (events : List (Transaction.Event Nat Int)) :
    (∀ ip : PeerAddress, Trace.Along (AddressOrderly deps address ip.text) events →
      AddressLimited address ip.text (attemptRun deps address events)) ∧
    ∀ (c : Nat) (p64 p56 p48 : String),
      getIpv6Prefixes deps (address c).text = some (p64, p56, p48) →
      (Trace.Along (NetworkOrderly deps address p64) events →
        wrongFrom (inNetwork deps address p64) (attemptRun deps address events) ≤ 61) ∧
      (Trace.Along (NetworkOrderly deps address p56) events →
        wrongFrom (inNetwork deps address p56) (attemptRun deps address events) ≤ 81) ∧
      (Trace.Along (NetworkOrderly deps address p48) events →
        wrongFrom (inNetwork deps address p48) (attemptRun deps address events) ≤ 101) := by
  refine ⟨addressLimited_of_orderly deps address events, ?_⟩
  intro c p64 p56 p48 hPrefixes
  have hLimits : networkLimits deps (address c).text = [(p64, 60), (p56, 80), (p48, 100)] := by
    simp [networkLimits, hPrefixes]
  refine ⟨fun h => ?_, fun h => ?_, fun h => ?_⟩
  · exact wrongFrom_network_le deps address events (address c).text 60 (by simp [hLimits]) h
  · exact wrongFrom_network_le deps address events (address c).text 80 (by simp [hLimits]) h
  · exact wrongFrom_network_le deps address events (address c).text 100 (by simp [hLimits]) h

end Limits

/-- Two connections from one address guess wrong, one after the other. -/
theorem attempts_limited_of_two_guesses :
    let deps : Deps := { (default : Deps) with
      parseIpv6 := fun text => if text = "::1" then some 1 else none
      showIpv6 := fun _ => "::" }
    let address : Nat → PeerAddress := fun c =>
      if c < 2 then ⟨"::1", by decide⟩ else ⟨"10.0.0.1", by decide⟩
    let events : List (Transaction.Event Nat Int) :=
      [.check 0 60000, .decide 0 false, .update 0, .check 1 60000, .decide 1 false, .update 1]
    let s := attemptRun deps address events
    AddressLimited address "::1" s ∧ ((s.store "::1").getD {}).total = 2 ∧
      wrongFrom (sameAddress address "::1") s = 2 ∧
      wrongFrom (inNetwork deps address "::/64") s ≤ 61 ∧
      wrongFrom (inNetwork deps address "::/56") s ≤ 81 ∧
      wrongFrom (inNetwork deps address "::/48") s ≤ 101 := by
  intro deps address events s
  -- only the two checks have something to show
  have hAlong : ∀ C : List (Transaction.Event Nat Int) → Transaction.Event Nat Int → Prop,
      (∀ past c right, C past (.decide c right)) → (∀ past c, C past (.update c)) →
      C [] (.check 0 60000) → C [.check 0 60000, .decide 0 false, .update 0] (.check 1 60000) →
      Trace.Along C events := by
    intro C hDecide hUpdate hFirst hSecond
    have h1 := (Trace.along_singleton (C := C) _).mpr hFirst
    have h2 := (Trace.along_concat _ _).mpr ⟨h1, hDecide _ 0 false⟩
    have h3 := (Trace.along_concat _ _).mpr ⟨h2, hUpdate _ 0⟩
    have h4 := (Trace.along_concat _ _).mpr ⟨h3, hSecond⟩
    have h5 := (Trace.along_concat _ _).mpr ⟨h4, hDecide _ 1 false⟩
    exact (Trace.along_concat _ _).mpr ⟨h5, hUpdate _ 1⟩
  -- the second connection starts when the first is done
  have hAlone : ∀ group : Nat → Bool, (∀ c, group c = true → c < 2) →
      (attemptRun deps address [.check 0 60000, .decide 0 false, .update 0]).Alone group 1 := by
    intro group hGroup other hOther hNe
    obtain rfl : other = 0 := by
      have hTwo := hGroup other hOther
      omega
    decide +kernel
  have hOther : ∀ c, ¬ c < 2 → (address c).text = "10.0.0.1" := fun c hTwo =>
    congrArg PeerAddress.text (if_neg hTwo)
  have hAddress : Trace.Along (AddressOrderly deps address "::1") events := by
    refine hAlong _ (fun _ _ _ => trivial) (fun _ _ => trivial) ?_ ?_
    · exact fun _ => ⟨fun _ _ _ => rfl, by decide, by decide⟩
    · refine fun _ => ⟨hAlone _ fun c hSame => ?_, by decide, by decide +kernel⟩
      by_contra hTwo
      simp [sameAddress, hOther c hTwo] at hSame
  have hNetwork : ∀ key, Trace.Along (NetworkOrderly deps address key) events := by
    refine fun key => hAlong _ (fun _ _ _ => trivial) (fun _ _ => trivial) ?_ ?_
    · exact fun _ => ⟨fun _ _ _ => rfl, trivial⟩
    · refine fun _ => ⟨hAlone _ fun c hIn => ?_, trivial⟩
      by_contra hTwo
      have hNone : networkLimits deps "10.0.0.1" = [] := by decide +kernel
      simp [inNetwork, hOther c hTwo, hNone] at hIn
  obtain ⟨hLimited, hNetworks⟩ := attempts_limited_of_orderly deps address events
  obtain ⟨h64, h56, h48⟩ := hNetworks 0 "::/64" "::/56" "::/48" (by decide +kernel)
  exact ⟨hLimited ⟨"::1", by decide⟩ hAddress, by decide +kernel, by decide +kernel,
    h64 (hNetwork _), h56 (hNetwork _), h48 (hNetwork _)⟩

/-- Two connections that read the counter before either writes it leave one
failure on record for two wrong passwords. -/
theorem overlapping_guesses_recorded_once :
    ¬ ∀ (deps : Deps) (address : Nat → PeerAddress) (events : List (Transaction.Event Nat Int)),
      (∀ ip : PeerAddress, AddressLimited address ip.text (attemptRun deps address events)) ∧
      ∀ (c : Nat) (p64 p56 p48 : String),
        getIpv6Prefixes deps (address c).text = some (p64, p56, p48) →
        wrongFrom (inNetwork deps address p64) (attemptRun deps address events) ≤ 61 ∧
        wrongFrom (inNetwork deps address p56) (attemptRun deps address events) ≤ 81 ∧
        wrongFrom (inNetwork deps address p48) (attemptRun deps address events) ≤ 101 := by
  intro h
  let address : Nat → PeerAddress := fun c =>
    if c < 2 then ⟨"10.0.0.1", by decide⟩ else ⟨"10.0.0.2", by decide⟩
  let events : List (Transaction.Event Nat Int) :=
    [.check 0 60000, .check 1 60000, .decide 0 false, .decide 1 false, .update 0, .update 1]
  have hRecorded := ((h default address events).1 ⟨"10.0.0.1", by decide⟩).recorded
  have hQuiet : (attemptRun default address events).Quiet (sameAddress address "10.0.0.1") := by
    intro c hSame
    have hTwo : c < 2 := by
      by_contra hTwo
      have hOther : (address c).text = "10.0.0.2" := congrArg PeerAddress.text (if_neg hTwo)
      simp [sameAddress, hOther] at hSame
    obtain rfl | rfl : c = 0 ∨ c = 1 := by omega
    · decide +kernel
    · decide +kernel
  have hOne : (((attemptRun default address events).store "10.0.0.1").getD {}).total = 1 := by
    decide +kernel
  have hTwo : wrongFrom (sameAddress address "10.0.0.1") (attemptRun default address events) = 2 := by
    decide +kernel
  have hEqual := hRecorded hQuiet
  rw [hOne, hTwo] at hEqual
  exact absurd hEqual (by decide)

end HibtDesk
