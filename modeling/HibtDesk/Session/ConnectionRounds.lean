import HibtDesk.Library.Trace
import Mathlib.Algebra.Order.Ring.Int

/-! The connection rounds of a session. Each start and each reconnect begins a round with a
thread of its own. The state kept beside them tells what the latest round is doing, and a
reconnect goes by it once a thread has been recorded. -/
namespace HibtDesk.Session

inductive ConnectionState where
  | connecting | connected | disconnected
  deriving DecidableEq, Repr

structure ConnectionRoundState where
  round : Nat
  state : ConnectionState
  deriving DecidableEq, Repr

namespace ConnectionRoundState

def default : ConnectionRoundState := { round := 0, state := .connecting }

/-- `new_round`, in a build without overflow checks. -/
def newRound (s : ConnectionRoundState) : ConnectionRoundState :=
  { round := (s.round + 1) % 2 ^ 32, state := .connecting }

def setConnected (s : ConnectionRoundState) : ConnectionRoundState := { s with state := .connected }

def isRoundGt (s : ConnectionRoundState) (round : Nat) : Bool :=
  if round = 2 ^ 32 - 1 ∧ s.round = 0 then true else decide (round < s.round)

def setDisconnected (s : ConnectionRoundState) (round : Nat) : Bool × ConnectionRoundState :=
  if s.isRoundGt round then (false, s) else (true, { s with state := .disconnected })

end ConnectionRoundState

/-- What has become of a round: it has its number, its thread, the channel for commands,
the connection to the peer, and in the end none of these. -/
inductive Phase where
  | begun | spawned | connecting | connected | ended
  deriving DecidableEq, Repr

def Phase.state : Phase → ConnectionState
  | .begun | .spawned | .connecting => .connecting
  | .connected => .connected
  | .ended => .disconnected

structure Round where
  number : Nat
  phase : Phase
  /-- A `Close` has been sent to it. -/
  closed : Bool
  deriving DecidableEq, Repr

/-- The round is under way and has not been told to close. -/
def Round.live (round : Round) : Bool := round.phase != .ended && !round.closed

/-- A session: whether it forwards ports (RDP is one of them), whether a thread is recorded, the
round that gets what is sent, the rounds begun so far, and the threads of `session_start_` that
have not begun theirs. -/
structure State where
  portForward : Bool
  roundState : ConnectionRoundState
  thread : Bool
  sender : Option Nat
  rounds : List Round
  starting : Nat
  deriving DecidableEq, Repr

inductive Event where
  /-- `session_start_` spawns a thread. -/
  | sessionStart
  /-- That thread begins a round. -/
  | begin
  /-- The part of `reconnect` under the lock of the round state, and the rest of it. -/
  | reconnect
  | spawn (i : Nat)
  /-- `io_loop` sets the sender, is connected to the peer, and comes to its end. The state is
  told of the last two, but not by a round that forwards ports. -/
  | open (i : Nat)
  | setConnected (i : Nat)
  | setDisconnected (i : Nat)
  /-- The UI sends `Close`. -/
  | close
  deriving DecidableEq, Repr

namespace State

def start (portForward : Bool) : State where
  portForward := portForward
  roundState := .default
  thread := false
  sender := none
  rounds := []
  starting := 0

/-- `send(Data::Close)`. -/
def sendClose (s : State) : State :=
  match s.sender with
  | some i => { s with rounds := s.rounds.modify i fun round => { round with closed := true } }
  | none => s

/-- A new round, whose thread is there at once if it begins the round itself. -/
def beginRound (phase : Phase) (s : State) : State :=
  let roundState := s.roundState.newRound
  { s with
    roundState := roundState
    rounds := s.rounds ++ [{ number := roundState.round, phase := phase, closed := false }] }

def reconnect (s : State) : State :=
  if s.thread then
    match s.roundState.state with
    | .connecting => s
    | .connected => s.sendClose.beginRound .begun
    | .disconnected => s.beginRound .begun
  else s.beginRound .begun

def enter (s : State) (i : Nat) (phase : Phase) : State :=
  { s with rounds := s.rounds.modify i fun round => { round with phase := phase } }

def step (s : State) : Event → State
  | .sessionStart => { s with starting := s.starting + 1 }
  | .begin => if s.starting = 0 then s else { s with starting := s.starting - 1 }.beginRound .spawned
  | .reconnect => s.reconnect
  | .spawn i =>
      if (s.rounds[i]?.map Round.phase) = some .begun then { s with thread := true }.enter i .spawned
      else s
  | .open i =>
      if (s.rounds[i]?.map Round.phase) = some .spawned then
        { s with sender := some i }.enter i .connecting
      else s
  | .setConnected i =>
      if (s.rounds[i]?.map Round.phase) = some .connecting then
        if s.portForward then s.enter i .connected
        else { s with roundState := s.roundState.setConnected }.enter i .connected
      else s
  | .setDisconnected i =>
      match s.rounds[i]? with
      | some round =>
          if round.phase = .connecting ∨ round.phase = .connected then
            if s.portForward then s.enter i .ended
            else { s with roundState := (s.roundState.setDisconnected round.number).2 }.enter i .ended
          else s
      | none => s
  | .close => s.sendClose

/-- The state tells of the latest round, and no two rounds are live. -/
structure OneRound (s : State) : Prop where
  latest : ∀ round ∈ s.rounds.getLast?, s.roundState.state = round.phase.state
  live : (s.rounds.filter Round.live).length ≤ 1

instance (s : State) : Decidable s.OneRound :=
  decidable_of_iff ((∀ round ∈ s.rounds.getLast?, s.roundState.state = round.phase.state) ∧
      (s.rounds.filter Round.live).length ≤ 1)
    ⟨fun h => ⟨h.1, h.2⟩, fun h => ⟨h.latest, h.live⟩⟩

/-- A round that is begun without a look at the state is begun when the latest one has ended
or none was begun before, and the number of rounds stays one of 32 bits. No round that forwards
ports is connected or comes to its end. -/
def InTurn (s : State) : Event → Prop
  | .begin => (s.rounds = [] ∨ s.roundState.state = .disconnected) ∧ s.rounds.length + 1 < 2 ^ 32
  | .reconnect =>
      (s.thread = true ∨ s.rounds = [] ∨ s.roundState.state = .disconnected) ∧
        s.rounds.length + 1 < 2 ^ 32
  | .setConnected i | .setDisconnected i =>
      s.portForward = true → ∀ round ∈ s.rounds[i]?, round.phase ≠ .connecting ∧ round.phase ≠ .connected
  | _ => True

instance (s : State) : ∀ event, Decidable (s.InTurn event)
  | .begin | .reconnect => inferInstanceAs (Decidable (_ ∧ _))
  | .setConnected _ | .setDisconnected _ => inferInstanceAs (Decidable (_ = true → _))
  | .sessionStart | .spawn _ | .open _ | .close => .isTrue trivial

/-- Rounds are numbered in order, those that are not the latest are over or about to be, and
the latest one gets what is sent once it listens. -/
structure Ordered (s : State) : Prop where
  count : s.roundState.round = s.rounds.length
  small : s.rounds.length < 2 ^ 32
  number : ∀ (i : Nat) (round : Round), s.rounds[i]? = some round → round.number = i + 1
  old : ∀ (i : Nat) (round : Round), s.rounds[i]? = some round → i + 1 < s.rounds.length →
    round.phase = .ended ∨ round.phase = .connected ∧ round.closed = true
  latest : ∀ (i : Nat) (round : Round), s.rounds[i]? = some round → i + 1 = s.rounds.length →
    s.roundState.state = round.phase.state
  sender : ∀ (i : Nat) (round : Round), s.rounds[i]? = some round → i + 1 = s.rounds.length →
    round.phase = .connecting ∨ round.phase = .connected → s.sender = some i

theorem ordered_start (portForward : Bool) : (start portForward).Ordered where
  count := rfl
  small := Nat.two_pow_pos 32
  number := nofun
  old := nofun
  latest := nofun
  sender := nofun

section Rounds
variable {s : State}

theorem Ordered.oneRound (hOrdered : s.Ordered) : s.OneRound where
  latest := by
    intro round hLast
    rw [List.getLast?_eq_getElem?] at hLast
    have hSome := (List.getElem?_eq_some_iff.mp hLast).choose
    exact hOrdered.latest _ round hLast (by omega)
  live := by
    -- All rounds but the latest are filtered out.
    rcases List.eq_nil_or_concat s.rounds with hNil | ⟨before, last, hLast⟩
    · simp [hNil]
    · have hOld : before.filter Round.live = [] := by
        rw [List.filter_eq_nil_iff]
        intro round hRound
        obtain ⟨i, hi⟩ := List.mem_iff_getElem?.mp hRound
        have hLt := (List.getElem?_eq_some_iff.mp hi).choose
        have hAt : s.rounds[i]? = some round := by
          rw [hLast, List.concat_eq_append, List.getElem?_append_left hLt, hi]
        rcases hOrdered.old i round hAt (by simp [hLast]; omega) with hEnded | ⟨-, hClosed⟩
        · simp [Round.live, hEnded]
        · simp [Round.live, hClosed]
      rw [hLast, List.concat_eq_append, List.filter_append, hOld, List.nil_append]
      exact List.length_filter_le ..

/-- Another round keeps the order if the ones before it are over or about to be. -/
theorem Ordered.beginRound (hOrdered : s.Ordered) (hSmall : s.rounds.length + 1 < 2 ^ 32)
    {phase : Phase} (hPhase : phase = .begun ∨ phase = .spawned)
    (hOver : ∀ (i : Nat) (round : Round), s.rounds[i]? = some round → i + 1 = s.rounds.length →
      round.phase = .ended ∨ round.phase = .connected ∧ round.closed = true) :
    (s.beginRound phase).Ordered := by
  have hNumber : s.roundState.newRound.round = s.rounds.length + 1 := by
    have hMod : s.roundState.newRound.round = (s.roundState.round + 1) % 2 ^ 32 := rfl
    rw [hMod, hOrdered.count, Nat.mod_eq_of_lt hSmall]
  have hLength : (s.beginRound phase).rounds.length = s.rounds.length + 1 := by
    simp [State.beginRound]
  have hCases : ∀ (i : Nat) (round : Round), (s.beginRound phase).rounds[i]? = some round →
      s.rounds[i]? = some round ∧ i < s.rounds.length ∨
        i = s.rounds.length ∧ round = ⟨s.roundState.newRound.round, phase, false⟩ := by
    intro i round hRound
    have hAppend : (s.beginRound phase).rounds =
        s.rounds ++ [⟨s.roundState.newRound.round, phase, false⟩] := rfl
    rw [hAppend, List.getElem?_append] at hRound
    split at hRound
    · exact Or.inl ⟨hRound, by assumption⟩
    · obtain ⟨hLt, hEq⟩ := List.getElem?_eq_some_iff.mp hRound
      simp only [List.length_singleton, Nat.lt_one_iff] at hLt
      refine Or.inr ⟨by omega, ?_⟩
      simpa [hLt] using hEq.symm
  refine ⟨by rw [hLength]; exact hNumber, by omega, ?_, ?_, ?_, ?_⟩
  · intro i round hRound
    rcases hCases i round hRound with ⟨hOld, -⟩ | ⟨rfl, rfl⟩
    · exact hOrdered.number i round hOld
    · exact hNumber
  · intro i round hRound hBefore
    rw [hLength] at hBefore
    rcases hCases i round hRound with ⟨hOld, hLt⟩ | ⟨rfl, rfl⟩
    · by_cases hLatest : i + 1 = s.rounds.length
      · exact hOver i round hOld hLatest
      · exact hOrdered.old i round hOld (by omega)
    · omega
  · intro i round hRound hLatest
    rw [hLength] at hLatest
    rcases hCases i round hRound with ⟨-, hLt⟩ | ⟨rfl, rfl⟩
    · omega
    · rcases hPhase with rfl | rfl <;> rfl
  · intro i round hRound hLatest hAt
    rw [hLength] at hLatest
    rcases hCases i round hRound with ⟨-, hLt⟩ | ⟨rfl, rfl⟩
    · omega
    · rcases hPhase with rfl | rfl <;> simp at hAt

theorem Ordered.sendClose (hOrdered : s.Ordered) : s.sendClose.Ordered := by
  unfold State.sendClose
  split
  · rename_i k hSender
    refine ⟨by simpa using hOrdered.count, by simpa using hOrdered.small, ?_, ?_, ?_, ?_⟩
    · intro i round hRound
      obtain ⟨before, hBefore, rfl⟩ := Trace.getElem?_modify_cases hRound
      have hNumber := hOrdered.number i before hBefore
      split <;> exact hNumber
    · intro i round hRound hLt
      obtain ⟨before, hBefore, rfl⟩ := Trace.getElem?_modify_cases hRound
      have hOld := hOrdered.old i before hBefore (by simpa using hLt)
      split
      · exact hOld.imp id fun h => ⟨h.1, rfl⟩
      · exact hOld
    · intro i round hRound hLatest
      obtain ⟨before, hBefore, rfl⟩ := Trace.getElem?_modify_cases hRound
      have hState := hOrdered.latest i before hBefore (by simpa using hLatest)
      split <;> exact hState
    · intro i round hRound hLatest hAt
      obtain ⟨before, hBefore, rfl⟩ := Trace.getElem?_modify_cases hRound
      refine hOrdered.sender i before hBefore (by simpa using hLatest) ?_
      split at hAt <;> exact hAt
  · exact hOrdered

/-- The latest round has been told to close once it was connected. -/
theorem Ordered.over_sendClose (hOrdered : s.Ordered) (hState : s.roundState.state = .connected)
    (i : Nat) (round : Round) (hRound : s.sendClose.rounds[i]? = some round)
    (hLatest : i + 1 = s.sendClose.rounds.length) :
    round.phase = .ended ∨ round.phase = .connected ∧ round.closed = true := by
  have hLength : s.sendClose.rounds.length = s.rounds.length := by
    unfold State.sendClose
    split <;> simp
  rw [hLength] at hLatest
  have hLt : i < s.rounds.length := by omega
  obtain ⟨before, hBefore⟩ : ∃ before, s.rounds[i]? = some before :=
    ⟨_, List.getElem?_eq_getElem hLt⟩
  have hPhase : before.phase = .connected := by
    have hTold := hOrdered.latest i before hBefore hLatest
    rw [hState] at hTold
    cases hBeforePhase : before.phase <;> simp [hBeforePhase, Phase.state] at hTold ⊢
  have hSender := hOrdered.sender i before hBefore hLatest (Or.inr hPhase)
  unfold State.sendClose at hRound
  rw [hSender] at hRound
  obtain ⟨found, hFound, rfl⟩ := Trace.getElem?_modify_cases hRound
  obtain rfl := Option.some.inj (hBefore.symm.trans hFound)
  rw [if_pos rfl]
  exact Or.inr ⟨hPhase, rfl⟩

/-- A round moves on, and the state with it if it is the latest one. -/
theorem Ordered.enter (hOrdered : s.Ordered) {k : Nat} {phase : Phase} {old : Round}
    {roundState : ConnectionRoundState} {thread : Bool} {sender : Option Nat}
    (hOld : s.rounds[k]? = some old) (hRound : roundState.round = s.roundState.round)
    (hLive : phase ≠ .ended → k + 1 = s.rounds.length)
    (hState : roundState.state = if k + 1 = s.rounds.length then phase.state else s.roundState.state)
    (hSender : k + 1 = s.rounds.length → phase = .connecting ∨ phase = .connected → sender = some k)
    (hSame : k + 1 ≠ s.rounds.length → sender = s.sender) :
    ({ s with roundState := roundState, thread := thread, sender := sender }.enter k phase).Ordered := by
  refine ⟨?_, by simpa [State.enter] using hOrdered.small, ?_, ?_, ?_, ?_⟩
  · simpa [State.enter] using hRound.trans hOrdered.count
  · intro i round hAt
    obtain ⟨before, hBefore, rfl⟩ := Trace.getElem?_modify_cases hAt
    have hNumber := hOrdered.number i before hBefore
    split <;> exact hNumber
  · intro i round hAt hLt
    have hLt : i + 1 < s.rounds.length := by simpa [State.enter] using hLt
    obtain ⟨before, hBefore, rfl⟩ := Trace.getElem?_modify_cases hAt
    split
    · rename_i hIs
      subst hIs
      by_cases hEnded : phase = .ended
      · exact Or.inl hEnded
      · exact absurd (hLive hEnded) (by omega)
    · exact hOrdered.old i before hBefore hLt
  · intro i round hAt hLatest
    have hLatest : i + 1 = s.rounds.length := by simpa [State.enter] using hLatest
    obtain ⟨before, hBefore, rfl⟩ := Trace.getElem?_modify_cases hAt
    change roundState.state = _
    by_cases hIs : i = k
    · rw [hState, if_pos (hIs ▸ hLatest), if_pos hIs]
    · rw [hState, if_neg (by omega), if_neg hIs]
      exact hOrdered.latest i before hBefore hLatest
  · intro i round hAt hLast hPhase
    have hLatest : i + 1 = s.rounds.length := by simpa [State.enter] using hLast
    obtain ⟨before, hBefore, rfl⟩ := Trace.getElem?_modify_cases hAt
    change sender = _
    split at hPhase
    · rename_i hIs
      rw [hIs] at hLatest ⊢
      exact hSender hLatest hPhase
    · rename_i hNot
      rw [hSame (by omega)]
      exact hOrdered.sender i before hBefore hLatest hPhase

/-- A round that has not come to be connected is the latest one. -/
theorem Ordered.latest_of_phase (hOrdered : s.Ordered) {k : Nat} {round : Round}
    (hRound : s.rounds[k]? = some round)
    (hPhase : round.phase ≠ .ended ∧ round.phase ≠ .connected) : k + 1 = s.rounds.length := by
  have hLt := (List.getElem?_eq_some_iff.mp hRound).choose
  by_contra hNot
  rcases hOrdered.old k round hRound (by omega) with hEnded | ⟨hConnected, -⟩
  · exact hPhase.1 hEnded
  · exact hPhase.2 hConnected

theorem Ordered.disconnect (hOrdered : s.Ordered) {k : Nat} {round : Round}
    (hRound : s.rounds[k]? = some round) :
    ({ s with roundState := (s.roundState.setDisconnected round.number).2 }.enter k .ended).Ordered := by
  have hLt := (List.getElem?_eq_some_iff.mp hRound).choose
  have hNumber := hOrdered.number k round hRound
  have hGt : s.roundState.isRoundGt round.number = decide (k + 1 < s.rounds.length) := by
    have hCount := hOrdered.count
    unfold ConnectionRoundState.isRoundGt
    rw [if_neg (by omega), hNumber, hCount]
  refine hOrdered.enter hRound ?_ (fun h => absurd rfl h) ?_ (fun _ h => by simp at h) fun _ => rfl
  · unfold ConnectionRoundState.setDisconnected
    split <;> rfl
  · unfold ConnectionRoundState.setDisconnected
    rw [hGt]
    by_cases hLatest : k + 1 = s.rounds.length
    · rw [if_neg (by simp; omega), if_pos hLatest]
      rfl
    · rw [if_pos (by simp; omega), if_neg hLatest]

end Rounds

theorem Ordered.step {s : State} (hOrdered : s.Ordered) (event : Event) (hTurn : s.InTurn event) :
    (s.step event).Ordered := by
  -- A latest round that has ended is no longer in the way.
  have hEnded : s.rounds = [] ∨ s.roundState.state = .disconnected →
      ∀ (i : Nat) (round : Round), s.rounds[i]? = some round → i + 1 = s.rounds.length →
        round.phase = .ended ∨ round.phase = .connected ∧ round.closed = true := by
    rintro (hNil | hState) i round hRound hLatest
    · simp [hNil] at hRound
    · have hTold := hOrdered.latest i round hRound hLatest
      rw [hState] at hTold
      cases hPhase : round.phase <;> simp [hPhase, Phase.state] at hTold ⊢
  cases event with
  | sessionStart =>
      exact ⟨hOrdered.count, hOrdered.small, hOrdered.number, hOrdered.old, hOrdered.latest,
        hOrdered.sender⟩
  | begin =>
      rw [State.step]
      split
      · exact hOrdered
      · refine Ordered.beginRound (s := { s with starting := s.starting - 1 }) ⟨hOrdered.count,
          hOrdered.small, hOrdered.number, hOrdered.old, hOrdered.latest, hOrdered.sender⟩ hTurn.2
          (Or.inr rfl) (hEnded hTurn.1)
  | reconnect =>
      rw [State.step, State.reconnect]
      split
      · split
        · exact hOrdered
        · rename_i hState
          have hLength : s.sendClose.rounds.length = s.rounds.length := by
            unfold State.sendClose
            split <;> simp
          exact hOrdered.sendClose.beginRound (by rw [hLength]; exact hTurn.2) (Or.inl rfl)
            (hOrdered.over_sendClose hState)
        · rename_i hState
          exact hOrdered.beginRound hTurn.2 (Or.inl rfl) (hEnded (Or.inr hState))
      · rename_i hThread
        exact hOrdered.beginRound hTurn.2 (Or.inl rfl) (hEnded (hTurn.1.resolve_left hThread))
  | spawn i =>
      rw [State.step]
      split
      · rename_i hPhase
        obtain ⟨round, hRound, hBegun⟩ := Option.map_eq_some_iff.mp hPhase
        have hLatest := hOrdered.latest_of_phase hRound (by simp [hBegun])
        have hState := hOrdered.latest i round hRound hLatest
        rw [hBegun] at hState
        exact hOrdered.enter hRound rfl (fun _ => hLatest) (by rw [if_pos hLatest]; exact hState)
          (fun _ h => by simp at h) fun _ => rfl
      · exact hOrdered
  | «open» i =>
      rw [State.step]
      split
      · rename_i hPhase
        obtain ⟨round, hRound, hSpawned⟩ := Option.map_eq_some_iff.mp hPhase
        have hLatest := hOrdered.latest_of_phase hRound (by simp [hSpawned])
        have hState := hOrdered.latest i round hRound hLatest
        rw [hSpawned] at hState
        exact hOrdered.enter hRound rfl (fun _ => hLatest) (by rw [if_pos hLatest]; exact hState)
          (fun _ _ => rfl) fun h => absurd hLatest h
      · exact hOrdered
  | setConnected i =>
      rw [State.step]
      split
      · rename_i hPhase
        obtain ⟨round, hRound, hConnecting⟩ := Option.map_eq_some_iff.mp hPhase
        have hLatest := hOrdered.latest_of_phase hRound (by simp [hConnecting])
        have hSender := hOrdered.sender i round hRound hLatest (Or.inl hConnecting)
        rw [if_neg fun hForward => (hTurn hForward round hRound).1 hConnecting]
        exact hOrdered.enter hRound rfl (fun _ => hLatest) (by rw [if_pos hLatest]; rfl)
          (fun _ _ => hSender) fun _ => rfl
      · exact hOrdered
  | setDisconnected i =>
      rw [State.step]
      split
      · rename_i round hRound
        split
        · rename_i hPhase
          have hNot : ¬ s.portForward = true := by
            intro hForward
            obtain ⟨hConnecting, hConnected⟩ := hTurn hForward round hRound
            exact hPhase.elim hConnecting hConnected
          rw [if_neg hNot]
          exact hOrdered.disconnect hRound
        · exact hOrdered
      · exact hOrdered
  | close => exact hOrdered.sendClose

/-- In a run in which every round that is begun unseen is begun in its turn, and the state is
told of what becomes of a round, it tells of the latest one and no two rounds are live. -/
theorem oneRound_of_inTurn {portForward : Bool} {events : List Event}
    (hRun : Trace.Always step InTurn (start portForward) events) :
    ∀ past, past <+: events → (Trace.run step (start portForward) past).OneRound := by
  rintro past ⟨rest, rfl⟩
  have hPast := ((Trace.always_append step (start portForward) past rest).mp hRun).1
  exact (Trace.invariant_of_always step Ordered (fun _ event hTurn hOrdered => hOrdered.step event hTurn)
    (ordered_start portForward) hPast).oneRound

/-- The first round fails, a reconnect is recorded, and another one closes what it began. -/
def reconnectsInTurn : List Event :=
  [.sessionStart, .begin, .open 0, .setConnected 0, .close, .setDisconnected 0, .reconnect, .spawn 1,
    .open 1, .setConnected 1, .reconnect, .spawn 2, .setDisconnected 1, .open 2, .setConnected 2]

theorem reconnectsInTurn_oneRound : (Trace.run step (start false) reconnectsInTurn).OneRound :=
  oneRound_of_inTurn (by decide) reconnectsInTurn List.prefix_rfl

/-- The thread of the start is not recorded, so that the first reconnect does not close its
round. -/
theorem reconnect_after_start_not_oneRound :
    ¬ (Trace.run step (start false)
      [.sessionStart, .begin, .open 0, .setConnected 0, .reconnect, .spawn 1]).OneRound := by
  decide

end State

end HibtDesk.Session
