import HibtDesk.Library.Trace

/-! Actors that work on a shared store in three separate steps: an actor looks
at the store and gets a ticket or is turned away, the outcome of its attempt is
decided, and it writes the store back with the ticket in hand. The steps of
different actors interleave freely. For a group of actors whose attempts do not
overlap, what one attempt preserves is preserved by every run. -/
namespace Transaction

variable {Actor Clock Store Ticket View : Type*}

/-- How an actor reads the store and how it writes it back. -/
structure Rules (Actor Clock Store Ticket : Type*) where
  check : Actor → Clock → Store → Option Ticket
  update : Actor → Ticket → Bool → Store → Store

inductive Phase (Ticket : Type*) where
  | idle
  | checked (ticket : Ticket)
  | decided (ticket : Ticket) (outcome : Bool)
  deriving DecidableEq

inductive Event (Actor Clock : Type*) where
  | check (actor : Actor) (clock : Clock)
  | decide (actor : Actor) (outcome : Bool)
  | update (actor : Actor)

/-- A decided attempt. -/
structure Entry (Actor Ticket : Type*) where
  actor : Actor
  ticket : Ticket
  outcome : Bool
  deriving DecidableEq

/-- The log holds the decided attempts, the latest first. -/
structure State (Actor Store Ticket : Type*) where
  store : Store
  phase : Actor → Phase Ticket
  log : List (Entry Actor Ticket)

namespace State

def begin (store : Store) : State Actor Store Ticket := ⟨store, fun _ => .idle, []⟩

/-- The attempts of a group of actors. -/
def history (group : Actor → Bool) (s : State Actor Store Ticket) : List (Entry Actor Ticket) :=
  s.log.filter fun entry => group entry.actor

/-- Nobody in the group is in the middle of an attempt. -/
def Quiet (group : Actor → Bool) (s : State Actor Store Ticket) : Prop :=
  ∀ actor, group actor = true → s.phase actor = .idle

/-- Nobody in the group but `actor` is in the middle of an attempt. -/
def Alone (group : Actor → Bool) (actor : Actor) (s : State Actor Store Ticket) : Prop :=
  ∀ other, group other = true → other ≠ actor → s.phase other = .idle

end State

section Step
variable [DecidableEq Actor] (rules : Rules Actor Clock Store Ticket)

def step (s : State Actor Store Ticket) : Event Actor Clock → State Actor Store Ticket
  | .check actor clock =>
      match s.phase actor, rules.check actor clock s.store with
      | .idle, some ticket => { s with phase := Function.update s.phase actor (.checked ticket) }
      | _, _ => s
  | .decide actor outcome =>
      match s.phase actor with
      | .checked ticket =>
          { s with
            phase := Function.update s.phase actor (.decided ticket outcome)
            log := ⟨actor, ticket, outcome⟩ :: s.log }
      | _ => s
  | .update actor =>
      match s.phase actor with
      | .decided ticket outcome =>
          { s with
            store := rules.update actor ticket outcome s.store
            phase := Function.update s.phase actor .idle }
      | _ => s

/-- An attempt of the group starts only while no other one is under way, and
at a time that fits the attempts before it. -/
def Orderly (group : Actor → Bool) (Timely : List (Entry Actor Ticket) → Clock → Prop)
    (s : State Actor Store Ticket) : Event Actor Clock → Prop
  | .check actor clock =>
      group actor = true → s.Alone group actor ∧ Timely (s.history group) clock
  | _ => True

end Step

/-- What holds between the steps of a group whose attempts do not overlap.
`Settled` speaks of the store and the attempts decided so far, `Ready` also of
the ticket of the attempt that is under way. -/
inductive Serial (group : Actor → Bool) (view : Store → View)
    (Settled : View → List (Entry Actor Ticket) → Prop)
    (Ready : View → List (Entry Actor Ticket) → Actor → Ticket → Prop)
    (s : State Actor Store Ticket) : Prop
  | quiet (hQuiet : s.Quiet group) (hSettled : Settled (view s.store) (s.history group))
  | checked (actor : Actor) (ticket : Ticket) (hGroup : group actor = true)
      (hPhase : s.phase actor = .checked ticket) (hAlone : s.Alone group actor)
      (hReady : Ready (view s.store) (s.history group) actor ticket)
  | decided (actor : Actor) (ticket : Ticket) (outcome : Bool)
      (past : List (Entry Actor Ticket)) (hGroup : group actor = true)
      (hPhase : s.phase actor = .decided ticket outcome) (hAlone : s.Alone group actor)
      (hHistory : s.history group = ⟨actor, ticket, outcome⟩ :: past)
      (hReady : Ready (view s.store) past actor ticket)

section Serial
variable {group : Actor → Bool} {view : Store → View}
  {Settled : View → List (Entry Actor Ticket) → Prop}
  {Ready : View → List (Entry Actor Ticket) → Actor → Ticket → Prop}
  {s t : State Actor Store Ticket}

/-- Only the view, the history and the phases of the group matter. -/
theorem Serial.congr (h : Serial group view Settled Ready s)
    (hView : view t.store = view s.store) (hHistory : t.history group = s.history group)
    (hPhase : ∀ actor, group actor = true → t.phase actor = s.phase actor) :
    Serial group view Settled Ready t := by
  cases h with
  | quiet hQuiet hSettled =>
      refine .quiet (fun actor hActor => ?_) ?_
      · rw [hPhase actor hActor, hQuiet actor hActor]
      · rwa [hView, hHistory]
  | checked actor ticket hGroup hChecked hAlone hReady =>
      refine .checked actor ticket hGroup ?_ (fun other hOther hNe => ?_) ?_
      · rw [hPhase actor hGroup, hChecked]
      · rw [hPhase other hOther, hAlone other hOther hNe]
      · rwa [hView, hHistory]
  | decided actor ticket outcome past hGroup hDecided hAlone hPast hReady =>
      refine .decided actor ticket outcome past hGroup ?_ (fun other hOther hNe => ?_) ?_ ?_
      · rw [hPhase actor hGroup, hDecided]
      · rw [hPhase other hOther, hAlone other hOther hNe]
      · rw [hHistory, hPast]
      · rwa [hView]

/-- The actor that is found in the middle of an attempt is the only one. -/
theorem Serial.alone {actor : Actor} (h : Serial group view Settled Ready s)
    (hGroup : group actor = true) (hPhase : s.phase actor ≠ .idle) : s.Alone group actor := by
  cases h with
  | quiet hQuiet _ => exact absurd (hQuiet actor hGroup) hPhase
  | checked first ticket _ _ hAlone _ =>
      by_cases hEq : actor = first
      · exact hEq ▸ hAlone
      · exact absurd (hAlone actor hGroup hEq) hPhase
  | decided first ticket outcome past _ _ hAlone _ _ =>
      by_cases hEq : actor = first
      · exact hEq ▸ hAlone
      · exact absurd (hAlone actor hGroup hEq) hPhase

variable {actor : Actor} {ticket : Ticket} {outcome : Bool}

theorem Serial.ready_of_checked (h : Serial group view Settled Ready s)
    (hGroup : group actor = true) (hPhase : s.phase actor = .checked ticket) :
    Ready (view s.store) (s.history group) actor ticket := by
  have hAlone := h.alone hGroup (by simp [hPhase])
  cases h with
  | quiet hQuiet _ => simp [hQuiet actor hGroup] at hPhase
  | checked first found hFirst hFound _ hReady =>
      by_cases hEq : first = actor
      · subst hEq
        rw [hPhase] at hFound
        cases hFound
        exact hReady
      · simp [hAlone first hFirst hEq] at hFound
  | decided first found result past hFirst hFound _ _ _ =>
      by_cases hEq : first = actor
      · subst hEq
        simp [hPhase] at hFound
      · simp [hAlone first hFirst hEq] at hFound

theorem Serial.ready_of_decided (h : Serial group view Settled Ready s)
    (hGroup : group actor = true) (hPhase : s.phase actor = .decided ticket outcome) :
    ∃ past, s.history group = ⟨actor, ticket, outcome⟩ :: past ∧
      Ready (view s.store) past actor ticket := by
  have hAlone := h.alone hGroup (by simp [hPhase])
  cases h with
  | quiet hQuiet _ => simp [hQuiet actor hGroup] at hPhase
  | checked first found hFirst hFound _ _ =>
      by_cases hEq : first = actor
      · subst hEq
        simp [hPhase] at hFound
      · simp [hAlone first hFirst hEq] at hFound
  | decided first found result past hFirst hFound _ hPast hReady =>
      by_cases hEq : first = actor
      · subst hEq
        rw [hPhase] at hFound
        cases hFound
        exact ⟨past, hPast, hReady⟩
      · simp [hAlone first hFirst hEq] at hFound

theorem Serial.settled (h : Serial group view Settled Ready s) (hQuiet : s.Quiet group) :
    Settled (view s.store) (s.history group) := by
  cases h with
  | quiet _ hSettled => exact hSettled
  | checked first found hFirst hFound _ _ => simp [hQuiet first hFirst] at hFound
  | decided first found result past hFirst hFound _ _ _ => simp [hQuiet first hFirst] at hFound

end Serial

section Run
variable [DecidableEq Actor] (rules : Rules Actor Clock Store Ticket)
  {group : Actor → Bool} {view : Store → View}
  {Settled : View → List (Entry Actor Ticket) → Prop}
  {Ready : View → List (Entry Actor Ticket) → Actor → Ticket → Prop}
  {Timely : List (Entry Actor Ticket) → Clock → Prop}
  {s : State Actor Store Ticket}

/-- What the three steps of one attempt preserve; the others leave the view. -/
structure Preserves (group : Actor → Bool) (view : Store → View)
    (Settled : View → List (Entry Actor Ticket) → Prop)
    (Ready : View → List (Entry Actor Ticket) → Actor → Ticket → Prop)
    (Timely : List (Entry Actor Ticket) → Clock → Prop) : Prop where
  check : ∀ {actor clock store past ticket}, group actor = true → Settled (view store) past →
    Timely past clock → rules.check actor clock store = some ticket →
    Ready (view store) past actor ticket
  update : ∀ {actor ticket store past} outcome, group actor = true →
    Ready (view store) past actor ticket →
    Settled (view (rules.update actor ticket outcome store)) (⟨actor, ticket, outcome⟩ :: past)
  settled : ∀ {actor store past ticket}, Ready (view store) past actor ticket →
    Settled (view store) past
  other : ∀ {actor} ticket outcome store, group actor = false →
    view (rules.update actor ticket outcome store) = view store

/-- A change of the phase of an actor outside the group. -/
theorem phase_outside {actor : Actor} (hOut : group actor = false) (phase : Phase Ticket) :
    ∀ other, group other = true → Function.update s.phase actor phase other = s.phase other := by
  intro other hOther
  have hNe : other ≠ actor := by
    rintro rfl
    simp [hOut] at hOther
  simp [hNe]

theorem alone_update {actor : Actor} (hAlone : s.Alone group actor) (phase : Phase Ticket)
    (store : Store) (log : List (Entry Actor Ticket)) :
    State.Alone group actor ⟨store, Function.update s.phase actor phase, log⟩ := by
  intro other hOther hNe
  simpa [hNe] using hAlone other hOther hNe

theorem quiet_of_alone {actor : Actor} (hAlone : s.Alone group actor)
    (hIdle : s.phase actor = .idle) : s.Quiet group := by
  intro other hOther
  by_cases hEq : other = actor
  · exact hEq ▸ hIdle
  · exact hAlone other hOther hEq

variable {rules}

theorem Preserves.step_check (h : Preserves rules group view Settled Ready Timely)
    {actor : Actor} {clock : Clock} (hOrderly : Orderly group Timely s (.check actor clock))
    (hSerial : Serial group view Settled Ready s) :
    Serial group view Settled Ready (step rules s (.check actor clock)) := by
  unfold step
  dsimp only
  split
  · rename_i ticket hIdle hTicket
    cases hGroup : group actor with
    | false => exact hSerial.congr rfl rfl (phase_outside hGroup _)
    | true =>
        obtain ⟨hAlone, hTimely⟩ := hOrderly hGroup
        have hSettled := hSerial.settled (quiet_of_alone hAlone hIdle)
        exact .checked actor ticket hGroup (by simp) (alone_update hAlone _ _ _)
          (h.check hGroup hSettled hTimely hTicket)
  · exact hSerial

theorem step_decide (hSerial : Serial group view Settled Ready s) (actor : Actor)
    (outcome : Bool) :
    Serial group view Settled Ready (step rules s (.decide actor outcome)) := by
  unfold step
  dsimp only
  split
  · rename_i ticket hPhase
    cases hGroup : group actor with
    | false => exact hSerial.congr rfl (by simp [State.history, hGroup]) (phase_outside hGroup _)
    | true =>
        have hAlone := hSerial.alone hGroup (by simp [hPhase])
        exact .decided actor ticket outcome (s.history group) hGroup (by simp)
          (alone_update hAlone _ _ _) (by simp [State.history, hGroup])
          (hSerial.ready_of_checked hGroup hPhase)
  · exact hSerial

theorem Preserves.step_update (h : Preserves rules group view Settled Ready Timely)
    (hSerial : Serial group view Settled Ready s) (actor : Actor) :
    Serial group view Settled Ready (step rules s (.update actor)) := by
  unfold step
  dsimp only
  split
  · rename_i ticket outcome hPhase
    cases hGroup : group actor with
    | false => exact hSerial.congr (h.other ticket outcome _ hGroup) rfl (phase_outside hGroup _)
    | true =>
        have hAlone := hSerial.alone hGroup (by simp [hPhase])
        obtain ⟨past, hPast, hReady⟩ := hSerial.ready_of_decided hGroup hPhase
        refine .quiet (quiet_of_alone (alone_update hAlone _ _ _) (by simp)) ?_
        have hSettled := h.update outcome hGroup hReady
        rwa [← hPast] at hSettled
  · exact hSerial

/-- The rule for whole runs: in every run whose attempts of the group do not
overlap, the store and the attempts decided so far fit each other. -/
theorem Preserves.run (h : Preserves rules group view Settled Ready Timely) (store : Store)
    (hStart : Settled (view store) []) (events : List (Event Actor Clock))
    (hOrderly : Trace.Along
      (fun past => Orderly group Timely (Trace.run (step rules) (.begin store) past)) events) :
    Serial group view Settled Ready (Trace.run (step rules) (.begin store) events) := by
  refine Trace.invariant (step rules) (fun _ => Serial group view Settled Ready)
    (.quiet (fun _ _ => rfl) hStart) ?_ events hOrderly
  intro past event hEvent hSerial
  cases event with
  | check actor clock => exact h.step_check hEvent hSerial
  | decide actor outcome => exact step_decide hSerial actor outcome
  | update actor => exact h.step_update hSerial actor

omit [DecidableEq Actor] in
/-- Also in the middle of an attempt the attempts so far fit some store. -/
theorem Preserves.exists_settled (h : Preserves rules group view Settled Ready Timely)
    (hSerial : Serial group view Settled Ready s) :
    ∃ store, Settled (view store) (s.history group) := by
  cases hSerial with
  | quiet _ hSettled => exact ⟨s.store, hSettled⟩
  | checked _ _ _ _ _ hReady => exact ⟨s.store, h.settled hReady⟩
  | decided actor ticket outcome past hGroup _ _ hPast hReady =>
      exact ⟨rules.update actor ticket outcome s.store, hPast ▸ h.update outcome hGroup hReady⟩

end Run

end Transaction
