import Mathlib.Data.List.Induction

/-! Finite runs of a deterministic system driven by a list of events. A run
keeps no history of its own; what has happened is read off the list of events,
by replaying it. `Once` and `Along` speak about single steps of a run, each
together with the state it started in. -/
namespace Trace

variable {State Event : Type*} (step : State → Event → State)

/-- The state reached after the whole list of events. -/
def run (start : State) (events : List Event) : State := events.foldl step start

@[simp] theorem run_nil (start : State) : run step start [] = start := rfl

@[simp] theorem run_cons (start : State) (event : Event) (rest : List Event) :
    run step start (event :: rest) = run step (step start event) rest := rfl

@[simp] theorem run_append (start : State) (first second : List Event) :
    run step start (first ++ second) = run step (run step start first) second :=
  List.foldl_append ..

/-- Some step of the run satisfies `P`, which sees the state before the step. -/
def Once (P : State → Event → Prop) : State → List Event → Prop
  | _, [] => False
  | start, event :: rest => P start event ∨ Once P (step start event) rest

/-- Every step of the run satisfies `P`, which sees the state before the step. -/
def Always (P : State → Event → Prop) : State → List Event → Prop
  | _, [] => True
  | start, event :: rest => P start event ∧ Always P (step start event) rest

instance Always.decidable {P : State → Event → Prop} [hP : ∀ state event, Decidable (P state event)] :
    ∀ start events, Decidable (Always step P start events)
  | _, [] => .isTrue trivial
  | start, event :: rest =>
      @instDecidableAnd _ _ (hP start event) (Always.decidable (step start event) rest)

/-- Every step of the run satisfies `C`, which also sees the events handled
before it. The state in which the step starts is the run over those events. -/
def Along (C : List Event → Event → Prop) (events : List Event) : Prop :=
  ∀ past event rest, events = past ++ event :: rest → C past event

/-- Where one entry of a list makes a move, every entry is as it was or has made it. -/
theorem getElem?_modify_cases {α : Type*} {entries : List α} {i k : Nat} {move : α → α} {entry : α}
    (hEntry : (entries.modify k move)[i]? = some entry) :
    ∃ before, entries[i]? = some before ∧ entry = if i = k then move before else before := by
  rw [List.getElem?_modify] at hEntry
  obtain ⟨before, hBefore, rfl⟩ := Option.map_eq_some_iff.mp hEntry
  exact ⟨before, hBefore, by simp only [eq_comm]⟩

section Once
variable {P Q : State → Event → Prop}

@[simp] theorem once_nil (start : State) : ¬ Once step P start [] := fun h => h

@[simp] theorem once_singleton (start : State) (event : Event) :
    Once step P start [event] ↔ P start event := by
  simp [Once]

theorem once_append (start : State) (first second : List Event) :
    Once step P start (first ++ second) ↔
      Once step P start first ∨ Once step P (run step start first) second := by
  induction first generalizing start with
  | nil => simp [Once]
  | cons event rest ih => simp [Once, ih, or_assoc]

/-- The last step either adds the occurrence or it was there before. -/
theorem once_concat (start : State) (past : List Event) (event : Event) :
    Once step P start (past ++ [event]) ↔
      Once step P start past ∨ P (run step start past) event := by
  simp [once_append, Once]

theorem Once.concat {start : State} {past : List Event} (h : Once step P start past)
    (event : Event) : Once step P start (past ++ [event]) :=
  (once_concat step start past event).mpr (Or.inl h)

theorem Once.last {start : State} {past : List Event} {event : Event}
    (h : P (run step start past) event) : Once step P start (past ++ [event]) :=
  (once_concat step start past event).mpr (Or.inr h)

theorem Once.mono {start : State} {events : List Event} (h : Once step P start events)
    (weaker : ∀ state event, P state event → Q state event) : Once step Q start events := by
  induction events generalizing start with
  | nil => exact h.elim
  | cons event rest ih =>
      rcases h with now | later
      · exact Or.inl (weaker _ _ now)
      · exact Or.inr (ih later)

/-- An occurrence splits the run at the step that made it. -/
theorem Once.split {start : State} {events : List Event} (h : Once step P start events) :
    ∃ past event rest, events = past ++ event :: rest ∧ P (run step start past) event := by
  induction events generalizing start with
  | nil => exact h.elim
  | cons event rest ih =>
      rcases h with now | later
      · exact ⟨[], event, rest, rfl, now⟩
      · obtain ⟨past, found, after, rfl, holds⟩ := ih later
        exact ⟨event :: past, found, after, rfl, holds⟩

end Once

/-- Some step of the run satisfies `P`, and no later one satisfies `Q`. -/
def Since (P Q : State → Event → Prop) (start : State) (events : List Event) : Prop :=
  ∃ past event rest, events = past ++ event :: rest ∧ P (run step start past) event ∧
    ¬ Once step Q (run step start (past ++ [event])) rest

section Since
variable {P Q : State → Event → Prop}

@[simp] theorem since_nil (start : State) : ¬ Since step P Q start [] := by
  rintro ⟨past, event, rest, hSplit, -⟩
  simp at hSplit

theorem since_concat (start : State) (past : List Event) (event : Event) :
    Since step P Q start (past ++ [event]) ↔
      P (run step start past) event ∨
        Since step P Q start past ∧ ¬ Q (run step start past) event := by
  constructor
  · rintro ⟨before, found, after, hSplit, hP, hQ⟩
    rcases List.eq_nil_or_concat after with rfl | ⟨middle, last, rfl⟩
    · obtain ⟨rfl, hEvent⟩ := List.append_inj' hSplit rfl
      obtain rfl := (List.cons.inj hEvent).1
      exact Or.inl hP
    · rw [List.concat_eq_append] at hSplit hQ
      rw [← List.cons_append, ← List.append_assoc] at hSplit
      obtain ⟨rfl, hEvent⟩ := List.append_inj' hSplit rfl
      obtain rfl := (List.cons.inj hEvent).1
      rw [once_concat, not_or] at hQ
      refine Or.inr ⟨⟨before, found, middle, rfl, hP, hQ.1⟩, ?_⟩
      have hLast := hQ.2
      rwa [← run_append, List.append_assoc] at hLast
  · rintro (hP | ⟨⟨before, found, after, rfl, hP, hQ⟩, hLast⟩)
    · exact ⟨past, event, [], rfl, hP, once_nil step _⟩
    · refine ⟨before, found, after ++ [event], by simp, hP, ?_⟩
      rw [once_concat, not_or]
      refine ⟨hQ, ?_⟩
      rwa [← run_append, List.append_assoc]

end Since

section Along
variable {C : List Event → Event → Prop}

theorem Along.nil : Along C ([] : List Event) := by
  intro past event rest h
  simp at h

theorem along_concat (past : List Event) (event : Event) :
    Along C (past ++ [event]) ↔ Along C past ∧ C past event := by
  constructor
  · intro h
    refine ⟨fun before found after he => h before found (after ++ [event]) ?_, ?_⟩
    · simp [he]
    · exact h past event [] rfl
  · rintro ⟨hPast, hLast⟩ before found after he
    rcases List.eq_nil_or_concat after with rfl | ⟨middle, last, rfl⟩
    · obtain ⟨rfl, hEvent⟩ := List.append_inj' he rfl
      obtain rfl := (List.cons.inj hEvent).1
      exact hLast
    · rw [List.concat_eq_append, ← List.cons_append, ← List.append_assoc] at he
      exact hPast before found middle (List.append_inj' he rfl).1

theorem along_singleton (event : Event) : Along C [event] ↔ C [] event := by
  have h := along_concat (C := C) [] event
  simpa [Along.nil] using h

/-- Induction over a run from its end: an invariant that may speak about the
events handled so far holds after every run all of whose steps satisfy `C`. -/
theorem invariant (Inv : List Event → State → Prop) {start : State}
    (hStart : Inv [] start)
    (hStep : ∀ past event, C past event → Inv past (run step start past) →
      Inv (past ++ [event]) (step (run step start past) event))
    (events : List Event) (hAlong : Along C events) : Inv events (run step start events) := by
  induction events using List.reverseRecOn with
  | nil => exact hStart
  | append_singleton past event ih =>
      obtain ⟨hPast, hLast⟩ := (along_concat past event).mp hAlong
      simpa using hStep past event hLast (ih hPast)

end Along

/-- An invariant of single steps holds after every run. -/
theorem invariant_of_step (Inv : State → Prop) {start : State} (hStart : Inv start)
    (hStep : ∀ state event, Inv state → Inv (step state event)) (events : List Event) :
    Inv (run step start events) := by
  induction events generalizing start with
  | nil => exact hStart
  | cons event rest ih => exact ih (hStep start event hStart)

theorem Always.and {P Q : State → Event → Prop} {start : State} {events : List Event}
    (hP : Always step P start events) (hQ : Always step Q start events) :
    Always step (fun state event => P state event ∧ Q state event) start events := by
  induction events generalizing start with
  | nil => trivial
  | cons event rest ih => exact ⟨⟨hP.1, hQ.1⟩, ih hP.2 hQ.2⟩

theorem always_of_forall {P : State → Event → Prop} (hAll : ∀ state event, P state event)
    (start : State) (events : List Event) : Always step P start events := by
  induction events generalizing start with
  | nil => trivial
  | cons event rest ih => exact ⟨hAll start event, ih (step start event)⟩

/-- A condition on the events alone is one on each event of the run. -/
theorem always_iff_forall_mem {P : Event → Prop} (start : State) (events : List Event) :
    Always step (fun _ event => P event) start events ↔ ∀ event ∈ events, P event := by
  induction events generalizing start with
  | nil => exact iff_of_true trivial (fun _ hMem => by cases hMem)
  | cons event rest ih =>
      rw [List.forall_mem_cons, ← ih (step start event)]
      exact Iff.rfl

theorem always_append {P : State → Event → Prop} (start : State) (first second : List Event) :
    Always step P start (first ++ second) ↔
      Always step P start first ∧ Always step P (run step start first) second := by
  induction first generalizing start with
  | nil => simp [Always]
  | cons event rest ih => simp [Always, ih, and_assoc]

/-- An invariant kept by the steps that satisfy `P` holds after every run made
of such steps. -/
theorem invariant_of_always {P : State → Event → Prop} (Inv : State → Prop)
    (hStep : ∀ state event, P state event → Inv state → Inv (step state event))
    {start : State} {events : List Event} (hStart : Inv start)
    (hAlways : Always step P start events) : Inv (run step start events) := by
  induction events generalizing start with
  | nil => exact hStart
  | cons event rest ih => exact ih (hStep start event hAlways.1 hStart) hAlways.2

/-- What the invariant gives at each step, at steps that satisfy `P`, holds along
every run made of such steps. -/
theorem always_of_invariant {P Q : State → Event → Prop} (Inv : State → Prop)
    (hStep : ∀ state event, P state event → Inv state → Inv (step state event))
    (hGives : ∀ state event, P state event → Inv state → Q state event)
    {start : State} {events : List Event} (hStart : Inv start)
    (hAlways : Always step P start events) : Always step Q start events := by
  induction events generalizing start with
  | nil => trivial
  | cons event rest ih =>
      exact ⟨hGives start event hAlways.1 hStart, ih (hStep start event hAlways.1 hStart) hAlways.2⟩

/-- Two conditions on steps that come to the same wherever the invariant holds, one of
which keeps it, hold along the same runs. -/
theorem always_iff_of_invariant {P Q : State → Event → Prop} (Inv : State → Prop)
    (hSame : ∀ state event, Inv state → (P state event ↔ Q state event))
    (hStep : ∀ state event, P state event → Inv (step state event))
    {start : State} (hStart : Inv start) (events : List Event) :
    Always step P start events ↔ Always step Q start events := by
  induction events generalizing start with
  | nil => exact Iff.rfl
  | cons event rest ih =>
      constructor
      · rintro ⟨hNow, hLater⟩
        exact ⟨(hSame start event hStart).mp hNow, (ih (hStep start event hNow)).mp hLater⟩
      · rintro ⟨hNow, hLater⟩
        have hFirst := (hSame start event hStart).mpr hNow
        exact ⟨hFirst, (ih (hStep start event hFirst)).mpr hLater⟩

/-- In a run made of steps that satisfy `Q`, what the invariant gives holds in every
state exactly if all steps satisfy `P`, provided `P` is what it takes: steps that
satisfy it keep the invariant, and any other step breaks what it gives. -/
theorem agrees_iff_always {P Q : State → Event → Prop} {Inv Agrees : State → Prop}
    (hGives : ∀ state, Inv state → Agrees state)
    (hKeeps : ∀ state event, Inv state → Q state event → P state event → Inv (step state event))
    (hBreaks : ∀ state event, Inv state → Q state event → ¬ P state event →
      ¬ Agrees (step state event))
    {start : State} (hStart : Inv start) {events : List Event} (hRun : Always step Q start events) :
    (∀ past, past <+: events → Agrees (run step start past)) ↔ Always step P start events := by
  induction events generalizing start with
  | nil =>
      refine ⟨fun _ => trivial, fun _ past hPast => ?_⟩
      rw [List.prefix_nil.mp hPast]
      exact hGives start hStart
  | cons event rest ih =>
      obtain ⟨hNow, hLater⟩ := hRun
      constructor
      · intro hAll
        have hP : P start event := by
          by_contra hNot
          exact hBreaks start event hStart hNow hNot (hAll [event] (List.prefix_append [event] rest))
        refine ⟨hP, (ih (hKeeps start event hStart hNow hP) hLater).mp fun past hPast => ?_⟩
        exact hAll (event :: past) ((List.prefix_cons_inj event).mpr hPast)
      · rintro ⟨hP, hRest⟩ past hPast
        cases past with
        | nil => exact hGives start hStart
        | cons first past =>
            obtain ⟨rfl, hTail⟩ := List.cons_prefix_cons.mp hPast
            exact (ih (hKeeps start first hStart hNow hP) hLater).mpr hRest past hTail

/-- An invariant that is kept by exactly the steps that satisfy `P` holds in every
state of a run exactly if the run is made of such steps. -/
theorem invariant_iff_always {P : State → Event → Prop} (Inv : State → Prop)
    (hStep : ∀ state event, Inv state → (Inv (step state event) ↔ P state event))
    {start : State} (hStart : Inv start) (events : List Event) :
    (∀ past, past <+: events → Inv (run step start past)) ↔ Always step P start events :=
  agrees_iff_always step (fun _ hInv => hInv) (fun state event hInv _ => (hStep state event hInv).mpr)
    (fun state event hInv _ hNot hNext => hNot ((hStep state event hInv).mp hNext)) hStart
    (always_of_forall step (fun _ _ => trivial) start events)

end Trace
