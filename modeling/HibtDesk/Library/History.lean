import HibtDesk.Library.Trace

/-! Invariants that also speak about the events handled so far, over runs made of allowed
steps. -/
namespace Trace

variable {State Event : Type*} (step : State → Event → State)

section Past
variable {P : State → Event → Prop} (Inv : List Event → State → Prop) {start : State}
  (hStart : Inv [] start)
  (hStep : ∀ past event, P (run step start past) event → Inv past (run step start past) →
    Inv (past ++ [event]) (step (run step start past) event))
include hStart hStep

theorem invariant_of_past {events : List Event} (hAlways : Always step P start events) :
    Inv events (run step start events) := by
  induction events using List.reverseRecOn with
  | nil => exact hStart
  | append_singleton past event ih =>
      obtain ⟨hPast, hLast⟩ := (always_append step start past [event]).mp hAlways
      rw [run_append]
      exact hStep past event hLast.1 (ih hPast)

/-- What the invariant gives at a step of the run. -/
theorem at_step_of_past {past rest : List Event} {event : Event}
    (hAlways : Always step P start (past ++ event :: rest)) :
    P (run step start past) event ∧ Inv past (run step start past) := by
  obtain ⟨hPast, hRest⟩ := (always_append step start past (event :: rest)).mp hAlways
  exact ⟨hRest.1, invariant_of_past step Inv hStart hStep hPast⟩

end Past

end Trace
