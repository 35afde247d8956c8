import HibtDesk.Common.OptionStore
import HibtDesk.Library.Trace

/-! Options pushed by the server while others set some. A push reads all options and writes
all of them back later, those it has nothing to say about included. -/
namespace HibtDesk.OptionPush

/-- What `handle_config_options` does to the options it has read. -/
def applyPush (options pushed : OptionMap) : OptionMap :=
  pushed.entries.foldl
    (fun options (k, v) => if v = "" then options.remove k else options.insert k v) options

/-- The options, and the push under way with the copy it will write back. For each key it is
kept what has been written last for it, by either party. -/
structure State where
  options : OptionMap
  push : Option (OptionMap × OptionMap)
  written : String → Option String

inductive Event where
  | setOption (k v : String)
  /-- The two halves of `handle_config_options`. -/
  | read (pushed : OptionMap)
  | write

variable (settings : Settings)

def start (options : OptionMap) : State where
  options := options
  push := none
  written _ := none

def step (s : State) : Event → State
  | .setOption k v =>
      { s with
        options := settings.setOption s.options k v
        written := fun key => if key = k then some v else s.written key }
  | .read pushed =>
      match s.push with
      | some _ => s
      | none => { s with push := some (pushed, applyPush (settings.getOptions s.options) pushed) }
  | .write =>
      match s.push with
      | none => s
      | some (pushed, copy) =>
          { options := settings.setOptions copy
            push := none
            written := fun key => (pushed.lookup key).or (s.written key) }

/-- Every option has the effective value of what was written last for it. -/
def Kept (initial : OptionMap) (s : State) : Prop :=
  ∀ k, settings.getOption s.options k =
    match s.written k with
    | some v => settings.effective k v
    | none => settings.getOption initial k

/-- When a push writes back, the options it has nothing to say about are worth what they were
when it read them. -/
def UpToDate (s : State) : Event → Prop
  | .write => ∀ pushed copy, s.push = some (pushed, copy) → ∀ k, pushed.lookup k = none →
      settings.getOption s.options k = (copy.lookup k).getD ""
  | _ => True

variable {settings}

theorem lookup_applyPush (options pushed : OptionMap) (k : String) :
    (applyPush options pushed).lookup k =
      match pushed.lookup k with
      | some v => if v = "" then none else some v
      | none => options.lookup k := by
  refine (Table.lookup_foldl
    (fun options k v => if v = "" then options.remove k else options.insert k v)
    (fun v => if v = "" then none else some v) (fun options k v other => ?_) pushed.nodup options k).trans ?_
  · by_cases hEmpty : v = ""
    · simp [hEmpty]
    · simp [hEmpty]
  · unfold Table.lookup
    cases pushed.entries.lookup k <;> rfl

/-- Writing back what a push makes of the options that `old` had been. -/
theorem getOption_push (old pushed : OptionMap) (k : String) :
    settings.getOption (settings.setOptions (applyPush (settings.getOptions old) pushed)) k =
      match pushed.lookup k with
      | some v => settings.effective k v
      | none => ((applyPush (settings.getOptions old) pushed).lookup k).getD "" := by
  rw [Settings.getOption_setOptions]
  have hCopy := lookup_applyPush (settings.getOptions old) pushed k
  cases hPushed : pushed.lookup k with
  | some v =>
      rw [hPushed] at hCopy
      unfold Settings.getOption getOr Settings.effective
      rw [hCopy]
      cases settings.overwrite.lookup k with
      | some dictated => rfl
      | none =>
          by_cases hEmpty : v = ""
          · simp [hEmpty]
          · simp [hEmpty]
  | none =>
      rw [hPushed] at hCopy
      dsimp only
      unfold Settings.getOption
      rw [hCopy]
      dsimp only
      rw [Settings.lookup_getOptions]
      unfold getOr
      rw [hCopy]
      dsimp only
      rw [Settings.lookup_getOptions]
      unfold getOr
      cases settings.overwrite.lookup k with
      | some dictated => rfl
      | none =>
          cases old.lookup k with
          | some value => rfl
          | none =>
              cases settings.defaults.lookup k with
              | some value => rfl
              | none => rfl

/-- The copy of a push under way is made from some earlier options. -/
def Copied (settings : Settings) (s : State) : Prop :=
  ∀ pushed copy, s.push = some (pushed, copy) →
    ∃ old, copy = applyPush (settings.getOptions old) pushed

theorem Copied.step {s : State} (hCopied : Copied settings s) (event : Event) :
    Copied settings (step settings s event) := by
  cases event with
  | setOption k v => exact hCopied
  | read pushed =>
      unfold OptionPush.step
      cases hPush : s.push with
      | some under =>
          dsimp only
          exact hCopied
      | none =>
          rintro pushed copy hNow
          cases hNow
          exact ⟨s.options, rfl⟩
  | write =>
      unfold OptionPush.step
      cases hPush : s.push with
      | some under => exact nofun
      | none =>
          dsimp only
          exact hCopied

theorem Kept.setOption {initial : OptionMap} {s : State} (hKept : Kept settings initial s) (k v : String) :
    Kept settings initial (step settings s (.setOption k v)) := by
  intro key
  unfold OptionPush.step
  by_cases hKey : key = k
  · subst hKey
    simp only [if_true]
    exact Settings.getOption_setOption s.options key v
  · simp only [hKey, if_false]
    rw [Settings.getOption_setOption_ne hKey]
    exact hKept key

theorem Kept.write {initial : OptionMap} {s : State} (hKept : Kept settings initial s)
    (hCopied : Copied settings s) (hUpToDate : UpToDate settings s .write) :
    Kept settings initial (step settings s .write) := by
  unfold OptionPush.step
  cases hPush : s.push with
  | none => exact hKept
  | some under =>
      obtain ⟨pushed, copy⟩ := under
      obtain ⟨old, rfl⟩ := hCopied pushed copy hPush
      intro key
      dsimp only
      rw [getOption_push]
      cases hPushed : pushed.lookup key with
      | some v => rfl
      | none =>
          rw [Option.none_or, ← hKept key]
          exact (hUpToDate pushed _ hPush key hPushed).symm

/-- A copy that is not up to date undoes what has been written since. -/
theorem Kept.write_stale {initial : OptionMap} {s : State} (hKept : Kept settings initial s)
    (hCopied : Copied settings s) (hStale : ¬ UpToDate settings s .write) :
    ¬ ((step settings s .write).push = none → Kept settings initial (step settings s .write)) := by
  simp only [UpToDate, not_forall] at hStale
  obtain ⟨pushed, copy, hPush, k, hPushed, hDiffers⟩ := hStale
  obtain ⟨old, rfl⟩ := hCopied pushed copy hPush
  have hNow : step settings s .write =
      { options := settings.setOptions (applyPush (settings.getOptions old) pushed)
        push := none
        written := fun key => (pushed.lookup key).or (s.written key) } := by
    unfold OptionPush.step
    rw [hPush]
  rw [hNow]
  intro hAfter
  have hKey := hAfter rfl k
  dsimp only at hKey
  rw [getOption_push, hPushed, Option.none_or, ← hKept k] at hKey
  exact hDiffers hKey.symm

/-- No write is lost, in any order of single writes and pushes, exactly if no push writes back
an option that has got another value since the push has read it. -/
theorem kept_iff (settings : Settings) (initial : OptionMap) (events : List Event) :
    (∀ past, past <+: events → (Trace.run (step settings) (start initial) past).push = none →
        Kept settings initial (Trace.run (step settings) (start initial) past)) ↔
      Trace.Always (step settings) (UpToDate settings) (start initial) events := by
  have hGives : ∀ s : State, Kept settings initial s ∧ Copied settings s →
      s.push = none → Kept settings initial s := fun s hInv _ => hInv.1
  have hKeeps : ∀ (s : State) (event : Event), Kept settings initial s ∧ Copied settings s → True →
      UpToDate settings s event →
      Kept settings initial (step settings s event) ∧ Copied settings (step settings s event) := by
    intro s event ⟨hKept, hCopied⟩ _ hUpToDate
    refine ⟨?_, hCopied.step event⟩
    cases event with
    | setOption k v => exact hKept.setOption k v
    | read pushed =>
        unfold step
        cases s.push with
        | some under => exact hKept
        | none => exact hKept
    | write => exact hKept.write hCopied hUpToDate
  have hBreaks : ∀ (s : State) (event : Event), Kept settings initial s ∧ Copied settings s → True →
      ¬ UpToDate settings s event →
      ¬ ((step settings s event).push = none → Kept settings initial (step settings s event)) := by
    intro s event ⟨hKept, hCopied⟩ _ hNot
    cases event with
    | setOption k v => exact absurd trivial hNot
    | read pushed => exact absurd trivial hNot
    | write => exact hKept.write_stale hCopied hNot
  have hStart : Copied settings (start initial) := by
    intro pushed copy hPush
    cases hPush
  exact Trace.agrees_iff_always (step settings) hGives hKeeps hBreaks ⟨fun k => rfl, hStart⟩
    (Trace.always_of_forall _ (fun _ _ => trivial) _ _)

/-- The user sets an option while a push is under way that does not mention it. -/
theorem pushed_options_undo_user :
    ¬ Kept ⟨.empty, .empty⟩ .empty
      (Trace.run (step ⟨.empty, .empty⟩) (start .empty)
        [.read (Table.empty.insert "enable-audio" "N"), .setOption "enable-lan-discovery" "N", .write]) := by
  intro hKept
  exact absurd (hKept "enable-lan-discovery") (by decide)

end HibtDesk.OptionPush
