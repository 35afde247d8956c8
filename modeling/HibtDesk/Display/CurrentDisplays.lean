import HibtDesk.Display.DisplayService

/-! Whether the viewers have the list of the displays as it is. A list is sent to those who
are subscribed by then. Somebody who waits for the snapshot meanwhile has an older one, and
keeps it if the snapshot finds nobody else there. -/
namespace HibtDesk.Display

namespace State
variable {DisplayInfo : Type}

/-- Each subscriber has the list there is by now. -/
def AllCurrent (s : State DisplayInfo) : Prop :=
  ∀ id ∈ s.service.subscribes, s.last id = some s.sync.displays

/-- The lists are settled: no change is ignored or still to be announced. -/
structure Settled (s : State DisplayInfo) : Prop where
  noGuards : s.guards = 0
  synced : s.sync.isSynced = true

/-- At the head of its loop, with nobody waiting and nothing to be announced, the service
has brought every subscriber up to date. -/
def UpToDate (s : State DisplayInfo) : Prop :=
  s.position = .head → s.guards = 0 → s.service.newSubscribes = ∅ → s.sync.isSynced = true →
    s.AllCurrent

/-- Newcomers who are swapped in because nobody was there before them have the list there
is by now, unless it is to be announced anyway. -/
def NoneMissed (s : State DisplayInfo) : Event DisplayInfo → Prop
  | .service _ => s.position = .swap .alone → s.Settled →
      ∀ id ∈ s.service.newSubscribes, s.last id = some s.sync.displays
  | _ => True

section Decidable
variable [DecidableEq DisplayInfo]

instance (s : State DisplayInfo) : Decidable s.Settled :=
  decidable_of_iff (s.guards = 0 ∧ s.sync.isSynced = true)
    ⟨fun h => ⟨h.1, h.2⟩, fun h => ⟨h.noGuards, h.synced⟩⟩

instance (s : State DisplayInfo) : Decidable s.AllCurrent := by
  unfold AllCurrent
  infer_instance

instance (s : State DisplayInfo) : Decidable s.UpToDate := by
  unfold UpToDate
  infer_instance

instance (s : State DisplayInfo) : ∀ event, Decidable (s.NoneMissed event)
  | .service _ => by
      unfold NoneMissed
      infer_instance
  | .checkUpdateDisplays _ | .login _ | .subscribe _ | .unsubscribe _
  | .tempIgnoreDisplaysChanged | .dropStore | .dropMark | .join => .isTrue trivial

end Decidable

/-- What is known of the list while the service is on its way. -/
structure Kept (s : State DisplayInfo) : Prop where
  snapshots : s.service.needSnapshot = true
  held : s.tempIgnore = true → 0 < s.holding
  swapped : ∀ why, s.position = .swap why → why ≠ .alone → ¬ s.Settled
  sending : ∀ displays, s.position = .send displays → s.Settled → displays = s.sync.displays
  current : (∀ displays, s.position ≠ .send displays) → s.Settled → s.AllCurrent

theorem kept_start : (start : State DisplayInfo).Kept where
  snapshots := rfl
  held := nofun
  swapped := nofun
  sending := nofun
  current := fun _ hSettled => nomatch hSettled.synced

section Steps
variable {s t : State DisplayInfo}

/-- Where nothing is settled it is enough that the flag belongs to a guard. -/
theorem kept_of_unsettled (hSnapshots : t.service.needSnapshot = true) (hNot : ¬ t.Settled)
    (hHeld : t.tempIgnore = true → 0 < t.holding) : t.Kept where
  snapshots := hSnapshots
  held := hHeld
  swapped := fun _ _ _ => hNot
  sending := fun _ _ hSettled => absurd hSettled hNot
  current := fun _ hSettled => absurd hSettled hNot

/-- The thread goes on without touching anything. -/
theorem Kept.move (hKept : s.Kept) {position : Position DisplayInfo}
    (hFrom : ∀ displays, s.position ≠ .send displays) (hTo : ∀ displays, position ≠ .send displays)
    (hSwap : ∀ why, position = .swap why → why ≠ .alone → ¬ s.Settled) :
    { s with position := position }.Kept where
  snapshots := hKept.snapshots
  held := hKept.held
  swapped := fun why hWhy hOther hSettled => hSwap why hWhy hOther ⟨hSettled.noGuards, hSettled.synced⟩
  sending := fun displays hSend => absurd hSend (hTo displays)
  current := fun _ hSettled => hKept.current hFrom ⟨hSettled.noGuards, hSettled.synced⟩

/-- A viewer comes, goes or gets the list as it is. -/
theorem Kept.viewers (hKept : s.Kept) {service : ServiceInner} {last : Int → Option (List DisplayInfo)}
    (hSnapshots : service.needSnapshot = s.service.needSnapshot)
    (hCurrent : s.AllCurrent → { s with service := service, last := last }.AllCurrent) :
    { s with service := service, last := last }.Kept where
  snapshots := hSnapshots.trans hKept.snapshots
  held := hKept.held
  swapped := fun why hWhy hOther hSettled =>
    hKept.swapped why hWhy hOther ⟨hSettled.noGuards, hSettled.synced⟩
  sending := fun displays hSend hSettled =>
    hKept.sending displays hSend ⟨hSettled.noGuards, hSettled.synced⟩
  current := fun hAt hSettled => hCurrent (hKept.current hAt ⟨hSettled.noGuards, hSettled.synced⟩)

theorem subscribes_onSubscribe {inner : ServiceInner} (hSnapshot : inner.needSnapshot = true)
    (id : Int) : (inner.onSubscribe id).subscribes = inner.subscribes := by
  unfold ServiceInner.onSubscribe
  split_ifs <;> rfl

theorem needSnapshot_onSubscribe (inner : ServiceInner) (id : Int) :
    (inner.onSubscribe id).needSnapshot = inner.needSnapshot := by
  unfold ServiceInner.onSubscribe
  split_ifs <;> rfl

theorem needSnapshot_onUnsubscribe (inner : ServiceInner) (id : Int) :
    (inner.onUnsubscribe id).needSnapshot = inner.needSnapshot := by
  unfold ServiceInner.onUnsubscribe
  split_ifs <;> rfl

theorem subscribes_onUnsubscribe (inner : ServiceInner) (id : Int) :
    (inner.onUnsubscribe id).subscribes ⊆ inner.subscribes := by
  unfold ServiceInner.onUnsubscribe
  split_ifs
  · exact Finset.erase_subset ..
  · exact Finset.Subset.refl _

variable [BEq DisplayInfo]

/-- A list that has changed is to be announced, unless changes are ignored. -/
theorem checkChanged_cases (ignoring : Bool) (displays : List DisplayInfo)
    (info : SyncDisplaysInfo DisplayInfo) :
    info.checkChanged ignoring displays = info ∨
      (ignoring = false → (info.checkChanged ignoring displays).isSynced = false) := by
  unfold SyncDisplaysInfo.checkChanged SyncDisplaysInfo.change
  split
  · exact Or.inr fun hNot => by simp [hNot]
  · split
    · exact Or.inr fun hNot => by simp [hNot]
    · exact Or.inl rfl

theorem Kept.checkUpdateDisplays (hKept : s.Kept) (displays : List DisplayInfo) :
    (s.checkUpdateDisplays displays).Kept := by
  unfold State.checkUpdateDisplays
  rcases checkChanged_cases s.tempIgnore displays s.sync with hSame | hChanged
  · rw [hSame]
    exact hKept
  · refine kept_of_unsettled hKept.snapshots (fun hSettled => ?_) hKept.held
    have hIgnore : s.tempIgnore = true := by
      by_contra hNot
      have hUnsynced := hChanged (by simpa using hNot)
      exact Bool.false_ne_true (hUnsynced.symm.trans hSettled.synced)
    have hHolding := hKept.held hIgnore
    have hNone : s.holding + s.leaving = 0 := hSettled.noGuards
    omega

theorem Kept.serve (hKept : s.Kept) (found : Option (List DisplayInfo))
    (hNone : s.NoneMissed (.service found)) : (s.serve found).Kept := by
  unfold State.serve
  split
  · rename_i hAt
    split
    · exact hKept.move (by simp [hAt]) (by simp) (by simp)
    · exact hKept
  · rename_i hAt
    refine hKept.move (by simp [hAt]) ?_ ?_
    all_goals split <;> simp
  · rename_i hAt
    refine hKept.move (by simp [hAt]) ?_ ?_
    all_goals split <;> simp
  · rename_i hAt
    refine hKept.move (by simp [hAt]) ?_ fun why hWhy _ hSettled => ?_
    · split <;> simp
    · -- While changes are ignored a guard is there.
      split at hWhy
      · cases hWhy
      · rename_i hIgnore
        have hHolding := hKept.held (by simpa using hIgnore)
        have hNone : s.holding + s.leaving = 0 := hSettled.noGuards
        omega
  · rename_i hAt
    refine hKept.move (by simp [hAt]) ?_ fun why hWhy hOther => ?_
    · split <;> simp
    · split at hWhy
      · cases hWhy
      · cases hWhy
        exact absurd rfl hOther
  · exact kept_of_unsettled hKept.snapshots (fun hSettled => Bool.false_ne_true hSettled.synced) hKept.held
  · rename_i why hAt
    refine ⟨hKept.snapshots, hKept.held, ?_, ?_, fun _ hSettled id hId => ?_⟩
    · intro other hOther
      dsimp only at hOther
      split at hOther <;> cases hOther
    · intro displays hSend
      dsimp only at hSend
      split at hSend <;> cases hSend
    · have hBefore : s.Settled := ⟨hSettled.noGuards, hSettled.synced⟩
      rcases Finset.mem_union.mp hId with hOld | hNew
      · exact hKept.current (by simp [hAt]) hBefore id hOld
      · by_cases hAlone : why = .alone
        · subst hAlone
          exact hNone hAt hBefore id hNew
        · exact absurd hBefore (hKept.swapped why hAt hAlone)
  · rename_i hAt
    split
    · exact hKept.move (by simp [hAt]) (by simp) (by simp)
    · rename_i displays
      exact (hKept.checkUpdateDisplays displays).move (by simp [State.checkUpdateDisplays, hAt])
        (by simp) (by simp)
  · rename_i hAt
    unfold SyncDisplaysInfo.getUpdateSyncDisplays
    split
    · rename_i sync hGet
      split at hGet
      · cases hGet
        exact hKept.move (by simp [hAt]) (by simp) (by simp)
      · cases hGet
    · rename_i displays sync hGet
      split at hGet
      · cases hGet
      · cases hGet
        refine ⟨hKept.snapshots, hKept.held, by simp, fun other hOther _ => ?_, fun hNot => ?_⟩
        · cases hOther
          rfl
        · exact absurd rfl (hNot s.sync.displays)
  · rename_i displays hAt
    refine ⟨hKept.snapshots, hKept.held, by simp, by simp, fun _ hSettled id hId => ?_⟩
    have hSame := hKept.sending displays hAt ⟨hSettled.noGuards, hSettled.synced⟩
    have hMem : id ∈ s.service.subscribes := hId
    have hLast : (s.sendShared displays).last id = some displays := if_pos hMem
    exact hLast.trans (congrArg some hSame)

theorem Kept.step (hKept : s.Kept) (event : Event DisplayInfo) (hNone : s.NoneMissed event) :
    (s.step event).Kept := by
  cases event with
  | service found => exact hKept.serve found hNone
  | checkUpdateDisplays found => exact hKept.checkUpdateDisplays found
  | login id =>
      refine hKept.viewers rfl fun hCurrent other hOther => ?_
      dsimp only
      split
      · rfl
      · exact hCurrent other hOther
  | subscribe id =>
      rw [State.step]
      split
      · refine hKept.viewers (needSnapshot_onSubscribe s.service id) fun hCurrent other hOther =>
          hCurrent other ?_
        rwa [subscribes_onSubscribe hKept.snapshots] at hOther
      · exact hKept
  | unsubscribe id =>
      exact hKept.viewers (needSnapshot_onUnsubscribe s.service id) fun hCurrent other hOther =>
        hCurrent other (subscribes_onUnsubscribe s.service id hOther)
  | tempIgnoreDisplaysChanged =>
      refine kept_of_unsettled hKept.snapshots (fun hSettled => ?_) fun _ => Nat.succ_pos _
      have hNoGuards : s.holding + 1 + s.leaving = 0 := hSettled.noGuards
      omega
  | dropStore =>
      rw [State.step]
      split
      · refine kept_of_unsettled hKept.snapshots (fun hSettled => ?_) nofun
        have hNoGuards : s.holding - 1 + (s.leaving + 1) = 0 := hSettled.noGuards
        omega
      · exact hKept
  | dropMark =>
      rw [State.step]
      split
      · exact kept_of_unsettled hKept.snapshots (fun hSettled => Bool.false_ne_true hSettled.synced) hKept.held
      · exact hKept
  | join => exact hKept.viewers rfl id

end Steps

/-- In a run in which no newcomer is missed, every subscriber has the list of the displays
as it is whenever the service is at rest at the head of its loop. -/
theorem upToDate_of_noneMissed [BEq DisplayInfo] {events : List (Event DisplayInfo)}
    (hRun : Trace.Always step NoneMissed start events) :
    ∀ past, past <+: events → (Trace.run step start past).UpToDate := by
  rintro past ⟨rest, rfl⟩
  have hPast := ((Trace.always_append step start past rest).mp hRun).1
  have hKept := Trace.invariant_of_always step Kept (fun _ event hNone hKept => hKept.step event hNone)
    kept_start hPast
  intro hHead hGuards _ hSynced
  exact hKept.current (fun displays hSend => by simp [hHead] at hSend) ⟨hGuards, hSynced⟩

/-- A viewer logs in, subscribes, and is sent the list with the snapshot. -/
def firstViewer : List (Event Nat) :=
  [.checkUpdateDisplays [10], .login 1, .subscribe 1] ++ List.replicate 9 (.service (some [10]))

/-- A second viewer logs in. Before it subscribes, a display is added, the first viewer is
told and leaves. -/
def overtaken : List (Event Nat) :=
  firstViewer ++ [.checkUpdateDisplays [10], .login 2] ++ List.replicate 5 (.service (some [10, 20])) ++
    [.unsubscribe 1, .subscribe 2] ++ List.replicate 7 (.service (some [10, 20]))

theorem firstViewer_upToDate : (Trace.run step start firstViewer).UpToDate :=
  upToDate_of_noneMissed (by decide) firstViewer List.prefix_rfl

/-- The second viewer is left with the list from its login. -/
theorem overtaken_not_upToDate : ¬ (Trace.run step start overtaken).UpToDate := by
  decide

end State

end HibtDesk.Display
