import HibtDesk.Library.Trace
import HibtDesk.Connection.State

/-! The resolutions that connections change. The original of a display is recorded before its
first change. When the last remote connection is gone, the originals are restored from the
table, and the table is cleared under another lock. -/
namespace HibtDesk.Display.Resolutions

abbrev Resolution := Int × Int

structure ChangedResolution where
  original : Resolution
  changed : Resolution
  deriving DecidableEq, Repr

/-- How far a change of a display has got. -/
inductive ChangeStage where
  | read
  | recorded
  | applied
  deriving DecidableEq, Repr

/-- A change of a display, with the resolution that the connection found. -/
structure Change where
  display : String
  original : Resolution
  changed : Resolution
  stage : ChangeStage
  deriving DecidableEq, Repr

/-- How far the dropping of an `AuthedConnID` has got, after its connection was removed. The
read lock of the table is held while it restores. -/
inductive Drop where
  | count
  | restore
  | restoring (left : List (String × ChangedResolution))
  | clear
  | done
  deriving DecidableEq, Repr

structure State where
  resolutions : String → Resolution
  changedResolutions : List (String × ChangedResolution)
  authedConns : List AuthedConn
  changes : List Change
  drops : List Drop

inductive Event where
  | authorize (conn : AuthedConn)
  /-- A connection reads the resolution of a display it is to change. -/
  | changeResolution (display : String) (changed : Resolution)
  | setLastChangedResolution (i : Nat)
  | apply (i : Nat)
  | drop (connId : Int)
  | count (j : Nat)
  | lock (j : Nat)
  /-- The next entry of the table, in any order. -/
  | restore (j : Nat) (entry : String × ChangedResolution)
  | clear (j : Nat)
  deriving DecidableEq, Repr

def Drop.Pending : Drop → Prop
  | .done => False
  | _ => True

/-- No remote connection was counted, and the table is not cleared yet. -/
def Drop.Restores : Drop → Prop
  | .count | .done => False
  | _ => True

/-- The drop holds the read lock. -/
def Drop.Reads : Drop → Prop
  | .restoring _ => True
  | _ => False

instance : DecidablePred Drop.Restores
  | .done | .count => .isFalse id
  | .restore | .restoring _ | .clear => .isTrue trivial

instance : DecidablePred Drop.Reads
  | .done | .count | .restore | .clear => .isFalse id
  | .restoring _ => .isTrue trivial

namespace State

def start (resolutions : String → Resolution) : State where
  resolutions := resolutions
  changedResolutions := []
  authedConns := []
  changes := []
  drops := []

def changeResolution (s : State) (display : String) (resolution : Resolution) : State :=
  { s with resolutions := fun name => if name = display then resolution else s.resolutions name }

/-- The original of an entry that is there stays. -/
def setLastChangedResolution (s : State) (display : String) (original changed : Resolution) : State :=
  if ∃ entry ∈ s.changedResolutions, entry.1 = display then
    { s with
      changedResolutions := s.changedResolutions.map fun entry =>
        if entry.1 = display then (entry.1, { entry.2 with changed := changed }) else entry }
  else
    { s with changedResolutions := s.changedResolutions ++ [(display, ⟨original, changed⟩)] }

def remoteCount (s : State) : Nat :=
  (s.authedConns.filter fun conn => conn.connType = .remote).length

def setDrop (s : State) (j : Nat) (drop : Drop) : State :=
  { s with drops := s.drops.set j drop }

/-- The lock of the table is free to write. -/
def Unread (s : State) : Prop := ∀ drop ∈ s.drops, ¬ drop.Reads

instance (s : State) : Decidable s.Unread := inferInstanceAs (Decidable (∀ _ ∈ _, _))

def step (s : State) : Event → State
  | .authorize conn => { s with authedConns := s.authedConns ++ [conn] }
  | .changeResolution display changed =>
      let change := { display := display, original := s.resolutions display, changed := changed, stage := .read }
      { s with changes := s.changes ++ [change] }
  | .setLastChangedResolution i =>
      match s.changes[i]? with
      | some ⟨display, original, changed, .read⟩ =>
          if s.Unread then
            { s.setLastChangedResolution display original changed with
              changes := s.changes.set i ⟨display, original, changed, .recorded⟩ }
          else s
      | _ => s
  | .apply i =>
      match s.changes[i]? with
      | some ⟨display, original, changed, .recorded⟩ =>
          { s.changeResolution display changed with
            changes := s.changes.set i ⟨display, original, changed, .applied⟩ }
      | _ => s
  | .drop connId =>
      { s with
        authedConns := s.authedConns.filter fun conn => conn.connId ≠ connId
        drops := s.drops ++ [.count] }
  | .count j =>
      match s.drops[j]? with
      | some .count => s.setDrop j (if s.remoteCount = 0 then .restore else .done)
      | _ => s
  | .lock j =>
      match s.drops[j]? with
      | some .restore => s.setDrop j (.restoring s.changedResolutions)
      | _ => s
  | .restore j entry =>
      match s.drops[j]? with
      | some (.restoring left) =>
          if entry ∈ left then
            (s.changeResolution entry.1 entry.2.original).setDrop j (.restoring (left.erase entry))
          else if left = [] then s.setDrop j .clear else s
      | _ => s
  | .clear j =>
      match s.drops[j]? with
      | some .clear => if s.Unread then { s.setDrop j .done with changedResolutions := [] } else s
      | _ => s

def Remote (s : State) : Prop := ∃ conn ∈ s.authedConns, conn.connType = .remote

instance (s : State) : Decidable s.Remote := inferInstanceAs (Decidable (∃ _ ∈ _, _))

/-- No change is under way, and no connection is being dropped. -/
structure Quiescent (s : State) : Prop where
  changes : ∀ change ∈ s.changes, change.stage = .applied
  drops : ∀ drop ∈ s.drops, drop = .done

/-- A change begins while there is a remote connection or somebody is still to look, and nobody
restores. When no remote connection is found, no change is under way. -/
def Undisturbed (s : State) : Event → Prop
  | .changeResolution _ _ =>
      (s.Remote ∨ Drop.count ∈ s.drops) ∧ ∀ drop ∈ s.drops, ¬ drop.Restores
  | .count j => s.drops[j]? = some .count → s.remoteCount = 0 →
      ∀ change ∈ s.changes, change.stage = .applied
  | _ => True

instance (s : State) : ∀ event, Decidable (s.Undisturbed event)
  | .changeResolution _ _ => inferInstanceAs (Decidable (_ ∧ ∀ _ ∈ _, _))
  | .count _ => inferInstanceAs (Decidable (_ → _ → ∀ _ ∈ _, _))
  | .authorize _ | .setLastChangedResolution _ | .apply _ | .drop _ | .lock _ | .restore _ _
  | .clear _ => .isTrue trivial

def Listed (s : State) (name : String) : Prop := ∃ entry ∈ s.changedResolutions, entry.1 = name

/-- What is not as it was at first is in the table with its original, or on its way there, and
somebody is left who will restore it. -/
structure Restorable (first : String → Resolution) (s : State) : Prop where
  originals : ∀ entry ∈ s.changedResolutions, entry.2.original = first entry.1
  unlisted : ∀ name, ¬ s.Listed name → s.resolutions name = first name
  read : ∀ change ∈ s.changes, change.stage = .read → ¬ s.Listed change.display →
    change.original = first change.display
  recorded : ∀ change ∈ s.changes, change.stage = .recorded → s.Listed change.display
  quiet : ∀ drop ∈ s.drops, drop.Restores → ∀ change ∈ s.changes, change.stage = .applied
  lefts : ∀ left, Drop.restoring left ∈ s.drops → ∀ entry ∈ left, entry.2.original = first entry.1
  restoring : ∀ left, Drop.restoring left ∈ s.drops → ∀ name, s.Listed name →
    s.resolutions name = first name ∨ ∃ entry ∈ left, entry.1 = name
  restored : Drop.clear ∈ s.drops → ∀ name, s.resolutions name = first name
  counted : (s.changedResolutions ≠ [] ∨ ∃ change ∈ s.changes, change.stage ≠ .applied) →
    s.Remote ∨ ∃ drop ∈ s.drops, drop.Pending

theorem restorable_start (first : String → Resolution) : (start first).Restorable first where
  originals := nofun
  unlisted _ _ := rfl
  read := nofun
  recorded := nofun
  quiet := nofun
  lefts := nofun
  restoring := nofun
  restored := nofun
  counted h := by
    rcases h with hNone | ⟨_, hNone, -⟩
    · exact absurd rfl hNone
    · cases hNone

section Steps
variable {first : String → Resolution} {s : State}

/-- With everything done and no remote connection left, all is as it was at first. -/
theorem Restorable.settled (hInv : s.Restorable first) (hQuiescent : s.Quiescent)
    (hNone : ¬ s.Remote) (name : String) : s.resolutions name = first name := by
  have hEmpty : s.changedResolutions = [] := by
    by_contra hSome
    rcases hInv.counted (Or.inl hSome) with hRemote | ⟨drop, hDrop, hPending⟩
    · exact hNone hRemote
    · rw [hQuiescent.drops drop hDrop] at hPending
      exact hPending
  refine hInv.unlisted name ?_
  rintro ⟨entry, hEntry, -⟩
  rw [hEmpty] at hEntry
  cases hEntry

theorem remote_of_count (hCount : s.remoteCount ≠ 0) : s.Remote := by
  obtain ⟨conn, hConn⟩ := List.exists_mem_of_length_pos (Nat.pos_of_ne_zero hCount)
  obtain ⟨hMem, hType⟩ := List.mem_filter.mp hConn
  exact ⟨conn, hMem, of_decide_eq_true hType⟩

theorem Restorable.changeResolution (hInv : s.Restorable first) {display : String}
    {changed : Resolution} (hNow : s.Undisturbed (.changeResolution display changed)) :
    (s.step (.changeResolution display changed)).Restorable first := by
  obtain ⟨hSomebody, hNobody⟩ := hNow
  refine {
    originals := hInv.originals
    unlisted := hInv.unlisted
    read := fun change hChange hStage hListed => ?_
    recorded := fun change hChange hStage => ?_
    quiet := fun drop hDrop hRestores => absurd hRestores (hNobody drop hDrop)
    lefts := hInv.lefts
    restoring := hInv.restoring
    restored := hInv.restored
    counted := fun _ => hSomebody.imp_right fun hCount => ⟨.count, hCount, trivial⟩ }
  · rcases List.mem_append.mp hChange with hOld | hNew
    · exact hInv.read change hOld hStage hListed
    · rw [List.mem_singleton.mp hNew] at hListed ⊢
      exact hInv.unlisted display hListed
  · rcases List.mem_append.mp hChange with hOld | hNew
    · exact hInv.recorded change hOld hStage
    · rw [List.mem_singleton.mp hNew] at hStage
      cases hStage

/-- A display is in the table from now on, and what was there stays there. -/
theorem listed_setLast (s : State) (display : String) (original changed : Resolution) (name : String) :
    (s.setLastChangedResolution display original changed).Listed name ↔
      s.Listed name ∨ name = display := by
  unfold State.setLastChangedResolution
  split
  · rename_i hThere
    constructor
    · rintro ⟨entry, hEntry, rfl⟩
      obtain ⟨old, hOld, rfl⟩ := List.mem_map.mp hEntry
      refine Or.inl ⟨old, hOld, ?_⟩
      split <;> rfl
    · rintro (⟨entry, hEntry, rfl⟩ | rfl)
      · refine ⟨_, List.mem_map.mpr ⟨entry, hEntry, rfl⟩, ?_⟩
        split <;> rfl
      · obtain ⟨entry, hEntry, rfl⟩ := hThere
        exact ⟨_, List.mem_map.mpr ⟨entry, hEntry, rfl⟩, by rw [if_pos rfl]⟩
  · constructor
    · rintro ⟨entry, hEntry, rfl⟩
      rcases List.mem_append.mp hEntry with hOld | hNew
      · exact Or.inl ⟨entry, hOld, rfl⟩
      · rw [List.mem_singleton.mp hNew]
        exact Or.inr rfl
    · rintro (⟨entry, hEntry, rfl⟩ | rfl)
      · exact ⟨entry, List.mem_append_left _ hEntry, rfl⟩
      · exact ⟨_, List.mem_append_right _ (List.mem_singleton_self _), rfl⟩

/-- An original is what it was, or it is the one of a display that was not in the table. -/
theorem originals_setLast (hInv : s.Restorable first) {display : String}
    {original changed : Resolution} (hOriginal : ¬ s.Listed display → original = first display) :
    ∀ entry ∈ (s.setLastChangedResolution display original changed).changedResolutions,
      entry.2.original = first entry.1 := by
  unfold State.setLastChangedResolution
  split
  · intro entry hEntry
    obtain ⟨old, hOld, rfl⟩ := List.mem_map.mp hEntry
    have hBefore := hInv.originals old hOld
    split
    · exact hBefore
    · exact hBefore
  · rename_i hNot
    intro entry hEntry
    rcases List.mem_append.mp hEntry with hOld | hNew
    · exact hInv.originals entry hOld
    · rw [List.mem_singleton.mp hNew]
      exact hOriginal hNot

theorem setLast_rest (s : State) (display : String) (original changed : Resolution) :
    (s.setLastChangedResolution display original changed).resolutions = s.resolutions ∧
      (s.setLastChangedResolution display original changed).drops = s.drops ∧
      (s.setLastChangedResolution display original changed).authedConns = s.authedConns := by
  unfold State.setLastChangedResolution
  split <;> exact ⟨rfl, rfl, rfl⟩

/-- While a change is under way nobody restores. -/
theorem Restorable.calm (hInv : s.Restorable first) {change : Change} (hChange : change ∈ s.changes)
    (hStage : change.stage ≠ .applied) : ∀ drop ∈ s.drops, ¬ drop.Restores :=
  fun drop hDrop hRestores => hStage (hInv.quiet drop hDrop hRestores change hChange)

theorem Restorable.record (hInv : s.Restorable first) {i : Nat} {display : String}
    {original changed : Resolution}
    (hChange : s.changes[i]? = some ⟨display, original, changed, .read⟩) :
    { s.setLastChangedResolution display original changed with
      changes := s.changes.set i ⟨display, original, changed, .recorded⟩ }.Restorable first := by
  have hMem := List.mem_of_getElem? hChange
  have hCalm := hInv.calm hMem nofun
  obtain ⟨hResolutions, hDrops, hConns⟩ := setLast_rest s display original changed
  have hListed := listed_setLast s display original changed
  have hUnlisted : ∀ name, ¬ (s.setLastChangedResolution display original changed).Listed name →
      ¬ s.Listed name := fun name hNot hThere => hNot ((hListed name).mpr (Or.inl hThere))
  refine {
    originals := originals_setLast hInv (hInv.read _ hMem rfl)
    unlisted := fun name hNot => ?_
    read := fun change hIn hStage hNot => ?_
    recorded := fun change hIn hStage => ?_
    quiet := fun drop hDrop hRestores => absurd hRestores (hCalm drop (hDrops ▸ hDrop))
    lefts := fun left hDrop => (hCalm (.restoring left) (hDrops ▸ hDrop) trivial).elim
    restoring := fun left hDrop => (hCalm (.restoring left) (hDrops ▸ hDrop) trivial).elim
    restored := fun hDrop => (hCalm .clear (hDrops ▸ hDrop) trivial).elim
    counted := fun _ => ?_ }
  · exact (congrFun hResolutions name).trans (hInv.unlisted name (hUnlisted name hNot))
  · rcases List.mem_or_eq_of_mem_set hIn with hOld | rfl
    · exact hInv.read change hOld hStage (hUnlisted _ hNot)
    · cases hStage
  · rcases List.mem_or_eq_of_mem_set hIn with hOld | rfl
    · exact (hListed _).mpr (Or.inl (hInv.recorded change hOld hStage))
    · exact (hListed _).mpr (Or.inr rfl)
  · rcases hInv.counted (Or.inr ⟨_, hMem, nofun⟩) with ⟨conn, hConn, hRemote⟩ | ⟨drop, hDrop, hPending⟩
    · exact Or.inl ⟨conn, hConns ▸ hConn, hRemote⟩
    · exact Or.inr ⟨drop, hDrops ▸ hDrop, hPending⟩

theorem Restorable.apply (hInv : s.Restorable first) {i : Nat} {display : String}
    {original changed : Resolution}
    (hChange : s.changes[i]? = some ⟨display, original, changed, .recorded⟩) :
    { s.changeResolution display changed with
      changes := s.changes.set i ⟨display, original, changed, .applied⟩ }.Restorable first := by
  have hMem := List.mem_of_getElem? hChange
  have hCalm := hInv.calm hMem nofun
  have hSame : ∀ change ∈ s.changes.set i ⟨display, original, changed, .applied⟩,
      change.stage ≠ .applied → change ∈ s.changes := by
    intro change hIn hStage
    rcases List.mem_or_eq_of_mem_set hIn with hOld | rfl
    · exact hOld
    · exact absurd rfl hStage
  refine {
    originals := hInv.originals
    unlisted := fun name hNot => ?_
    read := fun change hIn hStage => hInv.read change (hSame change hIn (by simp [hStage])) hStage
    recorded := fun change hIn hStage =>
      hInv.recorded change (hSame change hIn (by simp [hStage])) hStage
    quiet := fun drop hDrop hRestores => absurd hRestores (hCalm drop hDrop)
    lefts := hInv.lefts
    restoring := fun left hDrop => (hCalm _ hDrop trivial).elim
    restored := fun hDrop => (hCalm _ hDrop trivial).elim
    counted := fun _ => hInv.counted (Or.inr ⟨_, hMem, nofun⟩) }
  -- The display itself is in the table by now.
  have hOther : name ≠ display := by
    rintro rfl
    exact hNot (hInv.recorded _ hMem rfl)
  exact (if_neg hOther).trans (hInv.unlisted name hNot)

theorem Restorable.drop (hInv : s.Restorable first) (connId : Int) :
    (s.step (.drop connId)).Restorable first := by
  have hOld : ∀ drop ∈ s.drops ++ [Drop.count], drop ≠ .count → drop ∈ s.drops := by
    intro drop hDrop hOther
    rcases List.mem_append.mp hDrop with hOld | hNew
    · exact hOld
    · exact absurd (List.mem_singleton.mp hNew) hOther
  exact {
    originals := hInv.originals
    unlisted := hInv.unlisted
    read := hInv.read
    recorded := hInv.recorded
    quiet := fun drop hDrop hRestores =>
      hInv.quiet drop (hOld drop hDrop fun hCount => by rw [hCount] at hRestores; exact hRestores) hRestores
    lefts := fun left hDrop => hInv.lefts left (hOld _ hDrop nofun)
    restoring := fun left hDrop => hInv.restoring left (hOld _ hDrop nofun)
    restored := fun hDrop => hInv.restored (hOld _ hDrop nofun)
    counted := fun _ => Or.inr
      ⟨.count, List.mem_append_right s.drops (List.mem_singleton_self Drop.count), trivial⟩ }

/-- A drop goes on to a stage whose promises hold, with the displays as they were. -/
theorem Restorable.setDrop (hInv : s.Restorable first) {j : Nat} {before after : Drop}
    (hBefore : s.drops[j]? = some before)
    (hQuiet : after.Restores → ∀ change ∈ s.changes, change.stage = .applied)
    (hLeft : ∀ left, after = .restoring left → (∀ entry ∈ left, entry.2.original = first entry.1) ∧
      ∀ name, s.Listed name → s.resolutions name = first name ∨ ∃ entry ∈ left, entry.1 = name)
    (hClear : after = .clear → ∀ name, s.resolutions name = first name)
    (hPending : after.Pending ∨ s.Remote) : (s.setDrop j after).Restorable first := by
  have hLt := (List.getElem?_eq_some_iff.mp hBefore).choose
  refine {
    originals := hInv.originals
    unlisted := hInv.unlisted
    read := hInv.read
    recorded := hInv.recorded
    quiet := fun drop hDrop hRestores => ?_
    lefts := fun left hDrop => ?_
    restoring := fun left hDrop => ?_
    restored := fun hDrop => ?_
    counted := fun _ => ?_ }
  · rcases List.mem_or_eq_of_mem_set hDrop with hOld | rfl
    · exact hInv.quiet drop hOld hRestores
    · exact hQuiet hRestores
  · rcases List.mem_or_eq_of_mem_set hDrop with hOld | hNew
    · exact hInv.lefts left hOld
    · exact (hLeft left hNew.symm).1
  · rcases List.mem_or_eq_of_mem_set hDrop with hOld | hNew
    · exact hInv.restoring left hOld
    · exact (hLeft left hNew.symm).2
  · rcases List.mem_or_eq_of_mem_set hDrop with hOld | hNew
    · exact hInv.restored hOld
    · exact hClear hNew.symm
  · rcases hPending with hPending | hRemote
    · exact Or.inr ⟨after, List.mem_set hLt after, hPending⟩
    · exact Or.inl hRemote

theorem Restorable.count (hInv : s.Restorable first) {j : Nat} (hNow : s.Undisturbed (.count j)) :
    (s.step (.count j)).Restorable first := by
  change (match s.drops[j]? with
    | some .count => s.setDrop j (if s.remoteCount = 0 then .restore else .done)
    | _ => s).Restorable first
  split
  · rename_i hCount
    by_cases hZero : s.remoteCount = 0
    · rw [if_pos hZero]
      exact hInv.setDrop hCount (fun _ => hNow hCount hZero) nofun nofun (Or.inl trivial)
    · rw [if_neg hZero]
      exact hInv.setDrop hCount nofun nofun nofun (Or.inr (remote_of_count hZero))
  · exact hInv

theorem Restorable.lock (hInv : s.Restorable first) (j : Nat) :
    (s.step (.lock j)).Restorable first := by
  change (match s.drops[j]? with
    | some .restore => s.setDrop j (.restoring s.changedResolutions)
    | _ => s).Restorable first
  split
  · rename_i hRestore
    refine hInv.setDrop hRestore (fun _ => hInv.quiet _ (List.mem_of_getElem? hRestore) trivial)
      (fun left hLeft => ?_) nofun (Or.inl trivial)
    cases hLeft
    exact ⟨hInv.originals, fun _ hListed => Or.inr hListed⟩
  · exact hInv

/-- An original comes back. -/
theorem Restorable.changeBack (hInv : s.Restorable first) {display : String} {original : Resolution}
    (hOriginal : original = first display) : (s.changeResolution display original).Restorable first := by
  have hBack : ∀ name, s.resolutions name = first name →
      (s.changeResolution display original).resolutions name = first name := by
    intro name hName
    by_cases hThis : name = display
    · exact (if_pos hThis).trans (hOriginal.trans (congrArg first hThis).symm)
    · exact (if_neg hThis).trans hName
  exact {
    originals := hInv.originals
    unlisted := fun name hNot => hBack name (hInv.unlisted name hNot)
    read := hInv.read
    recorded := hInv.recorded
    quiet := hInv.quiet
    lefts := hInv.lefts
    restoring := fun left hDrop name hListed =>
      (hInv.restoring left hDrop name hListed).imp_left (hBack name)
    restored := fun hDrop name => hBack name (hInv.restored hDrop name)
    counted := hInv.counted }

theorem Restorable.restore (hInv : s.Restorable first) (j : Nat)
    (entry : String × ChangedResolution) : (s.step (.restore j entry)).Restorable first := by
  change (match s.drops[j]? with
    | some (.restoring left) =>
        if entry ∈ left then
          (s.changeResolution entry.1 entry.2.original).setDrop j (.restoring (left.erase entry))
        else if left = [] then s.setDrop j .clear else s
    | _ => s).Restorable first
  split
  · rename_i left hRestoring
    have hMem := List.mem_of_getElem? hRestoring
    have hQuiet := hInv.quiet _ hMem trivial
    split
    · rename_i hEntry
      have hOriginal := hInv.lefts left hMem entry hEntry
      have hBack := hInv.changeBack hOriginal
      refine hBack.setDrop hRestoring (fun _ => hQuiet) (fun rest hRest => ?_) nofun (Or.inl trivial)
      cases hRest
      refine ⟨fun other hOther => hInv.lefts left hMem other (List.mem_of_mem_erase hOther), ?_⟩
      intro name hListed
      by_cases hThis : name = entry.1
      · exact Or.inl ((if_pos hThis).trans (hOriginal.trans (congrArg first hThis).symm))
      · refine (hBack.restoring left hMem name hListed).imp_right ?_
        rintro ⟨other, hOther, rfl⟩
        exact ⟨other, (List.mem_erase_of_ne fun hSame => hThis (congrArg Prod.fst hSame)).mpr hOther, rfl⟩
    · split
      · rename_i hEmpty
        subst hEmpty
        refine hInv.setDrop hRestoring (fun _ => hQuiet) nofun (fun _ name => ?_) (Or.inl trivial)
        by_cases hListed : s.Listed name
        · exact (hInv.restoring [] hMem name hListed).resolve_right (by simp)
        · exact hInv.unlisted name hListed
      · exact hInv
  · exact hInv

theorem Restorable.clear (hInv : s.Restorable first) (j : Nat) :
    (s.step (.clear j)).Restorable first := by
  change (match s.drops[j]? with
    | some .clear => if s.Unread then { s.setDrop j .done with changedResolutions := [] } else s
    | _ => s).Restorable first
  split
  · rename_i hClear
    split
    · rename_i hUnread
      have hMem := List.mem_of_getElem? hClear
      have hAll := hInv.restored hMem
      have hQuiet := hInv.quiet _ hMem trivial
      have hOld : ∀ drop ∈ s.drops.set j .done, drop ≠ .done → drop ∈ s.drops :=
        fun drop hDrop hOther => (List.mem_or_eq_of_mem_set hDrop).resolve_right hOther
      refine {
        originals := nofun
        unlisted := fun name _ => hAll name
        read := fun change hChange hStage => absurd ((hQuiet change hChange).symm.trans hStage) nofun
        recorded := fun change hChange hStage =>
          absurd ((hQuiet change hChange).symm.trans hStage) nofun
        quiet := fun _ _ _ => hQuiet
        lefts := fun left hDrop => (hUnread _ (hOld _ hDrop nofun) trivial).elim
        restoring := fun left hDrop => (hUnread _ (hOld _ hDrop nofun) trivial).elim
        restored := fun _ => hAll
        counted := fun hSome => ?_ }
      rcases hSome with hNone | ⟨change, hChange, hStage⟩
      · exact absurd rfl hNone
      · exact absurd (hQuiet change hChange) hStage
    · exact hInv
  · exact hInv

theorem Restorable.step (hInv : s.Restorable first) (event : Event) (hNow : s.Undisturbed event) :
    (s.step event).Restorable first := by
  cases event with
  | authorize conn =>
      refine ⟨hInv.originals, hInv.unlisted, hInv.read, hInv.recorded, hInv.quiet, hInv.lefts,
        hInv.restoring, hInv.restored, fun hSome => (hInv.counted hSome).imp_left ?_⟩
      rintro ⟨remote, hRemote, hType⟩
      exact ⟨remote, List.mem_append_left _ hRemote, hType⟩
  | changeResolution display changed => exact hInv.changeResolution hNow
  | setLastChangedResolution i =>
      change (match s.changes[i]? with
        | some ⟨display, original, changed, .read⟩ =>
            if s.Unread then
              { s.setLastChangedResolution display original changed with
                changes := s.changes.set i ⟨display, original, changed, .recorded⟩ }
            else s
        | _ => s).Restorable first
      split
      · rename_i hChange
        split
        · exact hInv.record hChange
        · exact hInv
      · exact hInv
  | apply i =>
      change (match s.changes[i]? with
        | some ⟨display, original, changed, .recorded⟩ =>
            { s.changeResolution display changed with
              changes := s.changes.set i ⟨display, original, changed, .applied⟩ }
        | _ => s).Restorable first
      split
      · rename_i hChange
        exact hInv.apply hChange
      · exact hInv
  | drop connId => exact hInv.drop connId
  | count j => exact hInv.count hNow
  | lock j => exact hInv.lock j
  | restore j entry => exact hInv.restore j entry
  | clear j => exact hInv.clear j

end Steps

/-- After an undisturbed run, with nothing under way and no remote connection left, each display
has the resolution it had at first. -/
theorem resolutions_restored {first : String → Resolution} {events : List Event}
    (hRun : Trace.Always step Undisturbed (start first) events)
    (hQuiescent : (Trace.run step (start first) events).Quiescent)
    (hNone : ¬ (Trace.run step (start first) events).Remote) (display : String) :
    (Trace.run step (start first) events).resolutions display = first display :=
  (Trace.invariant_of_always step (Restorable first) (fun _ event hNow hInv => hInv.step event hNow)
    (restorable_start first) hRun).settled hQuiescent hNone display

def conn (id : Int) : AuthedConn := ⟨id, .remote, ⟨"peer", "name", 0⟩⟩

/-- One connection changes a display and leaves. -/
theorem resolutions_restored_one :
    (Trace.run step (start fun _ => (1920, 1080))
      [.authorize (conn 1), .changeResolution "a" (800, 600), .setLastChangedResolution 0, .apply 0,
        .drop 1, .count 0, .lock 0, .restore 0 ("a", ⟨(1920, 1080), (800, 600)⟩),
        .restore 0 ("", ⟨(0, 0), (0, 0)⟩), .clear 0]).resolutions "a" = (1920, 1080) :=
  resolutions_restored (by decide) ⟨by decide, by decide⟩ (by decide) "a"

/-- A connection changes a display again between its restoring and the clearing of the table. -/
def lateChange : List Event :=
  [.authorize (conn 1), .changeResolution "a" (800, 600), .setLastChangedResolution 0, .apply 0,
    .drop 1, .count 0, .lock 0, .restore 0 ("a", ⟨(1920, 1080), (800, 600)⟩),
    .restore 0 ("", ⟨(0, 0), (0, 0)⟩), .authorize (conn 2), .changeResolution "a" (640, 480),
    .setLastChangedResolution 1, .apply 1, .clear 0, .drop 2, .count 1, .lock 1,
    .restore 1 ("", ⟨(0, 0), (0, 0)⟩), .clear 1]

theorem late_change_stays :
    ¬ ((Trace.run step (start fun _ => (1920, 1080)) lateChange).Quiescent →
      ¬ (Trace.run step (start fun _ => (1920, 1080)) lateChange).Remote →
        (Trace.run step (start fun _ => (1920, 1080)) lateChange).resolutions "a" = (1920, 1080)) := by
  intro hRestored
  have hSame := hRestored ⟨by decide, by decide⟩ (by decide)
  exact absurd hSame (by decide)

end State

end HibtDesk.Display.Resolutions
