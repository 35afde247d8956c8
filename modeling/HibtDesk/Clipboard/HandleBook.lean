import HibtDesk.Library.BinarySearch
import Mathlib.Algebra.Order.Ring.Nat

/-! The handles over whole runs. The log of the calls says which handles are held on a node,
and the book of a session keeps, next to the log, the handles that stand on each node. -/
namespace HibtDesk.Clipboard.Handles

/-- What a call has done. A node is known by its place in the list. -/
inductive Outcome where
  | opened (index fh : Nat)
  | released (index fh : Nat)
  | loaded
  deriving DecidableEq, Repr

/-- A handle was returned by an open of the node since the list was loaded, and was not
released since. The latest outcome comes first. -/
def Held : List Outcome → Nat → Nat → Prop
  | [], _, _ => False
  | .opened i h :: past, index, fh => (i = index ∧ h = fh) ∨ Held past index fh
  | .released i h :: past, index, fh => ¬ (i = index ∧ h = fh) ∧ Held past index fh
  | .loaded :: _, _, _ => False

/-- A handle was returned by an open of some node. -/
def Returned (log : List Outcome) (fh : Nat) : Prop := ∃ index, .opened index fh ∈ log

/-- A handle was returned before the list was loaded. -/
def Before : List Outcome → Nat → Prop
  | [], _ => False
  | .opened _ _ :: past, fh => Before past fh
  | .released _ _ :: past, fh => Before past fh
  | .loaded :: past, fh => Returned past fh

theorem Before.returned {log : List Outcome} {fh : Nat} (hBefore : Before log fh) :
    Returned log fh := by
  induction log with
  | nil => cases hBefore
  | cons outcome past ih =>
      have hPast : Returned past fh := by
        cases outcome with
        | opened i h => exact ih hBefore
        | released i h => exact ih hBefore
        | loaded => exact hBefore
      obtain ⟨index, hMem⟩ := hPast
      exact ⟨index, List.mem_cons_of_mem _ hMem⟩

theorem Held.returned {log : List Outcome} {index fh : Nat} (hHeld : Held log index fh) :
    Returned log fh := by
  induction log with
  | nil => cases hHeld
  | cons outcome past ih =>
      cases outcome with
      | opened i h =>
          rcases hHeld with ⟨-, rfl⟩ | hHeld
          · exact ⟨i, List.mem_cons_self⟩
          · obtain ⟨place, hMem⟩ := ih hHeld
            exact ⟨place, List.mem_cons_of_mem _ hMem⟩
      | released i h =>
          obtain ⟨place, hMem⟩ := ih hHeld.2
          exact ⟨place, List.mem_cons_of_mem _ hMem⟩
      | loaded => cases hHeld

/-- What the handles come to: those on each node in the order in which they stand there, the
one that is given out next, and what the calls have done. -/
structure Book where
  handles : Nat → List Nat
  next : Nat
  log : List Outcome

namespace Book

def opened (book : Book) (index : Nat) : Book where
  handles := Function.update book.handles index (book.handles index ++ [book.next])
  next := (book.next + 1) % 2 ^ 64
  log := .opened index book.next :: book.log

/-- The handle was found at a place. -/
def released (book : Book) (index fh place : Nat) : Book where
  handles := Function.update book.handles index ((book.handles index).eraseIdx place)
  next := book.next
  log := .released index fh :: book.log

def loaded (book : Book) : Book := ⟨fun _ => [], book.next, .loaded :: book.log⟩

/-- The next handle is larger than all on the node, and was not used for an earlier list. -/
def Fresh (book : Book) (index : Nat) : Prop :=
  (∀ fh ∈ book.handles index, fh < book.next) ∧ ¬ Before book.log book.next

/-- What stands on the nodes is in order, and is what is held. -/
structure Sound (book : Book) : Prop where
  increasing : ∀ index, (book.handles index).Pairwise (· < ·)
  held : ∀ index fh, fh ∈ book.handles index ↔ Held book.log index fh
  current : ∀ index fh, fh ∈ book.handles index → ¬ Before book.log fh

variable {book : Book} {index fh place : Nat}

theorem Sound.loaded (book : Book) : book.loaded.Sound where
  increasing := fun _ => List.Pairwise.nil
  held := fun _ _ => iff_of_false List.not_mem_nil id
  current := fun _ _ hMem => absurd hMem List.not_mem_nil

theorem handles_opened (book : Book) (index i : Nat) :
    (book.opened index).handles i =
      if i = index then book.handles index ++ [book.next] else book.handles i :=
  Function.update_apply ..

theorem handles_released (book : Book) (index fh place i : Nat) :
    (book.released index fh place).handles i =
      if i = index then (book.handles index).eraseIdx place else book.handles i :=
  Function.update_apply ..

theorem mem_opened (i : Nat) :
    fh ∈ (book.opened index).handles i ↔ (index = i ∧ book.next = fh) ∨ fh ∈ book.handles i := by
  rw [handles_opened]
  by_cases hSame : i = index
  · subst hSame
    rw [if_pos rfl, List.mem_append, List.mem_singleton, or_comm, eq_comm, and_iff_right rfl]
  · rw [if_neg hSame]
    exact ⟨Or.inr, fun h => h.resolve_left fun h => hSame h.1.symm⟩

/-- A fresh handle comes last. -/
theorem Sound.opened (hSound : book.Sound) (hFresh : book.Fresh index) : (book.opened index).Sound where
  increasing := by
    intro i
    rw [handles_opened]
    split
    · refine List.pairwise_append.mpr ⟨hSound.increasing index, List.pairwise_singleton _ _, ?_⟩
      intro fh hMem next hNext
      rw [List.mem_singleton.mp hNext]
      exact hFresh.1 fh hMem
    · exact hSound.increasing i
  held := by
    intro i fh
    rw [mem_opened, hSound.held]
    exact Iff.rfl
  current := by
    intro i fh hMem
    rcases (mem_opened i).mp hMem with ⟨-, rfl⟩ | hMem
    · exact hFresh.2
    · exact hSound.current i fh hMem

theorem mem_released (hSound : book.Sound) (hFound : BinarySearch.search (book.handles index) fh = .ok place)
    (i h : Nat) :
    h ∈ (book.released index fh place).handles i ↔ ¬ (index = i ∧ fh = h) ∧ h ∈ book.handles i := by
  have hNodup : (book.handles index).Nodup := (hSound.increasing index).imp ne_of_lt
  rw [handles_released, BinarySearch.eraseIdx_of_search (hSound.increasing index) hFound]
  by_cases hSame : i = index
  · subst hSame
    rw [if_pos rfl, hNodup.mem_erase_iff, and_iff_right rfl, ne_comm]
  · rw [if_neg hSame]
    exact (and_iff_right fun h => hSame h.1.symm).symm

/-- What is found is removed, and nothing else is. -/
theorem Sound.released (hSound : book.Sound)
    (hFound : BinarySearch.search (book.handles index) fh = .ok place) :
    (book.released index fh place).Sound where
  increasing := by
    intro i
    rw [handles_released]
    split
    · exact (hSound.increasing index).sublist (List.eraseIdx_sublist _ _)
    · exact hSound.increasing i
  held := by
    intro i h
    rw [mem_released hSound hFound, hSound.held]
    exact Iff.rfl
  current := by
    intro i h hMem
    exact hSound.current i h ((mem_released hSound hFound i h).mp hMem).2

/-- What a call that opens nothing does to the handles. -/
inductive Moves (book : Book) : Book → Prop where
  | stays : Moves book book
  | loads : Moves book book.loaded
  | releases {index fh place : Nat} (hFound : BinarySearch.search (book.handles index) fh = .ok place) :
      Moves book (book.released index fh place)

theorem Moves.sound {book after : Book} (hSound : book.Sound) (hMoves : Moves book after) :
    after.Sound := by
  cases hMoves with
  | stays => exact hSound
  | loads => exact Book.Sound.loaded book
  | releases hFound => exact hSound.released hFound

/-- So many handles were given out, counting from zero. -/
structure Counted (book : Book) (count : Nat) : Prop where
  sound : book.Sound
  next : book.next = count % 2 ^ 64
  below : ∀ fh, Returned book.log fh → fh < count

theorem Counted.moves {book after : Book} {count : Nat} (hCounted : Counted book count)
    (hMoves : Moves book after) : Counted after count := by
  refine ⟨Moves.sound hCounted.sound hMoves, ?_, ?_⟩
  · cases hMoves with
    | stays => exact hCounted.next
    | loads => exact hCounted.next
    | releases hFound => exact hCounted.next
  · rintro fh ⟨index, hMem⟩
    refine hCounted.below fh ⟨index, ?_⟩
    cases hMoves with
    | stays => exact hMem
    | loads => exact (List.mem_cons.mp hMem).resolve_left (fun h => by cases h)
    | releases hFound => exact (List.mem_cons.mp hMem).resolve_left (fun h => by cases h)

/-- As long as the counter has not come round, a handle is larger than all before it. -/
theorem Counted.fresh {book : Book} {count : Nat} (hCounted : Counted book count)
    (hFew : count < 2 ^ 64) (index : Nat) : book.Fresh index := by
  have hNext : book.next = count := by rw [hCounted.next, Nat.mod_eq_of_lt hFew]
  constructor
  · intro fh hMem
    rw [hNext]
    exact hCounted.below fh ((hCounted.sound.held index fh).mp hMem).returned
  · intro hBefore
    have hBelow := hCounted.below _ hBefore.returned
    rw [hNext] at hBelow
    exact lt_irrefl _ hBelow

theorem Counted.opened {book : Book} {count : Nat} (hCounted : Counted book count)
    (hFew : count < 2 ^ 64) (index : Nat) : Counted (book.opened index) (count + 1) := by
  have hNext : book.next = count := by rw [hCounted.next, Nat.mod_eq_of_lt hFew]
  refine ⟨hCounted.sound.opened (hCounted.fresh hFew index), ?_, ?_⟩
  · rw [Book.opened, hNext]
  · rintro fh ⟨i, hMem⟩
    rcases List.mem_cons.mp hMem with hOpened | hMem
    · injection hOpened with _ hSame
      rw [hSame, hNext]
      exact Nat.lt_succ_self count
    · exact Nat.lt_succ_of_lt (hCounted.below fh ⟨i, hMem⟩)

end Book

end HibtDesk.Clipboard.Handles
