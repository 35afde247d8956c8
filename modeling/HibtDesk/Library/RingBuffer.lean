import Mathlib.Data.Nat.Basic
import Mathlib.Data.List.Basic
import Mathlib.Data.List.Infix

/-! A buffer of bounded size that loses its oldest items, and what it means that whole
frames are lost. -/

/-- A buffer with room for some items, which stand in it from the oldest on, and what the
operations make of both. -/
class RingBuffer (Rb : Type*) (Item : outParam Type*) where
  capacity : Rb → Nat
  items : Rb → List Item
  fits rb : (items rb).length ≤ capacity rb
  new : Nat → Rb
  capacity_new {room} : 0 < room → capacity (new room) = room
  items_new {room} : 0 < room → items (new room) = []
  /-- The oldest items are removed. -/
  skip : Rb → Nat → Rb
  capacity_skip rb count : capacity (skip rb count) = capacity rb
  items_skip rb count : items (skip rb count) = (items rb).drop count
  /-- Items are appended, and the oldest make room for them. -/
  pushSliceOverwrite : Rb → List Item → Rb
  capacity_pushSliceOverwrite rb elems : capacity (pushSliceOverwrite rb elems) = capacity rb
  items_pushSliceOverwrite rb elems : items (pushSliceOverwrite rb elems) =
    (items rb ++ elems).drop ((items rb ++ elems).length - capacity rb)
  /-- The oldest items are taken out. -/
  popSlice : Rb → Nat → List Item × Rb
  popSlice_fst rb count : (popSlice rb count).1 = (items rb).take count
  capacity_popSlice rb count : capacity (popSlice rb count).2 = capacity rb
  items_popSlice rb count : items (popSlice rb count).2 = (items rb).drop count

namespace RingBuffer
variable {Rb Item : Type*} [RingBuffer Rb Item]

theorem length_pushSliceOverwrite (rb : Rb) (elems : List Item) :
    (items (pushSliceOverwrite rb elems)).length = min (capacity rb) ((items rb).length + elems.length) := by
  rw [items_pushSliceOverwrite, List.length_drop, List.length_append]
  omega

/-- Room that is made before is room that would have been made. -/
theorem items_skip_pushSliceOverwrite (rb : Rb) {elems : List Item} (hElems : elems.length ≤ capacity rb) :
    items (pushSliceOverwrite (skip rb ((items rb).length + elems.length - capacity rb)) elems) =
      items (pushSliceOverwrite rb elems) := by
  have hSkip : (items rb).length + elems.length - capacity rb ≤ (items rb).length := by omega
  have hRoom : (items rb).length - ((items rb).length + elems.length - capacity rb) + elems.length -
      capacity rb = 0 := by omega
  rw [items_pushSliceOverwrite, items_pushSliceOverwrite, items_skip, capacity_skip, List.length_append,
    List.length_append, List.length_drop, hRoom, List.drop_zero]
  exact (List.drop_append_of_le_length hSkip).symm

end RingBuffer

/-- A ring buffer that is a list. -/
structure ListRb (Item : Type*) where
  capacity : Nat
  items : List Item
  fits : items.length ≤ capacity

namespace ListRb
variable {Item : Type*}

def skip (rb : ListRb Item) (count : Nat) : ListRb Item where
  capacity := rb.capacity
  items := rb.items.drop count
  fits := by
    rw [List.length_drop]
    exact (Nat.sub_le _ _).trans rb.fits

instance : RingBuffer (ListRb Item) Item where
  capacity := capacity
  items := items
  fits := fits
  new room := ⟨room, [], Nat.zero_le room⟩
  capacity_new := fun _ => rfl
  items_new := fun _ => rfl
  skip := skip
  capacity_skip := fun _ _ => rfl
  items_skip := fun _ _ => rfl
  pushSliceOverwrite rb elems :=
    { capacity := rb.capacity
      items := (rb.items ++ elems).drop ((rb.items ++ elems).length - rb.capacity)
      fits := by
        rw [List.length_drop]
        omega }
  capacity_pushSliceOverwrite := fun _ _ => rfl
  items_pushSliceOverwrite := fun _ _ => rfl
  popSlice rb count := (rb.items.take count, rb.skip count)
  popSlice_fst := fun _ _ => rfl
  capacity_popSlice := fun _ _ => rfl
  items_popSlice := fun _ _ => rfl

end ListRb

/-- `buffered` is what is left of `stream`, and whole groups of `width` are gone. -/
def WholeGone {Item : Type*} (width : Nat) (stream buffered : List Item) : Prop :=
  ∃ gone, width ∣ gone.length ∧ stream = gone ++ buffered

namespace WholeGone
variable {Item : Type*} {width : Nat} {stream buffered : List Item}

theorem suffix (h : WholeGone width stream buffered) : buffered <:+ stream := by
  obtain ⟨gone, -, rfl⟩ := h
  exact List.suffix_append gone buffered

theorem append (h : WholeGone width stream buffered) (elems : List Item) :
    WholeGone width (stream ++ elems) (buffered ++ elems) := by
  obtain ⟨gone, hGone, rfl⟩ := h
  exact ⟨gone, hGone, List.append_assoc ..⟩

/-- Whole groups, or all that there is. -/
theorem drop (h : WholeGone width stream buffered) {count : Nat}
    (hCount : width ∣ min count buffered.length) : WholeGone width stream (buffered.drop count) := by
  obtain ⟨gone, hGone, rfl⟩ := h
  refine ⟨gone ++ buffered.take count, ?_, ?_⟩
  · rw [List.length_append, List.length_take]
    exact Nat.dvd_add hGone hCount
  · rw [List.append_assoc, List.take_append_drop]

/-- What is left is in its place within a group. -/
theorem place (h : WholeGone width stream buffered) {j : Nat} {item : Item}
    (hItem : buffered[j]? = some item) : ∃ p, stream[p]? = some item ∧ p % width = j % width := by
  obtain ⟨gone, ⟨groups, hGone⟩, rfl⟩ := h
  refine ⟨gone.length + j, ?_, ?_⟩
  · rw [List.getElem?_append_right (Nat.le_add_right _ _), Nat.add_sub_cancel_left, hItem]
  · rw [hGone, Nat.mul_add_mod]

end WholeGone
