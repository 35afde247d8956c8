import Mathlib.Algebra.Order.Ring.Nat
import Mathlib.Data.List.Nodup

/-! Binary search in a sorted list. Nothing is said about what it finds in a list that is not
sorted. -/
namespace BinarySearch

variable {α : Type*} [LinearOrder α]

/-- The search in the `size` elements from `left` on. It ends with the place of the element, or
with the one where it belongs. -/
def searchFrom (xs : List α) (x : α) (left size : Nat) : Except Nat Nat :=
  if _hSize : 0 < size then
    match xs[left + size / 2]? with
    | none => .error left
    | some y =>
        if y < x then searchFrom xs x (left + size / 2 + 1) (size - size / 2 - 1)
        else if x < y then searchFrom xs x left (size / 2)
        else .ok (left + size / 2)
  else .error left
termination_by size

def search (xs : List α) (x : α) : Except Nat Nat := searchFrom xs x 0 xs.length

variable {xs : List α} {x : α} {left size i : Nat}

/-- What is found is there. -/
theorem getElem?_of_searchFrom (hFound : searchFrom xs x left size = .ok i) : xs[i]? = some x := by
  induction left, size using searchFrom.induct xs x with
  | case1 left size hSize hNone =>
      rw [searchFrom, dif_pos hSize, hNone] at hFound
      cases hFound
  | case2 left size hSize y hMid hLess ih =>
      rw [searchFrom, dif_pos hSize, hMid] at hFound
      dsimp only at hFound
      rw [if_pos hLess] at hFound
      exact ih hFound
  | case3 left size hSize y hMid hNotLess hMore ih =>
      rw [searchFrom, dif_pos hSize, hMid] at hFound
      dsimp only at hFound
      rw [if_neg hNotLess, if_pos hMore] at hFound
      exact ih hFound
  | case4 left size hSize y hMid hNotLess hNotMore =>
      rw [searchFrom, dif_pos hSize, hMid] at hFound
      dsimp only at hFound
      rw [if_neg hNotLess, if_neg hNotMore] at hFound
      obtain rfl := Except.ok.inj hFound
      rw [hMid, le_antisymm (not_lt.mp hNotMore) (not_lt.mp hNotLess)]
  | case5 left size hSize =>
      rw [searchFrom, dif_neg hSize] at hFound
      cases hFound

/-- What is among the elements that are searched is found. -/
theorem searchFrom_of_getElem? (hSorted : xs.Pairwise (· ≤ ·)) (hBound : left + size ≤ xs.length)
    (hLeft : left ≤ i) (hRight : i < left + size) (hThere : xs[i]? = some x) :
    ∃ j, searchFrom xs x left size = .ok j := by
  have hOrder : ∀ (j k : Nat) (y z : α), xs[j]? = some y → xs[k]? = some z → j ≤ k → y ≤ z := by
    intro j k y z hJ hK hLe
    rcases Nat.eq_or_lt_of_le hLe with rfl | hLt
    · exact le_of_eq (Option.some.inj (hJ.symm.trans hK))
    · obtain ⟨hJLt, rfl⟩ := List.getElem?_eq_some_iff.mp hJ
      obtain ⟨hKLt, rfl⟩ := List.getElem?_eq_some_iff.mp hK
      exact List.pairwise_iff_getElem.mp hSorted j k hJLt hKLt hLt
  induction left, size using searchFrom.induct xs x with
  | case1 left size hSize hNone =>
      have hLong : xs.length ≤ left + size / 2 := List.getElem?_eq_none_iff.mp hNone
      omega
  | case2 left size hSize y hMid hLess ih =>
      rw [searchFrom, dif_pos hSize, hMid]
      dsimp only
      rw [if_pos hLess]
      have hAfter : left + size / 2 < i := by
        by_contra hBefore
        exact absurd (hOrder i _ x y hThere hMid (Nat.le_of_not_lt hBefore)) (not_le.mpr hLess)
      exact ih (by omega) (by omega) (by omega)
  | case3 left size hSize y hMid hNotLess hMore ih =>
      rw [searchFrom, dif_pos hSize, hMid]
      dsimp only
      rw [if_neg hNotLess, if_pos hMore]
      have hBefore : i < left + size / 2 := by
        by_contra hAfter
        exact absurd (hOrder _ i y x hMid hThere (Nat.le_of_not_lt hAfter)) (not_le.mpr hMore)
      exact ih (by omega) hLeft (by omega)
  | case4 left size hSize y hMid hNotLess hNotMore =>
      rw [searchFrom, dif_pos hSize, hMid]
      dsimp only
      rw [if_neg hNotLess, if_neg hNotMore]
      exact ⟨_, rfl⟩
  | case5 left size hSize => omega

/-- In a sorted list exactly the elements are found. -/
theorem search_isOk_iff (hSorted : xs.Pairwise (· ≤ ·)) : (search xs x).isOk = true ↔ x ∈ xs := by
  constructor
  · intro hOk
    cases hFound : search xs x with
    | error i =>
        rw [hFound] at hOk
        cases hOk
    | ok i => exact List.mem_of_getElem? (getElem?_of_searchFrom hFound)
  · intro hMem
    obtain ⟨i, hThere⟩ := List.getElem?_of_mem hMem
    have hLess : i < xs.length := (List.getElem?_eq_some_iff.mp hThere).1
    obtain ⟨j, hFound⟩ := searchFrom_of_getElem? hSorted (Nat.le_of_eq (Nat.zero_add _)) (Nat.zero_le i)
      (by rwa [Nat.zero_add]) hThere
    unfold search
    rw [hFound]
    rfl

/-- Removing what was found from where it was found. -/
theorem eraseIdx_of_search (hSorted : xs.Pairwise (· < ·)) (hFound : search xs x = .ok i) :
    xs.eraseIdx i = xs.erase x := by
  have hThere := getElem?_of_searchFrom hFound
  obtain ⟨hLess, rfl⟩ := List.getElem?_eq_some_iff.mp hThere
  have hNodup : xs.Nodup := hSorted.imp ne_of_lt
  exact (List.erase_eq_eraseIdx_of_idxOf (hNodup.idxOf_getElem i hLess)).symm

end BinarySearch
