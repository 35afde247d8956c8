import HibtDesk.Library.Disk

/-! A file that is written while others read it. It only gets longer, except that the bytes
at its head may be written again, so whatever was read behind the head stays right. -/
namespace Growing

open Storage (overwrite)

variable {Byte : Type}

/-- A later state of a file: it is as long or longer, and the same behind the head. -/
structure Grows (head : Nat) (old new : List Byte) : Prop where
  length_le : old.length ≤ new.length
  same : ∀ i, head ≤ i → i < old.length → new[i]? = old[i]?

section Grows
variable {head : Nat} {old new : List Byte}

theorem Grows.refl (head : Nat) (content : List Byte) : Grows head content content :=
  ⟨Nat.le_refl _, fun _ _ _ => rfl⟩

theorem grows_nil (head : Nat) (content : List Byte) : Grows head [] content :=
  ⟨Nat.zero_le _, fun _ _ hLess => absurd hLess (Nat.not_lt_zero _)⟩

theorem getElem?_overwrite (zero : Byte) (content data : List Byte) {pos : Nat}
    (hPos : pos ≤ content.length) (i : Nat) :
    (overwrite zero content pos data)[i]? =
      if i < pos then content[i]?
      else if i < pos + data.length then data[i - pos]? else content[i]? := by
  have hGap : pos - content.length = 0 := by omega
  have hTake : (content.take pos).length = pos := List.length_take_of_le hPos
  unfold overwrite
  rw [hGap, List.replicate_zero, List.append_nil, List.append_assoc]
  by_cases hBefore : i < pos
  · rw [if_pos hBefore, List.getElem?_append_left (by omega), List.getElem?_take_of_lt hBefore]
  · rw [if_neg hBefore, List.getElem?_append_right (by omega), hTake]
    by_cases hIn : i < pos + data.length
    · rw [if_pos hIn, List.getElem?_append_left (by omega)]
    · rw [if_neg hIn, List.getElem?_append_right (by omega), List.getElem?_drop]
      congr 1
      omega

theorem length_overwrite (zero : Byte) (content data : List Byte) {pos : Nat}
    (hPos : pos ≤ content.length) :
    (overwrite zero content pos data).length = max content.length (pos + data.length) := by
  have hGap : pos - content.length = 0 := by omega
  unfold overwrite
  rw [hGap, List.replicate_zero, List.append_nil, List.length_append, List.length_append,
    List.length_take, List.length_drop]
  omega

/-- A copy that lags behind is brought on by a part that is right behind the head. -/
theorem Grows.written (hGrows : Grows head old new) (zero : Byte) {pos : Nat} {data : List Byte}
    (hPos : pos ≤ old.length) (hEnd : pos + data.length ≤ new.length)
    (hData : ∀ i, head ≤ pos + i → i < data.length → new[pos + i]? = data[i]?) :
    Grows head (overwrite zero old pos data) new where
  length_le := by
    rw [length_overwrite zero old data hPos]
    exact Nat.max_le.mpr ⟨hGrows.length_le, hEnd⟩
  same i hHead hLess := by
    rw [length_overwrite zero old data hPos] at hLess
    rw [getElem?_overwrite zero old data hPos]
    by_cases hBefore : i < pos
    · rw [if_pos hBefore]
      exact hGrows.same i hHead (by omega)
    · rw [if_neg hBefore]
      by_cases hIn : i < pos + data.length
      · rw [if_pos hIn]
        have hSplit : pos + (i - pos) = i := by omega
        have hSame := hData (i - pos) (by omega) (by omega)
        rwa [hSplit] at hSame
      · rw [if_neg hIn]
        exact hGrows.same i hHead (by omega)

/-- A copy of full length is right once the head is written over. -/
theorem Grows.headWritten (hGrows : Grows head old new) (zero : Byte) (hLength : old.length = new.length) :
    overwrite zero old 0 (new.take head) = new := by
  apply List.ext_getElem?
  intro i
  rw [getElem?_overwrite zero old _ (Nat.zero_le _), if_neg (Nat.not_lt_zero i), Nat.zero_add,
    Nat.sub_zero, List.length_take]
  by_cases hHead : i < min head new.length
  · rw [if_pos hHead, List.getElem?_take_of_lt (by omega)]
  · rw [if_neg hHead]
    by_cases hLess : i < new.length
    · exact (hGrows.same i (by omega) (by omega)).symm
    · rw [List.getElem?_eq_none (by omega), List.getElem?_eq_none (by omega)]

end Grows

/-- A file over time. It grows, and it stays as it is once it is finished. -/
structure History (Byte : Type) (head : Nat) where
  content : Nat → List Byte
  finished : Nat
  grows : ∀ earlier later, earlier ≤ later → Grows head (content earlier) (content later)
  final : ∀ time, finished ≤ time → content time = content finished

namespace History
variable {head : Nat} (file : History Byte head)

/-- What the file is in the end. -/
def whole : List Byte := file.content file.finished

theorem grows_whole (time : Nat) : Grows head (file.content time) file.whole := by
  rcases Nat.le_total time file.finished with hBefore | hAfter
  · exact file.grows time file.finished hBefore
  · rw [file.final time hAfter]
    exact Grows.refl head _

/-- Read on until nothing more comes. Each read has a time and room for some bytes; without
an empty read it has failed. -/
def readToEnd (pos : Nat) : List (Nat × Nat) → Option (List Byte)
  | [] => none
  | (time, room) :: rest =>
      let got := ((file.content time).drop pos).take room
      if got.isEmpty then some [] else (readToEnd (pos + got.length) rest).map (got ++ ·)

/-- What was read reaches to where the file ended before, and is right behind the head. -/
theorem readToEnd_spec {start : Nat} {reads : List (Nat × Nat)} (hLater : ∀ read ∈ reads, start ≤ read.1)
    (hRoom : ∀ read ∈ reads, 0 < read.2) {pos : Nat} {data : List Byte}
    (hPos : pos ≤ file.whole.length) (hRead : file.readToEnd pos reads = some data) :
    (file.content start).length ≤ pos + data.length ∧ pos + data.length ≤ file.whole.length ∧
      ∀ i, head ≤ pos + i → i < data.length → file.whole[pos + i]? = data[i]? := by
  induction reads generalizing pos data with
  | nil => cases hRead
  | cons read rest ih =>
      obtain ⟨time, room⟩ := read
      have hWhole := file.grows_whole time
      have hStart := (file.grows start time (hLater _ List.mem_cons_self)).length_le
      have hSome : 0 < room := hRoom (time, room) List.mem_cons_self
      unfold readToEnd at hRead
      dsimp only at hRead
      split at hRead
      · rename_i hEmpty
        cases hRead
        have hLength := congrArg List.length (List.isEmpty_iff.mp hEmpty)
        rw [List.length_take, List.length_drop, List.length_nil] at hLength
        refine ⟨?_, hPos, fun i _ hLess => absurd hLess (Nat.not_lt_zero i)⟩
        rw [List.length_nil]
        omega
      · obtain ⟨later, hRest, rfl⟩ := Option.map_eq_some_iff.mp hRead
        have hGot : (((file.content time).drop pos).take room).length =
            min room ((file.content time).length - pos) := by
          rw [List.length_take, List.length_drop]
        have hInside : pos + (((file.content time).drop pos).take room).length ≤ file.whole.length := by
          have hLe := hWhole.length_le
          omega
        obtain ⟨hReach, hEnd, hSame⟩ := ih (fun read hRead => hLater read (List.mem_cons_of_mem _ hRead))
          (fun read hRead => hRoom read (List.mem_cons_of_mem _ hRead)) hInside hRest
        rw [List.length_append]
        refine ⟨by omega, by omega, fun i hHead hLess => ?_⟩
        by_cases hFirst : i < (((file.content time).drop pos).take room).length
        · rw [List.getElem?_append_left hFirst, List.getElem?_take_of_lt (by omega), List.getElem?_drop]
          exact hWhole.same (pos + i) hHead (by omega)
        · rw [List.getElem?_append_right (by omega)]
          have hSplit : pos + (((file.content time).drop pos).take room).length +
              (i - (((file.content time).drop pos).take room).length) = pos + i := by omega
          rw [← hSplit]
          exact hSame _ (by omega) (by omega)

end History

end Growing
