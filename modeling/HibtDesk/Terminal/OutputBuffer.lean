import Mathlib.Algebra.Order.Ring.Int
import HibtDesk.Common.Options
import HibtDesk.Library.Trace

/-! The output a terminal keeps for a peer that reconnects: lines, their total
size, and whether the last of them still waits for its newline. Old lines are
dropped once there is too much. -/
namespace HibtDesk.Terminal

def maxOutputBufferSize : Nat := 1024 * 1024

def maxBufferLines : Nat := 10000

def newline : UInt8 := 10

structure OutputBuffer where
  lines : List Bytes
  totalSize : Nat
  lastLineIncomplete : Bool
  deriving DecidableEq, Repr

/-- How the loop that drops old lines goes wrong. -/
inductive TrimFault where
  /-- More is subtracted than was counted: a checked build panics, and a release
  build wraps, drops every line and goes on for ever. -/
  | underflow
  /-- The loop is entered with no line to drop. -/
  | spins
  deriving DecidableEq, Repr

namespace OutputBuffer

def new : OutputBuffer := { lines := [], totalSize := 0, lastLineIncomplete := false }

/-- The bytes in the stored lines. -/
def stored (lines : List Bytes) : Nat := (lines.map List.length).sum

def pushBack (buffer : OutputBuffer) (line : Bytes) : OutputBuffer :=
  { buffer with lines := buffer.lines ++ [line], totalSize := buffer.totalSize + line.length }

/-- The loop over the pieces between newlines. -/
def pushLines (endsWithNewline : Bool) (buffer : OutputBuffer) : List Bytes → OutputBuffer
  | [] => buffer
  | [line] =>
      let buffer :=
        if !endsWithNewline && !line.isEmpty then { buffer with lastLineIncomplete := true }
        else buffer
      if line.isEmpty then buffer
      else buffer.pushBack (if endsWithNewline then line ++ [newline] else line)
  | line :: rest => pushLines endsWithNewline (buffer.pushBack (line ++ [newline])) rest

/-- The loop that drops old lines. -/
def trim : List Bytes → Nat → Except TrimFault (List Bytes × Nat)
  | [], totalSize =>
      if maxOutputBufferSize < totalSize then .error .spins else .ok ([], totalSize)
  | removed :: rest, totalSize =>
      if maxOutputBufferSize < totalSize ∨ maxBufferLines < (removed :: rest).length then
        if totalSize < removed.length then .error .underflow
        else trim rest (totalSize - removed.length)
      else .ok (removed :: rest, totalSize)

/-- What `append` does with the data no unfinished line takes. -/
def appendRemaining (buffer : OutputBuffer) (remaining : Bytes) : Except TrimFault OutputBuffer :=
  let endsWithNewline := remaining.getLast? == some newline
  let buffer := buffer.pushLines endsWithNewline (remaining.splitOn newline)
  match trim buffer.lines buffer.totalSize with
  | .ok (lines, totalSize) => .ok { buffer with lines := lines, totalSize := totalSize }
  | .error fault => .error fault

/-- Add data to the last line. -/
def extendLast (data : Bytes) : List Bytes → List Bytes
  | [] => []
  | [last] => [last ++ data]
  | line :: rest => line :: extendLast data rest

def append (buffer : OutputBuffer) (data : Bytes) : Except TrimFault OutputBuffer :=
  if data.isEmpty then .ok buffer
  else if buffer.lastLineIncomplete && !buffer.lines.isEmpty then
    match data.idxOf? newline with
    | some newlinePos =>
        -- The size of what is added to the line is not counted here.
        appendRemaining
          { buffer with
            lines := extendLast (data.take (newlinePos + 1)) buffer.lines
            lastLineIncomplete := false }
          (data.drop (newlinePos + 1))
    | none =>
        .ok
          { buffer with
            lines := extendLast data buffer.lines
            totalSize := buffer.totalSize + data.length }
  else buffer.appendRemaining data

/-- The data brings the newline an unfinished line waits for. -/
def Completes (buffer : OutputBuffer) (data : Bytes) : Prop :=
  buffer.lastLineIncomplete = true ∧ buffer.lines ≠ [] ∧ newline ∈ data

/-- The lines hold `missing` bytes more than are counted. -/
def Short (missing : Nat) (buffer : OutputBuffer) : Prop :=
  buffer.totalSize + missing = stored buffer.lines

section Accounting
variable {buffer : OutputBuffer} {missing : Nat}

@[simp] theorem stored_append (first second : List Bytes) :
    stored (first ++ second) = stored first + stored second := by
  simp [stored]

@[simp] theorem stored_cons (line : Bytes) (lines : List Bytes) :
    stored (line :: lines) = line.length + stored lines := by
  simp [stored]

@[simp] theorem stored_nil : stored [] = 0 := rfl

theorem stored_extendLast (data : Bytes) {lines : List Bytes} (hSome : lines ≠ []) :
    stored (extendLast data lines) = stored lines + data.length := by
  induction lines with
  | nil => exact absurd rfl hSome
  | cons line rest ih =>
      cases rest with
      | nil => simp [extendLast]
      | cons next rest =>
          rw [extendLast, stored_cons, stored_cons line, ih (by simp)]
          · omega
          · simp

theorem Short.pushBack (hShort : buffer.Short missing) (line : Bytes) :
    (buffer.pushBack line).Short missing := by
  have hCounted : buffer.totalSize + missing = stored buffer.lines := hShort
  show buffer.totalSize + line.length + missing = stored (buffer.lines ++ [line])
  simp only [stored_append, stored_cons, stored_nil]
  omega

theorem Short.pushLines (hShort : buffer.Short missing) (endsWithNewline : Bool)
    (pieces : List Bytes) : (buffer.pushLines endsWithNewline pieces).Short missing := by
  induction pieces generalizing buffer with
  | nil => exact hShort
  | cons line rest ih =>
      cases rest with
      | nil =>
          have hMarked : ({ buffer with lastLineIncomplete := true } : OutputBuffer).Short missing :=
            hShort
          unfold OutputBuffer.pushLines
          dsimp only
          split
          · split
            · exact hMarked
            · exact hShort
          · split
            · exact hMarked.pushBack _
            · exact hShort.pushBack _
      | cons next rest => exact ih (hShort.pushBack _)

/-- Dropping lines takes the same from the lines and from the count. -/
theorem trim_short {lines : List Bytes} {totalSize : Nat} {left : List Bytes × Nat}
    (hShort : totalSize + missing = stored lines) (hTrim : trim lines totalSize = .ok left) :
    left.2 + missing = stored left.1 := by
  induction lines generalizing totalSize with
  | nil =>
      simp only [trim] at hTrim
      split at hTrim
      · cases hTrim
      · cases hTrim
        exact hShort
  | cons removed rest ih =>
      simp only [trim] at hTrim
      split at hTrim
      · split at hTrim
        · cases hTrim
        · refine ih ?_ hTrim
          rw [stored_cons] at hShort
          omega
      · cases hTrim
        exact hShort

/-- The loop ends, without an underflow, if the count is exact. -/
theorem trim_isOk (lines : List Bytes) : ∃ left, trim lines (stored lines) = .ok left := by
  induction lines with
  | nil => exact ⟨_, rfl⟩
  | cons removed rest ih =>
      simp only [trim, stored_cons]
      split
      · rw [if_neg (by omega), Nat.add_sub_cancel_left]
        exact ih
      · exact ⟨_, rfl⟩

theorem Short.appendRemaining {after : OutputBuffer} (hShort : buffer.Short missing)
    {remaining : Bytes} (hAppend : buffer.appendRemaining remaining = .ok after) :
    after.Short missing := by
  unfold OutputBuffer.appendRemaining at hAppend
  have hPushed := hShort.pushLines (remaining.getLast? == some newline) (remaining.splitOn newline)
  dsimp only at hAppend
  split at hAppend
  next lines totalSize hTrim =>
    cases hAppend
    exact trim_short hPushed hTrim
  next => cases hAppend

theorem appendRemaining_isOk (hExact : buffer.Short 0) (remaining : Bytes) :
    ∃ after, buffer.appendRemaining remaining = .ok after := by
  have hPushed : _ = _ :=
    hExact.pushLines (remaining.getLast? == some newline) (remaining.splitOn newline)
  obtain ⟨left, hTrim⟩ := trim_isOk
    (buffer.pushLines (remaining.getLast? == some newline) (remaining.splitOn newline)).lines
  unfold OutputBuffer.appendRemaining
  rw [← hPushed, Nat.add_zero] at hTrim
  dsimp only
  rw [hTrim]
  exact ⟨_, rfl⟩

/-- A call that completes no line keeps the count exact, and returns. -/
theorem append_exact {data : Bytes} (hExact : buffer.Short 0) (hPlain : ¬ buffer.Completes data) :
    ∃ after, buffer.append data = .ok after ∧ after.Short 0 := by
  unfold append
  split
  · exact ⟨buffer, rfl, hExact⟩
  · split
    next hWaits =>
      obtain ⟨hIncomplete, hLines⟩ := Bool.and_eq_true_iff.mp hWaits
      have hLines : buffer.lines ≠ [] := by simpa using hLines
      have hFree : newline ∉ data := fun hIn => hPlain ⟨hIncomplete, hLines, hIn⟩
      rw [List.idxOf?_eq_none_iff.mpr hFree]
      refine ⟨_, rfl, ?_⟩
      have hCounted : buffer.totalSize + 0 = stored buffer.lines := hExact
      show buffer.totalSize + data.length + 0 = stored (extendLast data buffer.lines)
      rw [stored_extendLast data hLines]
      omega
    next =>
      obtain ⟨after, hAppend⟩ := appendRemaining_isOk hExact data
      exact ⟨after, hAppend, hExact.appendRemaining hAppend⟩

/-- A call that completes a line leaves the count too small, if it returns. -/
theorem append_completes {data : Bytes} {after : OutputBuffer} (hExact : buffer.Short 0)
    (hCompletes : buffer.Completes data) (hAppend : buffer.append data = .ok after) :
    ¬ after.Short 0 := by
  obtain ⟨hIncomplete, hLines, hIn⟩ := hCompletes
  have hSome : data.isEmpty = false := by
    rw [List.isEmpty_eq_false_iff]
    exact List.ne_nil_of_mem hIn
  obtain ⟨newlinePos, hPos⟩ := Option.ne_none_iff_exists'.mp
    (mt List.idxOf?_eq_none_iff.mp (not_not_intro hIn))
  have hInside : newlinePos < data.length := by
    have hFound := List.findIdx?_eq_some_iff_findIdx_eq.mp hPos
    exact hFound.1
  unfold append at hAppend
  simp only [hSome, hIncomplete, hPos, Bool.true_and, List.isEmpty_eq_false_iff.mpr hLines,
    Bool.false_eq_true, if_false, Bool.not_false, if_true] at hAppend
  have hShort : ({ buffer with
      lines := extendLast (data.take (newlinePos + 1)) buffer.lines
      lastLineIncomplete := false } : OutputBuffer).Short (newlinePos + 1) := by
    have hCounted : buffer.totalSize + 0 = stored buffer.lines := hExact
    show buffer.totalSize + (newlinePos + 1) =
      stored (extendLast (data.take (newlinePos + 1)) buffer.lines)
    rw [stored_extendLast _ hLines, List.length_take, Nat.min_eq_left hInside]
    omega
  have hAfter : after.totalSize + (newlinePos + 1) = stored after.lines :=
    hShort.appendRemaining hAppend
  intro hAgain
  have hSame : after.totalSize + 0 = stored after.lines := hAgain
  omega

end Accounting

/-- A row of calls, until one of them faults. -/
def appendStep (now : Except TrimFault OutputBuffer) (data : Bytes) :
    Except TrimFault OutputBuffer :=
  now.bind fun buffer => buffer.append data

/-- The calls so far have returned, and the count is that of the stored lines. -/
def Accounted : Except TrimFault OutputBuffer → Prop
  | .ok buffer => buffer.totalSize = stored buffer.lines
  | .error _ => False

/-- The next call completes an unfinished line. -/
def CompletesLine : Except TrimFault OutputBuffer → Bytes → Prop
  | .ok buffer, data => buffer.Completes data
  | .error _, _ => False

theorem accounted_step (now : Except TrimFault OutputBuffer) (data : Bytes)
    (hNow : Accounted now) : Accounted (appendStep now data) ↔ ¬ CompletesLine now data := by
  cases now with
  | error fault => exact hNow.elim
  | ok buffer =>
      have hExact : buffer.Short 0 := hNow
      show Accounted (buffer.append data) ↔ ¬ buffer.Completes data
      constructor
      · intro hAfter hCompletes
        cases hAppend : buffer.append data with
        | error fault =>
            rw [hAppend] at hAfter
            exact hAfter
        | ok after =>
            rw [hAppend] at hAfter
            exact append_completes hExact hCompletes hAppend hAfter
      · intro hPlain
        obtain ⟨after, hAppend, hAfter⟩ := append_exact hExact hPlain
        rw [hAppend]
        exact hAfter

/-- All calls return with an exact count just if none of them completes a line
that an earlier one left unfinished. -/
theorem append_calls_accounted_iff (calls : List Bytes) :
    (∀ past, past <+: calls → Accounted (Trace.run appendStep (.ok .new) past)) ↔
      Trace.Always appendStep (fun now data => ¬ CompletesLine now data) (.ok .new) calls := by
  have hNew : Accounted (.ok .new) := rfl
  exact Trace.invariant_iff_always appendStep Accounted accounted_step hNew calls

/-- The letters `a` and `b` with a newline make a line of three bytes that is
counted as one. -/
theorem completed_line_uncounted :
    Trace.run appendStep (.ok .new) [[97], [98, 10]] =
        .ok { lines := [[97, 98, 10]], totalSize := 1, lastLineIncomplete := false } ∧
      ¬ ∀ past, past <+: [[97], [98, 10]] → Accounted (Trace.run appendStep (.ok .new) past) := by
  have hRun : Trace.run appendStep (.ok .new) [[97], [98, 10]] =
      .ok { lines := [[97, 98, 10]], totalSize := 1, lastLineIncomplete := false } := by
    decide
  refine ⟨hRun, fun hAll => ?_⟩
  have hLast := hAll [[97], [98, 10]] (List.prefix_refl _)
  rw [hRun] at hLast
  have hCount : 1 = 3 := hLast
  omega

end OutputBuffer

end HibtDesk.Terminal
