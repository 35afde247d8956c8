import HibtDesk.Library.Lines
import HibtDesk.Terminal.OutputBuffer

/-! What of the output of a terminal is in its buffer: its last lines, as they were written,
as long as old lines are dropped in time and no unfinished line has to be. -/
namespace HibtDesk.Terminal.OutputBuffer

/-- The loop of `get_recent`, over the lines from the last one on. -/
def recentLoop (maxBytes : Nat) : List Bytes → Nat → Bytes → Bytes
  | [], _, result => result
  | line :: rest, size, result =>
      if size + line.length > maxBytes then result
      else recentLoop maxBytes rest (size + line.length) (line ++ result)

def getRecent (buffer : OutputBuffer) (maxBytes : Nat) : Bytes :=
  recentLoop maxBytes buffer.lines.reverse 0 []

/-- What is stored is the end of what has been written, in lines; the flag tells whether
the last of them is unfinished; there is not too much of it; and what `get_recent` gives is
the last of these lines. -/
def Stores (past : List Bytes) (now : Except TrimFault OutputBuffer) : Prop :=
  ∃ buffer, now = .ok buffer ∧
    buffer.lines.flatten <:+ past.flatten ∧
    (∀ line ∈ buffer.lines.dropLast, Lines.Complete newline line) ∧
    (buffer.lastLineIncomplete = true ↔
      ∃ last, buffer.lines.getLast? = some last ∧ last.getLast? ≠ some newline) ∧
    stored buffer.lines ≤ maxOutputBufferSize ∧ buffer.lines.length ≤ maxBufferLines ∧
    ∀ maxBytes, (buffer.getRecent maxBytes).length ≤ maxBytes ∧
      ∃ k, buffer.getRecent maxBytes = (buffer.lines.drop k).flatten

/-- Either nothing has to be dropped for the data, or the sizes are counted exactly, no
line waits for its end, and the data leaves none that is too long. -/
def Orderly (buffer : OutputBuffer) (data : Bytes) : Prop :=
  (stored buffer.lines + data.length ≤ maxOutputBufferSize ∧
    buffer.lines.length + (Lines.split newline data).length ≤
      maxBufferLines + if buffer.lastLineIncomplete = true ∧ buffer.lines ≠ [] then 1 else 0) ∨
  (buffer.lastLineIncomplete = false ∧ buffer.totalSize = stored buffer.lines ∧
    ∀ last, (Lines.split newline data).getLast? = some last → Lines.Unfinished newline last →
      last.length ≤ maxOutputBufferSize)

instance (buffer : OutputBuffer) (data : Bytes) : Decidable (Orderly buffer data) :=
  haveI : Decidable (∀ last, (Lines.split newline data).getLast? = some last →
      Lines.Unfinished newline last → last.length ≤ maxOutputBufferSize) :=
    match h : (Lines.split newline data).getLast? with
    | none => .isTrue fun last hLast => by cases hLast
    | some found => 
        decidable_of_iff (Lines.Unfinished newline found → found.length ≤ maxOutputBufferSize) <| by simp
  inferInstanceAs (Decidable (_ ∨ _))

/-- The buffer holds the last lines of what has been written. -/
structure Holds (past : Bytes) (buffer : OutputBuffer) : Prop where
  lines : buffer.lines <:+ Lines.split newline past
  flag : buffer.lastLineIncomplete = true ↔ Lines.Unfinished newline past
  kept : Lines.Unfinished newline past → buffer.lines ≠ []
  size : stored buffer.lines ≤ maxOutputBufferSize
  count : buffer.lines.length ≤ maxBufferLines
  counted : buffer.totalSize ≤ stored buffer.lines

section Pieces

theorem stored_eq_length (lines : List Bytes) : stored lines = lines.flatten.length :=
  List.length_flatten.symm

theorem stored_split (text : Bytes) : stored (Lines.split newline text) = text.length := by
  rw [stored_eq_length, Lines.flatten_split]

theorem extendLast_concat (data : Bytes) (front : List Bytes) (last : Bytes) :
    extendLast data (front ++ [last]) = front ++ [last ++ data] := by
  induction front with
  | nil => rfl
  | cons line front ih =>
      cases front with
      | nil => rfl
      | cons next front =>
          rw [List.cons_append] at ih ⊢
          rw [List.cons_append, extendLast, List.cons_append, ih, List.cons_append]
          exact List.cons_ne_nil _ _

/-- The loop over the pieces stores the lines of the text. -/
theorem pushLines_eq (buffer : OutputBuffer) {endsWithNewline : Bool} (text : Bytes)
    (hEnds : text ≠ [] → endsWithNewline = (text.getLast? == some newline)) :
    buffer.pushLines endsWithNewline (text.splitOn newline) =
      { lines := buffer.lines ++ Lines.split newline text
        totalSize := buffer.totalSize + text.length
        lastLineIncomplete := buffer.lastLineIncomplete || decide (Lines.Unfinished newline text) } := by
  rw [List.splitOn_eq_splitOnP]
  induction text using Lines.induction newline generalizing buffer with
  | last body hBody =>
      have hPieces : body.splitOnP (· == newline) = [body] := by
        apply List.splitOnP_eq_singleton
        intro byte hMem
        rw [beq_eq_false_iff_ne]
        rintro rfl
        exact hBody hMem
      rw [hPieces, pushLines]
      cases body with
      | nil => simp [Lines.split, Lines.Unfinished]
      | cons byte body =>
          have hUnfinished := (Lines.unfinished_body_iff hBody).mpr (List.cons_ne_nil byte body)
          have hOpen : endsWithNewline = false := by
            rw [hEnds (List.cons_ne_nil byte body), beq_eq_false_iff_ne]
            exact hUnfinished.2
          rw [hOpen, Lines.split_body hBody (List.cons_ne_nil byte body)]
          simp [hUnfinished, pushBack]
  | line body rest hBody ih =>
      have hPieces : (body ++ newline :: rest).splitOnP (· == newline) =
          body :: rest.splitOnP (· == newline) := by
        apply List.splitOnP_append_cons_of_forall_mem (p := fun byte => byte == newline) _ newline
        · exact beq_self_eq_true newline
        · intro byte hMem
          rw [beq_eq_false_iff_ne]
          rintro rfl
          exact hBody hMem
      have hRest : rest ≠ [] → endsWithNewline = (rest.getLast? == some newline) := by
        intro hSome
        rw [hEnds (by simp), List.getLast?_append, List.getLast?_cons_of_ne_nil hSome]
        cases rest with
        | nil => exact absurd rfl hSome
        | cons byte rest => rw [List.getLast?_cons]; rfl
      obtain ⟨next, more, hMore⟩ := List.exists_cons_of_ne_nil (List.splitOnP_ne_nil (· == newline) rest)
      have hTail := ih (buffer.pushBack (body ++ [newline])) hRest
      rw [hMore] at hTail
      rw [hPieces, hMore, pushLines, hTail, Lines.split_line hBody]
      · simp only [pushBack, Lines.unfinished_line_iff, List.append_assoc, List.singleton_append,
          List.length_append, List.length_cons, List.length_nil, OutputBuffer.mk.injEq, and_true,
          true_and]
        omega
      · simp

/-- What `append` does with data that no unfinished line takes. -/
theorem appendRemaining_eq (buffer : OutputBuffer) (data : Bytes) :
    buffer.appendRemaining data =
      (trim (buffer.lines ++ Lines.split newline data) (buffer.totalSize + data.length)).map
        fun kept =>
          { lines := kept.1
            totalSize := kept.2
            lastLineIncomplete := buffer.lastLineIncomplete || decide (Lines.Unfinished newline data) } := by
  unfold appendRemaining
  dsimp only
  rw [pushLines_eq buffer data fun _ => rfl]
  dsimp only
  cases trim (buffer.lines ++ Lines.split newline data) (buffer.totalSize + data.length) with
  | ok kept => rfl
  | error fault => rfl

end Pieces

section Trimming

theorem trim_nothing {lines : List Bytes} {totalSize : Nat} (hSize : totalSize ≤ maxOutputBufferSize)
    (hCount : lines.length ≤ maxBufferLines) : trim lines totalSize = .ok (lines, totalSize) := by
  cases lines with
  | nil => rw [trim, if_neg (Nat.not_lt.mpr hSize)]
  | cons line rest =>
      rw [trim, if_neg]
      omega

/-- If the sizes are counted exactly, just as many lines are dropped as have to be, and not
the last one unless it is too long itself. -/
theorem trim_exact (lines : List Bytes) :
    ∃ left, trim lines (stored lines) = .ok (left, stored left) ∧ left <:+ lines ∧
      stored left ≤ maxOutputBufferSize ∧ left.length ≤ maxBufferLines ∧
      ∀ last, lines.getLast? = some last → last.length ≤ maxOutputBufferSize → left ≠ [] := by
  induction lines with
  | nil => exact ⟨[], rfl, List.suffix_rfl, Nat.zero_le _, Nat.zero_le _, fun last hLast => by cases hLast⟩
  | cons removed rest ih =>
      by_cases hMuch : maxOutputBufferSize < stored (removed :: rest) ∨
          maxBufferLines < (removed :: rest).length
      · obtain ⟨left, hTrim, hSuffix, hSize, hCount, hLast⟩ := ih
        refine ⟨left, ?_, hSuffix.trans (List.suffix_cons removed rest), hSize, hCount, ?_⟩
        · rw [trim, if_pos hMuch, stored_cons, if_neg (by omega), Nat.add_sub_cancel_left, hTrim]
        · intro last hSome hShort
          cases rest with
          | nil =>
              -- a single line that is not too long would not have been dropped
              obtain rfl : removed = last := by simpa using hSome
              rw [stored_cons, stored_nil] at hMuch
              unfold maxBufferLines at hMuch
              simp only [List.length_cons, List.length_nil] at hMuch
              omega
          | cons next rest =>
              apply hLast last _ hShort
              rwa [List.getLast?_cons_cons] at hSome
      · rw [not_or, Nat.not_lt, Nat.not_lt] at hMuch
        exact ⟨removed :: rest, trim_nothing hMuch.1 hMuch.2, List.suffix_rfl, hMuch.1, hMuch.2,
          fun last _ _ => List.cons_ne_nil removed rest⟩

end Trimming

section Holding
variable {past data : Bytes} {buffer : OutputBuffer}

theorem unfinished_append_iff (text : Bytes) (hSome : data ≠ []) :
    Lines.Unfinished newline (text ++ data) ↔ Lines.Unfinished newline data := by
  unfold Lines.Unfinished
  rw [List.getLast?_append]
  obtain ⟨last, hLast⟩ := Option.isSome_iff_exists.mp (List.getLast?_isSome.mpr hSome)
  rw [hLast, Option.some_or]
  simp [hSome]

theorem idxOf?_line {body : Bytes} (hBody : newline ∉ body) (rest : Bytes) :
    (body ++ newline :: rest).idxOf? newline = some body.length := by
  induction body with
  | nil => simp [List.idxOf?_cons]
  | cons byte body ih =>
      obtain ⟨hFirst, hRest⟩ := not_or.mp (List.mem_cons.not.mp hBody)
      have hOther : (byte == newline) = false := beq_eq_false_iff_ne.mpr (Ne.symm hFirst)
      rw [List.cons_append, List.idxOf?_cons, hOther, ih hRest]
      rfl

/-- Of a suffix that is not empty, the last line is that of the whole. -/
theorem suffix_concat {lines front : List Bytes} {last : Bytes} (hSuffix : lines <:+ front ++ [last])
    (hSome : lines ≠ []) : ∃ kept, lines = kept ++ [last] ∧ kept <:+ front := by
  obtain ⟨dropped, hDropped⟩ := hSuffix
  obtain ⟨kept, found, rfl⟩ := (List.eq_nil_or_concat lines).resolve_left hSome
  rw [List.concat_eq_append, ← List.append_assoc] at hDropped
  obtain ⟨rfl, hLast⟩ := List.append_inj' hDropped rfl
  obtain rfl : found = last := by simpa using hLast
  exact ⟨kept, List.concat_eq_append, List.suffix_append dropped kept⟩

/-- Data that finds no unfinished line. -/
theorem Holds.append_finished (hHolds : Holds past buffer) (hOrderly : buffer.Orderly data)
    (hSome : data ≠ []) (hFlag : buffer.lastLineIncomplete = false) :
    ∃ after, buffer.appendRemaining data = .ok after ∧ Holds (past ++ data) after := by
  have hFinished : ¬ Lines.Unfinished newline past := by
    rw [← hHolds.flag, hFlag]
    exact Bool.false_ne_true
  have hSplit := (Lines.split_append_of_finished hFinished).1 data
  have hUnfinished := unfinished_append_iff past hSome
  obtain ⟨dropped, hDropped⟩ := hHolds.lines
  have hLines : buffer.lines ++ Lines.split newline data <:+ Lines.split newline (past ++ data) := by
    rw [hSplit, ← hDropped, List.append_assoc]
    exact List.suffix_append dropped _
  have hStored : stored (buffer.lines ++ Lines.split newline data) =
      stored buffer.lines + data.length := by
    rw [stored_append, stored_split]
  have hLast : Lines.Unfinished newline data → ∃ front last,
      Lines.split newline data = front ++ [last] ∧ Lines.Unfinished newline last := by
    intro hOpen
    obtain ⟨front, last, hFront, hNone, hNonempty, -⟩ := Lines.split_append_of_unfinished hOpen
    exact ⟨front, last, hFront, (Lines.unfinished_body_iff hNone).mpr hNonempty⟩
  rw [appendRemaining_eq, hFlag, Bool.false_or]
  rcases hOrderly with ⟨hSize, hCount⟩ | ⟨-, hExact, hShort⟩
  · have hCounted := hHolds.counted
    rw [if_neg (by simp [hFlag]), Nat.add_zero, ← List.length_append] at hCount
    rw [trim_nothing (by omega) hCount]
    refine ⟨_, rfl, ⟨hLines, ?_, ?_, hStored.le.trans hSize, hCount, ?_⟩⟩
    · rw [decide_eq_true_iff, hUnfinished]
    · intro hOpen
      obtain ⟨front, last, hFront, -⟩ := hLast (hUnfinished.mp hOpen)
      simp [hFront]
    · rw [hStored]
      change buffer.totalSize + data.length ≤ _
      omega
  · obtain ⟨left, hTrim, hLeft, hSize, hCount, hKeeps⟩ :=
      trim_exact (buffer.lines ++ Lines.split newline data)
    rw [hStored, ← hExact] at hTrim
    rw [hTrim]
    refine ⟨_, rfl, ⟨hLeft.trans hLines, ?_, ?_, hSize, hCount, le_rfl⟩⟩
    · rw [decide_eq_true_iff, hUnfinished]
    · intro hOpen
      obtain ⟨front, last, hFront, hLastOpen⟩ := hLast (hUnfinished.mp hOpen)
      rw [hFront, List.getLast?_concat] at hShort
      apply hKeeps last
      · rw [hFront, ← List.append_assoc, List.getLast?_concat]
      · exact hShort last rfl hLastOpen

/-- The unfinished line is the last one of the output and of the buffer. -/
theorem Holds.lastLine (hHolds : Holds past buffer) (hFlag : buffer.lastLineIncomplete = true) :
    ∃ front kept last, newline ∉ last ∧ buffer.lines = kept ++ [last] ∧ kept <:+ front ∧
      ∀ more, Lines.split newline (past ++ more) = front ++ Lines.split newline (last ++ more) := by
  have hOpen := hHolds.flag.mp hFlag
  obtain ⟨front, last, hSplit, hNone, -, hMore⟩ := Lines.split_append_of_unfinished hOpen
  obtain ⟨kept, hKept, hFront⟩ := suffix_concat (hSplit ▸ hHolds.lines) (hHolds.kept hOpen)
  exact ⟨front, kept, last, hNone, hKept, hFront, hMore⟩

section Extended
variable {front kept : List Bytes} {last : Bytes} (hNone : newline ∉ last)
  (hKept : buffer.lines = kept ++ [last]) (hFront : kept <:+ front)
  (hMore : ∀ more, Lines.split newline (past ++ more) = front ++ Lines.split newline (last ++ more))
include hNone hKept hFront hMore

/-- The unfinished line takes data that ends it, and what follows makes new lines. -/
theorem Holds.append_ending (hHolds : Holds past buffer) {body rest : Bytes} (hBody : newline ∉ body)
    (hSize : stored buffer.lines + (body.length + (rest.length + 1)) ≤ maxOutputBufferSize)
    (hCount : buffer.lines.length + (Lines.split newline rest).length ≤ maxBufferLines) :
    ∃ after,
      appendRemaining
          { buffer with
            lines := extendLast (body ++ [newline]) buffer.lines
            lastLineIncomplete := false }
          rest = .ok after ∧
        Holds (past ++ (body ++ newline :: rest)) after := by
  have hCounted := hHolds.counted
  have hExtended : extendLast (body ++ [newline]) buffer.lines = kept ++ [last ++ (body ++ [newline])] := by
    rw [hKept, extendLast_concat]
  have hLine : newline ∉ last ++ body := by
    rw [List.mem_append, not_or]
    exact ⟨hNone, hBody⟩
  have hLonger := stored_extendLast (body ++ [newline]) (show buffer.lines ≠ [] by simp [hKept])
  rw [List.length_append, List.length_singleton] at hLonger
  have hAll : stored (extendLast (body ++ [newline]) buffer.lines ++ Lines.split newline rest) =
      stored buffer.lines + (body.length + 1) + rest.length := by
    rw [stored_append, hLonger, stored_split]
  have hNumber : (extendLast (body ++ [newline]) buffer.lines ++ Lines.split newline rest).length ≤
      maxBufferLines := by
    rw [hKept, List.length_append, List.length_singleton] at hCount
    rw [hExtended, List.length_append, List.length_append, List.length_singleton]
    exact hCount
  rw [appendRemaining_eq]
  dsimp only
  rw [trim_nothing (by omega) hNumber]
  refine ⟨_, rfl, ⟨?_, ?_, ?_, ?_, hNumber, ?_⟩⟩
  · have hRest := Lines.split_line hLine rest
    simp only [List.append_assoc] at hRest
    rw [hExtended, hMore, hRest]
    simp only [List.append_assoc, List.singleton_append]
    obtain ⟨dropped, rfl⟩ := hFront
    rw [List.append_assoc]
    exact List.suffix_append dropped _
  · rw [Bool.false_or, decide_eq_true_iff, ← List.append_assoc, Lines.unfinished_line_iff]
  · rw [hExtended]
    simp
  · rw [hAll]
    omega
  · rw [hAll]
    change buffer.totalSize + rest.length ≤ _
    omega

/-- The unfinished line takes data that does not end it. -/
theorem Holds.append_continuing (hHolds : Holds past buffer)
    (hFlag : buffer.lastLineIncomplete = true) (hSome : data ≠ []) (hMem : newline ∉ data)
    (hSize : stored buffer.lines + data.length ≤ maxOutputBufferSize) :
    Holds (past ++ data)
      { buffer with
        lines := extendLast data buffer.lines
        totalSize := buffer.totalSize + data.length } := by
  have hLines : buffer.lines ≠ [] := by simp [hKept]
  have hExtended : extendLast data buffer.lines = kept ++ [last ++ data] := by
    rw [hKept, extendLast_concat]
  have hLine : newline ∉ last ++ data := by
    rw [List.mem_append, not_or]
    exact ⟨hNone, hMem⟩
  refine ⟨?_, ?_, ?_, ?_, ?_, ?_⟩
  · rw [hExtended, hMore, Lines.split_body hLine (by simp [hSome])]
    obtain ⟨dropped, rfl⟩ := hFront
    rw [List.append_assoc]
    exact List.suffix_append dropped _
  · rw [unfinished_append_iff past hSome]
    exact iff_of_true hFlag ((Lines.unfinished_body_iff hMem).mpr hSome)
  · intro _
    rw [hExtended]
    simp
  · rw [stored_extendLast data hLines]
    exact hSize
  · have hSame := hHolds.count
    rw [hKept, List.length_append, List.length_singleton] at hSame
    rw [hExtended, List.length_append, List.length_singleton]
    exact hSame
  · have hCounted := hHolds.counted
    rw [stored_extendLast data hLines]
    change buffer.totalSize + data.length ≤ _
    omega

end Extended

/-- Data that an unfinished line takes, up to its end. -/
theorem Holds.append_unfinished (hHolds : Holds past buffer) (hOrderly : buffer.Orderly data)
    (hSome : data ≠ []) (hFlag : buffer.lastLineIncomplete = true) :
    ∃ after, buffer.append data = .ok after ∧ Holds (past ++ data) after := by
  obtain ⟨front, kept, last, hNone, hKept, hFront, hMore⟩ := hHolds.lastLine hFlag
  have hLines : buffer.lines ≠ [] := by simp [hKept]
  obtain ⟨hSize, hCount⟩ := hOrderly.resolve_right fun hOther => by
    rw [hFlag] at hOther
    exact absurd hOther.1 (by decide)
  rw [if_pos ⟨hFlag, hLines⟩] at hCount
  have hWaits : (buffer.lastLineIncomplete && !buffer.lines.isEmpty) = true := by
    rw [hFlag, Bool.true_and, Bool.not_eq_true', List.isEmpty_eq_false_iff]
    exact hLines
  have hData : data.isEmpty = false := List.isEmpty_eq_false_iff.mpr hSome
  unfold append
  rw [if_neg (by rw [hData]; exact Bool.false_ne_true), if_pos hWaits]
  by_cases hMem : newline ∈ data
  · obtain ⟨body, rest, rfl, hBody⟩ := List.eq_append_cons_of_mem hMem
    have hWhole : body ++ newline :: rest = (body ++ [newline]) ++ rest := by simp
    have hTake : (body ++ newline :: rest).take (body.length + 1) = body ++ [newline] := by
      rw [hWhole, List.take_left' (by simp)]
    have hDrop : (body ++ newline :: rest).drop (body.length + 1) = rest := by
      rw [hWhole, List.drop_left' (by simp)]
    rw [Lines.split_line hBody, List.length_cons] at hCount
    rw [List.length_append, List.length_cons] at hSize
    rw [idxOf?_line hBody]
    dsimp only
    rw [hTake, hDrop]
    exact hHolds.append_ending hNone hKept hFront hMore hBody hSize (by omega)
  · rw [List.idxOf?_eq_none_iff.mpr hMem]
    exact ⟨_, rfl, hHolds.append_continuing hNone hKept hFront hMore hFlag hSome hMem hSize⟩

/-- An orderly call returns, and the buffer holds the last lines of the longer output. -/
theorem Holds.append (hHolds : Holds past buffer) (hOrderly : buffer.Orderly data) :
    ∃ after, buffer.append data = .ok after ∧ Holds (past ++ data) after := by
  by_cases hSome : data = []
  · subst hSome
    rw [List.append_nil]
    exact ⟨buffer, rfl, hHolds⟩
  · cases hFlag : buffer.lastLineIncomplete with
    | true => exact hHolds.append_unfinished hOrderly hSome hFlag
    | false =>
        obtain ⟨after, hAfter, hNext⟩ := hHolds.append_finished hOrderly hSome hFlag
        refine ⟨after, ?_, hNext⟩
        have hData : data.isEmpty = false := List.isEmpty_eq_false_iff.mpr hSome
        rw [OutputBuffer.append, if_neg (by rw [hData]; exact Bool.false_ne_true),
          if_neg (by rw [hFlag]; exact Bool.false_ne_true), hAfter]

end Holding

section Recent

theorem recentLoop_eq (maxBytes : Nat) (lines : List Bytes) {result : Bytes}
    (hResult : result.length ≤ maxBytes) :
    (recentLoop maxBytes lines result.length result).length ≤ maxBytes ∧
      ∃ k, recentLoop maxBytes lines result.length result =
        (lines.take k).reverse.flatten ++ result := by
  induction lines generalizing result with
  | nil => exact ⟨hResult, 0, rfl⟩
  | cons line rest ih =>
      rw [recentLoop]
      by_cases hFull : result.length + line.length > maxBytes
      · rw [if_pos hFull]
        exact ⟨hResult, 0, rfl⟩
      · have hLength : (line ++ result).length = result.length + line.length := by
          rw [List.length_append, Nat.add_comm]
        obtain ⟨hShort, k, hLines⟩ := @ih (line ++ result) (by omega)
        rw [if_neg hFull, ← hLength]
        refine ⟨hShort, k + 1, ?_⟩
        rw [hLines, List.take_succ_cons, List.reverse_cons, List.flatten_append,
          List.flatten_singleton, List.append_assoc]

/-- What is given is the last lines, as many as there is room for. -/
theorem getRecent_eq (buffer : OutputBuffer) (maxBytes : Nat) :
    (buffer.getRecent maxBytes).length ≤ maxBytes ∧
      ∃ k, buffer.getRecent maxBytes = (buffer.lines.drop k).flatten := by
  obtain ⟨hShort, k, hLines⟩ := @recentLoop_eq maxBytes buffer.lines.reverse [] (Nat.zero_le _)
  refine ⟨hShort, buffer.lines.length - k, ?_⟩
  unfold getRecent
  rw [List.length_nil] at hLines
  rw [hLines, List.append_nil, List.take_reverse, List.reverse_reverse]

end Recent

section Runs

theorem Holds.stores {past : List Bytes} {buffer : OutputBuffer} (hHolds : Holds past.flatten buffer) :
    Stores past (.ok buffer) := by
  obtain ⟨dropped, hDropped⟩ := hHolds.lines
  refine ⟨buffer, rfl, ?_, ?_, ?_, hHolds.size, hHolds.count, getRecent_eq buffer⟩
  · rw [← Lines.flatten_split newline past.flatten, ← hDropped, List.flatten_append]
    exact List.suffix_append _ _
  · intro line hMem
    apply Lines.complete_of_mem_dropLast past.flatten
    rw [← hDropped, List.dropLast_append_of_ne_nil]
    · exact List.mem_append_right dropped hMem
    · rintro hNil
      rw [hNil] at hMem
      cases hMem
  · rw [hHolds.flag]
    constructor
    · intro hOpen
      obtain ⟨front, last, hSplit, hNone, -, -⟩ := Lines.split_append_of_unfinished hOpen
      obtain ⟨kept, hKept, -⟩ := suffix_concat (hSplit ▸ hHolds.lines) (hHolds.kept hOpen)
      rw [hKept, List.getLast?_concat]
      exact ⟨last, rfl, fun hEnds => hNone (List.mem_of_getLast? hEnds)⟩
    · rintro ⟨last, hLast, hEnds⟩
      by_contra hFinished
      have hMem : last ∈ Lines.split newline past.flatten := by
        rw [← hDropped]
        exact List.mem_append_right dropped (List.mem_of_getLast? hLast)
      obtain ⟨body, -, rfl⟩ := (Lines.split_append_of_finished hFinished).2 last hMem
      exact hEnds List.getLast?_concat

/-- The next call is an orderly one. -/
def OrderlyCall : Except TrimFault OutputBuffer → Bytes → Prop
  | .ok buffer, data => buffer.Orderly data
  | .error _, _ => True

instance : ∀ now data, Decidable (OrderlyCall now data)
  | .ok buffer, data => inferInstanceAs (Decidable (buffer.Orderly data))
  | .error _, _ => .isTrue trivial

theorem holds_new : Holds [] new where
  lines := List.suffix_rfl
  flag := by decide
  kept := by decide
  size := Nat.zero_le _
  count := Nat.zero_le _
  counted := le_rfl

theorem holds_run {calls : List Bytes} {past : Bytes} {buffer : OutputBuffer}
    (hHolds : Holds past buffer) (hOrderly : Trace.Always appendStep OrderlyCall (.ok buffer) calls) :
    ∃ after, Trace.run appendStep (.ok buffer) calls = .ok after ∧ Holds (past ++ calls.flatten) after := by
  induction calls generalizing past buffer with
  | nil =>
      rw [List.flatten_nil, List.append_nil]
      exact ⟨buffer, rfl, hHolds⟩
  | cons data calls ih =>
      obtain ⟨hNow, hLater⟩ := hOrderly
      obtain ⟨next, hNext, hHolds'⟩ := hHolds.append hNow
      have hStep : appendStep (.ok buffer) data = .ok next := hNext
      rw [hStep] at hLater
      rw [Trace.run_cons, hStep, List.flatten_cons, ← List.append_assoc]
      exact ih hHolds' hLater

/-- In a row of orderly calls, the buffer stores the end of the output after each of them. -/
theorem stores_of_orderly {calls : List Bytes}
    (hOrderly : Trace.Always appendStep OrderlyCall (.ok new) calls) :
    ∀ past, past <+: calls → Stores past (Trace.run appendStep (.ok new) past) := by
  rintro past ⟨later, rfl⟩
  obtain ⟨after, hRun, hHolds⟩ :=
    holds_run holds_new ((Trace.always_append appendStep _ past later).mp hOrderly).1
  rw [hRun]
  exact hHolds.stores

/-- A line in two parts and the beginning of another one. -/
theorem stores_split_line :
    Stores [[97], [98, 10], [99]] (Trace.run appendStep (.ok new) [[97], [98, 10], [99]]) :=
  @stores_of_orderly [[97], [98, 10], [99]] (by decide +kernel) _ List.prefix_rfl

/-- A byte, and then as many as may be stored: the call returns before old lines are
dropped. -/
theorem too_much_stored :
    ¬ ∀ past, past <+: [[97], List.replicate maxOutputBufferSize 97] →
      Stores past (Trace.run appendStep (.ok new) past) := by
  intro hAll
  have hFirst : appendStep (.ok new) [97] =
      .ok { lines := [[97]], totalSize := 1, lastLineIncomplete := true } := by
    decide +kernel
  have hNone : newline ∉ List.replicate maxOutputBufferSize (97 : UInt8) := by
    intro hMem
    exact absurd (List.eq_of_mem_replicate hMem) (by decide)
  have hSome : List.replicate maxOutputBufferSize (97 : UInt8) ≠ [] := by
    rw [ne_eq, List.replicate_eq_nil_iff]
    decide
  have hSecond : ∀ data : Bytes, data ≠ [] → newline ∉ data →
      appendStep (.ok { lines := [[97]], totalSize := 1, lastLineIncomplete := true }) data =
        .ok
          { lines := [[97] ++ data]
            totalSize := 1 + data.length
            lastLineIncomplete := true } := by
    intro data hData hFree
    show append _ _ = _
    rw [append, if_neg (by simpa using hData), if_pos (by decide),
      List.idxOf?_eq_none_iff.mpr hFree]
    rfl
  obtain ⟨buffer, hBuffer, -, -, -, hSize, -⟩ := hAll _ (List.prefix_refl _)
  rw [Trace.run_cons, Trace.run_cons, Trace.run_nil, hFirst, hSecond _ hSome hNone] at hBuffer
  obtain rfl := Except.ok.inj hBuffer
  rw [stored_cons, stored_nil, List.length_append, List.length_replicate, List.length_singleton] at hSize
  omega

end Runs

end HibtDesk.Terminal.OutputBuffer
