import HibtDesk.Network.Framing

/-! The pipe between the terminal service and the helper process that runs the
shell of another user. A message is its type, the length of its payload in four
bytes, and the payload. The helper reads the pipe in whatever pieces it is
handed them. -/
namespace HibtDesk.Terminal

open BytesCodec (putLe leValue)

def msgTypeData : UInt8 := 1

def msgTypeResize : UInt8 := 2

def msgHeaderSize : Nat := 5

def maxPayloadSize : Nat := 16 * 1024 * 1024

/-- The length is cut to 32 bits. -/
def encodeHelperMessage (msgType : UInt8) (payload : Bytes) : Bytes :=
  msgType :: (putLe 4 payload.length ++ payload)

/-- Rows and columns have 16 bits. -/
def encodeResizeMessage (rows cols : Nat) : Bytes :=
  encodeHelperMessage msgTypeResize (putLe 2 rows ++ putLe 2 cols)

inductive ReadExact where
  /-- The buffer is full; these pieces are left. -/
  | full (buf : Bytes) (left : List Bytes)
  /-- The pipe has no more for now: the call waits, and reports the end of the
  file once the pipe is closed. -/
  | dry
  deriving DecidableEq, Repr

/-- `read_exact_or_eof` on the pieces the calls of `read` return. A call that is
interrupted has nothing to show for it, and the next one goes on. -/
def readExactOrEof : Nat → List Bytes → ReadExact
  | 0, pieces => .full [] pieces
  | _ + 1, [] => .dry
  | room + 1, piece :: pieces =>
      if room + 1 < piece.length then
        .full (piece.take (room + 1)) (piece.drop (room + 1) :: pieces)
      else
        match readExactOrEof (room + 1 - piece.length) pieces with
        | .full buf left => .full (piece ++ buf) left
        | .dry => .dry

/-- What the helper does to the pseudo terminal. -/
inductive PtyOp where
  | write (data : Bytes)
  | resize (rows cols : Nat)
  deriving DecidableEq, Repr

/-- Why the input thread of the helper gives up while the pipe is open. -/
inductive Giveup where
  | payloadTooLarge
  | unknownMessageType
  deriving DecidableEq, Repr

inductive HelperTurn where
  | applied (ops : List PtyOp) (left : List Bytes)
  | dry
  | breaks (giveup : Giveup)
  deriving DecidableEq, Repr

/-- What a turn does once it has read a header, while the shell runs and takes its
input. -/
def helperPayload (msgType : UInt8) (payloadLen : Nat) (pieces : List Bytes) : HelperTurn :=
  if maxPayloadSize < payloadLen then .breaks .payloadTooLarge
  else
    match readExactOrEof payloadLen pieces with
    | .dry => .dry
    | .full payload pieces =>
        if msgType = msgTypeData then .applied [.write payload] pieces
        else if msgType = msgTypeResize then
          if 4 ≤ payloadLen then
            .applied
              [.resize (leValue (payload.take 2)) (leValue ((payload.drop 2).take 2))] pieces
          else .applied [] pieces
        else .breaks .unknownMessageType

/-- One turn of the loop of the input thread. -/
def helperTurn (pieces : List Bytes) : HelperTurn :=
  match readExactOrEof msgHeaderSize pieces with
  | .dry => .dry
  | .full header pieces => helperPayload (header.headD 0) (leValue header.tail) pieces

section ReadExact

/-- However the bytes are cut, the buffer gets the first of them. -/
theorem readExactOrEof_of_le {room : Nat} {pieces : List Bytes}
    (hEnough : room ≤ pieces.flatten.length) :
    ∃ left, readExactOrEof room pieces = .full (pieces.flatten.take room) left ∧
      left.flatten = pieces.flatten.drop room := by
  induction pieces generalizing room with
  | nil =>
      obtain rfl : room = 0 := by simpa using hEnough
      exact ⟨[], by simp [readExactOrEof], rfl⟩
  | cons piece pieces ih =>
      cases room with
      | zero => exact ⟨piece :: pieces, by simp [readExactOrEof], by simp⟩
      | succ room =>
          rw [readExactOrEof]
          split
          next hLonger =>
            refine ⟨piece.drop (room + 1) :: pieces, ?_, ?_⟩
            · rw [List.flatten_cons, List.take_append_of_le_length (Nat.le_of_lt hLonger)]
            · rw [List.flatten_cons, List.flatten_cons,
                List.drop_append_of_le_length (Nat.le_of_lt hLonger)]
          next hShort =>
            rw [Nat.not_lt] at hShort
            have hRest : room + 1 - piece.length ≤ pieces.flatten.length := by
              rw [List.flatten_cons, List.length_append] at hEnough
              omega
            obtain ⟨left, hRead, hLeft⟩ := ih hRest
            refine ⟨left, ?_, ?_⟩
            · rw [hRead, List.flatten_cons, List.take_append, List.take_of_length_le hShort]
            · rw [hLeft, List.flatten_cons, List.drop_append, List.drop_of_length_le hShort,
                List.nil_append]

theorem readExactOrEof_of_lt {room : Nat} {pieces : List Bytes}
    (hShort : pieces.flatten.length < room) : readExactOrEof room pieces = .dry := by
  induction pieces generalizing room with
  | nil =>
      cases room with
      | zero => simp at hShort
      | succ room => rw [readExactOrEof]
  | cons piece pieces ih =>
      rw [List.flatten_cons, List.length_append] at hShort
      cases room with
      | zero => omega
      | succ room =>
          rw [readExactOrEof, if_neg (by omega), ih (by omega)]

end ReadExact

theorem helperPayload_length {msgType : UInt8} {payloadLen : Nat} {pieces left : List Bytes}
    {ops : List PtyOp} (hTurn : helperPayload msgType payloadLen pieces = .applied ops left) :
    left.flatten.length ≤ pieces.flatten.length := by
  unfold helperPayload at hTurn
  split at hTurn
  · cases hTurn
  · rcases Nat.lt_or_ge pieces.flatten.length payloadLen with hShort | hPayload
    · rw [readExactOrEof_of_lt hShort] at hTurn
      cases hTurn
    · obtain ⟨after, hRead, hAfter⟩ := readExactOrEof_of_le hPayload
      have hLeft : after.flatten.length ≤ pieces.flatten.length := by
        rw [hAfter, List.length_drop]
        omega
      rw [hRead] at hTurn
      dsimp only at hTurn
      split at hTurn
      · cases hTurn
        exact hLeft
      · split at hTurn
        · split at hTurn
          · cases hTurn
            exact hLeft
          · cases hTurn
            exact hLeft
        · cases hTurn

/-- A turn that applies a message takes its bytes from the pipe. -/
theorem helperTurn_length {pieces left : List Bytes} {ops : List PtyOp}
    (hTurn : helperTurn pieces = .applied ops left) :
    left.flatten.length < pieces.flatten.length := by
  unfold helperTurn at hTurn
  rcases Nat.lt_or_ge pieces.flatten.length msgHeaderSize with hShort | hHeader
  · rw [readExactOrEof_of_lt hShort] at hTurn
    cases hTurn
  · obtain ⟨body, hRead, hBody⟩ := readExactOrEof_of_le hHeader
    have hPositive : 0 < msgHeaderSize := by decide
    have hSmaller : body.flatten.length < pieces.flatten.length := by
      rw [hBody, List.length_drop]
      omega
    rw [hRead] at hTurn
    exact Nat.lt_of_le_of_lt (helperPayload_length hTurn) hSmaller

/-- The loop of the input thread: what it does to the pseudo terminal, and why it
gave up, if it did not just wait for more. -/
def helperLoop (pieces : List Bytes) : List PtyOp × Option Giveup :=
  match _hTurn : helperTurn pieces with
  | .applied ops left =>
      let later := helperLoop left
      (ops ++ later.1, later.2)
  | .dry => ([], none)
  | .breaks giveup => ([], some giveup)
termination_by pieces.flatten.length
decreasing_by exact helperTurn_length _hTurn

section Message
variable {pieces : List Bytes} {msgType : UInt8} {payload tail : Bytes}

/-- Behind a whole header the turn goes on with the length it announces. -/
theorem helperTurn_of_header {length : Nat}
    (hPieces : pieces.flatten = msgType :: (putLe 4 length ++ tail)) :
    ∃ body, body.flatten = tail ∧
      helperTurn pieces = helperPayload msgType (length % 256 ^ 4) body := by
  have hSize : (msgType :: putLe 4 length).length = msgHeaderSize := by
    rw [List.length_cons, BytesCodec.length_putLe]
    rfl
  have hSplit : pieces.flatten = (msgType :: putLe 4 length) ++ tail := hPieces
  have hEnough : msgHeaderSize ≤ pieces.flatten.length := by
    rw [hSplit, List.length_append, hSize]
    omega
  obtain ⟨body, hRead, hBody⟩ := readExactOrEof_of_le hEnough
  rw [hSplit, List.take_left' hSize] at hRead
  rw [hSplit, List.drop_left' hSize] at hBody
  refine ⟨body, hBody, ?_⟩
  rw [helperTurn, hRead]
  dsimp only [List.headD_cons, List.tail_cons]
  rw [BytesCodec.leValue_putLe]

theorem mod_of_fits {length : Nat} (hFits : length ≤ maxPayloadSize) : length % 256 ^ 4 = length :=
  Nat.mod_eq_of_lt (Nat.lt_of_le_of_lt hFits (by decide))

/-- A whole message that fits is read to its end. -/
theorem helperTurn_of_message (hFits : payload.length ≤ maxPayloadSize)
    (hPieces : pieces.flatten = encodeHelperMessage msgType payload ++ tail) :
    ∃ body left, readExactOrEof payload.length body = .full payload left ∧ left.flatten = tail ∧
      helperTurn pieces = helperPayload msgType payload.length body := by
  have hHeader : pieces.flatten = msgType :: (putLe 4 payload.length ++ (payload ++ tail)) := by
    rw [hPieces, encodeHelperMessage, List.cons_append, List.append_assoc]
  obtain ⟨body, hBody, hTurn⟩ := helperTurn_of_header hHeader
  rw [mod_of_fits hFits] at hTurn
  have hEnough : payload.length ≤ body.flatten.length := by
    rw [hBody, List.length_append]
    omega
  obtain ⟨left, hRead, hLeft⟩ := readExactOrEof_of_le hEnough
  rw [hBody, List.take_left' rfl] at hRead
  rw [hBody, List.drop_left' rfl] at hLeft
  exact ⟨body, left, hRead, hLeft, hTurn⟩

theorem helperTurn_of_data (hFits : payload.length ≤ maxPayloadSize)
    (hPieces : pieces.flatten = encodeHelperMessage msgTypeData payload ++ tail) :
    ∃ left, left.flatten = tail ∧ helperTurn pieces = .applied [.write payload] left := by
  obtain ⟨body, left, hRead, hLeft, hTurn⟩ := helperTurn_of_message hFits hPieces
  refine ⟨left, hLeft, ?_⟩
  rw [hTurn, helperPayload, if_neg (by omega), hRead]
  rfl

theorem helperTurn_of_resize {rows cols : Nat} (hRows : rows < 256 ^ 2) (hCols : cols < 256 ^ 2)
    (hPieces : pieces.flatten = encodeResizeMessage rows cols ++ tail) :
    ∃ left, left.flatten = tail ∧ helperTurn pieces = .applied [.resize rows cols] left := by
  have hSize : (putLe 2 rows ++ putLe 2 cols).length = 4 := by
    rw [List.length_append, BytesCodec.length_putLe, BytesCodec.length_putLe]
  have hFits : (putLe 2 rows ++ putLe 2 cols).length ≤ maxPayloadSize := by
    rw [hSize]
    decide
  obtain ⟨body, left, hRead, hLeft, hTurn⟩ := helperTurn_of_message hFits hPieces
  refine ⟨left, hLeft, ?_⟩
  rw [hTurn, helperPayload, if_neg (by omega), hRead]
  dsimp only
  rw [if_neg (by decide), if_pos rfl, if_pos (Nat.le_of_eq hSize.symm),
    List.take_left' (BytesCodec.length_putLe 2 rows),
    List.drop_left' (BytesCodec.length_putLe 2 rows),
    List.take_of_length_le (Nat.le_of_eq (BytesCodec.length_putLe 2 cols)),
    BytesCodec.leValue_putLe_of_lt hRows, BytesCodec.leValue_putLe_of_lt hCols]

/-- The helper waits for the rest of a message that fits. -/
theorem helperTurn_of_part (hFits : payload.length ≤ maxPayloadSize)
    (hPart : pieces.flatten <+: encodeHelperMessage msgType payload)
    (hShort : pieces.flatten.length < (encodeHelperMessage msgType payload).length) :
    helperTurn pieces = .dry := by
  rcases Nat.lt_or_ge pieces.flatten.length msgHeaderSize with hHead | hHead
  · rw [helperTurn, readExactOrEof_of_lt hHead]
  · have hSize : (msgType :: putLe 4 payload.length).length = msgHeaderSize := by
      rw [List.length_cons, BytesCodec.length_putLe]
      rfl
    obtain ⟨missing, hWhole⟩ := hPart
    have hHeader : (msgType :: putLe 4 payload.length) <+: encodeHelperMessage msgType payload :=
      List.prefix_append _ payload
    have hFront : (msgType :: putLe 4 payload.length) <+: pieces.flatten := by
      apply List.prefix_of_prefix_length_le hHeader ⟨missing, hWhole⟩
      rw [hSize]
      exact hHead
    obtain ⟨tail, hTail⟩ := hFront
    obtain ⟨body, hBody, hTurn⟩ := helperTurn_of_header hTail.symm
    have hLess : tail.length < payload.length := by
      rw [← hTail, List.length_append, hSize, encodeHelperMessage, List.length_cons,
        List.length_append, BytesCodec.length_putLe] at hShort
      have hFive : msgHeaderSize = 5 := rfl
      omega
    rw [hTurn, mod_of_fits hFits, helperPayload, if_neg (by omega),
      readExactOrEof_of_lt (by rw [hBody]; exact hLess)]

/-- The helper gives up at a header that announces too much. -/
theorem helperTurn_of_large (hLarge : maxPayloadSize < payload.length)
    (hBound : payload.length < 256 ^ 4)
    (hPieces : pieces.flatten = encodeHelperMessage msgType payload ++ tail) :
    helperTurn pieces = .breaks .payloadTooLarge := by
  have hHeader : pieces.flatten = msgType :: (putLe 4 payload.length ++ (payload ++ tail)) := by
    rw [hPieces, encodeHelperMessage, List.cons_append, List.append_assoc]
  obtain ⟨body, -, hTurn⟩ := helperTurn_of_header hHeader
  rw [hTurn, Nat.mod_eq_of_lt hBound, helperPayload, if_pos hLarge]

end Message

section Loop
variable {pieces left : List Bytes}

theorem helperLoop_of_applied {ops : List PtyOp} (hTurn : helperTurn pieces = .applied ops left) :
    helperLoop pieces = (ops ++ (helperLoop left).1, (helperLoop left).2) := by
  rw [helperLoop.eq_def]
  split <;> simp_all

theorem helperLoop_of_dry (hTurn : helperTurn pieces = .dry) : helperLoop pieces = ([], none) := by
  rw [helperLoop.eq_def]
  split <;> simp_all

theorem helperLoop_of_breaks {giveup : Giveup} (hTurn : helperTurn pieces = .breaks giveup) :
    helperLoop pieces = ([], some giveup) := by
  rw [helperLoop.eq_def]
  split <;> simp_all

end Loop

end HibtDesk.Terminal
