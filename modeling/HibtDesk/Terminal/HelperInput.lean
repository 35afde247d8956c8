import HibtDesk.Terminal.Service

/-! From the actions of a connection to the shell of a terminal in helper mode: the
service encodes each action, the writer thread puts it on the pipe, and the helper
applies what it reads. -/
namespace HibtDesk.Terminal

/-- An action that reaches a session. -/
inductive InputAction where
  | data (payload : Bytes)
  | resize (rows cols : Nat)
  deriving DecidableEq, Repr

namespace InputAction

/-- `handle_data` and `handle_resize`. -/
def give (session : TerminalSession) : InputAction → TerminalSession
  | .data payload => TerminalService.handleData session payload
  | .resize rows cols => TerminalService.handleResize session rows cols

/-- What the action asks of the pseudo terminal. -/
def asked : InputAction → PtyOp
  | .data payload => .write payload
  | .resize rows cols => .resize rows cols

/-- What the action asks of the pseudo terminal, whose sizes have 16 bits. -/
def applied : InputAction → PtyOp
  | .data payload => .write payload
  | .resize rows cols => .resize (asU16 rows) (asU16 cols)

/-- The helper accepts the payload. -/
def Fits : InputAction → Prop
  | .data payload => payload.length ≤ maxPayloadSize
  | .resize _ _ => True

/-- What is put on the pipe for the action. -/
def encoded : InputAction → Bytes
  | .data payload => encodeHelperMessage msgTypeData payload
  | .resize rows cols => encodeResizeMessage (asU16 rows) (asU16 cols)

end InputAction

open InputAction

/-- The bytes on the pipe after the actions on a session the helper was started for. -/
def written (pid rows cols : Nat) (actions : List InputAction) : Bytes :=
  ((actions.foldl give (TerminalService.spawn true pid rows cols)).inputTx.getD []).flatten

section Written

theorem give_helper {session : TerminalSession} {sent : List Bytes}
    (hHelper : session.isHelperMode = true) (hSent : session.inputTx = some sent)
    (action : InputAction) :
    (give session action).isHelperMode = true ∧
      (give session action).inputTx = some (sent ++ [action.encoded]) := by
  cases action with
  | data payload =>
      simp [give, TerminalService.handleData, TerminalService.sendInput, encoded, hHelper, hSent]
  | resize rows cols =>
      simp [give, TerminalService.handleResize, TerminalService.sendInput, encoded, hHelper, hSent]

theorem foldl_give {session : TerminalSession} {sent : List Bytes}
    (hHelper : session.isHelperMode = true) (hSent : session.inputTx = some sent)
    (actions : List InputAction) :
    (actions.foldl give session).inputTx = some (sent ++ actions.map encoded) := by
  induction actions generalizing session sent with
  | nil => simp [hSent]
  | cons action actions ih =>
      obtain ⟨hStill, hMore⟩ := give_helper hHelper hSent action
      rw [List.foldl_cons, ih hStill hMore, List.map_cons, List.append_assoc, List.singleton_append]

theorem written_eq (pid rows cols : Nat) (actions : List InputAction) :
    written pid rows cols actions = (actions.map encoded).flatten := by
  unfold written
  rw [foldl_give rfl rfl actions, Option.getD_some, List.nil_append]

end Written

section Action
variable {action : InputAction} {pieces : List Bytes}

theorem asU16_lt (n : Nat) : asU16 n < 256 ^ 2 := Nat.mod_lt n (by decide)

/-- A whole action on the pipe is applied. -/
theorem helperTurn_of_action {tail : Bytes} (hFits : action.Fits)
    (hPieces : pieces.flatten = action.encoded ++ tail) :
    ∃ left, left.flatten = tail ∧ helperTurn pieces = .applied [action.applied] left := by
  cases action with
  | data payload => exact helperTurn_of_data hFits hPieces
  | resize rows cols => exact helperTurn_of_resize (asU16_lt rows) (asU16_lt cols) hPieces

/-- A part of an action on the pipe is waited on. -/
theorem helperTurn_of_short (hFits : action.Fits) (hPart : pieces.flatten <+: action.encoded)
    (hShort : pieces.flatten.length < action.encoded.length) : helperTurn pieces = .dry := by
  cases action with
  | data payload => exact helperTurn_of_part hFits hPart hShort
  | resize rows cols =>
      refine helperTurn_of_part ?_ hPart hShort
      rw [List.length_append, BytesCodec.length_putLe, BytesCodec.length_putLe]
      decide

end Action

/-- However much of the pipe has been read, and in whatever pieces, the helper has
applied the first actions and waits for more. -/
theorem helperLoop_of_prefix {actions : List InputAction} (hFits : ∀ action ∈ actions, action.Fits)
    {pieces : List Bytes} (hPieces : pieces.flatten <+: (actions.map encoded).flatten) :
    ∃ count, helperLoop pieces = ((actions.take count).map InputAction.applied, none) ∧
      (pieces.flatten = (actions.map encoded).flatten → actions.take count = actions) := by
  induction actions generalizing pieces with
  | nil =>
      have hEmpty : pieces.flatten = [] := List.prefix_nil.mp hPieces
      have hDry : helperTurn pieces = .dry := by
        rw [helperTurn, readExactOrEof_of_lt (by rw [hEmpty]; decide)]
      exact ⟨0, helperLoop_of_dry hDry, fun _ => rfl⟩
  | cons action actions ih =>
      rw [List.map_cons, List.flatten_cons] at hPieces ⊢
      have hFirst := hFits action List.mem_cons_self
      rcases Nat.lt_or_ge pieces.flatten.length action.encoded.length with hShort | hWhole
      · have hPart : pieces.flatten <+: action.encoded :=
          List.prefix_of_prefix_length_le hPieces (List.prefix_append _ _) (Nat.le_of_lt hShort)
        refine ⟨0, helperLoop_of_dry (helperTurn_of_short hFirst hPart hShort), fun hAll => ?_⟩
        rw [hAll, List.length_append] at hShort
        omega
      · have hFront : action.encoded <+: pieces.flatten :=
          List.prefix_of_prefix_length_le (List.prefix_append _ _) hPieces hWhole
        obtain ⟨tail, hTail⟩ := hFront
        obtain ⟨left, hLeft, hTurn⟩ := helperTurn_of_action hFirst hTail.symm
        rw [← hTail, List.prefix_append_right_inj, ← hLeft] at hPieces
        obtain ⟨count, hLoop, hAll⟩ :=
          ih (fun later hLater => hFits later (List.mem_cons_of_mem _ hLater)) hPieces
        refine ⟨count + 1, ?_, fun hEqual => ?_⟩
        · rw [helperLoop_of_applied hTurn, hLoop]
          rfl
        · rw [← hTail, List.append_cancel_left_eq, ← hLeft] at hEqual
          rw [List.take_succ_cons, hAll hEqual]

/-- The helper applies the actions on a terminal just as they came, each once and
whole, and does not end while the pipe is open, if no payload exceeds its limit. -/
theorem helper_applies_actions (pid rows cols : Nat) (actions : List InputAction)
    (hFits : ∀ action ∈ actions, action.Fits) (pieces : List Bytes) :
    (pieces.flatten = written pid rows cols actions →
      helperLoop pieces = (actions.map InputAction.applied, none)) ∧
    (pieces.flatten <+: written pid rows cols actions →
      (helperLoop pieces).1 <+: actions.map InputAction.applied ∧ (helperLoop pieces).2 = none) := by
  rw [written_eq]
  constructor
  · intro hAll
    have hWhole : pieces.flatten <+: (actions.map encoded).flatten :=
      hAll ▸ List.prefix_refl pieces.flatten
    obtain ⟨count, hLoop, hTaken⟩ := helperLoop_of_prefix hFits hWhole
    rw [hLoop, hTaken hAll]
  · intro hPart
    obtain ⟨count, hLoop, -⟩ := helperLoop_of_prefix hFits hPart
    rw [hLoop]
    exact ⟨(List.take_prefix count actions).map InputAction.applied, rfl⟩

/-- A letter and a resize, read in three pieces. -/
theorem helper_applies_two :
    helperLoop [[1], [1, 0, 0, 0, 97, 2, 4], [0, 0, 0, 24, 0, 80, 0]] =
      ([.write [97], .resize 24 80], none) := by
  have hFits : ∀ action ∈ [InputAction.data [97], .resize 24 80], action.Fits := by
    simp [Fits, maxPayloadSize]
  exact (helper_applies_actions 7 24 80 [.data [97], .resize 24 80] hFits
    [[1], [1, 0, 0, 0, 97, 2, 4], [0, 0, 0, 24, 0, 80, 0]]).1 (by decide)

/-- Input of one byte more than the limit ends the helper's loop with nothing
written, while the pipe is open. -/
theorem large_input_ends_helper :
    ¬ ∀ (actions : List InputAction) (pieces : List Bytes),
      pieces.flatten = written 7 24 80 actions → helperLoop pieces = (actions.map asked, none) := by
  intro hAll
  have hPieces : [written 7 24 80 [.data (List.replicate (maxPayloadSize + 1) 0)]].flatten =
      encodeHelperMessage msgTypeData (List.replicate (maxPayloadSize + 1) 0) ++ [] := by
    rw [written_eq]
    simp [encoded]
  have hTurn : helperTurn [written 7 24 80 [.data (List.replicate (maxPayloadSize + 1) 0)]] =
      .breaks .payloadTooLarge := by
    refine helperTurn_of_large ?_ ?_ hPieces
    · rw [List.length_replicate]
      exact Nat.lt_succ_self _
    · rw [List.length_replicate]
      decide
  have hLoop := hAll [.data (List.replicate (maxPayloadSize + 1) 0)]
    [written 7 24 80 [.data (List.replicate (maxPayloadSize + 1) 0)]] (by simp)
  rw [helperLoop_of_breaks hTurn] at hLoop
  cases hLoop

end HibtDesk.Terminal
