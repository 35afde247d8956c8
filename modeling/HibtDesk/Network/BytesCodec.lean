import Mathlib.Tactic.SplitIfs
import HibtDesk.Common.Options
import HibtDesk.Library.Incremental

/-! The framing of byte streams. A frame is a header of one to four bytes, whose
two low bits tell its width and whose other bits the length of the body, and
then the body. A codec set to raw passes bytes through as they come. -/
namespace HibtDesk

inductive ErrorKind where
  | invalidData | invalidInput | other
  deriving DecidableEq, Repr

/-- `io::Error`. -/
structure IoError where
  kind : ErrorKind
  message : String
  deriving DecidableEq, Repr

inductive DecodeState where
  | head
  | data (n : Nat)
  deriving DecidableEq, Repr

structure BytesCodec where
  state : DecodeState
  raw : Bool
  maxPacketLength : Nat
  deriving DecidableEq, Repr

def usizeMax : Nat := 2 ^ 64 - 1

namespace BytesCodec

def new : BytesCodec := { state := .head, raw := false, maxPacketLength := usizeMax }

def setRaw (codec : BytesCodec) : BytesCodec := { codec with raw := true }

def setMaxPacketLength (codec : BytesCodec) (n : Nat) : BytesCodec :=
  { codec with maxPacketLength := n }

def tooBigPacket : IoError := { kind := .invalidData, message := "Too big packet" }

def overflow : IoError := { kind := .invalidInput, message := "Overflow" }

/-- The length a header of `headLen` bytes at the front of `src` announces. -/
def headValue (src : Bytes) (headLen : Nat) : Nat :=
  let byte := fun i => (src.getD i 0).toNat
  let n := byte 0
  let n := if headLen > 1 then n ||| byte 1 <<< 8 else n
  let n := if headLen > 2 then n ||| byte 2 <<< 16 else n
  let n := if headLen > 3 then n ||| byte 3 <<< 24 else n
  n >>> 2

def decodeHead (codec : BytesCodec) (src : Bytes) : Except IoError (Option Nat) × Bytes :=
  match src with
  | [] => (.ok none, src)
  | first :: _ =>
      let headLen := ((first &&& 0x3) + 1).toNat
      if src.length < headLen then (.ok none, src)
      else
        let n := headValue src headLen
        if n > codec.maxPacketLength then (.error tooBigPacket, src)
        else (.ok (some n), src.drop headLen)

def decodeData (n : Nat) (src : Bytes) : Option Bytes × Bytes :=
  if src.length < n then (none, src) else (some (src.take n), src.drop n)

/-- The second half of `decode`, once the length of the body is known. -/
def decodeBody (codec : BytesCodec) (n : Nat) (src : Bytes) :
    Except IoError (Option Bytes) × BytesCodec × Bytes :=
  match decodeData n src with
  | (some data, rest) => (.ok (some data), { codec with state := .head }, rest)
  | (none, rest) => (.ok none, codec, rest)

def decode (codec : BytesCodec) (src : Bytes) :
    Except IoError (Option Bytes) × BytesCodec × Bytes :=
  if codec.raw then
    if src.isEmpty then (.ok none, codec, src) else (.ok (some src), codec, [])
  else
    match codec.state with
    | .head =>
        match codec.decodeHead src with
        | (.error error, rest) => (.error error, codec, rest)
        | (.ok none, rest) => (.ok none, codec, rest)
        | (.ok (some n), rest) => { codec with state := .data n }.decodeBody n rest
    | .data n => codec.decodeBody n src

/-- The `width` low bytes of a number, lowest first. -/
def putLe : Nat → Nat → Bytes
  | 0, _ => []
  | width + 1, n => UInt8.ofNat n :: putLe width (n / 256)

/-- The header of a body of `length` bytes, unless the body is too long. -/
def encodeHead (length : Nat) : Option Bytes :=
  if length ≤ 0x3F then some (putLe 1 (length <<< 2))
  else if length ≤ 0x3FFF then some (putLe 2 ((length <<< 2) % 2 ^ 16 ||| 0x1))
  else if length ≤ 0x3FFFFF then
    let h := (length <<< 2) % 2 ^ 32 ||| 0x2
    some (putLe 2 (h &&& 0xFFFF) ++ putLe 1 (h >>> 16))
  else if length ≤ 0x3FFFFFFF then some (putLe 4 ((length <<< 2) % 2 ^ 32 ||| 0x3))
  else none

def encode (codec : BytesCodec) (data buf : Bytes) : Except IoError Unit × Bytes :=
  if codec.raw then (.ok (), buf ++ data)
  else
    match encodeHead data.length with
    | some header => (.ok (), buf ++ header ++ data)
    | none => (.error overflow, buf)

/-- The number a row of bytes stands for, lowest first. -/
def leValue : Bytes → Nat
  | [] => 0
  | byte :: rest => byte.toNat + 256 * leValue rest

structure Frame where
  header : Bytes
  body : Bytes
  deriving DecidableEq, Repr

def Frame.text (frame : Frame) : Bytes := frame.header ++ frame.body

/-- A whole byte string read in one go: the complete frames, whether a header
announces too much, the header of an incomplete frame and the bytes after it. -/
structure Parsed where
  frames : List Frame
  tooBig : Bool
  pending : Bytes
  rest : Bytes
  deriving DecidableEq, Repr

/-- The header at the front and what follows, if the header is complete. -/
def takeHeader : Bytes → Option (Bytes × Bytes)
  | [] => none
  | first :: bytes =>
      let width := first.toNat % 4
      if bytes.length < width then none
      else some (first :: bytes.take width, bytes.drop width)

theorem takeHeader_length {bytes header rest : Bytes} (h : takeHeader bytes = some (header, rest)) :
    rest.length < bytes.length := by
  cases bytes with
  | nil => simp [takeHeader] at h
  | cons first bytes =>
      simp only [takeHeader] at h
      split at h
      · simp at h
      · obtain ⟨-, rfl⟩ := Prod.mk.inj (Option.some.inj h)
        simp only [List.length_drop, List.length_cons]
        omega

/-- What the bytes say, read without a state. -/
def parse (maxPacketLength : Nat) (bytes : Bytes) : Parsed :=
  match _hHeader : takeHeader bytes with
  | none => { frames := [], tooBig := false, pending := [], rest := bytes }
  | some (header, rest) =>
      let n := leValue header / 4
      if maxPacketLength < n then { frames := [], tooBig := true, pending := [], rest := bytes }
      else if rest.length < n then
        { frames := [], tooBig := false, pending := header, rest := rest }
      else
        let later := parse maxPacketLength (rest.drop n)
        { later with frames := ⟨header, rest.take n⟩ :: later.frames }
termination_by bytes.length
decreasing_by
  have hShorter := takeHeader_length _hHeader
  rw [List.length_drop]
  omega

section Bits

theorem or_shiftLeft {low bits : Nat} (hLow : low < 2 ^ bits) (high : Nat) :
    low ||| high <<< bits = low + 2 ^ bits * high := by
  rw [Nat.or_comm, ← Nat.shiftLeft_add_eq_or_of_lt hLow, Nat.shiftLeft_eq,
    Nat.add_comm, Nat.mul_comm]

theorem width_toNat (first : UInt8) : ((first &&& 0x3) + 1).toNat = first.toNat % 4 + 1 := by
  have hAnd : (first &&& 0x3).toNat = first.toNat % 4 := by
    rw [UInt8.toNat_and]
    exact Nat.and_two_pow_sub_one_eq_mod first.toNat 2
  rw [UInt8.toNat_add, hAnd]
  have hSmall : first.toNat % 4 < 4 := Nat.mod_lt _ (by decide)
  simp only [UInt8.toNat_one]
  omega

/-- The shifts of `decode_head` add up the bytes of the header. -/
theorem headValue_eq {src : Bytes} {width : Nat} (hWidth : width < 4) (hLength : width < src.length) :
    headValue src (width + 1) = leValue (src.take (width + 1)) / 4 := by
  have hByte : ∀ byte : UInt8, byte.toNat < 2 ^ 8 := UInt8.toNat_lt
  have hShift : ∀ n : Nat, n >>> 2 = n / 4 := fun n => Nat.shiftRight_eq_div_pow n 2
  have hTwo : ∀ a b : UInt8, a.toNat ||| b.toNat <<< 8 = a.toNat + 256 * b.toNat :=
    fun a b => or_shiftLeft (hByte a) _
  have hThree : ∀ a b c : UInt8, a.toNat + 256 * b.toNat ||| c.toNat <<< 16 =
      a.toNat + 256 * b.toNat + 65536 * c.toNat := by
    intro a b c
    refine or_shiftLeft ?_ _
    have hLow := hByte a
    have hHigh := hByte b
    omega
  have hFour : ∀ a b c d : UInt8, a.toNat + 256 * b.toNat + 65536 * c.toNat |||
      d.toNat <<< 24 = a.toNat + 256 * b.toNat + 65536 * c.toNat + 16777216 * d.toNat := by
    intro a b c d
    refine or_shiftLeft ?_ _
    have hLow := hByte a
    have hMiddle := hByte b
    have hHigh := hByte c
    omega
  match width, hWidth, src, hLength with
  | 0, _, a :: _, _ => simp [headValue, leValue, hShift]
  | 1, _, a :: b :: _, _ =>
      simp only [headValue, leValue, List.getD_cons_zero, List.getD_cons_succ, List.take_succ_cons,
        List.take_zero, hShift, hTwo, if_true, gt_iff_lt, Nat.reduceAdd,
        Nat.reduceLT, if_false, Nat.mul_zero, Nat.add_zero]
  | 2, _, a :: b :: c :: _, _ =>
      simp only [headValue, leValue, List.getD_cons_zero, List.getD_cons_succ, List.take_succ_cons,
        List.take_zero, hShift, hTwo, hThree, if_true, gt_iff_lt,
        Nat.reduceAdd, Nat.reduceLT, if_false, Nat.mul_zero, Nat.add_zero]
      omega
  | 3, _, a :: b :: c :: d :: _, _ =>
      simp only [headValue, leValue, List.getD_cons_zero, List.getD_cons_succ, List.take_succ_cons,
        List.take_zero, hShift, hTwo, hThree, hFour, if_true, gt_iff_lt,
        Nat.reduceAdd, Nat.reduceLT, Nat.mul_zero, Nat.add_zero]
      omega

theorem decodeHead_eq (codec : BytesCodec) (src : Bytes) :
    codec.decodeHead src =
      match takeHeader src with
      | none => (.ok none, src)
      | some (header, rest) =>
          if codec.maxPacketLength < leValue header / 4 then (.error tooBigPacket, src)
          else (.ok (some (leValue header / 4)), rest) := by
  cases src with
  | nil => rfl
  | cons first bytes =>
      simp only [decodeHead, takeHeader, width_toNat, List.length_cons]
      by_cases hShort : bytes.length < first.toNat % 4
      · rw [if_pos (by omega), if_pos hShort]
      · have hValue : headValue (first :: bytes) (first.toNat % 4 + 1) =
            leValue (first :: bytes.take (first.toNat % 4)) / 4 :=
          headValue_eq (Nat.mod_lt _ (by decide)) (by simp only [List.length_cons]; omega)
        rw [if_neg (by omega), if_neg hShort, hValue]
        rfl

end Bits

section Calls

theorem takeHeader_append {src header rest : Bytes} (h : takeHeader src = some (header, rest))
    (more : Bytes) : takeHeader (src ++ more) = some (header, rest ++ more) := by
  cases src with
  | nil => simp [takeHeader] at h
  | cons first bytes =>
      simp only [takeHeader] at h
      split at h
      · simp at h
      · rename_i hShort
        obtain ⟨rfl, rfl⟩ := Prod.mk.inj (Option.some.inj h)
        simp only [List.cons_append, takeHeader]
        rw [if_neg (by rw [List.length_append]; omega),
          List.take_append_of_le_length (by omega), List.drop_append_of_le_length (by omega)]

theorem takeHeader_eq {src header rest : Bytes} (h : takeHeader src = some (header, rest)) :
    src = header ++ rest := by
  cases src with
  | nil => simp [takeHeader] at h
  | cons first bytes =>
      simp only [takeHeader] at h
      split at h
      · simp at h
      · obtain ⟨rfl, rfl⟩ := Prod.mk.inj (Option.some.inj h)
        simp

theorem decodeBody_eq (codec : BytesCodec) (n : Nat) (src : Bytes) :
    codec.decodeBody n src =
      if src.length < n then (.ok none, codec, src)
      else (.ok (some (src.take n)), { codec with state := .head }, src.drop n) := by
  unfold decodeBody decodeData
  split_ifs <;> rfl

/-- A codec that frames, with its limit and the state it is in. -/
def framing (maxPacketLength : Nat) (state : DecodeState) : BytesCodec :=
  { state := state, raw := false, maxPacketLength := maxPacketLength }

variable {maxPacketLength : Nat}

theorem decode_data (n : Nat) (src : Bytes) :
    (framing maxPacketLength (.data n)).decode src =
      if src.length < n then (.ok none, framing maxPacketLength (.data n), src)
      else (.ok (some (src.take n)), framing maxPacketLength .head, src.drop n) :=
  decodeBody_eq (framing maxPacketLength (.data n)) n src

/-- Everything a call can do while it looks for a header. -/
theorem decode_head (src : Bytes) :
    (framing maxPacketLength .head).decode src =
      match takeHeader src with
      | none => (.ok none, framing maxPacketLength .head, src)
      | some (header, rest) =>
          if maxPacketLength < leValue header / 4 then
            (.error tooBigPacket, framing maxPacketLength .head, src)
          else (framing maxPacketLength (.data (leValue header / 4))).decode rest := by
  have hBody : ∀ n rest, (framing maxPacketLength (.data n)).decode rest =
      (framing maxPacketLength (.data n)).decodeBody n rest := fun _ _ => rfl
  simp only [hBody]
  unfold decode
  simp only [framing, Bool.false_eq_true, if_false, decodeHead_eq]
  cases takeHeader src with
  | none => rfl
  | some found =>
      dsimp only
      split_ifs <;> rfl

/-- One call as the theory of incremental decoders sees it. -/
def framedCall (maxPacketLength : Nat) (state : DecodeState) (src : Bytes) :
    Incremental.Call UInt8 DecodeState Bytes IoError :=
  let call := (framing maxPacketLength state).decode src
  (call.1, call.2.1.state, call.2.2)

/-- A call changes nothing of the codec but its state. -/
theorem decode_framing (state : DecodeState) (src : Bytes) :
    (framing maxPacketLength state).decode src =
      ((framedCall maxPacketLength state src).1,
        framing maxPacketLength (framedCall maxPacketLength state src).2.1,
        (framedCall maxPacketLength state src).2.2) := by
  have hData : ∀ n rest, (framing maxPacketLength (.data n)).decode rest =
      ((framedCall maxPacketLength (.data n) rest).1,
        framing maxPacketLength (framedCall maxPacketLength (.data n) rest).2.1,
        (framedCall maxPacketLength (.data n) rest).2.2) := by
    intro n rest
    unfold framedCall
    rw [decode_data]
    split_ifs <;> rfl
  cases state with
  | data n => exact hData n src
  | head =>
      unfold framedCall at hData ⊢
      rw [decode_head]
      split
      · rfl
      · split_ifs
        · rfl
        · exact hData _ _

theorem framedCall_data (n : Nat) (src : Bytes) :
    framedCall maxPacketLength (.data n) src =
      if src.length < n then (.ok none, .data n, src)
      else (.ok (some (src.take n)), .head, src.drop n) := by
  unfold framedCall
  rw [decode_data]
  split_ifs <;> rfl

theorem framedCall_head (src : Bytes) :
    framedCall maxPacketLength .head src =
      match takeHeader src with
      | none => (.ok none, .head, src)
      | some (header, rest) =>
          if maxPacketLength < leValue header / 4 then (.error tooBigPacket, .head, src)
          else framedCall maxPacketLength (.data (leValue header / 4)) rest := by
  unfold framedCall
  rw [decode_head]
  cases takeHeader src with
  | none => rfl
  | some found =>
      dsimp only
      split_ifs <;> rfl

/-- A call in the middle of a frame takes the body or waits for it. -/
theorem framedCall_data_cases {n : Nat} {src rest : Bytes} {after : DecodeState}
    {result : Except IoError (Option Bytes)}
    (hCall : framedCall maxPacketLength (.data n) src = (result, after, rest)) :
    (src.length < n ∧ result = .ok none ∧ after = .data n ∧ rest = src) ∨
      (n ≤ src.length ∧ result = .ok (some (src.take n)) ∧ after = .head ∧ rest = src.drop n) := by
  rw [framedCall_data] at hCall
  split_ifs at hCall with hShort
  · simp only [Prod.mk.injEq] at hCall
    obtain ⟨rfl, rfl, rfl⟩ := hCall
    exact Or.inl ⟨hShort, rfl, rfl, rfl⟩
  · simp only [Prod.mk.injEq] at hCall
    obtain ⟨rfl, rfl, rfl⟩ := hCall
    exact Or.inr ⟨Nat.le_of_not_lt hShort, rfl, rfl, rfl⟩

/-- A call at the start of a frame waits for the header, refuses it, or goes on
with the body. -/
theorem framedCall_head_cases {src rest : Bytes} {after : DecodeState}
    {result : Except IoError (Option Bytes)}
    (hCall : framedCall maxPacketLength .head src = (result, after, rest)) :
    (takeHeader src = none ∧ result = .ok none ∧ after = .head ∧ rest = src) ∨
      ∃ header body, takeHeader src = some (header, body) ∧
        ((maxPacketLength < leValue header / 4 ∧ result = .error tooBigPacket ∧
            after = .head ∧ rest = src) ∨
          (leValue header / 4 ≤ maxPacketLength ∧
            framedCall maxPacketLength (.data (leValue header / 4)) body =
              (result, after, rest))) := by
  rw [framedCall_head] at hCall
  cases hHeader : takeHeader src with
  | none =>
      rw [hHeader] at hCall
      simp only [Prod.mk.injEq] at hCall
      obtain ⟨rfl, rfl, rfl⟩ := hCall
      exact Or.inl ⟨rfl, rfl, rfl, rfl⟩
  | some found =>
      obtain ⟨header, body⟩ := found
      rw [hHeader] at hCall
      dsimp only at hCall
      refine Or.inr ⟨header, body, rfl, ?_⟩
      split_ifs at hCall with hBig
      · simp only [Prod.mk.injEq] at hCall
        obtain ⟨rfl, rfl, rfl⟩ := hCall
        exact Or.inl ⟨hBig, rfl, rfl, rfl⟩
      · exact Or.inr ⟨Nat.le_of_not_lt hBig, hCall⟩

theorem framedCall_head_of_header {src header body : Bytes}
    (hHeader : takeHeader src = some (header, body))
    (hFits : leValue header / 4 ≤ maxPacketLength) :
    framedCall maxPacketLength .head src =
      framedCall maxPacketLength (.data (leValue header / 4)) body := by
  rw [framedCall_head, hHeader]
  exact if_neg (Nat.not_lt.mpr hFits)

/-- A body that is there is taken whatever comes after it. -/
theorem framedCall_data_item {n : Nat} {src : Bytes} (hLong : n ≤ src.length) (more : Bytes) :
    framedCall maxPacketLength (.data n) (src ++ more) =
      (.ok (some (src.take n)), .head, src.drop n ++ more) := by
  rw [framedCall_data, if_neg (by rw [List.length_append]; omega),
    List.take_append_of_le_length hLong, List.drop_append_of_le_length hLong]

/-- The codec answers from the bytes at the front of its buffer alone. -/
def decoder (maxPacketLength : Nat) : Incremental.Decoder UInt8 DecodeState Bytes IoError where
  decode := framedCall maxPacketLength
  weight := fun state src =>
    match state with
    | .head => src.length
    | .data _ => src.length + 1
  weight_item := by
    intro state src item after rest hCall
    cases state with
    | data n =>
        rcases framedCall_data_cases hCall with ⟨-, hNone, -⟩ | ⟨hLong, -, rfl, rfl⟩
        · cases hNone
        · simp only [List.length_drop]
          omega
    | head =>
        rcases framedCall_head_cases hCall with ⟨-, hNone, -⟩ | ⟨header, body, hHeader, hRest⟩
        · cases hNone
        · have hShorter := takeHeader_length hHeader
          rcases hRest with ⟨-, hError, -⟩ | ⟨-, hBody⟩
          · cases hError
          · rcases framedCall_data_cases hBody with ⟨-, hNone, -⟩ | ⟨hLong, -, rfl, rfl⟩
            · cases hNone
            · simp only [List.length_drop]
              omega
  item_append := by
    intro state src item after rest hCall more
    cases state with
    | data n =>
        rcases framedCall_data_cases hCall with ⟨-, hNone, -⟩ | ⟨hLong, hItem, rfl, rfl⟩
        · cases hNone
        · rw [framedCall_data_item hLong, ← hItem]
    | head =>
        rcases framedCall_head_cases hCall with ⟨-, hNone, -⟩ | ⟨header, body, hHeader, hRest⟩
        · cases hNone
        · rcases hRest with ⟨-, hError, -⟩ | ⟨hFits, hBody⟩
          · cases hError
          · rw [framedCall_head_of_header (takeHeader_append hHeader more) hFits]
            rcases framedCall_data_cases hBody with ⟨-, hNone, -⟩ | ⟨hLong, hItem, rfl, rfl⟩
            · cases hNone
            · rw [framedCall_data_item hLong, ← hItem]
  wait_append := by
    intro state src after rest hCall more
    cases state with
    | data n =>
        rcases framedCall_data_cases hCall with ⟨-, -, rfl, rfl⟩ | ⟨-, hItem, -⟩
        · rfl
        · cases hItem
    | head =>
        rcases framedCall_head_cases hCall with ⟨-, -, rfl, rfl⟩ | ⟨header, body, hHeader, hRest⟩
        · rfl
        · rcases hRest with ⟨-, hError, -⟩ | ⟨hFits, hBody⟩
          · cases hError
          · rw [framedCall_head_of_header (takeHeader_append hHeader more) hFits]
            rcases framedCall_data_cases hBody with ⟨-, -, rfl, rfl⟩ | ⟨-, hItem, -⟩
            · rfl
            · cases hItem
  fail_append := by
    intro state src error after rest hCall more
    cases state with
    | data n =>
        rcases framedCall_data_cases hCall with ⟨-, hNone, -⟩ | ⟨-, hItem, -⟩
        · cases hNone
        · cases hItem
    | head =>
        rcases framedCall_head_cases hCall with ⟨-, hNone, -⟩ | ⟨header, body, hHeader, hRest⟩
        · cases hNone
        · rcases hRest with ⟨hBig, hError, -⟩ | ⟨-, hBody⟩
          · rw [framedCall_head, takeHeader_append hHeader more]
            dsimp only
            rw [if_pos hBig, Except.error.inj hError]
          · rcases framedCall_data_cases hBody with ⟨-, hNone, -⟩ | ⟨-, hItem, -⟩
            · cases hNone
            · cases hItem

end Calls

end BytesCodec

end HibtDesk
