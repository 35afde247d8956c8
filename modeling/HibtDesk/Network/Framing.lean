import HibtDesk.Network.BytesCodec

/-! What the framing promises: frames come out as they went in, however the
stream is cut, and on any bytes at all the decoder agrees with a reading of the
whole string that keeps no state. -/
namespace HibtDesk.BytesCodec

open Incremental

/-- A decoder that has seen nothing. -/
def fresh : Drained UInt8 DecodeState Bytes IoError := ⟨[], none, .head, []⟩

/-- The state a reading leaves the decoder in. -/
def Parsed.state (parsed : Parsed) : DecodeState :=
  if parsed.pending.isEmpty then .head else .data (leValue parsed.pending / 4)

def Parsed.refused (parsed : Parsed) : Option IoError :=
  if parsed.tooBig then some tooBigPacket else none

section Parse
variable {maxPacketLength : Nat}

theorem takeHeader_ne_nil {src header rest : Bytes} (h : takeHeader src = some (header, rest)) :
    header.isEmpty = false := by
  cases src with
  | nil => simp [takeHeader] at h
  | cons first bytes =>
      simp only [takeHeader] at h
      split at h
      · simp at h
      · obtain ⟨rfl, -⟩ := Prod.mk.inj (Option.some.inj h)
        rfl

theorem parse_of_none {bytes : Bytes} (hHeader : takeHeader bytes = none) :
    parse maxPacketLength bytes = ⟨[], false, [], bytes⟩ := by
  rw [parse.eq_def]
  split <;> simp_all

theorem parse_of_some {bytes header rest : Bytes} (hHeader : takeHeader bytes = some (header, rest)) :
    parse maxPacketLength bytes =
      if maxPacketLength < leValue header / 4 then ⟨[], true, [], bytes⟩
      else if rest.length < leValue header / 4 then ⟨[], false, header, rest⟩
      else
        let later := parse maxPacketLength (rest.drop (leValue header / 4))
        { later with frames := ⟨header, rest.take (leValue header / 4)⟩ :: later.frames } := by
  rw [parse.eq_def]
  split <;> simp_all

/-- The stateful decoder and the stateless reading agree on every byte string. -/
theorem drain_eq_parse (bytes : Bytes) :
    (decoder maxPacketLength).drain .head bytes =
      { items := (parse maxPacketLength bytes).frames.map Frame.body
        refused := (parse maxPacketLength bytes).refused
        state := (parse maxPacketLength bytes).state
        rest := (parse maxPacketLength bytes).rest } := by
  induction hLength : bytes.length using Nat.strongRecOn generalizing bytes with
  | _ length ih =>
      have hCall : framedCall maxPacketLength .head bytes = _ := framedCall_head bytes
      cases hHeader : takeHeader bytes with
      | none =>
          rw [hHeader] at hCall
          rw [Decoder.drain_of_wait hCall, parse_of_none hHeader]
          rfl
      | some found =>
          obtain ⟨header, rest⟩ := found
          rw [hHeader] at hCall
          dsimp only at hCall
          rw [parse_of_some hHeader]
          split_ifs at hCall ⊢ with hBig hShort
          · rw [Decoder.drain_of_fail hCall]
            rfl
          · rw [framedCall_data, if_pos hShort] at hCall
            rw [Decoder.drain_of_wait hCall]
            simp [Parsed.refused, Parsed.state, takeHeader_ne_nil hHeader]
          · rw [framedCall_data, if_neg hShort] at hCall
            have hShorter := takeHeader_length hHeader
            have hLater := ih (rest.drop (leValue header / 4)).length
              (by rw [List.length_drop]; omega) _ rfl
            rw [Decoder.drain_of_item hCall, hLater]
            rfl

/-- The frames, the header read ahead and the rest are the input, in order. -/
theorem parse_text (bytes : Bytes) :
    (parse maxPacketLength bytes).frames.flatMap Frame.text ++
      (parse maxPacketLength bytes).pending ++ (parse maxPacketLength bytes).rest = bytes := by
  induction hLength : bytes.length using Nat.strongRecOn generalizing bytes with
  | _ length ih =>
      cases hHeader : takeHeader bytes with
      | none => simp [parse_of_none hHeader]
      | some found =>
          obtain ⟨header, rest⟩ := found
          have hText := takeHeader_eq hHeader
          have hShorter := takeHeader_length hHeader
          rw [parse_of_some hHeader]
          split_ifs with hBig hShort
          · simp
          · simp [hText]
          · have hLater := ih (rest.drop (leValue header / 4)).length
              (by rw [List.length_drop]; omega) _ rfl
            simp only [List.flatMap_cons, Frame.text, List.append_assoc] at hLater ⊢
            rw [hLater, List.take_append_drop, hText]

end Parse

section Encode

theorem leValue_putLe (width n : Nat) : leValue (putLe width n) = n % 256 ^ width := by
  induction width generalizing n with
  | zero => simp [putLe, leValue, Nat.mod_one]
  | succ width ih =>
      have hPow : 256 ^ (width + 1) = 256 * 256 ^ width := Nat.pow_succ'
      simp only [putLe, leValue, ih, UInt8.toNat_ofNat']
      rw [hPow, Nat.mod_mul]

theorem leValue_putLe_of_lt {width n : Nat} (hLt : n < 256 ^ width) : leValue (putLe width n) = n := by
  rw [leValue_putLe, Nat.mod_eq_of_lt hLt]

theorem putLe_injective (width : Nat) {m n : Nat} (hm : m < 256 ^ width) (hn : n < 256 ^ width)
    (hSame : putLe width m = putLe width n) : m = n := by
  have hValue := congrArg leValue hSame
  rwa [leValue_putLe_of_lt hm, leValue_putLe_of_lt hn] at hValue

theorem leValue_lt (bytes : Bytes) : leValue bytes < 256 ^ bytes.length := by
  induction bytes with
  | nil => decide
  | cons byte bytes ih =>
      have hByte : byte.toNat < 256 := byte.toNat_lt
      rw [List.length_cons, Nat.pow_succ]
      unfold leValue
      omega

theorem leValue_take_lt (bytes : Bytes) (n : Nat) : leValue (bytes.take n) < 256 ^ n :=
  (leValue_lt _).trans_le (Nat.pow_le_pow_right (by decide) (List.length_take_le n bytes))

theorem leValue_append (first second : Bytes) :
    leValue (first ++ second) = leValue first + 256 ^ first.length * leValue second := by
  induction first with
  | nil => simp [leValue]
  | cons byte rest ih =>
      rw [List.cons_append, leValue, leValue, ih, List.length_cons, Nat.pow_succ', Nat.mul_add,
        Nat.mul_assoc, Nat.add_assoc]

theorem leValue_zeros (n : Nat) : leValue (List.replicate n 0) = 0 := by
  induction n with
  | zero => rfl
  | succ n ih =>
      rw [List.replicate_succ, leValue, ih]
      rfl

theorem putLe_leValue (bytes : Bytes) : putLe bytes.length (leValue bytes) = bytes := by
  induction bytes with
  | nil => rfl
  | cons byte rest ih =>
      have hByte := byte.toNat_lt
      have hLow : UInt8.ofNat (byte.toNat + 256 * leValue rest) = byte := by
        apply UInt8.toNat_inj.mp
        rw [UInt8.toNat_ofNat']
        omega
      have hHigh : (byte.toNat + 256 * leValue rest) / 256 = leValue rest := by omega
      rw [List.length_cons, leValue, putLe, hLow, hHigh, ih]

@[simp] theorem length_putLe (width n : Nat) : (putLe width n).length = width := by
  induction width generalizing n with
  | zero => rfl
  | succ width ih => simp [putLe, ih]

/-- The tag in the two low bits leaves the length readable above them. -/
theorem shiftLeft_or_tag {tag : Nat} (hTag : tag < 4) (length : Nat) :
    length <<< 2 ||| tag = 4 * length + tag := by
  have hOr : tag ||| length <<< 2 = tag + 4 * length := or_shiftLeft hTag length
  rw [Nat.or_comm, hOr, Nat.add_comm]

/-- The header takes one byte and as many more as its tag says. -/
theorem encodeHead_eq {length : Nat} {header : Bytes} (hHeader : encodeHead length = some header) :
    ∃ tag, tag < 4 ∧ 4 * length + tag < 256 ^ (tag + 1) ∧
      header = putLe (tag + 1) (4 * length + tag) := by
  unfold encodeHead at hHeader
  have hShift : length <<< 2 = 4 * length := by
    rw [Nat.shiftLeft_eq, Nat.mul_comm]
  split_ifs at hHeader with h1 h2 h3 h4
  · refine ⟨0, by decide, by omega, ?_⟩
    rw [← Option.some.inj hHeader, hShift]
    rfl
  · refine ⟨1, by decide, by omega, ?_⟩
    rw [← Option.some.inj hHeader, Nat.mod_eq_of_lt (by omega), shiftLeft_or_tag (by decide)]
  · refine ⟨2, by decide, by omega, ?_⟩
    have hWhole : (length <<< 2) % 2 ^ 32 ||| 0x2 = 4 * length + 2 := by
      rw [Nat.mod_eq_of_lt (by omega), shiftLeft_or_tag (by decide)]
    have hLow : (4 * length + 2) &&& 0xFFFF = (4 * length + 2) % 2 ^ 16 :=
      Nat.and_two_pow_sub_one_eq_mod _ 16
    rw [← Option.some.inj hHeader, hWhole, hLow, Nat.shiftRight_eq_div_pow]
    have hByte : ∀ a b, a % 256 = b % 256 → UInt8.ofNat a = UInt8.ofNat b := by
      intro a b hSame
      apply UInt8.toNat_inj.mp
      simpa only [UInt8.toNat_ofNat'] using hSame
    simp only [putLe, List.cons_append, List.nil_append, List.cons.injEq, and_true]
    exact ⟨hByte _ _ (by omega), hByte _ _ (by omega), hByte _ _ (by omega)⟩
  · refine ⟨3, by decide, by omega, ?_⟩
    rw [← Option.some.inj hHeader, Nat.mod_eq_of_lt (by omega), shiftLeft_or_tag (by decide)]

/-- Reading the header back gives the length of the body. -/
theorem takeHeader_encodeHead {length : Nat} {header : Bytes}
    (hHeader : encodeHead length = some header) (rest : Bytes) :
    takeHeader (header ++ rest) = some (header, rest) ∧ leValue header / 4 = length := by
  obtain ⟨tag, hTag, hBound, rfl⟩ := encodeHead_eq hHeader
  have hFirst : (UInt8.ofNat (4 * length + tag)).toNat % 4 = tag := by
    rw [UInt8.toNat_ofNat']
    omega
  constructor
  · simp only [putLe, List.cons_append, takeHeader, hFirst]
    rw [if_neg (by simp), List.take_left' (length_putLe ..), List.drop_left' (length_putLe ..)]
  · rw [leValue_putLe_of_lt hBound]
    omega

theorem encodeHead_isSome {length : Nat} (hFits : length ≤ 0x3FFFFFFF) :
    ∃ header, encodeHead length = some header := by
  unfold encodeHead
  split_ifs
  all_goals exact ⟨_, rfl⟩

theorem encodeHead_eq_none {length : Nat} (hLong : 0x3FFFFFFF < length) :
    encodeHead length = none := by
  unfold encodeHead
  split_ifs
  all_goals first | rfl | omega

end Encode

/-- Encode the payloads one after another, up to the first that is refused. -/
def encodeAll (codec : BytesCodec) : List Bytes → Bytes → Except IoError Unit × Bytes
  | [], buf => (.ok (), buf)
  | payload :: payloads, buf =>
      match codec.encode payload buf with
      | (.ok (), buf) => codec.encodeAll payloads buf
      | (.error error, buf) => (.error error, buf)

section RoundTrip
variable {codec : BytesCodec} {maxPacketLength : Nat}

theorem encode_of_fits (hRaw : codec.raw = false) {data : Bytes} (hFits : data.length ≤ 0x3FFFFFFF)
    (buf : Bytes) :
    ∃ header, encodeHead data.length = some header ∧
      codec.encode data buf = (.ok (), buf ++ header ++ data) := by
  obtain ⟨header, hHeader⟩ := encodeHead_isSome hFits
  refine ⟨header, hHeader, ?_⟩
  simp [encode, hRaw, hHeader]

theorem encode_of_long (hRaw : codec.raw = false) {data : Bytes} (hLong : 0x3FFFFFFF < data.length)
    (buf : Bytes) : codec.encode data buf = (.error overflow, buf) := by
  simp [encode, hRaw, encodeHead_eq_none hLong]

/-- An encoded frame at the front is read as its payload. -/
theorem parse_frame {data header : Bytes} (hHeader : encodeHead data.length = some header)
    (hMax : data.length ≤ maxPacketLength) (more : Bytes) :
    parse maxPacketLength (header ++ data ++ more) =
      { parse maxPacketLength more with
        frames := ⟨header, data⟩ :: (parse maxPacketLength more).frames } := by
  obtain ⟨hTake, hLength⟩ := takeHeader_encodeHead hHeader (data ++ more)
  rw [List.append_assoc, parse_of_some hTake, hLength, if_neg (Nat.not_lt.mpr hMax),
    if_neg (by rw [List.length_append]; omega), List.take_left, List.drop_left]

/-- What was encoded is read back in order, with nothing left over. -/
theorem parse_encodeAll (hRaw : codec.raw = false) {payloads : List Bytes}
    (hFits : ∀ payload ∈ payloads, payload.length ≤ 0x3FFFFFFF)
    (hMax : 0x3FFFFFFF ≤ maxPacketLength) (buf : Bytes) :
    ∃ stream, codec.encodeAll payloads buf = (.ok (), buf ++ stream) ∧
      (parse maxPacketLength stream).frames.map Frame.body = payloads ∧
      (parse maxPacketLength stream).tooBig = false ∧
      (parse maxPacketLength stream).pending = [] ∧ (parse maxPacketLength stream).rest = [] := by
  induction payloads generalizing buf with
  | nil =>
      refine ⟨[], by simp [encodeAll], ?_⟩
      rw [parse_of_none rfl]
      exact ⟨rfl, rfl, rfl, rfl⟩
  | cons payload payloads ih =>
      have hHere := hFits payload (List.mem_cons_self ..)
      obtain ⟨header, hHeader, hEncode⟩ := encode_of_fits hRaw hHere buf
      obtain ⟨stream, hStream, hParse⟩ :=
        ih (fun other hOther => hFits other (List.mem_cons_of_mem _ hOther)) (buf ++ header ++ payload)
      refine ⟨header ++ payload ++ stream, ?_, ?_⟩
      · have hAssoc : buf ++ (header ++ payload ++ stream) = buf ++ header ++ payload ++ stream := by
          simp only [List.append_assoc]
        rw [hAssoc, ← hStream]
        simp only [encodeAll, hEncode]
      · rw [parse_frame hHeader (Nat.le_trans hHere hMax)]
        simpa using hParse

theorem feed_fresh (chunks : List Bytes) :
    (decoder maxPacketLength).feed fresh chunks =
      { items := (parse maxPacketLength chunks.flatten).frames.map Frame.body
        refused := (parse maxPacketLength chunks.flatten).refused
        state := (parse maxPacketLength chunks.flatten).state
        rest := (parse maxPacketLength chunks.flatten).rest } := by
  cases chunks with
  | nil =>
      rw [List.flatten_nil, parse_of_none rfl]
      rfl
  | cons chunk chunks =>
      rw [Decoder.feed_eq_drain]
      exact drain_eq_parse _

/-- Frames come out as the payloads that went in, wherever the stream is cut;
a payload that is too long is refused and nothing of it is sent. -/
theorem feed_encodeAll (hRaw : codec.raw = false) (payloads : List Bytes)
    (hFits : ∀ payload ∈ payloads, payload.length ≤ 0x3FFFFFFF) (chunks : List Bytes)
    (hChunks : chunks.flatten = (codec.encodeAll payloads []).2) :
    (codec.encodeAll payloads []).1 = .ok () ∧
      (decoder new.maxPacketLength).feed fresh chunks =
        { items := payloads, refused := none, state := .head, rest := [] } ∧
      ∀ data buf, 0x3FFFFFFF < data.length → codec.encode data buf = (.error overflow, buf) := by
  have hMax : 0x3FFFFFFF ≤ new.maxPacketLength := by decide
  obtain ⟨stream, hEncode, hFrames, hBig, hPending, hRest⟩ := parse_encodeAll hRaw hFits hMax []
  rw [hEncode, List.nil_append] at hChunks
  refine ⟨by rw [hEncode], ?_, fun data buf hLong => encode_of_long hRaw hLong buf⟩
  rw [feed_fresh, hChunks, hFrames, hRest]
  simp [Parsed.refused, Parsed.state, hBig, hPending]

theorem feed_encodeAll_split :
    (decoder new.maxPacketLength).feed fresh [[0x04], [0x07, 0x00], [0x08, 0x01, 0x02]] =
      { items := [[0x07], [], [0x01, 0x02]], refused := none, state := .head, rest := [] } :=
  have hRaw : new.raw = false := rfl
  (feed_encodeAll hRaw [[0x07], [], [0x01, 0x02]] (by decide)
    [[0x04], [0x07, 0x00], [0x08, 0x01, 0x02]] (by decide)).2.1

/-- A refusal is repeated by every later call, and no byte is taken. -/
theorem decode_error_repeats {codec after : BytesCodec} {src rest : Bytes} {error : IoError}
    (hCall : codec.decode src = (.error error, after, rest)) :
    after = codec ∧ rest = src ∧
      ∀ more, codec.decode (src ++ more) = (.error error, codec, src ++ more) := by
  have hRaw : codec.raw = false := by
    by_contra hRaw
    rw [Bool.not_eq_false] at hRaw
    unfold decode at hCall
    rw [if_pos hRaw] at hCall
    split_ifs at hCall <;> simp at hCall
  obtain ⟨state, raw, maxPacketLength⟩ := codec
  obtain rfl : raw = false := hRaw
  have hFramed : (decoder maxPacketLength).decode state src =
      (.error error, after.state, rest) := congrArg (fun call => (call.1, call.2.1.state, call.2.2)) hCall
  have hAgain : ∀ more, (framing maxPacketLength state).decode (src ++ more) =
      (.error error, framing maxPacketLength state, src ++ more) := by
    intro more
    have hMore : framedCall maxPacketLength state (src ++ more) = (.error error, state, src ++ more) :=
      (decoder maxPacketLength).fail_append hFramed more
    rw [decode_framing, hMore]
  have hNow : (framing maxPacketLength state).decode src =
      (.error error, framing maxPacketLength state, src) := by
    simpa using hAgain []
  obtain ⟨-, hAfter⟩ := Prod.mk.inj (hCall.symm.trans hNow)
  obtain ⟨rfl, rfl⟩ := Prod.mk.inj hAfter
  exact ⟨rfl, rfl, hAgain⟩

/-- On any bytes, cut anyhow, the decoder emits the frames of the one reading
of the whole, refuses where it refuses, and loses nothing. -/
theorem feed_eq_parse (maxPacketLength : Nat) (chunks : List Bytes) :
    let fed := (decoder maxPacketLength).feed fresh chunks
    let parsed := parse maxPacketLength chunks.flatten
    fed.items = parsed.frames.map Frame.body ∧ fed.refused = parsed.refused ∧
      fed.state = parsed.state ∧
      parsed.frames.flatMap Frame.text ++ parsed.pending ++ fed.rest = chunks.flatten ∧
      (fed.refused.isSome → ∀ later, (decoder maxPacketLength).feed fresh (chunks ++ later) =
        { fed with rest := fed.rest ++ later.flatten }) ∧
      ∀ state src error after rest,
        (framing maxPacketLength state).decode src = (.error error, after, rest) →
          after = framing maxPacketLength state ∧ rest = src ∧
            ∀ more, (framing maxPacketLength state).decode (src ++ more) =
              (.error error, framing maxPacketLength state, src ++ more) := by
  intro fed parsed
  have hFed : fed = _ := feed_fresh chunks
  refine ⟨by rw [hFed], by rw [hFed], by rw [hFed], ?_, ?_, fun _ _ _ _ _ => decode_error_repeats⟩
  · rw [hFed]
    exact parse_text _
  · intro hSome later
    obtain ⟨error, hRefused⟩ := Option.isSome_iff_exists.mp hSome
    have hDrain : fed = (decoder maxPacketLength).drain .head chunks.flatten := by
      rw [hFed, drain_eq_parse]
    have hAgain := Decoder.decode_of_drain_refused (hDrain ▸ hRefused)
    rw [← hDrain] at hAgain
    have hLater := Decoder.feed_of_fail hRefused hAgain later
    rw [← hLater]
    exact List.foldl_append

end RoundTrip

end HibtDesk.BytesCodec
