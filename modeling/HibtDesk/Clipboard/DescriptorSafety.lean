import HibtDesk.Clipboard.Described

/-! What the bytes of a list can do to the side that reads them. They are the peer's, and
the loop over the blocks reads each at fixed places, so that nothing but the check of the
length at the top keeps it inside. -/
namespace HibtDesk.Clipboard

open BytesCodec (leValue putLe)

namespace FileDescription

/-- The loop of `parse_file_descriptors` with the bytes that are left after it. A block that
is not all there is read past the end, which panics. -/
def consumeBlocks (overflowChecks : Bool) (connId : Int) :
    Nat → Bytes → Option (Except CliprdrError (List FileDescription) × Bytes)
  | 0, data => some (.ok [], data)
  | count + 1, data =>
      if data.length < 592 then none
      else
        match parseFileDescriptor overflowChecks connId (data.take 592) with
        | none => none
        | some (.error error) => some (.error error, data.drop 592)
        | some (.ok desc) =>
            (consumeBlocks overflowChecks connId count (data.drop 592)).map fun read =>
              (read.1.map (desc :: ·), read.2)

/-- `parse_file_descriptors` with the bytes that are left after it. -/
def consume (overflowChecks : Bool) (connId : Int) (fileDescriptorPdu : Bytes) :
    Option (Except CliprdrError (List FileDescription) × Bytes) :=
  if fileDescriptorPdu.length < 4 then
    some (.error (.invalidRequest "file descriptor request with infficient length"), fileDescriptorPdu)
  else
    let count := leValue (fileDescriptorPdu.take 4)
    let data := fileDescriptorPdu.drop 4
    if data.length = 0 ∧ count = 0 then some (.ok [], data)
    else if data.length ≠ 592 * count then
      some (.error (.invalidRequest "file descriptor request with invalid length"), data)
    else consumeBlocks overflowChecks connId count data

/-- The flags of a block. -/
def blockFlags (bytes : Bytes) : Nat := leValue (bytes.take 4)

/-- The time of the last change in a block. -/
def blockTime (bytes : Bytes) : Nat := leValue ((bytes.drop 56).take 8)

/-- A block that is read as a description: its name is a text and its attributes count. -/
def Readable (bytes : Bytes) : Prop :=
  (Utf16.decode (Utf16.ofLe ((bytes.drop 72).take 520))).isSome = true ∧
    blockFlags bytes &&& flagsFdAttributes ≠ 0

/-- The time in a block, if it counts, is not too late to be told in nanoseconds. -/
def Timely (bytes : Bytes) : Prop :=
  blockFlags bytes &&& flagsFdLastWrite ≠ 0 → ldapEpochDelta ≤ blockTime bytes →
    (blockTime bytes - ldapEpochDelta) * 100 < 2 ^ 64

/-- Every block up to the first that is not read has a time that can be told. -/
def TimelyBlocks : Nat → Bytes → Prop
  | 0, _ => True
  | count + 1, data =>
      Readable (data.take 592) → Timely (data.take 592) ∧ TimelyBlocks count (data.drop 592)

instance (bytes : Bytes) : Decidable (Readable bytes) := inferInstanceAs (Decidable (_ ∧ _))

instance (bytes : Bytes) : Decidable (Timely bytes) := inferInstanceAs (Decidable (_ → _ → _))

section Blocks
variable {bytes : Bytes}

theorem parseFileDescriptor_of_unreadable (hUnreadable : ¬ Readable bytes) (connId : Int) :
    ∃ error, ∀ overflowChecks, parseFileDescriptor overflowChecks connId bytes = some (.error error) := by
  unfold Readable blockFlags at hUnreadable
  cases hName : Utf16.decode (Utf16.ofLe ((bytes.drop 72).take 520)) with
  | none =>
      refine ⟨.conversionFailure, fun overflowChecks => ?_⟩
      unfold parseFileDescriptor
      rw [hName]
  | some wstr =>
      have hFlags : leValue (bytes.take 4) &&& flagsFdAttributes = 0 := by
        simpa [hName] using hUnreadable
      refine ⟨.invalidRequest "file description must have valid attributes", fun overflowChecks => ?_⟩
      unfold parseFileDescriptor
      rw [hName]
      exact if_pos hFlags

/-- A block that is read makes a description, unless its time overflows. -/
theorem parseFileDescriptor_of_readable (hReadable : Readable bytes) (overflowChecks : Bool)
    (connId : Int) :
    (Timely bytes → ∃ desc, parseFileDescriptor overflowChecks connId bytes = some (.ok desc)) ∧
      (¬ Timely bytes → parseFileDescriptor true connId bytes = none) := by
  obtain ⟨wstr, hName⟩ := Option.isSome_iff_exists.mp hReadable.1
  have hFlags : ¬ leValue (bytes.take 4) &&& flagsFdAttributes = 0 := hReadable.2
  unfold Timely blockFlags blockTime
  generalize hTime : leValue ((bytes.drop 56).take 8) = time
  constructor
  · intro hTimely
    unfold parseFileDescriptor
    rw [hName, hTime]
    dsimp only
    rw [if_neg hFlags]
    by_cases hCounts : leValue (bytes.take 4) &&& flagsFdLastWrite ≠ 0 ∧ ldapEpochDelta ≤ time
    · rw [if_pos hCounts, hundredfold, if_pos (hTimely hCounts.1 hCounts.2)]
      exact ⟨_, rfl⟩
    · rw [if_neg hCounts]
      exact ⟨_, rfl⟩
  · intro hLate
    have hCounts : leValue (bytes.take 4) &&& flagsFdLastWrite ≠ 0 ∧ ldapEpochDelta ≤ time := by
      by_contra hNot
      exact hLate fun hValid hFrom => absurd ⟨hValid, hFrom⟩ hNot
    have hOver : ¬ (time - ldapEpochDelta) * 100 < 2 ^ 64 := fun hFits => hLate fun _ _ => hFits
    unfold parseFileDescriptor
    rw [hName, hTime]
    dsimp only
    rw [if_neg hFlags, if_pos hCounts, hundredfold, if_neg hOver]
    rfl

end Blocks

section Loop
variable {data : Bytes} {count : Nat}

/-- The check that a block is there changes nothing where all blocks are. -/
theorem consumeBlocks_fst (overflowChecks : Bool) (connId : Int) (hWhole : data.length = 592 * count) :
    (consumeBlocks overflowChecks connId count data).map Prod.fst =
      parseBlocks overflowChecks connId count data := by
  induction count generalizing data with
  | zero => rfl
  | succ count ih =>
      have hRest : (data.drop 592).length = 592 * count := by
        rw [List.length_drop]
        omega
      have hLater := ih hRest
      rw [consumeBlocks, parseBlocks, if_neg (by omega)]
      cases parseFileDescriptor overflowChecks connId (data.take 592) with
      | none => rfl
      | some result =>
          cases result with
          | error error => rfl
          | ok desc =>
              dsimp only
              rw [← hLater, Option.map_map, Option.map_map]
              rfl

/-- What the loop comes to without a panic: an error, or all descriptions and no byte left. -/
def Ends (count : Nat) (read : Option (Except CliprdrError (List FileDescription) × Bytes)) : Prop :=
  ∃ result rest, read = some (result, rest) ∧
    ((∃ error, result = .error error) ∨
      ∃ descs, result = .ok descs ∧ descs.length = count ∧ rest = [])

theorem ends_consumeBlocks (hWhole : data.length = 592 * count) (hTimely : TimelyBlocks count data)
    (overflowChecks : Bool) (connId : Int) :
    Ends count (consumeBlocks overflowChecks connId count data) := by
  induction count generalizing data with
  | zero =>
      have hEmpty : data = [] := List.length_eq_zero_iff.mp hWhole
      exact ⟨.ok [], data, rfl, Or.inr ⟨[], rfl, rfl, hEmpty⟩⟩
  | succ count ih =>
      rw [consumeBlocks, if_neg (by omega)]
      by_cases hReadable : Readable (data.take 592)
      · obtain ⟨hNow, hLater⟩ := hTimely hReadable
        obtain ⟨desc, hDesc⟩ :=
          (parseFileDescriptor_of_readable hReadable overflowChecks connId).1 hNow
        have hRest : (data.drop 592).length = 592 * count := by
          rw [List.length_drop]
          omega
        obtain ⟨result, rest, hRead, hEnd⟩ := ih hRest hLater
        rw [hDesc]
        dsimp only
        rw [hRead]
        refine ⟨_, rest, rfl, ?_⟩
        rcases hEnd with ⟨error, rfl⟩ | ⟨descs, rfl, hLength, hDone⟩
        · exact Or.inl ⟨error, rfl⟩
        · exact Or.inr ⟨desc :: descs, rfl, congrArg (· + 1) hLength, hDone⟩
      · obtain ⟨error, hError⟩ := parseFileDescriptor_of_unreadable hReadable connId
        rw [hError]
        exact ⟨.error error, _, rfl, Or.inl ⟨error, rfl⟩⟩

/-- With overflow checks, a time that is too late ends the loop in a panic. -/
theorem timelyBlocks_of_consumeBlocks (connId : Int) (hWhole : data.length = 592 * count)
    (hRead : consumeBlocks true connId count data ≠ none) : TimelyBlocks count data := by
  induction count generalizing data with
  | zero => trivial
  | succ count ih =>
      intro hReadable
      rw [consumeBlocks, if_neg (by omega)] at hRead
      have hSpec := parseFileDescriptor_of_readable hReadable true connId
      by_cases hNow : Timely (data.take 592)
      · refine ⟨hNow, ih ?_ ?_⟩
        · rw [List.length_drop]
          omega
        · obtain ⟨desc, hDesc⟩ := hSpec.1 hNow
          rw [hDesc] at hRead
          simpa using hRead
      · rw [hSpec.2 hNow] at hRead
        exact absurd rfl hRead

end Loop

/-- The number of blocks that the bytes say there are. -/
def blockCount (fileDescriptorPdu : Bytes) : Nat := leValue (fileDescriptorPdu.take 4)

/-- Reading the bytes is safe: in no build does it panic, and it comes to an error or to as
many descriptions as there should be, with 4 bytes and the blocks read. -/
def ReadSafely (connId : Int) (fileDescriptorPdu : Bytes) : Prop :=
  ∀ overflowChecks, ∃ result rest, consume overflowChecks connId fileDescriptorPdu = some (result, rest) ∧
    ((∃ error, result = .error error) ∨
      ∃ descs, result = .ok descs ∧ descs.length = blockCount fileDescriptorPdu ∧
        fileDescriptorPdu.length = 4 + 592 * blockCount fileDescriptorPdu + rest.length)

theorem consume_fst (overflowChecks : Bool) (connId : Int) (fileDescriptorPdu : Bytes) :
    (consume overflowChecks connId fileDescriptorPdu).map Prod.fst =
      parseFileDescriptors overflowChecks connId fileDescriptorPdu := by
  unfold consume parseFileDescriptors
  split
  · rfl
  · dsimp only
    split
    · rfl
    · split
      · rfl
      · rename_i hLength
        exact consumeBlocks_fst overflowChecks connId (not_not.mp hLength)

/-- The bytes are read block by block if and only if there are as many as there should be. -/
theorem consume_of_length (overflowChecks : Bool) (connId : Int) {pdu : Bytes}
    (hLength : pdu.length = 4 + 592 * blockCount pdu) :
    consume overflowChecks connId pdu =
      consumeBlocks overflowChecks connId (blockCount pdu) (pdu.drop 4) := by
  have hData : (pdu.drop 4).length = 592 * blockCount pdu := by
    rw [List.length_drop]
    omega
  unfold blockCount at hLength hData ⊢
  unfold consume
  rw [if_neg (by omega)]
  dsimp only
  by_cases hEmpty : (pdu.drop 4).length = 0 ∧ leValue (pdu.take 4) = 0
  · rw [if_pos hEmpty, hEmpty.2]
    rfl
  · rw [if_neg hEmpty, if_neg (not_not.mpr hData)]

theorem consume_of_length_ne (overflowChecks : Bool) (connId : Int) {pdu : Bytes}
    (hLength : pdu.length ≠ 4 + 592 * blockCount pdu) :
    ∃ error rest, consume overflowChecks connId pdu = some (.error error, rest) := by
  unfold blockCount at hLength
  unfold consume
  by_cases hShort : pdu.length < 4
  · rw [if_pos hShort]
    exact ⟨_, _, rfl⟩
  · have hData : (pdu.drop 4).length ≠ 592 * leValue (pdu.take 4) := by
      rw [List.length_drop]
      omega
    rw [if_neg hShort]
    dsimp only
    rw [if_neg (fun hEmpty => hData (by rw [hEmpty.1, hEmpty.2])), if_pos hData]
    exact ⟨_, _, rfl⟩

/-- Reading a list is safe if and only if, where its length is right, every block up to
the first that is not read has a time that can be told in nanoseconds. -/
theorem readSafely_iff (connId : Int) (fileDescriptorPdu : Bytes) :
    ReadSafely connId fileDescriptorPdu ↔
      (fileDescriptorPdu.length = 4 + 592 * blockCount fileDescriptorPdu →
        TimelyBlocks (blockCount fileDescriptorPdu) (fileDescriptorPdu.drop 4)) := by
  by_cases hLength : fileDescriptorPdu.length = 4 + 592 * blockCount fileDescriptorPdu
  · have hWhole : (fileDescriptorPdu.drop 4).length = 592 * blockCount fileDescriptorPdu := by
      rw [List.length_drop]
      omega
    constructor
    · intro hSafe _
      obtain ⟨result, rest, hRead, -⟩ := hSafe true
      rw [consume_of_length true connId hLength] at hRead
      refine timelyBlocks_of_consumeBlocks connId hWhole ?_
      rw [hRead]
      exact Option.some_ne_none _
    · intro hTimely overflowChecks
      obtain ⟨result, rest, hRead, hEnd⟩ :=
        ends_consumeBlocks hWhole (hTimely hLength) overflowChecks connId
      refine ⟨result, rest, (consume_of_length overflowChecks connId hLength).trans hRead, ?_⟩
      rcases hEnd with hError | ⟨descs, hOk, hCount, rfl⟩
      · exact Or.inl hError
      · exact Or.inr ⟨descs, hOk, hCount, hLength⟩
  · refine iff_of_true ?_ fun hSame => absurd hSame hLength
    intro overflowChecks
    obtain ⟨error, rest, hRead⟩ := consume_of_length_ne overflowChecks connId hLength
    exact ⟨.error error, rest, hRead, Or.inl ⟨error, rfl⟩⟩

/-- The block of a directory without a name, with a time. -/
def timedBlock (time : Nat) : Bytes :=
  putLe 4 (flagsFdLastWrite ||| flagsFdAttributes) ++ zeros 32 ++ putLe 4 0x10 ++ zeros 16 ++
    putLe 8 time ++ zeros 528

/-- A list of one block with the latest time there is. -/
theorem latest_time_unsafe :
    ¬ ∀ (connId : Int) (fileDescriptorPdu : Bytes), ReadSafely connId fileDescriptorPdu := by
  intro hClaim
  obtain ⟨result, rest, hRead, -⟩ := hClaim 1 (putLe 4 1 ++ timedBlock (2 ^ 64 - 1)) true
  have hPanic : consume true 1 (putLe 4 1 ++ timedBlock (2 ^ 64 - 1)) = none := by decide +kernel
  rw [hPanic] at hRead
  cases hRead

end FileDescription

end HibtDesk.Clipboard
