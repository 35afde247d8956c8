import HibtDesk.Library.RingBuffer
import HibtDesk.Library.Trace
import Mathlib.Data.List.MinMax
import Mathlib.Tactic.Ring

/-! The sound that waits to be played. The buffer holds three seconds; what is appended makes
room for itself, and every twelve seconds a part of what was always waiting is dropped. The
device plays frames of one sample for each channel, so a part of a frame must not be lost. -/
namespace HibtDesk.Audio

open RingBuffer (capacity items)

/-- `AUDIO_BUFFER_MS`. -/
def audioBufferMs : Nat := 3000

/-- The ring, the samples of a second, and how often the buffer was how full, in tenths of a
second. -/
structure AudioBuffer (Rb : Type) where
  ring : Rb
  perSecond : Nat
  levels : List Nat

/-- An element of an array is set, if it is there. -/
def store (levels : List Nat) (i value : Nat) : Option (List Nat) :=
  if i < levels.length then some (levels.set i value) else none

/-- The loop over the levels: `zero` counts those in front that were never reached, and all
but the most frequent, which is at `max`, are cleared. -/
structure Scan where
  levels : List Nat
  zero : Nat
  max : Nat
  deriving DecidableEq, Repr

/-- An index out of range panics. -/
def Scan.step (scan : Scan) (i : Nat) : Option Scan := do
  let here ← scan.levels[i]?
  let most ← scan.levels[scan.max]?
  let zeros := if here = 0 ∧ scan.zero = i then scan.zero + 1 else scan.zero
  if here > most then
    let levels ← store scan.levels scan.max 0
    return ⟨levels, zeros, i⟩
  else
    let levels ← store scan.levels i 0
    return ⟨levels, zeros, scan.max⟩

namespace AudioBuffer
variable {Rb Sample : Type} [RingBuffer Rb Sample]

/-- `AudioBuffer::default`. -/
def default : AudioBuffer Rb :=
  ⟨RingBuffer.new (48000 * 2 * audioBufferMs / 1000), 48000 * 2, List.replicate 30 0⟩

/-- `AudioBuffer::resize`. A ring cannot be empty of room. -/
def resize (buffer : AudioBuffer Rb) (sampleRate channels : Nat) : Option (AudioBuffer Rb) :=
  let room := sampleRate * channels * audioBufferMs / 1000
  if room ≠ capacity buffer.ring then
    if room = 0 then none
    else some { buffer with ring := RingBuffer.new room, perSecond := sampleRate * channels }
  else some buffer

/-- `AudioBuffer::append_pcm2`. -/
def appendPcm2 (buffer : AudioBuffer Rb) (pcm : List Sample) : Rb × Nat :=
  let cap := capacity buffer.ring
  if pcm.length > cap then (RingBuffer.pushSliceOverwrite buffer.ring pcm, cap)
  else
    let having := (items buffer.ring).length + pcm.length
    let ring := if having > cap then RingBuffer.skip buffer.ring (having - cap) else buffer.ring
    let ring := RingBuffer.pushSliceOverwrite ring pcm
    (ring, (items ring).length)

/-- What is dropped at once, an even number of samples: `& (!1)`. -/
def skipped (capacity max : Nat) : Nat := (capacity * max / (30 * 4) + 1) / 2 * 2

/-- `AudioBuffer::try_shrink`. `tms` is when it last looked, and `dt` is now. -/
def tryShrink (buffer : AudioBuffer Rb) (tms dt : Int) (having : Nat) :
    Option (AudioBuffer Rb × Int) := do
  if buffer.perSecond = 0 then none
  let i := having * 10 / buffer.perSecond
  let i := if i > 29 then 29 else i
  let here ← buffer.levels[i]?
  let levels ← store buffer.levels i (here + 1)
  if tms = 0 then return ({ buffer with levels }, dt)
  if dt < tms + 12000 then return ({ buffer with levels }, tms)
  let scan ← (List.range 30).foldlM Scan.step ⟨levels, 0, 0⟩
  let zeros := scan.zero * 2 / 3
  let levels ← store scan.levels scan.max 0
  if scan.max < 6 then return ({ buffer with levels }, dt)
  let max := if scan.max > zeros * 4 then zeros * 4 else scan.max
  let skip := skipped (capacity buffer.ring) max
  if (items buffer.ring).length > skip * 3 ∧ skip > 0 then
    return ({ buffer with levels, ring := RingBuffer.skip buffer.ring skip }, dt)
  else return ({ buffer with levels }, dt)

end AudioBuffer

/-- The part of `AudioHandler` that plays, with the format of the device, the time that all
buffers share, and what was appended since the format was last changed. -/
structure AudioHandler (Rb Sample : Type) where
  audioBuffer : AudioBuffer Rb
  tms : Int
  sampleRate : Nat
  deviceChannel : Nat
  appended : List Sample

inductive Event (Sample : Type) where
  /-- Sound is appended at a time. The device may play some between the two halves of it. -/
  | appendPcm (pcm : List Sample) (between : List Nat) (dt : Int)
  /-- The device asks for samples, and gets what there is of them. -/
  | output (count : Nat)
  /-- An output stream is built. -/
  | resize (sampleRate channels : Nat)
  /-- Another buffer has looked at the time. -/
  | elsewhere (tms : Int)

namespace AudioHandler
variable {Rb Sample : Type} [RingBuffer Rb Sample]

variable (Rb) in
def start : AudioHandler Rb Sample := ⟨.default, 0, 48000, 2, []⟩

/-- What the callback of the output stream leaves. -/
def played (ring : Rb) (count : Nat) : Rb := (RingBuffer.popSlice ring count).2

/-- A step, or a panic. -/
def step (handler : AudioHandler Rb Sample) : Event Sample → Option (AudioHandler Rb Sample)
  | .appendPcm pcm between dt => do
      let (ring, having) := handler.audioBuffer.appendPcm2 pcm
      let ring := between.foldl played ring
      let (audioBuffer, tms) ← { handler.audioBuffer with ring }.tryShrink handler.tms dt having
      return { handler with audioBuffer, tms, appended := handler.appended ++ pcm }
  | .output count =>
      some { handler with audioBuffer :=
        { handler.audioBuffer with ring := played handler.audioBuffer.ring count } }
  | .resize sampleRate channels => do
      let audioBuffer ← handler.audioBuffer.resize sampleRate channels
      let appended :=
        if sampleRate = handler.sampleRate ∧ channels = handler.deviceChannel then handler.appended else []
      return { handler with audioBuffer, sampleRate, deviceChannel := channels, appended }
  | .elsewhere tms => some { handler with tms }

/-- A run that has panicked stays so. -/
def next (handler : Option (AudioHandler Rb Sample)) (event : Event Sample) :
    Option (AudioHandler Rb Sample) :=
  handler.bind fun handler => handler.step event

/-- Sound comes and is played in frames, and a device has a channel. -/
def InFrames (handler : Option (AudioHandler Rb Sample)) (event : Event Sample) : Prop :=
  ∀ h ∈ handler,
    match event with
    | .appendPcm pcm between _ => h.deviceChannel ∣ pcm.length ∧ ∀ count ∈ between, h.deviceChannel ∣ count
    | .output count => h.deviceChannel ∣ count
    | .resize _ channels => 1 ≤ channels
    | .elsewhere _ => True

/-- What is buffered are whole frames, not more than there is room for, and the last of what
was appended. The callback plays from the front, so every sample is on its channel. -/
structure Aligned (handler : AudioHandler Rb Sample) : Prop where
  whole : handler.deviceChannel ∣ (items handler.audioBuffer.ring).length
  bounded : (items handler.audioBuffer.ring).length ≤ capacity handler.audioBuffer.ring
  recent : items handler.audioBuffer.ring <:+ handler.appended
  inPlace : ∀ j sample, (items handler.audioBuffer.ring)[j]? = some sample →
    ∃ p, handler.appended[p]? = some sample ∧ p % handler.deviceChannel = j % handler.deviceChannel

end AudioHandler

/-- The count that a level is compared by. The lowest level is cleared at once. -/
def weight (levels : List Nat) (i : Nat) : Nat := if i = 0 then 0 else levels.getD i 0

/-- The level that was reached most often, the first of them, and never the lowest. -/
def peak (levels : List Nat) : Nat := ((List.range 30).argmax (weight levels)).getD 0

/-- How many of the lowest levels were never reached. -/
def quiet (levels : List Nat) : Nat := levels.findIdx (· ≠ 0)

/-- The level that may be dropped: the peak, but at most four times two thirds of the quiet. -/
def mark (levels : List Nat) : Nat :=
  if peak levels < 6 then 0 else min (peak levels) (quiet levels * 2 / 3 * 4)

section Scan

/-- Where the loop is after the first levels. -/
structure Scanned (levels : List Nat) (k : Nat) (scan : Scan) : Prop where
  length : scan.levels.length = levels.length
  ahead : ∀ j, k ≤ j → scan.levels[j]? = levels[j]?
  zero : scan.zero = min k (quiet levels)
  max : 0 < k → (List.range k).argmax (weight levels) = some scan.max ∧
    scan.levels[scan.max]? = some (weight levels scan.max)
  first : k = 0 → scan.max = 0

theorem Scanned.start (levels : List Nat) : Scanned levels 0 ⟨levels, 0, 0⟩ where
  length := rfl
  ahead := fun _ _ => rfl
  zero := (Nat.zero_min _).symm
  max := fun hPos => absurd hPos (Nat.lt_irrefl 0)
  first := fun _ => rfl

/-- The run of levels that were never reached goes on or has ended. -/
theorem min_succ_quiet {levels : List Nat} {k : Nat} (hk : k < levels.length) :
    min (k + 1) (quiet levels) =
      if levels[k] = 0 ∧ min k (quiet levels) = k then min k (quiet levels) + 1
      else min k (quiet levels) := by
  by_cases hBefore : quiet levels < k
  · rw [if_neg fun h => by omega]
    omega
  by_cases hHere : levels[k] = 0
  · have hNe : quiet levels ≠ k := by
      intro hEq
      exact of_decide_eq_true ((List.findIdx_eq hk).mp hEq).1 hHere
    rw [if_pos ⟨hHere, by omega⟩]
    omega
  · have hLe : quiet levels ≤ k := by
      by_contra hNot
      exact hHere (by simpa using List.not_of_lt_findIdx (not_le.mp hNot))
    rw [if_neg fun h => hHere h.1]
    omega

/-- One turn of the loop. -/
theorem Scanned.step {levels : List Nat} {k : Nat} {scan : Scan} (h : Scanned levels k scan)
    (hk : k < levels.length) : ∃ next, scan.step k = some next ∧ Scanned levels (k + 1) next := by
  have hHere : scan.levels[k]? = some levels[k] := (h.ahead k le_rfl).trans (List.getElem?_eq_getElem hk)
  have hZero := min_succ_quiet hk
  rw [← h.zero] at hZero
  rcases Nat.eq_zero_or_pos k with rfl | hPos
  · have hMax := h.first rfl
    unfold Scan.step
    rw [hMax, hHere]
    dsimp only [bind, Option.bind, pure]
    rw [if_neg (lt_irrefl _), store, if_pos (by rw [h.length]; exact hk)]
    refine ⟨_, rfl, by simp [h.length], fun j hj => ?_, hZero.symm, fun _ => ⟨rfl, ?_⟩, fun hSucc => ?_⟩
    · rw [List.getElem?_set_ne (by omega)]
      exact h.ahead j (by omega)
    · rw [List.getElem?_set_self (by rw [h.length]; exact hk)]
      rfl
    · exact absurd hSucc (Nat.succ_ne_zero _)
  · obtain ⟨hArg, hMost⟩ := h.max hPos
    have hMax : scan.max < k := List.mem_range.mp (List.argmax_mem hArg)
    have hWeight : weight levels k = levels[k] := by
      unfold weight
      rw [if_neg (Nat.pos_iff_ne_zero.mp hPos), List.getD_eq_getElem?_getD, List.getElem?_eq_getElem hk]
      rfl
    have hNextArg : (List.range (k + 1)).argmax (weight levels) =
        some (if levels[k] > weight levels scan.max then k else scan.max) := by
      rw [List.range_succ, List.argmax_concat, hArg]
      dsimp only
      rw [hWeight]
      split_ifs <;> rfl
    unfold Scan.step
    rw [hHere, hMost]
    dsimp only [bind, Option.bind, pure]
    by_cases hMore : levels[k] > weight levels scan.max
    · rw [if_pos hMore] at hNextArg ⊢
      rw [store, if_pos (by rw [h.length]; omega)]
      refine ⟨_, rfl, by simp [h.length], fun j hj => ?_, hZero.symm, fun _ => ⟨hNextArg, ?_⟩, fun hSucc => ?_⟩
      · rw [List.getElem?_set_ne (by omega)]
        exact h.ahead j (by omega)
      · refine (List.getElem?_set_ne hMax.ne).trans ?_
        rw [hHere, hWeight]
      · exact absurd hSucc (Nat.succ_ne_zero _)
    · rw [if_neg hMore] at hNextArg ⊢
      rw [store, if_pos (by rw [h.length]; exact hk)]
      refine ⟨_, rfl, by simp [h.length], fun j hj => ?_, hZero.symm, fun _ => ⟨hNextArg, ?_⟩, fun hSucc => ?_⟩
      · rw [List.getElem?_set_ne (by omega)]
        exact h.ahead j (by omega)
      · exact (List.getElem?_set_ne hMax.ne').trans hMost
      · exact absurd hSucc (Nat.succ_ne_zero _)

/-- The loop over the levels so far. -/
theorem scanned (levels : List Nat) {k : Nat} (hk : k ≤ levels.length) :
    ∃ scan, (List.range k).foldlM Scan.step ⟨levels, 0, 0⟩ = some scan ∧ Scanned levels k scan := by
  induction k with
  | zero => exact ⟨_, rfl, .start levels⟩
  | succ k ih =>
      obtain ⟨scan, hScan, hScanned⟩ := ih (Nat.le_of_succ_le hk)
      obtain ⟨next, hNext, hScannedNext⟩ := hScanned.step hk
      refine ⟨next, ?_, hScannedNext⟩
      rw [List.range_succ, List.foldlM_append, hScan]
      simpa using hNext

/-- What the loop finds. -/
theorem scan_eq {levels : List Nat} (hLength : levels.length = 30) :
    ∃ scan, (List.range 30).foldlM Scan.step ⟨levels, 0, 0⟩ = some scan ∧
      scan.levels.length = 30 ∧ scan.zero = quiet levels ∧ scan.max = peak levels ∧ scan.max < 30 := by
  obtain ⟨scan, hScan, hScanned⟩ := scanned levels hLength.ge
  obtain ⟨hArg, -⟩ := hScanned.max (by decide)
  have hQuiet : quiet levels ≤ 30 := hLength ▸ List.findIdx_le_length
  refine ⟨scan, hScan, hScanned.length.trans hLength, ?_, ?_, List.mem_range.mp (List.argmax_mem hArg)⟩
  · rw [hScanned.zero, Nat.min_eq_right hQuiet]
  · unfold peak
    exact (congrArg (Option.getD · 0) hArg).symm

end Scan

namespace AudioBuffer
variable {Rb Sample : Type} [RingBuffer Rb Sample]

/-- A mono or stereo device loses whole frames, since pairs are dropped. -/
theorem dvd_skipped_of_stereo {channels : Nat} (hChannels : channels ∣ 2) (capacity max : Nat) :
    channels ∣ skipped capacity max :=
  Nat.dvd_trans hChannels (Nat.dvd_mul_left 2 _)

/-- Any device does whose rate is a multiple of 80, as 48000 and 8000 are. -/
theorem dvd_skipped_of_rate {sampleRate : Nat} (hRate : 80 ∣ sampleRate) (channels max : Nat) :
    channels ∣ skipped (sampleRate * channels * 3) max := by
  obtain ⟨rate, rfl⟩ := hRate
  have hDivided : 80 * rate * channels * 3 * max / (30 * 4) = 2 * (rate * channels * max) := by
    rw [show 80 * rate * channels * 3 * max = 2 * (rate * channels * max) * (30 * 4) by ring]
    exact Nat.mul_div_cancel _ (by decide)
  unfold skipped
  rw [hDivided, show (2 * (rate * channels * max) + 1) / 2 * 2 = channels * (2 * rate * max) by
    rw [show (2 * (rate * channels * max) + 1) / 2 = rate * channels * max by omega]
    ring]
  exact Nat.dvd_mul_right _ _

/-- Appending pushes, and tells how much there is. -/
theorem appendPcm2_spec (buffer : AudioBuffer Rb) (pcm : List Sample) :
    capacity (buffer.appendPcm2 pcm).1 = capacity buffer.ring ∧
      items (buffer.appendPcm2 pcm).1 = items (RingBuffer.pushSliceOverwrite buffer.ring pcm) ∧
      (buffer.appendPcm2 pcm).2 = min (capacity buffer.ring) ((items buffer.ring).length + pcm.length) := by
  unfold appendPcm2
  dsimp only
  by_cases hLong : pcm.length > capacity buffer.ring
  · rw [if_pos hLong]
    exact ⟨RingBuffer.capacity_pushSliceOverwrite .., rfl, by omega⟩
  · rw [if_neg hLong]
    have hSame : items (RingBuffer.pushSliceOverwrite (if (items buffer.ring).length + pcm.length >
        capacity buffer.ring then RingBuffer.skip buffer.ring
          ((items buffer.ring).length + pcm.length - capacity buffer.ring) else buffer.ring) pcm) =
        items (RingBuffer.pushSliceOverwrite buffer.ring pcm) := by
      split_ifs
      · exact RingBuffer.items_skip_pushSliceOverwrite buffer.ring (not_lt.mp hLong)
      · rfl
    refine ⟨?_, hSame, ?_⟩
    · rw [RingBuffer.capacity_pushSliceOverwrite]
      split_ifs
      · exact RingBuffer.capacity_skip ..
      · rfl
    · rw [hSame, RingBuffer.length_pushSliceOverwrite]

/-- What is left of a ring once it was looked at. -/
def shrunk (ring : Rb) (levels : List Nat) (tms dt : Int) : Rb :=
  let skip := skipped (capacity ring) (mark levels)
  if tms ≠ 0 ∧ tms + 12000 ≤ dt ∧ skip * 3 < (items ring).length ∧ skip > 0 then RingBuffer.skip ring skip
  else ring

theorem store_eq_some {levels : List Nat} {i : Nat} (hi : i < levels.length) (value : Nat) :
    store levels i value = some (levels.set i value) := if_pos hi

/-- Nothing panics, and what is dropped depends on the levels before they are cleared. -/
theorem tryShrink_eq (buffer : AudioBuffer Rb) (tms dt : Int) (having : Nat)
    (hPerSecond : buffer.perSecond ≠ 0) (hLevels : buffer.levels.length = 30) :
    ∃ levels next, levels.length = 30 ∧
      buffer.tryShrink tms dt having = some (⟨shrunk buffer.ring
        (buffer.levels.modify (min 29 (having * 10 / buffer.perSecond)) (· + 1)) tms dt,
        buffer.perSecond, levels⟩, next) := by
  have hIndex : (if having * 10 / buffer.perSecond > 29 then 29 else having * 10 / buffer.perSecond) =
      min 29 (having * 10 / buffer.perSecond) := by
    split_ifs <;> omega
  generalize hi : min 29 (having * 10 / buffer.perSecond) = i at hIndex
  have hLt : i < buffer.levels.length := by omega
  have hModify : buffer.levels.set i (buffer.levels[i] + 1) = buffer.levels.modify i (· + 1) := by
    rw [List.modify_eq_set_getElem?, List.getElem?_eq_getElem hLt]
    rfl
  obtain ⟨scan, hScan, hLength, hZero, hMax, hMaxLt⟩ :=
    @scan_eq (buffer.levels.modify i (· + 1)) (by rw [List.length_modify, hLevels])
  have hKept : (buffer.levels.modify i (· + 1)).length = 30 := by
    rw [List.length_modify, hLevels]
  have hCleared : (scan.levels.set scan.max 0).length = 30 := by
    rw [List.length_set, hLength]
  unfold tryShrink shrunk
  rw [if_neg hPerSecond]
  simp only [bind, Option.bind, pure, hIndex, List.getElem?_eq_getElem hLt, store_eq_some hLt, hModify,
    hScan, store_eq_some (show scan.max < scan.levels.length by omega)]
  generalize buffer.levels.modify i (· + 1) = levels at hZero hMax hKept
  rw [hZero, hMax]
  rw [hMax] at hCleared
  by_cases hFirst : tms = 0
  · rw [if_pos hFirst, if_neg fun h => h.1 hFirst]
    exact ⟨_, _, hKept, rfl⟩
  rw [if_neg hFirst]
  by_cases hSoon : dt < tms + 12000
  · rw [if_pos hSoon, if_neg fun h => not_le.mpr hSoon h.2.1]
    exact ⟨_, _, hKept, rfl⟩
  rw [if_neg hSoon]
  refine ⟨_, dt, hCleared, ?_⟩
  unfold mark
  by_cases hLow : peak levels < 6
  · rw [if_pos hLow, if_pos hLow]
    have hNone : skipped (capacity buffer.ring) 0 = 0 := by
      simp [skipped]
    rw [hNone, if_neg fun h => Nat.lt_irrefl 0 h.2.2.2]
  rw [if_neg hLow, if_neg hLow]
  have hMark : (if peak levels > quiet levels * 2 / 3 * 4 then quiet levels * 2 / 3 * 4 else peak levels) =
      min (peak levels) (quiet levels * 2 / 3 * 4) := by
    split_ifs <;> omega
  rw [hMark]
  generalize skipped (capacity buffer.ring) (min (peak levels) (quiet levels * 2 / 3 * 4)) = skip
  by_cases hDrops : skip * 3 < (items buffer.ring).length ∧ skip > 0
  · rw [if_pos hDrops, if_pos ⟨hFirst, not_lt.mp hSoon, hDrops⟩]
  · rw [if_neg hDrops, if_neg fun h => hDrops h.2.2]

end AudioBuffer

namespace AudioHandler
variable {Rb Sample : Type} [RingBuffer Rb Sample]

/-- What the device leaves of so many samples. -/
def leftOver (between : List Nat) (having : Nat) : Nat := between.foldl (· - ·) having

/-- What is to be dropped are whole frames, where it is dropped; and a buffer for another
format of the device is another one, or has nothing left in it. -/
def KeepsFrames (handler : Option (AudioHandler Rb Sample)) (event : Event Sample) : Prop :=
  ∀ h ∈ handler,
    match event with
    | .appendPcm pcm between dt =>
        let buffer := h.audioBuffer
        let having := min (capacity buffer.ring) ((items buffer.ring).length + pcm.length)
        let levels := buffer.levels.modify (min 29 (having * 10 / buffer.perSecond)) (· + 1)
        let skip := AudioBuffer.skipped (capacity buffer.ring) (mark levels)
        h.tms ≠ 0 → h.tms + 12000 ≤ dt → skip * 3 < leftOver between having → h.deviceChannel ∣ skip
    | .resize sampleRate channels =>
        sampleRate ≠ 0 ∧
          (sampleRate = h.sampleRate ∧ channels = h.deviceChannel ∨
            sampleRate * channels ≠ h.sampleRate * h.deviceChannel ∨ items h.audioBuffer.ring = [])
    | _ => True

/-- What the device leaves after several callbacks. -/
theorem played_ring (between : List Nat) (ring : Rb) :
    capacity (between.foldl played ring) = capacity ring ∧
      (items (between.foldl played ring)).length = leftOver between (items ring).length := by
  induction between generalizing ring with
  | nil => exact ⟨rfl, rfl⟩
  | cons count rest ih =>
      obtain ⟨hCapacity, hLength⟩ := ih (played ring count)
      refine ⟨hCapacity.trans (RingBuffer.capacity_popSlice ..), hLength.trans ?_⟩
      unfold played
      rw [RingBuffer.items_popSlice, List.length_drop]
      rfl

/-- Frames that are played are gone as a whole. -/
theorem wholeGone_played {width : Nat} {stream : List Sample} {ring : Rb} {count : Nat}
    (hGone : WholeGone width stream (items ring)) (hItems : width ∣ (items ring).length)
    (hCount : width ∣ count) :
    WholeGone width stream (items (played ring count)) ∧ width ∣ (items (played ring count)).length := by
  unfold played
  rw [RingBuffer.items_popSlice]
  refine ⟨hGone.drop ?_, ?_⟩
  · rcases min_cases count (items ring).length with ⟨hMin, -⟩ | ⟨hMin, -⟩ <;> rw [hMin] <;> assumption
  · rw [List.length_drop]
    exact Nat.dvd_sub hItems hCount

theorem wholeGone_between {width : Nat} {stream : List Sample} (between : List Nat)
    {ring : Rb} (hGone : WholeGone width stream (items ring))
    (hItems : width ∣ (items ring).length) (hCounts : ∀ count ∈ between, width ∣ count) :
    WholeGone width stream (items (between.foldl played ring)) ∧
      width ∣ (items (between.foldl played ring)).length := by
  induction between generalizing ring with
  | nil => exact ⟨hGone, hItems⟩
  | cons count rest ih =>
      obtain ⟨hNext, hNextItems⟩ := wholeGone_played hGone hItems (hCounts count (List.mem_cons_self ..))
      exact ih hNext hNextItems fun other hOther => hCounts other (List.mem_cons_of_mem count hOther)

/-- The invariant: the ring has room for three seconds, and whole frames are gone. -/
structure Formed (handler : AudioHandler Rb Sample) : Prop where
  gone : WholeGone handler.deviceChannel handler.appended (items handler.audioBuffer.ring)
  whole : handler.deviceChannel ∣ (items handler.audioBuffer.ring).length
  levels : handler.audioBuffer.levels.length = 30
  perSecond : handler.audioBuffer.perSecond = handler.sampleRate * handler.deviceChannel
  room : capacity handler.audioBuffer.ring = handler.audioBuffer.perSecond * 3
  rate : 0 < handler.sampleRate
  channels : 0 < handler.deviceChannel

theorem Formed.aligned {handler : AudioHandler Rb Sample} (h : Formed handler) : Aligned handler :=
  ⟨h.whole, RingBuffer.fits _, h.gone.suffix, fun _ _ hSample => h.gone.place hSample⟩

/-- A ring that was just made. -/
theorem wholeGone_new {width room : Nat} (hRoom : 0 < room) :
    WholeGone width [] (items (RingBuffer.new room : Rb)) ∧
      width ∣ (items (RingBuffer.new room : Rb)).length := by
  rw [RingBuffer.items_new hRoom]
  exact ⟨⟨[], Nat.dvd_zero _, rfl⟩, Nat.dvd_zero _⟩

theorem formed_start : Formed (start Rb : AudioHandler Rb Sample) where
  gone := (wholeGone_new (show 0 < 48000 * 2 * audioBufferMs / 1000 by decide)).1
  whole := (wholeGone_new (show 0 < 48000 * 2 * audioBufferMs / 1000 by decide)).2
  levels := List.length_replicate
  perSecond := rfl
  room := (RingBuffer.capacity_new (show 0 < 48000 * 2 * audioBufferMs / 1000 by decide)).trans
    (show 48000 * 2 * 3000 / 1000 = 48000 * 2 * 3 by decide)
  rate := show 0 < 48000 by decide
  channels := show 0 < 2 by decide

/-- Whole frames make room for whole frames. -/
theorem wholeGone_push {width : Nat} {stream : List Sample} {ring : Rb} {pcm : List Sample}
    (hGone : WholeGone width stream (items ring)) (hItems : width ∣ (items ring).length)
    (hRoom : width ∣ capacity ring) (hPcm : width ∣ pcm.length) :
    WholeGone width (stream ++ pcm) (items (RingBuffer.pushSliceOverwrite ring pcm)) ∧
      width ∣ (items (RingBuffer.pushSliceOverwrite ring pcm)).length := by
  have hBoth : width ∣ (items ring ++ pcm).length := by
    rw [List.length_append]
    exact Nat.dvd_add hItems hPcm
  have hDropped : width ∣ (items ring ++ pcm).length - capacity ring := Nat.dvd_sub hBoth hRoom
  rw [RingBuffer.items_pushSliceOverwrite]
  refine ⟨(hGone.append pcm).drop ?_, ?_⟩
  · rwa [Nat.min_eq_left (Nat.sub_le _ _)]
  · rw [List.length_drop]
    exact Nat.dvd_sub hBoth hDropped

section Step
variable {handler : AudioHandler Rb Sample}

theorem Formed.perSecond_ne_zero (h : Formed handler) : handler.audioBuffer.perSecond ≠ 0 := by
  rw [h.perSecond]
  exact Nat.mul_ne_zero h.rate.ne' h.channels.ne'

theorem Formed.room_whole (h : Formed handler) :
    handler.deviceChannel ∣ capacity handler.audioBuffer.ring := by
  rw [h.room, h.perSecond]
  exact Nat.dvd_mul_right_of_dvd (Nat.dvd_mul_left _ _) 3

/-- What is buffered when the levels are looked at. -/
def waiting (handler : AudioHandler Rb Sample) (pcm : List Sample) (between : List Nat) : Rb :=
  between.foldl played (handler.audioBuffer.appendPcm2 pcm).1

/-- The levels once it was counted how much there is. -/
def counted (handler : AudioHandler Rb Sample) (pcm : List Sample) : List Nat :=
  handler.audioBuffer.levels.modify (min 29 (min (capacity handler.audioBuffer.ring)
    ((items handler.audioBuffer.ring).length + pcm.length) * 10 / handler.audioBuffer.perSecond)) (· + 1)

/-- Appending panics in no way. -/
theorem Formed.append (h : Formed handler) (pcm : List Sample) (between : List Nat) (dt : Int) :
    ∃ levels tms, levels.length = 30 ∧ handler.step (.appendPcm pcm between dt) =
      some { handler with
        audioBuffer := ⟨AudioBuffer.shrunk (handler.waiting pcm between) (handler.counted pcm) handler.tms dt,
          handler.audioBuffer.perSecond, levels⟩
        tms := tms
        appended := handler.appended ++ pcm } := by
  obtain ⟨levels, tms, hLevels, hShrink⟩ := AudioBuffer.tryShrink_eq
    { handler.audioBuffer with ring := handler.waiting pcm between } handler.tms dt
    (min (capacity handler.audioBuffer.ring) ((items handler.audioBuffer.ring).length + pcm.length))
    h.perSecond_ne_zero h.levels
  refine ⟨levels, tms, hLevels, ?_⟩
  show Option.bind (AudioBuffer.tryShrink { handler.audioBuffer with ring := handler.waiting pcm between }
    handler.tms dt (handler.audioBuffer.appendPcm2 pcm).2) _ = _
  rw [(AudioBuffer.appendPcm2_spec handler.audioBuffer pcm).2.2, hShrink]
  rfl

theorem Formed.waiting (h : Formed handler) {pcm : List Sample} {between : List Nat}
    (hPcm : handler.deviceChannel ∣ pcm.length) (hBetween : ∀ count ∈ between, handler.deviceChannel ∣ count) :
    WholeGone handler.deviceChannel (handler.appended ++ pcm) (items (handler.waiting pcm between)) ∧
      handler.deviceChannel ∣ (items (handler.waiting pcm between)).length := by
  obtain ⟨hGone, hItems⟩ := wholeGone_push h.gone h.whole h.room_whole hPcm
  rw [← (AudioBuffer.appendPcm2_spec handler.audioBuffer pcm).2.1] at hGone hItems
  exact wholeGone_between between hGone hItems hBetween

theorem waiting_capacity (handler : AudioHandler Rb Sample) (pcm : List Sample) (between : List Nat) :
    capacity (handler.waiting pcm between) = capacity handler.audioBuffer.ring :=
  (played_ring between _).1.trans (AudioBuffer.appendPcm2_spec handler.audioBuffer pcm).1

theorem waiting_length (handler : AudioHandler Rb Sample) (pcm : List Sample) (between : List Nat) :
    (items (handler.waiting pcm between)).length = leftOver between (min (capacity handler.audioBuffer.ring)
      ((items handler.audioBuffer.ring).length + pcm.length)) := by
  rw [← RingBuffer.length_pushSliceOverwrite, ← (AudioBuffer.appendPcm2_spec handler.audioBuffer pcm).2.1]
  exact (played_ring between _).2

/-- What is dropped, where it is dropped. -/
theorem shrunk_whole_iff (h : Formed handler) {pcm : List Sample} {between : List Nat} {dt : Int}
    (hPcm : handler.deviceChannel ∣ pcm.length) (hBetween : ∀ count ∈ between, handler.deviceChannel ∣ count) :
    handler.deviceChannel ∣
        (items (AudioBuffer.shrunk (handler.waiting pcm between) (handler.counted pcm) handler.tms dt)).length ↔
      KeepsFrames (some handler) (.appendPcm pcm between dt) := by
  obtain ⟨-, hItems⟩ := h.waiting hPcm hBetween
  have hKeeps : KeepsFrames (some handler) (.appendPcm pcm between dt) ↔
      (handler.tms ≠ 0 → handler.tms + 12000 ≤ dt →
        AudioBuffer.skipped (capacity handler.audioBuffer.ring) (mark (handler.counted pcm)) * 3 <
          (items (handler.waiting pcm between)).length →
        handler.deviceChannel ∣
          AudioBuffer.skipped (capacity handler.audioBuffer.ring) (mark (handler.counted pcm))) := by
    rw [waiting_length]
    refine ⟨fun h => h handler rfl, fun h other hOther => ?_⟩
    obtain rfl := Option.some.inj hOther
    exact h
  rw [hKeeps]
  unfold AudioBuffer.shrunk
  dsimp only
  rw [waiting_capacity]
  generalize AudioBuffer.skipped (capacity handler.audioBuffer.ring) (mark (handler.counted pcm)) = skip
  split_ifs with hDrops
  · obtain ⟨hFirst, hDue, hMore, -⟩ := hDrops
    have hSkip : skip ≤ (items (handler.waiting pcm between)).length := by omega
    rw [RingBuffer.items_skip, List.length_drop, Nat.dvd_sub_iff_right hSkip hItems]
    exact ⟨fun hWhole _ _ _ => hWhole, fun hSkips => hSkips hFirst hDue hMore⟩
  · refine iff_of_true hItems fun hFirst hDue hMore => ?_
    rw [Nat.eq_zero_of_not_pos fun hSome => hDrops ⟨hFirst, hDue, hMore, hSome⟩]
    exact Nat.dvd_zero _

theorem shrunk_gone {width : Nat} {stream : List Sample} {ring : Rb} {levels : List Nat}
    {tms dt : Int} (hGone : WholeGone width stream (items ring)) (hItems : width ∣ (items ring).length)
    (hWhole : width ∣ (items (AudioBuffer.shrunk ring levels tms dt)).length) :
    WholeGone width stream (items (AudioBuffer.shrunk ring levels tms dt)) := by
  unfold AudioBuffer.shrunk at hWhole ⊢
  dsimp only at hWhole ⊢
  generalize AudioBuffer.skipped (capacity ring) (mark levels) = skip at hWhole ⊢
  split_ifs at hWhole ⊢ with hDrops
  · have hSkip : skip ≤ (items ring).length := by omega
    rw [RingBuffer.items_skip] at hWhole ⊢
    refine hGone.drop ?_
    rw [Nat.min_eq_left hSkip]
    refine (Nat.dvd_sub_iff_right hSkip hItems).mp ?_
    rw [← List.length_drop]
    exact hWhole
  · exact hGone

/-- What building an output stream leads to. -/
theorem Formed.resize (h : Formed handler) {sampleRate channels : Nat} (hChannels : 1 ≤ channels) :
    (KeepsFrames (some handler) (.resize sampleRate channels) →
        ∃ next, handler.step (.resize sampleRate channels) = some next ∧ Formed next) ∧
      (¬ KeepsFrames (some handler) (.resize sampleRate channels) →
        ∀ next, handler.step (.resize sampleRate channels) = some next → ¬ Aligned next) := by
  have hKeeps : KeepsFrames (some handler) (.resize sampleRate channels) ↔
      sampleRate ≠ 0 ∧
        (sampleRate = handler.sampleRate ∧ channels = handler.deviceChannel ∨
          sampleRate * channels ≠ handler.sampleRate * handler.deviceChannel ∨
          items handler.audioBuffer.ring = []) := by
    refine ⟨fun h => h handler rfl, fun h other hOther => ?_⟩
    obtain rfl := Option.some.inj hOther
    exact h
  rw [hKeeps]
  have hRoom : sampleRate * channels * audioBufferMs / 1000 = sampleRate * channels * 3 := by
    show sampleRate * channels * 3000 / 1000 = _
    omega
  have hOld : capacity handler.audioBuffer.ring = handler.sampleRate * handler.deviceChannel * 3 := by
    rw [h.room, h.perSecond]
  have hProduct : 0 < handler.sampleRate * handler.deviceChannel := Nat.mul_pos h.rate h.channels
  have hStep : handler.step (.resize sampleRate channels) =
      (handler.audioBuffer.resize sampleRate channels).bind fun audioBuffer => some { handler with
        audioBuffer, sampleRate, deviceChannel := channels
        appended := if sampleRate = handler.sampleRate ∧ channels = handler.deviceChannel then
          handler.appended else [] } := rfl
  rw [hStep]
  unfold AudioBuffer.resize
  dsimp only
  rw [hRoom, hOld]
  by_cases hSame : sampleRate * channels = handler.sampleRate * handler.deviceChannel
  · have hRate : 0 < sampleRate := by
      by_contra hZero
      rw [Nat.eq_zero_of_not_pos hZero, Nat.zero_mul] at hSame
      omega
    rw [if_neg (by rw [hSame]; exact fun hNe => hNe rfl), Option.bind_some]
    by_cases hFormat : sampleRate = handler.sampleRate ∧ channels = handler.deviceChannel
    · rw [if_pos hFormat]
      obtain ⟨rfl, rfl⟩ := hFormat
      exact ⟨fun _ => ⟨_, rfl, h⟩, fun hNot => absurd ⟨hRate.ne', Or.inl ⟨rfl, rfl⟩⟩ hNot⟩
    · rw [if_neg hFormat]
      refine ⟨fun hKept => ⟨_, rfl, ?_⟩, fun hNot next hNext hAligned => hNot ?_⟩
      · have hEmpty : items handler.audioBuffer.ring = [] :=
          (hKept.2.resolve_left hFormat).resolve_left fun hNe => hNe hSame
        refine ⟨⟨[], Nat.dvd_zero _, hEmpty.symm⟩, ?_, h.levels, h.perSecond.trans hSame.symm, h.room, hRate,
          hChannels⟩
        show channels ∣ (items handler.audioBuffer.ring).length
        rw [hEmpty]
        exact Nat.dvd_zero _
      · have hRecent := hAligned.recent
        obtain rfl := Option.some.inj hNext
        exact ⟨hRate.ne', Or.inr (Or.inr (List.suffix_nil.mp hRecent))⟩
  · have hNe : sampleRate * channels * 3 ≠ handler.sampleRate * handler.deviceChannel * 3 := by omega
    rw [if_pos hNe]
    rcases Nat.eq_zero_or_pos sampleRate with rfl | hRate
    · refine ⟨fun hKept => absurd rfl hKept.1, fun _ next hNext => ?_⟩
      rw [Nat.zero_mul, Nat.zero_mul, if_pos rfl, Option.bind_none] at hNext
      exact absurd hNext.symm (Option.some_ne_none next)
    · have hPos : 0 < sampleRate * channels := Nat.mul_pos hRate hChannels
      have hFormat : ¬ (sampleRate = handler.sampleRate ∧ channels = handler.deviceChannel) := by
        rintro ⟨rfl, rfl⟩
        exact hSame rfl
      rw [if_neg (by omega), if_neg hFormat, Option.bind_some]
      refine ⟨fun _ => ⟨_, rfl, ?_⟩, fun hNot => absurd ⟨hRate.ne', Or.inr (Or.inl hSame)⟩ hNot⟩
      have hNew : 0 < sampleRate * channels * 3 := by omega
      exact ⟨(wholeGone_new hNew).1, (wholeGone_new hNew).2, h.levels, rfl, RingBuffer.capacity_new hNew, hRate,
        hChannels⟩

end Step

/-- The handler has not panicked and is aligned. -/
def Sound (handler : Option (AudioHandler Rb Sample)) : Prop := ∃ h, handler = some h ∧ Aligned h

/-- A step that keeps the frames keeps the invariant. -/
theorem formed_next {handler : Option (AudioHandler Rb Sample)} {event : Event Sample}
    (hInv : ∃ h, handler = some h ∧ Formed h) (hFrames : InFrames handler event)
    (hKeeps : KeepsFrames handler event) : ∃ h, next handler event = some h ∧ Formed h := by
  obtain ⟨h, rfl, hFormed⟩ := hInv
  have hIn := hFrames h rfl
  cases event with
  | appendPcm pcm between dt =>
      obtain ⟨levels, tms, hLevels, hStep⟩ := hFormed.append pcm between dt
      obtain ⟨hGone, -⟩ := hFormed.waiting hIn.1 hIn.2
      have hWhole := (shrunk_whole_iff hFormed hIn.1 hIn.2).mpr hKeeps
      have hItems := (hFormed.waiting hIn.1 hIn.2).2
      refine ⟨_, hStep, ?_, hWhole, hLevels, hFormed.perSecond, ?_, hFormed.rate, hFormed.channels⟩
      · exact shrunk_gone hGone hItems hWhole
      · unfold AudioBuffer.shrunk
        dsimp only
        split_ifs
        · exact (RingBuffer.capacity_skip ..).trans ((waiting_capacity h pcm between).trans hFormed.room)
        · exact (waiting_capacity h pcm between).trans hFormed.room
  | output count =>
      obtain ⟨hGone, hWhole⟩ := wholeGone_played hFormed.gone hFormed.whole hIn
      exact ⟨_, rfl, hGone, hWhole, hFormed.levels, hFormed.perSecond,
        (RingBuffer.capacity_popSlice ..).trans hFormed.room, hFormed.rate, hFormed.channels⟩
  | resize sampleRate channels => exact (hFormed.resize hIn).1 hKeeps
  | elsewhere tms =>
      exact ⟨_, rfl, hFormed.gone, hFormed.whole, hFormed.levels, hFormed.perSecond, hFormed.room,
        hFormed.rate, hFormed.channels⟩

/-- A step that does not keep the frames is seen at once. -/
theorem not_sound_next {handler : Option (AudioHandler Rb Sample)} {event : Event Sample}
    (hInv : ∃ h, handler = some h ∧ Formed h) (hFrames : InFrames handler event)
    (hKeeps : ¬ KeepsFrames handler event) : ¬ Sound (next handler event) := by
  obtain ⟨h, rfl, hFormed⟩ := hInv
  rintro ⟨after, hAfter, hAligned⟩
  have hIn := hFrames h rfl
  cases event with
  | appendPcm pcm between dt =>
      obtain ⟨levels, tms, -, hStep⟩ := hFormed.append pcm between dt
      have hSame : after = _ := Option.some.inj (hAfter.symm.trans hStep)
      have hWhole := hAligned.whole
      rw [hSame] at hWhole
      exact hKeeps ((shrunk_whole_iff hFormed hIn.1 hIn.2).mp hWhole)
  | output count => exact hKeeps fun _ _ => trivial
  | resize sampleRate channels => exact (hFormed.resize hIn).2 hKeeps after hAfter hAligned
  | elsewhere tms => exact hKeeps fun _ _ => trivial

/-- After every step of a run the buffer is aligned and nothing has panicked, exactly if
every step keeps the frames. -/
theorem sound_run_iff {events : List (Event Sample)}
    (hRun : Trace.Always next InFrames (some (start Rb)) events) :
    (∀ past, past <+: events → Sound (Trace.run next (some (start Rb)) past)) ↔
      Trace.Always next KeepsFrames (some (start Rb)) events :=
  @Trace.agrees_iff_always _ _ next KeepsFrames InFrames (fun handler => ∃ h, handler = some h ∧ Formed h) Sound
    (fun _ hInv => hInv.imp fun _ hFormed => ⟨hFormed.1, hFormed.2.aligned⟩)
    (fun _ _ hInv hFrames hKeeps => formed_next hInv hFrames hKeeps)
    (fun _ _ hInv hFrames hKeeps => not_sound_next hInv hFrames hKeeps)
    (some (start Rb)) ⟨start Rb, rfl, formed_start⟩ events hRun

theorem two_samples_sound :
    Trace.Always next InFrames (some (start (ListRb Int)))
        [.output 2, .appendPcm [(0 : Int), 1] [2] 5, .resize 96000 1] ∧
      ((∀ past, past <+: [.output 2, .appendPcm [(0 : Int), 1] [2] 5, .resize 96000 1] →
          Sound (Trace.run next (some (start (ListRb Int))) past)) ↔
        Trace.Always next KeepsFrames (some (start (ListRb Int)))
          [.output 2, .appendPcm [(0 : Int), 1] [2] 5, .resize 96000 1]) := by
  have hRun : Trace.Always next InFrames (some (start (ListRb Int)))
      [.output 2, .appendPcm [(0 : Int), 1] [2] 5, .resize 96000 1] := by
    refine ⟨?_, ?_, fun _ _ => le_rfl, trivial⟩
    · intro h hStart
      obtain rfl := Option.some.inj hStart
      exact Nat.dvd_refl 2
    · intro h hPlayed
      obtain rfl := Option.some.inj hPlayed
      refine ⟨Nat.dvd_refl 2, fun count hCount => ?_⟩
      rw [List.mem_singleton.mp hCount]
      exact Nat.dvd_refl 2
  exact ⟨hRun, sound_run_iff hRun⟩

/-- A device with four channels at 44100 Hz. -/
def quad : AudioHandler (ListRb Int) Int :=
  ⟨⟨RingBuffer.new 529200, 176400, List.replicate 30 0⟩, 0, 44100, 4, []⟩

/-- The device with 0.7 seconds of sound. -/
def quadFilled (pcm : List Int) : AudioHandler (ListRb Int) Int where
  audioBuffer :=
    ⟨RingBuffer.pushSliceOverwrite (RingBuffer.new 529200) pcm, 176400, (List.replicate 30 0).set 7 1⟩
  tms := 1
  sampleRate := 44100
  deviceChannel := 4
  appended := pcm

theorem length_quadFilled {pcm : List Int} (hLength : pcm.length = 123480) :
    (items (quadFilled pcm).audioBuffer.ring).length = 123480 := by
  refine (RingBuffer.length_pushSliceOverwrite _ _).trans ?_
  rw [hLength]
  rfl

theorem step_quad {pcm : List Int} (hLength : pcm.length = 123480) :
    quad.step (.appendPcm pcm [] 1) = some (quadFilled pcm) := by
  have hAppend : quad.audioBuffer.appendPcm2 pcm = ((quadFilled pcm).audioBuffer.ring, 123480) := by
    have hRoom : capacity quad.audioBuffer.ring = 529200 := rfl
    have hEmpty : (items quad.audioBuffer.ring).length = 0 := rfl
    unfold AudioBuffer.appendPcm2
    dsimp only
    rw [if_neg (by rw [hRoom]; omega), if_neg (by rw [hRoom, hEmpty]; omega)]
    exact congrArg (Prod.mk _) (length_quadFilled hLength)
  have hShrink : AudioBuffer.tryShrink ⟨(quadFilled pcm).audioBuffer.ring, 176400, List.replicate 30 0⟩ 0 1
      123480 = some ((quadFilled pcm).audioBuffer, 1) := by
    simp [AudioBuffer.tryShrink, store, quadFilled]
  unfold step
  dsimp only
  rw [hAppend]
  show Option.bind (AudioBuffer.tryShrink ⟨(quadFilled pcm).audioBuffer.ring, 176400, List.replicate 30 0⟩ 0 1
    123480) _ = _
  rw [hShrink]
  rfl

/-- A step that drops 30870 of 123480 samples, which is no multiple of four. -/
theorem not_keepsFrames_quad {pcm : List Int} (hLength : pcm.length = 123480) :
    ¬ KeepsFrames (some (quadFilled pcm)) (.appendPcm [] [] 12001) := by
  intro hKeeps
  have hSkip := hKeeps (quadFilled pcm) rfl
  dsimp only at hSkip
  have hRoom : capacity (quadFilled pcm).audioBuffer.ring = 529200 := rfl
  rw [length_quadFilled hLength, hRoom] at hSkip
  dsimp only [quadFilled] at hSkip
  exact absurd (hSkip (by decide) (by decide) (by decide)) (by decide)

/-- The buffer before the second look at the levels is as it should be. -/
theorem formed_quadFilled {pcm : List Int} (hLength : pcm.length = 123480) : Formed (quadFilled pcm) := by
  have hQuad : Formed quad :=
    ⟨⟨[], Nat.dvd_zero _, rfl⟩, Nat.dvd_zero _, List.length_replicate, rfl, rfl, Nat.succ_pos _, Nat.succ_pos _⟩
  have hFrames : InFrames (some quad) (.appendPcm pcm [] 1) := by
    intro h hSome
    obtain rfl := Option.some.inj hSome
    exact ⟨⟨30870, hLength⟩, fun _ hMem => absurd hMem List.not_mem_nil⟩
  have hKeeps : KeepsFrames (some quad) (.appendPcm pcm [] 1) := by
    intro h hSome
    obtain rfl := Option.some.inj hSome
    exact fun hFirst => absurd rfl hFirst
  obtain ⟨h, hNext, hFormed⟩ := formed_next ⟨quad, rfl, hQuad⟩ hFrames hKeeps
  have hSame : some (quadFilled pcm) = some h := (step_quad hLength).symm.trans hNext
  rw [Option.some.inj hSame]
  exact hFormed

theorem not_sound_quad {pcm : List Int} (hLength : pcm.length = 123480) :
    ¬ Sound (Trace.run next (some (start (ListRb Int)))
      [.resize 44100 4, .appendPcm pcm [] 1, .appendPcm [] [] 12001]) := by
  have hResize : next (some (start (ListRb Int))) (.resize 44100 4) = some quad := rfl
  have hAppend : next (some quad) (.appendPcm pcm [] 1) = some (quadFilled pcm) := step_quad hLength
  have hFrames : InFrames (some (quadFilled pcm)) (.appendPcm [] [] 12001) := fun _ _ =>
    ⟨Nat.dvd_zero _, fun _ hMem => absurd hMem List.not_mem_nil⟩
  rw [Trace.run_cons, hResize, Trace.run_cons, hAppend, Trace.run_cons, Trace.run_nil]
  exact not_sound_next ⟨quadFilled pcm, rfl, formed_quadFilled hLength⟩ hFrames (not_keepsFrames_quad hLength)

/-- What is dropped is rounded to pairs of samples, which are not whole frames. -/
theorem quad_misaligned :
    ¬ Sound (Trace.run next (some (start (ListRb Int)))
      [.resize 44100 4, .appendPcm (List.replicate 123480 0) [] 1, .appendPcm [] [] 12001]) :=
  not_sound_quad List.length_replicate

end AudioHandler

end HibtDesk.Audio
