import Mathlib.Data.List.Basic

/-! Texts as UTF-16, in units and in bytes with the lower one first. A character beyond
the first plane takes two units, a high and a low surrogate. -/
namespace Utf16

def units (c : Char) : List Nat :=
  if c.toNat < 0x10000 then [c.toNat]
  else [0xD800 + (c.toNat - 0x10000) / 0x400, 0xDC00 + (c.toNat - 0x10000) % 0x400]

def encode (text : List Char) : List Nat := text.flatMap units

/-- The text some units stand for, unless there is a surrogate without its other half. -/
def decode : List Nat → Option (List Char)
  | [] => some []
  | unit :: rest =>
      if unit < 0xD800 ∨ 0xE000 ≤ unit then (decode rest).map (Char.ofNat unit :: ·)
      else if 0xDC00 ≤ unit then none
      else
        match rest with
        | [] => none
        | low :: rest =>
            if 0xDC00 ≤ low ∧ low < 0xE000 then
              (decode rest).map
                (Char.ofNat (0x10000 + (unit - 0xD800) * 0x400 + (low - 0xDC00)) :: ·)
            else none

def toLe (us : List Nat) : List UInt8 := us.flatMap fun u => [UInt8.ofNat u, UInt8.ofNat (u / 256)]

/-- The units in a row of bytes, the last of which is left out if it stands alone. -/
def ofLe : List UInt8 → List Nat
  | low :: high :: rest => (low.toNat + 256 * high.toNat) :: ofLe rest
  | _ => []

theorem toNat_cases (c : Char) : c.toNat < 0xD800 ∨ 0xE000 ≤ c.toNat ∧ c.toNat < 0x110000 := by
  rcases c.valid with hLow | ⟨hAbove, hBelow⟩
  · exact Or.inl hLow
  · exact Or.inr ⟨hAbove, hBelow⟩

theorem lt_of_mem_units {c : Char} {u : Nat} (hMem : u ∈ units c) : u < 0x10000 := by
  have hCases := toNat_cases c
  unfold units at hMem
  split at hMem
  · rw [List.mem_singleton.mp hMem]
    assumption
  · simp only [List.mem_cons, List.not_mem_nil, or_false] at hMem
    omega

theorem lt_of_mem_encode {text : List Char} {u : Nat} (hMem : u ∈ encode text) : u < 0x10000 := by
  obtain ⟨c, -, hUnit⟩ := List.mem_flatMap.mp hMem
  exact lt_of_mem_units hUnit

theorem decode_single {unit : Nat} (hUnit : unit < 0xD800 ∨ 0xE000 ≤ unit) (rest : List Nat) :
    decode (unit :: rest) = (decode rest).map (Char.ofNat unit :: ·) := by
  cases rest <;> simp only [decode, if_pos hUnit]

theorem decode_pair {high low : Nat} (hHigh : 0xD800 ≤ high ∧ high < 0xDC00)
    (hLow : 0xDC00 ≤ low ∧ low < 0xE000) (rest : List Nat) :
    decode (high :: low :: rest) =
      (decode rest).map (Char.ofNat (0x10000 + (high - 0xD800) * 0x400 + (low - 0xDC00)) :: ·) := by
  rw [decode, if_neg (by omega), if_neg (by omega), if_pos hLow]

/-- The units of a text are read as that text, whatever follows. -/
theorem decode_encode_append (text : List Char) (rest : List Nat) :
    decode (encode text ++ rest) = (decode rest).map (text ++ ·) := by
  induction text with
  | nil => simp [encode]
  | cons c text ih =>
      have hCases := toNat_cases c
      have hCons : encode (c :: text) ++ rest = units c ++ (encode text ++ rest) := by
        simp [encode]
      rw [hCons]
      unfold units
      by_cases hPlane : c.toNat < 0x10000
      · rw [if_pos hPlane, List.singleton_append, decode_single (by omega), ih, Char.ofNat_toNat]
        simp [Option.map_map, Function.comp_def]
      · have hPut : 0x10000 + (0xD800 + (c.toNat - 0x10000) / 0x400 - 0xD800) * 0x400 +
            (0xDC00 + (c.toNat - 0x10000) % 0x400 - 0xDC00) = c.toNat := by
          omega
        rw [if_neg hPlane, List.cons_append, List.singleton_append,
          decode_pair (by omega) (by omega), hPut, ih, Char.ofNat_toNat]
        simp [Option.map_map, Function.comp_def]

theorem decode_zeros (n : Nat) :
    decode (List.replicate n 0) = some (List.replicate n (Char.ofNat 0)) := by
  induction n with
  | zero => rfl
  | succ n ih =>
      rw [List.replicate_succ, decode_single (Or.inl (by decide)), ih]
      rfl

theorem ofLe_toLe_append {us : List Nat} (hUnits : ∀ u ∈ us, u < 0x10000) (rest : List UInt8) :
    ofLe (toLe us ++ rest) = us ++ ofLe rest := by
  induction us with
  | nil => rfl
  | cons u us ih =>
      have hUnit := hUnits u List.mem_cons_self
      have hCons : toLe (u :: us) ++ rest =
          UInt8.ofNat u :: UInt8.ofNat (u / 256) :: (toLe us ++ rest) := by
        simp [toLe]
      rw [hCons, ofLe, ih fun v hv => hUnits v (List.mem_cons_of_mem u hv)]
      simp only [UInt8.toNat_ofNat', List.cons_append, List.cons.injEq, and_true]
      omega

theorem ofLe_zeros (n : Nat) : ofLe (List.replicate (2 * n) 0) = List.replicate n 0 := by
  induction n with
  | zero => rfl
  | succ n ih =>
      have hDouble : List.replicate (2 * (n + 1)) (0 : UInt8) = 0 :: 0 :: List.replicate (2 * n) 0 := rfl
      rw [hDouble, ofLe, ih]
      rfl

@[simp] theorem length_toLe (us : List Nat) : (toLe us).length = 2 * us.length := by
  induction us with
  | nil => rfl
  | cons u us ih =>
      have hCons : toLe (u :: us) = UInt8.ofNat u :: UInt8.ofNat (u / 256) :: toLe us := rfl
      rw [hCons, List.length_cons, List.length_cons, ih, List.length_cons]
      omega

end Utf16
