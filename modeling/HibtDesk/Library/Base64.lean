import Mathlib.Tactic.IntervalCases
import Mathlib.Data.List.Basic
import Mathlib.Algebra.Order.Ring.Int

/-! Base64 with the standard alphabet and padding. Only what is written this way is read. -/
namespace Base64

def pad : UInt8 := 61

/-- The character for six bits. -/
def symbol (i : Nat) : UInt8 :=
  if i < 26 then .ofNat (65 + i)
  else if i < 52 then .ofNat (71 + i)
  else if i < 62 then .ofNat (i - 4)
  else if i = 62 then 43
  else 47

def index (c : UInt8) : Option Nat :=
  if 65 ≤ c ∧ c ≤ 90 then some (c.toNat - 65)
  else if 97 ≤ c ∧ c ≤ 122 then some (c.toNat - 71)
  else if 48 ≤ c ∧ c ≤ 57 then some (c.toNat + 4)
  else if c = 43 then some 62
  else if c = 47 then some 63
  else none

def encode : List UInt8 → List UInt8
  | [] => []
  | [a] => [symbol (a.toNat / 4), symbol (a.toNat % 4 * 16), pad, pad]
  | [a, b] =>
      [symbol (a.toNat / 4), symbol (a.toNat % 4 * 16 + b.toNat / 16), symbol (b.toNat % 16 * 4), pad]
  | a :: b :: c :: rest =>
      symbol (a.toNat / 4) :: symbol (a.toNat % 4 * 16 + b.toNat / 16) ::
        symbol (b.toNat % 16 * 4 + c.toNat / 64) :: symbol (c.toNat % 64) :: encode rest

/-- The bits that a padded group has left over are zero. -/
def decode : List UInt8 → Option (List UInt8)
  | [] => some []
  | w :: x :: y :: z :: rest => do
      let i ← index w
      let j ← index x
      if y = pad ∧ z = pad ∧ rest = [] then
        if j % 16 = 0 then some [.ofNat (i * 4 + j / 16)] else none
      else
        let k ← index y
        if z = pad ∧ rest = [] then
          if k % 4 = 0 then some [.ofNat (i * 4 + j / 16), .ofNat (j % 16 * 16 + k / 4)] else none
        else
          let l ← index z
          let more ← decode rest
          some (.ofNat (i * 4 + j / 16) :: .ofNat (j % 16 * 16 + k / 4) :: .ofNat (k % 4 * 64 + l) :: more)
  | _ => none

theorem index_symbol {i : Nat} (h : i < 64) : index (symbol i) = some i := by
  have hAll : ∀ i : Fin 64, index (symbol i.val) = some i.val := by decide
  exact hAll ⟨i, h⟩

theorem symbol_ne_pad {i : Nat} (h : i < 64) : symbol i ≠ pad := by
  have hAll : ∀ i : Fin 64, symbol i.val ≠ pad := by decide
  exact hAll ⟨i, h⟩

theorem index_ascii {c : UInt8} {i : Nat} (h : index c = some i) : c < 128 := by
  by_contra hHigh
  have hNone : index c = none := by
    unfold index
    have h90 : ¬ c ≤ 90 := fun hLe => hHigh (UInt8.lt_of_le_of_lt hLe (by decide))
    have h122 : ¬ c ≤ 122 := fun hLe => hHigh (UInt8.lt_of_le_of_lt hLe (by decide))
    have h57 : ¬ c ≤ 57 := fun hLe => hHigh (UInt8.lt_of_le_of_lt hLe (by decide))
    have h43 : c ≠ 43 := by
      rintro rfl
      exact hHigh (by decide)
    have h47 : c ≠ 47 := by
      rintro rfl
      exact hHigh (by decide)
    simp [h90, h122, h57, h43, h47]
  rw [hNone] at h
  cases h

theorem decode_encode (data : List UInt8) : decode (encode data) = some data := by
  induction data using encode.induct with
  | case1 => rfl
  | case2 a =>
      have ha := a.toNat_lt
      have hj : a.toNat % 4 * 16 < 64 := by omega
      simp only [encode, decode, index_symbol (show a.toNat / 4 < 64 by omega), index_symbol hj]
      have hZero : a.toNat % 4 * 16 % 16 = 0 := by omega
      have hByte : a.toNat / 4 * 4 + a.toNat % 4 * 16 / 16 = a.toNat := by omega
      simp only [Option.bind_eq_bind, Option.bind_some, and_self, if_true, hZero, hByte,
        UInt8.ofNat_toNat]
  | case3 a b =>
      have ha := a.toNat_lt
      have hb := b.toNat_lt
      have hk : b.toNat % 16 * 4 < 64 := by omega
      simp only [encode, decode, index_symbol (show a.toNat / 4 < 64 by omega),
        index_symbol (show a.toNat % 4 * 16 + b.toNat / 16 < 64 by omega), index_symbol hk]
      have hZero : b.toNat % 16 * 4 % 4 = 0 := by omega
      have hFirst : a.toNat / 4 * 4 + (a.toNat % 4 * 16 + b.toNat / 16) / 16 = a.toNat := by omega
      have hSecond : (a.toNat % 4 * 16 + b.toNat / 16) % 16 * 16 + b.toNat % 16 * 4 / 4 = b.toNat := by
        omega
      simp only [Option.bind_eq_bind, Option.bind_some, symbol_ne_pad hk, false_and, and_self, if_true,
        if_false, hZero, hFirst, hSecond, UInt8.ofNat_toNat]
  | case4 a b c rest ih =>
      have ha := a.toNat_lt
      have hb := b.toNat_lt
      have hc := c.toNat_lt
      have hk : b.toNat % 16 * 4 + c.toNat / 64 < 64 := by omega
      have hl : c.toNat % 64 < 64 := by omega
      simp only [encode, decode, index_symbol (show a.toNat / 4 < 64 by omega),
        index_symbol (show a.toNat % 4 * 16 + b.toNat / 16 < 64 by omega), index_symbol hk,
        index_symbol hl, ih]
      have hFirst : a.toNat / 4 * 4 + (a.toNat % 4 * 16 + b.toNat / 16) / 16 = a.toNat := by omega
      have hSecond : (a.toNat % 4 * 16 + b.toNat / 16) % 16 * 16 +
          (b.toNat % 16 * 4 + c.toNat / 64) / 4 = b.toNat := by omega
      have hThird : (b.toNat % 16 * 4 + c.toNat / 64) % 4 * 64 + c.toNat % 64 = c.toNat := by omega
      simp only [Option.bind_eq_bind, Option.bind_some, symbol_ne_pad hk, symbol_ne_pad hl, false_and,
        if_false, hFirst, hSecond, hThird, UInt8.ofNat_toNat]

/-- What is read is shorter than its text, and all of the text is ASCII. -/
theorem decode_shape {text data : List UInt8} (h : decode text = some data) :
    data.length ≤ text.length ∧ ∀ byte ∈ text, byte < 128 := by
  induction text using decode.induct generalizing data with
  | case1 =>
      cases h
      exact ⟨le_rfl, nofun⟩
  | case2 w x y z rest ih =>
      have hPad : pad < 128 := by decide
      simp only [decode, Option.bind_eq_bind, Option.bind_eq_some_iff] at h
      obtain ⟨i, hw, j, hx, h⟩ := h
      have hTwo : ∀ byte, byte = w ∨ byte = x → byte < 128 := by
        rintro byte (rfl | rfl)
        · exact index_ascii hw
        · exact index_ascii hx
      split_ifs at h with hOnly hZero hLast
      · obtain ⟨rfl, rfl, rfl⟩ := hOnly
        cases h
        refine ⟨by simp, fun byte hMem => ?_⟩
        simp only [List.mem_cons, List.not_mem_nil, or_false] at hMem
        rcases hMem with hFirst | hSecond | rfl | rfl
        · exact hTwo _ (Or.inl hFirst)
        · exact hTwo _ (Or.inr hSecond)
        · exact hPad
        · exact hPad
      · obtain ⟨rfl, rfl⟩ := hLast
        obtain ⟨k, hy, h⟩ := Option.bind_eq_some_iff.mp h
        split_ifs at h
        cases h
        refine ⟨by simp, fun byte hMem => ?_⟩
        simp only [List.mem_cons, List.not_mem_nil, or_false] at hMem
        rcases hMem with hFirst | hSecond | rfl | rfl
        · exact hTwo _ (Or.inl hFirst)
        · exact hTwo _ (Or.inr hSecond)
        · exact index_ascii hy
        · exact hPad
      · simp only [Option.bind_eq_some_iff] at h
        obtain ⟨k, hy, l, hz, more, hMore, h⟩ := h
        obtain ⟨hLength, hRest⟩ := ih hMore
        cases h
        refine ⟨by simp only [List.length_cons]; omega, fun byte hMem => ?_⟩
        simp only [List.mem_cons] at hMem
        rcases hMem with hFirst | hSecond | rfl | rfl | hLater
        · exact hTwo _ (Or.inl hFirst)
        · exact hTwo _ (Or.inr hSecond)
        · exact index_ascii hy
        · exact index_ascii hz
        · exact hRest byte hLater
  | case3 text hNil hFour =>
      exact absurd h (by simp [decode])

theorem encode_ascii (data : List UInt8) : ∀ byte ∈ encode data, byte < 128 :=
  (decode_shape (decode_encode data)).2

theorem length_encode_mod (data : List UInt8) : (encode data).length % 4 = 0 := by
  induction data using encode.induct with
  | case1 => rfl
  | case2 a => simp [encode]
  | case3 a b => simp [encode]
  | case4 a b c rest ih =>
      simp only [encode, List.length_cons]
      omega

/-- Only whole groups are read. -/
theorem length_decode_mod {text data : List UInt8} (h : decode text = some data) :
    text.length % 4 = 0 := by
  induction text using decode.induct generalizing data with
  | case1 => rfl
  | case2 w x y z rest ih =>
      simp only [decode, Option.bind_eq_bind, Option.bind_eq_some_iff] at h
      obtain ⟨i, -, j, -, h⟩ := h
      split_ifs at h with hOnly hZero hLast
      · simp [hOnly.2.2]
      · simp [hLast.2]
      · simp only [Option.bind_eq_some_iff] at h
        obtain ⟨k, -, l, -, more, hMore, -⟩ := h
        have := ih hMore
        simp only [List.length_cons]
        omega
  | case3 text hNil hFour => exact absurd h (by simp [decode])

theorem mem_encode {data : List UInt8} {c : UInt8} (h : c ∈ encode data) :
    c = pad ∨ ∃ i < 64, c = symbol i := by
  induction data using encode.induct with
  | case1 => cases h
  | case2 a =>
      have ha := a.toNat_lt
      simp only [encode, List.mem_cons, List.not_mem_nil, or_false] at h
      rcases h with rfl | rfl | rfl | rfl
      · exact Or.inr ⟨_, by omega, rfl⟩
      · exact Or.inr ⟨_, by omega, rfl⟩
      · exact Or.inl rfl
      · exact Or.inl rfl
  | case3 a b =>
      have ha := a.toNat_lt
      have hb := b.toNat_lt
      simp only [encode, List.mem_cons, List.not_mem_nil, or_false] at h
      rcases h with rfl | rfl | rfl | rfl
      · exact Or.inr ⟨_, by omega, rfl⟩
      · exact Or.inr ⟨_, by omega, rfl⟩
      · exact Or.inr ⟨_, by omega, rfl⟩
      · exact Or.inl rfl
  | case4 a b c rest ih =>
      have ha := a.toNat_lt
      have hb := b.toNat_lt
      have hc := c.toNat_lt
      simp only [encode, List.mem_cons] at h
      rcases h with rfl | rfl | rfl | rfl | h
      · exact Or.inr ⟨_, by omega, rfl⟩
      · exact Or.inr ⟨_, by omega, rfl⟩
      · exact Or.inr ⟨_, by omega, rfl⟩
      · exact Or.inr ⟨_, by omega, rfl⟩
      · exact ih h

theorem eq_of_symbol_last {i : Nat} (h : i < 64) (hLast : symbol i = 47) : i = 63 := by
  have hAll : ∀ i : Fin 64, symbol i.val = 47 → i.val = 63 := by decide
  exact hAll ⟨i, h⟩ hLast

/-- A group of the last character is that of bytes with all bits set. -/
theorem mem_of_encode_last {data : List UInt8} (h : List.replicate 4 47 <:+ encode data) :
    255 ∈ data := by
  induction data using encode.induct with
  | case1 => simp [encode] at h
  | case2 a =>
      have hSame := h.eq_of_length (by simp [encode])
      simp [encode, pad] at hSame
  | case3 a b =>
      have hSame := h.eq_of_length (by simp [encode])
      simp [encode, pad] at hSame
  | case4 a b c rest ih =>
      have hc := c.toNat_lt
      have hb := b.toNat_lt
      by_cases hEnd : encode rest = []
      · have hSame := h.eq_of_length (by simp [encode, hEnd])
        simp only [encode, hEnd, List.replicate, List.cons.injEq, and_true] at hSame
        have hThird := eq_of_symbol_last (by omega) hSame.2.2.1.symm
        have hFourth := eq_of_symbol_last (by omega) hSame.2.2.2.symm
        have hByte : c = 255 := by
          apply UInt8.toNat_inj.mp
          change c.toNat = 255
          omega
        simp [hByte]
      · have hGroup : 4 ≤ (encode rest).length := by
          have hMod := length_encode_mod rest
          have hPos := List.length_pos_iff.mpr hEnd
          omega
        have hRest : encode rest <:+ encode (a :: b :: c :: rest) :=
          ⟨[_, _, _, _], rfl⟩
        have hLater := ih (List.suffix_of_suffix_length_le h hRest (by simpa using hGroup))
        exact List.mem_cons_of_mem _ (List.mem_cons_of_mem _ (List.mem_cons_of_mem _ hLater))

end Base64
