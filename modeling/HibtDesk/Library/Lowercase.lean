import Mathlib.Data.List.Infix

/-! Strings with places counted in the bytes of UTF-8, and their copies in lower case.
A copy may be longer or shorter than the string. -/
namespace Lowercase

def byteLen : List Char → Nat
  | [] => 0
  | c :: rest => c.utf8Size + byteLen rest

/-- What is before a byte and from it on, where a character starts there. -/
def splitAtByte : List Char → Nat → Option (List Char × List Char)
  | s, 0 => some ([], s)
  | [], _ + 1 => none
  | c :: rest, n + 1 =>
      if n + 1 < c.utf8Size then none
      else (splitAtByte rest (n + 1 - c.utf8Size)).map fun parts => (c :: parts.1, parts.2)

/-- The byte where a pattern is first. -/
def find (pattern : List Char) : List Char → Option Nat
  | [] => if pattern = [] then some 0 else none
  | c :: rest =>
      if pattern <+: c :: rest then some 0 else (find pattern rest).map (c.utf8Size + ·)

/-- The lower case of each character, but for the capital sigma, which has one of its own
at the end of a word. A word ends by what is around it. -/
structure Lowercasing where
  lower : Char → List Char
  finalSigma : List Char → List Char → Bool
  ascii : ∀ c : Char, c.toNat < 128 → lower c = [c.toLower]
  dotted : lower 'İ' = ['i', '\u0307']
  kelvin : lower '\u212A' = ['k']
  other : ∀ c : Char, 128 ≤ c.toNat → c ≠ 'İ' → c ≠ '\u212A' → ∀ d ∈ lower c, 128 ≤ d.toNat
  nonempty : ∀ c : Char, lower c ≠ []

/-- Latin letters in lower case. -/
def Lowercasing.latin : Lowercasing where
  lower c :=
    if c.toNat < 128 then [c.toLower]
    else if c = 'İ' then ['i', '\u0307']
    else if c = '\u212A' then ['k']
    else [c]
  finalSigma _ _ := false
  ascii c hAscii := if_pos hAscii
  dotted := by decide
  kelvin := by decide
  other c hHigh hDotted hKelvin d hMem := by
    rw [if_neg (Nat.not_lt.mpr hHigh), if_neg hDotted, if_neg hKelvin, List.mem_singleton] at hMem
    exact hMem ▸ hHigh
  nonempty c := by
    split_ifs <;> simp

section Bytes
variable {s pattern rest : List Char}

theorem byteLen_append (s t : List Char) : byteLen (s ++ t) = byteLen s + byteLen t := by
  induction s with
  | nil => simp [byteLen]
  | cons c s ih => rw [List.cons_append, byteLen, byteLen, ih, Nat.add_assoc]

theorem splitAtByte_append (s t : List Char) : splitAtByte (s ++ t) (byteLen s) = some (s, t) := by
  induction s with
  | nil => cases t <;> rfl
  | cons c s ih =>
      have hPos := c.utf8Size_pos
      have hLength : byteLen (c :: s) = byteLen s + (c.utf8Size - 1) + 1 := by
        rw [byteLen]
        omega
      have hRest : byteLen s + (c.utf8Size - 1) + 1 - c.utf8Size = byteLen s := by omega
      rw [hLength, List.cons_append, splitAtByte, if_neg (by omega), hRest, ih]
      rfl

/-- A pattern whose first character is nowhere else in it is found behind a string
that has none of it. -/
theorem find_append {d : Char} {tail : List Char} (hHead : d ∉ tail) (hNone : ¬ d :: tail <:+: s) :
    find (d :: tail) (s ++ (d :: tail ++ rest)) = some (byteLen s) := by
  induction s with
  | nil =>
      rw [List.nil_append, List.cons_append, find, if_pos ⟨rest, rfl⟩]
      rfl
  | cons c s ih =>
      have hLater : ¬ d :: tail <:+: s := fun hIn => hNone (hIn.trans (List.suffix_cons c s).isInfix)
      have hNot : ¬ d :: tail <+: c :: s ++ (d :: tail ++ rest) := by
        intro hPrefix
        have hBefore : c :: s <+: c :: s ++ (d :: tail ++ rest) := List.prefix_append _ _
        rcases le_total (d :: tail).length (c :: s).length with hShort | hLong
        · exact hNone (List.prefix_of_prefix_length_le hPrefix hBefore hShort).isInfix
        · -- What is left of the pattern behind the string starts with its head.
          obtain ⟨left, hLeft⟩ := List.prefix_of_prefix_length_le hBefore hPrefix hLong
          have hOver : left <+: d :: tail ++ rest := by
            rw [← List.prefix_append_right_inj (c :: s), hLeft]
            exact hPrefix
          obtain ⟨-, hTail⟩ := List.cons.inj hLeft
          cases left with
          | nil =>
              refine hNone ?_
              rw [← hLeft, List.append_nil]
          | cons e left =>
              rw [List.cons_append, List.cons_prefix_cons] at hOver
              refine hHead ?_
              rw [← hTail, ← hOver.1]
              exact List.mem_append_right _ List.mem_cons_self
      rw [List.cons_append] at hNot ⊢
      rw [find, if_neg hNot, ih hLater]
      rfl

end Bytes

namespace Lowercasing
variable (L : Lowercasing)

def lowerAt (before : List Char) (c : Char) (after : List Char) : List Char :=
  if c = 'Σ' then [if L.finalSigma before after then 'ς' else 'σ'] else L.lower c

/-- A part of a string in lower case, between what is before it and after it. -/
def lowerIn (before : List Char) : List Char → List Char → List Char
  | [], _ => []
  | c :: rest, after =>
      L.lowerAt before c (rest ++ after) ++ lowerIn (before ++ [c]) rest after

/-- `str::to_lowercase`. -/
def toLowercase (s : List Char) : List Char := L.lowerIn [] s []

/-- An ASCII character that is lower case of no other than ASCII characters. -/
def Marker (d : Char) : Prop := d.toNat < 128 ∧ d ≠ 'i' ∧ d ≠ 'k'

instance (d : Char) : Decidable (Marker d) := inferInstanceAs (Decidable (_ ∧ _ ∧ _))

/-- Of a list that is written out, each character may be checked. -/
theorem markers_of_all {pattern : List Char} (h : pattern.all (fun d => decide (Marker d)) = true) :
    ∀ d ∈ pattern, Marker d :=
  fun d hMem => of_decide_eq_true (List.all_eq_true.mp h d hMem)

section Copies
variable {L} {before after s : List Char} {d : Char} {pattern : List Char}

theorem lowerIn_append (before s t after : List Char) :
    L.lowerIn before (s ++ t) after =
      L.lowerIn before s (t ++ after) ++ L.lowerIn (before ++ s) t after := by
  induction s generalizing before with
  | nil => simp [lowerIn]
  | cons c s ih =>
      rw [List.cons_append, lowerIn, lowerIn, ih]
      simp

theorem lowerAt_ascii {c : Char} (hAscii : c.toNat < 128) :
    L.lowerAt before c after = [c.toLower] := by
  have hSigma : c ≠ 'Σ' := by
    rintro rfl
    exact absurd hAscii (by decide)
  rw [lowerAt, if_neg hSigma, L.ascii c hAscii]

theorem lowerIn_ascii (hAscii : ∀ c ∈ s, c.toNat < 128) :
    L.lowerIn before s after = s.map Char.toLower := by
  induction s generalizing before with
  | nil => rfl
  | cons c s ih =>
      rw [lowerIn, lowerAt_ascii (hAscii c List.mem_cons_self),
        ih fun other hMem => hAscii other (List.mem_cons_of_mem _ hMem)]
      rfl

theorem lowerAt_ne_nil (c : Char) : L.lowerAt before c after ≠ [] := by
  unfold lowerAt
  split
  · exact List.cons_ne_nil _ _
  · exact L.nonempty c

/-- Where a marker is in lower case, there was this character in one of its cases. -/
theorem lowerAt_marker {c : Char} (hMarker : Marker d) (hMem : d ∈ L.lowerAt before c after) :
    L.lowerAt before c after = [d] ∧ c.toLower = d := by
  by_cases hAscii : c.toNat < 128
  · rw [lowerAt_ascii hAscii] at hMem ⊢
    rw [List.mem_singleton.mp hMem]
    exact ⟨rfl, rfl⟩
  · exfalso
    obtain ⟨hLow, hi, hk⟩ := hMarker
    unfold lowerAt at hMem
    split at hMem
    · rw [List.mem_singleton] at hMem
      subst hMem
      split at hLow <;> exact absurd hLow (by decide)
    · by_cases hDotted : c = 'İ'
      · subst hDotted
        rw [L.dotted, List.mem_cons, List.mem_singleton] at hMem
        rcases hMem with rfl | rfl
        · exact hi rfl
        · exact absurd hLow (by decide)
      by_cases hKelvin : c = '\u212A'
      · subst hKelvin
        rw [L.kelvin, List.mem_singleton] at hMem
        exact hk hMem
      · exact absurd hLow (Nat.not_lt.mpr (L.other c (Nat.not_lt.mp hAscii) hDotted hKelvin d hMem))

/-- Markers at the start of the copy are there in the string. -/
theorem exists_prefix (hMarkers : ∀ d ∈ pattern, Marker d) (h : pattern <+: L.lowerIn before s after) :
    ∃ found, found <+: s ∧ found.map Char.toLower = pattern := by
  induction pattern generalizing before s with
  | nil => exact ⟨[], List.nil_prefix, rfl⟩
  | cons d pattern ih =>
      cases s with
      | nil => simp [lowerIn] at h
      | cons c s =>
          rw [lowerIn] at h
          obtain ⟨e, es, hCase⟩ := List.exists_cons_of_ne_nil (@lowerAt_ne_nil L before (s ++ after) c)
          rw [hCase, List.cons_append, List.cons_prefix_cons] at h
          obtain ⟨rfl, hRest⟩ := h
          obtain ⟨hOne, hLower⟩ := lowerAt_marker (hMarkers d List.mem_cons_self)
            (show d ∈ L.lowerAt before c (s ++ after) by rw [hCase]; exact List.mem_cons_self)
          rw [hCase] at hOne
          rw [(List.cons.inj hOne).2, List.nil_append] at hRest
          obtain ⟨found, hFound, hMap⟩ :=
            ih (fun other hMem => hMarkers other (List.mem_cons_of_mem _ hMem)) hRest
          exact ⟨c :: found, List.cons_prefix_cons.mpr ⟨rfl, hFound⟩, by rw [List.map_cons, hLower, hMap]⟩

/-- Markers at the end of the copy are there in the string. -/
theorem exists_suffix (hMarkers : ∀ d ∈ pattern, Marker d) (h : pattern <:+ L.lowerIn before s after) :
    ∃ found, found <:+ s ∧ found.map Char.toLower = pattern := by
  induction pattern using List.reverseRecOn generalizing s after with
  | nil => exact ⟨[], List.nil_suffix, rfl⟩
  | append_singleton pattern d ih =>
      rcases List.eq_nil_or_concat s with rfl | ⟨s, c, rfl⟩
      · simp [lowerIn] at h
      · rw [List.concat_eq_append, lowerIn_append, lowerIn, lowerIn, List.append_nil] at h
        obtain ⟨es, e, hCase⟩ :=
          (List.eq_nil_or_concat (L.lowerAt (before ++ s) c ([] ++ after))).resolve_left
            (lowerAt_ne_nil c)
        obtain ⟨front, hFront⟩ := h
        rw [hCase, List.concat_eq_append, ← List.append_assoc, ← List.append_assoc] at hFront
        obtain ⟨hInit, hLast⟩ := List.append_inj' hFront rfl
        obtain rfl := List.singleton_inj.mp hLast
        obtain ⟨hOne, hLower⟩ := lowerAt_marker (hMarkers d (by simp))
          (show d ∈ L.lowerAt (before ++ s) c ([] ++ after) by rw [hCase]; simp)
        have hNone : es = [] := by
          rw [hCase, List.concat_eq_append] at hOne
          exact List.append_left_eq_self.mp hOne
        subst hNone
        rw [List.append_nil] at hInit
        obtain ⟨found, hFound, hMap⟩ :=
          ih (fun other hMem => hMarkers other (List.mem_append_left _ hMem)) ⟨front, hInit⟩
        refine ⟨found ++ [c], ?_, by rw [List.map_append, hMap, List.map_singleton, hLower]⟩
        rw [List.concat_eq_append]
        obtain ⟨first, rfl⟩ := hFound
        exact ⟨first, (List.append_assoc ..).symm⟩

theorem infix_of_notMem {tail l r : List Char} (hNot : d ∉ l) (h : d :: tail <:+: l ++ r) :
    d :: tail <:+: r := by
  induction l with
  | nil => exact h
  | cons e l ih =>
      rw [List.cons_append, List.infix_cons_iff] at h
      rcases h with hHere | hLater
      · rw [List.cons_prefix_cons] at hHere
        exact absurd (hHere.1 ▸ List.mem_cons_self) hNot
      · exact ih (fun hMem => hNot (List.mem_cons_of_mem _ hMem)) hLater

/-- Markers in the copy are there in the string. -/
theorem exists_infix (hSome : pattern ≠ []) (hMarkers : ∀ d ∈ pattern, Marker d)
    (h : pattern <:+: L.lowerIn before s after) :
    ∃ found, found <:+: s ∧ found.map Char.toLower = pattern := by
  obtain ⟨d, tail, rfl⟩ := List.exists_cons_of_ne_nil hSome
  induction s generalizing before with
  | nil => simp [lowerIn] at h
  | cons c s ih =>
      by_cases hHere : d :: tail <+: L.lowerIn before (c :: s) after
      · obtain ⟨found, hFound, hMap⟩ := exists_prefix hMarkers hHere
        exact ⟨found, hFound.isInfix, hMap⟩
      · rw [lowerIn] at h hHere
        have hLater : d :: tail <:+: L.lowerIn (before ++ [c]) s after := by
          by_cases hMem : d ∈ L.lowerAt before c (s ++ after)
          · have hOne := (lowerAt_marker (hMarkers d List.mem_cons_self) hMem).1
            rw [hOne, List.singleton_append] at h hHere
            exact (List.infix_cons_iff.mp h).resolve_left hHere
          · exact infix_of_notMem hMem h
        obtain ⟨found, hFound, hMap⟩ := ih hLater
        exact ⟨found, hFound.trans (List.suffix_cons c s).isInfix, hMap⟩

/-- How many bytes the copy of a part has does not depend on what is around it. -/
theorem byteLen_lowerIn (before after : List Char) :
    byteLen (L.lowerIn before s after) = byteLen (L.toLowercase s) := by
  have hBoth : ∀ before after before' after' : List Char,
      byteLen (L.lowerIn before s after) = byteLen (L.lowerIn before' s after') := by
    induction s with
    | nil => intros; rfl
    | cons c s ih =>
        intro before after before' after'
        rw [lowerIn, lowerIn, byteLen_append, byteLen_append, ih _ _ (before' ++ [c]) after']
        congr 1
        unfold lowerAt
        split
        · split <;> split <;> rfl
        · rfl
  exact hBoth before after [] []

end Copies

end Lowercasing

end Lowercase
