import HibtDesk.Common.Version
import Mathlib.Data.Nat.Digits.Defs

/-! The order of version numbers. A version string of three numbers and a patch is read in
base 1000, with the patch in the last digit of the last number. The string comes from the peer,
so its numbers may be of any size. -/
namespace HibtDesk

section Checked

/-- The result of an operation on `i64`, unless it overflows. -/
def checkedI64 (value : Int) : Option Int :=
  if -(2 ^ 63) ≤ value ∧ value < 2 ^ 63 then some value else none

/-- A part of a version string. What is not a number counts as zero. -/
def versionPart (text : List Char) : Int := (parseI64 text).getD 0

/-- The loop of `get_version_number`, with `n` and `last`. -/
def foldParts (parts : List (List Char)) (n last : Int) : Option (Int × Int) :=
  parts.foldlM
    (fun (past : Int × Int) x => do
      let shifted ← checkedI64 (past.1 * 1000)
      let n ← checkedI64 (shifted + versionPart x)
      return (n, versionPart x))
    (n, last)

/-- `n -= last; n += last * 10`. -/
def shiftLast (past : Int × Int) : Option Int := do
  let n ← checkedI64 (past.1 - past.2)
  let last ← checkedI64 (past.2 * 10)
  checkedI64 (n + last)

/-- The first part is the version number. -/
def mainNumber : List (List Char) → Option Int
  | [] => some 0
  | first :: _ => (foldParts (splitChars '.' first) 0 0).bind shiftLast

/-- The second part is the patch, the rest is ignored. -/
def addPatch : List (List Char) → Int → Option Int
  | _ :: patch :: _, n => checkedI64 (n + versionPart patch)
  | _, n => some n

/-- `get_version_number` in a build with overflow checks. There is no result if it panics. -/
def getVersionNumberChecked (v : String) : Option Int :=
  (mainNumber (splitChars '-' v.toList)).bind (addPatch (splitChars '-' v.toList))

end Checked

def partNumber (text : List Char) : Nat := (versionPart text).toNat

/-- The numbers of the parts before the first dash. -/
def versionParts (v : String) : List Nat :=
  (splitChars '.' ((splitChars '-' v.toList).headD [])).map partNumber

/-- The number after the first dash. -/
def versionPatch (v : String) : Nat :=
  ((splitChars '-' v.toList)[1]?.map partNumber).getD 0

/-- The version number, however long: the parts but the last in base 1000, ten times the last,
and the patch. -/
def versionSize (v : String) : Nat :=
  1000 * Nat.ofDigits 1000 (versionParts v).dropLast.reverse + 10 * (versionParts v).getLastD 0 +
    versionPatch v

/-- A number in decimal digits. -/
structure Numeral (text : List Char) (n : Nat) : Prop where
  ne_nil : text ≠ []
  digits : ∀ c ∈ text, c.isDigit = true
  value : Nat.ofDigitChars 10 text 0 = n

/-- The string is `a.b.c`, or `a.b.c-p`. -/
def SpellsVersion (v : String) (a b c p : Nat) : Prop :=
  ∃ major minor micro, Numeral major a ∧ Numeral minor b ∧ Numeral micro c ∧
    (v.toList = major ++ '.' :: (minor ++ '.' :: micro) ∧ p = 0 ∨
      ∃ patch, Numeral patch p ∧ v.toList = major ++ '.' :: (minor ++ '.' :: micro) ++ '-' :: patch)

/-- The string is a version with numbers that have room in base 1000. -/
structure NamesVersion (v : String) (a b c p : Nat) : Prop where
  spells : SpellsVersion v a b c p
  minor : b < 1000
  micro : 10 * c + p < 1000
  patch : p < 10

example : NamesVersion "1.1.10-1" 1 1 10 1 := by
  refine ⟨⟨['1'], ['1'], ['1', '0'], ?_, ?_, ?_, Or.inr ⟨['1'], ?_, by decide⟩⟩, by decide, by decide, by decide⟩
  all_goals exact ⟨List.cons_ne_nil _ _, List.all_eq_true.mp rfl, rfl⟩

/-- Neither number overflows, and the later version has the greater one. Lists are compared
from their first elements on. -/
structure ComparesVersions (v w : String) : Prop where
  first : getVersionNumberChecked v ≠ none
  second : getVersionNumberChecked w ≠ none
  ordered : ∀ a b c p a' b' c' p', NamesVersion v a b c p → NamesVersion w a' b' c' p' →
    [a, b, c, p] < [a', b', c', p'] → getVersionNumber v < getVersionNumber w

/-- The first number of the later version can be read; or it counts as zero, and so does the
one of the earlier version, which comes first even so. -/
def MajorsRead (v w : String) : Prop :=
  ∀ a b c p a' b' c' p', NamesVersion v a b c p → NamesVersion w a' b' c' p' →
    [a, b, c, p] < [a', b', c', p'] →
      a' < 2 ^ 63 ∨ (a = 0 ∨ 2 ^ 63 ≤ a) ∧ [b, c, p] < [b', c', p']

/-- Without a dash there is no sign. -/
theorem versionPart_nonneg {text : List Char} (hDash : '-' ∉ text) : 0 ≤ versionPart text := by
  have hDigits : ∀ (digits : List Char) value,
      (digitsValue digits 0).map Int.ofNat = some value → 0 ≤ value := by
    intro digits value hValue
    obtain ⟨n, -, rfl⟩ := Option.map_eq_some_iff.mp hValue
    exact Int.natCast_nonneg n
  unfold versionPart
  cases hParsed : parseI64 text with
  | none => exact Int.le_refl 0
  | some value =>
      unfold parseI64 at hParsed
      have hSigned := (Option.filter_eq_some_iff.mp hParsed).1
      split at hSigned
      · cases hSigned
      · cases hSigned
      · cases hSigned
      · exact hDigits _ _ hSigned
      · exact absurd List.mem_cons_self hDash
      · exact hDigits _ _ hSigned

theorem partNumber_cast {text : List Char} (hDash : '-' ∉ text) :
    (partNumber text : Int) = versionPart text := Int.toNat_of_nonneg (versionPart_nonneg hDash)

section Split
variable {separator c : Char} {text piece : List Char}

theorem notMem_of_mem_splitChars (hPiece : piece ∈ splitChars separator text) : separator ∉ piece := by
  induction text generalizing piece with
  | nil =>
      rw [splitChars, List.mem_singleton] at hPiece
      rw [hPiece]
      exact List.not_mem_nil
  | cons first text ih =>
      rw [splitChars] at hPiece
      split at hPiece
      · rcases List.mem_cons.mp hPiece with rfl | hRest
        · exact List.not_mem_nil
        · exact ih hRest
      · rename_i hOther
        split at hPiece
        · rw [List.mem_singleton.mp hPiece]
          exact fun hMem => hOther (List.mem_singleton.mp hMem).symm
        · rename_i found rest hSplit
          rcases List.mem_cons.mp hPiece with rfl | hRest
          · intro hMem
            rcases List.mem_cons.mp hMem with hSame | hFound
            · exact hOther hSame.symm
            · exact ih (hSplit ▸ List.mem_cons_self) hFound
          · exact ih (hSplit ▸ List.mem_cons_of_mem _ hRest)

theorem mem_of_mem_splitChars (hPiece : piece ∈ splitChars separator text) (hMem : c ∈ piece) : c ∈ text := by
  induction text generalizing piece with
  | nil =>
      rw [splitChars, List.mem_singleton] at hPiece
      rw [hPiece] at hMem
      exact absurd hMem List.not_mem_nil
  | cons first text ih =>
      rw [splitChars] at hPiece
      split at hPiece
      · rcases List.mem_cons.mp hPiece with rfl | hRest
        · exact absurd hMem List.not_mem_nil
        · exact List.mem_cons_of_mem _ (ih hRest hMem)
      · split at hPiece
        · rw [List.mem_singleton.mp hPiece, List.mem_singleton] at hMem
          rw [hMem]
          exact List.mem_cons_self
        · rename_i found rest hSplit
          rcases List.mem_cons.mp hPiece with rfl | hRest
          · rcases List.mem_cons.mp hMem with rfl | hFound
            · exact List.mem_cons_self
            · exact List.mem_cons_of_mem _ (ih (hSplit ▸ List.mem_cons_self) hFound)
          · exact List.mem_cons_of_mem _ (ih (hSplit ▸ List.mem_cons_of_mem _ hRest) hMem)

theorem splitChars_ne_nil (separator : Char) (text : List Char) : splitChars separator text ≠ [] := by
  cases text with
  | nil => exact List.cons_ne_nil _ _
  | cons first text =>
      rw [splitChars]
      split
      · exact List.cons_ne_nil _ _
      · split
        · exact List.cons_ne_nil _ _
        · exact List.cons_ne_nil _ _

end Split

theorem checkedI64_of_lt {n : Nat} (hFits : n < 2 ^ 63) : checkedI64 n = some (n : Int) := by
  unfold checkedI64
  rw [if_pos]
  omega

theorem checkedI64_of_le {n : Nat} (hMore : 2 ^ 63 ≤ n) : checkedI64 n = none := by
  unfold checkedI64
  rw [if_neg]
  omega

/-- More parts in base 1000. -/
def readParts (n : Nat) (numbers : List Nat) : Nat := numbers.foldl (fun n x => n * 1000 + x) n

theorem le_readParts (n : Nat) (numbers : List Nat) : n ≤ readParts n numbers := by
  induction numbers generalizing n with
  | nil => exact Nat.le_refl n
  | cons x rest ih =>
      have hRest := ih (n * 1000 + x)
      show n ≤ readParts (n * 1000 + x) rest
      omega

theorem readParts_concat (n : Nat) (numbers : List Nat) (x : Nat) :
    readParts n (numbers ++ [x]) = readParts n numbers * 1000 + x := by
  unfold readParts
  rw [List.foldl_append, List.foldl_cons, List.foldl_nil]

theorem readParts_zero (numbers : List Nat) : readParts 0 numbers = Nat.ofDigits 1000 numbers.reverse := by
  rw [Nat.ofDigits_eq_foldr, List.foldr_reverse]
  unfold readParts
  congr 1
  funext n x
  dsimp only [Nat.cast_id]
  omega

/-- The loop goes through if what it comes to fits, as it only ever gets more. -/
theorem foldParts_eq {parts : List (List Char)} (hDash : ∀ part ∈ parts, '-' ∉ part) {n : Nat}
    (hFits : n < 2 ^ 63) (last : Int) :
    foldParts parts n last =
      if readParts n (parts.map partNumber) < 2 ^ 63 then
        some ((readParts n (parts.map partNumber) : Int), (parts.map versionPart).getLastD last)
      else none := by
  induction parts generalizing n last with
  | nil => exact (if_pos hFits).symm
  | cons part rest ih =>
      obtain ⟨hPart, hRest⟩ := List.forall_mem_cons.mp hDash
      have hStep : foldParts (part :: rest) n last =
          (checkedI64 (n * 1000)).bind fun shifted =>
            (checkedI64 (shifted + versionPart part)).bind fun n => foldParts rest n (versionPart part) := by
        unfold foldParts
        rw [List.foldlM_cons]
        cases checkedI64 (n * 1000) with
        | none => rfl
        | some shifted => cases hAdded : checkedI64 (shifted + versionPart part) <;> simp [hAdded]
      have hShifted : ((n * 1000 : Nat) : Int) = (n : Int) * 1000 := by rw [Nat.cast_mul]; rfl
      have hAdded : checkedI64 (((n * 1000 : Nat) : Int) + versionPart part) =
          checkedI64 ((n * 1000 + partNumber part : Nat) : Int) := by
        rw [Nat.cast_add, partNumber_cast hPart]
      have hRead : readParts n ((part :: rest).map partNumber) =
          readParts (n * 1000 + partNumber part) (rest.map partNumber) := rfl
      have hMore := le_readParts (n * 1000 + partNumber part) (rest.map partNumber)
      rw [hStep, ← hShifted, hRead]
      by_cases hNext : n * 1000 + partNumber part < 2 ^ 63
      · have hFirst : n * 1000 < 2 ^ 63 := Nat.lt_of_le_of_lt (Nat.le_add_right ..) hNext
        rw [checkedI64_of_lt hFirst, Option.bind_some, hAdded, checkedI64_of_lt hNext, Option.bind_some,
          ih hRest hNext, List.map_cons, List.getLastD_cons]
      · have hLong : ¬ readParts (n * 1000 + partNumber part) (rest.map partNumber) < 2 ^ 63 :=
          fun hShort => hNext (Nat.lt_of_le_of_lt hMore hShort)
        rw [if_neg hLong]
        by_cases hFirst : n * 1000 < 2 ^ 63
        · rw [checkedI64_of_lt hFirst, Option.bind_some, hAdded, checkedI64_of_le (Nat.le_of_not_lt hNext),
            Option.bind_none]
        · rw [checkedI64_of_le (Nat.le_of_not_lt hFirst), Option.bind_none]

theorem shiftLast_eq (higher last : Nat) :
    shiftLast ((higher * 1000 + last : Nat), (last : Int)) =
      if 1000 * higher + 10 * last < 2 ^ 63 then some ((1000 * higher + 10 * last : Nat) : Int) else none := by
  have hHigher : ((higher * 1000 + last : Nat) : Int) - last = (higher * 1000 : Nat) := by omega
  have hLast : (last : Int) * 10 = (last * 10 : Nat) := by omega
  have hBoth : ((higher * 1000 : Nat) : Int) + (last * 10 : Nat) = (1000 * higher + 10 * last : Nat) := by omega
  unfold shiftLast
  simp only [Option.bind_eq_bind]
  rw [hHigher, hLast]
  by_cases hFits : 1000 * higher + 10 * last < 2 ^ 63
  · have hFirst : higher * 1000 < 2 ^ 63 := by omega
    have hSecond : last * 10 < 2 ^ 63 := by omega
    rw [if_pos hFits, checkedI64_of_lt hFirst, Option.bind_some, checkedI64_of_lt hSecond, Option.bind_some,
      hBoth, checkedI64_of_lt hFits]
  · rw [if_neg hFits]
    by_cases hFirst : higher * 1000 < 2 ^ 63
    · rw [checkedI64_of_lt hFirst, Option.bind_some]
      by_cases hSecond : last * 10 < 2 ^ 63
      · rw [checkedI64_of_lt hSecond, Option.bind_some, hBoth, checkedI64_of_le (Nat.le_of_not_lt hFits)]
      · rw [checkedI64_of_le (Nat.le_of_not_lt hSecond), Option.bind_none]
    · rw [checkedI64_of_le (Nat.le_of_not_lt hFirst), Option.bind_none]

/-- The part before the first dash. -/
theorem shiftLast_foldParts {front : List (List Char)} {last : List Char}
    (hDash : ∀ part ∈ front ++ [last], '-' ∉ part) :
    (foldParts (front ++ [last]) 0 0).bind shiftLast =
      if 1000 * Nat.ofDigits 1000 (front.map partNumber).reverse + 10 * partNumber last < 2 ^ 63 then
        some ((1000 * Nat.ofDigits 1000 (front.map partNumber).reverse + 10 * partNumber last : Nat) : Int)
      else none := by
  have hLast : '-' ∉ last := hDash last (List.mem_append_right front List.mem_cons_self)
  have hLoop := foldParts_eq hDash (show 0 < 2 ^ 63 by decide) 0
  rw [List.map_append, List.map_singleton, readParts_concat, readParts_zero, List.map_append,
    List.map_singleton, List.getLastD_concat, Nat.cast_zero, ← partNumber_cast hLast] at hLoop
  rw [hLoop, ← shiftLast_eq]
  generalize Nat.ofDigits 1000 (front.map partNumber).reverse = higher
  split
  · rfl
  · rename_i hLong
    have hMore : ¬ 1000 * higher + 10 * partNumber last < 2 ^ 63 := by omega
    rw [shiftLast_eq, if_neg hMore, Option.bind_none]

/-- The version number overflows unless it fits as a whole. -/
theorem getVersionNumberChecked_eq (v : String) :
    getVersionNumberChecked v = if versionSize v < 2 ^ 63 then some (versionSize v : Int) else none := by
  have hPieces := fun text => @notMem_of_mem_splitChars '-' v.toList text
  unfold getVersionNumberChecked versionSize versionParts versionPatch
  cases hVersions : splitChars '-' v.toList with
  | nil => exact absurd hVersions (splitChars_ne_nil '-' v.toList)
  | cons first rest =>
      rw [hVersions] at hPieces
      have hFirst : '-' ∉ first := hPieces first List.mem_cons_self
      obtain ⟨front, last, hSplit⟩ : ∃ front last, splitChars '.' first = front ++ [last] := by
        rcases List.eq_nil_or_concat (splitChars '.' first) with hNil | ⟨front, last, hConcat⟩
        · exact absurd hNil (splitChars_ne_nil '.' first)
        · exact ⟨front, last, hConcat.trans List.concat_eq_append⟩
      have hParts : ∀ part ∈ front ++ [last], '-' ∉ part :=
        fun part hPart hDash => hFirst (mem_of_mem_splitChars (hSplit ▸ hPart) hDash)
      have hShift := shiftLast_foldParts hParts
      simp only [List.headD_cons, hSplit, List.map_append, List.map_singleton, List.dropLast_concat,
        List.getLastD_concat]
      generalize 1000 * Nat.ofDigits 1000 (front.map partNumber).reverse + 10 * partNumber last = n at hShift ⊢
      rw [mainNumber, hSplit, hShift]
      cases rest with
      | nil =>
          simp only [List.getElem?_cons_succ, List.getElem?_nil, Option.map_none, Option.getD_none, Nat.add_zero]
          exact Option.bind_fun_some _
      | cons patch more =>
          have hPatch : '-' ∉ patch := hPieces patch (List.mem_cons_of_mem first List.mem_cons_self)
          have hSum : (n : Int) + versionPart patch = (n + partNumber patch : Nat) := by
            rw [Nat.cast_add, partNumber_cast hPatch]
          simp only [List.getElem?_cons_succ, List.getElem?_cons_zero, Option.map_some, Option.getD_some]
          by_cases hFits : n < 2 ^ 63
          · rw [if_pos hFits, Option.bind_some, addPatch, hSum]
            by_cases hBoth : n + partNumber patch < 2 ^ 63
            · rw [if_pos hBoth, checkedI64_of_lt hBoth]
            · rw [if_neg hBoth, checkedI64_of_le (Nat.le_of_not_lt hBoth)]
          · have hBoth : ¬ n + partNumber patch < 2 ^ 63 := by omega
            rw [if_neg hFits, if_neg hBoth, Option.bind_none]

theorem wrapI64_of_checked {value result : Int} (hChecked : checkedI64 value = some result) :
    wrapI64 value = result := by
  unfold checkedI64 at hChecked
  split at hChecked
  · rename_i hFits
    obtain rfl := Option.some.inj hChecked
    exact Int.bmod_eq_of_le_mul_two (by omega) (by omega)
  · cases hChecked

theorem foldl_of_foldParts {parts : List (List Char)} {n last : Int} {result : Int × Int}
    (hFold : foldParts parts n last = some result) :
    parts.foldl (fun (n, _) x => (wrapI64 (wrapI64 (n * 1000) + versionPart x), versionPart x)) (n, last) =
      result := by
  induction parts generalizing n last with
  | nil => exact Option.some.inj hFold
  | cons part rest ih =>
      unfold foldParts at hFold
      rw [List.foldlM_cons] at hFold
      obtain ⟨past, hPast, hRest⟩ := Option.bind_eq_some_iff.mp hFold
      obtain ⟨shifted, hShifted, hAdd⟩ := Option.bind_eq_some_iff.mp hPast
      obtain ⟨added, hAdded, hPair⟩ := Option.bind_eq_some_iff.mp hAdd
      obtain rfl := Option.some.inj hPair
      rw [List.foldl_cons]
      dsimp only
      rw [wrapI64_of_checked hShifted, wrapI64_of_checked hAdded]
      exact ih hRest

/-- Without overflow the number is the same in every build. -/
theorem getVersionNumber_of_checked {v : String} {n : Int} (hChecked : getVersionNumberChecked v = some n) :
    getVersionNumber v = n := by
  obtain ⟨main, hMain, hPatch⟩ := Option.bind_eq_some_iff.mp hChecked
  unfold getVersionNumber
  cases hVersions : splitChars '-' v.toList with
  | nil => exact absurd hVersions (splitChars_ne_nil '-' v.toList)
  | cons first rest =>
      rw [hVersions] at hMain hPatch
      obtain ⟨past, hPast, hShift⟩ := Option.bind_eq_some_iff.mp hMain
      obtain ⟨lower, hLower, hMore⟩ := Option.bind_eq_some_iff.mp hShift
      obtain ⟨shifted, hShifted, hSum⟩ := Option.bind_eq_some_iff.mp hMore
      have hMainNumber : wrapI64 (wrapI64 (past.1 - past.2) + wrapI64 (past.2 * 10)) = main := by
        rw [wrapI64_of_checked hLower, wrapI64_of_checked hShifted, wrapI64_of_checked hSum]
      have hLoop := (congrArg (fun past : Int × Int => wrapI64 (wrapI64 (past.1 - past.2) + wrapI64 (past.2 * 10)))
        (foldl_of_foldParts hPast)).trans hMainNumber
      cases rest with
      | nil => exact hLoop.trans (Option.some.inj hPatch)
      | cons patch more =>
          exact (congrArg (fun n => wrapI64 (n + versionPart patch)) hLoop).trans (wrapI64_of_checked hPatch)

theorem versionSize_of_checked {v : String} (hChecked : getVersionNumberChecked v ≠ none) :
    versionSize v < 2 ^ 63 ∧ getVersionNumber v = versionSize v := by
  have hEq := getVersionNumberChecked_eq v
  by_cases hFits : versionSize v < 2 ^ 63
  · rw [if_pos hFits] at hEq
    exact ⟨hFits, getVersionNumber_of_checked hEq⟩
  · rw [if_neg hFits] at hEq
    exact absurd hEq hChecked

section Numeral
variable {text : List Char} {n : Nat}

theorem Numeral.notMem (hNumeral : Numeral text n) {c : Char} (hOther : c.isDigit = false) : c ∉ text := by
  intro hMem
  rw [hNumeral.digits c hMem] at hOther
  cases hOther

/-- A number that is too long for `i64` counts as zero. -/
theorem Numeral.part (hNumeral : Numeral text n) : partNumber text = if n < 2 ^ 63 then n else 0 := by
  have hValue := digitsValue_of_digits hNumeral.digits 0
  rw [hNumeral.value] at hValue
  have hParsed : parseI64 text = if n < 2 ^ 63 then some (n : Int) else none := by
    have hFilter : (some (n : Int)).filter (fun value => decide (-(2 ^ 63) ≤ value ∧ value < 2 ^ 63)) =
        if n < 2 ^ 63 then some (n : Int) else none := by
      by_cases hFits : n < 2 ^ 63
      · rw [if_pos hFits, Option.filter_some_pos]
        exact decide_eq_true (by omega)
      · rw [if_neg hFits, Option.filter_some_neg]
        exact decide_eq_false (by omega)
    have hPlus := hNumeral.notMem (show '+'.isDigit = false by decide)
    have hMinus := hNumeral.notMem (show '-'.isDigit = false by decide)
    unfold parseI64
    dsimp only
    split
    · exact absurd rfl hNumeral.ne_nil
    · exact absurd List.mem_cons_self hPlus
    · exact absurd List.mem_cons_self hMinus
    · exact absurd List.mem_cons_self hPlus
    · exact absurd List.mem_cons_self hMinus
    · rw [hValue]
      exact hFilter
  unfold partNumber versionPart
  rw [hParsed]
  split <;> rfl

end Numeral

/-- The number of a version string, with a first number that is too long left out. -/
theorem versionSize_of_names {v : String} {a b c p : Nat} (hNames : NamesVersion v a b c p) :
    versionSize v = (if a < 2 ^ 63 then a else 0) * 1000000 + b * 1000 + (10 * c + p) := by
  obtain ⟨⟨major, minor, micro, hMajor, hMinor, hMicro, hSpells⟩, hRoomB, hRoomC, hRoomP⟩ := hNames
  have hDot : '.'.isDigit = false := by decide
  have hDash : '-'.isDigit = false := by decide
  have hMain : '-' ∉ major ++ '.' :: (minor ++ '.' :: micro) := by
    simp [hMajor.notMem hDash, hMinor.notMem hDash, hMicro.notMem hDash]
  have hDots : splitChars '.' (major ++ '.' :: (minor ++ '.' :: micro)) = [major, minor, micro] := by
    rw [splitChars_append (hMajor.notMem hDot), splitChars_append (hMinor.notMem hDot),
      splitChars_of_notMem (hMicro.notMem hDot)]
  have hB : partNumber minor = b := by
    rw [hMinor.part, if_pos (by omega)]
  have hC : partNumber micro = c := by
    rw [hMicro.part, if_pos (by omega)]
  have hParts : ∀ rest, splitChars '-' v.toList = (major ++ '.' :: (minor ++ '.' :: micro)) :: rest →
      versionSize v = (if a < 2 ^ 63 then a else 0) * 1000000 + b * 1000 + 10 * c + versionPatch v := by
    intro rest hVersions
    unfold versionSize versionParts
    rw [hVersions, List.headD_cons, hDots, List.map_cons, List.map_cons, List.map_singleton, hMajor.part, hB, hC]
    generalize (if a < 2 ^ 63 then a else 0) = first
    show 1000 * Nat.ofDigits 1000 [b, first] + 10 * c + versionPatch v = _
    rw [Nat.ofDigits_cons, Nat.ofDigits_singleton]
    omega
  rcases hSpells with ⟨hText, rfl⟩ | ⟨patch, hPatch, hText⟩
  · have hVersions : splitChars '-' v.toList = [major ++ '.' :: (minor ++ '.' :: micro)] := by
      rw [hText, splitChars_of_notMem hMain]
    have hNone : versionPatch v = 0 := by
      unfold versionPatch
      rw [hVersions]
      rfl
    rw [hParts [] hVersions, hNone, Nat.add_zero, Nat.add_zero]
  · have hVersions : splitChars '-' v.toList = [major ++ '.' :: (minor ++ '.' :: micro), patch] := by
      rw [hText, splitChars_append hMain, splitChars_of_notMem (hPatch.notMem hDash)]
    have hP : versionPatch v = p := by
      unfold versionPatch
      rw [hVersions]
      show partNumber patch = p
      rw [hPatch.part, if_pos (by omega)]
    rw [hParts [patch] hVersions, hP, Nat.add_assoc]

/-- In base 1000 the order is that of the numbers. -/
theorem encoded_lt_iff {a b c p a' b' c' p' : Nat} (hB : b < 1000) (hC : 10 * c + p < 1000) (hP : p < 10)
    (hB' : b' < 1000) (hC' : 10 * c' + p' < 1000) (hP' : p' < 10) :
    a * 1000000 + b * 1000 + (10 * c + p) < a' * 1000000 + b' * 1000 + (10 * c' + p') ↔
      [a, b, c, p] < [a', b', c', p'] := by
  simp only [List.cons_lt_cons_iff, List.lt_irrefl, and_false, or_false]
  omega

/-- With first numbers that are too long left out, the order stays where the first numbers are
read. -/
theorem majors_lt_iff {a b c p a' b' c' p' : Nat} (hLess : [a, b, c, p] < [a', b', c', p']) :
    [if a < 2 ^ 63 then a else 0, b, c, p] < [if a' < 2 ^ 63 then a' else 0, b', c', p'] ↔
      a' < 2 ^ 63 ∨ (a = 0 ∨ 2 ^ 63 ≤ a) ∧ [b, c, p] < [b', c', p'] := by
  have hMajor : a ≤ a' := by
    rcases List.cons_lt_cons_iff.mp hLess with hFirst | ⟨hSame, -⟩
    · exact Nat.le_of_lt hFirst
    · exact Nat.le_of_eq hSame
  by_cases hRead : a' < 2 ^ 63
  · rw [if_pos hRead, if_pos (Nat.lt_of_le_of_lt hMajor hRead)]
    exact iff_of_true hLess (Or.inl hRead)
  · rw [if_neg hRead, List.cons_lt_cons_iff]
    by_cases hFirst : a < 2 ^ 63
    · rw [if_pos hFirst]
      constructor
      · rintro (hNone | ⟨hZero, hRest⟩)
        · exact absurd hNone (Nat.not_lt_zero a)
        · exact Or.inr ⟨Or.inl hZero, hRest⟩
      · rintro (hYes | ⟨hZero | hLong, hRest⟩)
        · exact absurd hYes hRead
        · exact Or.inr ⟨hZero, hRest⟩
        · exact absurd hFirst (Nat.not_lt.mpr hLong)
    · rw [if_neg hFirst]
      constructor
      · rintro (hNone | ⟨-, hRest⟩)
        · exact absurd hNone (Nat.not_lt_zero 0)
        · exact Or.inr ⟨Or.inr (Nat.le_of_not_lt hFirst), hRest⟩
      · rintro (hYes | ⟨-, hRest⟩)
        · exact absurd hYes hRead
        · exact Or.inr ⟨rfl, hRest⟩

/-- Versions are compared rightly exactly if both numbers fit and the first numbers are read. -/
theorem comparesVersions_iff (v w : String) :
    ComparesVersions v w ↔ versionSize v < 2 ^ 63 ∧ versionSize w < 2 ^ 63 ∧ MajorsRead v w := by
  have hSizes : ∀ a b c p a' b' c' p', NamesVersion v a b c p → NamesVersion w a' b' c' p' →
      (versionSize v < versionSize w ↔
        [if a < 2 ^ 63 then a else 0, b, c, p] < [if a' < 2 ^ 63 then a' else 0, b', c', p']) := by
    intro a b c p a' b' c' p' hFirst hSecond
    rw [versionSize_of_names hFirst, versionSize_of_names hSecond]
    exact encoded_lt_iff hFirst.minor hFirst.micro hFirst.patch hSecond.minor hSecond.micro hSecond.patch
  constructor
  · intro hCompares
    obtain ⟨hFits, hFirst⟩ := versionSize_of_checked hCompares.first
    obtain ⟨hFits', hSecond⟩ := versionSize_of_checked hCompares.second
    refine ⟨hFits, hFits', fun a b c p a' b' c' p' hNames hNames' hLess => ?_⟩
    have hOrder := hCompares.ordered a b c p a' b' c' p' hNames hNames' hLess
    rw [hFirst, hSecond, Nat.cast_lt] at hOrder
    exact (majors_lt_iff hLess).mp ((hSizes _ _ _ _ _ _ _ _ hNames hNames').mp hOrder)
  · rintro ⟨hFits, hFits', hRead⟩
    have hFirst : getVersionNumberChecked v = some (versionSize v : Int) := by
      rw [getVersionNumberChecked_eq, if_pos hFits]
    have hSecond : getVersionNumberChecked w = some (versionSize w : Int) := by
      rw [getVersionNumberChecked_eq, if_pos hFits']
    refine ⟨hFirst ▸ Option.some_ne_none _, hSecond ▸ Option.some_ne_none _, ?_⟩
    intro a b c p a' b' c' p' hNames hNames' hLess
    rw [getVersionNumber_of_checked hFirst, getVersionNumber_of_checked hSecond, Nat.cast_lt]
    exact (hSizes _ _ _ _ _ _ _ _ hNames hNames').mpr
      ((majors_lt_iff hLess).mpr (hRead _ _ _ _ _ _ _ _ hNames hNames' hLess))

/-- Versions of an ordinary size are in order. -/
theorem getVersionNumber_lt {v w : String} {a b c p a' b' c' p' : Nat} (hFirst : NamesVersion v a b c p)
    (hSecond : NamesVersion w a' b' c' p') (hMajor : a' < 9223372036854)
    (hLess : [a, b, c, p] < [a', b', c', p']) : getVersionNumber v < getVersionNumber w := by
  have hRead : a' < 2 ^ 63 := by omega
  have hOrder : versionSize v < versionSize w := by
    rw [versionSize_of_names hFirst, versionSize_of_names hSecond]
    exact (encoded_lt_iff hFirst.minor hFirst.micro hFirst.patch hSecond.minor hSecond.micro hSecond.patch).mpr
      ((majors_lt_iff hLess).mpr (Or.inl hRead))
  have hFits : versionSize w < 2 ^ 63 := by
    have hMinor := hSecond.minor
    have hMicro := hSecond.micro
    rw [versionSize_of_names hSecond, if_pos hRead]
    omega
  have hChecked : ∀ u, versionSize u < 2 ^ 63 → getVersionNumber u = versionSize u := by
    intro u hU
    apply getVersionNumber_of_checked
    rw [getVersionNumberChecked_eq, if_pos hU]
  rw [hChecked v (Nat.lt_trans hOrder hFits), hChecked w hFits, Nat.cast_lt]
  exact hOrder

/-- A first number that can be read, and still is too long for the sum. -/
theorem long_major_overflows : ¬ ComparesVersions "1.0.0" "9223372036854775807.0.0" := by
  intro hCompares
  exact hCompares.second (by decide)

end HibtDesk
