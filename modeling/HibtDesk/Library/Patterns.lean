import Mathlib.Computability.RegularExpressions

/-! Regular expressions as programs write them: classes of letters, and parts repeated a
bounded number of times or at least once. -/
namespace Patterns

open RegularExpression (char matches'_add matches'_mul matches'_star)

variable {α : Type*}

/-- `[...]`. -/
def oneOf : List α → RegularExpression α
  | [] => 0
  | a :: letters => char a + oneOf letters

/-- `r{0,n}`. -/
def atMost (r : RegularExpression α) : Nat → RegularExpression α
  | 0 => 1
  | n + 1 => 1 + r * atMost r n

/-- `r{1,n}`. -/
def repeated (r : RegularExpression α) : Nat → RegularExpression α
  | 0 => 0
  | n + 1 => r * atMost r n

/-- `r+`. -/
def many (r : RegularExpression α) : RegularExpression α := r * r.star

theorem mem_oneOf {letters word : List α} :
    word ∈ (oneOf letters).matches' ↔ ∃ a ∈ letters, word = [a] := by
  induction letters with
  | nil =>
      simp only [List.not_mem_nil, false_and, exists_false, iff_false]
      exact Set.notMem_empty word
  | cons a letters ih =>
      have hFirst : word ∈ (char a).matches' ↔ word = [a] := Iff.rfl
      rw [oneOf, matches'_add, Language.mem_add, hFirst, ih, List.exists_mem_cons_iff]

theorem mem_atMost_oneOf {letters word : List α} {n : Nat} :
    word ∈ (atMost (oneOf letters) n).matches' ↔ word.length ≤ n ∧ ∀ a ∈ word, a ∈ letters := by
  induction n generalizing word with
  | zero =>
      have hNil : word ∈ (atMost (oneOf letters) 0).matches' ↔ word = [] := Iff.rfl
      rw [hNil, Nat.le_zero, List.length_eq_zero_iff]
      constructor
      · rintro rfl
        exact ⟨rfl, fun a hMem => absurd hMem List.not_mem_nil⟩
      · exact And.left
  | succ n ih =>
      rw [atMost, matches'_add, matches'_mul, Language.mem_add, Language.mem_mul]
      constructor
      · rintro (hNil | ⟨first, hFirst, rest, hRest, rfl⟩)
        · obtain rfl : word = [] := hNil
          exact ⟨Nat.zero_le _, fun a hMem => absurd hMem List.not_mem_nil⟩
        · obtain ⟨a, hLetter, rfl⟩ := mem_oneOf.mp hFirst
          obtain ⟨hLength, hAll⟩ := ih.mp hRest
          exact ⟨Nat.succ_le_succ hLength, List.forall_mem_cons.mpr ⟨hLetter, hAll⟩⟩
      · rintro ⟨hLength, hAll⟩
        cases word with
        | nil => exact .inl rfl
        | cons a rest =>
            obtain ⟨hLetter, hRest⟩ := List.forall_mem_cons.mp hAll
            exact .inr ⟨[a], mem_oneOf.mpr ⟨a, hLetter, rfl⟩, rest,
              ih.mpr ⟨Nat.le_of_succ_le_succ hLength, hRest⟩, rfl⟩

theorem mem_repeated_oneOf {letters word : List α} {n : Nat} :
    word ∈ (repeated (oneOf letters) n).matches' ↔
      word ≠ [] ∧ word.length ≤ n ∧ ∀ a ∈ word, a ∈ letters := by
  cases n with
  | zero =>
      have hNone : ¬ word ∈ (repeated (oneOf letters) 0).matches' := Set.notMem_empty word
      simp only [hNone, false_iff, Nat.le_zero, List.length_eq_zero_iff]
      exact fun hWord => hWord.1 hWord.2.1
  | succ n =>
      rw [repeated, matches'_mul, Language.mem_mul]
      constructor
      · rintro ⟨first, hFirst, rest, hRest, rfl⟩
        obtain ⟨a, hLetter, rfl⟩ := mem_oneOf.mp hFirst
        obtain ⟨hLength, hAll⟩ := mem_atMost_oneOf.mp hRest
        exact ⟨List.cons_ne_nil _ _, Nat.succ_le_succ hLength,
          List.forall_mem_cons.mpr ⟨hLetter, hAll⟩⟩
      · rintro ⟨hSome, hLength, hAll⟩
        cases word with
        | nil => exact absurd rfl hSome
        | cons a rest =>
            obtain ⟨hLetter, hRest⟩ := List.forall_mem_cons.mp hAll
            exact ⟨[a], mem_oneOf.mpr ⟨a, hLetter, rfl⟩, rest,
              mem_atMost_oneOf.mpr ⟨Nat.le_of_succ_le_succ hLength, hRest⟩, rfl⟩

theorem mem_star_oneOf {letters word : List α} :
    word ∈ (oneOf letters).star.matches' ↔ ∀ a ∈ word, a ∈ letters := by
  rw [matches'_star, Language.mem_kstar]
  constructor
  · rintro ⟨parts, rfl, hParts⟩ a hMem
    obtain ⟨part, hPart, hIn⟩ := List.mem_flatten.mp hMem
    obtain ⟨b, hLetter, rfl⟩ := mem_oneOf.mp (hParts part hPart)
    rwa [List.mem_singleton.mp hIn]
  · intro hAll
    refine ⟨word.map fun a => [a], ?_, ?_⟩
    · rw [← List.flatMap_def, List.flatMap_singleton']
    · intro part hPart
      obtain ⟨a, hMem, rfl⟩ := List.mem_map.mp hPart
      exact mem_oneOf.mpr ⟨a, hAll a hMem, rfl⟩

theorem mem_many_oneOf {letters word : List α} :
    word ∈ (many (oneOf letters)).matches' ↔ word ≠ [] ∧ ∀ a ∈ word, a ∈ letters := by
  rw [many, matches'_mul, Language.mem_mul]
  constructor
  · rintro ⟨first, hFirst, rest, hRest, rfl⟩
    obtain ⟨a, hLetter, rfl⟩ := mem_oneOf.mp hFirst
    exact ⟨List.cons_ne_nil _ _, List.forall_mem_cons.mpr ⟨hLetter, mem_star_oneOf.mp hRest⟩⟩
  · rintro ⟨hSome, hAll⟩
    cases word with
    | nil => exact absurd rfl hSome
    | cons a rest =>
        obtain ⟨hLetter, hRest⟩ := List.forall_mem_cons.mp hAll
        exact ⟨[a], mem_oneOf.mpr ⟨a, hLetter, rfl⟩, rest, mem_star_oneOf.mpr hRest, rfl⟩

end Patterns
