import HibtDesk.Library.Path

/-! Paths that go on from a base. They are spelled as the base followed by components none
of which leads up, so they stay below it on whatever disk without links. -/
namespace Lexical

open Platform (Segment segment)

/-- The path is the base followed by these components, none of which leads up. -/
structure Follows (platform : Platform) (base path : Text) (steps : List Segment) : Prop where
  volume : platform.volume path = platform.volume base
  rooted : platform.rooted path = platform.rooted base
  segments : platform.segments path = platform.segments base ++ steps
  neverUp : .up ∉ steps

/-- The path is the base or lies below it. -/
def Below (platform : Platform) (base path : Text) : Prop := ∃ steps, Follows platform base path steps

def StrictlyBelow (platform : Platform) (base path : Text) : Prop :=
  ∃ steps, steps ≠ [] ∧ Follows platform base path steps

section Pieces
variable {p q : Char → Bool}

/-- Text that is split at more characters keeps the pieces that have none of them. -/
theorem splitOnP_finer (hMore : ∀ c, p c = true → q c = true) (text : Text) :
    ∃ first pieces finerFirst finerPieces,
      text.splitOnP p = first :: pieces ∧ text.splitOnP q = finerFirst :: finerPieces ∧
        ((∀ c ∈ first, q c = false) → finerFirst = first) ∧
        ∀ piece ∈ pieces, (∀ c ∈ piece, q c = false) → piece ∈ finerPieces := by
  induction text with
  | nil => exact ⟨[], [], [], [], rfl, rfl, fun _ => rfl, fun _ hPiece => absurd hPiece (by simp)⟩
  | cons c text ih =>
      obtain ⟨first, pieces, finerFirst, finerPieces, hText, hFiner, hFirst, hPieces⟩ := ih
      rw [List.splitOnP_cons_eq_if_modifyHead, List.splitOnP_cons_eq_if_modifyHead, hText, hFiner]
      by_cases hSep : p c = true
      · rw [if_pos hSep, if_pos (hMore c hSep)]
        refine ⟨_, _, _, _, rfl, rfl, fun _ => rfl, fun piece hPiece hPlain => ?_⟩
        rcases List.mem_cons.mp hPiece with rfl | hRest
        · rw [hFirst hPlain]
          exact List.mem_cons_self
        · exact List.mem_cons_of_mem finerFirst (hPieces piece hRest hPlain)
      · rw [if_neg hSep]
        by_cases hOther : q c = true
        · rw [if_pos hOther]
          refine ⟨_, _, _, _, rfl, rfl, fun hPlain => ?_, fun piece hPiece hPlain => ?_⟩
          · rw [hPlain c List.mem_cons_self] at hOther
            cases hOther
          · exact List.mem_cons_of_mem finerFirst (hPieces piece hPiece hPlain)
        · rw [if_neg hOther]
          refine ⟨_, _, _, _, rfl, rfl, fun hPlain => ?_, hPieces⟩
          rw [hFirst fun d hMem => hPlain d (List.mem_cons_of_mem c hMem)]

theorem mem_splitOnP_finer (hMore : ∀ c, p c = true → q c = true) {text piece : Text}
    (hPlain : ∀ c ∈ piece, q c = false) (hPiece : piece ∈ text.splitOnP p) :
    piece ∈ text.splitOnP q := by
  obtain ⟨first, pieces, finerFirst, finerPieces, hText, hFiner, hFirst, hPieces⟩ :=
    splitOnP_finer hMore text
  rw [hText] at hPiece
  rw [hFiner]
  rcases List.mem_cons.mp hPiece with rfl | hRest
  · rw [hFirst hPlain]
    exact List.mem_cons_self
  · exact List.mem_cons_of_mem finerFirst (hPieces piece hRest hPlain)

end Pieces

namespace Platform

variable {platform : Platform}

/-- What separates on any platform separates on Windows. -/
theorem isSep_windows (c : Char) (hSep : platform.isSep c = true) : windows.isSep c = true := by
  cases platform with
  | windows => exact hSep
  | unix =>
      apply Bool.or_eq_true_iff.mpr
      exact Or.inl hSep

theorem head_plain {text : Text} (hPlain : text.head?.any windows.isSep = false) :
    text.head?.any platform.isSep = false := by
  cases text with
  | nil => rfl
  | cons c text =>
      apply Bool.eq_false_iff.mpr
      intro hSep
      exact Bool.false_ne_true (hPlain.symm.trans (isSep_windows c hSep))

theorem Plain.of_windows {suffix : Text} (hPlain : windows.Plain suffix) : platform.Plain suffix := by
  refine ⟨fun c hMem => Bool.eq_false_iff.mpr fun hSep => ?_, hPlain.long, hPlain.colon⟩
  exact Bool.false_ne_true ((hPlain.isSep c hMem).symm.trans (isSep_windows c hSep))

/-- Only one piece stands for a move upwards. -/
theorem up_mem_moves_iff (text : Text) :
    .up ∈ platform.moves text ↔ ['.', '.'] ∈ text.splitOnP platform.isSep := by
  unfold moves
  rw [List.mem_filterMap]
  constructor
  · rintro ⟨piece, hPiece, hUp⟩
    unfold segment at hUp
    split at hUp
    · cases hUp
    · split at hUp
      · rename_i hDots
        rw [← hDots]
        exact hPiece
      · cases hUp
  · intro hDots
    exact ⟨['.', '.'], hDots, rfl⟩

/-- A text that never leads up with both separators never does with fewer. -/
theorem neverUp_of_windows {text : Text} (hUp : .up ∉ windows.moves text) :
    .up ∉ platform.moves text := by
  rw [up_mem_moves_iff] at hUp ⊢
  intro hPiece
  exact hUp (mem_splitOnP_finer isSep_windows (by simp [isSep]) hPiece)

theorem neverUp_append_plain {suffix text : Text} (hPlain : platform.Plain suffix)
    (hUp : .up ∉ platform.moves text) : .up ∉ platform.moves (text ++ suffix) := by
  obtain ⟨front, last, hText, hSuffix⟩ := moves_append_suffix hPlain.isSep hPlain.long text
  rw [hText] at hUp
  rw [hSuffix]
  intro hMem
  rcases List.mem_append.mp hMem with hFront | hLast
  · exact hUp (List.mem_append_left _ hFront)
  · cases List.mem_singleton.mp hLast

theorem moves_append_plain_ne_nil {suffix : Text} (hPlain : platform.Plain suffix) (text : Text) :
    platform.moves (text ++ suffix) ≠ [] := by
  obtain ⟨front, last, -, hSuffix⟩ := moves_append_suffix hPlain.isSep hPlain.long text
  rw [hSuffix]
  exact List.append_ne_nil_of_right_ne_nil front (List.cons_ne_nil _ [])

end Platform

section Join
variable {platform : Platform} {base path : Text}

/-- A relative path that never leads up follows what it is joined to. -/
theorem follows_join (hStable : platform.stable base = true)
    (hRelative : platform.relative path = true) (hUp : .up ∉ platform.moves path) :
    Follows platform base (platform.join base path) (platform.moves path) := by
  rw [Platform.join_of_relative hRelative]
  refine ⟨?_, ?_, ?_, hUp⟩
  · exact Platform.volume_append (Platform.volumeLen_join hStable hRelative)
  · exact Platform.rooted_join hStable hRelative
  · rw [Platform.segments_join hStable hRelative, Platform.segments_of_relative hRelative]

/-- What is appended to a joined path is appended to the name. -/
theorem join_append {suffix : Text} (hRelative : platform.relative path = true)
    (hLonger : platform.relative (path ++ suffix) = true) :
    platform.join base path ++ suffix = platform.join base (path ++ suffix) := by
  rw [Platform.join_of_relative hRelative, Platform.join_of_relative hLonger, List.append_assoc]
  unfold Platform.glue
  split
  · rw [List.cons_append]
  · rfl

theorem strictlyBelow_iff {steps : List Segment} (hFollows : Follows platform base path steps) :
    StrictlyBelow platform base path ↔ steps ≠ [] := by
  constructor
  · rintro ⟨others, hSome, hOthers⟩
    have hSame := List.append_cancel_left (hFollows.segments.symm.trans hOthers.segments)
    rw [hSame]
    exact hSome
  · intro hSome
    exact ⟨steps, hSome, hFollows⟩

end Join

end Lexical
