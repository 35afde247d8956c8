import HibtDesk.Library.UnixPath

/-! The last name of a Unix path: its stem, its extension, and the path with another
name in its place. A path that lies inside a directory does so under any other name,
and what it lies in is the directory or below it. -/
namespace Lexical.Unix

open Platform (Segment walk)

/-- The stem and the extension of a name: what stands before and after its last dot,
unless that dot is its first character. -/
def splitAtDot (name : Text) : Text × Option Text :=
  let after := name.rtakeWhile (· != '.')
  let before := (name.rdropWhile (· != '.')).dropLast
  if before = [] then (name, none) else (before, some after)

/-- `Path::file_stem`. -/
def fileStem (path : Text) : Option Text := (fileName path).map fun name => (splitAtDot name).1

/-- `Path::extension`. -/
def extension (path : Text) : Option Text := (fileName path).bind fun name => (splitAtDot name).2

/-- `Path::with_file_name`. -/
def withFileName (path name : Text) : Text :=
  match fileName path with
  | none => Platform.unix.join path name
  | some _ => Platform.unix.join ((parent path).getD path) name

def Component.move : Component → Option Segment
  | rootDir | curDir => none
  | parentDir => some .up
  | normal name => some (.down name)

end Lexical.Unix

namespace Lexical.Platform

/-- `path` is spelled as `dir` followed by moves that never climb out of it. -/
def within (platform : Platform) (dir path : Text) : Bool :=
  platform.volume path == platform.volume dir &&
    platform.rooted path == platform.rooted dir &&
    (platform.segments dir).isPrefixOf (platform.segments path) &&
    (walk 0 ((platform.segments path).drop (platform.segments dir).length)).isSome

theorem within_iff {platform : Platform} (dir path : Text) :
    platform.within dir path = true ↔
      platform.volume path = platform.volume dir ∧ platform.rooted path = platform.rooted dir ∧
        ∃ steps depth, platform.segments path = platform.segments dir ++ steps ∧
          walk 0 steps = some depth := by
  unfold within
  simp only [Bool.and_eq_true, beq_iff_eq, List.isPrefixOf_iff_prefix, and_assoc,
    Option.isSome_iff_exists]
  refine and_congr_right fun _ => and_congr_right fun _ => ?_
  constructor
  · rintro ⟨⟨steps, hSteps⟩, depth, hWalk⟩
    rw [← hSteps, List.drop_left] at hWalk
    exact ⟨steps, depth, hSteps.symm, hWalk⟩
  · rintro ⟨steps, depth, hSteps, hWalk⟩
    rw [hSteps, List.drop_left]
    exact ⟨⟨steps, rfl⟩, depth, hWalk⟩

end Lexical.Platform

namespace Lexical.Unix

open Platform (Segment walk)

section Moves

theorem component_move (piece : Text) : (component piece).bind Component.move = Platform.segment piece := by
  unfold component blank Platform.segment
  by_cases hBlank : piece = [] ∨ piece = ['.']
  · rw [if_pos (by simpa using hBlank), if_pos hBlank]
    rfl
  · rw [if_neg (by simpa using hBlank), if_neg hBlank]
    split <;> rfl

theorem filterMap_move (ps : List Text) :
    (ps.filterMap component).filterMap Component.move = ps.filterMap Platform.segment := by
  rw [List.filterMap_filterMap]
  exact List.filterMap_congr fun piece _ => component_move piece

theorem filterMap_move_front (path : Text) :
    ((front path).map fun c => if c = '/' then Component.rootDir else .curDir).filterMap
      Component.move = [] := by
  simp only [List.filterMap_eq_nil_iff, List.mem_map]
  rintro _ ⟨c, -, rfl⟩
  split <;> rfl

/-- The moves along a path are its components, without what it starts with. -/
theorem segments_unix (path : Text) :
    Platform.unix.segments path = (components path).filterMap Component.move := by
  have hSplit : Platform.unix.segments path = (path.splitOn '/').filterMap Platform.segment := by
    simp only [Platform.segments, Platform.moves, Platform.body, volumeLen_unix, List.drop_zero]
    rfl
  rw [hSplit, components, List.filterMap_append, filterMap_move_front, List.nil_append,
    filterMap_move]
  -- What is before the pieces is a piece that is no move.
  unfold pieces front
  split
  · rw [splitOn_sep]
    rfl
  · rfl
  · rename_i rest
    have hDot : ('.' :: '/' :: rest).splitOn '/' = ['.'] :: rest.splitOn '/' := by
      simp [List.splitOn, List.splitOnP_cons_eq_if_modifyHead]
    rw [hDot, List.length_singleton, List.drop_succ_cons, List.drop_zero, splitOn_sep]
    rfl
  · rfl

theorem rooted_iff (path : Text) :
    Platform.unix.rooted path = true ↔ (components path).head? = some .rootDir := by
  have hPieces : ((pieces path).filterMap component).head? ≠ some .rootDir := by
    intro hHead
    obtain ⟨piece, -, hPiece⟩ := List.mem_filterMap.mp (List.mem_of_mem_head? hHead)
    unfold component at hPiece
    split at hPiece
    · cases hPiece
    · split at hPiece <;> cases hPiece
  rw [rooted_unix, components, List.head?_append]
  unfold front
  split
  · simp
  · simp
  · simp
  · rename_i hNone _ _
    cases path with
    | nil => simpa using hPieces
    | cons c rest =>
        have hPlain : c ≠ '/' := by
          rintro rfl
          exact hNone rest rfl
        simpa [hPlain] using hPieces

@[simp] theorem volume_unix (path : Text) : Platform.unix.volume path = [] := by
  simp [Platform.volume]

end Moves

section Names
variable {dir path name : Text}

theorem plainName_of_mem {c : Char} (hNoSep : '/' ∉ name) (hMem : c ∈ name) (hDot : c ≠ '.') :
    PlainName name where
  noSep := hNoSep
  notBlank := by
    unfold blank
    rw [Bool.or_eq_false_iff, beq_eq_false_iff_ne, beq_eq_false_iff_ne]
    constructor
    · exact List.ne_nil_of_mem hMem
    · rintro rfl
      exact hDot (List.mem_singleton.mp hMem)
  notUp := by
    rintro rfl
    simp [hDot] at hMem

/-- The last name of a path is one. -/
theorem plainName_of_fileName (hName : fileName path = some name) : PlainName name := by
  have hLast := List.mem_of_getLast? (fileName_eq_some_iff.mp hName)
  obtain ⟨piece, hPiece, hComponent⟩ := List.mem_filterMap.mp hLast
  unfold component at hComponent
  split at hComponent
  · cases hComponent
  · rename_i hBlank
    split at hComponent
    · cases hComponent
    · rename_i hUp
      cases hComponent
      exact ⟨noSep_of_mem_pieces hPiece, by simpa using hBlank, hUp⟩

theorem splitAtDot_subset (name : Text) :
    (splitAtDot name).1 ⊆ name ∧ ∀ ext ∈ (splitAtDot name).2, ext ⊆ name := by
  unfold splitAtDot
  dsimp only
  split
  · exact ⟨List.Subset.refl name, by simp⟩
  · constructor
    · exact fun c hc => (List.rdropWhile_prefix _ name).subset (List.dropLast_subset _ hc)
    · rintro ext ⟨⟩
      exact (List.rtakeWhile_suffix _ name).subset

/-- A path inside a directory ends in a step that leads back to it or below it. -/
theorem exists_of_inside (hInside : Platform.unix.inside dir path = true) :
    Platform.unix.rooted path = Platform.unix.rooted dir ∧ ∃ steps depth,
      Platform.unix.segments path = Platform.unix.segments dir ++ steps ∧ steps ≠ [] ∧
        walk 0 steps = some (depth + 1) := by
  obtain ⟨-, hRooted, steps, hSteps, hDescends⟩ := (Platform.inside_iff dir path).mp hInside
  obtain ⟨depth, hWalk⟩ := (Platform.descends_iff steps).mp hDescends
  refine ⟨hRooted, steps, depth, hSteps, ?_, hWalk⟩
  rintro rfl
  cases hWalk

theorem within_of_inside (hInside : Platform.unix.inside dir path = true) :
    Platform.unix.within dir path = true := by
  obtain ⟨hRooted, steps, depth, hSteps, -, hWalk⟩ := exists_of_inside hInside
  exact (Platform.within_iff dir path).mpr ⟨by simp, hRooted, steps, depth + 1, hSteps, hWalk⟩

/-- A directory with one more name is inside whatever holds the directory. -/
theorem inside_join_of_within (hWithin : Platform.unix.within dir path = true)
    (hPlain : PlainName name) :
    Platform.unix.inside dir (Platform.unix.join path name) = true := by
  obtain ⟨-, hRooted, steps, depth, hSteps, hWalk⟩ := (Platform.within_iff dir path).mp hWithin
  have hComponents : components (Platform.unix.join path name) = components path ++ [.normal name] :=
    components_join hPlain
  have hHead : Platform.unix.rooted (Platform.unix.join path name) = Platform.unix.rooted path := by
    rw [Bool.eq_iff_iff, rooted_iff, rooted_iff, hComponents, List.head?_append]
    cases (components path).head? <;> simp
  rw [Platform.inside_iff, segments_unix, hComponents, List.filterMap_append, ← segments_unix, hSteps,
    List.append_assoc]
  exact ⟨by simp, hHead.trans hRooted, steps ++ [.down name], rfl,
    Platform.descends_append_down hWalk name⟩

/-- The last component of a path with a move is a move. -/
theorem components_concat (hMoves : Platform.unix.segments path ≠ []) :
    ∃ before last move, components path = before ++ [last] ∧ Component.move last = some move := by
  rw [segments_unix, components, List.filterMap_append, filterMap_move_front,
    List.nil_append] at hMoves
  rcases List.eq_nil_or_concat ((pieces path).filterMap component) with hNil | ⟨before, last, hLast⟩
  · rw [hNil] at hMoves
    exact absurd rfl hMoves
  · obtain ⟨piece, -, hPiece⟩ := List.mem_filterMap.mp
      (show last ∈ (pieces path).filterMap component by rw [hLast]; simp)
    have hMove : ∃ move, Component.move last = some move := by
      unfold component at hPiece
      split at hPiece
      · cases hPiece
      · split at hPiece
        · exact ⟨.up, by rw [← Option.some.inj hPiece]; rfl⟩
        · exact ⟨.down piece, by rw [← Option.some.inj hPiece]; rfl⟩
    obtain ⟨move, hMove⟩ := hMove
    refine ⟨(front path).map (fun c => if c = '/' then Component.rootDir else .curDir) ++ before,
      last, move, ?_, hMove⟩
    rw [components, hLast, List.concat_eq_append, List.append_assoc]

/-- What a path inside a directory lies in is that directory or below it. -/
theorem within_parent {above : Text} (hInside : Platform.unix.inside dir path = true)
    (hParent : parent path = some above) : Platform.unix.within dir above = true := by
  obtain ⟨hRooted, steps, depth, hSteps, hSome, hWalk⟩ := exists_of_inside hInside
  have hMoves : Platform.unix.segments path ≠ [] := by
    rw [hSteps]
    exact List.append_ne_nil_of_right_ne_nil _ hSome
  obtain ⟨before, last, move, hComponents, hMove⟩ := components_concat hMoves
  obtain ⟨-, hAbove⟩ := components_parent hParent
  rw [hComponents, List.dropLast_concat] at hAbove
  have hSegments : Platform.unix.segments path = Platform.unix.segments above ++ [move] := by
    rw [segments_unix, segments_unix, hComponents, hAbove, List.filterMap_append,
      List.filterMap_cons_some hMove, List.filterMap_nil]
  have hHead : Platform.unix.rooted above = Platform.unix.rooted path := by
    rw [Bool.eq_iff_iff, rooted_iff, rooted_iff, hAbove, hComponents, List.head?_append]
    cases hBefore : before.head? with
    | some first => simp
    | none =>
        have hLast : last ≠ .rootDir := by
          rintro rfl
          cases hMove
        simpa using hLast
  obtain ⟨first, final, rfl⟩ := (List.eq_nil_or_concat steps).resolve_left hSome
  rw [List.concat_eq_append, ← List.append_assoc, hSegments] at hSteps
  rw [List.concat_eq_append, Platform.walk_append] at hWalk
  obtain ⟨middle, hMiddle, -⟩ := Option.bind_eq_some_iff.mp hWalk
  exact (Platform.within_iff dir above).mpr
    ⟨by simp, hHead.trans hRooted, first, middle, List.append_inj_left' hSteps rfl, hMiddle⟩

/-- A path inside a directory stays inside it under another name. -/
theorem inside_withFileName (hInside : Platform.unix.inside dir path = true)
    (hPlain : PlainName name) : Platform.unix.inside dir (withFileName path name) = true := by
  unfold withFileName
  cases hName : fileName path with
  | none => exact inside_join_of_within (within_of_inside hInside) hPlain
  | some own =>
      obtain ⟨above, hAbove⟩ := parent_of_fileName hName
      rw [hAbove]
      exact inside_join_of_within (within_parent hInside hAbove) hPlain

/-- A path that ends in part of a name lies in a directory. -/
theorem parent_append_plain {suffix : Text} (hPlain : Platform.unix.Plain suffix) (path : Text) :
    ∃ above, parent (path ++ suffix) = some above := by
  obtain ⟨front, last, -, hSegments⟩ :=
    @Platform.segments_append_plain _ path suffix hPlain (by simp)
  obtain ⟨before, final, move, hComponents, hMove⟩ :=
    @components_concat (path ++ suffix) (by rw [hSegments]; simp)
  -- The last move is down, so the last component is a name.
  have hDown : move = .down (last ++ suffix) := by
    have hLast := congrArg List.getLast? hSegments
    rw [segments_unix, hComponents] at hLast
    simpa [hMove] using hLast
  have hFinal : final = .normal (last ++ suffix) := by
    subst hDown
    cases final <;> cases hMove
    rfl
  refine @parent_of_fileName _ (last ++ suffix) (fileName_of_getLast? ?_)
  rw [hComponents, List.getLast?_concat, hFinal]

end Names

end Lexical.Unix
