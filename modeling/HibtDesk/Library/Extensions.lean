import HibtDesk.Library.UnixNames

/-! Paths with another extension, as `Path::with_extension` makes them. -/
namespace Lexical.Unix

/-- `Path::with_extension`. A path that ends in no name stays as it is. -/
def withExtension (path ext : Text) : Text :=
  match fileName path, fileStem path with
  | some name, some stem =>
      (after 0 path).rdrop (name.length - stem.length) ++ (if ext = [] then [] else '.' :: ext)
  | _, _ => path

variable {path name stem ext : Text}

section Names

theorem rdropWhile_dot (hExt : '.' ∉ ext) :
    (stem ++ '.' :: ext).rdropWhile (· != '.') = stem ++ ['.'] := by
  have hDrop : (ext.reverse ++ ('.' :: stem.reverse)).dropWhile (· != '.') = '.' :: stem.reverse := by
    rw [List.dropWhile_append_of_pos]
    · rfl
    · intro c hMem
      rw [bne_iff_ne]
      rintro rfl
      exact hExt (List.mem_reverse.mp hMem)
  simp only [List.rdropWhile, List.reverse_append, List.reverse_cons, List.append_assoc,
    List.cons_append, List.nil_append, hDrop, List.reverse_reverse]

theorem rtakeWhile_dot (hExt : '.' ∉ ext) :
    (stem ++ '.' :: ext).rtakeWhile (· != '.') = ext := by
  have hTake : (ext.reverse ++ ('.' :: stem.reverse)).takeWhile (· != '.') = ext.reverse := by
    rw [List.takeWhile_append_of_pos]
    · simp
    · intro c hMem
      rw [bne_iff_ne]
      rintro rfl
      exact hExt (List.mem_reverse.mp hMem)
  simp only [List.rtakeWhile, List.reverse_append, List.reverse_cons, List.append_assoc,
    List.cons_append, List.nil_append, hTake, List.reverse_reverse]

theorem splitAtDot_append (hStem : stem ≠ []) (hExt : '.' ∉ ext) :
    splitAtDot (stem ++ '.' :: ext) = (stem, some ext) := by
  simp only [splitAtDot, rdropWhile_dot hExt, rtakeWhile_dot hExt, List.dropLast_concat]
  rw [if_neg hStem]

/-- A name is its stem, or the stem and the extension with a dot between them. -/
theorem splitAtDot_cases (name : Text) :
    splitAtDot name = (name, none) ∨
      ∃ before after, name = before ++ '.' :: after ∧ splitAtDot name = (before, some after) := by
  by_cases hDot : '.' ∈ name
  · obtain ⟨after, before, hReverse, hAfter⟩ := List.eq_append_cons_of_mem (List.mem_reverse.mpr hDot)
    obtain rfl : name = before.reverse ++ '.' :: after.reverse := by
      rw [← List.reverse_reverse name, hReverse]
      simp
    have hExt : '.' ∉ after.reverse := by simpa using hAfter
    by_cases hFront : before.reverse = []
    · left
      simp only [splitAtDot, rdropWhile_dot hExt, List.dropLast_concat]
      rw [if_pos hFront]
    · right
      exact ⟨_, _, rfl, splitAtDot_append hFront hExt⟩
  · left
    have hNone : name.rdropWhile (· != '.') = [] := by
      rw [List.rdropWhile_eq_nil_iff]
      intro c hMem
      rw [bne_iff_ne]
      rintro rfl
      exact hDot hMem
    simp [splitAtDot, hNone]

end Names

section Trailing

theorem glue_concat (ps : List Text) (piece : Text) :
    glue (ps ++ [piece]) = if ps = [] then piece else glue ps ++ '/' :: piece := by
  induction ps with
  | nil => simp [glue]
  | cons first rest ih =>
      cases rest with
      | nil => simp [glue, List.intercalate_cons_cons]
      | cons second rest =>
          have hBoth : glue (first :: (second :: rest ++ [piece])) =
              first ++ '/' :: glue (second :: rest ++ [piece]) := rfl
          rw [List.cons_append, hBoth, ih, if_neg (List.cons_ne_nil _ _), if_neg (List.cons_ne_nil _ _)]
          simp [glue, List.intercalate_cons_cons]

/-- Behind its last component a path has nothing but separators and dots. -/
theorem after_zero_append (path : Text) :
    ∃ rest, path = after 0 path ++ rest ∧ ∀ c ∈ rest, c = '/' ∨ c = '.' := by
  have hTrim : ∀ ps : List Text, ∃ rest, glue ps = glue (ps.rdropWhile blank) ++ rest ∧
      ∀ c ∈ rest, c = '/' ∨ c = '.' := by
    intro ps
    induction ps using List.reverseRecOn with
    | nil => exact ⟨[], rfl, by simp⟩
    | append_singleton ps piece ih =>
        by_cases hBlank : blank piece = true
        · obtain ⟨rest, hRest, hAll⟩ := ih
          have hPiece : ∀ c ∈ piece, c = '.' := by
            have hEither : piece = [] ∨ piece = ['.'] := by simpa [blank] using hBlank
            rcases hEither with rfl | rfl <;> simp
          rw [List.rdropWhile_concat_pos _ _ _ hBlank, glue_concat]
          split
          · rename_i hNil
            subst hNil
            exact ⟨piece, rfl, fun c hMem => Or.inr (hPiece c hMem)⟩
          · refine ⟨rest ++ '/' :: piece, by rw [hRest, List.append_assoc], fun c hMem => ?_⟩
            rcases List.mem_append.mp hMem with hIn | hIn
            · exact hAll c hIn
            · rcases List.mem_cons.mp hIn with rfl | hIn
              · exact Or.inl rfl
              · exact Or.inr (hPiece c hIn)
        · exact ⟨[], by rw [List.rdropWhile_concat_neg _ _ _ hBlank, List.append_nil], by simp⟩
  obtain ⟨rest, hRest, hAll⟩ := hTrim (pieces path)
  refine ⟨rest, ?_, hAll⟩
  have hFront : path = front path ++ path.drop (front path).length := by
    conv_lhs => rw [← List.take_append_drop (front path).length path]
    congr 1
    unfold front
    split <;> rfl
  have hPieces : glue (pieces path) = path.drop (front path).length := List.intercalate_splitOn '/'
  rw [after, if_pos rfl, List.append_assoc, ← hRest, hPieces]
  exact hFront

/-- A path that ends in a name ends in its text, but for separators and dots. -/
theorem fileName_suffix (hName : fileName path = some name) : name <:+ after 0 path := by
  have hLast := fileName_eq_some_iff.mp hName
  rw [← filterMap_rdropWhile_blank] at hLast
  rw [after, if_pos rfl]
  rcases List.eq_nil_or_concat ((pieces path).rdropWhile blank) with hNil | ⟨ps, piece, hTrimmed⟩
  · rw [hNil] at hLast
    cases hLast
  · have hNot : ¬ blank piece = true := by
      have hEnd := List.rdropWhile_last_not blank (pieces path) (by simp [hTrimmed])
      simpa [hTrimmed] using hEnd
    have hComponent : component piece = some (.normal name) := by
      cases hPiece : component piece with
      | none => exact absurd ((component_eq_none_iff piece).mp hPiece) hNot
      | some found =>
          rw [hTrimmed, List.concat_eq_append, List.filterMap_append, List.filterMap_cons_some hPiece] at hLast
          simpa using hLast
    obtain rfl : piece = name := by
      unfold component at hComponent
      split_ifs at hComponent
      · cases hComponent
      · exact Component.normal.inj (Option.some.inj hComponent)
    rw [hTrimmed, List.concat_eq_append, glue_concat]
    split
    · exact List.suffix_append _ _
    · exact ⟨front path ++ glue ps ++ ['/'], by simp⟩

end Trailing

/-- An extension put after the one there is goes behind the whole path. -/
theorem withExtension_after (hName : fileName path = some name) (hExt : ext ≠ []) :
    withExtension path (((extension path).map (· ++ '.' :: ext)).getD ext) =
      after 0 path ++ '.' :: ext := by
  obtain ⟨dir, hDir⟩ := fileName_suffix hName
  simp only [withExtension, extension, fileStem, hName, Option.bind_some, Option.map_some, ← hDir]
  rcases splitAtDot_cases name with hSplit | ⟨stem, suffix, rfl, hSplit⟩
  · simp [hSplit, hExt]
  · have hLength : (stem ++ '.' :: suffix).length - stem.length = suffix.length + 1 := by simp
    have hWhole : dir ++ (stem ++ '.' :: suffix) = (dir ++ stem) ++ '.' :: suffix := by simp
    have hDrop : (dir ++ (stem ++ '.' :: suffix)).rdrop (suffix.length + 1) = dir ++ stem := by
      rw [hWhole, List.rdrop, List.length_append, List.length_cons, Nat.add_sub_cancel, List.take_left]
    simp [hSplit, hDrop]

section Directory
variable {dir : Text} (hDir : PlainName dir)
include hDir

theorem pieces_inside (rest : Text) :
    front (dir ++ '/' :: rest) = [] ∧ pieces (dir ++ '/' :: rest) = dir :: rest.splitOn '/' := by
  have hSplit : (dir ++ '/' :: rest).splitOn '/' = dir :: rest.splitOn '/' := by
    rw [List.splitOn_append_cons_self, List.splitOn_eq_singleton hDir.noSep]
    rfl
  have hFront := front_of_head hSplit hDir.notBlank
  exact ⟨hFront, by rw [pieces, hFront, List.length_nil, List.drop_zero, hSplit]⟩

theorem fileName_inside (hPlain : PlainName name) : fileName (dir ++ '/' :: name) = some name := by
  rw [fileName_eq_some_iff, (pieces_inside hDir name).2, List.splitOn_eq_singleton hPlain.noSep,
    List.filterMap_cons_some (component_of_plain hDir),
    List.filterMap_cons_some (component_of_plain hPlain)]
  rfl

theorem after_zero_inside (hPlain : PlainName name) :
    after 0 (dir ++ '/' :: name) = dir ++ '/' :: name := by
  obtain ⟨hFront, hPieces⟩ := pieces_inside hDir name
  have hTrimmed : [dir, name].rdropWhile blank = [dir, name] := by
    rw [List.rdropWhile_eq_self_iff]
    intro hSome
    simp [hPlain.notBlank]
  rw [after, if_pos rfl, hFront, hPieces, List.splitOn_eq_singleton hPlain.noSep, hTrimmed, List.nil_append]
  simp [glue]

/-- In its directory a file takes an extension behind its name, and has it then. -/
theorem withExtension_inside (hPlain : PlainName name) (hExt : ext ≠ []) :
    withExtension (dir ++ '/' :: name)
        (((extension (dir ++ '/' :: name)).map (· ++ '.' :: ext)).getD ext) =
      dir ++ '/' :: (name ++ '.' :: ext) := by
  rw [withExtension_after (fileName_inside hDir hPlain) hExt, after_zero_inside hDir hPlain]
  simp

theorem stem_extension_inside (hSome : name ≠ []) (hPlain : PlainName (name ++ '.' :: ext))
    (hExt : '.' ∉ ext) :
    fileStem (dir ++ '/' :: (name ++ '.' :: ext)) = some name ∧
      extension (dir ++ '/' :: (name ++ '.' :: ext)) = some ext := by
  have hSplit := splitAtDot_append hSome hExt
  simp [fileStem, extension, fileName_inside hDir hPlain, hSplit]

end Directory

end Lexical.Unix
