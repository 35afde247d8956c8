import HibtDesk.Library.Path
import Mathlib.Data.List.DropRight

/-! The paths of Unix, taken apart the way `std::path` does it. A path is what it
starts with, which is its root or a dot that stands for the directory at hand, and then
pieces between separators. Empty pieces and dots among these are no components. -/
namespace Lexical.Unix

inductive Component where
  | rootDir | curDir | parentDir
  | normal (name : Text)
  deriving DecidableEq, Repr

/-- The root a path starts with, or the dot. -/
def front : Text → Text
  | '/' :: _ => ['/']
  | ['.'] => ['.']
  | '.' :: '/' :: _ => ['.']
  | _ => []

def pieces (path : Text) : List Text := (path.drop (front path).length).splitOn '/'

/-- The path with these pieces. -/
def glue (ps : List Text) : Text := List.intercalate ['/'] ps

def blank (piece : Text) : Bool := piece == [] || piece == ['.']

def component (piece : Text) : Option Component :=
  if blank piece then none
  else if piece = ['.', '.'] then some .parentDir
  else some (.normal piece)

/-- `Path::components`. -/
def components (path : Text) : List Component :=
  (front path).map (fun c => if c = '/' then Component.rootDir else .curDir) ++
    (pieces path).filterMap component

/-- `Path::file_name`. -/
def fileName (path : Text) : Option Text :=
  match ((pieces path).filterMap component).getLast? with
  | some (.normal name) => some name
  | _ => none

/-- `Path::parent`. -/
def parent (path : Text) : Option Text :=
  match (pieces path).rdropWhile blank with
  | [] => if front path = ['.'] then some [] else none
  | ps => some (front path ++ glue (ps.dropLast.rdropWhile blank))

/-- The pieces after the first `n` components. -/
def skip : Nat → List Text → List Text
  | 0, ps => ps.dropWhile blank
  | n + 1, ps => skip n ((ps.dropWhile blank).drop 1)

/-- What is left of a path after its first `n` components. -/
def after (n : Nat) (path : Text) : Text :=
  if n = 0 then front path ++ glue ((pieces path).rdropWhile blank)
  else glue ((skip (n - (front path).length) (pieces path)).rdropWhile blank)

/-- `Path::strip_prefix`. -/
def stripPrefix (base path : Text) : Option Text :=
  if components base <+: components path then some (after (components base).length path) else none

/-- A name that is one normal component. -/
structure PlainName (name : Text) : Prop where
  noSep : '/' ∉ name
  notBlank : blank name = false
  notUp : name ≠ ['.', '.']

section Pieces

theorem splitOn_sep (rest : Text) : ('/' :: rest).splitOn '/' = [] :: rest.splitOn '/' := by
  simp [List.splitOn, List.splitOnP_cons_eq_if_modifyHead]

theorem noSep_of_mem_pieces {path piece : Text} (hMem : piece ∈ pieces path) : '/' ∉ piece := by
  have hAll : ∀ (text : Text), ∀ piece ∈ text.splitOn '/', '/' ∉ piece := by
    intro text
    induction text with
    | nil => simp
    | cons c text ih =>
        intro piece hPiece
        by_cases hSep : c = '/'
        · subst hSep
          rw [splitOn_sep] at hPiece
          rcases List.mem_cons.mp hPiece with rfl | hLater
          · simp
          · exact ih piece hLater
        · have hSplit : (c :: text).splitOn '/' = (text.splitOn '/').modifyHead (c :: ·) := by
            simp [List.splitOn, List.splitOnP_cons_eq_if_modifyHead, hSep]
          rw [hSplit] at hPiece
          cases hText : text.splitOn '/' with
          | nil => simp [hText] at hPiece
          | cons first rest =>
              rw [hText] at hPiece ih
              rcases List.mem_cons.mp hPiece with rfl | hLater
              · have hFirst := ih first List.mem_cons_self
                simpa [Ne.symm hSep] using hFirst
              · exact ih piece (List.mem_cons_of_mem _ hLater)
  exact hAll _ piece hMem

theorem splitOn_glue {ps : List Text} (hSome : ps ≠ []) (hPlain : ∀ piece ∈ ps, '/' ∉ piece) :
    (glue ps).splitOn '/' = ps :=
  List.splitOn_intercalate '/' hPlain hSome

theorem component_eq_none_iff (piece : Text) : component piece = none ↔ blank piece = true := by
  unfold component
  split
  · simpa
  · split <;> simp_all

/-- A text that starts with a component starts with no root and no dot. -/
theorem front_of_head {text first : Text} {rest : List Text}
    (hSplit : text.splitOn '/' = first :: rest) (hFirst : blank first = false) : front text = [] := by
  unfold front
  split
  · simp [List.splitOn, List.splitOnP_cons_eq_if_modifyHead] at hSplit
    simp [hSplit.1, blank] at hFirst
  · simp [List.splitOn, List.splitOnP_cons_eq_if_modifyHead] at hSplit
    simp [← hSplit.1, blank] at hFirst
  · simp [List.splitOn, List.splitOnP_cons_eq_if_modifyHead] at hSplit
    simp [← hSplit.1, blank] at hFirst
  · rfl

theorem filterMap_dropWhile_blank (ps : List Text) :
    (ps.dropWhile blank).filterMap component = ps.filterMap component := by
  induction ps with
  | nil => rfl
  | cons piece rest ih =>
      by_cases hBlank : blank piece = true
      · rw [List.dropWhile_cons_of_pos hBlank, ih,
          List.filterMap_cons_none ((component_eq_none_iff piece).mpr hBlank)]
      · rw [List.dropWhile_cons_of_neg hBlank]

theorem filterMap_rdropWhile_blank (ps : List Text) :
    (ps.rdropWhile blank).filterMap component = ps.filterMap component := by
  induction ps using List.reverseRecOn with
  | nil => rfl
  | append_singleton rest piece ih =>
      by_cases hBlank : blank piece = true
      · rw [List.rdropWhile_concat_pos _ _ _ hBlank, ih, List.filterMap_append,
          List.filterMap_cons_none ((component_eq_none_iff piece).mpr hBlank), List.filterMap_nil,
          List.append_nil]
      · rw [List.rdropWhile_concat_neg _ _ _ hBlank]

theorem filterMap_skip (n : Nat) (ps : List Text) :
    (skip n ps).filterMap component = (ps.filterMap component).drop n := by
  induction n generalizing ps with
  | zero => simp [skip, filterMap_dropWhile_blank]
  | succ n ih =>
      rw [skip, ih]
      rw [← filterMap_dropWhile_blank ps]
      cases hDrop : ps.dropWhile blank with
      | nil => simp
      | cons piece rest =>
          have hNot : blank piece = false := by
            have hHead := List.head_dropWhile_not (p := blank) (l := ps) (by simp [hDrop])
            simpa [hDrop] using hHead
          obtain ⟨found, hFound⟩ : ∃ found, component piece = some found := by
            cases hComponent : component piece with
            | none => simp [(component_eq_none_iff piece).mp hComponent] at hNot
            | some found => exact ⟨found, rfl⟩
          rw [List.filterMap_cons_some hFound]
          rfl

/-- The text of some pieces, the first of which is a component, has these components. -/
theorem components_glue {ps : List Text} (hHead : ∀ first ∈ ps.head?, blank first = false)
    (hPlain : ∀ piece ∈ ps, '/' ∉ piece) : components (glue ps) = ps.filterMap component := by
  cases ps with
  | nil => rfl
  | cons first rest =>
      have hSplit := splitOn_glue (List.cons_ne_nil first rest) hPlain
      have hFront : front (glue (first :: rest)) = [] := front_of_head hSplit (hHead first rfl)
      simp only [components, pieces, hFront, List.length_nil, List.drop_zero, hSplit, List.map_nil,
        List.nil_append]

end Pieces

section Components
variable {path base name : Text}

theorem length_front_le (path : Text) : (front path).length ≤ 1 := by
  unfold front
  split <;> simp

theorem head_rdropWhile {ps : List Text} (hHead : ∀ first ∈ ps.head?, blank first = false) :
    ∀ first ∈ (ps.rdropWhile blank).head?, blank first = false := by
  intro first hFirst
  refine hHead first ?_
  obtain ⟨rest, hRest⟩ := List.rdropWhile_prefix blank ps
  cases hDrop : ps.rdropWhile blank with
  | nil => simp [hDrop] at hFirst
  | cons found more =>
      rw [hDrop] at hFirst hRest
      rw [← hRest]
      exact hFirst

theorem skip_suffix (n : Nat) (ps : List Text) : skip n ps <:+ ps := by
  induction n generalizing ps with
  | zero => exact List.dropWhile_suffix blank
  | succ n ih => exact (ih _).trans ((List.drop_suffix 1 _).trans (List.dropWhile_suffix blank))

theorem head_skip (n : Nat) (ps : List Text) : ∀ first ∈ (skip n ps).head?, blank first = false := by
  induction n generalizing ps with
  | zero =>
      intro first hFirst
      have hHead := List.head?_dropWhile_not blank ps
      rw [skip] at hFirst
      rw [hFirst] at hHead
      simpa using hHead
  | succ n ih => exact ih _

/-- The text after some components has the other ones. -/
theorem components_after {n : Nat} (hSome : n ≠ 0) (path : Text) :
    components (after n path) = (components path).drop n := by
  have hFront := length_front_le path
  rw [after, if_neg hSome, components_glue, filterMap_rdropWhile_blank, filterMap_skip, components,
    List.drop_append, List.length_map]
  · symm
    rw [List.append_left_eq_self]
    exact List.drop_eq_nil_of_le (by rw [List.length_map]; omega)
  · exact head_rdropWhile (head_skip _ _)
  · intro piece hPiece
    have hMem := (skip_suffix _ _).subset ((List.rdropWhile_prefix blank _).subset hPiece)
    exact noSep_of_mem_pieces hMem

/-- A path without a root or a dot in front is empty or starts with a component. -/
theorem head_of_front {path first : Text} {rest : List Text} (hFront : front path = [])
    (hSplit : path.splitOn '/' = first :: rest) : path = [] ∨ blank first = false := by
  have hPath : glue (first :: rest) = path := by
    rw [← hSplit]
    exact List.intercalate_splitOn '/'
  by_contra hNot
  obtain ⟨hSome, hBlank⟩ := not_or.mp hNot
  have hFirst : first = [] ∨ first = ['.'] := by
    simpa only [blank, Bool.not_eq_false, Bool.or_eq_true, beq_iff_eq] using hBlank
  rcases hFirst with rfl | rfl
  · cases rest with
    | nil => exact hSome (hPath ▸ rfl)
    | cons second rest =>
        have hRooted : path = '/' :: glue (second :: rest) := hPath ▸ rfl
        simp [hRooted, front] at hFront
  · cases rest with
    | nil =>
        have hDot : path = ['.'] := hPath ▸ rfl
        simp [hDot, front] at hFront
    | cons second rest =>
        have hDotted : path = '.' :: '/' :: glue (second :: rest) := hPath ▸ rfl
        simp [hDotted, front] at hFront

theorem front_prefix {ps : List Text} (hPrefix : ps <+: pieces path) :
    front (front path ++ glue ps) = front path := by
  have hFront := length_front_le path
  have hCases : front path = [] ∨ front path = ['/'] ∨ front path = ['.'] := by
    unfold front
    split <;> simp
  rcases hCases with hNone | hRoot | hDot
  · rw [hNone, List.nil_append]
    unfold pieces at hPrefix
    rw [hNone, List.length_nil, List.drop_zero] at hPrefix
    cases ps with
    | nil => rfl
    | cons first rest =>
        obtain ⟨more, hMore⟩ := hPrefix
        rcases head_of_front hNone hMore.symm with rfl | hFirst
        · obtain ⟨rfl, hRest⟩ := List.cons.inj hMore
          rw [(List.append_eq_nil_iff.mp hRest).1]
          rfl
        · have hPlain : ∀ piece ∈ first :: rest, '/' ∉ piece := by
            intro piece hPiece
            refine @noSep_of_mem_pieces path _ ?_
            unfold pieces
            rw [hNone, List.length_nil, List.drop_zero, ← hMore]
            exact List.mem_append_left more hPiece
          exact front_of_head (splitOn_glue (List.cons_ne_nil first rest) hPlain) hFirst
  · rw [hRoot]
    rfl
  · rw [hDot]
    have hBody : path.drop 1 = [] ∨ ∃ body, path.drop 1 = '/' :: body := by
      unfold front at hDot
      split at hDot
      · simp at hDot
      · exact Or.inl rfl
      · exact Or.inr ⟨_, rfl⟩
      · cases hDot
    cases ps with
    | nil => rfl
    | cons first rest =>
        unfold pieces at hPrefix
        rw [hDot, List.length_singleton] at hPrefix
        have hFirst : first = [] := by
          obtain ⟨more, hMore⟩ := hPrefix
          rcases hBody with hNil | ⟨body, hBody⟩
          · rw [hNil] at hMore
            exact (List.cons.inj hMore).1
          · rw [hBody, splitOn_sep] at hMore
            exact (List.cons.inj hMore).1
        subst hFirst
        cases rest <;> rfl

/-- Some of the first pieces of a path, with what the path starts with. -/
theorem components_prefixed {ps : List Text} (hPrefix : ps <+: pieces path) :
    components (front path ++ glue ps) =
      (front path).map (fun c => if c = '/' then Component.rootDir else .curDir) ++
        ps.filterMap component := by
  have hSame := front_prefix hPrefix
  have hPieces : (pieces (front path ++ glue ps)).filterMap component = ps.filterMap component := by
    unfold pieces
    rw [hSame, List.drop_left]
    cases ps with
    | nil => rfl
    | cons first rest =>
        rw [splitOn_glue (List.cons_ne_nil first rest) fun piece hPiece =>
          noSep_of_mem_pieces (hPrefix.subset hPiece)]
  rw [components, hPieces, hSame]

/-- Stripping nothing off a path leaves its components. -/
theorem components_after_zero (path : Text) : components (after 0 path) = components path := by
  rw [after, if_pos rfl, components_prefixed (List.rdropWhile_prefix blank _),
    filterMap_rdropWhile_blank, components]

/-- `strip_prefix` takes the components of the base off those of the path. -/
theorem components_stripPrefix {rest : Text} (hStrip : stripPrefix base path = some rest) :
    components path = components base ++ components rest := by
  unfold stripPrefix at hStrip
  split at hStrip
  · rename_i hPrefix
    obtain ⟨more, hMore⟩ := hPrefix
    obtain rfl := Option.some.inj hStrip
    by_cases hZero : (components base).length = 0
    · rw [hZero, components_after_zero, List.length_eq_zero_iff.mp hZero, List.nil_append]
    · rw [components_after hZero, ← hMore, List.drop_left]
  · cases hStrip

/-- The last of the pieces that are left is a component. -/
theorem filterMap_of_rdropWhile {first : Text} {rest : List Text}
    (hTrimmed : (pieces path).rdropWhile blank = first :: rest) :
    ∃ found, component ((first :: rest).getLast (List.cons_ne_nil first rest)) = some found ∧
      (first :: rest).filterMap component = (first :: rest).dropLast.filterMap component ++ [found] := by
  have hSome : first :: rest ≠ [] := List.cons_ne_nil first rest
  have hLast : ¬ blank ((first :: rest).getLast hSome) = true := by
    have hTrim := List.rdropWhile_last_not blank (pieces path) (by simp [hTrimmed])
    simpa only [hTrimmed] using hTrim
  obtain ⟨found, hFound⟩ : ∃ found, component ((first :: rest).getLast hSome) = some found := by
    rw [← Option.ne_none_iff_exists']
    exact mt (component_eq_none_iff _).mp hLast
  refine ⟨found, hFound, ?_⟩
  conv_lhs => rw [← List.dropLast_append_getLast hSome]
  rw [List.filterMap_append, List.filterMap_cons_some hFound, List.filterMap_nil]

/-- The parent has all components but the last. -/
theorem components_parent {dir : Text} (hParent : parent path = some dir) :
    components path ≠ [] ∧ components dir = (components path).dropLast := by
  have hPieces := filterMap_rdropWhile_blank (pieces path)
  have hPrefix := List.rdropWhile_prefix blank (pieces path)
  unfold parent at hParent
  cases hTrimmed : (pieces path).rdropWhile blank with
  | nil =>
      rw [hTrimmed] at hParent hPieces
      dsimp only at hParent
      split at hParent
      · rename_i hDot
        obtain rfl := Option.some.inj hParent
        rw [components, ← hPieces, hDot]
        exact ⟨by simp, rfl⟩
      · cases hParent
  | cons first rest =>
      rw [hTrimmed] at hParent hPieces hPrefix
      obtain rfl := Option.some.inj hParent
      obtain ⟨found, -, hWhole⟩ := filterMap_of_rdropWhile hTrimmed
      have hFront := (List.rdropWhile_prefix blank (first :: rest).dropLast).trans
        ((List.dropLast_prefix (first :: rest)).trans hPrefix)
      rw [components_prefixed hFront, filterMap_rdropWhile_blank]
      rw [components, ← hPieces, hWhole, ← List.append_assoc]
      exact ⟨by simp, by rw [List.dropLast_concat]⟩

/-- A path that ends in a name has it as its last component. -/
theorem fileName_eq_some_iff :
    fileName path = some name ↔ ((pieces path).filterMap component).getLast? = some (.normal name) := by
  unfold fileName
  constructor
  · intro hName
    split at hName
    · rename_i found hLast
      rw [hLast, Option.some.inj hName]
    · cases hName
  · intro hLast
    rw [hLast]

theorem fileName_of_getLast? (hLast : (components path).getLast? = some (.normal name)) :
    fileName path = some name := by
  rw [fileName_eq_some_iff]
  rw [components, List.getLast?_append] at hLast
  cases hPieces : ((pieces path).filterMap component).getLast? with
  | some found => simpa [hPieces] using hLast
  | none =>
      -- What the path starts with is no name.
      rw [hPieces, Option.none_or, List.getLast?_map] at hLast
      obtain ⟨c, -, hc⟩ := Option.map_eq_some_iff.mp hLast
      split at hc <;> cases hc

/-- A path that ends in a name has a parent. -/
theorem parent_of_fileName (hName : fileName path = some name) : ∃ dir, parent path = some dir := by
  have hLast := fileName_eq_some_iff.mp hName
  have hPieces := filterMap_rdropWhile_blank (pieces path)
  unfold parent
  cases hTrimmed : (pieces path).rdropWhile blank with
  | nil =>
      rw [← hPieces, hTrimmed] at hLast
      cases hLast
  | cons first rest => exact ⟨_, rfl⟩

theorem component_of_plain (hPlain : PlainName name) : component name = some (.normal name) := by
  rw [component, if_neg (by simp [hPlain.notBlank]), if_neg hPlain.notUp]

theorem components_of_plain (hPlain : PlainName name) : components name = [.normal name] := by
  have hGlue : glue [name] = name := by simp [glue]
  have hComponents := @components_glue [name] (by simpa using hPlain.notBlank)
    (by simpa using hPlain.noSep)
  rw [hGlue] at hComponents
  rw [hComponents, List.filterMap_cons_some (component_of_plain hPlain), List.filterMap_nil]

theorem stripPrefix_isSome_iff :
    (stripPrefix base path).isSome = true ↔ components base <+: components path := by
  unfold stripPrefix
  split <;> simp_all

theorem front_append_sep {dir : Text} (hSome : dir ≠ []) (text : Text) :
    front (dir ++ '/' :: text) = front dir := by
  match dir with
  | [] => exact absurd rfl hSome
  | [c] =>
      by_cases hRoot : c = '/'
      · subst hRoot
        rfl
      · by_cases hDot : c = '.'
        · subst hDot
          rfl
        · simp [front, hRoot, hDot]
  | c :: d :: rest =>
      by_cases hRoot : c = '/'
      · subst hRoot
        rfl
      · by_cases hDot : c = '.' ∧ d = '/'
        · obtain ⟨rfl, rfl⟩ := hDot
          rfl
        · unfold front
          split <;> split <;> simp_all

/-- What stands after a separator comes last among the components. -/
theorem components_append_sep {dir : Text} (hSome : dir ≠ []) (text : Text) :
    components (dir ++ '/' :: text) =
      components dir ++ (text.splitOn '/').filterMap component := by
  have hFront := front_append_sep hSome text
  have hLength : (front dir).length ≤ dir.length := by
    have hLe := length_front_le dir
    have hPos := List.length_pos_of_ne_nil hSome
    omega
  have hPieces : pieces (dir ++ '/' :: text) = pieces dir ++ text.splitOn '/' := by
    unfold pieces
    rw [hFront, List.drop_append_of_le_length hLength]
    exact List.splitOn_append_cons_self ..
  rw [components, hPieces, hFront, List.filterMap_append, ← List.append_assoc, ← components]

theorem opensShare_unix (text : Text) : Platform.unix.opensShare text = false := by
  unfold Platform.opensShare
  split <;> rfl

theorem opensDrive_unix (text : Text) : Platform.unix.opensDrive text = false := by
  unfold Platform.opensDrive
  split <;> rfl

@[simp] theorem volumeLen_unix (text : Text) : Platform.unix.volumeLen text = 0 := by
  simp [Platform.volumeLen, opensShare_unix, opensDrive_unix]

theorem rooted_unix (text : Text) : Platform.unix.rooted text = text.head?.any (· == '/') := by
  simp only [Platform.rooted, Platform.body, opensShare_unix, volumeLen_unix, List.drop_zero,
    Bool.false_and, Bool.false_or]
  rfl

theorem join_unix_of_relative {text : Text} (hRelative : Platform.unix.rooted text = false)
    (dir : Text) :
    Platform.unix.join dir text =
      if dir.getLast?.all (· == '/') then dir ++ text else dir ++ '/' :: text := by
  have hNeeds : Platform.unix.needsSep dir = !dir.getLast?.all (· == '/') := by
    simp only [Platform.needsSep, Platform.bareDrive, opensDrive_unix, Bool.false_and, Bool.not_false,
      Bool.and_true]
    rfl
  unfold Platform.join
  rw [if_neg (by simp), if_neg (by simp [hRelative]), hNeeds]
  by_cases hClosed : dir.getLast?.all (· == '/') = true
  · rw [if_pos hClosed, if_neg (by simp [hClosed])]
  · rw [if_neg hClosed, if_pos (by simpa using hClosed)]
    rfl

/-- A name joined to a directory is one component more. -/
theorem components_join {dir : Text} (hPlain : PlainName name) :
    components (Platform.unix.join dir name) = components dir ++ [.normal name] := by
  have hName : (name.splitOn '/').filterMap component = [.normal name] := by
    rw [List.splitOn_eq_singleton hPlain.noSep, List.filterMap_cons_some (component_of_plain hPlain),
      List.filterMap_nil]
  have hRelative : Platform.unix.rooted name = false := by
    rw [rooted_unix]
    cases name with
    | nil => rfl
    | cons c rest =>
        have hSep := hPlain.noSep
        simp only [List.mem_cons, not_or] at hSep
        simpa using Ne.symm hSep.1
  have hJoin := join_unix_of_relative hRelative dir
  rw [hJoin]
  split
  · rename_i hClosed
    rcases List.eq_nil_or_concat dir with rfl | ⟨before, last, rfl⟩
    · rw [List.nil_append, components_of_plain hPlain]
      rfl
    · obtain rfl : last = '/' := by simpa using hClosed
      rw [List.concat_eq_append, List.append_assoc, List.singleton_append]
      cases before with
      | nil =>
          have hRooted : components ('/' :: name) =
              Component.rootDir :: (name.splitOn '/').filterMap component := rfl
          rw [List.nil_append, hRooted, hName]
          rfl
      | cons c before =>
          rw [components_append_sep (List.cons_ne_nil c before),
            components_append_sep (List.cons_ne_nil c before), hName]
          simp [component, blank]
  · rename_i hOpen
    have hSome : dir ≠ [] := by
      rintro rfl
      simp at hOpen
    rw [components_append_sep hSome, hName]

end Components

end Lexical.Unix
