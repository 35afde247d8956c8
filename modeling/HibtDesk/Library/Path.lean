import Mathlib.Data.List.Basic
import Mathlib.Data.List.TakeWhile

/-! Paths as texts, read the way a platform reads them: a volume (a drive or a
network share, on Windows only), a root, and the segments between separators.
Nothing here looks at a disk, so links and the case of letters play no role.
A path lies inside a directory when it spells the directory first and then
walks down from it without ever climbing back out. -/
namespace Lexical

/-- The characters of a path. -/
abbrev Text := List Char

inductive Platform where
  | unix
  | windows
  deriving Repr, DecidableEq

namespace Platform

def isSep : Platform → Char → Bool
  | unix, c => c == '/'
  | windows, c => c == '/' || c == '\\'

def mainSep : Platform → Char
  | unix => '/'
  | windows => '\\'

@[simp] theorem isSep_mainSep (platform : Platform) :
    platform.isSep platform.mainSep = true := by
  cases platform <;> decide

/-- Length of `server\share` at the head of a text, zero when either is missing. -/
def shareLen (platform : Platform) (text : Text) : Nat :=
  let server := text.takeWhile (fun c => !platform.isSep c)
  let after := (text.dropWhile (fun c => !platform.isSep c)).drop 1
  let share := after.takeWhile (fun c => !platform.isSep c)
  if server.isEmpty || share.isEmpty then 0 else server.length + 1 + share.length

/-- Two separators open a network share. -/
def opensShare (platform : Platform) : Text → Bool
  | a :: b :: _ => platform == windows && platform.isSep a && platform.isSep b
  | _ => false

/-- A letter and a colon name a drive. -/
def opensDrive (platform : Platform) : Text → Bool
  | a :: b :: _ => platform == windows && a.isAlpha && b == ':'
  | _ => false

/-- Length of the volume a path starts with, zero when it names none. -/
def volumeLen (platform : Platform) (text : Text) : Nat :=
  if platform.opensShare text then
    match platform.shareLen (text.drop 2) with
    | 0 => 0
    | n => n + 2
  else if platform.opensDrive text then 2
  else 0

def volume (platform : Platform) (text : Text) : Text :=
  text.take (platform.volumeLen text)

/-- What follows the volume. -/
def body (platform : Platform) (text : Text) : Text :=
  text.drop (platform.volumeLen text)

/-- A share has its root even when the path does not spell it. -/
def rooted (platform : Platform) (text : Text) : Bool :=
  (platform.opensShare text && platform.volumeLen text != 0) ||
    (platform.body text).head?.any platform.isSep

/-- The path names neither a volume nor a root. -/
def relative (platform : Platform) (text : Text) : Bool :=
  platform.volumeLen text == 0 && !platform.rooted text

/-- The path consists of a drive alone. -/
def bareDrive (platform : Platform) (text : Text) : Bool :=
  platform.opensDrive text && text.length == 2

/-- A separator is put between a directory and what is joined to it. -/
def needsSep (platform : Platform) (dir : Text) : Bool :=
  !dir.getLast?.all platform.isSep && !platform.bareDrive dir

/-- `Path::join`: a path with a volume replaces the directory, a path with a
root keeps at most the directory's volume, and a relative path is appended. -/
def join (platform : Platform) (dir path : Text) : Text :=
  if platform.volumeLen path != 0 then path
  else if platform.rooted path then platform.volume dir ++ path
  else if platform.needsSep dir then dir ++ platform.mainSep :: path
  else dir ++ path

/-- One move along a path. -/
inductive Segment where
  | up
  | down (name : Text)
  deriving Repr, DecidableEq

/-- The move a piece between separators stands for, if it stands for one. -/
def segment (piece : Text) : Option Segment :=
  if piece = [] ∨ piece = ['.'] then none
  else if piece = ['.', '.'] then some .up
  else some (.down piece)

def moves (platform : Platform) (text : Text) : List Segment :=
  (text.splitOnP platform.isSep).filterMap segment

def segments (platform : Platform) (text : Text) : List Segment :=
  platform.moves (platform.body text)

/-- One move taken back by the next, as far as there is one to take back. -/
def resolveStep (rooted : Bool) (stack : List Segment) : Segment → List Segment
  | .down name => .down name :: stack
  | .up =>
      match stack with
      | .down _ :: rest => rest
      | [] => if rooted then [] else [.up]
      | rest => .up :: rest

/-- Where a path leads, on a disk without links. -/
structure Location where
  volume : Text
  rooted : Bool
  steps : List Segment
  deriving Repr, DecidableEq

def location (platform : Platform) (text : Text) : Location where
  volume := platform.volume text
  rooted := platform.rooted text
  steps := ((platform.segments text).foldl (resolveStep (platform.rooted text)) []).reverse

/-- Depth below the start after the moves, unless one of them climbs above it. -/
def walk (depth : Nat) : List Segment → Option Nat
  | [] => some depth
  | .up :: rest =>
      match depth with
      | 0 => none
      | above + 1 => walk above rest
  | .down _ :: rest => walk (depth + 1) rest

/-- The moves stay below the start and end strictly below it. -/
def descends (steps : List Segment) : Bool := (walk 0 steps).any (0 < ·)

/-- `path` is spelled as `dir` followed by moves that descend from it. -/
def inside (platform : Platform) (dir path : Text) : Bool :=
  platform.volume path == platform.volume dir &&
    platform.rooted path == platform.rooted dir &&
    (platform.segments dir).isPrefixOf (platform.segments path) &&
    descends ((platform.segments path).drop (platform.segments dir).length)

/-- Appending to the path cannot complete a network share that is not there. -/
def stable (platform : Platform) (text : Text) : Bool :=
  !platform.opensShare text || platform.volumeLen text != 0

section Moves
variable {platform : Platform}

theorem moves_append_sep {sep : Char} (hSep : platform.isSep sep = true) (first second : Text) :
    platform.moves (first ++ sep :: second) = platform.moves first ++ platform.moves second := by
  simp only [moves, List.splitOnP_append_cons first second hSep, List.filterMap_append]

/-- A text that ends in a separator, or is empty, adds nothing between. -/
theorem moves_append_of_closed {first : Text} (hClosed : first.getLast?.all platform.isSep = true)
    (second : Text) :
    platform.moves (first ++ second) = platform.moves first ++ platform.moves second := by
  rcases List.eq_nil_or_concat first with rfl | ⟨front, last, rfl⟩
  · simp [moves, segment]
  · have hSep : platform.isSep last = true := by simpa using hClosed
    have hNil : platform.moves ([] : Text) = [] := rfl
    rw [List.concat_eq_append, List.append_assoc, List.singleton_append, moves_append_sep hSep,
      moves_append_sep hSep, hNil, List.append_nil]

/-- The last piece of a text takes a suffix without separators. -/
theorem splitOnP_append_suffix {suffix : Text} (hPlain : ∀ c ∈ suffix, platform.isSep c = false)
    (text : Text) :
    ∃ front last, text.splitOnP platform.isSep = front ++ [last] ∧
      (text ++ suffix).splitOnP platform.isSep = front ++ [last ++ suffix] := by
  induction text with
  | nil => exact ⟨[], [], by simp, by simpa using List.splitOnP_eq_singleton hPlain⟩
  | cons c text ih =>
      obtain ⟨front, last, hText, hSuffix⟩ := ih
      by_cases hSep : platform.isSep c
      · refine ⟨[] :: front, last, ?_, ?_⟩ <;>
          simp [List.splitOnP_cons_eq_if_modifyHead, hSep, hText, hSuffix]
      · cases front with
        | nil =>
            refine ⟨[], c :: last, ?_, ?_⟩ <;>
              simp [List.splitOnP_cons_eq_if_modifyHead, hSep, hText, hSuffix]
        | cons piece front =>
            refine ⟨(c :: piece) :: front, last, ?_, ?_⟩ <;>
              simp [List.splitOnP_cons_eq_if_modifyHead, hSep, hText, hSuffix]

/-- A long enough suffix makes any piece a name of its own. -/
theorem segment_append_suffix {suffix : Text} (hLong : 2 < suffix.length) (piece : Text) :
    segment (piece ++ suffix) = some (.down (piece ++ suffix)) := by
  have hLength : 2 < (piece ++ suffix).length := by
    rw [List.length_append]
    omega
  unfold segment
  rw [if_neg, if_neg]
  · intro hUp
    simp [hUp] at hLength
  · rintro (hNil | hHere)
    · simp [hNil] at hLength
    · simp [hHere] at hLength

/-- A long enough suffix makes a name of the last piece and leaves the others. -/
theorem moves_append_suffix {suffix : Text} (hPlain : ∀ c ∈ suffix, platform.isSep c = false)
    (hLong : 2 < suffix.length) (text : Text) :
    ∃ front last, platform.moves text = front ++ (segment last).toList ∧
      platform.moves (text ++ suffix) = front ++ [.down (last ++ suffix)] := by
  obtain ⟨front, last, hText, hSuffix⟩ := splitOnP_append_suffix hPlain text
  refine ⟨front.filterMap segment, last, ?_, ?_⟩
  · unfold moves
    rw [hText, List.filterMap_append]
    cases hLast : segment last <;> simp [hLast]
  · unfold moves
    rw [hSuffix, List.filterMap_append, List.filterMap_cons_some (segment_append_suffix hLong last),
      List.filterMap_nil]

theorem walk_append (depth : Nat) (first second : List Segment) :
    walk depth (first ++ second) = (walk depth first).bind (walk · second) := by
  induction first generalizing depth with
  | nil => rfl
  | cons step first ih =>
      cases step with
      | down name => exact ih (depth + 1)
      | up =>
          cases depth with
          | zero => rfl
          | succ above => exact ih above

theorem descends_iff (steps : List Segment) :
    descends steps = true ↔ ∃ depth, walk 0 steps = some (depth + 1) := by
  unfold descends
  cases hWalk : walk 0 steps with
  | none => simp
  | some depth => cases depth <;> simp

/-- Moves that stay below the start end strictly below it after one more name. -/
theorem descends_append_down {steps : List Segment} {depth : Nat}
    (hWalk : walk 0 steps = some depth) (name : Text) :
    descends (steps ++ [.down name]) = true := by
  rw [descends_iff, walk_append, hWalk]
  exact ⟨depth, rfl⟩

end Moves

section Volume
variable {platform : Platform}

/-- A run of characters ends inside `text`, or right where `more` starts. -/
theorem takeWhile_append_of_stop {plain : Char → Bool} {text more : Text}
    (hStop : text.dropWhile plain ≠ [] ∨ more.head?.all (!plain ·) = true) :
    (text ++ more).takeWhile plain = text.takeWhile plain := by
  induction text with
  | nil =>
      rcases hStop with hText | hMore
      · exact absurd rfl hText
      · cases more with
        | nil => rfl
        | cons c more => simpa [List.takeWhile_cons] using hMore
  | cons c text ih =>
      by_cases hPlain : plain c
      · simp only [List.cons_append, List.takeWhile_cons, hPlain, if_true]
        rw [ih (by simpa [List.dropWhile_cons, hPlain] using hStop)]
      · simp [hPlain]

/-- A complete share is not changed by what follows it, unless that continues
the share's own name. -/
theorem shareLen_append {text more : Text} (hShare : platform.shareLen text ≠ 0)
    (hStop : platform.shareLen text < text.length ∨ more.head?.all platform.isSep = true) :
    platform.shareLen (text ++ more) = platform.shareLen text := by
  unfold shareLen at *
  generalize hPlain : (fun c => !platform.isSep c) = plain at *
  have hLength := congrArg List.length (List.takeWhile_append_dropWhile (p := plain) (l := text))
  cases hDrop : text.dropWhile plain with
  | nil => simp [hDrop] at hShare
  | cons sep after =>
      have hServer : (text ++ more).takeWhile plain = text.takeWhile plain :=
        takeWhile_append_of_stop (Or.inl (by simp [hDrop]))
      have hAfter : (text ++ more).dropWhile plain = sep :: after ++ more := by
        rw [List.dropWhile_append, hDrop]
        rfl
      have hName : (after ++ more).takeWhile plain = after.takeWhile plain := by
        refine takeWhile_append_of_stop ?_
        rcases hStop with hShort | hMore
        · left
          intro hAll
          have hWhole := congrArg List.length
            (List.takeWhile_append_dropWhile (p := plain) (l := after))
          simp only [hDrop, List.drop_succ_cons, List.drop_zero] at hShort hShare
          rw [if_neg (fun hEmpty => hShare (if_pos hEmpty))] at hShort
          simp only [hAll, hDrop, List.length_append, List.length_cons, List.length_nil]
            at hWhole hLength
          omega
        · right
          subst hPlain
          simpa using hMore
      simp only [hServer, hAfter, List.cons_append, List.drop_succ_cons, List.drop_zero, hName]

/-- The share ends before a separator that closes the text. -/
theorem shareLen_lt_of_closed {text : Text} (hShare : platform.shareLen text ≠ 0)
    (hClosed : text.getLast?.all platform.isSep = true) :
    platform.shareLen text < text.length := by
  unfold shareLen at *
  have hPlainSep : ∀ c, (fun c => !platform.isSep c) c = true → platform.isSep c = false := by
    simp
  generalize (fun c => !platform.isSep c) = plain at *
  have hServer := List.takeWhile_append_dropWhile (p := plain) (l := text)
  cases hDrop : text.dropWhile plain with
  | nil => simp [hDrop] at hShare
  | cons sep after =>
      have hName := List.takeWhile_append_dropWhile (p := plain) (l := after)
      simp only [hDrop, List.drop_succ_cons, List.drop_zero] at hShare hServer ⊢
      have hFull := fun hEmpty => hShare (if_pos hEmpty)
      rw [if_neg hFull]
      cases hRest : after.dropWhile plain with
      | cons stop rest =>
          have hLength := congrArg List.length hServer
          have hLengthAfter := congrArg List.length hName
          simp only [hRest, List.length_append, List.length_cons] at hLength hLengthAfter
          omega
      | nil =>
          -- The share would run to the end of the text, whose last character is a separator.
          rw [hRest, List.append_nil] at hName
          have hSome : after ≠ [] := by
            intro hNil
            simp [hNil] at hFull
          have hLast : text.getLast? = some (after.getLast hSome) := by
            rw [← hServer, List.getLast?_append, List.getLast?_cons,
              List.getLast?_eq_some_getLast hSome]
            rfl
          have hMem : after.getLast hSome ∈ after.takeWhile plain := by
            rw [hName]
            exact List.getLast_mem hSome
          have hPlain := hPlainSep _ (List.all_eq_true.mp List.all_takeWhile _ hMem)
          simp [hLast, hPlain] at hClosed

theorem shareLen_le (text : Text) : platform.shareLen text ≤ text.length := by
  unfold shareLen
  generalize (fun c => !platform.isSep c) = plain
  have hLength := congrArg List.length (List.takeWhile_append_dropWhile (p := plain) (l := text))
  cases hDrop : text.dropWhile plain with
  | nil => simp
  | cons sep after =>
      have hAfter : (after.takeWhile plain).length ≤ after.length :=
        List.IsPrefix.length_le (List.takeWhile_prefix plain)
      simp only [hDrop, List.length_append, List.length_cons] at hLength
      simp only [List.drop_succ_cons, List.drop_zero]
      split <;> omega

theorem volumeLen_le (text : Text) : platform.volumeLen text ≤ text.length := by
  unfold volumeLen
  match text with
  | [] => simp [opensShare, opensDrive]
  | [_] => simp [opensShare, opensDrive]
  | a :: b :: rest =>
      have hShare : platform.shareLen rest ≤ rest.length := shareLen_le rest
      simp only [List.drop_succ_cons, List.drop_zero, List.length_cons]
      split
      · split <;> omega
      · split <;> omega

@[simp] theorem stable_iff (text : Text) :
    platform.stable text = true ↔
      (platform.opensShare text = true → platform.volumeLen text ≠ 0) := by
  unfold stable
  cases platform.opensShare text <;> simp

theorem opensShare_append {text : Text} (hTwo : 2 ≤ text.length) (more : Text) :
    platform.opensShare (text ++ more) = platform.opensShare text := by
  match text, hTwo with
  | _ :: _ :: _, _ => rfl

/-- From two characters on, the volume of a stable path is settled. -/
theorem volumeLen_append {text more : Text} (hTwo : 2 ≤ text.length)
    (hStable : platform.stable text = true)
    (hStop : platform.volumeLen text < text.length ∨ more.head?.all platform.isSep = true) :
    platform.volumeLen (text ++ more) = platform.volumeLen text := by
  match text, hTwo with
  | a :: b :: rest, _ =>
      rw [stable_iff] at hStable
      unfold volumeLen at *
      have hShare : platform.opensShare (a :: b :: rest ++ more) =
          platform.opensShare (a :: b :: rest) := rfl
      have hDrive : platform.opensDrive (a :: b :: rest ++ more) =
          platform.opensDrive (a :: b :: rest) := rfl
      rw [hShare, hDrive]
      by_cases hOpens : platform.opensShare (a :: b :: rest)
      · simp only [hOpens, if_true, List.cons_append, List.drop_succ_cons, List.drop_zero,
          List.length_cons, true_implies] at hStable hStop ⊢
        have hLen : platform.shareLen rest ≠ 0 := by
          intro hZero
          simp [hZero] at hStable
        rw [shareLen_append hLen]
        refine hStop.imp_left fun hShort => ?_
        split at hShort <;> omega
      · rw [if_neg hOpens, if_neg hOpens]

theorem body_append {text more : Text}
    (hVolume : platform.volumeLen (text ++ more) = platform.volumeLen text) :
    platform.body (text ++ more) = platform.body text ++ more := by
  unfold body
  rw [hVolume, List.drop_append_of_le_length (volumeLen_le text)]

theorem volume_append {text more : Text}
    (hVolume : platform.volumeLen (text ++ more) = platform.volumeLen text) :
    platform.volume (text ++ more) = platform.volume text := by
  unfold volume
  rw [hVolume, List.take_append_of_le_length (volumeLen_le text)]

/-- What follows a volume decides the root only when nothing stood there. -/
theorem rooted_append {text more : Text} (hTwo : 2 ≤ text.length)
    (hVolume : platform.volumeLen (text ++ more) = platform.volumeLen text)
    (hBody : platform.body text ≠ [] ∨ platform.rooted text = true ∨
      more.head?.any platform.isSep = false) :
    platform.rooted (text ++ more) = platform.rooted text := by
  unfold rooted at *
  rw [opensShare_append hTwo, hVolume, body_append hVolume]
  cases hText : platform.body text with
  | cons c rest => rfl
  | nil =>
      rcases hBody with hSome | hRoot | hPlain
      · exact absurd hText hSome
      · rw [hText] at hRoot
        simp only [List.head?_nil, Option.any_none, Bool.or_false] at hRoot
        simp [hRoot]
      · simp [hPlain]

end Volume

section Join
variable {platform : Platform}

theorem relative_iff (path : Text) :
    platform.relative path = true ↔
      platform.volumeLen path = 0 ∧ path.head?.any platform.isSep = false := by
  unfold relative rooted body
  constructor
  · intro h
    simp only [Bool.and_eq_true, beq_iff_eq, Bool.not_eq_true', Bool.or_eq_false_iff] at h
    obtain ⟨hVolume, -, hHead⟩ := h
    rw [hVolume] at hHead
    exact ⟨hVolume, hHead⟩
  · rintro ⟨hVolume, hHead⟩
    simp [hVolume, hHead]

theorem segments_of_relative {path : Text} (hRelative : platform.relative path = true) :
    platform.segments path = platform.moves path := by
  rw [relative_iff] at hRelative
  unfold segments body
  rw [hRelative.1, List.drop_zero]

/-- What a join appends to the directory, for a relative path. -/
def glue (platform : Platform) (dir path : Text) : Text :=
  if platform.needsSep dir then platform.mainSep :: path else path

theorem join_of_relative {path : Text} (hRelative : platform.relative path = true) (dir : Text) :
    platform.join dir path = dir ++ platform.glue dir path := by
  have hRoot : platform.rooted path = false := by
    unfold relative at hRelative
    simp only [Bool.and_eq_true, Bool.not_eq_true'] at hRelative
    exact hRelative.2
  have hVolume := ((relative_iff path).mp hRelative).1
  unfold join glue
  simp only [hVolume, bne_self_eq_false, hRoot, Bool.false_eq_true, if_false]
  split <;> rfl

theorem not_isAlpha_of_isSep {c : Char} (hSep : platform.isSep c = true) : c.isAlpha = false := by
  cases platform with
  | unix =>
      obtain rfl : c = '/' := by simpa [isSep] using hSep
      decide
  | windows =>
      obtain rfl | rfl : c = '/' ∨ c = '\\' := by simpa [isSep] using hSep
      · decide
      · decide

theorem volumeLen_of_opensDrive {text : Text} (hDrive : platform.opensDrive text = true) :
    platform.volumeLen text = 2 := by
  have hShare : platform.opensShare text = false := by
    match text with
    | [] => rfl
    | [_] => rfl
    | a :: b :: rest =>
        by_contra hOpens
        simp only [opensShare, opensDrive, Bool.not_eq_false, Bool.and_eq_true] at hOpens hDrive
        simp [not_isAlpha_of_isSep hOpens.1.2] at hDrive
  simp [volumeLen, hShare, hDrive]

/-- One character settles no volume, and no join completes one. -/
theorem volumeLen_join_of_single {path : Text} (hRelative : platform.relative path = true)
    (c : Char) : platform.volumeLen ([c] ++ platform.glue [c] path) = 0 := by
  obtain ⟨-, hHead⟩ := (relative_iff path).mp hRelative
  have hDrive : platform.bareDrive [c] = false := rfl
  unfold glue needsSep
  rw [hDrive]
  by_cases hSep : platform.isSep c
  · -- The separator is not doubled, since the path does not start with one.
    have hAlpha := not_isAlpha_of_isSep hSep
    cases path with
    | nil => simp [hSep, volumeLen, opensShare, opensDrive]
    | cons d path =>
        have hPlain : platform.isSep d = false := by simpa using hHead
        simp [hSep, volumeLen, opensShare, opensDrive, hPlain, hAlpha]
  · have hColon : (platform.mainSep == ':') = false := by cases platform <;> decide
    simp [hSep, volumeLen, opensShare, opensDrive, hColon]

/-- A directory that takes no separator ends in one or is a drive. -/
theorem volumeLen_lt_of_closed {dir : Text} (hStable : platform.stable dir = true)
    (hTwo : 2 ≤ dir.length) (hClosed : dir.getLast?.all platform.isSep = true) :
    platform.volumeLen dir < dir.length := by
  match dir, hTwo with
  | a :: b :: rest, _ =>
      rw [stable_iff] at hStable
      unfold volumeLen at *
      by_cases hOpens : platform.opensShare (a :: b :: rest)
      · simp only [hOpens, if_true, List.drop_succ_cons, List.drop_zero, true_implies]
          at hStable ⊢
        have hLen : platform.shareLen rest ≠ 0 := by
          intro hZero
          simp [hZero] at hStable
        have hSome : rest ≠ [] := by
          rintro rfl
          exact hLen rfl
        have hRest : rest.getLast?.all platform.isSep = true := by
          obtain ⟨c, rest, rfl⟩ := List.exists_cons_of_ne_nil hSome
          simpa [List.getLast?_cons] using hClosed
        have hShort := shareLen_lt_of_closed hLen hRest
        simp only [List.length_cons]
        omega
      · rw [if_neg hOpens]
        split
        · rename_i hDrive
          -- A colon is no separator, so more than the drive is spelled.
          cases rest with
          | cons => simp
          | nil =>
              exfalso
              have hColon : b = ':' := by
                simp only [opensDrive, Bool.and_eq_true, beq_iff_eq] at hDrive
                exact hDrive.2
              have hSep : platform.isSep b = true := by simpa using hClosed
              rw [hColon] at hSep
              cases platform <;> simp [isSep] at hSep
        · simp

theorem volumeLen_join {dir path : Text} (hStable : platform.stable dir = true)
    (hRelative : platform.relative path = true) :
    platform.volumeLen (dir ++ platform.glue dir path) = platform.volumeLen dir := by
  match dir with
  | [] =>
      obtain ⟨hVolume, -⟩ := (relative_iff path).mp hRelative
      exact hVolume
  | [c] => exact volumeLen_join_of_single hRelative c
  | a :: b :: rest =>
      by_cases hNeeds : platform.needsSep (a :: b :: rest)
      · refine volumeLen_append (by simp) hStable (Or.inr ?_)
        simp [glue, hNeeds]
      · unfold needsSep at hNeeds
        simp only [Bool.not_eq_true, Bool.and_eq_false_iff, Bool.not_eq_false'] at hNeeds
        rcases hNeeds with hClosed | hDrive
        · exact volumeLen_append (by simp) hStable
            (Or.inl (volumeLen_lt_of_closed hStable (by simp) hClosed))
        · -- Two characters that name a drive are settled whatever follows.
          unfold bareDrive at hDrive
          simp only [Bool.and_eq_true] at hDrive
          have hNames : platform.opensDrive
              (a :: b :: rest ++ platform.glue (a :: b :: rest) path) = true := hDrive.1
          rw [volumeLen_of_opensDrive hDrive.1, volumeLen_of_opensDrive hNames]

/-- A relative path keeps the directory's root. -/
theorem rooted_join {dir path : Text} (hStable : platform.stable dir = true)
    (hRelative : platform.relative path = true) :
    platform.rooted (dir ++ platform.glue dir path) = platform.rooted dir := by
  have hVolume := volumeLen_join hStable hRelative
  obtain ⟨hPathVolume, hHead⟩ := (relative_iff path).mp hRelative
  match dir with
  | [] =>
      have hPath : platform.rooted path = false := by
        simp [rooted, body, hPathVolume, hHead]
      exact hPath
  | [c] =>
      have hSingle : platform.volumeLen [c] = 0 := rfl
      rw [hSingle] at hVolume
      unfold rooted body
      rw [hVolume, hSingle]
      simp
  | a :: b :: rest =>
      refine rooted_append (by simp) hVolume ?_
      by_cases hBody : platform.body (a :: b :: rest) = []
      · right
        by_cases hOpens : platform.opensShare (a :: b :: rest)
        · left
          rw [stable_iff] at hStable
          simp [rooted, hOpens, hStable hOpens]
        · -- The directory is a drive and takes the path as it is.
          right
          have hLength : platform.volumeLen (a :: b :: rest) = rest.length + 2 := by
            have hAll := List.drop_eq_nil_iff.mp hBody
            exact Nat.le_antisymm (volumeLen_le _) hAll
          unfold volumeLen at hLength
          rw [if_neg hOpens] at hLength
          have hDrive : platform.bareDrive (a :: b :: rest) = true := by
            by_cases hNames : platform.opensDrive (a :: b :: rest)
            · rw [if_pos hNames] at hLength
              simp only [bareDrive, hNames, Bool.true_and, List.length_cons, beq_iff_eq]
              omega
            · rw [if_neg hNames] at hLength
              omega
          simpa [glue, needsSep, hDrive] using hHead
      · exact Or.inl hBody

theorem segments_join {dir path : Text} (hStable : platform.stable dir = true)
    (hRelative : platform.relative path = true) :
    platform.segments (dir ++ platform.glue dir path) =
      platform.segments dir ++ platform.segments path := by
  rw [segments_of_relative hRelative]
  unfold segments
  rw [body_append (volumeLen_join hStable hRelative)]
  unfold glue
  split
  · exact moves_append_sep (isSep_mainSep platform) _ _
  · rename_i hNeeds
    refine moves_append_of_closed ?_ path
    unfold needsSep at hNeeds
    simp only [Bool.not_eq_true, Bool.and_eq_false_iff, Bool.not_eq_false'] at hNeeds
    unfold body
    rw [List.getLast?_drop]
    split
    · rfl
    · rename_i hShort
      rcases hNeeds with hClosed | hDrive
      · exact hClosed
      · -- Nothing follows a drive that stands alone.
        unfold bareDrive at hDrive
        simp only [Bool.and_eq_true, beq_iff_eq] at hDrive
        rw [volumeLen_of_opensDrive hDrive.1] at hShort
        omega

theorem inside_iff (dir path : Text) :
    platform.inside dir path = true ↔
      platform.volume path = platform.volume dir ∧ platform.rooted path = platform.rooted dir ∧
        ∃ steps, platform.segments path = platform.segments dir ++ steps ∧
          descends steps = true := by
  unfold inside
  simp only [Bool.and_eq_true, beq_iff_eq, List.isPrefixOf_iff_prefix, and_assoc]
  refine and_congr_right fun _ => and_congr_right fun _ => ?_
  constructor
  · rintro ⟨⟨steps, hSteps⟩, hDescends⟩
    rw [← hSteps, List.drop_left] at hDescends
    exact ⟨steps, hSteps.symm, hDescends⟩
  · rintro ⟨steps, hSteps, hDescends⟩
    rw [hSteps, List.drop_left]
    exact ⟨⟨steps, rfl⟩, hDescends⟩

/-- A relative path whose moves descend lands inside the directory it is joined to. -/
theorem inside_join {dir path : Text} (hStable : platform.stable dir = true)
    (hRelative : platform.relative path = true)
    (hDescends : descends (platform.segments path) = true) :
    platform.inside dir (platform.join dir path) = true := by
  rw [join_of_relative hRelative, inside_iff]
  exact ⟨volume_append (volumeLen_join hStable hRelative), rooted_join hStable hRelative,
    _, segments_join hStable hRelative, hDescends⟩

theorem not_opensShare_of_plain {text : Text} (hHead : text.head?.any platform.isSep = false)
    (c : Char) : platform.opensShare (c :: text) = false := by
  cases text with
  | nil => rfl
  | cons d text =>
      have hPlain : platform.isSep d = false := by simpa using hHead
      simp [opensShare, hPlain]

theorem stable_join {dir path : Text} (hStable : platform.stable dir = true)
    (hRelative : platform.relative path = true) :
    platform.stable (platform.join dir path) = true := by
  obtain ⟨hVolume, hHead⟩ := (relative_iff path).mp hRelative
  rw [join_of_relative hRelative, stable_iff, volumeLen_join hStable hRelative]
  intro hOpens
  match dir with
  | [] =>
      exfalso
      cases path with
      | nil => exact Bool.false_ne_true hOpens
      | cons c path =>
          have hPlain : platform.isSep c = false := by simpa using hHead
          cases path <;> simp [glue, needsSep, opensShare, hPlain] at hOpens
  | [c] =>
      exfalso
      by_cases hSep : platform.isSep c
      · have hGlue : platform.glue [c] path = path := by simp [glue, needsSep, hSep]
        rw [hGlue, List.singleton_append, not_opensShare_of_plain hHead] at hOpens
        exact Bool.false_ne_true hOpens
      · cases hGlue : platform.glue [c] path <;> simp [hGlue, opensShare, hSep] at hOpens
  | a :: b :: rest =>
      rw [opensShare_append (by simp)] at hOpens
      exact (stable_iff _).mp hStable hOpens

/-- The volume and the root of a path that spells more than its volume do not
depend on what its last name goes on with. -/
theorem volumeLen_append_suffix {path suffix : Text} (hStable : platform.stable path = true)
    (hPlain : suffix.head?.any platform.isSep = false) (hColon : suffix.head? ≠ some ':')
    (hBody : platform.body path ≠ []) :
    platform.volumeLen (path ++ suffix) = platform.volumeLen path ∧
      platform.rooted (path ++ suffix) = platform.rooted path := by
  match path with
  | [] => exact absurd rfl hBody
  | [c] =>
      have hDrive : platform.opensDrive (c :: suffix) = false := by
        cases suffix with
        | nil => rfl
        | cons d suffix =>
            have hOther : (d == ':') = false := by simpa using hColon
            simp [opensDrive, hOther]
      have hVolume : platform.volumeLen (c :: suffix) = 0 := by
        simp [volumeLen, not_opensShare_of_plain hPlain, hDrive]
      have hSingle : platform.volumeLen [c] = 0 := rfl
      refine ⟨hVolume, ?_⟩
      unfold rooted body
      rw [List.singleton_append, hVolume, hSingle]
      simp
  | a :: b :: rest =>
      have hShort : platform.volumeLen (a :: b :: rest) < (a :: b :: rest).length := by
        by_contra hAll
        exact hBody (List.drop_eq_nil_iff.mpr (Nat.le_of_not_lt hAll))
      have hVolume : platform.volumeLen (a :: b :: rest ++ suffix) =
          platform.volumeLen (a :: b :: rest) :=
        volumeLen_append (by simp) hStable (Or.inl hShort)
      exact ⟨hVolume, rooted_append (by simp) hVolume (Or.inl hBody)⟩

/-- A path inside a directory stays inside it under a longer last name. -/
theorem inside_append_suffix {dir path suffix : Text} (hStable : platform.stable path = true)
    (hPlain : ∀ c ∈ suffix, platform.isSep c = false) (hLong : 2 < suffix.length)
    (hColon : suffix.head? ≠ some ':') (hInside : platform.inside dir path = true) :
    platform.inside dir (path ++ suffix) = true := by
  rw [inside_iff] at *
  obtain ⟨hVolume, hRoot, steps, hSteps, hDescends⟩ := hInside
  obtain ⟨depth, hWalk⟩ := (descends_iff steps).mp hDescends
  have hSome : steps ≠ [] := by
    rintro rfl
    simp [walk] at hWalk
  have hBody : platform.body path ≠ [] := by
    intro hNil
    have hNone : platform.segments path = [] := by
      unfold segments
      rw [hNil]
      rfl
    rw [hNone] at hSteps
    exact hSome (List.append_eq_nil_iff.mp hSteps.symm).2
  have hHead : suffix.head?.any platform.isSep = false := by
    cases suffix with
    | nil => rfl
    | cons c suffix => simpa using hPlain c (List.mem_cons_self ..)
  obtain ⟨hLen, hSame⟩ := volumeLen_append_suffix hStable hHead hColon hBody
  refine ⟨(volume_append hLen).trans hVolume, hSame.trans hRoot, ?_⟩
  obtain ⟨front, last, hShorter, hSuffix⟩ := moves_append_suffix hPlain hLong (platform.body path)
  have hLonger : platform.segments (path ++ suffix) = front ++ [.down (last ++ suffix)] := by
    unfold segments
    rw [body_append hLen]
    exact hSuffix
  rw [hLonger]
  unfold segments at hSteps
  rw [hShorter] at hSteps
  -- Either the last piece was no move, or it was the last of `steps`.
  cases hLast : segment last with
  | none =>
      rw [hLast, Option.toList_none, List.append_nil] at hSteps
      rw [hSteps, List.append_assoc]
      exact ⟨_, rfl, descends_append_down hWalk _⟩
  | some move =>
      obtain ⟨before, final, rfl⟩ := List.eq_nil_or_concat steps |>.resolve_left hSome
      rw [hLast, Option.toList_some, List.concat_eq_append, ← List.append_assoc] at hSteps
      rw [List.append_inj_left' hSteps rfl, List.append_assoc]
      rw [List.concat_eq_append, walk_append] at hWalk
      obtain ⟨middle, hMiddle, -⟩ := Option.bind_eq_some_iff.mp hWalk
      exact ⟨_, rfl, descends_append_down hMiddle _⟩

end Join

section Location
variable {platform : Platform} {path suffix : Text}

/-- A continuation of a last name that turns it into no other kind of segment. -/
structure Plain (platform : Platform) (suffix : Text) : Prop where
  isSep : ∀ c ∈ suffix, platform.isSep c = false
  long : 2 < suffix.length
  colon : ':' ∉ suffix

/-- A share ends before a suffix without separators, or takes all of it. -/
theorem shareLen_append_plain (hPlain : ∀ c ∈ suffix, platform.isSep c = false) (path : Text) :
    platform.shareLen (path ++ suffix) = platform.shareLen path ∨
      platform.shareLen (path ++ suffix) = (path ++ suffix).length := by
  unfold shareLen
  have hAll : ∀ c ∈ suffix, (fun c => !platform.isSep c) c = true := by simpa using hPlain
  generalize (fun c => !platform.isSep c) = plain at *
  have hServer : path.takeWhile plain ++ path.dropWhile plain = path :=
    List.takeWhile_append_dropWhile
  cases hDrop : path.dropWhile plain with
  | nil =>
      left
      have hNone : (path ++ suffix).dropWhile plain = [] := by
        rw [List.dropWhile_append, hDrop]
        simpa [List.dropWhile_eq_nil_iff] using hAll
      simp [hNone]
  | cons sep after =>
      have hTake : (path ++ suffix).takeWhile plain = path.takeWhile plain :=
        takeWhile_append_of_stop (Or.inl (by simp [hDrop]))
      have hRest : (path ++ suffix).dropWhile plain = sep :: (after ++ suffix) := by
        rw [List.dropWhile_append, hDrop]
        rfl
      simp only [hTake, hRest, List.drop_succ_cons, List.drop_zero]
      cases hStop : after.dropWhile plain with
      | cons stop rest =>
          left
          rw [takeWhile_append_of_stop (Or.inl (by simp [hStop]))]
      | nil =>
          have hWhole : (after ++ suffix).takeWhile plain = after ++ suffix := by
            apply List.takeWhile_eq_self_iff.mpr
            intro c hc
            rcases List.mem_append.mp hc with hAfter | hSuffix
            · exact List.dropWhile_eq_nil_iff.mp hStop c hAfter
            · exact hAll c hSuffix
          by_cases hEmpty : (path.takeWhile plain).isEmpty = true
          · left
            simp [hEmpty]
          · cases suffix with
            | nil => simp
            | cons c rest =>
                right
                rw [hWhole, if_neg (by simpa using hEmpty)]
                have hLength := congrArg List.length hServer
                rw [hDrop] at hLength
                simp only [List.length_append, List.length_cons] at hLength ⊢
                omega

theorem opensShare_append_plain (hPlain : platform.Plain suffix) (path : Text) :
    platform.opensShare (path ++ suffix) = platform.opensShare path := by
  obtain ⟨c, d, rest, rfl⟩ : ∃ c d rest, suffix = c :: d :: rest := by
    match suffix, hPlain.long with
    | c :: d :: rest, _ => exact ⟨c, d, rest, rfl⟩
  have hHead := hPlain.isSep c List.mem_cons_self
  match path with
  | [] => simp [opensShare, hHead]
  | [a] => simp [opensShare, hHead]
  | _ :: _ :: _ => rfl

theorem opensDrive_append_plain (hPlain : platform.Plain suffix) (path : Text) :
    platform.opensDrive (path ++ suffix) = platform.opensDrive path := by
  obtain ⟨c, d, rest, rfl⟩ : ∃ c d rest, suffix = c :: d :: rest := by
    match suffix, hPlain.long with
    | c :: d :: rest, _ => exact ⟨c, d, rest, rfl⟩
  have hColon := hPlain.colon
  simp only [List.mem_cons, not_or] at hColon
  match path with
  | [] =>
      have hOther : (d == ':') = false := by simpa using Ne.symm hColon.2.1
      simp [opensDrive, hOther]
  | [a] =>
      have hOther : (c == ':') = false := by simpa using Ne.symm hColon.1
      simp [opensDrive, hOther]
  | _ :: _ :: _ => rfl

/-- The volume of a path ends before a plain suffix, or takes all of it. -/
theorem volumeLen_append_plain (hPlain : platform.Plain suffix) (path : Text) :
    platform.volumeLen (path ++ suffix) = platform.volumeLen path ∨
      platform.volumeLen (path ++ suffix) = (path ++ suffix).length := by
  unfold volumeLen
  rw [opensShare_append_plain hPlain, opensDrive_append_plain hPlain]
  by_cases hOpens : platform.opensShare path = true
  · simp only [hOpens, if_true]
    match path, hOpens with
    | a :: b :: rest, _ =>
        simp only [List.cons_append, List.drop_succ_cons, List.drop_zero, List.length_cons]
        rcases shareLen_append_plain hPlain.isSep rest with hSame | hAll
        · exact Or.inl (by rw [hSame])
        · right
          have hLong := hPlain.long
          rw [hAll]
          split
          · rename_i hZero
            simp only [List.length_append] at hZero
            omega
          · rfl
  · left
    rw [if_neg hOpens, if_neg hOpens]

/-- The moves of a path and of its continuation differ in the last name only. -/
theorem segments_append_plain (hPlain : platform.Plain suffix)
    (hVolume : platform.volumeLen (path ++ suffix) = platform.volumeLen path) :
    ∃ front last, platform.segments path = front ++ (segment last).toList ∧
      platform.segments (path ++ suffix) = front ++ [.down (last ++ suffix)] := by
  obtain ⟨front, last, hText, hSuffix⟩ :=
    moves_append_suffix hPlain.isSep hPlain.long (platform.body path)
  refine ⟨front, last, hText, ?_⟩
  unfold segments
  rw [body_append hVolume]
  exact hSuffix

/-- The location of a continued path shows the suffix: in its last step, or in
its volume if that is all there is. -/
theorem location_append_plain (hPlain : platform.Plain suffix) (path : Text) :
    (∃ name, (platform.location (path ++ suffix)).steps.getLast? = some (.down (name ++ suffix))) ∨
      ((platform.location (path ++ suffix)).steps = [] ∧
        (platform.location (path ++ suffix)).volume = path ++ suffix) := by
  rcases volumeLen_append_plain hPlain path with hSame | hAll
  · left
    obtain ⟨front, last, -, hSegments⟩ := segments_append_plain hPlain hSame
    refine ⟨last, ?_⟩
    simp [location, hSegments, resolveStep]
  · right
    have hBody : platform.body (path ++ suffix) = [] := by
      rw [body, hAll, List.drop_length]
    have hVolume : platform.volume (path ++ suffix) = path ++ suffix := by
      rw [volume, hAll, List.take_length]
    simp [location, segments, hBody, hVolume, moves, segment]

/-- Paths continued by suffixes neither of which ends in the other lead apart. -/
theorem location_append_ne {other : Text} (hPlain : platform.Plain suffix)
    (hOther : platform.Plain other) (hApart : ∀ first second : Text, first ++ suffix ≠ second ++ other)
    (path second : Text) :
    platform.location (path ++ suffix) ≠ platform.location (second ++ other) := by
  intro hSame
  rcases location_append_plain hPlain path with ⟨name, hName⟩ | ⟨hSteps, hVolume⟩
  · rcases location_append_plain hOther second with ⟨name', hName'⟩ | ⟨hSteps', -⟩
    · rw [hSame, hName'] at hName
      simp only [Option.some.injEq, Segment.down.injEq] at hName
      exact hApart _ _ hName.symm
    · rw [hSame, hSteps'] at hName
      simp at hName
  · rcases location_append_plain hOther second with ⟨name', hName'⟩ | ⟨-, hVolume'⟩
    · rw [← hSame, hSteps] at hName'
      simp at hName'
    · rw [hSame, hVolume'] at hVolume
      exact hApart _ _ hVolume.symm

end Location

end Platform

end Lexical
