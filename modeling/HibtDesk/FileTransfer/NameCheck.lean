import HibtDesk.FileTransfer.Manager
import HibtDesk.Library.Below

/-! The names that a server accepts from a client. They are looked through before a job is
made of them, with both separators whatever the platform, and joined to the directory of
the job by the rules of the platform. -/
namespace HibtDesk.FileTransfer

open Lexical (Text Platform Below StrictlyBelow)

/-- A name that is accepted among several. Whatever the platform, the name is read with
the separators of both. -/
structure Acceptable (platform : Platform) (name : Text) : Prop where
  named : name ≠ []
  noNull : '\x00' ∉ name
  neverUp : .up ∉ Platform.windows.moves name
  noDrive : platform.opensDrive name = false
  noRoot : name.head?.any Platform.windows.isSep = false

theorem validateFileNameNoTraversal_eq_ok_iff (platform : Platform) {name : Text} (hNamed : name ≠ []) :
    validateFileNameNoTraversal platform name = .ok () ↔ Acceptable platform name := by
  have hBoth : (fun c => c == '/' || c == '\\') = Platform.windows.isSep := by
    funext c
    rfl
  unfold validateFileNameNoTraversal
  rw [hBoth]
  constructor
  · intro hOk
    split at hOk
    · cases hOk
    · rename_i hNull
      split at hOk
      · cases hOk
      · rename_i hUp
        split at hOk
        · cases hOk
        · rename_i hDrive
          split at hOk
          · cases hOk
          · rename_i hRoot
            refine ⟨hNamed, hNull, ?_, Bool.eq_false_iff.mpr hDrive, Bool.eq_false_iff.mpr hRoot⟩
            rw [Lexical.Platform.up_mem_moves_iff]
            exact hUp
  · rintro ⟨-, hNull, hUp, hDrive, hRoot⟩
    rw [Lexical.Platform.up_mem_moves_iff] at hUp
    rw [if_neg hNull, if_neg hUp, if_neg (Bool.eq_false_iff.mp hDrive),
      if_neg (Bool.eq_false_iff.mp hRoot)]

/-- A list is accepted if and only if it is one file without a name, or every name in it
is acceptable. -/
theorem validateTransferFileNames_eq_ok_iff (platform : Platform) (files : List (Text × Nat)) :
    validateTransferFileNames platform files = .ok () ↔
      isSingleFileWithEmptyName files = true ∨ ∀ file ∈ files, Acceptable platform file.1 := by
  unfold validateTransferFileNames
  by_cases hSingle : isSingleFileWithEmptyName files = true
  · rw [if_pos hSingle]
    exact iff_of_true rfl (Or.inl hSingle)
  · rw [if_neg hSingle]
    have hOne : ∀ file : Text × Nat,
        ((if file.1.isEmpty then Except.error NameError.emptyName
          else validateFileNameNoTraversal platform file.1) = .ok ()) ↔ Acceptable platform file.1 := by
      intro file
      by_cases hNamed : file.1 = []
      · rw [if_pos (List.isEmpty_iff.mpr hNamed)]
        refine iff_of_false (fun hOk => by cases hOk) fun hAcceptable => hAcceptable.named hNamed
      · rw [if_neg (fun hEmpty => hNamed (List.isEmpty_iff.mp hEmpty))]
        exact validateFileNameNoTraversal_eq_ok_iff platform hNamed
    rw [or_iff_right hSingle, List.forM_eq_forM]
    clear hSingle
    induction files with
    | nil => exact iff_of_true rfl (by simp)
    | cons file rest ih =>
        rw [List.forM_cons, List.forall_mem_cons]
        refine Iff.trans ?_ (and_congr (hOne file) ih)
        generalize (if file.1.isEmpty then Except.error NameError.emptyName
          else validateFileNameNoTraversal platform file.1) = result
        cases result with
        | error error => exact iff_of_false (fun hOk => by cases hOk) (fun hBoth => by cases hBoth.1)
        | ok _ => exact (and_iff_right rfl).symm

section Acceptable
variable {platform : Platform} {name : Text}

/-- An acceptable name replaces neither the volume nor the root of a directory. -/
theorem Acceptable.relative (hAcceptable : Acceptable platform name) :
    platform.relative name = true := by
  have hFirst : name.head?.any platform.isSep = false := Lexical.Platform.head_plain hAcceptable.noRoot
  have hShare : platform.opensShare name = false := by
    cases name with
    | nil => rfl
    | cons c rest =>
        cases rest with
        | nil => rfl
        | cons d rest =>
            simp only [List.head?_cons, Option.any_some] at hFirst
            simp [Lexical.Platform.opensShare, hFirst]
  apply (Lexical.Platform.relative_iff name).mpr
  refine ⟨?_, hFirst⟩
  unfold Lexical.Platform.volumeLen
  rw [hShare, hAcceptable.noDrive]
  rfl

/-- The companions of an acceptable name are acceptable names. -/
theorem Acceptable.append (hAcceptable : Acceptable platform name) {suffix : Text}
    (hPlain : Platform.windows.Plain suffix) (hNoNull : '\x00' ∉ suffix) :
    Acceptable platform (name ++ suffix) where
  named := List.append_ne_nil_of_left_ne_nil hAcceptable.named suffix
  noNull := by
    intro hNull
    rcases List.mem_append.mp hNull with hName | hSuffix
    · exact hAcceptable.noNull hName
    · exact hNoNull hSuffix
  neverUp := Lexical.Platform.neverUp_append_plain hPlain hAcceptable.neverUp
  noDrive := by
    rw [Lexical.Platform.opensDrive_append_plain hPlain.of_windows]
    exact hAcceptable.noDrive
  noRoot := by
    obtain ⟨c, rest, hName⟩ := List.exists_cons_of_ne_nil hAcceptable.named
    have hRoot := hAcceptable.noRoot
    rw [hName] at hRoot ⊢
    exact hRoot

theorem TransferJob.join_of_named (hNamed : name ≠ []) (base : Text) :
    TransferJob.join platform base name = platform.join base name := by
  unfold TransferJob.join
  rw [if_neg fun hEmpty => hNamed (List.isEmpty_iff.mp hEmpty)]

/-- An acceptable name leads to where its components lead from the base. -/
theorem Acceptable.follows (hAcceptable : Acceptable platform name) {base : Text}
    (hStable : platform.stable base = true) :
    Lexical.Follows platform base (TransferJob.join platform base name) (platform.moves name) := by
  rw [TransferJob.join_of_named hAcceptable.named]
  exact Lexical.follows_join hStable hAcceptable.relative
    (Lexical.Platform.neverUp_of_windows hAcceptable.neverUp)

/-- A companion of an acceptable name always lies strictly below the base. -/
theorem Acceptable.companion (hAcceptable : Acceptable platform name) {base suffix : Text}
    (hStable : platform.stable base = true) (hPlain : Platform.windows.Plain suffix)
    (hNoNull : '\x00' ∉ suffix) :
    StrictlyBelow platform base (TransferJob.join platform base name ++ suffix) := by
  have hLonger := hAcceptable.append hPlain hNoNull
  have hFollows := hLonger.follows hStable
  rw [TransferJob.join_of_named hLonger.named,
    ← Lexical.join_append hAcceptable.relative hLonger.relative,
    ← TransferJob.join_of_named hAcceptable.named] at hFollows
  exact ⟨_, Lexical.Platform.moves_append_plain_ne_nil hPlain.of_windows name, hFollows⟩

end Acceptable

/-- Names that are accepted among several lead to the base or below it, strictly so unless
they spell no component, and their companions lead strictly below it. Lists of acceptable
names are accepted. -/
theorem accepted_names_below (platform : Platform) :
    (∀ files, validateTransferFileNames platform files = .ok () →
      isSingleFileWithEmptyName files = false → ∀ file ∈ files, ∀ base,
      platform.stable base = true →
        Below platform base (TransferJob.join platform base file.1) ∧
        (StrictlyBelow platform base (TransferJob.join platform base file.1) ↔
          platform.moves file.1 ≠ []) ∧
        StrictlyBelow platform base (download (TransferJob.join platform base file.1)) ∧
        StrictlyBelow platform base (digestPath (TransferJob.join platform base file.1))) ∧
    ∀ files : List (Text × Nat), (∀ file ∈ files, Acceptable platform file.1) →
      validateTransferFileNames platform files = .ok () := by
  constructor
  · intro files hOk hSeveral file hFile base hStable
    rw [validateTransferFileNames_eq_ok_iff, hSeveral] at hOk
    have hAcceptable := hOk.resolve_left Bool.false_ne_true file hFile
    have hFollows := hAcceptable.follows hStable
    refine ⟨⟨_, hFollows⟩, Lexical.strictlyBelow_iff hFollows, ?_, ?_⟩
    · exact hAcceptable.companion hStable (plain_download .windows) (by decide)
    · exact hAcceptable.companion hStable (plain_digest .windows) (by decide)
  · intro files hAll
    rw [validateTransferFileNames_eq_ok_iff]
    exact Or.inr hAll

theorem nested_name_below :
    StrictlyBelow .unix "/d".toList (TransferJob.join .unix "/d".toList "a/b".toList) :=
  ((accepted_names_below .unix).1 [("a/b".toList, 0)] (by decide +kernel) (by decide)
    ("a/b".toList, 0) List.mem_cons_self "/d".toList (by decide)).2.1.mpr (by decide +kernel)

/-- A name for the directory itself is accepted. On Unix a name with a backslash is not,
though it is relative and has a single component. On Windows a name completes a share that
is not there yet. -/
theorem dot_name_not_below :
    (validateTransferFileNames .unix [(".".toList, 0)] = .ok () ∧
      ¬ StrictlyBelow .unix "/d".toList (TransferJob.join .unix "/d".toList ".".toList)) ∧
    (Platform.unix.relative "\\x".toList = true ∧ .up ∉ Platform.unix.moves "\\x".toList ∧
      '\x00' ∉ "\\x".toList ∧ validateTransferFileNames .unix [("\\x".toList, 0)] ≠ .ok ()) ∧
    (validateTransferFileNames .windows [("x".toList, 0)] = .ok () ∧
      ¬ Below .windows "\\\\server".toList
        (TransferJob.join .windows "\\\\server".toList "x".toList)) := by
  refine ⟨⟨by decide +kernel, ?_⟩, ⟨by decide +kernel, by decide +kernel, by decide +kernel,
    by decide +kernel⟩, by decide +kernel, ?_⟩
  · rintro ⟨steps, hSome, hFollows⟩
    have hSame : Platform.unix.segments (TransferJob.join .unix "/d".toList ".".toList) =
        Platform.unix.segments "/d".toList ++ [] := by
      decide +kernel
    exact hSome (List.append_cancel_left (hFollows.segments.symm.trans hSame))
  · rintro ⟨steps, hFollows⟩
    have hVolume := hFollows.volume
    revert hVolume
    decide +kernel

end HibtDesk.FileTransfer
