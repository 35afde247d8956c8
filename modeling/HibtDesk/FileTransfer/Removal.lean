import HibtDesk.FileTransfer.NameCheck
import HibtDesk.Library.FileTree

/-! Removing what is empty of a directory. -/
namespace HibtDesk.FileTransfer

open Lexical (Text Platform)
open Storage (Folder Item)

/-- What a directory says of an entry. A name that is no Unicode has no text. -/
structure EntryLabel where
  name : Option Text
  hiddenAttribute : Bool
  hasMetadata : Bool
  modifiedTime : Nat
  deriving DecidableEq, Repr

/-- `FileType`, without the drives that Windows lists at its root. -/
inductive EntryType where
  | dir
  | dirLink
  | fileLink
  | file
  deriving DecidableEq, Repr

/-- `FileEntry`, with what a listing tells beside the name, size and time of a file. -/
structure DirEntry extends FileEntry where
  entryType : EntryType
  isHidden : Bool
  deriving DecidableEq, Repr

inductive ListError where
  | cannotOpen
  deriving DecidableEq, Repr

/-- What stands at a path, and what is below it. Paths that leave the base lead nowhere; a
link that the base itself may be has been followed, and no other is. -/
structure Mount where
  platform : Platform
  base : Text
  node : Option (EntryLabel × Item EntryLabel Bytes)
  deriving DecidableEq, Repr

def isHidden (platform : Platform) (label : EntryLabel) (name : Text) : Bool :=
  match platform with
  | .windows => label.hiddenAttribute
  | .unix => name.head? == some '.'

/-- The type and the size of an entry. A link is told by what it leads to. -/
def typeAndSize : Item EntryLabel Bytes → EntryType × Nat
  | .folder _ _ => (.dir, 0)
  | .link true => (.dirLink, 0)
  | .link false => (.fileLink, 0)
  | .file content => (.file, content.length)

/-- What `read_dir` makes of one entry. -/
def readEntry (platform : Platform) (includeHidden : Bool) (label : EntryLabel)
    (item : Item EntryLabel Bytes) : Option DirEntry :=
  let name := label.name.getD []
  if name.isEmpty then none
  else if !label.hasMetadata then none
  else
    let hidden := isHidden platform label name
    if hidden && !includeHidden then none
    else
      some { name := name, entryType := (typeAndSize item).1, isHidden := hidden,
             size := (typeAndSize item).2, modifiedTime := label.modifiedTime }

/-- Whether `remove_all_empty_dir` tries to take an entry away for which nothing but the system
stands in the way: a link, or a directory once it is empty. -/
def goes (platform : Platform) (refuses : Text → Bool) (path : Text) (label : EntryLabel)
    (item : Item EntryLabel Bytes) : Bool :=
  match readEntry platform true label item with
  | none => false
  | some entry =>
      match item with
      | .file _ => false
      | .link toFolder =>
          !(platform == .windows && toFolder) && !refuses (platform.join path entry.name)
      | .folder opens _ => opens && !refuses (platform.join path entry.name)

/-- What `remove_all_empty_dir` leaves inside a directory. A directory inside goes after what
is inside it, if that left nothing. -/
def removeInside (platform : Platform) (refuses : Text → Bool) :
    Text → Folder EntryLabel Bytes → Folder EntryLabel Bytes
  | _, .empty => .empty
  | path, .file label content rest => .file label content (removeInside platform refuses path rest)
  | path, .link label toFolder rest =>
      if goes platform refuses path label (.link toFolder) then removeInside platform refuses path rest
      else .link label toFolder (removeInside platform refuses path rest)
  | path, .folder label opens inside rest =>
      match readEntry platform true label (.folder opens inside) with
      | none => .folder label opens inside (removeInside platform refuses path rest)
      | some entry =>
          if opens then
            let left := removeInside platform refuses (platform.join path entry.name) inside
            if left = .empty ∧ !refuses (platform.join path entry.name) then
              removeInside platform refuses path rest
            else .folder label opens left (removeInside platform refuses path rest)
          else .folder label opens inside (removeInside platform refuses path rest)

/-- `remove_all_empty_dir` of the base. -/
def removeAllEmptyDir (refuses : Text → Bool) (mount : Mount) : Except ListError Unit × Mount :=
  match mount.node with
  | some (label, .folder true inside) =>
      let left := removeInside mount.platform refuses mount.base inside
      if left = .empty ∧ !refuses mount.base then (.ok (), { mount with node := none })
      else (.ok (), { mount with node := some (label, .folder true left) })
  | _ => (.error .cannotOpen, mount)

/-- The name of an entry, empty when it has no text. -/
def EntryLabel.text (label : EntryLabel) : Text := label.name.getD []

/-- What `read_dir` does not pass over. -/
def listed (platform : Platform) (includeHidden : Bool) (label : EntryLabel) : Bool :=
  !label.text.isEmpty && label.hasMetadata && (includeHidden || !isHidden platform label label.text)

/-- What `read_dir` says of an entry that it does not pass over. -/
def dirEntry (platform : Platform) (label : EntryLabel) (item : Item EntryLabel Bytes) : DirEntry where
  name := label.text
  entryType := (typeAndSize item).1
  isHidden := isHidden platform label label.text
  size := (typeAndSize item).2
  modifiedTime := label.modifiedTime

section Inside
variable {platform : Platform} {refuses : Text → Bool} {path : Text} {label : EntryLabel}
  {here : Folder EntryLabel Bytes}

theorem readEntry_eq (platform : Platform) (includeHidden : Bool) (label : EntryLabel)
    (item : Item EntryLabel Bytes) :
    readEntry platform includeHidden label item =
      if listed platform includeHidden label then some (dirEntry platform label item) else none := by
  unfold readEntry listed dirEntry EntryLabel.text
  dsimp only
  generalize label.name.getD [] = name
  generalize isHidden platform label name = hidden
  cases name.isEmpty <;> cases label.hasMetadata <;> cases includeHidden <;> cases hidden <;> rfl

theorem goes_eq (platform : Platform) (refuses : Text → Bool) (path : Text) (label : EntryLabel)
    (item : Item EntryLabel Bytes) :
    goes platform refuses path label item = true ↔
      listed platform true label = true ∧
        ((∃ toFolder, item = .link toFolder ∧ ¬ (platform = .windows ∧ toFolder = true)) ∨
          ∃ inside, item = .folder true inside) ∧
        refuses (platform.join path label.text) = false := by
  unfold goes
  rw [readEntry_eq]
  by_cases hListed : listed platform true label = true
  · simp only [hListed, if_true]
    cases item with
    | file content => simp
    | link toFolder => cases platform <;> cases toFolder <;> simp [dirEntry]
    | folder opens inside => cases opens <;> simp [dirEntry]
  · simp [hListed]

theorem removeInside_folder (opens : Bool) (inside rest : Folder EntryLabel Bytes) :
    removeInside platform refuses path (.folder label opens inside rest) =
      if goes platform refuses path label (.folder opens inside) = true ∧
          removeInside platform refuses (platform.join path label.text) inside = .empty then
        removeInside platform refuses path rest
      else
        .folder label opens
          (if listed platform true label && opens then
            removeInside platform refuses (platform.join path label.text) inside else inside)
          (removeInside platform refuses path rest) := by
  rw [removeInside, readEntry_eq]
  by_cases hListed : listed platform true label = true
  · have hGoes : goes platform refuses path label (.folder opens inside) = true ↔
        opens = true ∧ refuses (platform.join path label.text) = false := by
      rw [goes_eq]
      cases opens <;> simp [hListed]
    simp only [hListed, if_true, dirEntry, hGoes, Bool.true_and]
    cases opens with
    | true => cases hRefuses : refuses (platform.join path label.text) <;> simp
    | false => simp
  · have hStays : ¬ goes platform refuses path label (.folder opens inside) = true := by
      rw [goes_eq]
      exact fun hGoes => hListed hGoes.1
    simp [hListed, hStays]

/-- Files stay, whatever directories go. -/
theorem files_removeInside (platform : Platform) (refuses : Text → Bool)
    (keep : EntryLabel → Bool) (path : Text) (here : Folder EntryLabel Bytes) :
    (removeInside platform refuses path here).files keep = here.files keep := by
  induction here generalizing path with
  | empty => rfl
  | file label content rest ih => rw [removeInside, Folder.files, Folder.files, ih]
  | link label toFolder rest ih =>
      rw [removeInside]
      split
      · exact ih path
      · exact ih path
  | folder label opens inside rest ihInside ih =>
      rw [removeInside_folder]
      split
      · rename_i hGone
        have hNone : inside.files keep = [] := by
          rw [← ihInside (platform.join path label.text), hGone.2]
          rfl
        rw [Folder.files, ih, hNone]
        split <;> rfl
      · rw [Folder.files, Folder.files, ih]
        split
        · split
          · rw [ihInside]
          · rfl
        · rfl

/-- Everything goes if and only if nothing that is met is a file, is passed over by the
listing, cannot be opened, or is held back by the system. -/
theorem removeInside_eq_empty_iff (path : Text) (here : Folder EntryLabel Bytes) :
    removeInside platform refuses path here = .empty ↔
      ∀ way inner, Folder.Leads (listed platform true) here way inner →
        ∀ entry ∈ inner.entries,
          goes platform refuses ((way.map EntryLabel.text).foldl platform.join path) entry.1 entry.2 =
            true := by
  induction here generalizing path with
  | empty =>
      refine iff_of_true rfl ?_
      intro way inner hLeads
      cases hLeads with
      | self => exact fun entry hEntry => by cases hEntry
      | into hEntry => cases hEntry
  | file label content rest ih =>
      rw [Folder.forall_leads_cons_iff rfl]
      refine iff_of_false (by simp [removeInside]) ?_
      rintro ⟨hFile, -⟩
      obtain ⟨-, ⟨_, hLink, -⟩ | ⟨_, hFolder⟩, -⟩ := (goes_eq _ _ _ _ _).mp hFile
      · cases hLink
      · cases hFolder
  | link label toFolder rest ih =>
      rw [Folder.forall_leads_cons_iff rfl, removeInside, ← ih]
      split
      · rename_i hGoes
        exact ⟨fun hRest => ⟨hGoes, (fun _ hInside => by cases hInside), hRest⟩, fun hAll => hAll.2.2⟩
      · rename_i hStays
        exact iff_of_false (by simp) fun hAll => hStays hAll.1
  | folder label opens inside rest ihInside ih =>
      rw [Folder.forall_leads_cons_iff rfl, removeInside_folder, ← ih]
      have hBelow : (goes platform refuses path label (.folder opens inside) = true →
          ((∀ within, Item.folder opens inside = .folder true within → listed platform true label = true →
            ∀ way inner, Folder.Leads (listed platform true) within way inner →
              ∀ met ∈ inner.entries, goes platform refuses
                (((label :: way).map EntryLabel.text).foldl platform.join path) met.1 met.2 = true) ↔
            removeInside platform refuses (platform.join path label.text) inside = .empty)) := by
        intro hGoes
        obtain ⟨hListed, ⟨_, hLink, -⟩ | ⟨within, hFolder⟩, -⟩ := (goes_eq _ _ _ _ _).mp hGoes
        · cases hLink
        · cases hFolder
          rw [ihInside]
          constructor
          · intro hAll
            exact hAll inside rfl hListed
          · rintro hAll _ ⟨⟩ _
            exact hAll
      split
      · rename_i hGone
        exact ⟨fun hRest => ⟨hGone.1, (hBelow hGone.1).mpr hGone.2, hRest⟩, fun hAll => hAll.2.2⟩
      · rename_i hStays
        refine iff_of_false (by simp) ?_
        rintro ⟨hGoes, hAll, -⟩
        exact hStays ⟨hGoes, (hBelow hGoes).mp hAll⟩

end Inside

/-- The files of what stands at the base, with the labels on the way to each. -/
def Mount.files (mount : Mount) : List (List EntryLabel × Bytes) :=
  match mount.node with
  | some (_, .folder true inside) => inside.files fun _ => true
  | _ => []

theorem files_removeAllEmptyDir (refuses : Text → Bool) (mount : Mount) :
    (removeAllEmptyDir refuses mount).2.files = mount.files := by
  unfold removeAllEmptyDir
  split
  · rename_i label inside hNode
    have hFiles := files_removeInside mount.platform refuses (fun _ => true) mount.base inside
    have hBefore : mount.files = inside.files fun _ => true := by
      simp [Mount.files, hNode]
    rw [hBefore, ← hFiles]
    dsimp only
    split
    · rename_i hGone
      rw [hGone.1]
      rfl
    · rfl
  · rfl

/-- `remove_all_empty_dir` keeps every file; the directory goes if and only if everything that
is met in it can go and the system holds it not back. -/
theorem removeAllEmptyDir_spec (platform : Platform) (base : Text) (label : EntryLabel)
    (inside : Folder EntryLabel Bytes) (refuses : Text → Bool) :
    let mount : Mount := ⟨platform, base, some (label, .folder true inside)⟩
    (removeAllEmptyDir refuses mount).1 = .ok () ∧
      (removeAllEmptyDir refuses mount).2.files = mount.files ∧
        ((removeAllEmptyDir refuses mount).2.node = none ↔
          refuses base = false ∧
            ∀ way inner, Folder.Leads (listed platform true) inside way inner →
              ∀ entry ∈ inner.entries,
                goes platform refuses ((way.map EntryLabel.text).foldl platform.join base)
                  entry.1 entry.2 = true) := by
  intro mount
  rw [files_removeAllEmptyDir, ← removeInside_eq_empty_iff]
  by_cases hGone : removeInside platform refuses base inside = .empty ∧ (!refuses base) = true
  · have hRun : removeAllEmptyDir refuses mount = (.ok (), { mount with node := none }) :=
      if_pos hGone
    rw [hRun]
    exact ⟨rfl, rfl, iff_of_true rfl ⟨by simpa using hGone.2, hGone.1⟩⟩
  · have hRun : removeAllEmptyDir refuses mount = (.ok (), { mount with
        node := some (label, .folder true (removeInside platform refuses base inside)) }) :=
      if_neg hGone
    rw [hRun]
    refine ⟨rfl, rfl, iff_of_false (by simp) ?_⟩
    rintro ⟨hRefuses, hEmpty⟩
    exact hGone ⟨hEmpty, by simp [hRefuses]⟩

end HibtDesk.FileTransfer
