import Mathlib.Data.List.Basic
import Mathlib.Data.List.Pairwise
import Mathlib.Order.Basic

/-! The drive that recordings are saved on. One pass over the drive letters keeps the best
drive so far and the space that is free on it. -/
namespace HibtDesk.Employee

/-- Code points. -/
abbrev Path := List Nat

/-- The drives of a machine, by the codes of their letters, and `SystemDrive`, if it is set. -/
structure Drives where
  present : Nat → Bool
  availableSpace : Nat → Option Nat
  systemDrive : Option Path

/-- `b'C'..=b'Z'`. -/
def driveLetters : List Nat := List.range' 67 24

/-- A letter, a colon and a backslash. -/
def drivePath (letter : Nat) : Path := [letter, 58, 92]

def toAsciiUppercase (c : Nat) : Nat := if 97 ≤ c ∧ c ≤ 122 then c - 32 else c

/-- The best drive so far, and its space. -/
structure Best where
  drive : Option Path
  maxFreeSpace : Nat
  deriving DecidableEq, Repr

namespace Drives

/-- The first letter of `SystemDrive`, or of "C:". -/
def sysDriveLetter (drives : Drives) : Nat :=
  toAsciiUppercase (((drives.systemDrive.getD [67, 58]).head?).getD 67)

def startsWith (path : Path) (letter : Nat) : Bool := decide (path.head? = some letter)

/-- The tests on a drive whose space is known. -/
def consider (sys : Nat) (best : Best) (letter space : Nat) : Best :=
  let isSystemDrive := decide (letter = sys)
  let bestIsSystem := (best.drive.map fun path => startsWith path sys).getD true
  if best.drive.isNone || (!isSystemDrive && decide (best.maxFreeSpace < space)) ||
      (isSystemDrive && bestIsSystem && decide (best.maxFreeSpace < space)) then
    if !isSystemDrive || bestIsSystem then
      if !isSystemDrive || decide (best.maxFreeSpace < space) then ⟨some (drivePath letter), space⟩
      else best
    else best
  else best

def visit (drives : Drives) (best : Best) (letter : Nat) : Best :=
  if drives.present letter then
    match drives.availableSpace letter with
    | some space => consider drives.sysDriveLetter best letter space
    | none => best
  else best

/-- The root that `manage_recording` saves under. -/
def saveRoot (drives : Drives) : Path :=
  ((driveLetters.foldl drives.visit ⟨none, 0⟩).drive).getD (drivePath drives.sysDriveLetter)

/-- A drive that is there, and whose space can be read. -/
structure Readable (drives : Drives) (letter space : Nat) : Prop where
  mem : letter ∈ driveLetters
  present : drives.present letter = true
  space : drives.availableSpace letter = some space

/-- It is saved on the drive with the most space of those that are not the system's, and on
the system's only if there is no other. -/
structure SavesWell (drives : Drives) : Prop where
  other : (∃ letter space, drives.Readable letter space ∧ letter ≠ drives.sysDriveLetter) →
    ∃ letter space, drives.Readable letter space ∧ letter ≠ drives.sysDriveLetter ∧
      drives.saveRoot = drivePath letter ∧
        ∀ letter' space', drives.Readable letter' space' → letter' ≠ drives.sysDriveLetter → space' ≤ space
  system : (¬ ∃ letter space, drives.Readable letter space ∧ letter ≠ drives.sysDriveLetter) →
    drives.saveRoot = drivePath drives.sysDriveLetter

/-- The system drive is readable, has some space, comes before all others, and none of these
has more; and there are others. -/
def SystemOutbids (drives : Drives) : Prop :=
  ∃ space, drives.Readable drives.sysDriveLetter space ∧ 0 < space ∧
    (∃ letter space', drives.Readable letter space' ∧ letter ≠ drives.sysDriveLetter) ∧
    ∀ letter space', drives.Readable letter space' → letter ≠ drives.sysDriveLetter →
      drives.sysDriveLetter < letter ∧ space' ≤ space

/-- The readable drives, in the order of their letters. -/
def entries (drives : Drives) : List (Nat × Nat) :=
  driveLetters.filterMap fun letter =>
    if drives.present letter then (drives.availableSpace letter).map fun space => (letter, space) else none

section Scan
variable {sys : Nat}

/-- The pass over drives whose space is known. -/
def scan (sys : Nat) (best : Best) (entries : List (Nat × Nat)) : Best :=
  entries.foldl (fun best entry => consider sys best entry.1 entry.2) best

theorem foldl_visit (drives : Drives) (best : Best) :
    driveLetters.foldl drives.visit best = scan drives.sysDriveLetter best drives.entries := by
  unfold entries
  generalize driveLetters = letters
  induction letters generalizing best with
  | nil => rfl
  | cons letter rest ih =>
      rw [List.foldl_cons, ih]
      unfold visit
      split
      · rename_i hPresent
        cases hSpace : drives.availableSpace letter with
        | none => simp [hPresent, hSpace]
        | some space =>
            rw [List.filterMap_cons_some (b := (letter, space)) (by simp [hPresent, hSpace])]
            rfl
      · rename_i hAbsent
        rw [List.filterMap_cons_none (by simp [hAbsent])]

theorem mem_entries (drives : Drives) (entry : Nat × Nat) :
    entry ∈ drives.entries ↔ drives.Readable entry.1 entry.2 := by
  obtain ⟨letter, space⟩ := entry
  unfold entries
  rw [List.mem_filterMap]
  constructor
  · rintro ⟨letter', hMem, hFound⟩
    split at hFound
    · rename_i hPresent
      obtain ⟨space', hSpace, hSame⟩ := Option.map_eq_some_iff.mp hFound
      cases hSame
      exact ⟨hMem, hPresent, hSpace⟩
    · cases hFound
  · intro hReadable
    refine ⟨letter, hReadable.mem, ?_⟩
    rw [if_pos hReadable.present, hReadable.space]
    rfl

theorem startsWith_drivePath (letter : Nat) : startsWith (drivePath letter) sys = decide (letter = sys) := by
  simp [startsWith, drivePath]

theorem consider_other_none {letter space m : Nat} (hOther : letter ≠ sys) :
    consider sys ⟨none, m⟩ letter space = ⟨some (drivePath letter), space⟩ := by
  simp [consider, hOther]

theorem consider_system_none (space : Nat) :
    consider sys ⟨none, 0⟩ sys space = if 0 < space then ⟨some (drivePath sys), space⟩ else ⟨none, 0⟩ := by
  simp [consider]

theorem consider_other {best letter space m : Nat} (hOther : letter ≠ sys) :
    consider sys ⟨some (drivePath best), m⟩ letter space =
      if m < space then ⟨some (drivePath letter), space⟩ else ⟨some (drivePath best), m⟩ := by
  by_cases hMore : m < space <;> simp [consider, hOther, hMore]

theorem consider_system {best space m : Nat} (hBest : best ≠ sys) :
    consider sys ⟨some (drivePath best), m⟩ sys space = ⟨some (drivePath best), m⟩ := by
  simp [consider, startsWith_drivePath, hBest]

/-- The best of the drives that are not the system's. -/
structure Leads (sys : Nat) (entries : List (Nat × Nat)) (letter space : Nat) : Prop where
  mem : (letter, space) ∈ entries
  other : letter ≠ sys
  most : ∀ entry ∈ entries, entry.1 ≠ sys → entry.2 ≤ space

/-- A drive of the system, or one with no more space, changes nothing. -/
theorem Leads.cons {entries : List (Nat × Nat)} {letter space : Nat} (hLeads : Leads sys entries letter space)
    {entry : Nat × Nat} (hEntry : entry.1 ≠ sys → entry.2 ≤ space) :
    Leads sys (entry :: entries) letter space := by
  refine ⟨List.mem_cons_of_mem _ hLeads.mem, hLeads.other, fun other hOther hNot => ?_⟩
  rcases List.mem_cons.mp hOther with rfl | hLater
  · exact hEntry hNot
  · exact hLeads.most other hLater hNot

theorem Leads.swap {entries : List (Nat × Nat)} {first second : Nat × Nat} {letter space : Nat}
    (hLeads : Leads sys (first :: second :: entries) letter space) :
    Leads sys (second :: first :: entries) letter space := by
  have hPerm := List.Perm.swap second first entries
  refine ⟨hPerm.mem_iff.mp hLeads.mem, hLeads.other, fun entry hEntry => ?_⟩
  exact hLeads.most entry (hPerm.mem_iff.mpr hEntry)

/-- Once a drive that is not the system's is the best, the rest of the pass finds the one
with the most space. -/
theorem scan_of_other {letter space : Nat} (hOther : letter ≠ sys) (entries : List (Nat × Nat)) :
    ∃ letter' space', scan sys ⟨some (drivePath letter), space⟩ entries = ⟨some (drivePath letter'), space'⟩ ∧
      Leads sys ((letter, space) :: entries) letter' space' := by
  induction entries generalizing letter space with
  | nil =>
      refine ⟨letter, space, rfl, List.mem_cons_self, hOther, ?_⟩
      intro entry hEntry _
      exact Nat.le_of_eq (congrArg Prod.snd (List.mem_singleton.mp hEntry))
  | cons entry rest ih =>
      obtain ⟨next, found⟩ := entry
      have hScan : scan sys ⟨some (drivePath letter), space⟩ ((next, found) :: rest) =
          scan sys (consider sys ⟨some (drivePath letter), space⟩ next found) rest := rfl
      by_cases hSystem : next = sys
      · subst hSystem
        rw [hScan, consider_system hOther]
        obtain ⟨letter', space', hFound, hLeads⟩ := ih hOther
        refine ⟨letter', space', hFound, ?_⟩
        exact (hLeads.cons fun hNot => absurd rfl hNot).swap
      · rw [hScan, consider_other hSystem]
        by_cases hMore : space < found
        · rw [if_pos hMore]
          obtain ⟨letter', space', hFound, hLeads⟩ := ih hSystem
          refine ⟨letter', space', hFound, hLeads.cons fun _ => ?_⟩
          exact Nat.le_trans (Nat.le_of_lt hMore) (hLeads.most _ List.mem_cons_self hSystem)
        · rw [if_neg hMore]
          obtain ⟨letter', space', hFound, hLeads⟩ := ih hOther
          refine ⟨letter', space', hFound, (hLeads.cons fun _ => ?_).swap⟩
          exact Nat.le_trans (Nat.le_of_not_lt hMore) (hLeads.most _ List.mem_cons_self hOther)

/-- While the system drive is the best, only one with more space takes its place. -/
theorem scan_of_system {space : Nat} {entries : List (Nat × Nat)} (hOthers : ∀ entry ∈ entries, entry.1 ≠ sys) :
    (∀ entry ∈ entries, entry.2 ≤ space) ∧
        scan sys ⟨some (drivePath sys), space⟩ entries = ⟨some (drivePath sys), space⟩ ∨
      (∃ entry ∈ entries, space < entry.2) ∧
        ∃ letter' space', scan sys ⟨some (drivePath sys), space⟩ entries = ⟨some (drivePath letter'), space'⟩ ∧
          Leads sys entries letter' space' := by
  induction entries with
  | nil => exact Or.inl ⟨fun _ hEntry => (by cases hEntry), rfl⟩
  | cons entry rest ih =>
      obtain ⟨next, found⟩ := entry
      have hNext : next ≠ sys := hOthers (next, found) List.mem_cons_self
      have hScan : scan sys ⟨some (drivePath sys), space⟩ ((next, found) :: rest) =
          scan sys (consider sys ⟨some (drivePath sys), space⟩ next found) rest := rfl
      rw [hScan, consider_other hNext]
      by_cases hMore : space < found
      · rw [if_pos hMore]
        exact Or.inr ⟨⟨(next, found), List.mem_cons_self, hMore⟩, scan_of_other hNext rest⟩
      · rw [if_neg hMore]
        rcases ih (fun entry hEntry => hOthers entry (List.mem_cons_of_mem _ hEntry)) with
          ⟨hLess, hSame⟩ | ⟨⟨entry, hEntry, hSpace⟩, letter', space', hFound, hLeads⟩
        · refine Or.inl ⟨fun entry hEntry => ?_, hSame⟩
          rcases List.mem_cons.mp hEntry with rfl | hLater
          · exact Nat.le_of_not_lt hMore
          · exact hLess entry hLater
        · refine Or.inr ⟨⟨entry, List.mem_cons_of_mem _ hEntry, hSpace⟩, letter', space', hFound,
            hLeads.cons fun _ => ?_⟩
          have hLead := hLeads.most entry hEntry (hOthers entry (List.mem_cons_of_mem _ hEntry))
          dsimp only
          omega

/-- What the pass comes to: the best of the others; or none, where there are none; or the
system drive, which comes first and has as much space as each of them. -/
theorem scan_cases {entries : List (Nat × Nat)} (hOrder : entries.Pairwise fun first later => first.1 < later.1) :
    (∃ letter space, scan sys ⟨none, 0⟩ entries = ⟨some (drivePath letter), space⟩ ∧
      Leads sys entries letter space) ∨
    (∀ entry ∈ entries, entry.1 = sys) ∧ scan sys ⟨none, 0⟩ entries = ⟨none, 0⟩ ∨
    ∃ space, (sys, space) ∈ entries ∧ 0 < space ∧
      scan sys ⟨none, 0⟩ entries = ⟨some (drivePath sys), space⟩ ∧
      ∀ entry ∈ entries, entry.1 ≠ sys → sys < entry.1 ∧ entry.2 ≤ space := by
  cases entries with
  | nil => exact Or.inr (Or.inl ⟨fun _ hEntry => (by cases hEntry), rfl⟩)
  | cons entry rest =>
      obtain ⟨first, space⟩ := entry
      obtain ⟨hFirst, hRest⟩ := List.pairwise_cons.mp hOrder
      have hScan : scan sys ⟨none, 0⟩ ((first, space) :: rest) =
          scan sys (consider sys ⟨none, 0⟩ first space) rest := rfl
      by_cases hSystem : first = sys
      · subst hSystem
        have hOthers : ∀ entry ∈ rest, entry.1 ≠ first := fun entry hEntry =>
          Nat.ne_of_gt (hFirst entry hEntry)
        rw [hScan, consider_system_none]
        by_cases hSpace : 0 < space
        · rw [if_pos hSpace]
          rcases @scan_of_system first space rest hOthers with
            ⟨hLess, hSame⟩ | ⟨-, letter', space', hFound, hLeads⟩
          · refine Or.inr (Or.inr ⟨space, List.mem_cons_self, hSpace, hSame, ?_⟩)
            intro entry hEntry hNot
            rcases List.mem_cons.mp hEntry with rfl | hLater
            · exact absurd rfl hNot
            · exact ⟨hFirst entry hLater, hLess entry hLater⟩
          · exact Or.inl ⟨letter', space', hFound, hLeads.cons fun hNot => absurd rfl hNot⟩
        · rw [if_neg hSpace]
          cases rest with
          | nil =>
              refine Or.inr (Or.inl ⟨fun entry hEntry => ?_, rfl⟩)
              rw [List.mem_singleton.mp hEntry]
          | cons next later =>
              obtain ⟨next, found⟩ := next
              have hNext : next ≠ first := hOthers (next, found) List.mem_cons_self
              have hStep : scan first ⟨none, 0⟩ ((next, found) :: later) =
                  scan first ⟨some (drivePath next), found⟩ later := by
                show scan first (consider first ⟨none, 0⟩ next found) later = _
                rw [consider_other_none hNext]
              obtain ⟨letter', space', hFound, hLeads⟩ := scan_of_other hNext later
              refine Or.inl ⟨letter', space', hStep.trans hFound, ?_⟩
              exact hLeads.cons fun hNot => absurd rfl hNot
      · rw [hScan, consider_other_none hSystem]
        obtain ⟨letter', space', hFound, hLeads⟩ := scan_of_other hSystem rest
        exact Or.inl ⟨letter', space', hFound, hLeads⟩

/-- The system drive stays the best where it comes first and no other has more space. -/
theorem scan_of_bid {entries : List (Nat × Nat)} {space : Nat}
    (hOrder : entries.Pairwise fun first later => first.1 < later.1) (hMem : (sys, space) ∈ entries)
    (hSpace : 0 < space) (hMost : ∀ entry ∈ entries, entry.1 ≠ sys → sys < entry.1 ∧ entry.2 ≤ space) :
    scan sys ⟨none, 0⟩ entries = ⟨some (drivePath sys), space⟩ := by
  cases entries with
  | nil => cases hMem
  | cons entry rest =>
      obtain ⟨hBefore, -⟩ := List.pairwise_cons.mp hOrder
      have hFirst : entry = (sys, space) := by
        rcases List.mem_cons.mp hMem with hSame | hLater
        · exact hSame.symm
        · have hLess := hBefore _ hLater
          have hAfter := (hMost entry List.mem_cons_self (Nat.ne_of_lt hLess)).1
          exact absurd hAfter (Nat.lt_asymm hLess)
      subst hFirst
      have hOthers : ∀ entry ∈ rest, entry.1 ≠ sys := fun entry hEntry => Nat.ne_of_gt (hBefore entry hEntry)
      have hStep : scan sys ⟨none, 0⟩ ((sys, space) :: rest) =
          scan sys ⟨some (drivePath sys), space⟩ rest := by
        show scan sys (consider sys ⟨none, 0⟩ sys space) rest = _
        rw [consider_system_none, if_pos hSpace]
      rw [hStep]
      rcases @scan_of_system sys space rest hOthers with ⟨-, hSame⟩ | ⟨⟨entry, hEntry, hMore⟩, -⟩
      · exact hSame
      · have hAtMost := (hMost entry (List.mem_cons_of_mem _ hEntry) (hOthers entry hEntry)).2
        exact absurd hMore (Nat.not_lt.mpr hAtMost)

theorem entries_pairwise (drives : Drives) :
    drives.entries.Pairwise fun first later => first.1 < later.1 := by
  unfold entries
  rw [List.pairwise_filterMap]
  refine List.Pairwise.imp ?_ List.pairwise_lt_range'
  intro first later hLess entry hEntry other hOther
  have hLetter : ∀ (letter : Nat) (entry : Nat × Nat),
      (if drives.present letter then (drives.availableSpace letter).map fun space => (letter, space)
        else none) = some entry → entry.1 = letter := by
    intro letter entry hFound
    split at hFound
    · obtain ⟨space, -, rfl⟩ := Option.map_eq_some_iff.mp hFound
      rfl
    · cases hFound
  rw [hLetter first entry hEntry, hLetter later other hOther]
  exact hLess

end Scan

theorem drivePath_injective {first second : Nat} (hSame : drivePath first = drivePath second) :
    first = second := (List.cons.inj hSame).1

/-- Recordings are saved where they should be unless the system drive outbids the others. -/
theorem savesWell_iff (drives : Drives) : drives.SavesWell ↔ ¬ drives.SystemOutbids := by
  have hRoot : drives.saveRoot = ((scan drives.sysDriveLetter ⟨none, 0⟩ drives.entries).drive).getD
      (drivePath drives.sysDriveLetter) := by
    unfold saveRoot
    rw [foldl_visit]
  rcases @scan_cases drives.sysDriveLetter _ drives.entries_pairwise with
    ⟨letter, space, hScan, hMem, hOther, hMost⟩ | ⟨hNone, hScan⟩ | ⟨space, hMem, hSpace, hScan, hLess⟩
  · rw [hScan] at hRoot
    have hReadable := (mem_entries drives _).mp hMem
    refine iff_of_true ⟨fun _ => ⟨letter, space, hReadable, hOther, hRoot, ?_⟩, ?_⟩ ?_
    · exact fun letter' space' hFound hNot => hMost (letter', space') ((mem_entries drives _).mpr hFound) hNot
    · exact fun hNo => absurd ⟨letter, space, hReadable, hOther⟩ hNo
    · rintro ⟨system, hSystem, hPositive, -, hAll⟩
      have hBid := @scan_of_bid drives.sysDriveLetter _ system drives.entries_pairwise
        ((mem_entries drives _).mpr hSystem) hPositive fun entry hEntry =>
          hAll entry.1 entry.2 ((mem_entries drives entry).mp hEntry)
      rw [hBid] at hScan
      exact hOther (drivePath_injective (Option.some.inj (congrArg Best.drive hScan))).symm
  · rw [hScan] at hRoot
    have hNo : ¬ ∃ letter space, drives.Readable letter space ∧ letter ≠ drives.sysDriveLetter := by
      rintro ⟨letter, space, hReadable, hNot⟩
      exact hNot (hNone (letter, space) ((mem_entries drives _).mpr hReadable))
    refine iff_of_true ⟨fun hSome => absurd hSome hNo, fun _ => hRoot⟩ ?_
    rintro ⟨_, _, _, hSome, _⟩
    exact hNo hSome
  · rw [hScan] at hRoot
    by_cases hSome : ∃ letter space, drives.Readable letter space ∧ letter ≠ drives.sysDriveLetter
    · refine iff_of_false ?_ ?_
      · intro hWell
        obtain ⟨letter, _, _, hNot, hSame, _⟩ := hWell.other hSome
        exact hNot (drivePath_injective (hSame.symm.trans hRoot))
      · intro hNot
        refine hNot ⟨space, (mem_entries drives _).mp hMem, hSpace, hSome, fun letter space' hFound hOther => ?_⟩
        exact hLess (letter, space') ((mem_entries drives _).mpr hFound) hOther
    · refine iff_of_true ⟨fun hYes => absurd hYes hSome, fun _ => hRoot⟩ ?_
      rintro ⟨_, _, _, hYes, _⟩
      exact hSome hYes

/-- A system drive C with more space than the other drive D. -/
def roomyC : Drives where
  present letter := decide (letter = 67 ∨ letter = 68)
  availableSpace letter := if letter = 67 then some 200 else some 100
  systemDrive := some [67, 58]

theorem roomyC_saves_on_system : ¬ ∀ drives : Drives, drives.SavesWell := by
  intro hClaim
  obtain ⟨letter, _, _, hNot, hSame, _⟩ := (hClaim roomyC).other
    ⟨68, 100, ⟨by decide, by decide, by decide⟩, by decide⟩
  have hRoot : roomyC.saveRoot = drivePath 67 := by decide
  exact hNot (drivePath_injective (hSame.symm.trans hRoot))

end Drives

end HibtDesk.Employee
