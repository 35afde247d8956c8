import Mathlib.Data.List.Basic

/-! Directories as finite trees. -/
namespace Storage

/-- What a directory holds, entry after entry. A directory that does not open shows nothing
of what is inside it. -/
inductive Folder (Label File : Type) where
  | empty
  | file (label : Label) (content : File) (rest : Folder Label File)
  | link (label : Label) (toFolder : Bool) (rest : Folder Label File)
  | folder (label : Label) (opens : Bool) (inside rest : Folder Label File)
  deriving DecidableEq, Repr

inductive Item (Label File : Type) where
  | file (content : File)
  | link (toFolder : Bool)
  | folder (opens : Bool) (inside : Folder Label File)
  deriving DecidableEq, Repr

namespace Folder
variable {Label File : Type}

def entries : Folder Label File → List (Label × Item Label File)
  | empty => []
  | file label content rest => (label, .file content) :: rest.entries
  | link label toFolder rest => (label, .link toFolder) :: rest.entries
  | folder label opens inside rest => (label, .folder opens inside) :: rest.entries

/-- The files below a directory, with the labels on the way to each, as they are met when
every directory is gone through where it stands. -/
def files (keep : Label → Bool) : Folder Label File → List (List Label × File)
  | empty => []
  | file label content rest =>
      if keep label then ([label], content) :: rest.files keep else rest.files keep
  | link _ _ rest => rest.files keep
  | folder label opens inside rest =>
      if keep label && opens then
        (inside.files keep).map (fun found => (label :: found.1, found.2)) ++ rest.files keep
      else rest.files keep

/-- The way from a directory to one inside it, or to itself, through directories that are
kept and open. -/
inductive Leads (keep : Label → Bool) : Folder Label File → List Label → Folder Label File → Prop
  | self (folder : Folder Label File) : Leads keep folder [] folder
  | into {outer inside inner : Folder Label File} {label : Label} {labels : List Label}
      (hEntry : (label, Item.folder true inside) ∈ outer.entries) (hKeep : keep label = true)
      (hRest : Leads keep inside labels inner) : Leads keep outer (label :: labels) inner

section Ways
variable {keep : Label → Bool} {outer : Folder Label File}

/-- What holds of all entries that are met holds of the first, of those below it, and of the
others and those below them. -/
theorem forall_leads_cons_iff {rest : Folder Label File} {entry : Label × Item Label File}
    (hEntries : outer.entries = entry :: rest.entries)
    {property : List Label → Label × Item Label File → Prop} :
    (∀ way inner, Leads keep outer way inner → ∀ met ∈ inner.entries, property way met) ↔
      property [] entry ∧
        (∀ inside, entry.2 = .folder true inside → keep entry.1 = true →
          ∀ way inner, Leads keep inside way inner →
            ∀ met ∈ inner.entries, property (entry.1 :: way) met) ∧
        ∀ way inner, Leads keep rest way inner → ∀ met ∈ inner.entries, property way met := by
  constructor
  · intro hAll
    refine ⟨hAll [] outer (.self outer) entry (by simp [hEntries]), ?_, ?_⟩
    · intro inside hInside hKeep way inner hLeads
      refine hAll _ inner (.into ?_ hKeep hLeads)
      rw [hEntries, ← hInside]
      exact List.mem_cons_self
    · intro way inner hLeads met hMet
      cases hLeads with
      | self => exact hAll [] outer (.self outer) met (by simp [hEntries, hMet])
      | into hEntry hKeep hRest =>
          exact hAll _ inner (.into (by simp [hEntries, hEntry]) hKeep hRest) met hMet
  · rintro ⟨hFirst, hBelow, hRest⟩ way inner hLeads met hMet
    cases hLeads with
    | self =>
        rw [hEntries] at hMet
        rcases List.mem_cons.mp hMet with rfl | hMet
        · exact hFirst
        · exact hRest [] rest (.self rest) met hMet
    | into hEntry hKeep hInside =>
        rw [hEntries] at hEntry
        rcases List.mem_cons.mp hEntry with rfl | hEntry
        · exact hBelow _ rfl hKeep _ inner hInside met hMet
        · exact hRest _ inner (.into hEntry hKeep hInside) met hMet

end Ways

end Folder

end Storage
