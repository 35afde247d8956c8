import Mathlib.Data.List.Count
import Mathlib.Data.List.Find
import Mathlib.Data.List.Nodup
import Mathlib.Order.Basic

/-! Counting votes. The votes are counted in the order in which they come, and of those
with the highest count the one that came first is chosen. -/
namespace Plurality

variable {α : Type*} [DecidableEq α]

/-- Count one vote more. -/
def bump (vote : α) : List (α × Nat) → List (α × Nat)
  | [] => [(vote, 1)]
  | (other, count) :: rest =>
      if other = vote then (other, count + 1) :: rest else (other, count) :: bump vote rest

def tally (votes : List α) : List (α × Nat) := votes.foldl (fun counts vote => bump vote counts) []

/-- The highest of the counts. -/
def maxCount : List (α × Nat) → Nat
  | [] => 0
  | entry :: rest => max entry.2 (maxCount rest)

/-- The first choice with the highest count. -/
def winner (votes : List α) : Option α :=
  ((tally votes).find? fun entry => entry.2 == maxCount (tally votes)).map (·.1)

/-- No other choice has more votes. -/
def Leads (votes : List α) (choice : α) : Prop := ∀ other ∈ votes, votes.count other ≤ votes.count choice

instance (votes : List α) (choice : α) : Decidable (Leads votes choice) :=
  inferInstanceAs (Decidable (∀ _ ∈ _, _))

/-- The count of a choice among those there are. -/
def get (choice : α) : List (α × Nat) → Nat
  | [] => 0
  | (other, count) :: rest => if other = choice then count else get choice rest

section Bump
variable (vote choice : α) (counts : List (α × Nat))

theorem get_bump : get choice (bump vote counts) = get choice counts + if choice = vote then 1 else 0 := by
  induction counts with
  | nil =>
      by_cases hSame : choice = vote
      · simp [bump, get, hSame]
      · simp [bump, get, hSame, Ne.symm hSame]
  | cons entry rest ih =>
      obtain ⟨other, count⟩ := entry
      unfold bump
      by_cases hOther : other = vote
      · rw [if_pos hOther]
        unfold get
        by_cases hChoice : other = choice
        · have hSame : choice = vote := hChoice.symm.trans hOther
          rw [if_pos hChoice, if_pos hChoice, if_pos hSame]
        · have hNot : choice ≠ vote := fun hSame => hChoice (hOther.trans hSame.symm)
          rw [if_neg hChoice, if_neg hChoice, if_neg hNot, Nat.add_zero]
      · rw [if_neg hOther]
        unfold get
        by_cases hChoice : other = choice
        · have hNot : choice ≠ vote := fun hSame => hOther (hChoice.trans hSame)
          rw [if_pos hChoice, if_pos hChoice, if_neg hNot, Nat.add_zero]
        · rw [if_neg hChoice, if_neg hChoice, ih]

theorem keys_bump :
    (bump vote counts).map (·.1) =
      if vote ∈ counts.map (·.1) then counts.map (·.1) else counts.map (·.1) ++ [vote] := by
  induction counts with
  | nil => rfl
  | cons entry rest ih =>
      obtain ⟨other, count⟩ := entry
      unfold bump
      by_cases hOther : other = vote
      · simp [hOther]
      · rw [if_neg hOther, List.map_cons, ih]
        have hIn : vote ∈ other :: rest.map (·.1) ↔ vote ∈ rest.map (·.1) := by
          simp [Ne.symm hOther]
        by_cases hRest : vote ∈ rest.map (·.1)
        · rw [if_pos hRest, List.map_cons, if_pos (hIn.mpr hRest)]
        · rw [if_neg hRest, List.map_cons, if_neg fun hAll => hRest (hIn.mp hAll), List.cons_append]

theorem nodup_bump (hKeys : (counts.map (·.1)).Nodup) : ((bump vote counts).map (·.1)).Nodup := by
  rw [keys_bump]
  split
  · exact hKeys
  · rename_i hNew
    refine List.nodup_append.mpr ⟨hKeys, List.nodup_singleton _, ?_⟩
    intro key hKey other hOther hSame
    rw [List.mem_singleton.mp hOther] at hSame
    exact hNew (hSame ▸ hKey)

end Bump

section Tally
variable (votes : List α) (counts : List (α × Nat))

theorem get_foldl (choice : α) :
    get choice (votes.foldl (fun counts vote => bump vote counts) counts) =
      get choice counts + votes.count choice := by
  induction votes generalizing counts with
  | nil => rfl
  | cons vote rest ih =>
      rw [List.foldl_cons, ih, get_bump]
      by_cases hSame : choice = vote
      · rw [if_pos hSame, hSame, List.count_cons_self]
        omega
      · rw [if_neg hSame, List.count_cons_of_ne (Ne.symm hSame), Nat.add_zero]

theorem nodup_foldl (hKeys : (counts.map (·.1)).Nodup) :
    ((votes.foldl (fun counts vote => bump vote counts) counts).map (·.1)).Nodup := by
  induction votes generalizing counts with
  | nil => exact hKeys
  | cons vote rest ih => exact ih _ (nodup_bump vote counts hKeys)

/-- What is first among the choices that are counted is first among the votes. -/
theorem find?_foldl (P : α → Bool) :
    ((votes.foldl (fun counts vote => bump vote counts) counts).map (·.1)).find? P =
      (counts.map (·.1) ++ votes).find? P := by
  induction votes generalizing counts with
  | nil => simp
  | cons vote rest ih =>
      rw [List.foldl_cons, ih, keys_bump]
      split
      · rename_i hThere
        rw [List.find?_append, List.find?_append, List.find?_cons]
        cases hFound : (counts.map (·.1)).find? P with
        | some found => rfl
        | none =>
            have hNot : P vote = false := by simpa using List.find?_eq_none.mp hFound vote hThere
            simp [hNot]
      · rw [List.append_assoc]
        rfl

theorem get_of_mem {choice : α} {count : Nat} (hKeys : (counts.map (·.1)).Nodup)
    (hMem : (choice, count) ∈ counts) : get choice counts = count := by
  induction counts with
  | nil => cases hMem
  | cons entry rest ih =>
      obtain ⟨other, first⟩ := entry
      obtain ⟨hNew, hRest⟩ := List.nodup_cons.mp hKeys
      unfold get
      rcases List.mem_cons.mp hMem with hFirst | hLater
      · obtain ⟨rfl, rfl⟩ := Prod.mk.inj hFirst
        exact if_pos rfl
      · rw [if_neg, ih hRest hLater]
        rintro rfl
        exact hNew (List.mem_map_of_mem (f := (·.1)) hLater)

omit [DecidableEq α] in
theorem le_maxCount {entry : α × Nat} (hMem : entry ∈ counts) : entry.2 ≤ maxCount counts := by
  induction counts with
  | nil => cases hMem
  | cons first rest ih =>
      unfold maxCount
      rcases List.mem_cons.mp hMem with rfl | hLater
      · exact Nat.le_max_left _ _
      · exact Nat.le_trans (ih hLater) (Nat.le_max_right _ _)

omit [DecidableEq α] in
theorem exists_maxCount (hSome : counts ≠ []) : ∃ entry ∈ counts, entry.2 = maxCount counts := by
  induction counts with
  | nil => exact absurd rfl hSome
  | cons first rest ih =>
      unfold maxCount
      by_cases hRest : rest = []
      · subst hRest
        exact ⟨first, List.mem_cons_self, (Nat.max_zero _).symm⟩
      · obtain ⟨entry, hEntry, hMax⟩ := ih hRest
        rcases Nat.le_total first.2 (maxCount rest) with hLe | hGe
        · exact ⟨entry, List.mem_cons_of_mem _ hEntry, hMax.trans (Nat.max_eq_right hLe).symm⟩
        · exact ⟨first, List.mem_cons_self, (Nat.max_eq_left hGe).symm⟩

end Tally

section Winner
variable (votes : List α)

theorem nodup_tally : ((tally votes).map (·.1)).Nodup := nodup_foldl votes [] List.nodup_nil

theorem find?_tally (P : α → Bool) : ((tally votes).map (·.1)).find? P = votes.find? P :=
  find?_foldl votes [] P

theorem mem_keys_tally (choice : α) : choice ∈ (tally votes).map (·.1) ↔ choice ∈ votes := by
  have hFind := congrArg Option.isSome (find?_tally votes fun vote => decide (vote = choice))
  rw [Bool.eq_iff_iff, List.find?_isSome, List.find?_isSome] at hFind
  simpa using hFind

theorem count_of_mem_tally {entry : α × Nat} (hMem : entry ∈ tally votes) :
    entry.2 = votes.count entry.1 := by
  have hGet : get entry.1 (tally votes) = entry.2 := get_of_mem (tally votes) (nodup_tally votes) hMem
  rw [← hGet]
  exact (get_foldl votes [] entry.1).trans (Nat.zero_add _)

/-- A counted choice has the highest count if and only if it leads. -/
theorem eq_maxCount_iff {entry : α × Nat} (hMem : entry ∈ tally votes) :
    entry.2 = maxCount (tally votes) ↔ Leads votes entry.1 := by
  have hCount := count_of_mem_tally votes hMem
  constructor
  · intro hMax other hOther
    obtain ⟨found, hFound, hSame⟩ := List.mem_map.mp ((mem_keys_tally votes other).mpr hOther)
    have hLe := le_maxCount (tally votes) hFound
    rw [count_of_mem_tally votes hFound, hSame] at hLe
    rw [← hCount, hMax]
    exact hLe
  · intro hLeads
    refine Nat.le_antisymm (le_maxCount (tally votes) hMem) ?_
    obtain ⟨found, hFound, hMax⟩ := exists_maxCount (tally votes) (List.ne_nil_of_mem hMem)
    have hVote : found.1 ∈ votes := (mem_keys_tally votes found.1).mp (List.mem_map_of_mem hFound)
    rw [← hMax, count_of_mem_tally votes hFound, hCount]
    exact hLeads found.1 hVote

/-- The winner is the first vote for a choice that no other has more votes than. -/
theorem winner_eq : winner votes = votes.find? fun vote => decide (Leads votes vote) := by
  have hSame : (tally votes).find? (fun entry => entry.2 == maxCount (tally votes)) =
      (tally votes).find? (fun entry => decide (Leads votes entry.1)) := by
    apply List.find?_congr
    intro entry hEntry
    rw [Bool.eq_iff_iff, beq_iff_eq, decide_eq_true_iff]
    exact eq_maxCount_iff votes hEntry
  have hKeys := find?_tally votes fun vote => decide (Leads votes vote)
  rw [List.find?_map] at hKeys
  rw [winner, hSame, ← hKeys]
  rfl

/-- Where there are votes, there is a winner. -/
theorem winner_eq_none_iff : winner votes = none ↔ votes = [] := by
  constructor
  · intro hNone
    by_contra hSome
    have hTally : tally votes ≠ [] := by
      intro hEmpty
      obtain ⟨vote, hVote⟩ := List.exists_mem_of_ne_nil votes hSome
      have hKey := (mem_keys_tally votes vote).mpr hVote
      rw [hEmpty] at hKey
      cases hKey
    obtain ⟨entry, hEntry, hMax⟩ := exists_maxCount (tally votes) hTally
    have hNot := List.find?_eq_none.mp (Option.map_eq_none_iff.mp hNone) entry hEntry
    exact hNot (beq_iff_eq.mpr hMax)
  · rintro rfl
    rfl

theorem mem_of_winner {choice : α} (hWinner : winner votes = some choice) : choice ∈ votes := by
  rw [winner_eq] at hWinner
  exact List.mem_of_find?_eq_some hWinner

theorem leads_of_winner {choice : α} (hWinner : winner votes = some choice) : Leads votes choice := by
  rw [winner_eq] at hWinner
  have hFound := List.find?_some hWinner
  exact of_decide_eq_true hFound

/-- A vote that leads wins if it comes first. -/
theorem winner_cons_of_leads {choice : α} {rest : List α} (hLeads : Leads (choice :: rest) choice) :
    winner (choice :: rest) = some choice := by
  rw [winner_eq]
  exact List.find?_cons_of_pos (decide_eq_true hLeads)

/-- Who leads does not depend on the order of the votes. -/
theorem leads_perm {votes others : List α} (hPerm : votes.Perm others) (choice : α) :
    Leads votes choice ↔ Leads others choice := by
  unfold Leads
  simp only [hPerm.mem_iff, hPerm.count_eq]

/-- Where only one choice leads, it wins in every order. -/
theorem winner_perm {votes others : List α} (hPerm : votes.Perm others)
    (hOnly : ∀ first ∈ votes, ∀ second ∈ votes, Leads votes first → Leads votes second → first = second) :
    winner votes = winner others := by
  cases hWinner : winner votes with
  | none =>
      have hNone := (winner_eq_none_iff votes).mp hWinner
      subst hNone
      exact ((winner_eq_none_iff others).mpr hPerm.symm.eq_nil).symm
  | some choice =>
      cases hOther : winner others with
      | none =>
          have hNone := (winner_eq_none_iff others).mp hOther
          subst hNone
          rw [(winner_eq_none_iff votes).mpr hPerm.eq_nil] at hWinner
          cases hWinner
      | some other =>
          have hMem : other ∈ votes := hPerm.mem_iff.mpr (mem_of_winner others hOther)
          have hLeads := (leads_perm hPerm other).mpr (leads_of_winner others hOther)
          rw [hOnly choice (mem_of_winner votes hWinner) other hMem (leads_of_winner votes hWinner) hLeads]

end Winner

end Plurality
