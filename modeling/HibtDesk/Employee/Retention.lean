import HibtDesk.Library.UnixNames
import Mathlib.Algebra.BigOperators.Group.List.Basic
import Mathlib.Algebra.Order.Ring.Int
import Mathlib.Data.List.Nodup

/-! Recordings are not kept for ever. What is older than two days is deleted, and then the
oldest of the rest until what is left fits. -/
namespace HibtDesk.Employee.Retention

open Lexical (Text)
open Lexical.Unix (splitAtDot)

/-- An entry of the directory. Its metadata may not be readable, nor the time in it, which is
in nanoseconds. -/
structure Entry where
  name : Text
  metadata : Option (Nat × Option Int)

structure FileInfo where
  path : Text
  size : Nat
  modified : Int
  deriving DecidableEq

/-- Two days, in nanoseconds. -/
def retentionPeriod : Int := 2 * 24 * 3600 * 1000000000

def maxTotalSize : Nat := 5 * 1024 * 1024 * 1024

/-- An addition does not fit into 64 bits. -/
structure Overflow where

def isMp4 (entry : Entry) : Bool := decide ((splitAtDot entry.name).2 = some "mp4".toList)

/-- `duration_since` fails for times in the future. -/
def isOld (now : Int) (file : FileInfo) : Bool :=
  decide (file.modified ≤ now) && decide (retentionPeriod < now - file.modified)

/-- An mp4 file of which the size and the time are known. -/
def fileInfo (entry : Entry) : Option FileInfo :=
  if isMp4 entry then
    match entry.metadata with
    | some (size, some modified) => some ⟨entry.name, size, modified⟩
    | _ => none
  else none

/-- An addition of 64 bits, which panics or wraps around. -/
def addU64 (overflowChecks : Bool) (a b : Nat) : Except Overflow Nat :=
  if a + b < 2 ^ 64 then .ok (a + b)
  else if overflowChecks then .error ⟨⟩ else .ok ((a + b) % 2 ^ 64)

/-- The first pass: the young files, their size, and what is deleted for its age. -/
structure Scan where
  files : List FileInfo
  totalSize : Nat
  forAge : List Text

def visit (overflowChecks : Bool) (now : Int) (s : Scan) (entry : Entry) : Except Overflow Scan :=
  match fileInfo entry with
  | some file =>
      if isOld now file then .ok { s with forAge := s.forAge ++ [file.path] }
      else do
        let totalSize ← addU64 overflowChecks s.totalSize file.size
        return { s with files := s.files ++ [file], totalSize }
  | none => .ok s

/-- The files to delete for their size, from the oldest on; `fails` tells which cannot be. -/
def deleteOldest (fails : Text → Bool) (totalSize : Nat) : List FileInfo → List FileInfo
  | [] => []
  | file :: rest =>
      if totalSize ≤ maxTotalSize then []
      else
        file :: deleteOldest fails (if fails file.path then totalSize else totalSize - file.size) rest

/-- What is asked to be deleted. -/
structure Asked where
  forAge : List Text
  forSize : List FileInfo

def Asked.paths (asked : Asked) : List Text := asked.forAge ++ asked.forSize.map (·.path)

def cleanupOldFiles (overflowChecks : Bool) (now : Int) (fails : Text → Bool) (entries : List Entry) :
    Except Overflow Asked := do
  let s ← entries.foldlM (visit overflowChecks now) ⟨[], 0, []⟩
  if maxTotalSize < s.totalSize then
    return ⟨s.forAge,
      deleteOldest fails s.totalSize (s.files.mergeSort fun a b => decide (a.modified ≤ b.modified))⟩
  else return ⟨s.forAge, []⟩

def totalOf (files : List FileInfo) : Nat := (files.map (·.size)).sum

def mp4Files (entries : List Entry) : List FileInfo := entries.filterMap fileInfo

def youngFiles (now : Int) (entries : List Entry) : List FileInfo :=
  (mp4Files entries).filter fun file => !isOld now file

/-- Deleted, of those that were asked to be. -/
def deleted (fails : Text → Bool) (asked : List FileInfo) (file : FileInfo) : Bool :=
  asked.any (fun other => other.path = file.path) && !fails file.path

/-- What is asked to be deleted is all that is old, of the rest only the oldest and only as
long as the rest does not fit, and nothing but mp4 files. -/
structure Retains (now : Int) (fails : Text → Bool) (entries : List Entry) (asked : Asked) : Prop where
  old : ∀ file ∈ mp4Files entries, isOld now file = true → file.path ∈ asked.forAge
  fits : (∀ path ∈ asked.paths, fails path = false) →
    totalOf ((mp4Files entries).filter fun file => decide (file.path ∉ asked.paths)) ≤ maxTotalSize
  order : ∀ file ∈ asked.forSize, ∀ kept ∈ youngFiles now entries, kept.path ∉ asked.paths →
    file.modified ≤ kept.modified
  needed : ∀ before file after, asked.forSize = before ++ file :: after →
    maxTotalSize < totalOf ((youngFiles now entries).filter fun file => !deleted fails before file)
  onlyMp4 : ∀ path ∈ asked.paths, ∃ entry ∈ entries, entry.name = path ∧ isMp4 entry = true

/-- Cleaning up returns, no addition overflows, and the right files are asked for. -/
def CleansUp (overflowChecks : Bool) (now : Int) (fails : Text → Bool) (entries : List Entry) : Prop :=
  (∃ asked, cleanupOldFiles true now fails entries = .ok asked) ∧
    ∃ asked, cleanupOldFiles overflowChecks now fails entries = .ok asked ∧ Retains now fails entries asked

section Totals

theorem totalOf_cons (file : FileInfo) (rest : List FileInfo) :
    totalOf (file :: rest) = file.size + totalOf rest := List.sum_cons

theorem totalOf_append (first second : List FileInfo) :
    totalOf (first ++ second) = totalOf first + totalOf second := by
  unfold totalOf
  rw [List.map_append, List.sum_append]

theorem totalOf_perm {first second : List FileInfo} (hPerm : first.Perm second) :
    totalOf first = totalOf second := (hPerm.map _).sum_eq

theorem totalOf_filter_add (P : FileInfo → Bool) (files : List FileInfo) :
    totalOf (files.filter P) + totalOf (files.filter fun file => !P file) = totalOf files := by
  rw [← totalOf_append]
  exact totalOf_perm (List.filter_append_perm P files)

end Totals

section Scan
variable {now : Int}

/-- As long as the young files do not get too large, the pass collects them and the old ones. -/
theorem foldlM_visit_ok (overflowChecks : Bool) (entries : List Entry) (s : Scan)
    (hFits : s.totalSize + totalOf (youngFiles now entries) < 2 ^ 64) :
    entries.foldlM (visit overflowChecks now) s =
      .ok ⟨s.files ++ youngFiles now entries, s.totalSize + totalOf (youngFiles now entries),
        s.forAge ++ ((mp4Files entries).filter (isOld now)).map (·.path)⟩ := by
  induction entries generalizing s with
  | nil => simp [youngFiles, mp4Files, totalOf]; rfl
  | cons entry rest ih =>
      rw [List.foldlM_cons]
      cases hInfo : fileInfo entry with
      | none =>
          have hMp4 : mp4Files (entry :: rest) = mp4Files rest := List.filterMap_cons_none hInfo
          have hYoung : youngFiles now (entry :: rest) = youngFiles now rest := by
            unfold youngFiles
            rw [hMp4]
          have hVisit : visit overflowChecks now s entry = .ok s := by
            unfold visit
            rw [hInfo]
          rw [hYoung] at hFits
          rw [hVisit, hYoung, hMp4]
          exact ih s hFits
      | some file =>
          have hMp4 : mp4Files (entry :: rest) = file :: mp4Files rest := List.filterMap_cons_some hInfo
          by_cases hOld : isOld now file = true
          · have hYoung : youngFiles now (entry :: rest) = youngFiles now rest := by
              unfold youngFiles
              rw [hMp4, List.filter_cons_of_neg (by simp [hOld])]
            have hVisit : visit overflowChecks now s entry =
                .ok { s with forAge := s.forAge ++ [file.path] } := by
              unfold visit
              rw [hInfo]
              exact if_pos hOld
            rw [hYoung] at hFits
            rw [hVisit, hYoung, hMp4, List.filter_cons_of_pos hOld]
            refine (ih { s with forAge := s.forAge ++ [file.path] } hFits).trans ?_
            simp
          · have hYoung : youngFiles now (entry :: rest) = file :: youngFiles now rest := by
              unfold youngFiles
              rw [hMp4, List.filter_cons_of_pos (by simp [hOld])]
            rw [hYoung, totalOf_cons] at hFits
            have hVisit : visit overflowChecks now s entry =
                .ok { s with files := s.files ++ [file], totalSize := s.totalSize + file.size } := by
              unfold visit addU64
              rw [hInfo]
              dsimp only
              rw [if_neg hOld, if_pos (by omega)]
              rfl
            rw [hVisit, hYoung, hMp4, List.filter_cons_of_neg hOld, totalOf_cons]
            refine (ih { s with files := s.files ++ [file], totalSize := s.totalSize + file.size } ?_).trans ?_
            · dsimp only
              omega
            · simp [Nat.add_assoc]

/-- Young files that are too large panic where overflows are checked. -/
theorem foldlM_visit_error (entries : List Entry) (s : Scan) (hLess : s.totalSize < 2 ^ 64)
    (hMore : 2 ^ 64 ≤ s.totalSize + totalOf (youngFiles now entries)) :
    entries.foldlM (visit true now) s = .error ⟨⟩ := by
  induction entries generalizing s with
  | nil =>
      simp only [youngFiles, mp4Files, totalOf, List.filterMap_nil, List.filter_nil, List.map_nil,
        List.sum_nil] at hMore
      omega
  | cons entry rest ih =>
      rw [List.foldlM_cons]
      unfold visit
      cases hInfo : fileInfo entry with
      | none =>
          have hYoung : youngFiles now (entry :: rest) = youngFiles now rest := by
            unfold youngFiles mp4Files
            rw [List.filterMap_cons_none hInfo]
          rw [hYoung] at hMore
          exact ih s hLess hMore
      | some file =>
          have hMp4 : mp4Files (entry :: rest) = file :: mp4Files rest := List.filterMap_cons_some hInfo
          dsimp only
          by_cases hOld : isOld now file = true
          · have hYoung : youngFiles now (entry :: rest) = youngFiles now rest := by
              unfold youngFiles
              rw [hMp4, List.filter_cons_of_neg (by simp [hOld])]
            rw [hYoung] at hMore
            rw [if_pos hOld]
            exact ih { s with forAge := s.forAge ++ [file.path] } hLess hMore
          · have hYoung : youngFiles now (entry :: rest) = file :: youngFiles now rest := by
              unfold youngFiles
              rw [hMp4, List.filter_cons_of_pos (by simp [hOld])]
            rw [hYoung, totalOf_cons] at hMore
            rw [if_neg hOld]
            unfold addU64
            by_cases hFits : s.totalSize + file.size < 2 ^ 64
            · rw [if_pos hFits]
              refine ih { s with files := s.files ++ [file], totalSize := s.totalSize + file.size } hFits ?_
              dsimp only
              omega
            · rw [if_neg hFits]
              rfl

end Scan

/-- What is freed by deleting what can be deleted. -/
def freed (fails : Text → Bool) (files : List FileInfo) : Nat :=
  totalOf (files.filter fun file => !fails file.path)

/-- The files deleted for their size are the first ones, as many as are needed. -/
theorem deleteOldest_spec (fails : Text → Bool) (files : List FileInfo) (totalSize : Nat) :
    ∃ count ≤ files.length, deleteOldest fails totalSize files = files.take count ∧
      (count < files.length → totalSize - freed fails (files.take count) ≤ maxTotalSize) ∧
      ∀ less < count, maxTotalSize < totalSize - freed fails (files.take less) := by
  induction files generalizing totalSize with
  | nil => exact ⟨0, Nat.le_refl _, rfl, fun hNo => absurd hNo (Nat.lt_irrefl _),
      fun _ hNo => absurd hNo (Nat.not_lt_zero _)⟩
  | cons file rest ih =>
      unfold deleteOldest
      by_cases hFits : totalSize ≤ maxTotalSize
      · rw [if_pos hFits]
        refine ⟨0, Nat.zero_le _, rfl, fun _ => ?_, fun _ hNo => absurd hNo (Nat.not_lt_zero _)⟩
        exact Nat.le_trans (Nat.sub_le _ _) hFits
      · rw [if_neg hFits]
        obtain ⟨count, hCount, hTake, hEnough, hNeeded⟩ :=
          ih (if fails file.path then totalSize else totalSize - file.size)
        have hFreed : ∀ some : Nat, totalSize - freed fails ((file :: rest).take (some + 1)) =
            (if fails file.path then totalSize else totalSize - file.size) - freed fails (rest.take some) := by
          intro some
          unfold freed
          rw [List.take_succ_cons]
          cases hFails : fails file.path with
          | true => simp [hFails]
          | false => simp [hFails, totalOf_cons, Nat.sub_sub]
        refine ⟨count + 1, Nat.succ_le_succ hCount, ?_, fun hLess => ?_, fun less hLess => ?_⟩
        · rw [hTake]
          rfl
        · rw [hFreed]
          exact hEnough (Nat.lt_of_succ_lt_succ hLess)
        · cases less with
          | zero => exact Nat.lt_of_not_le hFits
          | succ less =>
              rw [hFreed]
              exact hNeeded less (Nat.lt_of_succ_lt_succ hLess)

section Retains
variable {now : Int} {fails : Text → Bool} {entries : List Entry}

/-- The young files, the oldest first. -/
def oldestFirst (now : Int) (entries : List Entry) : List FileInfo :=
  (youngFiles now entries).mergeSort fun a b => decide (a.modified ≤ b.modified)

theorem oldestFirst_perm : (oldestFirst now entries).Perm (youngFiles now entries) :=
  List.mergeSort_perm _ _

theorem oldestFirst_sorted : (oldestFirst now entries).Pairwise fun a b => a.modified ≤ b.modified := by
  have hTrans : ∀ a b c : FileInfo, decide (a.modified ≤ b.modified) = true →
      decide (b.modified ≤ c.modified) = true → decide (a.modified ≤ c.modified) = true := by
    intro a b c hFirst hSecond
    exact decide_eq_true (Int.le_trans (of_decide_eq_true hFirst) (of_decide_eq_true hSecond))
  have hTotal : ∀ a b : FileInfo,
      (decide (a.modified ≤ b.modified) || decide (b.modified ≤ a.modified)) = true := by
    intro a b
    rw [Bool.or_eq_true, decide_eq_true_iff, decide_eq_true_iff]
    exact Int.le_total a.modified b.modified
  have hSorted : (oldestFirst now entries).Pairwise
      fun a b => decide (a.modified ≤ b.modified) = true :=
    List.pairwise_mergeSort hTrans hTotal _
  exact hSorted.imp of_decide_eq_true

/-- What is asked for, where nothing overflows. -/
def asks (now : Int) (fails : Text → Bool) (entries : List Entry) : Asked :=
  ⟨((mp4Files entries).filter (isOld now)).map (·.path),
    if maxTotalSize < totalOf (youngFiles now entries) then
      deleteOldest fails (totalOf (youngFiles now entries)) (oldestFirst now entries)
    else []⟩

theorem cleanupOldFiles_ok (overflowChecks : Bool) (hFits : totalOf (youngFiles now entries) < 2 ^ 64) :
    cleanupOldFiles overflowChecks now fails entries = .ok (asks now fails entries) := by
  unfold cleanupOldFiles asks oldestFirst
  rw [foldlM_visit_ok overflowChecks entries _ (by simpa using hFits)]
  simp only [List.nil_append, Nat.zero_add]
  show (if maxTotalSize < totalOf (youngFiles now entries) then _ else _) = _
  split <;> rfl

/-- The files deleted for their size are a beginning of the young ones, the oldest first. -/
theorem forSize_spec :
    ∃ count ≤ (oldestFirst now entries).length,
      (asks now fails entries).forSize = (oldestFirst now entries).take count ∧
      (count < (oldestFirst now entries).length → totalOf (youngFiles now entries) -
        freed fails ((oldestFirst now entries).take count) ≤ maxTotalSize) ∧
      ∀ less < count, maxTotalSize < totalOf (youngFiles now entries) -
        freed fails ((oldestFirst now entries).take less) := by
  unfold asks
  dsimp only
  split
  · exact deleteOldest_spec fails (oldestFirst now entries) (totalOf (youngFiles now entries))
  · rename_i hFits
    refine ⟨0, Nat.zero_le _, rfl, fun _ => ?_, fun _ hNo => absurd hNo (Nat.not_lt_zero _)⟩
    exact Nat.le_trans (Nat.sub_le _ _) (Nat.le_of_not_lt hFits)

theorem name_of_mem_mp4Files {file : FileInfo} (hFile : file ∈ mp4Files entries) :
    ∃ entry ∈ entries, entry.name = file.path ∧ isMp4 entry = true := by
  obtain ⟨entry, hEntry, hInfo⟩ := List.mem_filterMap.mp hFile
  unfold fileInfo at hInfo
  split at hInfo
  · rename_i hMp4
    split at hInfo
    · cases hInfo
      exact ⟨entry, hEntry, rfl, hMp4⟩
    · cases hInfo
  · cases hInfo

theorem nodup_mp4Files (hNames : (entries.map (·.name)).Nodup) :
    ((mp4Files entries).map (·.path)).Nodup := by
  have hSub : ((mp4Files entries).map (·.path)).Sublist (entries.map (·.name)) := by
    unfold mp4Files
    clear hNames
    induction entries with
    | nil => exact List.Sublist.refl _
    | cons entry rest ih =>
        cases hInfo : fileInfo entry with
        | none =>
            rw [List.filterMap_cons_none hInfo, List.map_cons]
            exact ih.cons _
        | some file =>
            have hPath : file.path = entry.name := by
              unfold fileInfo at hInfo
              split at hInfo
              · split at hInfo
                · cases hInfo
                  rfl
                · cases hInfo
              · cases hInfo
            rw [List.filterMap_cons_some hInfo, List.map_cons, List.map_cons, hPath]
            exact ih.cons_cons _
  exact hSub.nodup hNames

theorem nodup_youngFiles (hNames : (entries.map (·.name)).Nodup) :
    ((youngFiles now entries).map (·.path)).Nodup :=
  ((List.filter_sublist (p := fun file => !isOld now file)).map _).nodup (nodup_mp4Files hNames)

theorem deleted_eq (asked : List FileInfo) (file : FileInfo) :
    deleted fails asked file = (decide (file.path ∈ asked.map (·.path)) && !fails file.path) := by
  unfold deleted
  congr 1
  rw [Bool.eq_iff_iff, List.any_eq_true, decide_eq_true_iff, List.mem_map]
  simp only [decide_eq_true_iff]

/-- What is left of the young files after some of the oldest are deleted, as far as that goes. -/
theorem totalOf_left (hNames : (entries.map (·.name)).Nodup) (count : Nat) :
    totalOf ((youngFiles now entries).filter fun file =>
        !deleted fails ((oldestFirst now entries).take count) file) =
      totalOf (youngFiles now entries) - freed fails ((oldestFirst now entries).take count) := by
  have hPaths : ((oldestFirst now entries).map (·.path)).Nodup :=
    (oldestFirst_perm.map _).nodup_iff.mpr (nodup_youngFiles hNames)
  have hGone : ((oldestFirst now entries).filter fun file =>
      deleted fails ((oldestFirst now entries).take count) file) =
        ((oldestFirst now entries).take count).filter fun file => !fails file.path := by
    generalize oldestFirst now entries = files at hPaths
    conv_lhs => rw [← List.take_append_drop count files]
    rw [← List.take_append_drop count files, List.map_append, List.nodup_append] at hPaths
    rw [List.filter_append]
    have hFirst : (files.take count).filter (fun file => deleted fails (files.take count) file) =
        (files.take count).filter fun file => !fails file.path := by
      apply List.filter_congr
      intro file hFile
      have hIn : file.path ∈ (files.take count).map (·.path) := List.mem_map_of_mem hFile
      simp only [deleted_eq, hIn, decide_true, Bool.true_and]
    have hRest : (files.drop count).filter (fun file => deleted fails (files.take count) file) = [] := by
      rw [List.filter_eq_nil_iff]
      intro file hFile hDeleted
      have hIn : file.path ∈ (files.take count).map (·.path) :=
        of_decide_eq_true (Bool.and_eq_true_iff.mp ((deleted_eq ..).symm.trans hDeleted)).1
      exact hPaths.2.2 _ hIn _ (List.mem_map_of_mem hFile) rfl
    conv_lhs => rw [List.take_append_drop]
    rw [hFirst, hRest, List.append_nil]
  have hSplit := totalOf_filter_add (fun file => deleted fails ((oldestFirst now entries).take count) file)
    (oldestFirst now entries)
  rw [hGone, totalOf_perm oldestFirst_perm, totalOf_perm (oldestFirst_perm.filter _)] at hSplit
  unfold freed
  omega

section Succeeding
variable {count : Nat}

/-- Without failures, what is left are the young files that are not deleted. -/
theorem left_of_succeeding (hNames : (entries.map (·.name)).Nodup)
    (hForSize : (asks now fails entries).forSize = (oldestFirst now entries).take count)
    (hAll : ∀ path ∈ (asks now fails entries).paths, fails path = false) :
    (mp4Files entries).filter (fun file => decide (file.path ∉ (asks now fails entries).paths)) =
      (youngFiles now entries).filter fun file =>
        !deleted fails ((oldestFirst now entries).take count) file := by
  unfold youngFiles
  rw [List.filter_filter]
  apply List.filter_congr
  intro file hFile
  rw [Bool.eq_iff_iff, decide_eq_true_iff, Bool.and_eq_true_iff, Bool.not_eq_true', Bool.not_eq_true']
  unfold Asked.paths
  rw [hForSize, List.mem_append, not_or]
  constructor
  · rintro ⟨hYoung, hSize⟩
    refine ⟨?_, ?_⟩
    · rw [deleted_eq, decide_eq_false hSize, Bool.false_and]
    · rw [Bool.eq_false_iff]
      exact fun hOld => hYoung (List.mem_map_of_mem (List.mem_filter.mpr ⟨hFile, hOld⟩))
  · rintro ⟨hKept, hYoung⟩
    refine ⟨?_, ?_⟩
    · intro hAge
      obtain ⟨other, hOther, hSame⟩ := List.mem_map.mp hAge
      obtain ⟨hMem, hOld⟩ := List.mem_filter.mp hOther
      rw [List.inj_on_of_nodup_map (nodup_mp4Files hNames) hMem hFile hSame] at hOld
      rw [hOld] at hYoung
      cases hYoung
    · intro hSize
      have hPath : file.path ∈ (asks now fails entries).paths := by
        unfold Asked.paths
        rw [hForSize]
        exact List.mem_append_right _ hSize
      rw [deleted_eq, decide_eq_true hSize, hAll _ hPath] at hKept
      cases hKept

/-- Without failures, all that is asked for is freed. -/
theorem freed_of_succeeding
    (hForSize : (asks now fails entries).forSize = (oldestFirst now entries).take count)
    (hAll : ∀ path ∈ (asks now fails entries).paths, fails path = false) :
    freed fails ((oldestFirst now entries).take count) = totalOf ((oldestFirst now entries).take count) := by
  unfold freed
  congr 1
  rw [List.filter_eq_self]
  intro file hFile
  have hPath : file.path ∈ (asks now fails entries).paths := by
    unfold Asked.paths
    rw [hForSize]
    exact List.mem_append_right _ (List.mem_map_of_mem hFile)
  rw [hAll _ hPath]
  rfl

end Succeeding

/-- Where nothing overflows, what is asked for is right. -/
theorem retains_asks (hNames : (entries.map (·.name)).Nodup) :
    Retains now fails entries (asks now fails entries) := by
  obtain ⟨count, hCount, hForSize, hEnough, hNeeded⟩ := @forSize_spec now fails entries
  refine ⟨?_, ?_, ?_, ?_, ?_⟩
  · exact fun file hFile hOld => List.mem_map_of_mem (List.mem_filter.mpr ⟨hFile, hOld⟩)
  · intro hAll
    rw [left_of_succeeding hNames hForSize hAll, totalOf_left hNames]
    by_cases hAllOf : count < (oldestFirst now entries).length
    · exact hEnough hAllOf
    · have hTake : (oldestFirst now entries).take count = oldestFirst now entries :=
        List.take_of_length_le (Nat.le_of_not_lt hAllOf)
      rw [freed_of_succeeding hForSize hAll, hTake, totalOf_perm oldestFirst_perm, Nat.sub_self]
      exact Nat.zero_le _
  · intro file hFile kept hKept hNot
    rw [hForSize] at hFile
    have hSorted := @oldestFirst_sorted now entries
    rw [← List.take_append_drop count (oldestFirst now entries), List.pairwise_append] at hSorted
    refine hSorted.2.2 file hFile kept ?_
    have hThere : kept ∈ oldestFirst now entries := oldestFirst_perm.mem_iff.mpr hKept
    rw [← List.take_append_drop count (oldestFirst now entries), List.mem_append] at hThere
    refine hThere.resolve_left fun hTaken => hNot ?_
    unfold Asked.paths
    rw [hForSize]
    exact List.mem_append_right _ (List.mem_map_of_mem hTaken)
  · intro before file after hSplit
    rw [hForSize] at hSplit
    have hLength := congrArg List.length hSplit
    rw [List.length_take, List.length_append, List.length_cons] at hLength
    have hBefore : before = (oldestFirst now entries).take before.length := by
      have hTaken := congrArg (List.take before.length) hSplit
      rw [List.take_take, Nat.min_eq_left (by omega), List.take_left] at hTaken
      exact hTaken.symm
    rw [hBefore, totalOf_left hNames]
    exact hNeeded before.length (by omega)
  · intro path hPath
    rcases List.mem_append.mp hPath with hAge | hSize
    · obtain ⟨file, hFile, rfl⟩ := List.mem_map.mp hAge
      exact name_of_mem_mp4Files (List.mem_filter.mp hFile).1
    · obtain ⟨file, hFile, rfl⟩ := List.mem_map.mp hSize
      rw [hForSize] at hFile
      have hYoung := oldestFirst_perm.mem_iff.mp (List.mem_of_mem_take hFile)
      exact name_of_mem_mp4Files (List.mem_filter.mp hYoung).1

end Retains

/-- Cleaning up is right exactly if the size of the young files fits into 64 bits. -/
theorem cleansUp_iff (overflowChecks : Bool) (now : Int) (fails : Text → Bool) (entries : List Entry)
    (hNames : (entries.map (·.name)).Nodup) :
    CleansUp overflowChecks now fails entries ↔ totalOf (youngFiles now entries) < 2 ^ 64 := by
  constructor
  · rintro ⟨⟨asked, hAsked⟩, -⟩
    by_contra hMore
    unfold cleanupOldFiles at hAsked
    rw [foldlM_visit_error entries _ (by decide) (by simpa using Nat.le_of_not_lt hMore)] at hAsked
    cases hAsked
  · intro hFits
    exact ⟨⟨_, cleanupOldFiles_ok true hFits⟩, _, cleanupOldFiles_ok overflowChecks hFits, retains_asks hNames⟩

/-- Three recordings of which the sizes do not add up in 64 bits. -/
def hugeFiles : List Entry :=
  [⟨"a.mp4".toList, some (2 ^ 63 - 1, some 0)⟩, ⟨"b.mp4".toList, some (2 ^ 63 - 1, some 0)⟩,
    ⟨"c.mp4".toList, some (2 ^ 63 - 1, some 0)⟩]

theorem hugeFiles_overflow :
    ¬ ∀ (overflowChecks : Bool) (now : Int) (fails : Text → Bool) (entries : List Entry),
      (entries.map (·.name)).Nodup → CleansUp overflowChecks now fails entries := by
  intro hClaim
  obtain ⟨⟨asked, hAsked⟩, -⟩ := hClaim true 0 (fun _ => false) hugeFiles (by decide)
  have hPanics : hugeFiles.foldlM (visit true 0) ⟨[], 0, []⟩ = .error ⟨⟩ :=
    foldlM_visit_error hugeFiles _ (by decide) (by decide)
  unfold cleanupOldFiles at hAsked
  rw [hPanics] at hAsked
  cases hAsked

/-- An old recording and a young one. -/
def twoFiles : List Entry :=
  [⟨"a.mp4".toList, some (100, some 0)⟩, ⟨"b.mp4".toList, some (200, some 200000000000000)⟩]

theorem twoFiles_cleansUp :
    (twoFiles.map (·.name)).Nodup ∧ CleansUp true 300000000000000 (fun _ => true) twoFiles :=
  ⟨by decide, (cleansUp_iff true 300000000000000 (fun _ => true) twoFiles (by decide)).mpr (by decide)⟩

end HibtDesk.Employee.Retention
