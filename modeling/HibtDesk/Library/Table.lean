import Mathlib.Data.List.Nodup
import Mathlib.Data.List.Perm.Basic

/-! Tables with one value for each key. The order of the entries is the one in which an
iteration over the table meets them, and nothing else. -/

structure Table (Key Value : Type*) where
  entries : List (Key × Value)
  nodup : (entries.map Prod.fst).Nodup

namespace Table

variable {Key Value Other : Type*} [DecidableEq Key]

def empty : Table Key Value := ⟨[], List.nodup_nil⟩

def lookup (table : Table Key Value) (key : Key) : Option Value := table.entries.lookup key

def contains (table : Table Key Value) (key : Key) : Bool := (table.lookup key).isSome

/-- Keep the entries that satisfy `keep`. -/
def retain (table : Table Key Value) (keep : Key → Value → Bool) : Table Key Value where
  entries := table.entries.filter fun (key, value) => keep key value
  nodup := table.nodup.sublist (List.filter_sublist.map _)

def remove (table : Table Key Value) (key : Key) : Table Key Value :=
  table.retain fun other _ => decide (other ≠ key)

def insert (table : Table Key Value) (key : Key) (value : Value) : Table Key Value where
  entries := (key, value) :: (table.remove key).entries
  nodup := by
    refine List.nodup_cons.mpr ⟨fun hMem => ?_, (table.remove key).nodup⟩
    obtain ⟨entry, hEntry, hKey⟩ := List.mem_map.mp hMem
    exact of_decide_eq_true (List.mem_filter.mp hEntry).2 hKey

/-- Insert the entries of another table. -/
def extend (table other : Table Key Value) : Table Key Value :=
  other.entries.foldl (fun table (key, value) => table.insert key value) table

/-- Change every value. -/
def map (table : Table Key Value) (change : Key → Value → Other) : Table Key Other where
  entries := table.entries.map fun (key, value) => (key, change key value)
  nodup := by
    rw [List.map_map]
    exact table.nodup

variable {table other : Table Key Value} {key : Key} {value : Value}

theorem lookup_eq_some_iff : table.lookup key = some value ↔ (key, value) ∈ table.entries := by
  obtain ⟨entries, nodup⟩ := table
  unfold lookup
  dsimp only
  induction entries with
  | nil => simp
  | cons entry rest ih =>
      obtain ⟨first, found⟩ := entry
      obtain ⟨hFresh, hRest⟩ := List.nodup_cons.mp nodup
      rw [List.lookup_cons, List.mem_cons]
      by_cases hKey : key = first
      · subst hKey
        have hNot : (key, value) ∉ rest := fun hMem => hFresh (List.mem_map.mpr ⟨_, hMem, rfl⟩)
        simp [hNot, eq_comm]
      · have hOther : (key == first) = false := beq_eq_false_iff_ne.mpr hKey
        simp [hOther, hKey, ih hRest]

theorem contains_iff : table.contains key = true ↔ ∃ value, table.lookup key = some value :=
  Option.isSome_iff_exists

@[simp] theorem lookup_empty (key : Key) : (empty : Table Key Value).lookup key = none := rfl

@[simp] theorem lookup_retain (table : Table Key Value) (keep : Key → Value → Bool) (key : Key) :
    (table.retain keep).lookup key = (table.lookup key).filter (keep key) := by
  refine Option.ext fun value => ?_
  rw [lookup_eq_some_iff, Option.filter_eq_some_iff, lookup_eq_some_iff]
  exact List.mem_filter

@[simp] theorem lookup_remove (table : Table Key Value) (gone key : Key) :
    (table.remove gone).lookup key = if key = gone then none else table.lookup key := by
  unfold remove
  rw [lookup_retain]
  split
  · rename_i hGone
    cases table.lookup key <;> simp [hGone]
  · rename_i hOther
    cases table.lookup key <;> simp [hOther]

@[simp] theorem lookup_insert (table : Table Key Value) (put : Key) (value : Value) (key : Key) :
    (table.insert put value).lookup key = if key = put then some value else table.lookup key := by
  change List.lookup key ((put, value) :: (table.remove put).entries) = _
  rw [List.lookup_cons]
  by_cases hKey : key = put
  · simp [hKey]
  · have hOther : (key == put) = false := beq_eq_false_iff_ne.mpr hKey
    rw [hOther, if_neg hKey]
    exact (lookup_remove table put key).trans (if_neg hKey)

@[simp] theorem lookup_map (table : Table Key Value) (change : Key → Value → Other) (key : Key) :
    (table.map change).lookup key = (table.lookup key).map (change key) := by
  refine Option.ext fun changed => ?_
  rw [lookup_eq_some_iff, Option.map_eq_some_iff]
  simp only [lookup_eq_some_iff]
  constructor
  · intro hMem
    obtain ⟨⟨first, value⟩, hEntry, hSame⟩ := List.mem_map.mp hMem
    cases hSame
    exact ⟨value, hEntry, rfl⟩
  · rintro ⟨value, hEntry, rfl⟩
    exact List.mem_map.mpr ⟨(key, value), hEntry, rfl⟩

theorem lookup_of_fresh {entries : List (Key × Value)} (hFresh : key ∉ entries.map Prod.fst) :
    entries.lookup key = none :=
  List.lookup_eq_none_iff.mpr fun entry hMem => by
    rw [bne_iff_ne]
    exact fun hSame => hFresh (List.mem_map.mpr ⟨entry, hMem, hSame.symm⟩)

/-- The order of the entries does not matter. -/
theorem lookup_of_perm {entries : List (Key × Value)} (hPerm : entries.Perm table.entries) (key : Key) :
    entries.lookup key = table.lookup key := by
  have hNodup : (entries.map Prod.fst).Nodup := (hPerm.map Prod.fst).nodup_iff.mpr table.nodup
  refine Option.ext fun value => ?_
  let permuted : Table Key Value := ⟨entries, hNodup⟩
  have hMem : permuted.lookup key = some value ↔ (key, value) ∈ entries := lookup_eq_some_iff
  exact hMem.trans (hPerm.mem_iff.trans lookup_eq_some_iff.symm)

/-- Doing to a table what concerns one key, for entries with different keys: only the entry
with the key matters to it. -/
theorem lookup_foldl {Given : Type*} (put : Table Key Value → Key → Given → Table Key Value)
    (result : Given → Option Value)
    (hPut : ∀ table key given other,
      (put table key given).lookup other = if other = key then result given else table.lookup other)
    {entries : List (Key × Given)} (hNodup : (entries.map Prod.fst).Nodup)
    (table : Table Key Value) (key : Key) :
    (entries.foldl (fun table (key, given) => put table key given) table).lookup key =
      match entries.lookup key with
      | some given => result given
      | none => table.lookup key := by
  induction entries generalizing table with
  | nil => rfl
  | cons entry rest ih =>
      obtain ⟨first, given⟩ := entry
      obtain ⟨hFresh, hRest⟩ := List.nodup_cons.mp hNodup
      rw [List.foldl_cons, ih hRest, hPut, List.lookup_cons]
      by_cases hKey : key = first
      · subst hKey
        simp [lookup_of_fresh hFresh]
      · have hOther : (key == first) = false := by simpa using hKey
        simp [hOther, hKey]

@[simp] theorem lookup_extend (table other : Table Key Value) (key : Key) :
    (table.extend other).lookup key = (other.lookup key).or (table.lookup key) := by
  unfold extend
  rw [lookup_foldl insert some (fun table put value key => lookup_insert table put value key) other.nodup]
  unfold lookup
  cases other.entries.lookup key <;> rfl

end Table
