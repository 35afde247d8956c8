import Mathlib.Logic.Function.Basic

/-! A disk of named files. A name refers to a file, and an open handle holds the
file itself, so that it follows the file when its name changes. No two names
refer to one file. -/
namespace Storage

variable {Name Byte : Type}

structure File (Byte : Type) where
  content : List Byte
  modified : Nat
  deriving DecidableEq, Repr

structure Disk (Name Byte : Type) where
  node : Name → Option Nat
  file : Nat → File Byte
  /-- The next file to be made. -/
  next : Nat
  node_lt : ∀ {name i}, node name = some i → i < next
  node_injective : ∀ {name other i}, node name = some i → node other = some i → name = other

/-- Put `data` over `content` from `pos` on, with `zero` in a gap before it. -/
def overwrite (zero : Byte) (content : List Byte) (pos : Nat) (data : List Byte) : List Byte :=
  content.take pos ++ List.replicate (pos - content.length) zero ++ data ++
    content.drop (pos + data.length)

theorem overwrite_end (zero : Byte) (content data : List Byte) :
    overwrite zero content content.length data = content ++ data := by
  simp [overwrite]

/-- Writing the next part of a text over a beginning of it gives a beginning again. -/
theorem overwrite_take (zero : Byte) (text : List Byte) {pos kept : Nat} (hPos : pos ≤ text.length)
    (hKept : pos ≤ kept) (count : Nat) :
    overwrite zero (text.take kept) pos ((text.drop pos).take count) =
      text.take (max kept (pos + count)) := by
  have hGap : pos - (text.take kept).length = 0 := by
    rw [List.length_take]
    omega
  have hCount : ((text.drop pos).take count).length = min count (text.length - pos) := by
    rw [List.length_take, List.length_drop]
  have hRest : (text.take kept).drop (pos + min count (text.length - pos)) =
      (text.drop (pos + count)).take (kept - (pos + count)) := by
    rw [List.drop_take]
    rcases Nat.le_total count (text.length - pos) with hLess | hMore
    · rw [Nat.min_eq_left hLess]
    · rw [Nat.min_eq_right hMore, List.drop_of_length_le (by omega),
        List.drop_of_length_le (by omega), List.take_nil, List.take_nil]
  have hMax : max kept (pos + count) = pos + (count + (kept - (pos + count))) := by omega
  unfold overwrite
  rw [hGap, hCount, hRest, List.take_take, Nat.min_eq_left hKept, List.replicate_zero,
    List.append_nil, hMax, List.take_add, List.append_assoc, List.take_add, List.drop_drop]

namespace Disk
variable [DecidableEq Name]

/-- A disk without files. -/
def empty [Inhabited Byte] : Disk Name Byte where
  node _ := none
  file _ := ⟨[], 0⟩
  next := 0
  node_lt h := by simp at h
  node_injective h := by simp at h

def lookup (disk : Disk Name Byte) (name : Name) : Option (File Byte) :=
  (disk.node name).map disk.file

def isThere (disk : Disk Name Byte) (name : Name) : Bool := (disk.node name).isSome

def remove (disk : Disk Name Byte) (name : Name) : Disk Name Byte where
  node := Function.update disk.node name none
  file := disk.file
  next := disk.next
  node_lt {other i} h := by
    by_cases hOther : other = name
    · simp [hOther] at h
    · rw [Function.update_of_ne hOther] at h
      exact disk.node_lt h
  node_injective {first second i} hFirst hSecond := by
    by_cases h1 : first = name
    · simp [h1] at hFirst
    · by_cases h2 : second = name
      · simp [h2] at hSecond
      · rw [Function.update_of_ne h1] at hFirst
        rw [Function.update_of_ne h2] at hSecond
        exact disk.node_injective hFirst hSecond

/-- Give a file, which no name refers to, a name. -/
def attach (disk : Disk Name Byte) (name : Name) (i : Nat) (hi : i < disk.next)
    (hFree : ∀ other, disk.node other ≠ some i) : Disk Name Byte where
  node := Function.update disk.node name (some i)
  file := disk.file
  next := disk.next
  node_lt {other j} h := by
    by_cases hOther : other = name
    · simp only [hOther, Function.update_self, Option.some.injEq] at h
      omega
    · rw [Function.update_of_ne hOther] at h
      exact disk.node_lt h
  node_injective {first second j} hFirst hSecond := by
    by_cases h1 : first = name
    · by_cases h2 : second = name
      · rw [h1, h2]
      · rw [h1, Function.update_self] at hFirst
        rw [Function.update_of_ne h2, ← hFirst] at hSecond
        exact absurd hSecond (hFree second)
    · by_cases h2 : second = name
      · rw [h2, Function.update_self] at hSecond
        rw [Function.update_of_ne h1, ← hSecond] at hFirst
        exact absurd hFirst (hFree first)
      · rw [Function.update_of_ne h1] at hFirst
        rw [Function.update_of_ne h2] at hSecond
        exact disk.node_injective hFirst hSecond

theorem node_remove_ne (disk : Disk Name Byte) {name : Name} {i : Nat}
    (hNode : disk.node name = some i) (other : Name) : (disk.remove name).node other ≠ some i := by
  by_cases hOther : other = name
  · simp [remove, hOther]
  · simp only [remove, Function.update_of_ne hOther]
    exact fun hSame => hOther (disk.node_injective hSame hNode)

/-- Change a file in place. -/
def modify (disk : Disk Name Byte) (i : Nat) (f : File Byte → File Byte) : Disk Name Byte :=
  { disk with file := Function.update disk.file i (f (disk.file i)) }

/-- `rename`; a name without a file is left alone. -/
def rename (disk : Disk Name Byte) (source target : Name) : Disk Name Byte :=
  match hNode : disk.node source with
  | none => disk
  | some i =>
      (disk.remove source).attach target i (disk.node_lt hNode) (disk.node_remove_ne hNode)

/-- Make room for one more file. -/
def grow (disk : Disk Name Byte) : Disk Name Byte :=
  { disk with next := disk.next + 1, node_lt := fun h => Nat.lt_succ_of_lt (disk.node_lt h) }

/-- Open a file for writing from scratch: an existing file is emptied. -/
def create (disk : Disk Name Byte) (name : Name) (now : Nat) : Disk Name Byte × Nat :=
  match disk.node name with
  | some i => (disk.modify i fun _ => ⟨[], now⟩, i)
  | none =>
      ((disk.grow.attach name disk.next (Nat.lt_succ_self _)
        (fun _ h => Nat.lt_irrefl _ (disk.node_lt h))).modify disk.next fun _ => ⟨[], now⟩,
        disk.next)

/-- Write through a handle. -/
def write (disk : Disk Name Byte) (zero : Byte) (i pos : Nat) (data : List Byte) (now : Nat) :
    Disk Name Byte :=
  disk.modify i fun file => ⟨overwrite zero file.content pos data, now⟩

/-- Replace a file by the given content. -/
def put (disk : Disk Name Byte) (name : Name) (data : List Byte) (now : Nat) : Disk Name Byte :=
  let (disk, i) := disk.create name now
  disk.modify i fun _ => ⟨data, now⟩

def setModified (disk : Disk Name Byte) (name : Name) (time : Nat) : Disk Name Byte :=
  match disk.node name with
  | some i => disk.modify i fun file => { file with modified := time }
  | none => disk

/-- What a name holds. -/
def content (disk : Disk Name Byte) (name : Name) : Option (List Byte) :=
  (disk.lookup name).map File.content

section Nodes
variable (disk : Disk Name Byte)

@[simp] theorem node_remove (name other : Name) :
    (disk.remove name).node other = if other = name then none else disk.node other := by
  simp [remove, Function.update_apply]

omit [DecidableEq Name] in
@[simp] theorem node_modify (i : Nat) (f : File Byte → File Byte) :
    (disk.modify i f).node = disk.node := rfl

theorem node_rename (source target other : Name) :
    (disk.rename source target).node other =
      if (disk.node source).isNone then disk.node other
      else if other = target then disk.node source
      else if other = source then none
      else disk.node other := by
  unfold rename
  split
  · rename_i hNode
    simp [hNode]
  · rename_i i hNode
    simp [hNode, attach, Function.update_apply]

@[simp] theorem node_create_self (name : Name) (now : Nat) :
    (disk.create name now).1.node name = some (disk.create name now).2 := by
  unfold create
  split
  · rename_i i hNode
    exact hNode
  · simp [attach]

theorem node_create_of_ne {name other : Name} (hOther : other ≠ name) (now : Nat) :
    (disk.create name now).1.node other = disk.node other := by
  unfold create
  split
  · rfl
  · simp [attach, grow, Function.update_of_ne hOther]

theorem node_put_of_ne {name other : Name} (hOther : other ≠ name) (data : List Byte) (now : Nat) :
    (disk.put name data now).node other = disk.node other :=
  disk.node_create_of_ne hOther now

end Nodes

section Contents
variable {disk : Disk Name Byte}

/-- A change in place shows under the file's own name only. -/
theorem content_modify {name : Name} {i : Nat} (hNode : disk.node name = some i)
    (f : File Byte → File Byte) (other : Name) :
    (disk.modify i f).content other =
      if other = name then some (f (disk.file i)).content else disk.content other := by
  unfold content lookup
  split
  · rename_i hOther
    simp [hOther, hNode, modify]
  · rename_i hOther
    cases hFound : disk.node other with
    | none => simp [hFound]
    | some j =>
        have hDistinct : j ≠ i := by
          rintro rfl
          exact hOther (disk.node_injective hFound hNode)
        simp [hFound, modify, Function.update_of_ne hDistinct]

theorem content_remove (name other : Name) :
    (disk.remove name).content other = if other = name then none else disk.content other := by
  unfold content lookup
  rw [node_remove]
  split <;> rfl

theorem content_rename (source target other : Name) :
    (disk.rename source target).content other =
      if (disk.content source).isNone then disk.content other
      else if other = target then disk.content source
      else if other = source then none
      else disk.content other := by
  have hFile : (disk.rename source target).file = disk.file := by
    unfold rename
    split <;> rfl
  unfold content lookup
  rw [node_rename, hFile]
  cases disk.node source with
  | none => simp
  | some i =>
      simp only [Option.map_some, Option.isNone_some, Bool.false_eq_true, if_false]
      split
      · rfl
      · split <;> rfl

theorem content_create (name : Name) (now : Nat) (other : Name) :
    (disk.create name now).1.content other =
      if other = name then some [] else disk.content other := by
  unfold create
  split
  · rename_i i hNode
    rw [content_modify hNode]
  · rename_i hNode
    have hSelf : (disk.grow.attach name disk.next (Nat.lt_succ_self _)
        (fun _ h => Nat.lt_irrefl _ (disk.node_lt h))).node name = some disk.next := by
      simp [attach]
    rw [content_modify hSelf]
    split
    · rfl
    · rename_i hOther
      unfold content lookup
      simp [attach, grow, Function.update_of_ne hOther]

theorem content_put (name : Name) (data : List Byte) (now : Nat) (other : Name) :
    (disk.put name data now).content other =
      if other = name then some data else disk.content other := by
  unfold put
  simp only
  rw [content_modify (disk.node_create_self name now), content_create]
  split <;> rfl

theorem content_write {name : Name} {i : Nat} (hNode : disk.node name = some i) (zero : Byte)
    (pos : Nat) (data : List Byte) (now : Nat) (other : Name) :
    (disk.write zero i pos data now).content other =
      if other = name then
        (disk.content name).map fun content => overwrite zero content pos data
      else disk.content other := by
  unfold write
  rw [content_modify hNode]
  simp [content, lookup, hNode]

@[simp] theorem content_setModified (name : Name) (time : Nat) (other : Name) :
    (disk.setModified name time).content other = disk.content other := by
  unfold setModified
  split
  · rename_i i hNode
    rw [content_modify hNode]
    split
    · rename_i hOther
      simp [hOther, content, lookup, hNode]
    · rfl
  · rfl

omit [DecidableEq Name] in
theorem isThere_eq (name : Name) : disk.isThere name = (disk.content name).isSome := by
  simp [isThere, content, lookup]

end Contents

end Disk

end Storage
