import HibtDesk.Clipboard.FileContents

/-! Where the reader of a copied file is. The seek is left out if the offset kept beside
the reader is the one asked for, so that the two have to agree, also after a read that
has failed. -/
namespace HibtDesk.Clipboard

open Lexical (Text)

namespace LocalFile

/-- The reader a call has, if the file is open or can be opened. -/
def reader (fs : FileSystem) (file : LocalFile) : Option Reader :=
  match file.handle with
  | some reader => some reader
  | none => if file.isDir then none else (fs.node file.path).map fun node => { node := node, pos := 0 }

/-- `read_exact` fails, with the file open and the seek, if there is one, done. -/
def FailsMidway (fs : FileSystem) (faults : ReadFaults) (file : LocalFile) (length offset : Nat) : Prop :=
  ∃ reader ∈ file.reader fs, ¬ (offset ≠ file.offset ∧ faults.seekFails = true) ∧
    (0 < length ∧ faults.readFails = true ∨
      (fs.content reader.node).length - (if offset ≠ file.offset then offset else reader.pos) < length)

instance (fs : FileSystem) (faults : ReadFaults) (file : LocalFile) (length offset : Nat) :
    Decidable (FailsMidway fs faults file length offset) :=
  inferInstanceAs (Decidable (∃ _ ∈ _, _ ∧ _))

section Outcomes
variable (fs : FileSystem) (faults : ReadFaults) (file : LocalFile) (length offset : Nat)

theorem loadHandle_snd : (file.loadHandle fs).2 = { file with handle := file.reader fs } := by
  unfold loadHandle reader
  cases hHandle : file.handle with
  | some reader =>
      cases file
      cases hHandle
      simp
  | none =>
      cases hDir : file.isDir with
      | true =>
          cases file
          cases hHandle
          dsimp only at hDir
          simp [hDir]
      | false =>
          cases hNode : fs.node file.path with
          | some node => simp
          | none =>
              cases file
              cases hHandle
              dsimp only at hDir
              simp [hDir]

theorem readExactAt_of_none (hReader : file.reader fs = none) :
    ∃ error, file.readExactAt fs faults length offset =
      (.error error, { file with handle := none }) := by
  have hLoaded := loadHandle_snd fs file
  rw [hReader] at hLoaded
  unfold readExactAt
  generalize file.loadHandle fs = loaded at hLoaded
  obtain ⟨result, after⟩ := loaded
  obtain rfl : after = _ := hLoaded
  cases result with
  | error error => exact ⟨error, rfl⟩
  | ok _ => exact ⟨_, rfl⟩

theorem readExactAt_of_some {reader : Reader} (hReader : file.reader fs = some reader) :
    file.readExactAt fs faults length offset =
      { file with handle := some reader : LocalFile }.readFrom fs faults reader length offset := by
  have hLoaded := loadHandle_snd fs file
  have hOk : (file.loadHandle fs).1 = .ok () := by
    refine (loadHandle_eq_ok_iff fs file).mpr fun hDir hNone => ?_
    unfold LocalFile.reader at hReader
    rw [hNone] at hReader
    cases hNode : fs.node file.path with
    | some node => rfl
    | none => simp [hDir, hNode] at hReader
  rw [hReader] at hLoaded
  unfold readExactAt
  generalize file.loadHandle fs = loaded at hLoaded hOk
  obtain ⟨result, after⟩ := loaded
  obtain rfl : after = _ := hLoaded
  obtain rfl : result = _ := hOk
  rfl

/-- What a read can come to: an error before anything is read, an error midway, or the
bytes from the place of the reader on. -/
theorem readExactAt_cases :
    (¬ FailsMidway fs faults file length offset ∧
      (file.reader fs = none ∨ offset ≠ file.offset ∧ faults.seekFails = true) ∧ ∃ error,
      file.readExactAt fs faults length offset = (.error error, { file with handle := file.reader fs })) ∨
    (FailsMidway fs faults file length offset ∧ ∃ reader error, file.reader fs = some reader ∧
      file.readExactAt fs faults length offset =
        (.error error, { file with handle := some { reader with pos := faults.stopsAt } })) ∨
    ¬ FailsMidway fs faults file length offset ∧ ∃ reader after, file.reader fs = some reader ∧
      let pos := if offset ≠ file.offset then offset else reader.pos
      let bytes := ((fs.content reader.node).drop pos).take length
      bytes.length = length ∧ file.readExactAt fs faults length offset = (.ok bytes, after) ∧
        (after = { file with handle := none, offset := 0 } ∨
          after = { file with
            handle := some { reader with pos := pos + length }, offset := offset + length }) := by
  cases hReader : file.reader fs with
  | none =>
      obtain ⟨error, hRead⟩ := readExactAt_of_none fs faults file length offset hReader
      refine Or.inl ⟨?_, Or.inl rfl, error, hRead⟩
      rintro ⟨reader, hSome, -⟩
      rw [hReader] at hSome
      cases hSome
  | some reader =>
      rw [readExactAt_of_some fs faults file length offset hReader]
      have hMidway : FailsMidway fs faults file length offset ↔
          ¬ (offset ≠ file.offset ∧ faults.seekFails = true) ∧
            (0 < length ∧ faults.readFails = true ∨ (fs.content reader.node).length -
              (if offset ≠ file.offset then offset else reader.pos) < length) := by
        unfold FailsMidway
        rw [hReader]
        simp
      unfold readFrom
      rw [hMidway]
      by_cases hSeek : offset ≠ file.offset ∧ faults.seekFails = true
      · rw [if_pos hSeek]
        exact Or.inl ⟨fun hNot => hNot.1 hSeek, Or.inr hSeek, _, rfl⟩
      rw [if_neg hSeek]
      dsimp only
      generalize hPos : (if offset ≠ file.offset then offset else reader.pos) = pos
      have hLength : (((fs.content reader.node).drop pos).take length).length < length ↔
          (fs.content reader.node).length - pos < length := by
        rw [List.length_take, List.length_drop]
        omega
      by_cases hFails : 0 < length ∧ faults.readFails = true ∨
          (((fs.content reader.node).drop pos).take length).length < length
      · rw [if_pos hFails]
        exact Or.inr (Or.inl ⟨⟨hSeek, hFails.imp_right hLength.mp⟩, reader, _, rfl, rfl⟩)
      · rw [if_neg hFails]
        have hFull : (((fs.content reader.node).drop pos).take length).length = length :=
          (List.length_take_le ..).antisymm (Nat.not_lt.mp fun hShort => hFails (Or.inr hShort))
        refine Or.inr (Or.inr ⟨fun hBoth => hFails (hBoth.2.imp_right hLength.mpr), reader, ?_⟩)
        rw [hPos]
        by_cases hEnd : file.size ≤ offset + length
        · rw [if_pos hEnd]
          exact ⟨_, rfl, hFull, rfl, Or.inl rfl⟩
        · rw [if_neg hEnd]
          exact ⟨_, rfl, hFull, rfl, Or.inr rfl⟩

end Outcomes

/-- The path leads nowhere or to one file, which does not change. -/
structure Holds (path : Text) (node : Nat) (content : Bytes) (fs : FileSystem) : Prop where
  leads : ∀ found, fs.node path = some found → found = node
  holds : fs.content node = content

/-- Whatever is read from now on is what stands in the file. -/
def Trusty (node : Nat) (content : Bytes) (file : LocalFile) : Prop :=
  ∀ (fs : FileSystem) (faults : ReadFaults) (length offset : Nat) (bytes : Bytes),
    Holds file.path node content fs → (file.readExactAt fs faults length offset).1 = .ok bytes →
      bytes = (content.drop offset).take length

/-- A file is closed at its start, and the reader of an open one reads that file. -/
structure Shaped (node : Nat) (file : LocalFile) : Prop where
  closed : file.handle = none → file.offset = 0
  node : ∀ reader, file.handle = some reader → reader.node = node

/-- What follows the reader follows the offset as well. -/
structure Sound (node : Nat) (content : Bytes) (file : LocalFile) : Prop extends Shaped node file where
  follows : ∀ reader, file.handle = some reader → content.drop reader.pos <+: content.drop file.offset

/-- A call for one file, with the files as they are then. -/
inductive FileOp where
  | loadHandle (fs : FileSystem)
  | readExactAt (fs : FileSystem) (faults : ReadFaults) (length offset : Nat)

namespace FileOp

def fs : FileOp → FileSystem
  | loadHandle fs => fs
  | readExactAt fs .. => fs

/-- A read that fails midway leaves the reader where what follows is what follows the
offset kept beside it, as far as there is any. -/
def LeavesPlaced (content : Bytes) (file : LocalFile) : FileOp → Prop
  | loadHandle _ => True
  | readExactAt fs faults length offset =>
      FailsMidway fs faults file length offset →
        content.drop faults.stopsAt <+: content.drop file.offset

instance (content : Bytes) (file : LocalFile) : (op : FileOp) → Decidable (op.LeavesPlaced content file)
  | loadHandle _ => .isTrue trivial
  | readExactAt .. => inferInstanceAs (Decidable (_ → _))

end FileOp

def step (file : LocalFile) : FileOp → LocalFile
  | .loadHandle fs => (file.loadHandle fs).2
  | .readExactAt fs faults length offset => (file.readExactAt fs faults length offset).2

theorem sameFile_step (file : LocalFile) (op : FileOp) : file.SameFile (file.step op) := by
  cases op with
  | loadHandle fs => exact sameFile_loadHandle fs file
  | readExactAt fs faults length offset => exact sameFile_readExactAt ..

theorem follows_of_eq {first second : Bytes} (hSame : first = second) : first <+: second :=
  hSame ▸ List.prefix_rfl

theorem drop_follows {first second : Bytes} (hFollows : first <+: second) (n : Nat) :
    first.drop n <+: second.drop n := by
  obtain ⟨rest, rfl⟩ := hFollows
  rw [List.drop_append]
  exact List.prefix_append _ _

theorem take_eq_of_follows {first second : Bytes} (hFollows : first <+: second) {length : Nat}
    (hLength : (first.take length).length = length) : first.take length = second.take length := by
  obtain ⟨rest, rfl⟩ := hFollows
  rw [List.length_take] at hLength
  rw [List.take_append_of_le_length (by omega)]

section Sound
variable {node : Nat} {content : Bytes} {file : LocalFile} {fs : FileSystem} {faults : ReadFaults}
  {length offset : Nat}

theorem sound_tryOpen (node : Nat) (content : Bytes) (relativeRoot path : Text) (mt : Metadata) :
    (tryOpen relativeRoot path mt).Sound node content where
  closed := fun _ => rfl
  node := fun _ hHandle => by cases hHandle
  follows := fun _ hHandle => by cases hHandle

/-- The reader that a call gets is the one that is kept, or is at the start. -/
theorem reader_cases {reader : Reader} (hReader : file.reader fs = some reader) :
    file.handle = some reader ∨
      file.handle = none ∧ fs.node file.path = some reader.node ∧ reader.pos = 0 := by
  unfold LocalFile.reader at hReader
  split at hReader
  · rename_i kept hKept
    exact Or.inl (hKept.trans hReader)
  · rename_i hNone
    split at hReader
    · cases hReader
    · obtain ⟨found, hFound, rfl⟩ := Option.map_eq_some_iff.mp hReader
      exact Or.inr ⟨hNone, hFound, rfl⟩

theorem handle_eq_none_of_reader (hReader : file.reader fs = none) : file.handle = none := by
  unfold LocalFile.reader at hReader
  split at hReader
  · cases hReader
  · assumption

theorem Shaped.reader (hShaped : file.Shaped node) (hHolds : Holds file.path node content fs)
    {reader : Reader} (hReader : file.reader fs = some reader) : reader.node = node := by
  rcases reader_cases hReader with hKept | ⟨-, hFound, -⟩
  · exact hShaped.node reader hKept
  · exact hHolds.leads _ hFound

theorem Sound.reader (hSound : file.Sound node content) {reader : Reader}
    (hReader : file.reader fs = some reader) :
    content.drop reader.pos <+: content.drop file.offset := by
  rcases reader_cases hReader with hKept | ⟨hNone, -, hPos⟩
  · exact hSound.follows reader hKept
  · have hSame : reader.pos = file.offset := by rw [hPos, hSound.closed hNone]
    exact follows_of_eq (congrArg content.drop hSame)

/-- Calls leave a closed file at its start and an open one with a reader of its own. -/
theorem Shaped.step (hShaped : file.Shaped node) {op : FileOp}
    (hHolds : Holds file.path node content op.fs) : (file.step op).Shaped node := by
  have hLoaded : { file with handle := file.reader op.fs : LocalFile }.Shaped node := by
    refine ⟨fun hNone => hShaped.closed (handle_eq_none_of_reader hNone), ?_⟩
    intro reader hReader
    exact hShaped.reader hHolds hReader
  have hOpen : ∀ (after : LocalFile) (found pos : Nat), after.handle = some { node := found, pos := pos } →
      found = node → after.Shaped node := by
    intro after found pos hAfter hNode
    refine ⟨(fun hNone => by rw [hAfter] at hNone; cases hNone), ?_⟩
    intro reader hReader
    rw [hAfter] at hReader
    rw [← Option.some.inj hReader]
    exact hNode
  cases op with
  | loadHandle fs =>
      rw [LocalFile.step, loadHandle_snd]
      exact hLoaded
  | readExactAt fs faults length offset =>
      rw [LocalFile.step]
      rcases readExactAt_cases fs faults file length offset with
        ⟨-, -, error, hCase⟩ | ⟨-, reader, error, hReader, hCase⟩ |
          ⟨-, reader, after, hReader, -, hCase, rfl | rfl⟩
      · rw [hCase]
        exact hLoaded
      · rw [hCase]
        exact hOpen _ reader.node _ rfl (hShaped.reader hHolds hReader)
      · rw [hCase]
        exact ⟨fun _ => rfl, fun _ hNone => by cases hNone⟩
      · rw [hCase]
        exact hOpen _ reader.node _ rfl (hShaped.reader hHolds hReader)

/-- A read that is done gives the bytes that stand in the file. -/
theorem Sound.trusty (hSound : file.Sound node content) : file.Trusty node content := by
  intro fs faults length offset bytes hHolds hRead
  rcases readExactAt_cases fs faults file length offset with
    ⟨-, -, error, hCase⟩ | ⟨-, reader, error, -, hCase⟩ | ⟨-, reader, after, hReader, hLength, hCase, -⟩
  · rw [hCase] at hRead
    cases hRead
  · rw [hCase] at hRead
    cases hRead
  · rw [hCase] at hRead
    obtain rfl := Except.ok.inj hRead
    have hFollows := hSound.reader hReader
    rw [hSound.toShaped.reader hHolds hReader, hHolds.holds] at hLength ⊢
    by_cases hOffset : offset = file.offset
    · rw [if_neg (not_not.mpr hOffset)] at hLength ⊢
      rw [take_eq_of_follows hFollows hLength, hOffset]
    · rw [if_pos hOffset]

/-- A file whose reader is not where the offset says gives other bytes than stand there. -/
theorem Trusty.sound (hTrusty : file.Trusty node content) (hShaped : file.Shaped node) :
    file.Sound node content := by
  refine ⟨hShaped, fun reader hReader => ?_⟩
  let fs : FileSystem :=
    { node := fun _ => some node, isFile := fun _ => true, content := fun _ => content }
  have hHolds : Holds file.path node content fs := ⟨fun found hFound => (Option.some.inj hFound).symm, rfl⟩
  have hHandle : file.reader fs = some reader := by
    unfold LocalFile.reader
    rw [hReader]
  have hSame : ¬ (file.offset ≠ file.offset) := not_not.mpr rfl
  rcases readExactAt_cases fs noFaults file (content.length - reader.pos) file.offset with
    ⟨-, hNone | hSeek, -⟩ | ⟨⟨found, hFound, -, hFails | hShort⟩, -⟩ |
      ⟨-, found, after, hFound, -, hCase, -⟩
  · rw [hHandle] at hNone
    cases hNone
  · exact absurd hSeek.1 hSame
  · cases hFails.2
  · rw [hHandle] at hFound
    obtain rfl := Option.some.inj hFound
    rw [if_neg hSame] at hShort
    exact absurd hShort (lt_irrefl _)
  · rw [hHandle] at hFound
    obtain rfl := Option.some.inj hFound
    rw [if_neg hSame] at hCase
    have hRead := hTrusty fs noFaults _ _ _ hHolds (congrArg Prod.fst hCase)
    have hAll : (content.drop reader.pos).take (content.length - reader.pos) = content.drop reader.pos :=
      List.take_of_length_le (List.length_drop ..).le
    rw [hAll] at hRead
    rw [hRead]
    exact List.take_prefix _ _

/-- A call keeps what follows the reader and the offset together if and only if it is no
read that fails midway and leaves the reader somewhere else. -/
theorem Sound.step_iff (hSound : file.Sound node content) {op : FileOp}
    (hHolds : Holds file.path node content op.fs) :
    (file.step op).Sound node content ↔ op.LeavesPlaced content file := by
  have hShaped := hSound.toShaped.step hHolds
  cases op with
  | loadHandle fs =>
      rw [LocalFile.step, loadHandle_snd] at hShaped ⊢
      exact iff_of_true ⟨hShaped, fun reader hReader => hSound.reader hReader⟩ trivial
  | readExactAt fs faults length offset =>
      rw [LocalFile.step] at hShaped ⊢
      rcases readExactAt_cases fs faults file length offset with
        ⟨hNot, -, error, hCase⟩ | ⟨hMidway, reader, error, hReader, hCase⟩ |
          ⟨hNot, reader, after, hReader, -, hCase, rfl | rfl⟩
      · rw [hCase] at hShaped ⊢
        refine iff_of_true ⟨hShaped, fun reader hReader => hSound.reader hReader⟩ ?_
        exact fun hMidway => absurd hMidway hNot
      · rw [hCase] at hShaped ⊢
        constructor
        · intro hAfter _
          exact hAfter.follows _ rfl
        · intro hPlaced
          refine ⟨hShaped, fun found hFound => ?_⟩
          rw [← Option.some.inj hFound]
          exact hPlaced hMidway
      · rw [hCase] at hShaped ⊢
        refine iff_of_true ⟨hShaped, fun _ hNone => ?_⟩ fun hMidway => absurd hMidway hNot
        cases hNone
      · rw [hCase] at hShaped ⊢
        refine iff_of_true ⟨hShaped, fun found hFound => ?_⟩ fun hMidway => absurd hMidway hNot
        rw [← Option.some.inj hFound]
        dsimp only
        rw [← List.drop_drop, ← List.drop_drop]
        apply drop_follows
        by_cases hOffset : offset = file.offset
        · rw [if_neg (not_not.mpr hOffset), hOffset]
          exact hSound.reader hReader
        · exact follows_of_eq (by rw [if_pos hOffset])

end Sound

/-- The same file all along a run, with the calls that are for it. -/
theorem always_holds {path : Text} {node : Nat} {content : Bytes} {ops : List FileOp}
    (hHolds : ∀ op ∈ ops, Holds path node content op.fs) (file : LocalFile) (hPath : file.path = path) :
    Trace.Always step (fun file op => Holds file.path node content op.fs) file ops := by
  induction ops generalizing file with
  | nil => trivial
  | cons op rest ih =>
      obtain ⟨hNow, hLater⟩ := List.forall_mem_cons.mp hHolds
      refine ⟨?_, ih hLater _ ((sameFile_step file op).path.trans hPath)⟩
      show Holds file.path node content op.fs
      rw [hPath]
      exact hNow

/-- Whatever is read of a file is what stands there, in every state of a run, if and
only if every read that fails midway leaves the reader where what follows is what follows
the offset kept beside it. -/
theorem trusty_iff_leavesPlaced {path : Text} {node : Nat} {content : Bytes} {ops : List FileOp}
    (hHolds : ∀ op ∈ ops, Holds path node content op.fs) (relativeRoot : Text) (mt : Metadata) :
    let first := tryOpen relativeRoot path mt
    (∀ past, past <+: ops → (Trace.run step first past).Trusty node content) ↔
      Trace.Always step (fun file op => op.LeavesPlaced content file) first ops := by
  intro first
  have hSteps := always_holds hHolds first rfl
  have hGives : ∀ file, Sound node content file → Trusty node content file := by
    intro file hSound
    exact hSound.trusty
  refine Trace.agrees_iff_always step hGives ?_ ?_
    (sound_tryOpen node content relativeRoot path mt) hSteps
  · intro file op hSound hNow hPlaced
    exact (hSound.step_iff hNow).mpr hPlaced
  · intro file op hSound hNow hNot hTrusty
    exact hNot ((hSound.step_iff hNow).mp (hTrusty.sound (hSound.toShaped.step hNow)))

/-- One file of four bytes, wherever it is looked for. -/
def fourBytes : FileSystem where
  node := fun _ => some 0
  isFile := fun _ => true
  content := fun _ => [1, 2, 3, 4]

theorem holds_fourBytes (path : Text) : Holds path 0 [1, 2, 3, 4] fourBytes where
  leads := fun _ hFound => (Option.some.inj hFound).symm
  holds := rfl

/-- A read that fails before it gets anywhere does no harm to the next ones. -/
theorem trusty_after_harmless_failure :
    (Trace.run step (tryOpen "/d".toList "/d/a".toList (fileOf 4))
      [.readExactAt fourBytes noFaults 1 0,
        .readExactAt fourBytes { seekFails := false, readFails := true, stopsAt := 1 } 2 1]).Trusty
      0 [1, 2, 3, 4] := by
  refine (trusty_iff_leavesPlaced ?_ "/d".toList (fileOf 4)).mpr ?_ _
    List.prefix_rfl
  · intro op hOp
    simp only [List.mem_cons, List.not_mem_nil, or_false] at hOp
    rcases hOp with rfl | rfl
    · exact holds_fourBytes _
    · exact holds_fourBytes _
  · decide

/-- After a read that gets two bytes and fails, the third byte is taken for the first. -/
theorem stale_after_failed_read :
    ¬ ∀ (path relativeRoot : Text) (mt : Metadata) (node : Nat) (content : Bytes) (ops : List FileOp),
      (∀ op ∈ ops, Holds path node content op.fs) →
      (Trace.run step (tryOpen relativeRoot path mt) ops).Trusty node content := by
  intro hClaim
  have hTrusty := hClaim "/d/a".toList "/d".toList (fileOf 4) 0 [1, 2, 3, 4]
    [.readExactAt fourBytes { seekFails := false, readFails := true, stopsAt := 2 } 3 0] (by
      intro op hOp
      rw [List.mem_singleton.mp hOp]
      exact holds_fourBytes _)
  have hBytes := hTrusty fourBytes noFaults 1 0 [3] (holds_fourBytes _) (by decide)
  exact absurd hBytes (by decide)

end LocalFile

end HibtDesk.Clipboard
