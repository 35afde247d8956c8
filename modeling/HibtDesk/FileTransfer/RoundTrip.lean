import HibtDesk.FileTransfer.ReadSpec
import HibtDesk.FileTransfer.WriteSpec
import HibtDesk.Library.Trace

/-! A sender and a receiver in step: what the one reads in a turn is written by
the other. The content of every file arrives, unless the compressor fails on a
chunk: its empty output passes for the shorter form of the chunk, which is lost. -/
namespace HibtDesk.FileTransfer

open Lexical (Text Platform)

/-- The stay of the receiver at one file: what its stream holds, and by how much
the finished sizes of both ends have grown. -/
structure Visit where
  fileNum : Int
  content : Bytes
  sent : Nat
  received : Nat
  deriving DecidableEq, Repr

/-- Both ends, and the visits of the receiver, the latest first. -/
structure Transfer where
  sender : TransferJob
  receiver : TransferJob
  store : Store
  visits : List Visit

/-- What the stream of a job holds. -/
def TransferJob.streamContent (store : Store) (job : TransferJob) : Bytes :=
  match job.dataStream with
  | some (.fileStream file) => (store.disk.file file.node).content
  | some (.bufStream data _) => data
  | none => []

/-- Add to the latest visit, or begin a new one. -/
def note (fresh : Bool) (visit : Visit) : List Visit → List Visit
  | last :: visits =>
      if fresh then visit :: last :: visits
      else { visit with sent := last.sent + visit.sent, received := last.received + visit.received } ::
        visits
  | [] => [visit]

namespace Transfer

/-- The receiver writes a block, and the visit is noted. -/
def deliver (transfer : Transfer) (env : Env) (sender : TransferJob) (block : FileTransferBlock) :
    Transfer :=
  let (_, store, receiver) := transfer.receiver.write env .none transfer.store block
  { sender := sender
    receiver := receiver
    store := store
    visits :=
      note
        (asUsize block.fileNum != asUsize transfer.receiver.fileNum ||
          transfer.receiver.dataStream.isNone)
        { fileNum := block.fileNum
          content := receiver.streamContent store
          sent := sender.finishedSize - transfer.sender.finishedSize
          received := receiver.finishedSize - transfer.receiver.finishedSize }
        transfer.visits }

/-- A turn of the sender, and the block it reads, if any, written. -/
def step (source : Store) (transfer : Transfer) (turn : ReadPlan × Env) : Transfer :=
  match transfer.sender.readTurn source turn.1 with
  | (.ok (some block), sender) => transfer.deliver turn.2 sender block
  | (_, sender) => { transfer with sender := sender }

end Transfer

/-- What the turns spent on a content read: chunks, and in the end nothing. -/
def chunks (content : Bytes) : List Bytes :=
  if content = [] then [[]] else content.take bufSize :: chunks (content.drop bufSize)
termination_by content.length
decreasing_by
  have hSome : content.length ≠ 0 := by
    intro hZero
    exact absurd (List.eq_nil_of_length_eq_zero hZero) (by assumption)
  rw [List.length_drop, bufSize]
  omega

/-- What is left of a chunk at the other end. -/
def carried (turn : ReadPlan × Env) (name : Text) (chunk : Bytes) : Bytes :=
  let (data, compressed) := TransferJob.packChunk turn.1 (some name) chunk
  if compressed then decompress turn.2 data else data

/-- The compressor does not fail on a chunk it is asked to compress. -/
def Survives (turn : ReadPlan × Env) (name : Text) (chunk : Bytes) : Prop :=
  chunk ≠ [] → isCompressedFile name = false → (turn.1.zstdCompress chunk).isSome = true

/-- The codec inverts what it made, and makes nothing of nothing. -/
structure Codec (turn : ReadPlan × Env) : Prop where
  inverts : ∀ data packed, turn.1.zstdCompress data = some packed →
    turn.2.zstdDecodeAll packed = some data
  empty : (turn.2.zstdDecodeAll []).getD [] = []

theorem chunks_nil : chunks [] = [[]] := by
  unfold chunks
  rfl

theorem chunks_of_ne_nil {content : Bytes} (hSome : content ≠ []) :
    chunks content = content.take bufSize :: chunks (content.drop bufSize) := by
  rw [chunks, if_neg hSome]

theorem chunks_ne_nil (content : Bytes) : chunks content ≠ [] := by
  by_cases hSome : content = []
  · rw [hSome, chunks_nil]
    exact List.cons_ne_nil _ _
  · rw [chunks_of_ne_nil hSome]
    exact List.cons_ne_nil _ _

section Carried
variable {turn : ReadPlan × Env} {name : Text} {chunk : Bytes}

theorem carried_nil (turn : ReadPlan × Env) (name : Text) : carried turn name [] = [] := by
  simp [carried, TransferJob.packChunk]

theorem carried_of_survives (hCodec : Codec turn) (hSurvives : Survives turn name chunk) :
    carried turn name chunk = chunk := by
  unfold carried TransferJob.packChunk compress decompress
  simp only
  split
  · rename_i hShorter
    simp only [Bool.not_eq_true', if_true] at hShorter ⊢
    obtain ⟨hName, hLength⟩ := hShorter
    have hSome : chunk ≠ [] := by
      intro hNil
      simp [hNil] at hLength
    obtain ⟨packed, hPacked⟩ := Option.isSome_iff_exists.mp (hSurvives hSome hName)
    rw [hPacked, Option.getD_some, hCodec.inverts chunk packed hPacked, Option.getD_some]
  · rfl

/-- A chunk on which the compressor fails is lost. -/
theorem carried_of_lost (hCodec : Codec turn) (hLost : ¬ Survives turn name chunk) :
    chunk ≠ [] ∧ carried turn name chunk = [] := by
  unfold Survives at hLost
  simp only [Classical.not_imp, Bool.not_eq_true, Option.isSome_eq_false_iff,
    Option.isNone_iff_eq_none] at hLost
  obtain ⟨hSome, hName, hFails⟩ := hLost
  refine ⟨hSome, ?_⟩
  have hLength : 0 < chunk.length := List.length_pos_iff.mpr hSome
  simp [carried, TransferJob.packChunk, compress, decompress, hName, hFails, hLength, hCodec.empty]

theorem length_carried_le (hCodec : Codec turn) : (carried turn name chunk).length ≤ chunk.length := by
  by_cases hSurvives : Survives turn name chunk
  · rw [carried_of_survives hCodec hSurvives]
  · rw [(carried_of_lost hCodec hSurvives).2]
    exact Nat.zero_le _

end Carried

theorem TransferJob.Streams.streamContent {job : TransferJob} {store : Store} {path : Text}
    {content : Bytes} (hStreams : job.Streams store path content) :
    job.streamContent store = content := by
  obtain ⟨node, hStream, -, hContent⟩ := hStreams
  simp [TransferJob.streamContent, hStream, hContent]

namespace Transfer

/-- Both ends are at the `k`th file, of which `pos` bytes were read and `got` has
arrived, on top of earlier visits. -/
structure At (transfer : Transfer) (source : Store) (base target : Text) (files : List FileEntry)
    (k pos : Nat) (content got : Bytes) (visits : List Visit) : Prop where
  sending : transfer.sender.Sending source base files k pos content
  id : transfer.receiver.id = transfer.sender.id
  dataSource : transfer.receiver.dataSource = .filePath target
  files : transfer.receiver.files = files
  arrived :
    (pos = 0 ∧ got = [] ∧ transfer.visits = visits ∧
      (asUsize transfer.receiver.fileNum ≠ k ∨ transfer.receiver.dataStream = none)) ∨
    (asUsize transfer.receiver.fileNum = k ∧
      (∃ path, transfer.receiver.Streams transfer.store path got) ∧
      transfer.visits =
        { fileNum := k, content := got, sent := pos, received := got.length } :: visits)

/-- The sender is about to start the `k`th file, and the receiver has not seen
anything of it. -/
structure Between (transfer : Transfer) (source : Store) (base target : Text)
    (files : List FileEntry) (k : Nat) (visits : List Visit) : Prop where
  sending : ∀ content, transfer.sender.Sending source base files k 0 content
  id : transfer.receiver.id = transfer.sender.id
  dataSource : transfer.receiver.dataSource = .filePath target
  files : transfer.receiver.files = files
  visits : transfer.visits = visits
  fresh : asUsize transfer.receiver.fileNum ≠ k ∨ transfer.receiver.dataStream = none

theorem Between.at {transfer : Transfer} {source : Store} {base target : Text}
    {files : List FileEntry} {k : Nat} {visits : List Visit}
    (hBetween : transfer.Between source base target files k visits) (content : Bytes) :
    transfer.At source base target files k 0 content [] visits :=
  ⟨hBetween.sending content, hBetween.id, hBetween.dataSource, hBetween.files,
    Or.inl ⟨rfl, rfl, hBetween.visits, hBetween.fresh⟩⟩

section Deliver
variable {transfer : Transfer} {source : Store} {base target : Text} {files : List FileEntry}
  {k pos : Nat} {content got : Bytes} {visits : List Visit} {entry : FileEntry}

theorem note_fresh (visit : Visit) (visits : List Visit) : note true visit visits = visit :: visits := by
  cases visits <;> rfl

theorem deliver_spec
    (hAt : transfer.At source base target files k pos content got visits)
    (hEntry : files[k]? = some entry) (env : Env) (sender : TransferJob)
    (block : FileTransferBlock) (hId : block.id = transfer.sender.id) (hNum : block.fileNum = k) :
    let next := transfer.deliver env sender block
    next.sender = sender ∧ next.receiver.id = transfer.receiver.id ∧
      next.receiver.dataSource = .filePath target ∧ next.receiver.files = files ∧
      asUsize next.receiver.fileNum = k ∧
      (∃ path, next.receiver.Streams next.store path (got ++ block.payload env)) ∧
      next.visits =
        { fileNum := k
          content := got ++ block.payload env
          sent := pos + (sender.finishedSize - transfer.sender.finishedSize)
          received := (got ++ block.payload env).length } :: visits := by
  have hHere : transfer.receiver.files[asUsize block.fileNum]? = some entry := by
    rw [hAt.files, hNum, asUsize_natCast, hEntry]
  have hOurs : block.id = transfer.receiver.id := hId.trans hAt.id.symm
  rcases hAt.arrived with ⟨rfl, rfl, hVisits, hNew⟩ | ⟨hSame, ⟨path, hStreams⟩, hVisits⟩
  · have hFresh : asUsize block.fileNum ≠ asUsize transfer.receiver.fileNum ∨
        transfer.receiver.dataStream = none := by
      rw [hNum, asUsize_natCast]
      exact hNew.imp_left Ne.symm
    obtain ⟨after, next, hWrite, hWrote, -, hStreams, -⟩ :=
      TransferJob.write_new env WriteFaults.none_quiet transfer.store hOurs hAt.dataSource hHere hFresh
    have hFlag : (asUsize block.fileNum != asUsize transfer.receiver.fileNum ||
        transfer.receiver.dataStream.isNone) = true := by
      rcases hFresh with hOther | hNone
      · simp [hOther]
      · simp [hNone]
    simp only [deliver, hWrite, hFlag, note_fresh, hVisits, hStreams.streamContent,
      hWrote.finishedSize]
    refine ⟨trivial, hWrote.id, hWrote.dataSource.trans hAt.dataSource,
      hWrote.files.trans hAt.files, ?_, ⟨_, hStreams⟩, ?_⟩
    · rw [hWrote.fileNum, hNum, asUsize_natCast]
    · simp [hNum]
  · have hNumber : asUsize transfer.receiver.fileNum = asUsize block.fileNum := by
      rw [hSame, hNum, asUsize_natCast]
    obtain ⟨after, next, hWrite, hWrote, -, hStreams', -⟩ :=
      TransferJob.write_same env WriteFaults.none_quiet hOurs hAt.dataSource hHere hNumber hStreams
    have hFlag : (asUsize block.fileNum != asUsize transfer.receiver.fileNum ||
        transfer.receiver.dataStream.isNone) = false := by
      obtain ⟨node, hStream, -⟩ := hStreams
      simp [hNumber, hStream]
    simp only [deliver, hWrite, hFlag, note, hVisits, hStreams'.streamContent,
      hWrote.finishedSize, Bool.false_eq_true, if_false]
    refine ⟨trivial, hWrote.id, hWrote.dataSource.trans hAt.dataSource,
      hWrote.files.trans hAt.files, ?_, ⟨_, hStreams'⟩, ?_⟩
    · rw [hWrote.fileNum, hNum, asUsize_natCast]
    · simp [hNum]

end Deliver

section Step
variable {transfer : Transfer} {source : Store} {base target : Text} {files : List FileEntry}
  {k pos : Nat} {content got : Bytes} {visits : List Visit} {entry : FileEntry}
  {turn : ReadPlan × Env}

/-- A turn carries the next chunk over. -/
theorem At.step_chunk (hAt : transfer.At source base target files k pos content got visits)
    (hEntry : files[k]? = some entry)
    (hContent : source.content (TransferJob.join source.platform base entry.name) = some content)
    (hPlan : turn.1.Sound) (hLeft : (content.drop pos).take bufSize ≠ []) :
    (step source transfer turn).At source base target files k
      (pos + ((content.drop pos).take bufSize).length) content
      (got ++ carried turn (TransferJob.chunkName source.platform files base entry)
        ((content.drop pos).take bufSize)) visits := by
  obtain ⟨sender, -, hTurn, hKept, hSending, hGrown⟩ :=
    hAt.sending.turn_chunk hEntry hContent (hPlan.serves _ _) hLeft
  unfold step
  rw [hTurn]
  obtain ⟨hSender, hId, hSource, hFiles, hNum, hStreams, hVisits⟩ :=
    deliver_spec hAt hEntry turn.2 sender
      { id := transfer.sender.id
        fileNum := k
        data := (TransferJob.packChunk turn.1 (some (TransferJob.chunkName source.platform files base entry))
          ((content.drop pos).take bufSize)).1
        compressed := (TransferJob.packChunk turn.1
          (some (TransferJob.chunkName source.platform files base entry))
          ((content.drop pos).take bufSize)).2 } rfl rfl
  refine ⟨?_, ?_, hSource, hFiles, Or.inr ⟨hNum, hStreams, ?_⟩⟩
  · rw [hSender]
    exact hSending
  · rw [hSender, hId, hKept.id, hAt.id]
  · rw [hVisits, hGrown, Nat.add_sub_cancel_left]
    rfl

/-- The turn at the end of a file leads to the next one. -/
theorem At.step_end (hAt : transfer.At source base target files k pos content got visits)
    (hEntry : files[k]? = some entry)
    (hContent : source.content (TransferJob.join source.platform base entry.name) = some content)
    (hPlan : turn.1.Sound) (hLeft : content.drop pos = []) :
    (step source transfer turn).Between source base target files (k + 1)
      ({ fileNum := k, content := got, sent := pos, received := got.length } :: visits) := by
  obtain ⟨sender, -, hTurn, hKept, hSending, hSame⟩ :=
    hAt.sending.turn_end hEntry hContent (hPlan.serves _ _) hLeft
  unfold step
  rw [hTurn]
  obtain ⟨hSender, hId, hSource, hFiles, hNum, hStreams, hVisits⟩ :=
    deliver_spec hAt hEntry turn.2 sender
      { id := transfer.sender.id, fileNum := k, data := [], compressed := false } rfl rfl
  refine ⟨?_, ?_, hSource, hFiles, ?_, Or.inl ?_⟩
  · rw [hSender]
    exact hSending
  · rw [hSender, hId, hKept.id, hAt.id]
  · rw [hVisits, hSame, Nat.sub_self]
    simp [FileTransferBlock.payload]
  · rw [hNum]
    omega

/-- Past the last file nothing changes any more. -/
theorem Between.step_idle (hBetween : transfer.Between source base target files k visits)
    (hEnd : files[k]? = none) (turn : ReadPlan × Env) :
    (step source transfer turn).Between source base target files k visits := by
  obtain ⟨sender, -, hTurn, hKept, hSending, -⟩ := (hBetween.sending []).turn_idle hEnd turn.1
  unfold step
  rw [hTurn]
  exact ⟨hSending, hBetween.id.trans hKept.id.symm, hBetween.dataSource, hBetween.files,
    hBetween.visits, hBetween.fresh⟩

end Step

end Transfer

/-- What arrives of the chunks of a file. -/
def carriedAll (name : Text) : List Bytes → List (ReadPlan × Env) → Bytes
  | chunk :: rest, turn :: turns => carried turn name chunk ++ carriedAll name rest turns
  | _, _ => []

/-- The visits of the receiver to the given files, the `k`th and those after it. -/
def outcome (name : FileEntry → Text) :
    Nat → List (FileEntry × Bytes) → List (ReadPlan × Env) → List Visit
  | _, [], _ => []
  | k, (entry, content) :: given, turns =>
      let got := carriedAll (name entry) (chunks content) turns
      { fileNum := k, content := got, sent := content.length, received := got.length } ::
        outcome name (k + 1) given (turns.drop (chunks content).length)

/-- All that is read of the given files, with the names that decide about its
compression. -/
def reads (name : FileEntry → Text) : List (FileEntry × Bytes) → List (Text × Bytes)
  | [] => []
  | (entry, content) :: given => (chunks content).map (name entry, ·) ++ reads name given

theorem carriedAll_take (name : Text) (parts : List Bytes) (turns : List (ReadPlan × Env)) :
    carriedAll name parts (turns.take parts.length) = carriedAll name parts turns := by
  induction parts generalizing turns with
  | nil => rfl
  | cons chunk rest ih =>
      cases turns with
      | nil => rfl
      | cons turn turns => simp [carriedAll, ih]

theorem drop_length_take {α : Type} (left : List α) (n : Nat) :
    left.drop (left.take n).length = left.drop n := by
  rw [List.length_take]
  rcases Nat.le_total n left.length with hLe | hGe
  · rw [Nat.min_eq_left hLe]
  · rw [Nat.min_eq_right hGe, List.drop_length, List.drop_eq_nil_of_le hGe]

theorem take_bufSize_ne_nil {left : Bytes} (hSome : left ≠ []) : left.take bufSize ≠ [] := by
  simp [hSome, bufSize]

namespace Transfer

section Run
variable {source : Store} {base target : Text} {files : List FileEntry}

/-- The turns spent on a file carry it over. -/
theorem At.run_file {transfer : Transfer} {k pos : Nat} {content got : Bytes} {visits : List Visit}
    {entry : FileEntry} (hAt : transfer.At source base target files k pos content got visits)
    (hEntry : files[k]? = some entry)
    (hContent : source.content (TransferJob.join source.platform base entry.name) = some content)
    (hPos : pos ≤ content.length) {turns : List (ReadPlan × Env)}
    (hSound : ∀ turn ∈ turns, turn.1.Sound)
    (hCount : turns.length = (chunks (content.drop pos)).length) :
    (Trace.run (step source) transfer turns).Between source base target files (k + 1)
      ({ fileNum := k
         content := got ++ carriedAll (TransferJob.chunkName source.platform files base entry)
           (chunks (content.drop pos)) turns
         sent := content.length
         received := (got ++ carriedAll (TransferJob.chunkName source.platform files base entry)
           (chunks (content.drop pos)) turns).length } :: visits) := by
  induction turns generalizing transfer pos got with
  | nil => exact absurd (List.eq_nil_of_length_eq_zero hCount.symm) (chunks_ne_nil _)
  | cons turn turns ih =>
      have hTurn := hSound turn List.mem_cons_self
      have hOthers : ∀ turn ∈ turns, turn.1.Sound := fun other hOther =>
        hSound other (List.mem_cons_of_mem turn hOther)
      rw [Trace.run_cons]
      by_cases hLeft : content.drop pos = []
      · rw [hLeft, chunks_nil] at hCount ⊢
        have hNil : turns = [] := by simpa using hCount
        have hEnd : pos = content.length :=
          Nat.le_antisymm hPos (List.drop_eq_nil_iff.mp hLeft)
        subst hNil
        simp only [carriedAll, carried_nil, List.append_nil, Trace.run_nil]
        rw [← hEnd]
        exact hAt.step_end hEntry hContent hTurn hLeft
      · have hRest : (content.drop pos).drop bufSize =
            content.drop (pos + ((content.drop pos).take bufSize).length) := by
          rw [← drop_length_take, List.drop_drop]
        rw [chunks_of_ne_nil hLeft, hRest] at hCount ⊢
        have hNext := hAt.step_chunk hEntry hContent hTurn (take_bufSize_ne_nil hLeft)
        have hBound : pos + ((content.drop pos).take bufSize).length ≤ content.length := by
          have hShort : ((content.drop pos).take bufSize).length ≤ (content.drop pos).length :=
            List.length_take_le' ..
          rw [List.length_drop] at hShort
          omega
        have hDone := ih hNext hBound hOthers (by simpa using hCount)
        simpa only [carriedAll, List.append_assoc] using hDone

/-- The whole run: every file in turn, and idle turns after the last. -/
theorem Between.run_given {transfer : Transfer} {k : Nat} {visits : List Visit}
    (hBetween : transfer.Between source base target files k visits)
    {given : List (FileEntry × Bytes)} (hGiven : files.drop k = given.map Prod.fst)
    (hContents : ∀ pair ∈ given,
      source.content (TransferJob.join source.platform base pair.1.name) = some pair.2)
    {turns : List (ReadPlan × Env)} (hSound : ∀ turn ∈ turns, turn.1.Sound)
    (hEnough : (reads (TransferJob.chunkName source.platform files base) given).length ≤
      turns.length) :
    (Trace.run (step source) transfer turns).visits =
      (outcome (TransferJob.chunkName source.platform files base) k given turns).reverse ++
        visits := by
  induction given generalizing transfer k visits turns with
  | nil =>
      have hEnd : files[k]? = none := by
        have hPast : files.drop k = [] := by simpa using hGiven
        exact List.getElem?_eq_none (List.drop_eq_nil_iff.mp hPast)
      have hIdle : (Trace.run (step source) transfer turns).Between source base target files k
          visits :=
        Trace.invariant_of_step (step source)
          (fun state => state.Between source base target files k visits) hBetween
          (fun state turn hState => hState.step_idle hEnd turn) turns
      simpa [outcome] using hIdle.visits
  | cons pair given ih =>
      obtain ⟨entry, text⟩ := pair
      have hEntry : files[k]? = some entry := by
        have hHead := congrArg List.head? hGiven
        simpa using hHead
      have hRest : files.drop (k + 1) = given.map Prod.fst := by
        have hTail := congrArg List.tail hGiven
        simpa using hTail
      have hText := hContents (entry, text) List.mem_cons_self
      -- The turns of this file, and the others.
      have hSplit := List.take_append_drop (chunks text).length turns
      simp only [reads, List.length_append, List.length_map] at hEnough
      have hCount : (turns.take (chunks text).length).length = (chunks text).length := by
        rw [List.length_take]
        omega
      have hFile := (hBetween.at text).run_file hEntry hText (Nat.zero_le _)
        (fun turn hTurn => hSound turn (List.mem_of_mem_take hTurn)) hCount
      have hLate : (reads (TransferJob.chunkName source.platform files base) given).length ≤
          (turns.drop (chunks text).length).length := by
        rw [List.length_drop]
        omega
      have hOthers := ih hFile hRest
        (fun pair hPair => hContents pair (List.mem_cons_of_mem _ hPair))
        (fun turn hTurn => hSound turn (List.mem_of_mem_drop hTurn)) hLate
      rw [← Trace.run_append, hSplit] at hOthers
      rw [hOthers]
      simp [outcome, carriedAll_take]

end Run

end Transfer

section Outcome
variable {name : FileEntry → Text}

theorem flatten_chunks (content : Bytes) : (chunks content).flatten = content := by
  fun_induction chunks content with
  | case1 => rfl
  | case2 content hSome ih => rw [List.flatten_cons, ih, List.take_append_drop]

theorem length_carriedAll_le (label : Text) (parts : List Bytes) {turns : List (ReadPlan × Env)}
    (hCodec : ∀ turn ∈ turns, Codec turn) :
    (carriedAll label parts turns).length ≤ parts.flatten.length := by
  induction parts generalizing turns with
  | nil => simp [carriedAll]
  | cons chunk rest ih =>
      cases turns with
      | nil => simp [carriedAll]
      | cons turn turns =>
          have hFirst : (carried turn label chunk).length ≤ chunk.length :=
            length_carried_le (hCodec turn List.mem_cons_self)
          have hRest := ih fun other hOther => hCodec other (List.mem_cons_of_mem turn hOther)
          simp only [carriedAll, List.length_append, List.flatten_cons]
          omega

/-- The chunks of a file arrive as a whole exactly when none of them is lost. -/
theorem carriedAll_eq_iff (label : Text) (parts : List Bytes) {turns : List (ReadPlan × Env)}
    (hCodec : ∀ turn ∈ turns, Codec turn) (hEnough : parts.length ≤ turns.length) :
    carriedAll label parts turns = parts.flatten ↔
      ∀ pair ∈ parts.zip turns, Survives pair.2 label pair.1 := by
  induction parts generalizing turns with
  | nil => simp [carriedAll]
  | cons chunk rest ih =>
      cases turns with
      | nil => simp at hEnough
      | cons turn turns =>
          have hTurn := hCodec turn List.mem_cons_self
          have hOthers : ∀ other ∈ turns, Codec other := fun other hOther =>
            hCodec other (List.mem_cons_of_mem turn hOther)
          have hRest := ih hOthers (by simpa using hEnough)
          simp only [carriedAll, List.flatten_cons, List.zip_cons_cons, List.forall_mem_cons]
          rw [← hRest]
          by_cases hSurvives : Survives turn label chunk
          · simp [carried_of_survives hTurn hSurvives, hSurvives]
          · -- A lost chunk leaves too little.
            obtain ⟨hSome, hLost⟩ := carried_of_lost hTurn hSurvives
            have hShort := length_carriedAll_le label rest hOthers
            have hLength := List.length_pos_iff.mpr hSome
            simp only [hSurvives, false_and, iff_false]
            intro hSame
            have hLengths := congrArg List.length hSame
            simp only [hLost, List.length_append, List.length_nil] at hLengths
            omega

/-- The visits are those of a faithful transfer exactly when no chunk is lost. -/
theorem outcome_eq_iff (k : Nat) (given : List (FileEntry × Bytes))
    {turns : List (ReadPlan × Env)} (hCodec : ∀ turn ∈ turns, Codec turn)
    (hEnough : (reads name given).length ≤ turns.length) :
    outcome name k given turns =
        given.mapIdx (fun i pair =>
          { fileNum := (k + i : Nat), content := pair.2, sent := pair.2.length
            received := pair.2.length }) ↔
      ∀ pair ∈ (reads name given).zip turns, Survives pair.2 pair.1.1 pair.1.2 := by
  induction given generalizing k turns with
  | nil => simp [outcome, reads]
  | cons pair given ih =>
      obtain ⟨entry, content⟩ := pair
      simp only [reads, List.length_append, List.length_map] at hEnough
      have hLate : (reads name given).length ≤ (turns.drop (chunks content).length).length := by
        rw [List.length_drop]
        omega
      have hRest := ih (k + 1) (fun turn hTurn => hCodec turn (List.mem_of_mem_drop hTurn)) hLate
      have hFile := carriedAll_eq_iff (name entry) (chunks content)
        (fun turn hTurn => hCodec turn (List.mem_of_mem_take hTurn))
        (show (chunks content).length ≤ (turns.take (chunks content).length).length by
          rw [List.length_take]
          omega)
      rw [flatten_chunks, carriedAll_take] at hFile
      have hZip : ((chunks content).map (name entry, ·) ++ reads name given).zip turns =
          ((chunks content).map (name entry, ·)).zip (turns.take (chunks content).length) ++
            (reads name given).zip (turns.drop (chunks content).length) := by
        rw [← List.zip_append (by simp; omega), List.take_append_drop]
      have hHere : (∀ pair ∈ ((chunks content).map (name entry, ·)).zip
            (turns.take (chunks content).length), Survives pair.2 pair.1.1 pair.1.2) ↔
          ∀ pair ∈ (chunks content).zip (turns.take (chunks content).length),
            Survives pair.2 (name entry) pair.1 := by
        rw [List.zip_map_left, List.forall_mem_map]
        rfl
      have hTail : (fun (i : Nat) (pair : FileEntry × Bytes) =>
            ({ fileNum := (k + 1 + i : Nat), content := pair.2, sent := pair.2.length
               received := pair.2.length } : Visit)) =
          fun i pair =>
            { fileNum := (k + (i + 1) : Nat), content := pair.2, sent := pair.2.length
              received := pair.2.length } := by
        funext i pair
        rw [Nat.add_assoc, Nat.add_comm 1 i]
      rw [reads, hZip, List.forall_mem_append, hHere, ← hFile, ← hRest, hTail]
      simp only [outcome, List.mapIdx_cons, List.cons.injEq, Visit.mk.injEq, Nat.add_zero, true_and]
      exact ⟨fun h => ⟨h.1.1, h.2⟩, fun h => ⟨⟨h.1, congrArg List.length h.1⟩, h.2⟩⟩

end Outcome

/-- A new sending job without overwrite detection, and a new receiving job, over
the same list of files. -/
def Transfer.start (id : Int) (files : List FileEntry) (base target : Text)
    (sends receives : JobType) (fileNum : Int) (detection : Bool) (store : Store) : Transfer where
  sender := .newRead id sends target (.filePath base) 0 false true files false
  receiver := .newWrite id receives base (.filePath target) fileNum false false files detection
  store := store
  visits := []

/-- Enough turns carry every file over exactly once, in order and as a whole, and
both ends count its length, if and only if the compressor fails on no chunk. -/
theorem transfer_visits_iff (id : Int) (given : List (FileEntry × Bytes)) (base target : Text)
    (sends receives : JobType) (fileNum : Int) (detection : Bool) (source store : Store)
    (turns : List (ReadPlan × Env))
    (hContents : ∀ pair ∈ given,
      source.content (TransferJob.join source.platform base pair.1.name) = some pair.2)
    (hSound : ∀ turn ∈ turns, turn.1.Sound) (hCodec : ∀ turn ∈ turns, Codec turn)
    (hEnough : (reads (TransferJob.chunkName source.platform (given.map Prod.fst) base) given).length ≤
      turns.length) :
    (Trace.run (Transfer.step source)
        (Transfer.start id (given.map Prod.fst) base target sends receives fileNum detection store)
        turns).visits.reverse =
        given.mapIdx (fun k pair =>
          { fileNum := k, content := pair.2, sent := pair.2.length, received := pair.2.length }) ↔
      ∀ pair ∈ (reads (TransferJob.chunkName source.platform (given.map Prod.fst) base) given).zip turns,
        Survives pair.2 pair.1.1 pair.1.2 := by
  have hStart : (Transfer.start id (given.map Prod.fst) base target sends receives fileNum detection
      store).Between source base target (given.map Prod.fst) 0 [] :=
    ⟨fun content => ⟨rfl, rfl, rfl, rfl, Or.inl ⟨rfl, rfl⟩⟩, rfl, rfl, rfl, rfl, Or.inr rfl⟩
  rw [hStart.run_given (by simp) hContents hSound hEnough, ← outcome_eq_iff 0 given hCodec hEnough]
  simp

/-- A turn with a codec that frames what it is given. -/
def framed : ReadPlan × Env where
  fst :=
    { openFails := false
      metadataFails := false
      pieces := [some 1]
      zstdCompress := fun data => some ([40, 181, 47, 253] ++ data) }
  snd :=
    { now := 0
      zstdDecodeAll := fun packed =>
        if packed.take 4 = [40, 181, 47, 253] then some (packed.drop 4) else none
      digestToJson := fun _ => []
      digestFromJson := fun _ => none }

/-- A disk with one small file. -/
def oneFile : Store where
  platform := .unix
  disk := Storage.Disk.empty.put (Lexical.Platform.unix.location "/s/a".toList) [1, 2] 0
  ops := []

theorem framed_codec : Codec framed := by
  refine ⟨?_, rfl⟩
  intro data packed hPacked
  cases hPacked
  rfl

theorem framed_sound : framed.1.Sound := ⟨rfl, by simp [framed]⟩

theorem oneFile_content :
    oneFile.content (TransferJob.join oneFile.platform "/s".toList "a".toList) = some [1, 2] := by
  decide +kernel

/-- The file arrives where the compressor works. -/
theorem one_file_arrives :
    (Trace.run (Transfer.step oneFile)
        (Transfer.start 7 [⟨"a".toList, 2, 0⟩] "/s".toList "/t".toList .generic .generic 0 false
          { platform := .unix, disk := Storage.Disk.empty, ops := [] })
        [framed, framed]).visits.reverse =
      [{ fileNum := 0, content := [1, 2], sent := 2, received := 2 }] := by
  refine (transfer_visits_iff 7 [(⟨"a".toList, 2, 0⟩, [1, 2])] "/s".toList "/t".toList .generic
    .generic 0 false oneFile { platform := .unix, disk := Storage.Disk.empty, ops := [] }
    [framed, framed] ?_ ?_ ?_ ?_).mpr ?_
  · intro pair hPair
    rw [List.mem_singleton.mp hPair]
    exact oneFile_content
  · intro turn hTurn
    obtain rfl : turn = framed := by simpa using hTurn
    exact framed_sound
  · intro turn hTurn
    obtain rfl : turn = framed := by simpa using hTurn
    exact framed_codec
  · simp [reads, chunks_of_ne_nil, chunks_nil, bufSize]
  · intro pair hPair _ _
    have hTurn : pair.2 = framed := by simpa using (List.of_mem_zip hPair).2
    rw [hTurn]
    rfl

/-- The same turn with a compressor that fails. -/
def failing : ReadPlan × Env :=
  ({ framed.1 with zstdCompress := fun _ => none }, framed.2)

/-- Where the compressor fails, the chunk is lost, although the codec inverts
whatever it makes. -/
theorem chunk_lost :
    failing.1.Sound ∧ Codec failing ∧
      oneFile.content (TransferJob.join oneFile.platform "/s".toList "a".toList) = some [1, 2] ∧
      (Trace.run (Transfer.step oneFile)
          (Transfer.start 7 [⟨"a".toList, 2, 0⟩] "/s".toList "/t".toList .generic .generic 0 false
            { platform := .unix, disk := Storage.Disk.empty, ops := [] })
          [failing, framed]).visits.reverse ≠
        [{ fileNum := 0, content := [1, 2], sent := 2, received := 2 }] := by
  refine ⟨⟨rfl, framed_sound.2⟩, ⟨fun data packed hPacked => ?_, rfl⟩, oneFile_content, ?_⟩
  · cases hPacked
  · decide +kernel

end HibtDesk.FileTransfer
