import HibtDesk.FileTransfer.Following

/-! Transfers that are taken up again. Each end looks for its place in a file by
itself, and takes no notice of an answer that is about another file than the one
it is at. The receiver is at a file only once it got a part of it, so the two
places agree for the first file that is sent and for no other: the beginning of
a later file that was unfinished is lost. -/
namespace HibtDesk.FileTransfer

open Lexical (Text Platform)

namespace Ends

/-- The phases of a transfer that asks before each file. -/
inductive Phase (task : Task) (sent : Nat → Prop) (store : Store) (job heard : TransferJob) :
    Prop where
  | idle {k : Nat} (hIdle : job.Idle k) (hBehind : heard.Behind task sent k store)
      (hSkipped : job.fileSkipped = true → task.files.length = 1 → ∀ i, ¬ sent i)
  /-- The user of the client is asked. -/
  | waits {k : Nat} {text : Bytes} (hWaits : job.Waits task.source k text)
      (hThere : k < task.files.length)
  | sends {k pos : Nat} {text : Bytes} (hConfirmed : job.Confirmed task.source k pos text)
      (hText : task.text k = some text) (hPos : pos ≤ text.length)
      (hFollows : heard.Follows task sent k pos store)

/-- If something unfinished at the target would make the sender skip a part of the
file, the receiver is at the file, and nothing unfinished lies next to its source. -/
def Resumes (task : Task) (store : Store) (job heard : TransferJob) : Prop :=
  ∀ (k : Nat) origin path data, job.fileNum = k → task.origin k = some origin →
    task.path k = some path → Unfinished store path data → asU32 data.length ≠ 0 →
      heard.fileNum = k ∧ ∀ other, ¬ Unfinished task.source origin other

section Talk
variable {task : Task} {sent : Nat → Prop} {k : Nat} {store : Store} {id : Int}
  {job heard job' heard' : TransferJob} {origin path : Text} {text : Bytes}
  {digest : FileTransferDigest}

/-- After the ends talked about the `k`th file, it is skipped, or sent from where
the receiver is. -/
theorem Talked.phase
    (hTalked : Talked store task.source path digest job heard job' heard')
    (hNum : digest.fileNum = k) (hAsks : job.Asks task.base task.files id)
    (hWaits : job.Waits task.source k text) (hTakes : heard.Takes task id)
    (hBehind : heard.Behind task sent k store) (hPlatform : store.platform = task.platform)
    (hPath : task.path k = some path) (hOrigin : task.origin k = some origin)
    (hText : task.source.content origin = some text)
    (hResumes : ∀ data, Unfinished store path data → asU32 data.length ≠ 0 →
      heard.fileNum = k ∧ ∀ other, ¬ Unfinished task.source origin other) :
    job'.Asks task.base task.files id ∧ heard'.Takes task id ∧
      Phase task sent store job' heard' := by
  obtain ⟨entry, hEntry, rfl⟩ := Option.map_eq_some_iff.mp hOrigin
  have hWhole : task.text k = some text := by
    rw [Task.text, hOrigin]
    exact hText
  have hThere : k < task.files.length := (List.getElem?_eq_some_iff.mp hEntry).1
  have hNoted := TransferJob.SameWork.setDigest heard digest.fileSize digest.lastModified
  have hNotedBehind : (heard.setDigest digest.fileSize digest.lastModified).Behind task sent k store :=
    hBehind.congr rfl rfl
  rcases hTalked with ⟨rfl, rfl⟩ | ⟨union, hAnswers, rfl, hHeard⟩
  · exact ⟨hAsks, hNoted.takes hTakes, .waits hWaits hThere⟩
  rw [hNum] at hHeard ⊢
  rcases hAnswers with rfl | ⟨offset, rfl, hOffset⟩
  · obtain ⟨hNext, hIdle⟩ := hWaits.confirmed_skip hAsks
    obtain rfl | ⟨hStart, -⟩ := hHeard
    · refine ⟨hNext, ((TransferJob.SameWork.confirmed _ _ _ _).takes (hNoted.takes hTakes)),
        .idle hIdle (hNotedBehind.skip digest.id) fun _ hOne => ?_⟩
      cases hBehind with
      | fresh hNone hAt hOpen hLeft => exact hNone
      | whole hBefore => omega
    · cases hStart
  by_cases hZero : offset = 0
  · subst hZero
    obtain ⟨hNext, hConfirmed⟩ := hWaits.confirmed_start hAsks
    rcases hHeard with rfl | ⟨_, rfl⟩
    · exact ⟨hNext, ((TransferJob.SameWork.confirmed _ _ _ _).takes (hNoted.takes hTakes)),
        .sends hConfirmed hWhole (Nat.zero_le _) (.behind (hNotedBehind.start digest.id) rfl)⟩
    · exact ⟨hNext, hNoted.takes hTakes,
        .sends hConfirmed hWhole (Nat.zero_le _) (.behind hNotedBehind rfl)⟩
  · obtain ⟨data, hData, rfl⟩ := hOffset hZero
    obtain ⟨hAt, hClean⟩ := hResumes data hData hZero
    obtain ⟨hNext, hConfirmed⟩ := hWaits.confirmed_offset hAsks hEntry hText hClean
      (Nat.pos_of_ne_zero hZero)
    obtain rfl | ⟨hStart, -⟩ := hHeard
    · obtain ⟨hPos, hFollows⟩ := hNotedBehind.resume (hNoted.takes hTakes) hPlatform digest.id hAt
        hPath hWhole hData (Nat.pos_of_ne_zero hZero) (Nat.mod_le _ _)
      exact ⟨hNext, ((TransferJob.SameWork.confirmed _ _ _ _).takes (hNoted.takes hTakes)),
        .sends hConfirmed hWhole hPos hFollows⟩
    · exact absurd (ConfirmUnion.offsetBlk.inj hStart) hZero

end Talk

section WithJobs
variable (ends : Ends) (jobs : List TransferJob)

@[simp] theorem source_withJobs : (ends.withJobs jobs).source = ends.source := by
  cases ends <;> rfl

@[simp] theorem jobs_withJobs : (ends.withJobs jobs).jobs = jobs := by
  cases ends <;> rfl

@[simp] theorem store_withJobs : (ends.withJobs jobs).store = ends.store := by
  cases ends <;> rfl

@[simp] theorem writeJobs_withJobs : (ends.withJobs jobs).writeJobs = ends.writeJobs := by
  cases ends <;> rfl

end WithJobs

/-- The ends have a job each for the task. -/
structure Linked (task : Task) (id : Int) (ends : Ends) (job heard : TransferJob) : Prop where
  source : ends.source = task.source
  jobs : ends.jobs = [job]
  found : getJob id ends.writeJobs = some heard
  takes : heard.Takes task id
  platform : ends.store.platform = task.platform

/-- Both ends are at work, and the sender asks before each file. -/
structure Going (task : Task) (id : Int) (sent : Nat → Prop) (ends : Ends)
    (job heard : TransferJob) : Prop extends Linked task id ends job heard where
  asks : job.Asks task.base task.files id
  phase : Phase task sent ends.store job heard

/-- Both ends are at work, and the sender does not ask. -/
structure Unasked (task : Task) (id : Int) (sent : Nat → Prop) (ends : Ends)
    (job heard : TransferJob) (k pos : Nat) (text : Bytes) : Prop
    extends Linked task id ends job heard where
  sending : job.Sending task.source task.base task.files k pos text
  id : job.id = id
  isLastJob : job.isLastJob = false
  skipped : job.fileSkipped = false
  known : job.dataStream ≠ none → task.text k = some text ∧ pos ≤ text.length
  follows : heard.Follows task sent k pos ends.store

/-- The sender is done, and the files it sent are in place. -/
structure Over (task : Task) (sent : Nat → Prop) (ends : Ends) : Prop where
  jobs : ends.jobs = []
  placed : task.Placed sent ends.store

/-- The condition under which a turn keeps the ends together. -/
def InStep (task : Task) (id : Int) (ends : Ends) (_ : ReadPlan × Env) : Prop :=
  ∀ job ∈ ends.jobs, ∀ heard, getJob id ends.writeJobs = some heard → job.dataStream = none →
    Resumes task ends.store job heard

/-- Nothing fails in a turn. -/
structure Fine (turn : ReadPlan × Env) : Prop where
  plan : turn.1.Sound
  metadata : turn.1.metadataFails = false
  codec : Codec turn
  compresses : ∀ data, (turn.1.zstdCompress data).isSome = true

section Step
variable {task : Task} {id : Int} {sent : Nat → Prop} {ends : Ends} {job heard : TransferJob}
  {turn : ReadPlan × Env} {messages : List JobMessage} {jobs : List TransferJob}
  {ended : Option TransferJob}

theorem step_of (hTick : handleReadJobs ends.source (fun _ => turn.1) ends.jobs =
    (messages, jobs, ended)) :
    ends.step turn = messages.foldl (deliver turn.2) (ends.withJobs jobs) := by
  unfold step
  rw [hTick]

theorem sends_of (hTick : handleReadJobs ends.source (fun _ => turn.1) ends.jobs =
    (messages, jobs, ended)) (hNone : ∀ block, .block block ∉ messages) :
    (fun i => sent i ∨ Sends i ends turn) = sent := by
  funext i
  simp only [Sends, hTick, eq_iff_iff, or_iff_left_iff_imp, forall_exists_index, and_imp]
  exact fun block _ hBlock => absurd hBlock (hNone block)

theorem sends_block {block : FileTransferBlock} {k : Nat} (hNum : block.fileNum = k)
    (hTick : handleReadJobs ends.source (fun _ => turn.1) ends.jobs =
      ([.block block], jobs, ended)) :
    (fun i => sent i ∨ Sends i ends turn) = fun i => sent i ∨ i = k := by
  funext i
  have hSame : Sends i ends turn ↔ i = k := by
    simp only [Sends, hTick, List.mem_singleton, JobMessage.block.injEq]
    constructor
    · rintro ⟨other, hOther, rfl⟩
      rw [hNum] at hOther
      exact_mod_cast hOther.symm
    · rintro rfl
      exact ⟨block, hNum, rfl⟩
  rw [hSame]

theorem Linked.found_withJobs (hLinked : ends.Linked task id job heard) (jobs : List TransferJob) :
    getJob id (ends.withJobs jobs).writeJobs = some heard := by
  rw [writeJobs_withJobs]
  exact hLinked.found

/-- At the end the receiver brings its last file into place. -/
theorem Linked.finish {k : Nat} (hLinked : ends.Linked task id job heard) (hSound : task.Sound)
    (hBehind : heard.Behind task sent k ends.store) {fileNum : Int}
    (hTick : handleReadJobs ends.source (fun _ => turn.1) ends.jobs =
      ([.done id fileNum], [], ended)) :
    Over task (fun i => sent i ∨ Sends i ends turn) (ends.step turn) := by
  rw [sends_of hTick (by simp), step_of hTick]
  obtain ⟨hJobs, hStore⟩ := deliver_done turn.2 fileNum (hLinked.found_withJobs [])
  refine ⟨hJobs.trans (jobs_withJobs ends []), ?_⟩
  rw [List.foldl_cons, List.foldl_nil, hStore, store_withJobs]
  cases hBehind with
  | fresh hNone hAt hOpen hLeft => exact fun i path hSent _ => absurd hSent (hNone i)
  | whole hBefore hPath hText hAt hHolds hPlaced hSent =>
      exact hLinked.takes.placed_modifyTime hSound hLinked.platform hPath hText hAt hHolds hPlaced

theorem Going.finish {k : Nat} (hGoing : ends.Going task id sent job heard) (hSound : task.Sound)
    (hIdle : job.Idle k) (hBehind : heard.Behind task sent k ends.store)
    (hSkipped : job.fileSkipped = true → task.files.length = 1 → ∀ i, ¬ sent i)
    (hEnd : task.files[k]? = none) (turn : ReadPlan × Env) :
    Over task (fun i => sent i ∨ Sends i ends turn) (ends.step turn) := by
  obtain ⟨message, ended, hTick, hMessage⟩ := hGoing.asks.finish hIdle hEnd turn.1
  rw [← hGoing.jobs] at hTick
  rcases hMessage with rfl | ⟨rfl, hOnly, hOne⟩
  · exact hGoing.toLinked.finish hSound hBehind hTick
  · rw [sends_of hTick (by simp), step_of hTick]
    obtain ⟨hJobs, hStore⟩ := deliver_error turn.2 id k .skipped (jobs_withJobs ends [])
    exact ⟨hJobs, fun i path hSent _ => absurd hSent (hSkipped hOnly hOne i)⟩

/-- The next file is announced, and the ends talk about it. -/
theorem Going.announce {k : Nat} {entry : FileEntry} (hGoing : ends.Going task id sent job heard)
    (hSound : task.Sound) (hIdle : job.Idle k) (hBehind : heard.Behind task sent k ends.store)
    (hEntry : task.files[k]? = some entry) (hFine : Fine turn) (hInStep : InStep task id ends turn) :
    ∃ job' heard', (ends.step turn).Going task id (fun i => sent i ∨ Sends i ends turn) job' heard' := by
  have hOrigin : task.origin k =
      some (TransferJob.join task.source.platform task.base entry.name) := by
    rw [Task.origin, hEntry, Option.map_some]
  obtain ⟨text, hText, hContent⟩ := hSound.text_of_entry hEntry
  obtain ⟨copy, hCopy, hPath⟩ := hSound.path_of_entry hEntry
  obtain ⟨digest, opened, hTick, rfl, hNum, hUpload, hAsks, hWaits⟩ :=
    hGoing.asks.announce hIdle hEntry hContent hFine.plan.opens hFine.metadata
  rw [← hGoing.jobs, ← hGoing.source] at hTick
  rw [sends_of hTick (by simp), step_of hTick, List.foldl_cons, List.foldl_nil]
  obtain ⟨job', heard', hSource, hJobs, hStore, hHeard, hTalked⟩ :=
    talk turn.2 hUpload hAsks.id (jobs_withJobs ends [opened])
      (by rw [hAsks.files, hNum, asUsize_natCast]; exact hEntry) hAsks.dataSource
      (hGoing.toLinked.found_withJobs [opened])
      (by rw [hGoing.takes.files, hNum, asUsize_natCast]; exact hCopy) hGoing.takes.dataSource
  simp only [store_withJobs, source_withJobs, hGoing.source, hGoing.platform] at hSource hStore hTalked
  have hResumes := hInStep job (by simp [hGoing.jobs]) heard hGoing.found hIdle.stream
  obtain ⟨hNext, hTakes, hPhase⟩ := hTalked.phase hNum hAsks hWaits hGoing.takes hBehind
    hGoing.platform hPath hOrigin hContent
    fun data => hResumes k _ _ data hIdle.fileNum hOrigin hPath
  refine ⟨job', heard', ⟨hSource, hJobs, hHeard, hTakes, ?_⟩, hNext, ?_⟩
  · rw [hStore]
    exact hGoing.platform
  · rw [hStore]
    exact hPhase

/-- A block of the current file is sent and received. -/
theorem Linked.block {k pos count : Nat} {text : Bytes} {path : Text} {next : TransferJob}
    {block : FileTransferBlock} (hLinked : ends.Linked task id job heard) (hSound : task.Sound)
    (hTick : handleReadJobs ends.source (fun _ => turn.1) ends.jobs = ([.block block], [next], none))
    (hText : task.text k = some text) (hPath : task.path k = some path) (hPos : pos ≤ text.length)
    (hFollows : heard.Follows task sent k pos ends.store) (hId : block.id = id)
    (hNum : block.fileNum = k) (hPayload : block.payload turn.2 = (text.drop pos).take count) :
    ∃ heard',
      (ends.step turn).Linked task id next heard' ∧
      heard'.Follows task (fun i => sent i ∨ Sends i ends turn) k
        (pos + ((text.drop pos).take count).length) (ends.step turn).store := by
  have hFound := hLinked.found_withJobs [next]
  obtain ⟨after, heard', hWrite, hTakes, hPlatform, hNext⟩ :=
    hFollows.write hLinked.takes hSound hLinked.platform turn.2 hId hNum hPath hText hPos hPayload
  rw [← store_withJobs ends [next]] at hWrite
  obtain ⟨hSource, hJobs, hStore, hWrites⟩ := deliver_block turn.2 (hId ▸ hFound) hWrite
  rw [sends_block hNum hTick, step_of hTick, List.foldl_cons, List.foldl_nil]
  refine ⟨heard', ⟨?_, ?_, ?_, hTakes, ?_⟩, ?_⟩
  · rw [hSource, source_withJobs]
    exact hLinked.source
  · rw [hJobs, jobs_withJobs]
  · rw [hWrites, hId]
    exact getJob_putJob hFound hTakes.id
  · rw [hStore]
    exact hPlatform
  · rw [hStore, ← hPayload]
    exact hNext

/-- The last, empty block of a file. -/
theorem Linked.block_end {k pos : Nat} {text : Bytes} {path : Text} {next : TransferJob}
    (hLinked : ends.Linked task id job heard) (hSound : task.Sound)
    (hTick : handleReadJobs ends.source (fun _ => turn.1) ends.jobs =
      ([.block { id := id, fileNum := k, data := [], compressed := false }], [next], none))
    (hText : task.text k = some text) (hPath : task.path k = some path) (hPos : pos ≤ text.length)
    (hFollows : heard.Follows task sent k pos ends.store) (hLeft : text.drop pos = []) :
    ∃ heard',
      (ends.step turn).Linked task id next heard' ∧
      heard'.Behind task (fun i => sent i ∨ Sends i ends turn) (k + 1) (ends.step turn).store := by
  have hPayload : ({ id := id, fileNum := (k : Int), data := [], compressed := false } :
      FileTransferBlock).payload turn.2 = (text.drop pos).take 0 := rfl
  obtain ⟨heard', hNext, hFollowing⟩ :=
    hLinked.block hSound hTick hText hPath hPos hFollows rfl rfl hPayload
  have hSends : Sends k ends turn := ⟨_, rfl, by rw [hTick]; exact List.mem_cons_self⟩
  refine ⟨heard', hNext, hFollowing.whole (Or.inr hSends) hPath hText ?_⟩
  have hAll := List.drop_eq_nil_iff.mp hLeft
  rw [List.take_zero, List.length_nil]
  omega

/-- A turn in which nothing fails keeps the ends together, or ends the transfer
with all that was sent in place. -/
theorem Going.step (hGoing : ends.Going task id sent job heard) (hSound : task.Sound)
    (hFine : Fine turn) (hInStep : InStep task id ends turn) :
    (∃ job' heard',
      (ends.step turn).Going task id (fun i => sent i ∨ Sends i ends turn) job' heard') ∨
      Over task (fun i => sent i ∨ Sends i ends turn) (ends.step turn) := by
  cases hGoing.phase with
  | @idle k hIdle hBehind hSkipped =>
      cases hEntry : task.files[k]? with
      | none => exact Or.inr (hGoing.finish hSound hIdle hBehind hSkipped hEntry turn)
      | some entry => exact Or.inl (hGoing.announce hSound hIdle hBehind hEntry hFine hInStep)
  | @waits k text hWaits hThere =>
      left
      have hTick := hGoing.asks.wait hWaits (List.getElem?_eq_getElem hThere) turn.1
      rw [← hGoing.jobs, ← hGoing.source] at hTick
      rw [sends_of hTick (by simp), step_of hTick, List.foldl_nil]
      refine ⟨job, heard, ⟨⟨?_, ?_, ?_, hGoing.takes, ?_⟩, hGoing.asks, .waits hWaits hThere⟩⟩
      · rw [source_withJobs]
        exact hGoing.source
      · rw [jobs_withJobs]
        exact hGoing.jobs
      · exact hGoing.toLinked.found_withJobs _
      · rw [store_withJobs]
        exact hGoing.platform
  | @sends k pos text hConfirmed hText hPos hFollows =>
      left
      obtain ⟨origin, hOrigin, -⟩ := Option.bind_eq_some_iff.mp hText
      obtain ⟨entry, hEntry, -⟩ := Option.map_eq_some_iff.mp hOrigin
      obtain ⟨copy, -, hPath⟩ := hSound.path_of_entry hEntry
      have hReads := (hFine.plan.serves job (text.drop pos)).reads
      by_cases hLeft : text.drop pos = []
      · obtain ⟨next, hTick, hAsks, hIdle, hSkipped⟩ :=
          hConfirmed.turn_end hGoing.asks hEntry hReads hLeft
        rw [← hGoing.jobs, ← hGoing.source] at hTick
        obtain ⟨heard', hLinked, hBehind⟩ :=
          hGoing.toLinked.block_end hSound hTick hText hPath hPos hFollows hLeft
        refine ⟨next, heard', ⟨hLinked, hAsks, .idle hIdle hBehind ?_⟩⟩
        rw [hSkipped]
        exact fun hFalse => absurd hFalse Bool.false_ne_true
      · obtain ⟨next, hTick, hAsks, hNext⟩ :=
          hConfirmed.turn_chunk hGoing.asks hEntry hReads (take_bufSize_ne_nil hLeft)
        rw [← hGoing.jobs, ← hGoing.source] at hTick
        have hPayload : carried turn
            (TransferJob.chunkName ends.source.platform task.files task.base entry)
            ((text.drop pos).take bufSize) = (text.drop pos).take bufSize :=
          carried_of_survives hFine.codec fun _ _ => hFine.compresses _
        obtain ⟨heard', hLinked, hFollowing⟩ :=
          hGoing.toLinked.block hSound hTick hText hPath hPos hFollows rfl rfl hPayload
        refine ⟨next, heard', ⟨hLinked, hAsks, .sends hNext hText ?_ hFollowing⟩⟩
        rw [List.length_take, List.length_drop]
        omega

/-- The same for a sender that does not ask. -/
theorem Unasked.step {k pos : Nat} {text : Bytes}
    (hUnasked : ends.Unasked task id sent job heard k pos text) (hSound : task.Sound)
    (hFine : Fine turn) :
    (∃ job' heard' k' pos' text',
      (ends.step turn).Unasked task id (fun i => sent i ∨ Sends i ends turn) job' heard' k' pos'
        text') ∨
      Over task (fun i => sent i ∨ Sends i ends turn) (ends.step turn) := by
  cases hEntry : task.files[k]? with
  | none =>
      right
      obtain ⟨next, hInit, hTurn, hKept, -, -⟩ := hUnasked.sending.turn_idle hEntry turn.1
      have hTick := handleReadJobs_of_none hUnasked.isLastJob hInit hTurn
        (hKept.asks.trans hUnasked.sending.asks) (hKept.skipped.trans hUnasked.skipped)
      rw [← hUnasked.jobs, ← hUnasked.source, hKept.id, hUnasked.id] at hTick
      cases hUnasked.follows with
      | behind hBehind hZero => exact hUnasked.toLinked.finish hSound hBehind hTick
      | here kept hPath hText hAt hKept hHolds hPlaced hSent =>
          rw [Task.text, Task.origin, hEntry] at hText
          cases hText
  | some entry =>
      left
      obtain ⟨whole, hText, hContent⟩ := hSound.text_of_entry hEntry
      obtain ⟨copy, -, hPath⟩ := hSound.path_of_entry hEntry
      -- Whatever was read so far was read from the file as it is.
      obtain ⟨hSending, hPos⟩ : job.Sending task.source task.base task.files k pos whole ∧
          pos ≤ whole.length := by
        rcases hUnasked.sending.stream with ⟨hNone, rfl⟩ | ⟨node, hStream, hNode⟩
        · exact ⟨⟨hUnasked.sending.dataSource, hUnasked.sending.files, hUnasked.sending.asks,
            hUnasked.sending.fileNum, Or.inl ⟨hNone, rfl⟩⟩, Nat.zero_le _⟩
        · obtain ⟨hKnown, hPos⟩ := hUnasked.known (by simp [hStream])
          rw [hText] at hKnown
          cases hKnown
          exact ⟨hUnasked.sending, hPos⟩
      have hServes := hFine.plan.serves job (whole.drop pos)
      by_cases hLeft : whole.drop pos = []
      · obtain ⟨next, hInit, hTurn, hKept, hNext, -⟩ :=
          hSending.turn_end hEntry hContent hServes hLeft
        have hTick := handleReadJobs_of_block hUnasked.isLastJob hInit hTurn
        rw [← hUnasked.jobs, ← hUnasked.source, hUnasked.id] at hTick
        obtain ⟨heard', hLinked, hBehind⟩ :=
          hUnasked.toLinked.block_end hSound hTick hText hPath hPos hUnasked.follows hLeft
        exact ⟨next, heard', k + 1, 0, [], ⟨hLinked, hNext [], hKept.id.trans hUnasked.id,
          hKept.isLastJob.trans hUnasked.isLastJob, hKept.skipped.trans hUnasked.skipped,
          fun hSome => absurd (TransferJob.Sending.closed hNext) hSome, .behind hBehind rfl⟩⟩
      · obtain ⟨next, hInit, hTurn, hKept, hNext, -⟩ :=
          hSending.turn_chunk hEntry hContent hServes (take_bufSize_ne_nil hLeft)
        have hTick := handleReadJobs_of_block hUnasked.isLastJob hInit hTurn
        rw [← hUnasked.jobs, ← hUnasked.source, hUnasked.id] at hTick
        have hPayload : carried turn
            (TransferJob.chunkName ends.source.platform task.files task.base entry)
            ((whole.drop pos).take bufSize) = (whole.drop pos).take bufSize :=
          carried_of_survives hFine.codec fun _ _ => hFine.compresses _
        obtain ⟨heard', hLinked, hFollowing⟩ :=
          hUnasked.toLinked.block hSound hTick hText hPath hPos hUnasked.follows rfl rfl hPayload
        refine ⟨next, heard', k, _, whole, ⟨hLinked, hNext, hKept.id.trans hUnasked.id,
          hKept.isLastJob.trans hUnasked.isLastJob, hKept.skipped.trans hUnasked.skipped,
          fun _ => ⟨hText, ?_⟩, hFollowing⟩⟩
        rw [List.length_take, List.length_drop]
        omega

theorem Over.step (hOver : Over task sent ends) (turn : ReadPlan × Env) :
    Over task (fun i => sent i ∨ Sends i ends turn) (ends.step turn) := by
  have hTick : handleReadJobs ends.source (fun _ => turn.1) ends.jobs = ([], [], none) := by
    rw [hOver.jobs]
    rfl
  rw [sends_of hTick (by simp), step_of hTick, List.foldl_nil]
  exact ⟨jobs_withJobs ends [], by rw [store_withJobs]; exact hOver.placed⟩

/-- The transfer is going on as it should, or over. -/
def Orderly (task : Task) (id : Int) (sent : Nat → Prop) (ends : Ends) : Prop :=
  (∃ job heard, ends.Going task id sent job heard) ∨
    (∃ job heard k pos text, ends.Unasked task id sent job heard k pos text) ∨ Over task sent ends

theorem Orderly.step (hOrderly : ends.Orderly task id sent) (hSound : task.Sound)
    (hFine : Fine turn) (hInStep : InStep task id ends turn) :
    (ends.step turn).Orderly task id (fun i => sent i ∨ Sends i ends turn) := by
  rcases hOrderly with ⟨job, heard, hGoing⟩ | ⟨job, heard, k, pos, text, hUnasked⟩ | hOver
  · rcases hGoing.step hSound hFine hInStep with hNext | hOver
    · exact Or.inl hNext
    · exact Or.inr (Or.inr hOver)
  · exact Or.inr (hUnasked.step hSound hFine)
  · exact Or.inr (Or.inr (hOver.step turn))

/-- When the sender is done, all that was sent on the way is in place. -/
theorem Orderly.placed (hOrderly : ends.Orderly task id sent) (hSound : task.Sound)
    {turns : List (ReadPlan × Env)} (hFine : ∀ turn ∈ turns, Fine turn)
    (hInStep : Trace.Always Ends.step (InStep task id) ends turns)
    (hDone : (Trace.run Ends.step ends turns).jobs = []) :
    task.Placed (fun i => sent i ∨ Trace.Once Ends.step (Sends i) ends turns)
      (Trace.run Ends.step ends turns).store := by
  induction turns generalizing ends sent with
  | nil =>
      rw [Trace.run_nil] at hDone
      rcases hOrderly with ⟨job, heard, hGoing⟩ | ⟨job, heard, k, pos, text, hUnasked⟩ | hOver
      · rw [hGoing.jobs] at hDone
        cases hDone
      · rw [hUnasked.jobs] at hDone
        cases hDone
      · simpa using hOver.placed
  | cons turn turns ih =>
      have hNext := hOrderly.step hSound (hFine turn List.mem_cons_self) hInStep.1
      have hRest := ih hNext (fun other hOther => hFine other (List.mem_cons_of_mem turn hOther))
        hInStep.2 hDone
      intro i path hSent hPath
      refine hRest i path ?_ hPath
      rcases hSent with hOld | hNow | hLater
      · exact Or.inl (Or.inl hOld)
      · exact Or.inl (Or.inr hNow)
      · exact Or.inr hLater

end Step

end Ends

/-- A job that was taken up again, and has not done anything yet. -/
structure TransferJob.Resumed (job : TransferJob) (id : Int) (path : Text) (files : List FileEntry)
    (first : Nat) : Prop where
  id : job.id = id
  type : job.type = .generic
  dataSource : job.dataSource = .filePath path
  files : job.files = files
  isLastJob : job.isLastJob = false
  isResume : job.isResume = true
  fileNum : job.fileNum = first
  stream : job.dataStream = none
  confirmed : job.fileConfirmed = false
  skipped : job.fileSkipped = false
  waiting : job.fileIsWaiting = false

namespace Ends

/-- A transfer that is taken up again: both jobs are at the same file, and what is
unfinished at the receiver is the beginning of what it should be. -/
structure Starts (task : Task) (id : Int) (first : Nat) (ends : Ends) (job heard : TransferJob) :
    Prop where
  source : ends.source = task.source
  platform : ends.store.platform = task.platform
  leftovers : task.Leftovers ends.store
  jobs : ends.jobs = [job]
  sender : job.Resumed id task.base task.files first
  found : getJob id ends.writeJobs = some heard
  receiver : heard.Resumed id task.target task.copies first

section Resumed
variable {task : Task} {id : Int} {first : Nat} {ends : Ends} {job heard : TransferJob}

theorem Starts.orderly (hStarts : ends.Starts task id first job heard) :
    ends.Orderly task id fun _ => False := by
  have hLinked : ends.Linked task id job heard :=
    ⟨hStarts.source, hStarts.jobs, hStarts.found,
      ⟨hStarts.receiver.id, hStarts.receiver.type, hStarts.receiver.dataSource,
        hStarts.receiver.files⟩, hStarts.platform⟩
  have hBehind : heard.Behind task (fun _ => False) first ends.store :=
    .fresh (fun _ hSent => hSent) hStarts.receiver.fileNum hStarts.receiver.stream
      hStarts.leftovers
  cases hAsks : job.enableOverwriteDetection with
  | true =>
      refine Or.inl ⟨job, heard, hLinked,
        ⟨hStarts.sender.id, hStarts.sender.type, hStarts.sender.dataSource, hStarts.sender.files,
          hAsks, hStarts.sender.isLastJob⟩, .idle ⟨hStarts.sender.fileNum, hStarts.sender.stream,
          hStarts.sender.confirmed, hStarts.sender.waiting⟩ hBehind ?_⟩
      exact fun _ _ _ hSent => hSent
  | false =>
      exact Or.inr (Or.inl ⟨job, heard, first, 0, [], hLinked,
        ⟨hStarts.sender.dataSource, hStarts.sender.files, hAsks, hStarts.sender.fileNum,
          Or.inl ⟨hStarts.sender.stream, rfl⟩⟩, hStarts.sender.id, hStarts.sender.isLastJob,
        hStarts.sender.skipped, fun hSome => absurd hStarts.sender.stream hSome,
        .behind hBehind rfl⟩)

/-- When a resumed transfer is over, each file that was sent is what it is at its
source, if the ends were together whenever a file was to be sent in part. -/
theorem placed_of_inStep (hSound : task.Sound) (hStarts : ends.Starts task id first job heard)
    {turns : List (ReadPlan × Env)} (hFine : ∀ turn ∈ turns, Fine turn)
    (hInStep : Trace.Always Ends.step (InStep task id) ends turns)
    (hDone : (Trace.run Ends.step ends turns).jobs = []) :
    task.Placed (fun k => Trace.Once Ends.step (Sends k) ends turns)
      (Trace.run Ends.step ends turns).store := by
  have hPlaced := hStarts.orderly.placed hSound hFine hInStep hDone
  exact fun k path hSent => hPlaced k path (Or.inr hSent)

end Resumed

/-- A turn at whose ends digests are written as two bytes. -/
def shortDigests : ReadPlan × Env where
  fst := framed.1
  snd :=
    { framed.2 with
      digestToJson := fun digest => [UInt8.ofNat digest.size, UInt8.ofNat digest.modified]
      digestFromJson := fun
        | [size, modified] => some { size := size.toNat, modified := modified.toNat }
        | _ => none }

theorem shortDigests_fine : Fine shortDigests :=
  ⟨⟨rfl, by decide⟩, rfl, ⟨framed_codec.inverts, framed_codec.empty⟩, fun _ => rfl⟩

/-- A job for files between two directories, taken up again at the first. -/
def resumed (path : Text) (files : List FileEntry) : TransferJob :=
  { TransferJob.newWrite 7 .generic [] (.filePath path) 0 false false files true with
    isResume := true }

theorem resumed_spec (path : Text) (files : List FileEntry) : (resumed path files).Resumed 7 path files 0 :=
  ⟨rfl, rfl, rfl, rfl, rfl, rfl, rfl, rfl, rfl, rfl, rfl⟩

/-- The beginning of a file with its digest. -/
def halfDone (path : Text) : Store where
  platform := .unix
  disk :=
    (Storage.Disk.empty.put (Lexical.Platform.unix.location (FileTransfer.download path)) [1] 0).put
      (Lexical.Platform.unix.location (digestPath path)) [2, 0] 0
  ops := []

/-- One file, of which a part has arrived before. -/
def oneFileTask : Task where
  source := oneFile
  base := "/s".toList
  files := [⟨"a".toList, 2, 0⟩]
  platform := .unix
  target := "/t".toList
  copies := [⟨"a".toList, 2, 0⟩]

def oneFileEnds : Ends :=
  download oneFile [resumed "/s".toList oneFileTask.files]
    { store := halfDone "/t/a".toList
      peerIsWindows := false
      supportsResume := true
      overwriteDetection := true
      writeJobs := [resumed "/t".toList oneFileTask.copies]
      readJobs := [] }

theorem oneFileTask_sound : oneFileTask.Sound where
  length := rfl
  there := by decide +kernel
  apart := by
    unfold Receiving.Apart
    decide +kernel
  alike := Task.alike_of_nodup (by decide +kernel)

theorem oneFileEnds_starts :
    oneFileEnds.Starts oneFileTask 7 0 (resumed "/s".toList oneFileTask.files)
      (resumed "/t".toList oneFileTask.copies) :=
  ⟨rfl, rfl, Task.leftovers_of_lt (by decide +kernel), rfl, resumed_spec _ _, rfl, resumed_spec _ _⟩

/-- While a file is open there is nothing to be announced. -/
theorem inStep_of_open {task : Task} {id : Int} {ends : Ends} (turn : ReadPlan × Env)
    (hOpen : ends.jobs.all fun job => job.dataStream.isSome) : InStep task id ends turn := by
  intro job hJob heard hFound hNone
  have hSome := List.all_eq_true.mp hOpen job hJob
  simp [hNone] at hSome

/-- Past the last file there is nothing to be announced either. -/
theorem inStep_of_past {task : Task} {id : Int} {ends : Ends} (turn : ReadPlan × Env)
    (hPast : ends.jobs.all fun job => (task.files.length : Int) ≤ job.fileNum) :
    InStep task id ends turn := by
  intro job hJob heard hFound hNone k origin path data hNum hOrigin
  have hEnd := List.all_eq_true.mp hPast job hJob
  obtain ⟨entry, hEntry, -⟩ := Option.map_eq_some_iff.mp hOrigin
  have hThere : k < task.files.length := (List.getElem?_eq_some_iff.mp hEntry).1
  rw [hNum, decide_eq_true_eq] at hEnd
  omega

theorem rest_of_file_arrives :
    oneFileTask.Placed
      (fun k => Trace.Once Ends.step (Sends k) oneFileEnds (List.replicate 4 shortDigests))
      (Trace.run Ends.step oneFileEnds (List.replicate 4 shortDigests)).store := by
  refine placed_of_inStep oneFileTask_sound oneFileEnds_starts ?_ ?_ ?_
  · intro turn hTurn
    rw [List.eq_of_mem_replicate hTurn]
    exact shortDigests_fine
  · refine ⟨?_, inStep_of_open _ (by decide +kernel), inStep_of_open _ (by decide +kernel), ?_,
      trivial⟩
    · intro job hJob heard hFound hNone k origin path data hNum hOrigin hPath hData hSize
      obtain rfl := List.mem_singleton.mp hJob
      obtain rfl : resumed "/t".toList oneFileTask.copies = heard := Option.some.inj hFound
      obtain rfl : k = 0 := by
        have hZero : (0 : Int) = k := hNum
        omega
      obtain rfl : "/s/a".toList = origin := Option.some.inj hOrigin
      have hNothing : oneFileTask.source.content (FileTransfer.download "/s/a".toList) = none := by
        decide +kernel
      refine ⟨rfl, fun other hOther => ?_⟩
      rw [hOther.1] at hNothing
      cases hNothing
    · exact inStep_of_past _ (by decide +kernel)
  · exact List.length_eq_zero_iff.mp (by decide +kernel)

/-- Two files, the second of which has arrived in part before. -/
def twoFilesTask : Task where
  source :=
    { oneFile with disk := oneFile.disk.put (Lexical.Platform.unix.location "/s/b".toList) [1, 3] 0 }
  base := "/s".toList
  files := [⟨"a".toList, 2, 0⟩, ⟨"b".toList, 2, 0⟩]
  platform := .unix
  target := "/t".toList
  copies := [⟨"a".toList, 2, 0⟩, ⟨"b".toList, 2, 0⟩]

def twoFilesEnds : Ends :=
  upload
    { store := twoFilesTask.source
      peerIsWindows := false
      supportsResume := true
      overwriteDetection := true
      writeJobs := []
      readJobs := [resumed "/s".toList twoFilesTask.files] }
    { store := halfDone "/t/b".toList
      writeJobs := [resumed "/t".toList twoFilesTask.copies] }

/-- The beginning of the second file is not sent again, and is thrown away by the
receiver, which is still at the first file when it gets the answer. -/
theorem beginning_lost :
    twoFilesTask.Sound ∧
      twoFilesEnds.Starts twoFilesTask 7 0 (resumed "/s".toList twoFilesTask.files)
        (resumed "/t".toList twoFilesTask.copies) ∧
      (∀ turn ∈ List.replicate 7 shortDigests, Fine turn) ∧
      (Trace.run Ends.step twoFilesEnds (List.replicate 7 shortDigests)).jobs = [] ∧
      ¬ twoFilesTask.Placed
        (fun k => Trace.Once Ends.step (Sends k) twoFilesEnds (List.replicate 7 shortDigests))
        (Trace.run Ends.step twoFilesEnds (List.replicate 7 shortDigests)).store := by
  refine ⟨?_, ?_, ?_, ?_, ?_⟩
  · exact ⟨rfl, by decide +kernel, by unfold Receiving.Apart; decide +kernel,
      Task.alike_of_nodup (by decide +kernel)⟩
  · exact ⟨rfl, rfl, Task.leftovers_of_lt (by decide +kernel), rfl, resumed_spec _ _, rfl,
      resumed_spec _ _⟩
  · intro turn hTurn
    rw [List.eq_of_mem_replicate hTurn]
    exact shortDigests_fine
  · exact List.length_eq_zero_iff.mp (by decide +kernel)
  · intro hPlaced
    have hSent : Trace.Once Ends.step (Sends 1) twoFilesEnds (List.replicate 7 shortDigests) := by
      refine Or.inr (Or.inr (Or.inr (Or.inr (Or.inl
        ⟨{ id := 7, fileNum := 1, data := [3], compressed := false }, rfl, ?_⟩))))
      decide +kernel
    have hWhole := hPlaced 1 "/t/b".toList hSent (by decide +kernel)
    exact absurd hWhole (by decide +kernel)

end Ends

end HibtDesk.FileTransfer
