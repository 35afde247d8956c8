import HibtDesk.FileTransfer.Containment
import HibtDesk.FileTransfer.Mirror
import Mathlib.Data.List.Forall2

/-! Whether the two drivers send the peer the same. They treat the job whose turn
it is alike; but `handle_read_jobs` also opens the jobs that wait behind it, and
announces their files, while the manager leaves those alone. -/
namespace HibtDesk.FileTransfer

/-- What was heard about one job: some words that leave it known, and perhaps a last one. -/
structure Heard (id : Int) (told : List FromCm) (finished : Bool) : Prop where
  split : ∃ known last, told = known ++ last ∧ (∀ word ∈ known, word.id = id ∧ word.ends = false) ∧
    ((last = [] ∧ finished = false) ∨
      ∃ word, last = [word] ∧ word.id = id ∧ word.ends = true ∧ finished = true)

theorem Heard.after {id : Int} {told more : List FromCm} {finished : Bool}
    (hMore : ∀ word ∈ more, word.id = id ∧ word.ends = false) (hHeard : Heard id told finished) :
    Heard id (more ++ told) finished := by
  obtain ⟨known, last, rfl, hKnown, hLast⟩ := hHeard.split
  refine ⟨more ++ known, last, by rw [List.append_assoc], fun word hWord => ?_, hLast⟩
  rcases List.mem_append.mp hWord with hIn | hIn
  · exact hMore word hIn
  · exact hKnown word hIn

section Manager
variable (store : Store) (plan : ReadPlan) {job : TransferJob}

/-- The manager opens a job as the connection does, and tells what it would send. -/
theorem initReadJobForCm_of_ok {digest : Option FileTransferDigest}
    (hOk : (job.initDataStream store plan).1 = .ok digest) :
    ∃ told, initReadJobForCm store plan job = (.ok told, (job.initDataStream store plan).2) ∧
      told.map FromCm.message = digest.toList.map JobMessage.digest ∧
      ∀ word ∈ told, word.id = job.id ∧ word.ends = false := by
  have hId := job.id_openDataStream store plan
  unfold initReadJobForCm TransferJob.initDataStreamForCm
  unfold TransferJob.initDataStream at hOk ⊢
  generalize job.openDataStream store plan = opened at hOk hId ⊢
  obtain ⟨result, after⟩ := opened
  cases result with
  | error error => cases hOk
  | ok past =>
      cases past with
      | true =>
          cases hOk
          exact ⟨[], rfl, rfl, by simp⟩
      | false =>
          dsimp only at hOk hId ⊢
          by_cases hAsks : after.type = .generic ∧ after.enableOverwriteDetection ∧
            !after.fileConfirmed ∧ !after.fileIsWaiting
          · simp only [if_pos hAsks] at hOk ⊢
            cases hDigest : after.getCurrentDigest store plan with
            | error error =>
                rw [hDigest] at hOk
                cases hOk
            | ok found =>
                rw [hDigest] at hOk
                cases hOk
                refine ⟨_, rfl, rfl, ?_⟩
                intro word hWord
                rw [List.mem_singleton.mp hWord]
                exact ⟨hId, rfl⟩
          · simp only [if_neg hAsks] at hOk ⊢
            cases hOk
            exact ⟨[], rfl, rfl, by simp⟩

/-- The manager reads a job as the connection does, and tells what it would send. -/
theorem readJobForCm_of_ok {block : Option FileTransferBlock}
    (hOk : (job.read store plan).1 = .ok block) :
    ((readJobForCm store plan job).1.map FromCm.message, (readJobForCm store plan job).2) =
      readJob store plan job ∧
    Heard job.id (readJobForCm store plan job).1 (readJobForCm store plan job).2.2 := by
  have hId := job.id_read store plan
  cases hRead : job.read store plan with
  | mk result after =>
      rw [hRead] at hOk hId
      unfold readJobForCm readJob
      rw [hRead]
      cases hOk
      cases block with
      | some block =>
          refine ⟨rfl, ⟨[.fileBlock block], [], rfl, ?_, Or.inl ⟨rfl, rfl⟩⟩⟩
          intro word hWord
          rw [List.mem_singleton.mp hWord]
          exact ⟨job.block_id store plan hRead, rfl⟩
      | none =>
          dsimp only at hId ⊢
          split
          · cases after.jobError with
            | some error => exact ⟨rfl, ⟨[], _, rfl, by simp, Or.inr ⟨_, rfl, hId, rfl, rfl⟩⟩⟩
            | none => exact ⟨rfl, ⟨[], _, rfl, by simp, Or.inr ⟨_, rfl, hId, rfl, rfl⟩⟩⟩
          · exact ⟨rfl, ⟨[], [], rfl, by simp, Or.inl ⟨rfl, rfl⟩⟩⟩

end Manager

namespace FromCm

theorem forwardAll_append (ids : List Int) (first second : List FromCm) :
    forwardAll ids (first ++ second) =
      ((forwardAll ids first).1 ++ (forwardAll (forwardAll ids first).2 second).1,
        (forwardAll (forwardAll ids first).2 second).2) := by
  induction first generalizing ids with
  | nil => rfl
  | cons word first ih =>
      simp only [List.cons_append, forwardAll]
      rw [ih]
      simp

theorem forwardAll_known {ids : List Int} {id : Int} (hId : id ∈ ids) {told : List FromCm}
    (hTold : ∀ word ∈ told, word.id = id ∧ word.ends = false) :
    forwardAll ids told = (told.map message, ids) := by
  induction told with
  | nil => rfl
  | cons word told ih =>
      obtain ⟨hWord, hGoesOn⟩ := hTold word List.mem_cons_self
      have hForward : forward ids word = ([word.message], ids) := by
        simp [forward, hWord, hId, hGoesOn]
      simp only [forwardAll, hForward]
      rw [ih fun other hOther => hTold other (List.mem_cons_of_mem _ hOther)]
      rfl

/-- All that is heard about a job the connection knows is handed on, and after the
last word it does not know the job any more. -/
theorem forwardAll_heard {ids : List Int} {id : Int} (hId : id ∈ ids) {told : List FromCm}
    {finished : Bool} (hHeard : Heard id told finished) :
    forwardAll ids told =
      (told.map message, if finished then ids.filter (· != id) else ids) := by
  obtain ⟨known, last, rfl, hKnown, hLast⟩ := hHeard.split
  rw [forwardAll_append, forwardAll_known hId hKnown]
  rcases hLast with ⟨rfl, rfl⟩ | ⟨word, rfl, rfl, hEnds, rfl⟩
  · simp [forwardAll]
  · simp [forwardAll, forward, hId, hEnds]

end FromCm

section Lists
variable {source : Store} {jobs cmJobs : List TransferJob} (file : Nat → Storage.File UInt8)
  (zstdCompress : Bytes → Option Bytes)

theorem initJobs_smooth (store : Store) (pieces : Nat → List Nat) (i : Nat) (jobs : List TransferJob) :
    initJobs store (fun i => .smooth zstdCompress (pieces i)) i jobs =
      initJobs store (fun _ => .smooth zstdCompress []) i jobs := by
  induction jobs generalizing i with
  | nil => rfl
  | cons job jobs ih =>
      unfold initJobs
      rw [ih]
      rfl

theorem readFirst_smooth (store : Store) (pieces : Nat → List Nat) (i : Nat)
    (jobs : List TransferJob) :
    readFirst store (fun i => .smooth zstdCompress (pieces i)) i jobs =
      readFirst store (fun _ => .smooth zstdCompress []) i jobs := by
  induction jobs generalizing i with
  | nil => rfl
  | cons job jobs ih =>
      unfold readFirst readJob
      rw [ih, read_smooth]

theorem tickLoop_smooth (store : Store) (pieces : Nat → List Nat) (i : Nat)
    (jobs : List TransferJob) :
    tickLoop store (fun i => .smooth zstdCompress (pieces i)) i jobs =
      tickLoop store (fun _ => .smooth zstdCompress []) i jobs := by
  induction jobs generalizing i with
  | nil => rfl
  | cons job jobs ih =>
      have hInit : initReadJobForCm store (.smooth zstdCompress (pieces i)) job =
          initReadJobForCm store (.smooth zstdCompress []) job := rfl
      have hRead : ∀ job, readJobForCm store (.smooth zstdCompress (pieces i)) job =
          readJobForCm store (.smooth zstdCompress []) job := by
        intro job
        unfold readJobForCm
        rw [read_smooth]
      unfold tickLoop
      rw [ih, hInit]
      simp only [hRead]

/-- Every job that goes on can be opened. -/
def AllOpen (store : Store) (plan : ReadPlan) (jobs : List TransferJob) : Prop :=
  ∀ job ∈ jobs, job.isLastJob = false → ∃ digest, (job.initDataStream store plan).1 = .ok digest

theorem AllOpen.tail {store : Store} {plan : ReadPlan} {job : TransferJob}
    (hOpens : AllOpen store plan (job :: jobs)) : AllOpen store plan jobs :=
  fun other hOther => hOpens other (List.mem_cons_of_mem _ hOther)

/-- The job whose turn it is can be read. -/
def NextReads (store : Store) (plan : ReadPlan) (i : Nat) (jobs : List TransferJob) : Prop :=
  ∀ place job, nextJob i jobs = some (place, job) → ∃ block,
    ((job.initDataStream store plan).2.read store plan).1 = .ok block

section NextReads
variable {store : Store} {plan : ReadPlan} {i : Nat} {job : TransferJob}

theorem NextReads.tail (hReads : NextReads store plan i (job :: jobs)) (hLast : job.isLastJob = true) :
    NextReads store plan (i + 1) jobs :=
  fun place other hNext => hReads place other (by simpa [nextJob, hLast] using hNext)

theorem NextReads.head (hReads : NextReads store plan i (job :: jobs)) (hLast : job.isLastJob = false) :
    ∃ block, ((job.initDataStream store plan).2.read store plan).1 = .ok block :=
  hReads i job (by simp [nextJob, hLast])

end NextReads

/-- The jobs that wait behind the one whose turn it is. -/
def behind (jobs : List TransferJob) : List TransferJob :=
  (jobs.filter fun job => !job.isLastJob).tail

/-- The jobs that wait send nothing if their files are announced. -/
theorem initJobs_behind (hAll : List.Forall₂ (TransferJob.Mirrors source) jobs cmJobs)
    (hOpens : AllOpen (source.holding file) (.smooth zstdCompress []) jobs)
    (hAnnounced : ∀ job ∈ cmJobs, job.isLastJob = false → ¬ job.Unannounced) (i : Nat) :
    (initJobs (source.holding file) (fun _ => .smooth zstdCompress []) i jobs).1 = [] ∧
      List.Forall₂ (TransferJob.Mirrors source)
        (initJobs (source.holding file) (fun _ => .smooth zstdCompress []) i jobs).2 cmJobs := by
  induction hAll generalizing i with
  | nil => exact ⟨rfl, .nil⟩
  | @cons job cmJob jobs cmJobs hHead hTail ih =>
      obtain ⟨hNone, hRest⟩ := ih hOpens.tail
        (fun other hOther => hAnnounced other (List.mem_cons_of_mem _ hOther)) (i + 1)
      unfold initJobs
      cases hLast : job.isLastJob with
      | true => exact ⟨hNone, .cons hHead hRest⟩
      | false =>
          obtain ⟨digest, hOk⟩ := hOpens job List.mem_cons_self hLast
          obtain ⟨rfl, hMirrors⟩ := hHead.behind
            (hAnnounced cmJob List.mem_cons_self (hHead.sameJob.isLastJob ▸ hLast)) file zstdCompress hOk
          generalize job.initDataStream (source.holding file) (.smooth zstdCompress []) = opened
            at hOk hMirrors
          obtain ⟨result, after⟩ := opened
          cases hOk
          exact ⟨hNone, .cons hMirrors hRest⟩

section Turn
variable {store : Store} {plan : Nat → ReadPlan} {i : Nat} {job : TransferJob}
  (jobs : List TransferJob)

theorem initJobs_live (hLast : job.isLastJob = false) {digest : Option FileTransferDigest}
    (hOk : (job.initDataStream store (plan i)).1 = .ok digest) :
    initJobs store plan i (job :: jobs) =
      (digest.toList.map JobMessage.digest ++ (initJobs store plan (i + 1) jobs).1,
        (job.initDataStream store (plan i)).2 :: (initJobs store plan (i + 1) jobs).2) := by
  rw [initJobs]
  generalize job.initDataStream store (plan i) = opened at hOk
  obtain ⟨result, after⟩ := opened
  cases hOk
  cases digest <;> simp [hLast]

theorem readFirst_live (hLast : job.isLastJob = false) :
    readFirst store plan i (job :: jobs) =
      ((readJob store (plan i) job).1, (readJob store (plan i) job).2.1 :: jobs,
        if (readJob store (plan i) job).2.2 then some (readJob store (plan i) job).2.1 else none) := by
  unfold readFirst
  simp [hLast]

theorem tickLoop_live (hLast : job.isLastJob = false) {told : List FromCm} {opened : TransferJob}
    (hInit : initReadJobForCm store (plan i) job = (.ok told, opened)) :
    tickLoop store plan i (job :: jobs) =
      (told ++ (readJobForCm store (plan i) opened).1,
        (readJobForCm store (plan i) opened).2.1 :: jobs,
        if (readJobForCm store (plan i) opened).2.2 then
          [(readJobForCm store (plan i) opened).2.1.id] else []) := by
  unfold tickLoop
  simp [hLast, hInit]

end Turn

/-- A tick goes alike in both drivers: the messages are the same, the jobs still stand to
each other as they should, the same job is finished, and the manager has told about no
other job. -/
structure Alike (source store : Store) (plan : Nat → ReadPlan) (i : Nat)
    (jobs cmJobs : List TransferJob) : Prop where
  messages : (initJobs store plan i jobs).1 ++ (readFirst store plan i (initJobs store plan i jobs).2).1 =
    (tickLoop store plan i cmJobs).1.map FromCm.message
  mirrors : List.Forall₂ (TransferJob.Mirrors source)
    (readFirst store plan i (initJobs store plan i jobs).2).2.1 (tickLoop store plan i cmJobs).2.1
  finished : (readFirst store plan i (initJobs store plan i jobs).2).2.2.toList.map TransferJob.id =
    (tickLoop store plan i cmJobs).2.2
  heard : ((tickLoop store plan i cmJobs).1 = [] ∧ (tickLoop store plan i cmJobs).2.2 = []) ∨
    ∃ id ∈ cmJobs.map TransferJob.id, ∃ finished, Heard id (tickLoop store plan i cmJobs).1 finished ∧
      (tickLoop store plan i cmJobs).2.2 = if finished then [id] else []

theorem Alike.cons_last {store : Store} {plan : Nat → ReadPlan} {i : Nat} {job cmJob : TransferJob}
    (hAlike : Alike source store plan (i + 1) jobs cmJobs)
    (hHead : TransferJob.Mirrors source job cmJob) (hLast : job.isLastJob = true) :
    Alike source store plan i (job :: jobs) (cmJob :: cmJobs) := by
  have hCmLast : cmJob.isLastJob = true := hHead.sameJob.isLastJob ▸ hLast
  have hOpened : initJobs store plan i (job :: jobs) =
      ((initJobs store plan (i + 1) jobs).1, job :: (initJobs store plan (i + 1) jobs).2) := by
    rw [initJobs]
    simp [hLast]
  have hTurn : ∀ rest, readFirst store plan i (job :: rest) =
      ((readFirst store plan (i + 1) rest).1, job :: (readFirst store plan (i + 1) rest).2.1,
        (readFirst store plan (i + 1) rest).2.2) := by
    intro rest
    rw [readFirst]
    simp [hLast]
  have hTick : tickLoop store plan i (cmJob :: cmJobs) =
      ((tickLoop store plan (i + 1) cmJobs).1, cmJob :: (tickLoop store plan (i + 1) cmJobs).2.1,
        (tickLoop store plan (i + 1) cmJobs).2.2) := by
    rw [tickLoop]
    simp [hCmLast]
  constructor
  · rw [hOpened, hTurn, hTick]
    exact hAlike.messages
  · rw [hOpened, hTurn, hTick]
    exact .cons hHead hAlike.mirrors
  · rw [hOpened, hTurn, hTick]
    exact hAlike.finished
  · rw [hTick]
    rcases hAlike.heard with hNothing | ⟨id, hId, hWords⟩
    · exact Or.inl hNothing
    · exact Or.inr ⟨id, List.mem_cons_of_mem _ hId, hWords⟩

/-- The job whose turn it is is opened and read by both, and the jobs behind it send nothing. -/
theorem alike_of_live (hTail : List.Forall₂ (TransferJob.Mirrors source) jobs cmJobs) {i : Nat}
    {job cmJob : TransferJob} (hHead : TransferJob.Mirrors source job cmJob)
    (hLast : job.isLastJob = false)
    (hOpens : AllOpen (source.holding file) (.smooth zstdCompress []) (job :: jobs))
    (hReads : NextReads (source.holding file) (.smooth zstdCompress []) i (job :: jobs))
    (hAnnounced : ∀ waiting ∈ cmJobs, waiting.isLastJob = false → ¬ waiting.Unannounced) :
    Alike source (source.holding file) (fun _ => .smooth zstdCompress []) i (job :: jobs)
      (cmJob :: cmJobs) := by
  let store := source.holding file
  let plan := fun _ : Nat => ReadPlan.smooth zstdCompress []
  have hCmLast : cmJob.isLastJob = false := hHead.sameJob.isLastJob ▸ hLast
  obtain ⟨hNone, hRest⟩ := initJobs_behind file zstdCompress hTail hOpens.tail hAnnounced (i + 1)
  obtain ⟨digest, hOk⟩ := hOpens job List.mem_cons_self hLast
  obtain ⟨block, hRead⟩ := hReads.head hLast
  obtain ⟨hCmOk, hReadSame, hTold, hFinished, hMirrors⟩ := hHead.turn file zstdCompress hOk
  obtain ⟨words, hInit, hDigest, hWords⟩ := initReadJobForCm_of_ok _ _ hCmOk
  obtain ⟨hTurn, hHeard⟩ := readJobForCm_of_ok _ _ (hReadSame.symm.trans hRead)
  rw [TransferJob.id_initDataStream] at hHeard
  have hOpenedLast : (job.initDataStream store (plan i)).2.isLastJob = false :=
    (TransferJob.SameTask.initDataStream store (plan i) job).isLastJob.trans hLast
  have hCmTurn : (readJobForCm store (plan i) (cmJob.initDataStream store (plan i)).2).2 =
      (readJob store (plan i) (cmJob.initDataStream store (plan i)).2).2 :=
    congrArg Prod.snd hTurn
  have hCmTold : (readJobForCm store (plan i)
      (cmJob.initDataStream store (plan i)).2).1.map FromCm.message =
      (readJob store (plan i) (cmJob.initDataStream store (plan i)).2).1 :=
    congrArg Prod.fst hTurn
  have hCmId : (readJob store (plan i) (cmJob.initDataStream store (plan i)).2).2.1.id = cmJob.id := by
    rw [TransferJob.id_readJob, TransferJob.id_initDataStream]
  constructor
  · rw [initJobs_live jobs hLast hOk, tickLoop_live cmJobs hCmLast hInit]
    dsimp only
    rw [readFirst_live _ hOpenedLast, hNone, List.append_nil, List.map_append, hDigest, hCmTold]
    exact congrArg _ hTold
  · rw [initJobs_live jobs hLast hOk, tickLoop_live cmJobs hCmLast hInit, readFirst_live _ hOpenedLast]
    dsimp only
    rw [hCmTurn]
    exact .cons hMirrors hRest
  · rw [initJobs_live jobs hLast hOk, tickLoop_live cmJobs hCmLast hInit, readFirst_live _ hOpenedLast]
    dsimp only
    rw [hCmTurn, ← hFinished, ← hMirrors.sameJob.id]
    split <;> rfl
  · rw [tickLoop_live cmJobs hCmLast hInit]
    dsimp only
    refine Or.inr ⟨cmJob.id, List.mem_cons_self, _, hHeard.after hWords, ?_⟩
    rw [hCmTurn, hCmId]

/-- A tick goes alike in both drivers if the files of all jobs that wait are announced. -/
theorem tick_mirrors (hAll : List.Forall₂ (TransferJob.Mirrors source) jobs cmJobs)
    (hOpens : AllOpen (source.holding file) (.smooth zstdCompress []) jobs) (i : Nat)
    (hReads : NextReads (source.holding file) (.smooth zstdCompress []) i jobs)
    (hAnnounced : ∀ job ∈ behind cmJobs, ¬ job.Unannounced) :
    Alike source (source.holding file) (fun _ => .smooth zstdCompress []) i jobs cmJobs := by
  induction hAll generalizing i with
  | nil => exact ⟨rfl, .nil, rfl, Or.inl ⟨rfl, rfl⟩⟩
  | @cons job cmJob jobs cmJobs hHead hTail ih =>
      have hCmLast : job.isLastJob = cmJob.isLastJob := hHead.sameJob.isLastJob
      cases hLast : job.isLastJob with
      | true =>
          have hBehind : behind (cmJob :: cmJobs) = behind cmJobs := by
            simp [behind, ← hCmLast, hLast]
          rw [hBehind] at hAnnounced
          exact (ih hOpens.tail (i + 1) (hReads.tail hLast) hAnnounced).cons_last hHead hLast
      | false =>
          have hBehind : behind (cmJob :: cmJobs) = cmJobs.filter fun job => !job.isLastJob := by
            simp [behind, ← hCmLast, hLast]
          rw [hBehind] at hAnnounced
          refine alike_of_live file zstdCompress hTail hHead hLast hOpens hReads ?_
          intro waiting hIn hLive
          exact hAnnounced waiting (List.mem_filter.mpr ⟨hIn, by simp [hLive]⟩)

/-- A job that waits with a file not announced yet has the connection announce it. -/
theorem initJobs_loud (hAll : List.Forall₂ (TransferJob.Mirrors source) jobs cmJobs)
    (hOpens : AllOpen (source.holding file) (.smooth zstdCompress []) jobs)
    {loud : TransferJob} (hIn : loud ∈ cmJobs) (hLive : loud.isLastJob = false)
    (hLoud : loud.Unannounced) (i : Nat) :
    ∃ sent, JobMessage.digest sent ∈
        (initJobs (source.holding file) (fun _ => .smooth zstdCompress []) i jobs).1 ∧
      sent.id = loud.id := by
  induction hAll generalizing i with
  | nil => cases hIn
  | @cons job cmJob jobs cmJobs hHead hTail ih =>
      have hLater : loud ∈ cmJobs → ∃ sent, JobMessage.digest sent ∈
          (initJobs (source.holding file) (fun _ => .smooth zstdCompress []) (i + 1) jobs).1 ∧
          sent.id = loud.id :=
        fun hIn => ih hOpens.tail hIn (i + 1)
      cases hLast : job.isLastJob with
      | true =>
          rcases List.mem_cons.mp hIn with rfl | hIn
          · rw [← hHead.sameJob.isLastJob, hLast] at hLive
            cases hLive
          · rw [initJobs]
            simp only [hLast, if_true]
            exact hLater hIn
      | false =>
          obtain ⟨digest, hOk⟩ := hOpens job List.mem_cons_self hLast
          rw [initJobs_live jobs hLast hOk]
          rcases List.mem_cons.mp hIn with rfl | hIn
          · have hJob : job.Unannounced := by
              rcases hHead.same with rfl | ⟨hSilent, -⟩
              · exact hLoud
              · exact absurd hLoud.1 (by rw [hSilent]; simp)
            obtain ⟨sent, rfl, hId⟩ :=
              hHead.overFiles.init_of_unannounced hJob file zstdCompress hOk
            exact ⟨sent, by simp, hId.trans hHead.sameJob.id⟩
          · obtain ⟨sent, hSent, hId⟩ := hLater hIn
            exact ⟨sent, List.mem_append_right _ hSent, hId⟩

theorem Heard.id_eq {id : Int} {told : List FromCm} {finished : Bool}
    (hHeard : Heard id told finished) {word : FromCm} (hWord : word ∈ told) : word.id = id := by
  obtain ⟨known, last, rfl, hKnown, hLast⟩ := hHeard.split
  rcases List.mem_append.mp hWord with hIn | hIn
  · exact (hKnown word hIn).1
  · rcases hLast with ⟨rfl, -⟩ | ⟨only, rfl, hId, -⟩
    · cases hIn
    · rw [List.mem_singleton.mp hIn]
      exact hId

/-- The manager only tells about the job whose turn it is. -/
theorem tickLoop_told (hAll : List.Forall₂ (TransferJob.Mirrors source) jobs cmJobs)
    (hOpens : AllOpen (source.holding file) (.smooth zstdCompress []) jobs)
    (i : Nat)
    (hReads : NextReads (source.holding file) (.smooth zstdCompress []) i jobs)
    {first : TransferJob} {rest : List TransferJob}
    (hFirst : (cmJobs.filter fun job => !job.isLastJob) = first :: rest) :
    ∀ word ∈ (tickLoop (source.holding file) (fun _ => .smooth zstdCompress []) i cmJobs).1,
      word.id = first.id := by
  induction hAll generalizing i with
  | nil => cases hFirst
  | @cons job cmJob jobs cmJobs hHead hTail ih =>
      cases hLast : job.isLastJob with
      | true =>
          have hCmLast : cmJob.isLastJob = true := hHead.sameJob.isLastJob ▸ hLast
          rw [tickLoop]
          simp only [hCmLast, if_true]
          exact ih hOpens.tail (i + 1) (hReads.tail hLast)
            (by simpa [hCmLast] using hFirst)
      | false =>
          have hCmLast : cmJob.isLastJob = false := hHead.sameJob.isLastJob ▸ hLast
          obtain ⟨digest, hOk⟩ := hOpens job List.mem_cons_self hLast
          obtain ⟨block, hRead⟩ := hReads.head hLast
          obtain ⟨hCmOk, hReadSame, -⟩ := hHead.turn file zstdCompress hOk
          obtain ⟨words, hInit, -, hWords⟩ := initReadJobForCm_of_ok _ _ hCmOk
          obtain ⟨-, hHeard⟩ := readJobForCm_of_ok _ _ (hReadSame.symm.trans hRead)
          rw [TransferJob.id_initDataStream] at hHeard
          have hSame : cmJob = first := by
            rw [List.filter_cons_of_pos (by simp [hCmLast])] at hFirst
            exact (List.cons.inj hFirst).1
          rw [tickLoop_live cmJobs hCmLast hInit, ← hSame]
          exact fun word hWord => (hHeard.after hWords).id_eq hWord

end Lists

section Removal
variable {source : Store} {jobs cmJobs : List TransferJob}

theorem forall₂_removeJob (hAll : List.Forall₂ (TransferJob.Mirrors source) jobs cmJobs) (id : Int) :
    List.Forall₂ (TransferJob.Mirrors source) (removeJob id jobs).2 (removeJob id cmJobs).2 := by
  unfold removeJob
  induction hAll with
  | nil => exact .nil
  | @cons job cmJob jobs cmJobs hHead hTail ih =>
      by_cases hId : cmJob.id = id
      · rw [List.eraseP_cons_of_pos (by simp [hHead.sameJob.id, hId]),
          List.eraseP_cons_of_pos (by simp [hId])]
        exact hTail
      · rw [List.eraseP_cons_of_neg (by simp [hHead.sameJob.id, hId]),
          List.eraseP_cons_of_neg (by simp [hId])]
        exact .cons hHead ih

theorem id_ne_of_mem_removeJob {id : Int} (hIds : (jobs.map TransferJob.id).Nodup)
    {job : TransferJob} (hJob : job ∈ (removeJob id jobs).2) : job.id ≠ id := by
  unfold removeJob at hJob
  induction jobs with
  | nil => cases hJob
  | cons first jobs ih =>
      rw [List.map_cons, List.nodup_cons] at hIds
      by_cases hId : first.id = id
      · rw [List.eraseP_cons_of_pos (by simp [hId])] at hJob
        rintro rfl
        exact hIds.1 (hId ▸ List.mem_map_of_mem hJob)
      · rw [List.eraseP_cons_of_neg (by simp [hId])] at hJob
        rcases List.mem_cons.mp hJob with rfl | hRest
        · exact hId
        · exact ih hIds.2 hRest

/-- Both lists have the job of an id in the same place. -/
theorem getJob_mirrors (hAll : List.Forall₂ (TransferJob.Mirrors source) jobs cmJobs) (id : Int) :
    (getJob id jobs = none ∧ getJob id cmJobs = none) ∨
      ∃ job cmJob, getJob id jobs = some job ∧ getJob id cmJobs = some cmJob ∧
        TransferJob.Mirrors source job cmJob ∧
        ∀ after cmAfter, TransferJob.Mirrors source after cmAfter →
          List.Forall₂ (TransferJob.Mirrors source) (putJob id after jobs)
            (putJob id cmAfter cmJobs) := by
  induction hAll with
  | nil => exact Or.inl ⟨rfl, rfl⟩
  | @cons job cmJob jobs cmJobs hHead hTail ih =>
      unfold getJob putJob
      by_cases hId : cmJob.id = id
      · have hJobId : job.id = id := hHead.sameJob.id.trans hId
        refine Or.inr ⟨job, cmJob, by simp [hJobId], by simp [hId], hHead, ?_⟩
        intro after cmAfter hAfter
        simpa [hJobId, hId] using ⟨hAfter, hTail⟩
      · have hJobId : job.id ≠ id := fun hSame => hId (hHead.sameJob.id.symm.trans hSame)
        rw [List.find?_cons_of_neg (by simpa using hJobId),
          List.find?_cons_of_neg (by simpa using hId)]
        rcases ih with hNone | ⟨found, cmFound, hFound, hCmFound, hMirrors, hPut⟩
        · exact Or.inl hNone
        · refine Or.inr ⟨found, cmFound, hFound, hCmFound, hMirrors, ?_⟩
          intro after cmAfter hAfter
          simpa [hJobId, hId] using ⟨hHead, hPut after cmAfter hAfter⟩

theorem putJob_ids {id : Int} {job : TransferJob} (hId : job.id = id) (jobs : List TransferJob) :
    (putJob id job jobs).map TransferJob.id = jobs.map TransferJob.id := by
  induction jobs with
  | nil => rfl
  | cons first jobs ih =>
      unfold putJob
      by_cases hFirst : first.id = id
      · simp [hFirst, hId]
      · simpa [hFirst] using ih

/-- Opening a job does the same to it in both drivers. -/
theorem initReadJobForCm_job (store : Store) (plan : ReadPlan) (job : TransferJob) :
    (initReadJobForCm store plan job).2 = (job.initDataStream store plan).2 := by
  unfold initReadJobForCm TransferJob.initDataStreamForCm TransferJob.initDataStream
  obtain ⟨result, after⟩ := job.openDataStream store plan
  cases result with
  | error error => rfl
  | ok past =>
      cases past with
      | true => rfl
      | false =>
          dsimp only
          by_cases hAsks : after.type = .generic ∧ after.enableOverwriteDetection ∧
            !after.fileConfirmed ∧ !after.fileIsWaiting
          · simp only [if_pos hAsks]
            cases after.getCurrentDigest store plan <;> rfl
          · simp only [if_neg hAsks]

/-- So does its turn. -/
theorem readJobForCm_job (store : Store) (plan : ReadPlan) (job : TransferJob) :
    (readJobForCm store plan job).2.1 = (readJob store plan job).2.1 := by
  rw [TransferJob.readJob_job]
  unfold readJobForCm
  obtain ⟨result, after⟩ := job.read store plan
  cases result with
  | error error => rfl
  | ok block =>
      cases block with
      | some block => rfl
      | none =>
          dsimp only
          split
          · split <;> rfl
          · rfl

theorem tickLoop_ids (store : Store) (plan : Nat → ReadPlan) (i : Nat) (jobs : List TransferJob) :
    (tickLoop store plan i jobs).2.1.map TransferJob.id = jobs.map TransferJob.id := by
  induction jobs generalizing i with
  | nil => rfl
  | cons job jobs ih =>
      rw [tickLoop]
      split
      · simp [ih]
      · have hInit : (initReadJobForCm store (plan i) job).2.id = job.id := by
          rw [initReadJobForCm_job, TransferJob.id_initDataStream]
        generalize initReadJobForCm store (plan i) job = opened at hInit
        obtain ⟨result, after⟩ := opened
        cases result with
        | error error => simpa [ih] using hInit
        | ok told => simpa [readJobForCm_job, TransferJob.id_readJob] using hInit

end Removal

/-- The job a message is about. -/
def JobMessage.id : JobMessage → Int
  | digest d => d.id
  | block b => b.id
  | error id .. => id
  | done id _ => id

namespace FromCm

theorem id_message (told : FromCm) : told.message.id = told.id := by
  cases told <;> rfl

theorem told_of_forwardAll {ids : List Int} {told : List FromCm} {message : JobMessage}
    (hMessage : message ∈ (forwardAll ids told).1) : ∃ word ∈ told, word.message = message := by
  induction told generalizing ids with
  | nil => cases hMessage
  | cons word told ih =>
      rw [forwardAll, List.mem_append] at hMessage
      rcases hMessage with hFirst | hLater
      · unfold forward at hFirst
        split at hFirst
        · exact ⟨word, List.mem_cons_self, (List.mem_singleton.mp hFirst).symm⟩
        · cases hFirst
      · obtain ⟨other, hOther, hSame⟩ := ih hLater
        exact ⟨other, List.mem_cons_of_mem _ hOther, hSame⟩

end FromCm

/-- A tick of the timer, with what the files hold and how many bytes each read returns
to the one driver and to the other; or an answer of the peer. -/
inductive DriverEvent where
  | tick (file : Nat → Storage.File UInt8) (pieces cmPieces : Nat → List Nat)
  | confirm (r : FileTransferSendConfirmRequest)

/-- The same jobs in both drivers, with what the peer was sent about them: the jobs a
connection reads itself, and those the manager reads for it. -/
structure Drivers where
  jobs : List TransferJob
  sent : List JobMessage
  cmJobs : List TransferJob
  cmReadJobIds : List Int
  cmSent : List JobMessage

namespace Drivers
variable (source : Store) (zstdCompress : Bytes → Option Bytes)

def start (jobs : List TransferJob) : Drivers where
  jobs := jobs
  sent := []
  cmJobs := jobs
  cmReadJobIds := jobs.map TransferJob.id
  cmSent := []

/-- The event in both drivers. A confirmation goes to the manager only for a job the
connection still knows. -/
def step (now : Drivers) : DriverEvent → Drivers
  | .tick file pieces cmPieces =>
      let store := source.holding file
      let turn := handleReadJobs store (fun i => .smooth zstdCompress (pieces i)) now.jobs
      let tick := handleReadJobsTick store (fun i => .smooth zstdCompress (cmPieces i)) now.cmJobs
      let handed := FromCm.forwardAll now.cmReadJobIds tick.1
      { jobs := turn.2.1
        sent := now.sent ++ turn.1
        cmJobs := tick.2
        cmReadJobIds := handed.2
        cmSent := now.cmSent ++ handed.1 }
  | .confirm r =>
      { now with
        jobs := readStep now.jobs (.confirm source .none r)
        cmJobs :=
          if now.cmReadJobIds.contains r.id then
            sendConfirmForRead source .none r.id r.skip r.offsetBlk now.cmJobs
          else now.cmJobs }

/-- About every job the peer was sent the same. -/
def Agree (now : Drivers) : Prop :=
  ∀ id, now.sent.filter (fun message => message.id == id) =
    now.cmSent.filter (fun message => message.id == id)

/-- Everything the operating system is asked for at a tick succeeds; a confirmation
says what to do with the file the job is at. -/
def Succeeds (now : Drivers) : DriverEvent → Prop
  | .tick file _ _ =>
      let store := source.holding file
      let plan := ReadPlan.smooth zstdCompress []
      (∀ job ∈ now.jobs, job.isLastJob = false → ∃ digest,
        (job.initDataStream store plan).1 = .ok digest) ∧
      ∀ place job, nextJob 0 now.jobs = some (place, job) → ∃ block,
        ((job.initDataStream store plan).2.read store plan).1 = .ok block
  | .confirm r =>
      r.union.isSome = true ∧ ∀ job, getJob r.id now.jobs = some job → r.fileNum = job.fileNum

instance {ε α : Type} : (result : Except ε α) → Decidable (∃ value, result = .ok value)
  | .ok value => .isTrue ⟨value, rfl⟩
  | .error _ => .isFalse (by simp)

instance (now : Drivers) : (event : DriverEvent) → Decidable (Succeeds source zstdCompress now event)
  | .tick file _ _ =>
      let store := source.holding file
      let plan := ReadPlan.smooth zstdCompress []
      decidable_of_iff
        ((∀ job ∈ now.jobs, job.isLastJob = false → ∃ digest,
            (job.initDataStream store plan).1 = .ok digest) ∧
          ∀ next ∈ nextJob 0 now.jobs, ∃ block,
            ((next.2.initDataStream store plan).2.read store plan).1 = .ok block)
        (by simp [Succeeds, Prod.forall, store, plan])
  | .confirm r =>
      inferInstanceAs (Decidable (r.union.isSome = true ∧
        ∀ job ∈ getJob r.id now.jobs, r.fileNum = job.fileNum))

/-- At a tick, no job that waits behind another has a file the receiver is yet to be
asked about. -/
def NoneWaits (now : Drivers) : DriverEvent → Prop
  | .tick .. => ∀ job ∈ behind now.cmJobs, ¬ job.Unannounced
  | .confirm _ => True

instance (now : Drivers) : (event : DriverEvent) → Decidable (NoneWaits now event)
  | .tick .. => inferInstanceAs (Decidable (∀ job ∈ behind now.cmJobs, ¬ job.Unannounced))
  | .confirm _ => inferInstanceAs (Decidable True)

/-- The jobs stand to each other as they should, and all was handed on. -/
structure Matched (now : Drivers) : Prop where
  mirrors : List.Forall₂ (TransferJob.Mirrors source) now.jobs now.cmJobs
  distinct : (now.cmJobs.map TransferJob.id).Nodup
  known : ∀ job ∈ now.cmJobs, job.id ∈ now.cmReadJobIds
  sent : now.sent = now.cmSent

section Step
variable {source} {zstdCompress} {now : Drivers}

theorem Matched.agree (h : Matched source now) : now.Agree := by
  intro id
  rw [h.sent]

/-- A tick keeps the drivers together if no job has to be announced that waits. -/
theorem Matched.tick (h : Matched source now) (file : Nat → Storage.File UInt8)
    (pieces cmPieces : Nat → List Nat)
    (hSucceeds : Succeeds source zstdCompress now (.tick file pieces cmPieces))
    (hNone : NoneWaits now (.tick file pieces cmPieces)) :
    Matched source (step source zstdCompress now (.tick file pieces cmPieces)) := by
  obtain ⟨hOpens, hReads⟩ := hSucceeds
  obtain ⟨hMessages, hAll, hSame, hHeard⟩ :=
    tick_mirrors file zstdCompress h.mirrors hOpens 0 hReads hNone
  have hIds := tickLoop_ids (source.holding file) (fun _ => .smooth zstdCompress []) 0 now.cmJobs
  unfold step handleReadJobs handleReadJobsTick
  dsimp only at hMessages hAll hSame hHeard ⊢
  rw [initJobs_smooth, readFirst_smooth, tickLoop_smooth]
  generalize initJobs (source.holding file) (fun _ => .smooth zstdCompress []) 0 now.jobs = opened
    at hMessages hAll hSame hHeard ⊢
  generalize readFirst (source.holding file) (fun _ => .smooth zstdCompress []) 0 opened.2 = turn
    at hMessages hAll hSame hHeard ⊢
  generalize tickLoop (source.holding file) (fun _ => .smooth zstdCompress []) 0 now.cmJobs = tick
    at hMessages hAll hSame hHeard hIds ⊢
  obtain ⟨messages, jobs, finished⟩ := turn
  obtain ⟨told, cmJobs, cmFinished⟩ := tick
  dsimp only at hMessages hAll hSame hHeard hIds ⊢
  have hDistinct : (cmJobs.map TransferJob.id).Nodup := hIds ▸ h.distinct
  have hKnown : ∀ job ∈ cmJobs, job.id ∈ now.cmReadJobIds := by
    intro job hJob
    have hId : job.id ∈ now.cmJobs.map TransferJob.id := hIds ▸ List.mem_map_of_mem hJob
    obtain ⟨old, hOld, hOldId⟩ := List.mem_map.mp hId
    exact hOldId ▸ h.known old hOld
  have hWords : (told = [] ∧ cmFinished = []) ∨ ∃ id ∈ now.cmReadJobIds, ∃ last,
      Heard id told last ∧ cmFinished = if last then [id] else [] := by
    rcases hHeard with hNothing | ⟨id, hId, hWords⟩
    · exact Or.inl hNothing
    · obtain ⟨old, hOld, hOldId⟩ := List.mem_map.mp hId
      exact Or.inr ⟨id, hOldId ▸ h.known old hOld, hWords⟩
  rcases hWords with ⟨rfl, rfl⟩ | ⟨id, hId, last, hWords, rfl⟩
  · obtain rfl : finished = none := by
      cases finished with
      | none => rfl
      | some job => cases hSame
    refine ⟨hAll, hDistinct, hKnown, ?_⟩
    rw [h.sent, hMessages]
    rfl
  · rw [FromCm.forwardAll_heard hId hWords]
    cases last with
    | false =>
        obtain rfl : finished = none := by
          cases finished with
          | none => rfl
          | some job => cases hSame
        refine ⟨hAll, hDistinct, hKnown, ?_⟩
        rw [h.sent, hMessages]
    | true =>
        cases finished with
        | none => cases hSame
        | some job =>
            obtain rfl : job.id = id := by simpa using hSame
            refine ⟨forall₂_removeJob hAll _, ?_, ?_, ?_⟩
            · exact hDistinct.sublist (List.eraseP_sublist.map _)
            · intro other hOther
              have hNe := id_ne_of_mem_removeJob hDistinct hOther
              simpa [hNe] using hKnown other (mem_removeJob hOther)
            · rw [h.sent, hMessages]

/-- A tick at which a job that waits is announced sets the drivers apart. -/
theorem Matched.tick_apart (h : Matched source now) (file : Nat → Storage.File UInt8)
    (pieces cmPieces : Nat → List Nat)
    (hSucceeds : Succeeds source zstdCompress now (.tick file pieces cmPieces))
    (hWaits : ¬ NoneWaits now (.tick file pieces cmPieces)) :
    ¬ (step source zstdCompress now (.tick file pieces cmPieces)).Agree := by
  obtain ⟨hOpens, hReads⟩ := hSucceeds
  unfold NoneWaits at hWaits
  push Not at hWaits
  obtain ⟨loud, hBehind, hLoud⟩ := hWaits
  unfold behind at hBehind
  cases hFirst : (now.cmJobs.filter fun job => !job.isLastJob) with
  | nil =>
      rw [hFirst] at hBehind
      cases hBehind
  | cons first rest =>
      rw [hFirst, List.tail_cons] at hBehind
      have hFound : loud ∈ now.cmJobs.filter fun job => !job.isLastJob := by
        rw [hFirst]
        exact List.mem_cons_of_mem _ hBehind
      obtain ⟨hIn, hLive⟩ := List.mem_filter.mp hFound
      have hOther : loud.id ≠ first.id := by
        have hDistinct : ((first :: rest).map TransferJob.id).Nodup :=
          hFirst ▸ h.distinct.sublist (List.filter_sublist.map _)
        rw [List.map_cons, List.nodup_cons] at hDistinct
        intro hSame
        exact hDistinct.1 (hSame ▸ List.mem_map_of_mem hBehind)
      obtain ⟨sent, hSent, hId⟩ :=
        initJobs_loud file zstdCompress h.mirrors hOpens hIn (by simpa using hLive) hLoud 0
      have hTold := tickLoop_told file zstdCompress h.mirrors hOpens 0 hReads hFirst
      rw [← initJobs_smooth zstdCompress (source.holding file) pieces] at hSent
      rw [← tickLoop_smooth zstdCompress (source.holding file) cmPieces] at hTold
      intro hAgree
      have hLost := hAgree loud.id
      simp only [step, handleReadJobs, handleReadJobsTick, h.sent, List.filter_append,
        List.append_cancel_left_eq] at hLost
      have hNone : ((FromCm.forwardAll now.cmReadJobIds (tickLoop (source.holding file)
          (fun i => .smooth zstdCompress (cmPieces i)) 0 now.cmJobs).1).1.filter
            fun message => message.id == loud.id) = [] := by
        rw [List.filter_eq_nil_iff]
        intro message hMessage
        obtain ⟨word, hWord, rfl⟩ := FromCm.told_of_forwardAll hMessage
        rw [FromCm.id_message, hTold word hWord]
        simpa using Ne.symm hOther
      rw [hNone, List.append_eq_nil_iff, List.filter_eq_nil_iff] at hLost
      exact hLost.1 _ hSent (by simpa [JobMessage.id] using hId)

/-- A confirmation keeps the drivers together. -/
theorem Matched.confirm (h : Matched source now) (r : FileTransferSendConfirmRequest)
    (hSucceeds : Succeeds source zstdCompress now (.confirm r)) :
    Matched source (step source zstdCompress now (.confirm r)) := by
  obtain ⟨hUnion, hNum⟩ := hSucceeds
  unfold step readStep sendConfirmForRead
  rcases getJob_mirrors h.mirrors r.id with ⟨hNone, hCmNone⟩ | ⟨job, cmJob, hJob, hCmJob, hMirrors, hPut⟩
  · simp only [hNone, hCmNone, ite_self]
    exact h
  · have hKnown : now.cmReadJobIds.contains r.id = true := by
      rw [List.contains_iff_mem, ← getJob_id hCmJob]
      exact h.known cmJob (mem_of_getJob hCmJob)
    simp only [hJob, hCmJob, hKnown, if_true]
    rcases hMirrors.confirm (hNum job hJob) hUnion with
      ⟨hPanics, hCmPanics⟩ | ⟨after, cmAfter, hAfter, hCmAfter, hStill⟩
    · simp only [hPanics, hCmPanics]
      exact ⟨.nil, .nil, by simp, h.sent⟩
    · simp only [hAfter, hCmAfter]
      have hId : cmAfter.id = r.id :=
        (TransferJob.SameWork.confirm hCmAfter).id.trans (getJob_id hCmJob)
      refine ⟨hPut after cmAfter hStill, ?_, ?_, h.sent⟩
      · exact (putJob_ids hId now.cmJobs).symm ▸ h.distinct
      · intro other hOther
        rcases mem_putJob hOther with rfl | hOld
        · rw [hId]
          exact List.contains_iff_mem.mp hKnown
        · exact h.known other hOld

theorem matched_start {jobs : List TransferJob}
    (hFresh : ∀ job ∈ jobs, job.OverFiles ∧ job.dataStream = none)
    (hDistinct : (jobs.map TransferJob.id).Nodup) : Matched source (start jobs) where
  mirrors := by
    refine List.forall₂_same.mpr fun job hJob => ?_
    obtain ⟨hFiles, hClosed⟩ := hFresh job hJob
    exact ⟨hFiles, fun _ => hClosed, Or.inl rfl⟩
  distinct := hDistinct
  known := fun _ hJob => List.mem_map_of_mem hJob
  sent := rfl

end Step

/-- In every run in which everything succeeds, the peer is at all times sent the same
about every job by both drivers if and only if no job ever has to be announced while
it waits behind another. -/
theorem agree_iff_noneWaits {jobs : List TransferJob}
    (hFresh : ∀ job ∈ jobs, job.OverFiles ∧ job.dataStream = none)
    (hDistinct : (jobs.map TransferJob.id).Nodup) {events : List DriverEvent}
    (hRun : Trace.Always (step source zstdCompress) (Succeeds source zstdCompress) (start jobs) events) :
    (∀ past, past <+: events → (Trace.run (step source zstdCompress) (start jobs) past).Agree) ↔
      Trace.Always (step source zstdCompress) NoneWaits (start jobs) events := by
  have hGives : ∀ now : Drivers, Matched source now → now.Agree := fun _ h => h.agree
  refine Trace.agrees_iff_always _ hGives ?_ ?_ (matched_start hFresh hDistinct) hRun
  · intro now event h hSucceeds hNone
    cases event with
    | tick file pieces cmPieces => exact h.tick file pieces cmPieces hSucceeds hNone
    | confirm r => exact h.confirm r hSucceeds
  · intro now event h hSucceeds hWaits
    cases event with
    | tick file pieces cmPieces => exact h.tick_apart file pieces cmPieces hSucceeds hWaits
    | confirm r => exact absurd trivial hWaits

/-- A disk with two files. -/
def bothFiles : Store where
  platform := .unix
  disk := (Storage.Disk.empty.put (Lexical.Platform.unix.location "/d/a".toList) [1] 0).put
    (Lexical.Platform.unix.location "/d/b".toList) [2] 0
  ops := []

def readOf (id : Int) (name : String) : TransferJob :=
  .newRead id .generic [] (.filePath "/d".toList) 0 false false [⟨name.toList, 1, 0⟩] true

/-- The job announces its file, sends it once it is confirmed, and ends. -/
def wholeRead : List DriverEvent :=
  [.tick bothFiles.disk.file (fun _ => []) (fun _ => []),
    .confirm { id := 1, fileNum := 0, union := some (.offsetBlk 0) },
    .tick bothFiles.disk.file (fun _ => []) (fun _ => []),
    .tick bothFiles.disk.file (fun _ => []) (fun _ => []),
    .tick bothFiles.disk.file (fun _ => []) (fun _ => [])]

theorem agree_of_wholeRead :
    (∀ past, past <+: wholeRead → (Trace.run (step bothFiles some) (start [readOf 1 "a"]) past).Agree) ∧
      (Trace.run (step bothFiles some) (start [readOf 1 "a"]) wholeRead).cmSent.length = 4 := by
  refine ⟨(agree_iff_noneWaits bothFiles some ?_ (by decide) ?_).mpr ?_, by decide +kernel⟩
  · intro job hJob
    rw [List.mem_singleton.mp hJob]
    exact ⟨⟨rfl, _, rfl⟩, rfl⟩
  · decide +kernel
  · decide +kernel

/-- Two jobs that ask, and one tick: the connection announces the files of both, the
manager that of the first alone. -/
theorem second_read_unannounced :
    ¬ ∀ (source : Store) (zstdCompress : Bytes → Option Bytes) (jobs : List TransferJob)
      (events : List DriverEvent), (∀ job ∈ jobs, job.OverFiles ∧ job.dataStream = none) →
      (jobs.map TransferJob.id).Nodup →
      Trace.Always (step source zstdCompress) (Succeeds source zstdCompress) (start jobs) events →
      (Trace.run (step source zstdCompress) (start jobs) events).Agree := by
  intro hClaim
  have hAgree := hClaim bothFiles some [readOf 1 "a", readOf 2 "b"]
    [.tick bothFiles.disk.file (fun _ => []) (fun _ => [])]
    (by
      intro job hJob
      rcases List.mem_pair.mp hJob with rfl | rfl
      · exact ⟨⟨rfl, _, rfl⟩, rfl⟩
      · exact ⟨⟨rfl, _, rfl⟩, rfl⟩)
    (by decide) (by decide +kernel)
  exact absurd (hAgree 2) (by decide +kernel)

end Drivers

end HibtDesk.FileTransfer
