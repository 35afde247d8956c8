import HibtDesk.Http.Downloader

/-! Downloads of a URL keep out of each other's way as long as one is not started before the
threads of the others have ended. -/
namespace HibtDesk.Downloads

open Storage

/-- The thread is done, and so is its automatic deletion. -/
def Thread.ended (t : Thread) : Bool :=
  match t.pc with
  | .done => !t.deletes
  | _ => false

/-- What has been downloaded is the data, or the file at the path. -/
def content (disk : Disk Path UInt8) (path : Option Path) (data : Bytes) : Option Bytes :=
  match path with
  | none => some data
  | some path => disk.content path

/-- A download that is reported to be complete is the body of one response. -/
def Complete (s : State) : Prop :=
  ∀ report, s.getDownloadData = some report → report.totalSize = some report.downloadedSize →
    report.error = none → ∃ t ∈ s.threads, ∃ body, t.response = some body ∧
      content s.disk report.path report.data = some body

/-- The thread whose step an event is. -/
def Event.thread? : Event → Option Nat
  | .thread i _ | .autoDelete i => some i
  | _ => none

/-- A thread leaves the record of another download alone, and its file too. -/
def Apart (s : State) (event : Event) : Prop :=
  ∀ i downloader, event.thread? = some i → s.downloader = some downloader → downloader.txCancel ≠ i →
    (s.step event).downloader = some downloader ∧ ∀ path, downloader.path = some path →
      (s.step event).disk.content path = s.disk.content path

/-- A download is started when no thread is left from another, the size of it is not zero, and the
response is not longer than the size. -/
def Orderly (s : State) : Event → Prop
  | .call index _ => ∀ call, s.calls[index]? = some call → call.pc = .insert → ∀ t ∈ s.threads, t.ended = true
  | .thread _ (.head (.success (some length))) => 0 < length
  | .thread _ (.get (.ok body)) => ∀ downloader totalSize, s.downloader = some downloader →
      downloader.totalSize = some totalSize → body.length ≤ totalSize
  | _ => True

section Invariant
variable (disk : Disk Path UInt8) (t : Thread) (downloader : Downloader)

def Fresh : Prop := downloader.downloadedSize = 0 ∧ downloader.data = [] ∧ t.dest = none

def Fits (body : Bytes) : Prop := ∀ totalSize, downloader.totalSize = some totalSize → body.length ≤ totalSize

/-- The open file is the one at the path. -/
def Dest (pos : Nat) : Prop :=
  match t.path with
  | none => t.dest = none
  | some path => ∃ file, t.dest = some (file, pos) ∧ disk.node path = some file

/-- What is not there yet of the body is pending or still to come. -/
def Receiving (pending : Bytes) (uncounted : Nat) : Prop :=
  ∃ body part, t.response = some body ∧ Fits downloader body ∧
    content disk t.path downloader.data = some part ∧ part ++ (pending ++ t.rest) = body ∧
    downloader.downloadedSize + uncounted ≤ part.length ∧ Dest disk t part.length

/-- Nothing has been counted that is not there. -/
def Counted : Prop :=
  downloader.downloadedSize = 0 ∨ ∃ body part, t.response = some body ∧ Fits downloader body ∧
    content disk t.path downloader.data = some part ∧ part <+: body ∧
    downloader.downloadedSize ≤ part.length

def Phase : ThreadPc → Prop
  | .head | .get => Fresh t downloader
  | .totalSize totalSize => 0 < totalSize ∧ Fresh t downloader
  | .create => Fresh t downloader ∧ t.response = some t.rest ∧ Fits downloader t.rest
  | .chunk => Receiving disk t downloader [] 0
  | .write chunk => Receiving disk t downloader chunk 0
  | .extendData chunk => Receiving disk t downloader chunk 0 ∧ t.path = none
  | .downloadedSize length => Receiving disk t downloader [] length
  | _ => Counted disk t downloader

/-- What a thread knows of its own record. -/
structure Own : Prop where
  path : downloader.path = t.path
  size : ∀ totalSize, downloader.totalSize = some totalSize → 0 < totalSize
  phase : Phase disk t downloader t.pc

end Invariant

/-- Only the last thread may still be under way, and the record is its own. -/
structure Inv (s : State) : Prop where
  last : ∀ i t, s.threads[i]? = some t → t.ended = false → i + 1 = s.threads.length
  own : ∀ downloader, s.downloader = some downloader → downloader.txCancel + 1 = s.threads.length ∧
    ∃ t, s.threads[downloader.txCancel]? = some t ∧ Own s.disk t downloader

section Inv
variable {s : State} {i : Nat} {t : Thread} {disk : Disk Path UInt8} {downloader : Downloader}

theorem Receiving.counted {pending : Bytes} {uncounted : Nat}
    (h : Receiving disk t downloader pending uncounted) : Counted disk t downloader := by
  obtain ⟨body, part, hBody, hFits, hContent, hWhole, hCount, -⟩ := h
  exact .inr ⟨body, part, hBody, hFits, hContent, ⟨_, hWhole⟩, by omega⟩

theorem Own.counted (h : Own disk t downloader) : Counted disk t downloader := by
  have hPhase := h.phase
  cases hPc : t.pc <;> rw [hPc] at hPhase
  case head | get => exact .inl hPhase.1
  case totalSize => exact .inl hPhase.2.1
  case create => exact .inl hPhase.1.1
  case chunk | write | downloadedSize => exact Receiving.counted hPhase
  case extendData => exact hPhase.1.counted
  all_goals exact hPhase

/-- When as much has been counted as the size says, all of the body is there. -/
theorem Own.complete (h : Own disk t downloader)
    (hSize : downloader.totalSize = some downloader.downloadedSize) :
    ∃ body, t.response = some body ∧ content disk downloader.path downloader.data = some body := by
  rcases h.counted with hZero | ⟨body, part, hBody, hFits, hContent, hPrefix, hCount⟩
  · have hPositive := h.size _ hSize
    omega
  · have hLength := hFits _ hSize
    have hWhole : part = body := hPrefix.eq_of_length_le (by omega)
    exact ⟨body, hBody, by rw [h.path, hContent, hWhole]⟩

theorem Inv.complete (h : Inv s) : Complete s := by
  intro report hReport hSize _
  unfold State.getDownloadData at hReport
  obtain ⟨downloader, hRecord, rfl⟩ := Option.map_eq_some_iff.mp hReport
  obtain ⟨-, t, hThread, hOwn⟩ := h.own downloader hRecord
  obtain ⟨body, hBody, hContent⟩ := hOwn.complete hSize
  refine ⟨t, List.mem_of_getElem? hThread, body, hBody, ?_⟩
  dsimp only at hSize ⊢
  cases hPath : downloader.path with
  | none =>
      rw [hPath] at hContent
      rw [if_pos ⟨by rw [hSize]; rfl, rfl⟩]
      exact hContent
  | some path =>
      rw [hPath] at hContent
      exact hContent

theorem Thread.ended_iff : t.ended = true ↔ t.pc = .done ∧ t.deletes = false := by
  unfold Thread.ended
  cases t.pc <;> simp

/-- A thread that has ended, or was never there, does nothing. -/
theorem State.step_of_ended {event : Event} (hIs : event.thread? = some i)
    (hEnded : ∀ t, s.threads[i]? = some t → t.ended = true) : s.step event = s := by
  cases hThread : s.threads[i]? with
  | none =>
      cases event with
      | thread j input =>
          obtain rfl : j = i := Option.some.inj hIs
          simp [State.step, hThread]
      | autoDelete j =>
          obtain rfl : j = i := Option.some.inj hIs
          simp [State.step, hThread]
      | _ => cases hIs
  | some t =>
      obtain ⟨hDone, hDeletes⟩ := Thread.ended_iff.mp (hEnded t hThread)
      cases event with
      | thread j input =>
          obtain rfl : j = i := Option.some.inj hIs
          simp [State.step, hThread, State.threadStep, hDone]
      | autoDelete j =>
          obtain rfl : j = i := Option.some.inj hIs
          simp [State.step, hThread, hDeletes]
      | _ => cases hIs

theorem Inv.apart (h : Inv s) (event : Event) : Apart s event := by
  intro i downloader hIs hRecord hOther
  obtain ⟨hLast, -⟩ := h.own downloader hRecord
  rw [State.step_of_ended hIs fun t hThread => ?_]
  · exact ⟨hRecord, fun _ _ => rfl⟩
  · by_contra hRuns
    have hMine := h.last i t hThread (Bool.eq_false_iff.mpr hRuns)
    omega

/-- The last thread makes a step. -/
theorem Inv.set (h : Inv s) (hThread : s.threads[i]? = some t) (hLast : i + 1 = s.threads.length)
    (next : Thread) {disk : Disk Path UInt8} {record : Option Downloader}
    (hRecord : ∀ downloader, record = some downloader → downloader.txCancel = i ∧ Own disk next downloader) :
    Inv { s with downloader := record, disk := disk, threads := s.threads.set i next } := by
  obtain ⟨hLess, -⟩ := List.getElem?_eq_some_iff.mp hThread
  refine ⟨fun j other hOther hRuns => ?_, fun downloader hSome => ?_⟩
  · dsimp only at hOther ⊢
    rw [List.length_set]
    rw [List.getElem?_set] at hOther
    split at hOther
    · rename_i hSame
      exact hSame ▸ hLast
    · exact h.last j other hOther hRuns
  · obtain ⟨rfl, hOwn⟩ := hRecord downloader hSome
    refine ⟨by dsimp only; rw [List.length_set]; exact hLast, next, ?_, hOwn⟩
    dsimp only
    rw [List.getElem?_set_self hLess]

/-- From any point a thread may give up, or finish, with what it has counted. -/
theorem Own.ends (h : Own disk t downloader) (next : Thread)
    (hSame : next.path = t.path ∧ next.response = t.response)
    (hPhase : Phase disk next downloader next.pc = Counted disk next downloader) : Own disk next downloader := by
  obtain ⟨hPath, hResponse⟩ := hSame
  refine ⟨h.path.trans hPath.symm, h.size, ?_⟩
  rw [hPhase, Counted, hPath, hResponse]
  exact h.counted

section Own
variable {file pos length : Nat} {bytes : Bytes}

theorem Own.knows {pc : ThreadPc} (h : Own disk t downloader) (hPc : t.pc = pc) :
    Phase disk t downloader pc :=
  hPc ▸ h.phase

/-- The size is known. -/
theorem Own.totalSize {totalSize : Nat} (h : Own disk t downloader) (hPc : t.pc = .totalSize totalSize) :
    Own disk { t with pc := .get } { downloader with totalSize := some totalSize } := by
  obtain ⟨hPositive, hFresh⟩ : 0 < totalSize ∧ Fresh t downloader := h.knows hPc
  refine ⟨h.path, fun size hSize => ?_, hFresh⟩
  obtain rfl := Option.some.inj hSize
  exact hPositive

/-- There is no file, and nothing yet of the data. -/
theorem Own.data (h : Own disk t downloader) (hPc : t.pc = .create) (hPath : t.path = none) :
    Own disk { t with pc := .chunk } downloader := by
  obtain ⟨⟨hZero, hData, hDest⟩, hBody, hFits⟩ : Fresh t downloader ∧ t.response = some t.rest ∧
    Fits downloader t.rest := h.knows hPc
  refine ⟨h.path, h.size, t.rest, [], hBody, hFits, ?_, rfl, ?_, ?_⟩
  · dsimp only
    rw [hPath, hData]
    rfl
  · rw [hZero]
    exact Nat.le_refl 0
  · rw [Dest]
    dsimp only
    rw [hPath]
    exact hDest

/-- The file is empty when it has been opened. -/
theorem Own.create {path : Path} (h : Own disk t downloader) (hPc : t.pc = .create)
    (hPath : t.path = some path) :
    Own (disk.create path 0).1 { t with dest := some ((disk.create path 0).2, 0), pc := .chunk } downloader := by
  obtain ⟨hFresh, hBody, hFits⟩ : Fresh t downloader ∧ t.response = some t.rest ∧
    Fits downloader t.rest := h.knows hPc
  refine ⟨h.path, h.size, t.rest, [], hBody, hFits, ?_, rfl, ?_, ?_⟩
  · dsimp only
    rw [hPath, content, Disk.content_create, if_pos rfl]
  · rw [hFresh.1]
    exact Nat.le_refl 0
  · rw [Dest]
    dsimp only
    rw [hPath]
    exact ⟨_, rfl, disk.node_create_self path 0⟩

/-- Some of what is left of the body arrives. -/
theorem Own.chunk (h : Own disk t downloader) (hPc : t.pc = .chunk) (length : Nat) :
    Own disk
      { t with
        rest := t.rest.drop length
        pc := if t.dest.isSome then .write (t.rest.take length) else .extendData (t.rest.take length) }
      downloader := by
  obtain ⟨body, part, hBody, hFits, hContent, hWhole, hCount, hDest⟩ :
    Receiving disk t downloader [] 0 := h.knows hPc
  have hNext : Receiving disk { t with rest := t.rest.drop length } downloader (t.rest.take length) 0 := by
    refine ⟨body, part, hBody, hFits, hContent, ?_, hCount, hDest⟩
    rw [List.take_append_drop]
    exact hWhole
  refine ⟨h.path, h.size, ?_⟩
  dsimp only
  split
  · exact hNext
  · rename_i hNoFile
    refine ⟨hNext, ?_⟩
    unfold Dest at hDest
    cases hPath : t.path with
    | none => rfl
    | some path =>
        rw [hPath] at hDest
        obtain ⟨file, hFile, -⟩ := hDest
        exact absurd (by rw [hFile]; rfl) hNoFile

/-- What is written is put behind what is there of the file. -/
theorem Receiving.written {pending : Bytes} (h : Receiving disk t downloader pending 0)
    (hDest : t.dest = some (file, pos)) (data : Bytes) :
    ∃ body part path, t.response = some body ∧ Fits downloader body ∧ t.path = some path ∧
      content (disk.write 0 file pos data 0) t.path downloader.data = some (part ++ data) ∧
      part ++ (pending ++ t.rest) = body ∧ downloader.downloadedSize ≤ part.length ∧
      pos = part.length ∧ disk.node path = some file := by
  obtain ⟨body, part, hBody, hFits, hContent, hWhole, hCount, hFile⟩ := h
  unfold Dest at hFile
  cases hPath : t.path with
  | none =>
      rw [hPath] at hFile
      cases hDest.symm.trans hFile
  | some path =>
      rw [hPath] at hFile hContent
      obtain ⟨other, hSame, hNode⟩ := hFile
      obtain ⟨rfl, rfl⟩ : file = other ∧ pos = part.length := by
        rw [hDest] at hSame
        exact Prod.mk.inj (Option.some.inj hSame)
      refine ⟨body, part, path, hBody, hFits, rfl, ?_, hWhole, hCount, rfl, hNode⟩
      have hPart : disk.content path = some part := hContent
      rw [content, Disk.content_write hNode, if_pos rfl, hPart, Option.map_some, overwrite_end]

theorem Own.write (h : Own disk t downloader) (hPc : t.pc = .write bytes) (hDest : t.dest = some (file, pos)) :
    Own (disk.write 0 file pos bytes 0)
      { t with dest := some (file, pos + bytes.length), pc := .downloadedSize bytes.length } downloader := by
  obtain ⟨body, part, path, hBody, hFits, hPath, hContent, hWhole, hCount, rfl, hNode⟩ :=
    Receiving.written (h.knows hPc) hDest bytes
  refine ⟨h.path, h.size, body, part ++ bytes, hBody, hFits, hContent, ?_, ?_, ?_⟩
  · rw [List.append_assoc]
    exact hWhole
  · rw [List.length_append]
    exact Nat.add_le_add_right hCount _
  · rw [Dest, List.length_append]
    dsimp only
    rw [hPath]
    exact ⟨file, rfl, hNode⟩

/-- A write that fails has only put more of the body into the file. -/
theorem Own.writeError (h : Own disk t downloader) (hPc : t.pc = .write bytes)
    (hDest : t.dest = some (file, pos)) (written : Nat) (error : String) :
    Own (disk.write 0 file pos (bytes.take written) 0) { t with pc := .returns (.error error) } downloader := by
  obtain ⟨body, part, path, hBody, hFits, hPath, hContent, hWhole, hCount, rfl, hNode⟩ :=
    Receiving.written (h.knows hPc) hDest (bytes.take written)
  refine ⟨h.path, h.size,
    .inr ⟨body, part ++ bytes.take written, hBody, hFits, hContent, ⟨bytes.drop written ++ t.rest, ?_⟩, ?_⟩⟩
  · rw [← hWhole, List.append_assoc, ← List.append_assoc (bytes.take written), List.take_append_drop]
  · rw [List.length_append]
    omega

/-- What has been written is counted. -/
theorem Own.downloadedSize (h : Own disk t downloader) (hPc : t.pc = .downloadedSize length) :
    Own disk { t with pc := .chunk }
      { downloader with downloadedSize := downloader.downloadedSize + length } := by
  obtain ⟨body, part, hBody, hFits, hContent, hWhole, hCount, hDest⟩ :
    Receiving disk t downloader [] length := h.knows hPc
  exact ⟨h.path, h.size, body, part, hBody, hFits, hContent, hWhole, hCount, hDest⟩

theorem Own.extendData (h : Own disk t downloader) (hPc : t.pc = .extendData bytes) :
    Own disk { t with pc := .chunk }
      { downloader with
        data := downloader.data ++ bytes
        downloadedSize := downloader.downloadedSize + bytes.length } := by
  obtain ⟨⟨body, part, hBody, hFits, hContent, hWhole, hCount, hDest⟩, hPath⟩ :
    Receiving disk t downloader bytes 0 ∧ t.path = none := h.knows hPc
  refine ⟨h.path, h.size, body, part ++ bytes, hBody, hFits, ?_, ?_, ?_, ?_⟩
  · dsimp only
    rw [hPath] at hContent ⊢
    obtain rfl := Option.some.inj hContent
    rfl
  · rw [List.append_assoc]
    exact hWhole
  · rw [List.length_append]
    exact Nat.add_le_add_right hCount _
  · rw [Dest] at hDest ⊢
    dsimp only
    rw [hPath] at hDest ⊢
    exact hDest

end Own

/-- The last thread, with its own record if that is still there, makes a step. -/
theorem Inv.threadStep (h : Inv s) (hThread : s.threads[i]? = some t) (input : Input)
    (hOrderly : Orderly s (.thread i input)) : Inv (s.threadStep i t input) := by
  by_cases hEnded : t.ended = true
  · obtain ⟨hDone, -⟩ := Thread.ended_iff.mp hEnded
    have hStep : s.threadStep i t input = s := by simp [State.threadStep, hDone]
    rw [hStep]
    exact h
  have hLast := h.last i t hThread (Bool.eq_false_iff.mpr hEnded)
  have hOwn : ∀ downloader, s.downloader = some downloader →
      downloader.txCancel = i ∧ Own s.disk t downloader := by
    intro downloader hRecord
    obtain ⟨hMine, other, hOther, hOwn⟩ := h.own downloader hRecord
    obtain rfl : downloader.txCancel = i := by omega
    obtain rfl := Option.some.inj (hThread.symm.trans hOther)
    exact ⟨rfl, hOwn⟩
  have hNext : ∀ (next : Thread) (disk : Disk Path UInt8),
      (∀ downloader, Own s.disk t downloader → Own disk next downloader) →
      Inv ({ s with disk := disk }.setThread i next) := fun next disk hKeeps =>
    h.set hThread hLast next fun downloader hRecord => (hOwn downloader hRecord).imp id (hKeeps downloader)
  have hUpdate : ∀ (next : Thread) (update : Downloader → Downloader),
      (∀ downloader, (update downloader).txCancel = downloader.txCancel) →
      (∀ downloader, Own s.disk t downloader → Own s.disk next (update downloader)) →
      Inv ((s.updateDownloader update).setThread i next) := by
    intro next update hSender hKeeps
    refine h.set hThread hLast next fun downloader hRecord => ?_
    obtain ⟨before, hBefore, rfl⟩ := Option.map_eq_some_iff.mp hRecord
    obtain ⟨hMine, hBeforeOwn⟩ := hOwn before hBefore
    exact ⟨(hSender before).trans hMine, hKeeps before hBeforeOwn⟩
  have hEnds : ∀ next : Thread, next.path = t.path ∧ next.response = t.response →
      (∀ downloader, Phase s.disk next downloader next.pc = Counted s.disk next downloader) →
      Inv (s.setThread i next) := fun next hSame hPhase =>
    hNext next s.disk fun downloader hMine => hMine.ends next hSame (hPhase downloader)
  unfold State.threadStep
  split
  · split
    · exact hEnds _ ⟨rfl, rfl⟩ fun _ => rfl
    · exact h
  · rename_i resp hPc
    split
    · rename_i totalSize hSize
      have hPositive : 0 < totalSize := by
        cases resp with
        | success length =>
            cases length with
            | none => cases hSize
            | some length =>
                obtain rfl := Except.ok.inj hSize
                exact hOrderly
        | failure status => cases hSize
        | error message => cases hSize
      exact hNext _ _ fun downloader hMine => ⟨hMine.path, hMine.size, hPositive, hMine.knows hPc⟩
    · exact hEnds _ ⟨rfl, rfl⟩ fun _ => rfl
  · rename_i hPc
    exact hUpdate _ _ (fun _ => rfl) fun downloader hMine => hMine.totalSize hPc
  · split
    · exact hEnds _ ⟨rfl, rfl⟩ fun _ => rfl
    · exact h
  · rename_i body hPc
    refine h.set hThread hLast _ fun downloader hRecord => ?_
    obtain ⟨hMine, hRecordOwn⟩ := hOwn downloader hRecord
    exact ⟨hMine, hRecordOwn.path, hRecordOwn.size, hRecordOwn.knows hPc, rfl,
      fun totalSize hSize => hOrderly downloader totalSize hRecord hSize⟩
  · exact hEnds _ ⟨rfl, rfl⟩ fun _ => rfl
  · rename_i hPc
    split
    · rename_i hPath
      exact hNext _ _ fun downloader hMine => hMine.data hPc hPath
    · rename_i hPath
      exact hNext _ _ fun downloader hMine => hMine.create hPc hPath
    · exact hEnds _ ⟨rfl, rfl⟩ fun _ => rfl
  · split
    · exact hEnds _ ⟨rfl, rfl⟩ fun _ => rfl
    · exact h
  · rename_i length hPc
    exact hNext _ _ fun downloader hMine => hMine.chunk hPc length
  · split
    · exact hEnds _ ⟨rfl, rfl⟩ fun _ => rfl
    · exact h
  · exact hEnds _ ⟨rfl, rfl⟩ fun _ => rfl
  · rename_i hPc
    split
    · exact h
    · rename_i hDest
      exact hNext _ _ fun downloader hMine => hMine.write hPc hDest
    · rename_i written error hDest
      exact hNext _ _ fun downloader hMine => hMine.writeError hPc hDest written error
  · rename_i hPc
    exact hUpdate _ _ (fun _ => rfl) fun downloader hMine => hMine.downloadedSize hPc
  · rename_i hPc
    exact hUpdate _ _ (fun _ => rfl) fun downloader hMine => hMine.extendData hPc
  · split
    · exact hEnds _ ⟨rfl, rfl⟩ fun _ => rfl
    · exact hEnds _ ⟨rfl, rfl⟩ fun _ => rfl
  · exact hUpdate _ _ (fun _ => rfl) fun downloader hMine => ⟨hMine.path, hMine.size, hMine.counted⟩
  · rename_i result hPc
    refine hEnds _ ⟨rfl, rfl⟩ fun _ => ?_
    cases result with
    | ok isAllDownloaded => cases isAllDownloaded <;> rfl
    | error message => rfl
  · exact h.set hThread hLast _ fun downloader hRecord => by cases hRecord
  · exact hUpdate _ _ (fun _ => rfl) fun downloader hMine => ⟨hMine.path, hMine.size, hMine.counted⟩
  · exact h

/-- A call starts a download, with a thread of its own. -/
theorem Inv.callStep (h : Inv s) {index : Nat} {call : Call} (createDir : Bool)
    (hEnded : call.pc = .insert → ∀ t ∈ s.threads, t.ended = true) :
    Inv (s.callStep index call createDir) := by
  unfold State.callStep
  split
  · exact ⟨h.last, h.own⟩
  · rename_i hPc
    refine ⟨fun j other hOther hRuns => ?_, fun downloader hRecord => ?_⟩
    · dsimp only at hOther ⊢
      rw [List.getElem?_append] at hOther
      rw [List.length_append]
      split at hOther
      · have hOver := hEnded hPc other (List.mem_of_getElem? hOther)
        cases hOver.symm.trans hRuns
      · obtain ⟨hLess, -⟩ := List.getElem?_eq_some_iff.mp hOther
        rw [List.length_singleton] at hLess ⊢
        omega
    · obtain rfl := Option.some.inj hRecord
      dsimp only
      refine ⟨by rw [List.length_append]; rfl, _, List.getElem?_concat_length, rfl,
        (fun _ hSize => by cases hSize), rfl, rfl, rfl⟩
  · exact h

theorem Inv.cancel (h : Inv s) : Inv s.cancel := by
  unfold State.cancel
  split
  · rename_i downloader hRecord
    obtain ⟨hLast, t, hThread, hOwn⟩ := h.own downloader hRecord
    have hModify : s.threads.modify downloader.txCancel (fun t => { t with canceled := true }) =
        s.threads.set downloader.txCancel { t with canceled := true } := by
      have : Inhabited Thread := ⟨t⟩
      rw [List.modify_eq_set, hThread]
      rfl
    rw [hModify]
    refine h.set hThread hLast _ fun other hOther => ?_
    obtain rfl := Option.some.inj (hRecord.symm.trans hOther)
    exact ⟨rfl, hOwn.path, hOwn.size, hOwn.phase⟩
  · exact h

theorem Inv.step (h : Inv s) (event : Event) (hOrderly : Orderly s event) : Inv (s.step event) := by
  unfold State.step
  cases event with
  | downloadFile path autoDelDur =>
      dsimp only
      split
      · exact h
      · exact ⟨h.last, h.own⟩
  | call index createDir =>
      dsimp only
      split
      · rename_i call hCall
        exact h.callStep createDir (hOrderly call hCall)
      · exact h
  | cancel => exact h.cancel
  | remove => exact ⟨h.last, fun downloader hRecord => by cases hRecord⟩
  | thread i input =>
      dsimp only
      split
      · rename_i t hThread
        exact h.threadStep hThread input hOrderly
      · exact h
  | autoDelete i =>
      dsimp only
      split
      · rename_i t hThread
        split
        · rename_i hDeletes
          have hRuns : t.ended = false := by
            refine Bool.eq_false_iff.mpr fun hEnded => ?_
            cases hDeletes.symm.trans (Thread.ended_iff.mp hEnded).2
          exact h.set hThread (h.last i t hThread hRuns) _ fun downloader hRecord => by cases hRecord
        · exact h
      · exact h

theorem inv_start : Inv start := by
  exact ⟨(fun _ _ hThread => by cases hThread), fun _ hRecord => by cases hRecord⟩

end Inv

/-- In every run made of orderly steps, threads keep to their own record and file, and what is
reported to be complete is. -/
theorem apart_of_orderly {events : List Event} (hOrderly : Trace.Always State.step Orderly start events) :
    Trace.Always State.step Apart start events ∧ Complete (Trace.run State.step start events) := by
  refine ⟨?_, ?_⟩
  · exact Trace.always_of_invariant _ Inv (fun _ event hO h => h.step event hO)
      (fun _ event _ h => h.apart event) inv_start hOrderly
  · exact (Trace.invariant_of_always _ Inv (fun _ event hO h => h.step event hO) inv_start
      hOrderly).complete

/-- A call that finds no record starts the thread with the given number, which learns the size. -/
def started (index : Nat) (path : Option Path) : List Event :=
  [.downloadFile path false, .call index true, .call index true,
    .thread index (.head (.success (some 2))), .thread index .go]

/-- The body arrives, in one piece. -/
def arrived (index : Nat) : List Event :=
  [.thread index (.get (.ok [7, 8])), .thread index (.file .ok), .thread index (.chunk (.some 2)),
    .thread index .go, .thread index (.chunk .none), .thread index (.file .ok), .thread index .go,
    .thread index .go]

/-- A download, and once that is done and removed the next one. -/
def downloadedAgain : List Event :=
  started 0 none ++ arrived 0 ++ .remove :: started 1 (some "a") ++ arrived 1

theorem downloaded_again_apart : Trace.Always State.step Apart start downloadedAgain ∧
    Complete (Trace.run State.step start downloadedAgain) := by
  have hFits : ∀ downloader : Downloader, downloader.totalSize = some 2 → Fits downloader [7, 8] := by
    intro downloader hTwo totalSize hSize
    rw [Option.some.inj (hSize.symm.trans hTwo)]
    exact Nat.le_refl 2
  refine apart_of_orderly ⟨trivial, fun call _ _ t hMem => ?_, fun call _ _ t hMem => ?_, Nat.two_pos, trivial,
    fun downloader totalSize hRecord => ?_, trivial, trivial, trivial, trivial, trivial, trivial, trivial,
    trivial, trivial, fun call _ _ t hMem => ?_, fun call _ _ t hMem => ?_, Nat.two_pos, trivial,
    fun downloader totalSize hRecord => ?_, trivial, trivial, trivial, trivial, trivial, trivial, trivial, trivial⟩
  · exact absurd hMem List.not_mem_nil
  · exact absurd hMem List.not_mem_nil
  · obtain rfl := Option.some.inj hRecord
    exact hFits _ rfl totalSize
  · obtain rfl := List.mem_singleton.mp hMem
    rfl
  · obtain rfl := List.mem_singleton.mp hMem
    rfl
  · obtain rfl := Option.some.inj hRecord
    exact hFits _ rfl totalSize

/-- A download is removed and started again, and its file is open when the first thread notices
that it has been removed. -/
def removed : List Event :=
  started 0 (some "a") ++ .remove :: started 1 (some "a") ++
    [.thread 1 (.get (.ok [7, 8])), .thread 1 (.file .ok), .thread 0 .rxCancel, .thread 0 .go]

/-- The thread of the removed download takes the record and the file of the next one away. -/
theorem removed_takes_next : ¬ (Trace.Always State.step Apart start (removed ++ [.thread 0 .go]) ∧
    Complete (Trace.run State.step start (removed ++ [.thread 0 .go]))) := by
  rintro ⟨hApart, -⟩
  obtain ⟨-, hLast, -⟩ := (Trace.always_append State.step start removed [.thread 0 .go]).mp hApart
  obtain ⟨hKept, -⟩ := hLast 0 ⟨[], some "a", some 2, 0, none, false, 1⟩ rfl rfl (by decide)
  cases hKept

end HibtDesk.Downloads
