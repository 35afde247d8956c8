import HibtDesk.Clipboard.CopiedFiles
import HibtDesk.Connection.Start

/-! The file clipboard and the permission for files. The notices of the clipboard are
held back while files are not allowed, but the requests of the peer go straight to the
copied files, which all connections of the process share. -/
namespace HibtDesk.Clipboard

/-- A message that tells the peer of files, or what is in them. -/
def ClipboardFile.GivesFiles : ClipboardFile → Prop
  | .formatDataResponse msgFlags _ => msgFlags = 1
  | .fileContentsResponse msgFlags _ _ => msgFlags = 1
  | _ => False

/-- The messages that the clipboard of macOS handles itself. -/
def ClipboardFile.shouldHandleMsg : ClipboardFile → Bool
  | .formatList _ | .formatDataResponse .. | .fileContentsResponse .. | .tryEmpty => true
  | _ => false

/-- A connection of a unix host, with the copied files it serves. -/
structure ClipHost where
  conn : Loop
  copied : CopiedFiles

/-- A step of the connection, or of those it shares the copied files with. -/
inductive HostEvent where
  | input (now : Moment) (event : Event)
  | others (event : ClipEvent)

section Host
variable (fixed : Fixed) (clipOf : Bytes → Option ClipboardFile)

/-- What a step of the connection passes on to be served. -/
def servedPayload (conn : Loop) : Event → Option Bytes
  | (env, .peer (.cliprdr (.clip payload))) =>
      let after := conn.step fixed (env, .peer (.cliprdr (.clip payload)))
      if .serveClip payload ∈ after.state.effects.drop conn.state.effects.length then some payload
      else none
  | _ => none

/-- The message that is served, as it is parsed. -/
def servedClip (conn : Loop) (event : Event) : Option ClipboardFile :=
  ((servedPayload fixed conn event).bind clipOf).filter fun clip =>
    !(fixed.build.targetOs == .macos && clip.shouldHandleMsg)

namespace ClipHost

/-- What the peer is sent. The list for the audit is not. -/
def answers (h : ClipHost) : HostEvent → List ClipboardFile
  | .input now event =>
      match servedClip fixed clipOf h.conn event with
      | some clip =>
          (((serveClipMessages now h.conn.state.conn.id h.copied clip).1).getD []).filter fun message =>
            match message with
            | .files _ => false
            | _ => true
      | none => []
  | .others _ => []

def step (h : ClipHost) : HostEvent → ClipHost
  | .input now event =>
      { conn := h.conn.step fixed event
        copied :=
          match servedClip fixed clipOf h.conn event with
          | some clip => (serveClipMessages now h.conn.state.conn.id h.copied clip).2
          | none => h.copied }
  | .others event => { h with copied := h.copied.after event }

/-- While files are not allowed the peer is told nothing of them. -/
def Obeys (h : ClipHost) (event : HostEvent) : Prop :=
  h.conn.state.conn.fileTransferEnabled = false →
    ∀ message ∈ h.answers fixed clipOf event, ¬ message.GivesFiles

end ClipHost

end Host

section Grants

/-- A range of a file can be read, and the file after it opened. -/
def RangeGiven (now : Moment) (clip : ClipFiles) (fileIdx offset length : Nat) : Prop :=
  ∃ file, clip.fileList[fileIdx]? = some file ∧ offset ≤ file.size ∧
    ∃ n, ClipFiles.readSize now.overflowChecks file offset length = some n ∧ n < 2 ^ 63 ∧
      (∃ buf, (file.readExactAt now.fs now.faults n offset).1 = .ok buf) ∧
      NextLoads now.fs (clip.fileList.drop (fileIdx + 1))

/-- There is something to give for a request for contents. -/
def ContentsGiven (now : Moment) (clip : ClipFiles) : FileContentsRequest → Prop
  | .size _ fileIdx =>
      fileIdx < clip.fileList.length ∧ NextLoads now.fs (clip.fileList.drop (fileIdx + 1))
  | .range _ fileIdx offset length => RangeGiven now clip fileIdx offset length

/-- There is something to give for a message. -/
def Grants (now : Moment) (copied : CopiedFiles) : ClipboardFile → Prop
  | .formatDataRequest _ => copied.filesPdu ≠ []
  | .fileContentsRequest request =>
      ∃ fcr, ClipFiles.decode request = some fcr ∧ ContentsGiven now copied.clip fcr
  | _ => False

theorem hotReload_ok_iff (fs : FileSystem) (clip : ClipFiles) (fileIdx : Nat)
    (response : ClipboardFile) :
    (clip.hotReload fs fileIdx response).1 = .ok response ↔
      NextLoads fs (clip.fileList.drop (fileIdx + 1)) := by
  obtain ⟨hOk, hError⟩ := hotReload_fst fs clip fileIdx response
  refine ⟨fun hSent => ?_, hOk⟩
  by_contra hNot
  obtain ⟨error, hFails⟩ := hError hNot
  rw [hFails] at hSent
  cases hSent

/-- A range is served exactly if it is there to be given. -/
theorem serveFileContents_range_ok_iff (now : Moment) (connId : Int) (clip : ClipFiles)
    (streamId : BitVec 32) (fileIdx offset length : Nat) :
    (∃ response, (clip.serveFileContents now.overflowChecks now.fs now.faults connId
        (.range streamId fileIdx offset length)).1 = some (.ok response)) ↔
      RangeGiven now clip fileIdx offset length := by
  unfold RangeGiven
  rw [ClipFiles.serveFileContents]
  cases hFile : clip.fileList[fileIdx]? with
  | none => simp
  | some file =>
      dsimp only
      by_cases hBeyond : file.size < offset
      · rw [if_pos hBeyond]
        simp [Nat.not_le.mpr hBeyond]
      rw [if_neg hBeyond]
      cases hSize : ClipFiles.readSize now.overflowChecks file offset length with
      | none => simp [hSize]
      | some n =>
          dsimp only
          by_cases hHuge : 2 ^ 63 ≤ n
          · rw [if_pos hHuge]
            refine iff_of_false (by simp) ?_
            rintro ⟨found, hFound, -, m, hm, hSmall, -⟩
            obtain rfl := Option.some.inj hFound
            obtain rfl := Option.some.inj (hSize.symm.trans hm)
            exact absurd hSmall (Nat.not_lt.mpr hHuge)
          rw [if_neg hHuge]
          have hGiven : (∃ found, some file = some found ∧ offset ≤ found.size ∧
              ∃ m, ClipFiles.readSize now.overflowChecks found offset length = some m ∧ m < 2 ^ 63 ∧
                (∃ buf, (found.readExactAt now.fs now.faults m offset).1 = .ok buf) ∧
                NextLoads now.fs (clip.fileList.drop (fileIdx + 1))) ↔
              (∃ buf, (file.readExactAt now.fs now.faults n offset).1 = .ok buf) ∧
                NextLoads now.fs (clip.fileList.drop (fileIdx + 1)) := by
            constructor
            · rintro ⟨found, hFound, -, m, hm, -, hRead⟩
              obtain rfl := Option.some.inj hFound
              obtain rfl := Option.some.inj (hSize.symm.trans hm)
              exact hRead
            · intro hRead
              exact ⟨file, rfl, Nat.not_lt.mp hBeyond, n, hSize, Nat.not_le.mp hHuge, hRead⟩
          rw [hGiven]
          generalize file.readExactAt now.fs now.faults n offset = read
          obtain ⟨result, after⟩ := read
          cases result with
          | error error => simp
          | ok buf =>
              have hDrop : (clip.fileList.set fileIdx after).drop (fileIdx + 1) =
                  clip.fileList.drop (fileIdx + 1) := by
                rw [List.drop_set, if_pos (Nat.lt_succ_self fileIdx)]
              have hLoads := hotReload_ok_iff now.fs
                { clip with fileList := clip.fileList.set fileIdx after } fileIdx
                (.fileContentsResponse 1 streamId buf)
              rw [hDrop] at hLoads
              rw [← hLoads]
              constructor
              · rintro ⟨response, hSent⟩
                have hReload := Option.some.inj hSent
                obtain rfl := eq_of_hotReload hReload
                exact ⟨⟨buf, rfl⟩, hReload⟩
              · rintro ⟨-, hSent⟩
                exact ⟨_, congrArg some hSent⟩

theorem serveFileContents_ok_iff (now : Moment) (connId : Int) (clip : ClipFiles)
    (fcr : FileContentsRequest) :
    (∃ response, (clip.serveFileContents now.overflowChecks now.fs now.faults connId fcr).1 =
        some (.ok response)) ↔ ContentsGiven now clip fcr := by
  cases fcr with
  | range streamId fileIdx offset length =>
      exact serveFileContents_range_ok_iff now connId clip streamId fileIdx offset length
  | size streamId fileIdx =>
      unfold ContentsGiven
      rw [ClipFiles.serveFileContents]
      cases hFile : clip.fileList[fileIdx]? with
      | none => simp [List.getElem?_eq_none_iff.mp hFile]
      | some file =>
          have hLoads := hotReload_ok_iff now.fs clip fileIdx
            (.fileContentsResponse 1 streamId (toLeBytes file.size))
          dsimp only
          rw [← hLoads]
          constructor
          · rintro ⟨response, hSent⟩
            have hReload := Option.some.inj hSent
            obtain rfl := eq_of_hotReload hReload
            exact ⟨(List.getElem?_eq_some_iff.mp hFile).1, hReload⟩
          · rintro ⟨-, hSent⟩
            exact ⟨_, congrArg some hSent⟩

/-- The answer to a request for contents gives them exactly if they are there to be given. -/
theorem gives_answer_iff (now : Moment) (connId : Int) (clip : ClipFiles)
    (request : ContentsRequest) :
    (∃ message ∈ ((clip.answer now.overflowChecks now.fs now.faults connId request).1).getD [],
        message.GivesFiles) ↔
      ∃ fcr, ClipFiles.decode request = some fcr ∧ ContentsGiven now clip fcr := by
  cases hDecode : ClipFiles.decode request with
  | none =>
      unfold ClipFiles.answer ClipFiles.readFileContents
      simp [hDecode, ClipFiles.reply, ClipFiles.respFileContentsFail, ClipboardFile.GivesFiles]
  | some fcr =>
      have hOk := serveFileContents_ok_iff now connId clip fcr
      simp only [Option.some.injEq, exists_eq_left', ← hOk]
      unfold ClipFiles.answer ClipFiles.readFileContents
      rw [hDecode]
      dsimp only
      cases hResult : (clip.serveFileContents now.overflowChecks now.fs now.faults connId fcr).1 with
      | none => simp
      | some result =>
          simp only [Option.map_some, Option.getD_some, List.map_append, List.mem_append,
            List.map_cons, List.map_nil, List.mem_singleton, Option.some.injEq]
          constructor
          · rintro ⟨message, hMessage | rfl, hGives⟩
            · -- The list for the audit gives the peer nothing.
              simp only [List.mem_map, Option.mem_toList] at hMessage
              obtain ⟨_, ⟨audit, hAudit, rfl⟩, rfl⟩ := hMessage
              obtain ⟨files, rfl⟩ := files_of_getFilesForAudit hAudit
              exact hGives.elim
            · cases result with
              | error error => exact absurd hGives (by simp [ClipFiles.reply,
                  ClipFiles.respFileContentsFail, ClipboardFile.GivesFiles])
              | ok response => exact ⟨response, rfl⟩
          · rintro ⟨response, rfl⟩
            obtain ⟨data, rfl⟩ := response_of_serveFileContents hResult
            exact ⟨_, Or.inr rfl, rfl⟩

/-- The peer is told of files exactly if there is something to give. -/
theorem gives_iff_grants (now : Moment) (connId : Int) (copied : CopiedFiles) (clip : ClipboardFile) :
    (∃ message ∈ ((serveClipMessages now connId copied clip).1).getD [], message.GivesFiles) ↔
      Grants now copied clip := by
  cases clip with
  | formatDataRequest requestedFormatId =>
      unfold serveClipMessages
      cases hPdu : copied.filesPdu with
      | nil => simp [Grants, hPdu, ClipboardFile.GivesFiles]
      | cons byte rest => simp [Grants, hPdu, ClipboardFile.GivesFiles]
  | formatList formatList =>
      rw [serveClipMessages]
      split
      · simp [Grants]
      · split <;> simp [Grants, ClipboardFile.GivesFiles]
  | fileContentsRequest request => exact gives_answer_iff now connId copied.clip request
  | _ => simp [serveClipMessages, Grants]

/-- What macOS handles itself gives nothing away. -/
theorem not_grants_of_shouldHandleMsg {clip : ClipboardFile} (hHandles : clip.shouldHandleMsg = true)
    (now : Moment) (copied : CopiedFiles) : ¬ Grants now copied clip := by
  cases clip with
  | formatDataRequest requestedFormatId => cases hHandles
  | fileContentsRequest request => cases hHandles
  | _ => exact id

end Grants

/-- The connection passes the messages of the file clipboard on to be served. -/
structure Reaches (fixed : Fixed) (conn : Loop) : Prop where
  running : conn.running = true
  authorized : conn.state.conn.authorized = true
  noForward : conn.state.conn.portForwardSocket = none
  unix : fixed.build.targetOs ≠ .windows
  feature : fixed.build.unixFileCopyPaste = true
  version : getVersionNumber "1.3.8" ≤ getVersionNumber conn.state.conn.lr.version

section Permission
variable {fixed : Fixed} {clipOf : Bytes → Option ClipboardFile}

theorem touchSession_conn (s : State) (env : Env) :
    (s.touchSession env).conn = s.conn ∧ (s.touchSession env).effects = s.effects := by
  unfold State.touchSession
  split <;> exact ⟨rfl, rfl⟩

theorem serveClip_onCliprdr_iff (s : State) (payload : Bytes) :
    Effect.serveClip payload ∈ (s.onCliprdr fixed (.clip payload)).effects.drop s.effects.length ↔
      fixed.build.targetOs ≠ .windows ∧ fixed.build.unixFileCopyPaste = true ∧
        getVersionNumber "1.3.8" ≤ getVersionNumber s.conn.lr.version := by
  unfold State.onCliprdr
  dsimp only
  split
  · rename_i hWindows
    simp [State.sendToCm, State.emit, hWindows]
  · rename_i hUnix
    split
    · rename_i hServes
      simpa [State.emit, hUnix] using hServes
    · rename_i hServes
      simpa [hUnix] using hServes

/-- A message is passed on exactly if the connection is one that does so. -/
theorem servedPayload_eq_some_iff {conn : Loop} {env : Env} {payload found : Bytes} :
    servedPayload fixed conn (env, .peer (.cliprdr (.clip payload))) = some found ↔
      found = payload ∧ Reaches fixed conn := by
  obtain ⟨hConn, hEffects⟩ := touchSession_conn conn.state env
  have hAfter : Effect.serveClip payload ∈
      (conn.step fixed (env, .peer (.cliprdr (.clip payload)))).state.effects.drop
        conn.state.effects.length ↔ Reaches fixed conn := by
    unfold Loop.step State.onInput State.onPeer State.onMessage
    cases hRunning : conn.running with
    | false => simpa using fun hReaches : Reaches fixed conn => by simpa [hRunning] using hReaches.running
    | true =>
        simp only [if_true, hConn]
        cases hAuthorized : conn.state.conn.authorized with
        | false =>
            simpa [hEffects] using
              fun hReaches : Reaches fixed conn => by simpa [hAuthorized] using hReaches.authorized
        | true =>
            cases hSocket : conn.state.conn.portForwardSocket with
            | some target =>
                simpa [hEffects] using
                  fun hReaches : Reaches fixed conn => by simpa [hSocket] using hReaches.noForward
            | none =>
                have hServed := @serveClip_onCliprdr_iff fixed (conn.state.touchSession env) payload
                rw [hConn, hEffects] at hServed
                refine hServed.trans ⟨fun ⟨hUnix, hFeature, hVersion⟩ => ?_, fun hReaches => ?_⟩
                · exact ⟨hRunning, hAuthorized, hSocket, hUnix, hFeature, hVersion⟩
                · exact ⟨hReaches.unix, hReaches.feature, hReaches.version⟩
  unfold servedPayload
  dsimp only
  split
  · rename_i hMem
    simp [hAfter.mp hMem, eq_comm]
  · rename_i hMem
    simp [mt hAfter.mpr hMem]

namespace ClipHost

/-- While files are not allowed, what reaches the copied files finds nothing to give. -/
def Withholds (fixed : Fixed) (clipOf : Bytes → Option ClipboardFile) (h : ClipHost) :
    HostEvent → Prop
  | .input now (_, .peer (.cliprdr (.clip payload))) =>
      h.conn.state.conn.fileTransferEnabled = false → Reaches fixed h.conn →
        ∀ clip, clipOf payload = some clip → ¬ Grants now h.copied clip
  | _ => True

/-- What is answered gives files exactly if there is something to give. -/
theorem gives_answers_iff (h : ClipHost) (now : Moment) (event : Event) :
    (∃ message ∈ h.answers fixed clipOf (.input now event), message.GivesFiles) ↔
      ∃ clip, servedClip fixed clipOf h.conn event = some clip ∧ Grants now h.copied clip := by
  unfold answers
  dsimp only
  cases hClip : servedClip fixed clipOf h.conn event with
  | none => simp
  | some clip =>
      simp only [Option.some.injEq, exists_eq_left', ← gives_iff_grants now h.conn.state.conn.id,
        List.mem_filter]
      constructor
      · rintro ⟨message, ⟨hMem, -⟩, hGives⟩
        exact ⟨message, hMem, hGives⟩
      · rintro ⟨message, hMem, hGives⟩
        refine ⟨message, ⟨hMem, ?_⟩, hGives⟩
        cases message with
        | files files => exact hGives.elim
        | _ => rfl

/-- A step obeys the permission exactly if nothing is there to be given at it. -/
theorem obeys_iff_withholds (h : ClipHost) (event : HostEvent) :
    h.Obeys fixed clipOf event ↔ h.Withholds fixed clipOf event := by
  cases event with
  | others event => simp [Obeys, Withholds, answers]
  | input now event =>
      have hGives := @gives_answers_iff fixed clipOf h now event
      obtain ⟨env, input⟩ := event
      have hObeys : h.Obeys fixed clipOf (.input now (env, input)) ↔
          (h.conn.state.conn.fileTransferEnabled = false →
            ¬ ∃ clip, servedClip fixed clipOf h.conn (env, input) = some clip ∧
              Grants now h.copied clip) := by
        rw [← hGives, Obeys]
        simp only [not_exists, not_and]
      rw [hObeys]
      unfold Withholds
      split
      · rename_i payload hEvent
        cases hEvent
        refine imp_congr_right fun _ => ⟨fun hNone hReaches clip hClip hGrants => ?_, ?_⟩
        · have hPayload : servedPayload fixed h.conn (env, .peer (.cliprdr (.clip payload))) =
              some payload := servedPayload_eq_some_iff.mpr ⟨rfl, hReaches⟩
          refine hNone ⟨clip, ?_, hGrants⟩
          unfold servedClip
          rw [hPayload, Option.bind_some, hClip, Option.filter_some, if_pos]
          cases hHandles : clip.shouldHandleMsg with
          | false => simp
          | true => exact absurd hGrants (not_grants_of_shouldHandleMsg hHandles now h.copied)
        · rintro hNothing ⟨clip, hServed, hGrants⟩
          obtain ⟨hClip, -⟩ := Option.filter_eq_some_iff.mp hServed
          obtain ⟨found, hFound, hParsed⟩ := Option.bind_eq_some_iff.mp hClip
          obtain ⟨rfl, hReaches⟩ := servedPayload_eq_some_iff.mp hFound
          exact hNothing hReaches clip hParsed hGrants
      · rename_i hOther
        refine iff_of_true (fun _ => ?_) trivial
        rintro ⟨clip, hServed, -⟩
        have hNone : servedPayload fixed h.conn (env, input) = none := by
          unfold servedPayload
          split
          · rename_i hEvent
            cases hEvent
            exact (hOther _ _ _ rfl).elim
          · rfl
        simp [servedClip, hNone] at hServed

/-- In a run with any messages and any changes of the permissions, nothing of the copied
files is told while files are not allowed, exactly if whatever reaches them then finds
nothing to give. -/
theorem obeys_permission_iff (h : ClipHost) (events : List HostEvent) :
    Trace.Always (step fixed clipOf) (Obeys fixed clipOf) h events ↔
      Trace.Always (step fixed clipOf) (Withholds fixed clipOf) h events := by
  induction events generalizing h with
  | nil => exact Iff.rfl
  | cons event rest ih => exact and_congr (obeys_iff_withholds h event) (ih _)

/-- A peer is told of a file that is copied after the permission for files is gone. -/
theorem list_given_without_permission :
    ¬ ∀ (fixed : Fixed) (clipOf : Bytes → Option ClipboardFile) (world : World) (now : Nat)
        (id : Int) (ip salt challenge : String) (events : List HostEvent),
      let conn := Loop.start fixed world none now id ip salt challenge none none
      Trace.Always (step fixed clipOf) (Obeys fixed clipOf) { conn := conn, copied := .new }
        events := by
  intro hClaim
  let world : World := { (default : World) with
    config := { (default : Config) with permanentPassword := "password" } }
  let lr : LoginRequest := { password := utf8 "passwordsaltchallenge", version := "1.4.0" }
  let past : List HostEvent :=
    [.input aMoment (default, .peer (.loginRequest lr)),
      .input aMoment (default, .cm (.switchPermission .file false)),
      .others (.sync twoListed 1 ["/d/a".toList])]
  let clipOf : Bytes → Option ClipboardFile := fun _ => some (.formatDataRequest 0)
  let start : ClipHost :=
    { conn := Loop.start default world none 0 1 "10.0.0.1" "salt" "challenge" none none
      copied := .new }
  let ask : HostEvent := .input aMoment (default, .peer (.cliprdr (.clip [])))
  have hAlways := hClaim default clipOf world 0 1 "10.0.0.1" "salt" "challenge" (past ++ [ask])
  have hObeys : (Trace.run (step default clipOf) start past).Obeys default clipOf ask :=
    ((Trace.always_append _ _ _ _).mp hAlways).2.1
  -- The two steps on the connection come before the files are copied.
  have hConn : (Trace.run (step default clipOf) start past).conn =
      start.conn.run default [(default, .peer (.loginRequest lr)),
        (default, .cm (.switchPermission .file false))] := rfl
  have hReaches : Reaches default (Trace.run (step default clipOf) start past).conn := by
    rw [hConn]
    constructor
    all_goals decide +kernel
  have hDisabled : (Trace.run (step default clipOf) start past).conn.state.conn.fileTransferEnabled =
      false := by
    rw [hConn]
    decide +kernel
  have hListed : (Trace.run (step default clipOf) start past).copied.filesPdu ≠ [] := by
    decide +kernel
  exact (obeys_iff_withholds _ _).mp hObeys hDisabled hReaches (.formatDataRequest 0) rfl hListed

end ClipHost

end Permission

end HibtDesk.Clipboard
