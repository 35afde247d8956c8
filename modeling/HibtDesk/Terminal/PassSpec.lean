import HibtDesk.Terminal.Service

/-! What a pass of `read_outputs` does to a service: step by step, and as a whole if
nothing comes in between. -/
namespace HibtDesk.Terminal.TerminalService

variable (zstdCompress : Bytes → Option Bytes)

theorem ended_visited (session : TerminalSession) : ended (visited session) = ended session := rfl

theorem ended_setSession {service : TerminalService} (ref other : SessionRef)
    {session : TerminalSession} (hSame : ended session = ended (service.session ref)) :
    ended ((service.setSession ref session).session other) = ended (service.session other) := by
  by_cases hThis : other = ref
  · subst hThis
    simpa [setSession] using hSame
  · simp [setSession, hThis]

theorem closedMessageSent_setSession {service : TerminalService} (ref other : SessionRef)
    {session : TerminalSession}
    (hSame : session.closedMessageSent = (service.session ref).closedMessageSent) :
    ((service.setSession ref session).session other).closedMessageSent =
      (service.session other).closedMessageSent := by
  by_cases hThis : other = ref
  · subst hThis
    simpa [setSession] using hSame
  · simp [setSession, hThis]

section Read
variable (service : TerminalService) (locked : Bool) (entry : Int × SessionRef) (pass : Pass)

/-- Reading a session moves nothing in the map, and ends no reader. -/
theorem readSession_frame :
    (readSession zstdCompress locked entry service pass).1.sessions = service.sessions ∧
      (readSession zstdCompress locked entry service pass).1.next = service.next ∧
      ∀ ref, ended ((readSession zstdCompress locked entry service pass).1.session ref) =
        ended (service.session ref) := by
  unfold readSession
  split
  · exact ⟨rfl, rfl, fun _ => rfl⟩
  · exact ⟨rfl, rfl, fun ref => ended_setSession entry.2 ref (ended_visited _)⟩

/-- When a session is noted. -/
theorem readSession_closed :
    (readSession zstdCompress locked entry service pass).2.closedTerminals =
      pass.closedTerminals ++
        if !locked && shouldSendClosed (service.session entry.2) then [entry.1] else [] := by
  unfold readSession
  cases locked with
  | true => simp
  | false => simp

theorem readSession_session (ref : SessionRef) :
    (readSession zstdCompress locked entry service pass).1.session ref =
      if ref = entry.2 ∧ locked = false then visited (service.session ref)
      else service.session ref := by
  unfold readSession
  cases locked with
  | true => simp
  | false =>
      by_cases hThis : ref = entry.2
      · subst hThis
        simp [setSession]
      · simp [setSession, hThis]

theorem readSession_settings :
    (readSession zstdCompress locked entry service pass).1.isPersistent = service.isPersistent ∧
      (readSession zstdCompress locked entry service pass).2.isPersistent = pass.isPersistent := by
  unfold readSession
  split
  · exact ⟨rfl, rfl⟩
  · exact ⟨rfl, rfl⟩

/-- Reading sends data and nothing else. -/
theorem readSession_responses (terminalId exitCode : Int) :
    TerminalResponse.closed terminalId exitCode ∈
        (readSession zstdCompress locked entry service pass).2.responses ↔
      TerminalResponse.closed terminalId exitCode ∈ pass.responses := by
  unfold readSession
  split
  · rfl
  · refine ⟨fun hIn => ?_, fun hIn => List.mem_append_left _ hIn⟩
    rcases List.mem_append.mp hIn with hOld | hNew
    · exact hOld
    · obtain ⟨data, -, hData⟩ := List.mem_map.mp hNew
      unfold dataResponse at hData
      dsimp only at hData
      split at hData
      · cases hData
      · cases hData

end Read

section Clean
variable (service : TerminalService) (exitCode : Option Int) (terminalId : Int) (pass : Pass)

/-- Cleaning a terminal up takes at most that terminal from the map. -/
theorem cleanTerminal_frame :
    ((cleanTerminal exitCode terminalId service pass).1.sessions = service.sessions ∨
      (cleanTerminal exitCode terminalId service pass).1.sessions =
        remove service.sessions terminalId) ∧
      (cleanTerminal exitCode terminalId service pass).1.next = service.next ∧
      (∀ ref, ended ((cleanTerminal exitCode terminalId service pass).1.session ref) =
        ended (service.session ref)) ∧
      (cleanTerminal exitCode terminalId service pass).2.closedTerminals =
        pass.closedTerminals := by
  unfold cleanTerminal
  dsimp only
  split
  · exact ⟨Or.inl rfl, rfl, fun _ => rfl, rfl⟩
  next ref _ =>
    have hEnded : ∀ other, ended ((service.setSession ref
        { service.session ref with child := false }).session other) =
          ended (service.session other) := fun other => ended_setSession ref other rfl
    split
    · exact ⟨Or.inl rfl, rfl, hEnded, rfl⟩
    · exact ⟨Or.inr rfl, rfl, hEnded, rfl⟩

theorem cleanTerminal_closedMessageSent (ref : SessionRef) :
    ((cleanTerminal exitCode terminalId service pass).1.session ref).closedMessageSent =
      (service.session ref).closedMessageSent := by
  unfold cleanTerminal
  dsimp only
  split
  · rfl
  next found _ =>
    have hSent : ((service.setSession found { service.session found with child := false }).session
        ref).closedMessageSent = (service.session ref).closedMessageSent :=
      closedMessageSent_setSession found ref rfl
    split
    · exact hSent
    · exact hSent

/-- A terminal the copy knows is taken from the map and from the copy, unless the
service is persistent. -/
theorem cleanTerminal_sessions :
    (cleanTerminal exitCode terminalId service pass).1.sessions =
        (if (get (pass.sessions.getD []) terminalId).isSome ∧ pass.isPersistent = false then
          remove service.sessions terminalId else service.sessions) ∧
      (cleanTerminal exitCode terminalId service pass).2.sessions =
        (if (get (pass.sessions.getD []) terminalId).isSome ∧ pass.isPersistent = false then
          some (remove (pass.sessions.getD []) terminalId) else pass.sessions) := by
  unfold cleanTerminal
  dsimp only
  cases get (pass.sessions.getD []) terminalId with
  | none => simp
  | some ref =>
      cases pass.isPersistent with
      | true => simp [setSession]
      | false => simp [setSession]

/-- With the copy of the map up to date, the terminal is gone afterwards. -/
theorem cleanTerminal_synced (hCopy : pass.sessions = some service.sessions) :
    (cleanTerminal exitCode terminalId service pass).2.sessions =
        some (cleanTerminal exitCode terminalId service pass).1.sessions ∧
      ∀ other, get (cleanTerminal exitCode terminalId service pass).1.sessions other =
        if pass.isPersistent = false ∧ other = terminalId then none
        else get service.sessions other := by
  obtain ⟨hMap, hAfter⟩ := cleanTerminal_sessions service exitCode terminalId pass
  rw [hMap, hAfter, hCopy, Option.getD_some]
  split
  next hRemoved =>
    refine ⟨rfl, fun other => ?_⟩
    by_cases hThis : other = terminalId
    · rw [if_pos ⟨hRemoved.2, hThis⟩, hThis, get_remove_self]
    · rw [if_neg fun hBoth => hThis hBoth.2, get_remove_of_ne hThis]
  next hStays =>
    refine ⟨rfl, fun other => ?_⟩
    split
    next hThis =>
      have hNone : ¬ (get service.sessions terminalId).isSome = true :=
        fun hSome => hStays ⟨hSome, hThis.1⟩
      rw [hThis.2]
      simpa using hNone
    next => rfl

theorem cleanTerminal_settings :
    (cleanTerminal exitCode terminalId service pass).1.isPersistent = service.isPersistent ∧
      (cleanTerminal exitCode terminalId service pass).2.isPersistent = pass.isPersistent := by
  unfold cleanTerminal
  dsimp only
  split
  · exact ⟨rfl, rfl⟩
  · split
    · exact ⟨rfl, rfl⟩
    · exact ⟨rfl, rfl⟩

theorem cleanTerminal_responses :
    ∃ code, (cleanTerminal exitCode terminalId service pass).2.responses =
      pass.responses ++ [.closed terminalId code] := by
  unfold cleanTerminal
  dsimp only
  split
  · exact ⟨_, rfl⟩
  · split
    · exact ⟨_, rfl⟩
    · exact ⟨_, rfl⟩

end Clean

section Whole
variable (locked : SessionRef → Bool) (exitCode : Int → Option Int)

/-- The pass finds that the session has ended, and says so. -/
def closing (service : TerminalService) (ref : SessionRef) : Bool :=
  !locked ref && shouldSendClosed (service.session ref)

/-- The terminals the pass finds closed. -/
def closingIds (service : TerminalService) (todo : List (Int × SessionRef)) : List Int :=
  (todo.filter fun entry => closing locked service entry.2).map Prod.fst

theorem readAll_frame (todo : List (Int × SessionRef)) (service : TerminalService) (pass : Pass) :
    (readAll zstdCompress locked todo service pass).1.sessions = service.sessions ∧
      (readAll zstdCompress locked todo service pass).1.next = service.next ∧
      (readAll zstdCompress locked todo service pass).1.isPersistent = service.isPersistent ∧
      (readAll zstdCompress locked todo service pass).2.isPersistent = pass.isPersistent := by
  induction todo generalizing service pass with
  | nil => exact ⟨rfl, rfl, rfl, rfl⟩
  | cons entry todo ih =>
      obtain ⟨hSessions, hNext, -⟩ :=
        readSession_frame zstdCompress service (locked entry.2) entry pass
      obtain ⟨hService, hPass⟩ :=
        readSession_settings zstdCompress service (locked entry.2) entry pass
      rw [readAll]
      dsimp only
      rw [← hSessions, ← hNext, ← hService, ← hPass]
      exact ih _ _

theorem readAll_session {todo : List (Int × SessionRef)} (hRefs : (todo.map Prod.snd).Nodup)
    (service : TerminalService) (pass : Pass) (ref : SessionRef) :
    (readAll zstdCompress locked todo service pass).1.session ref =
      if ref ∈ todo.map Prod.snd ∧ locked ref = false then visited (service.session ref)
      else service.session ref := by
  induction todo generalizing service pass with
  | nil => simp [readAll]
  | cons entry todo ih =>
      obtain ⟨hFresh, hRest⟩ := List.nodup_cons.mp hRefs
      rw [readAll]
      dsimp only
      rw [ih hRest, readSession_session]
      by_cases hThis : ref = entry.2
      · subst hThis
        simp [hFresh]
      · simp only [hThis, false_and, if_false, List.map_cons, List.mem_cons, false_or]

theorem readAll_closed {todo : List (Int × SessionRef)} (hRefs : (todo.map Prod.snd).Nodup)
    (service : TerminalService) (pass : Pass) :
    (readAll zstdCompress locked todo service pass).2.closedTerminals =
      pass.closedTerminals ++ closingIds locked service todo := by
  induction todo generalizing service pass with
  | nil => simp [readAll, closingIds]
  | cons entry todo ih =>
      obtain ⟨hFresh, hRest⟩ := List.nodup_cons.mp hRefs
      have hLater : closingIds locked
          (readSession zstdCompress (locked entry.2) entry service pass).1 todo =
            closingIds locked service todo := by
        unfold closingIds closing
        congr 1
        apply List.filter_congr
        intro other hOther
        have hDiffers : other.2 ≠ entry.2 := by
          intro hSame
          exact hFresh (hSame ▸ List.mem_map_of_mem hOther)
        rw [readSession_session, if_neg fun hBoth => hDiffers hBoth.1]
      rw [readAll]
      dsimp only
      rw [ih hRest, hLater, readSession_closed, List.append_assoc]
      unfold closingIds closing
      split
      next hClosed => rw [List.filter_cons_of_pos (by simpa using hClosed)]; rfl
      next hOpen => rw [List.filter_cons_of_neg (by simpa using hOpen)]; rfl

theorem readAll_responses (todo : List (Int × SessionRef)) (service : TerminalService) (pass : Pass)
    (terminalId code : Int) :
    TerminalResponse.closed terminalId code ∈
        (readAll zstdCompress locked todo service pass).2.responses ↔
      TerminalResponse.closed terminalId code ∈ pass.responses := by
  induction todo generalizing service pass with
  | nil => rfl
  | cons entry todo ih =>
      rw [readAll]
      dsimp only
      rw [ih, readSession_responses]

theorem cleanAll_frame (terminals : List Int) (service : TerminalService) (pass : Pass) :
    (cleanAll exitCode terminals service pass).1.next = service.next ∧
      (cleanAll exitCode terminals service pass).1.isPersistent = service.isPersistent ∧
      ∀ ref, ((cleanAll exitCode terminals service pass).1.session ref).closedMessageSent =
          (service.session ref).closedMessageSent ∧
        ended ((cleanAll exitCode terminals service pass).1.session ref) =
          ended (service.session ref) := by
  induction terminals generalizing service pass with
  | nil => exact ⟨rfl, rfl, fun _ => ⟨rfl, rfl⟩⟩
  | cons terminalId terminals ih =>
      obtain ⟨-, hNext, hEnded, -⟩ :=
        cleanTerminal_frame service (exitCode terminalId) terminalId pass
      obtain ⟨hService, -⟩ := cleanTerminal_settings service (exitCode terminalId) terminalId pass
      have hSent := cleanTerminal_closedMessageSent service (exitCode terminalId) terminalId pass
      obtain ⟨ihNext, ihService, ihSession⟩ :=
        ih (cleanTerminal (exitCode terminalId) terminalId service pass).1
          (cleanTerminal (exitCode terminalId) terminalId service pass).2
      refine ⟨ihNext.trans hNext, ihService.trans hService, fun ref => ?_⟩
      exact ⟨(ihSession ref).1.trans (hSent ref), (ihSession ref).2.trans (hEnded ref)⟩

theorem cleanAll_get (terminals : List Int) {service : TerminalService} {pass : Pass}
    (hCopy : pass.sessions = some service.sessions) (other : Int) :
    get (cleanAll exitCode terminals service pass).1.sessions other =
      if pass.isPersistent = false ∧ other ∈ terminals then none
      else get service.sessions other := by
  induction terminals generalizing service pass with
  | nil => simp [cleanAll]
  | cons terminalId terminals ih =>
      obtain ⟨hSynced, hGet⟩ :=
        cleanTerminal_synced service (exitCode terminalId) terminalId pass hCopy
      obtain ⟨-, hPass⟩ := cleanTerminal_settings service (exitCode terminalId) terminalId pass
      rw [cleanAll]
      dsimp only
      rw [ih hSynced, hPass, hGet]
      by_cases hThis : other = terminalId
      · cases pass.isPersistent with
        | true => simp
        | false => simp [hThis]
      · simp [hThis]

theorem cleanAll_responses (terminals : List Int) (service : TerminalService) (pass : Pass)
    (other : Int) :
    (∃ code, TerminalResponse.closed other code ∈
        (cleanAll exitCode terminals service pass).2.responses) ↔
      other ∈ terminals ∨ ∃ code, TerminalResponse.closed other code ∈ pass.responses := by
  induction terminals generalizing service pass with
  | nil => simp [cleanAll]
  | cons terminalId terminals ih =>
      obtain ⟨code, hResponses⟩ :=
        cleanTerminal_responses service (exitCode terminalId) terminalId pass
      rw [cleanAll]
      dsimp only
      rw [ih, hResponses]
      have hAdded : (∃ found, TerminalResponse.closed other found ∈
          pass.responses ++ [TerminalResponse.closed terminalId code]) ↔
            (∃ found, TerminalResponse.closed other found ∈ pass.responses) ∨
              other = terminalId := by
        simp [exists_or]
      rw [hAdded, List.mem_cons]
      tauto

theorem cleanAll_sublist (terminals : List Int) (service : TerminalService) (pass : Pass) :
    (cleanAll exitCode terminals service pass).1.sessions.Sublist service.sessions := by
  induction terminals generalizing service pass with
  | nil => exact List.Sublist.refl _
  | cons terminalId terminals ih =>
      have hFirst : (cleanTerminal (exitCode terminalId) terminalId service
          pass).1.sessions.Sublist service.sessions := by
        rcases (cleanTerminal_frame service (exitCode terminalId) terminalId pass).1 with
          hSame | hRemoved
        · rw [hSame]
        · rw [hRemoved]
          exact List.filter_sublist
      rw [cleanAll]
      exact (ih _ _).trans hFirst

variable (service : TerminalService)

/-- The sessions the pass has read, and what it has noted. -/
theorem readOutputs_eq :
    let reads := readAll zstdCompress locked service.sessions service service.collect
    let cleans := cleanAll exitCode reads.2.closedTerminals reads.1 (reads.1.beginCleanup reads.2)
    readOutputs zstdCompress locked exitCode service =
      if reads.2.closedTerminals.isEmpty then (reads.2.responses, reads.1)
      else (cleans.2.responses, cleans.1) := rfl

theorem readOutputs_settings :
    (readOutputs zstdCompress locked exitCode service).2.next = service.next ∧
      (readOutputs zstdCompress locked exitCode service).2.isPersistent = service.isPersistent ∧
      (readOutputs zstdCompress locked exitCode service).2.sessions.Sublist service.sessions := by
  obtain ⟨hSessions, hNext, hService, -⟩ :=
    readAll_frame zstdCompress locked service.sessions service service.collect
  have hSame : (readAll zstdCompress locked service.sessions service
      service.collect).1.sessions.Sublist service.sessions := by
    rw [hSessions]
  rw [readOutputs_eq]
  split
  · exact ⟨hNext, hService, hSame⟩
  · obtain ⟨hNext', hService', -⟩ := cleanAll_frame exitCode
      (readAll zstdCompress locked service.sessions service service.collect).2.closedTerminals
      (readAll zstdCompress locked service.sessions service service.collect).1
      (beginCleanup (readAll zstdCompress locked service.sessions service service.collect).1
        (readAll zstdCompress locked service.sessions service service.collect).2)
    refine ⟨hNext'.trans hNext, hService'.trans hService, ?_⟩
    exact (cleanAll_sublist ..).trans hSame

variable {service} (hRefs : (service.sessions.map Prod.snd).Nodup)
include hRefs

theorem readOutputs_get (other : Int) :
    get (readOutputs zstdCompress locked exitCode service).2.sessions other =
      if service.isPersistent = false ∧ other ∈ closingIds locked service service.sessions then none
      else get service.sessions other := by
  obtain ⟨hSessions, -, -, hPass⟩ :=
    readAll_frame zstdCompress locked service.sessions service service.collect
  have hClosed := readAll_closed zstdCompress locked hRefs service service.collect
  have hPassFlag : (readAll zstdCompress locked service.sessions service
      service.collect).2.isPersistent = service.isPersistent := hPass
  rw [readOutputs_eq]
  split
  next hEmpty =>
    have hNone : closingIds locked service service.sessions = [] := by
      rw [hClosed] at hEmpty
      simpa [collect] using hEmpty
    rw [hNone, if_neg (by simp), hSessions]
  next =>
    rw [cleanAll_get exitCode _ rfl, hClosed, hSessions]
    simp only [beginCleanup, hPassFlag]
    rfl

theorem readOutputs_closedMessageSent (ref : SessionRef) :
    ((readOutputs zstdCompress locked exitCode service).2.session ref).closedMessageSent =
      ((service.session ref).closedMessageSent ||
        (decide (ref ∈ service.sessions.map Prod.snd) && closing locked service ref)) := by
  have hRead : ((readAll zstdCompress locked service.sessions service service.collect).1.session
      ref).closedMessageSent = ((service.session ref).closedMessageSent ||
        (decide (ref ∈ service.sessions.map Prod.snd) && closing locked service ref)) := by
    rw [readAll_session zstdCompress locked hRefs service service.collect ref]
    unfold closing
    by_cases hStored : ref ∈ service.sessions.map Prod.snd
    · cases hLocked : locked ref with
      | true => simp
      | false => simp [hStored, visited]
    · simp [hStored]
  rw [readOutputs_eq]
  split
  · exact hRead
  · rw [((cleanAll_frame exitCode _ _ _).2.2 ref).1]
    exact hRead

theorem readOutputs_responses (other : Int) :
    (∃ code, TerminalResponse.closed other code ∈
        (readOutputs zstdCompress locked exitCode service).1) ↔
      other ∈ closingIds locked service service.sessions := by
  have hClosed := readAll_closed zstdCompress locked hRefs service service.collect
  have hNone : ¬ ∃ code, TerminalResponse.closed other code ∈
      (readAll zstdCompress locked service.sessions service service.collect).2.responses := by
    rintro ⟨code, hIn⟩
    rw [readAll_responses] at hIn
    cases hIn
  have hNoted : (readAll zstdCompress locked service.sessions service
      service.collect).2.closedTerminals = closingIds locked service service.sessions := hClosed
  rw [readOutputs_eq]
  split
  next hEmpty =>
    rw [hNoted, List.isEmpty_iff] at hEmpty
    rw [hEmpty]
    exact ⟨fun hSome => (hNone hSome).elim, fun hIn => by cases hIn⟩
  next =>
    rw [cleanAll_responses, hNoted]
    refine ⟨fun hEither => hEither.resolve_right hNone, Or.inl⟩

end Whole

end HibtDesk.Terminal.TerminalService
