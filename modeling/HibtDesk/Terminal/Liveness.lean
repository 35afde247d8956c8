import Mathlib.Data.List.Nodup
import HibtDesk.Library.Trace
import HibtDesk.Terminal.PassSpec

/-! Whether a terminal that is reported open has a shell behind it. A pass over a
persistent service keeps the sessions it has reported closed, and a later open
answers with them. -/
namespace HibtDesk.Terminal

open TerminalService (get ids ended closing closingIds)

/-- What happens to a service, with the passes of its thread taken as a whole. -/
inductive ServiceEvent where
  | act (action : Action)
  | readOutputs (locked : SessionRef → Bool) (exitCode : Int → Option Int)

namespace TerminalService
variable (zstdCompress : Bytes → Option Bytes)

def step (service : TerminalService) : ServiceEvent → TerminalService
  | .act action => service.act action
  | .readOutputs locked exitCode => (readOutputs zstdCompress locked exitCode service).2

/-- The step reports the terminal of the session closed. -/
def Reports (ref : SessionRef) (service : TerminalService) : ServiceEvent → Prop
  | .act _ => False
  | .readOutputs locked exitCode =>
      ∃ terminalId code, get service.sessions terminalId = some ref ∧
        TerminalResponse.closed terminalId code ∈ (readOutputs zstdCompress locked exitCode service).1

/-- The step is a pass over a persistent service that finds the reader of the
terminal's session ended. -/
def KeepsEnded (terminalId : Int) (service : TerminalService) : ServiceEvent → Prop
  | .act _ => False
  | .readOutputs locked _ =>
      service.isPersistent = true ∧ ∃ ref, get service.sessions terminalId = some ref ∧
        locked ref = false ∧ ended (service.session ref) = true

/-- The step closes the terminal. -/
def Closes (terminalId : Int) (_ : TerminalService) : ServiceEvent → Prop
  | .act (.close _ closed) => closed = terminalId
  | _ => False

/-- If the step opens a terminal and is answered with success, the session stored
for the terminal has not been reported closed. -/
def OpensLive (start : TerminalService) (past : List ServiceEvent) (event : ServiceEvent) : Prop :=
  ∀ helper spawned terminalId rows cols,
    event = .act (.openTerminal helper spawned terminalId rows cols) →
    ∀ message pid serviceId persistentSessions,
      ((Trace.run (step zstdCompress) start past).handleOpen helper spawned terminalId rows cols).1 =
          .ok (.opened terminalId true message pid serviceId persistentSessions) →
        ∀ ref, get ((Trace.run (step zstdCompress) start past).handleOpen helper spawned terminalId
            rows cols).2.sessions terminalId = some ref →
          ¬ Trace.Once (step zstdCompress) (Reports zstdCompress ref) start past

/-- The step opens no terminal whose ended session a pass has kept, unless it was
closed since. -/
def OpensNoneKept (start : TerminalService) (past : List ServiceEvent) (event : ServiceEvent) :
    Prop :=
  ∀ helper spawned terminalId rows cols,
    event = .act (.openTerminal helper spawned terminalId rows cols) →
      ¬ Trace.Since (step zstdCompress) (KeepsEnded terminalId) (Closes terminalId) start past

/-- Terminals and sessions belong together one to one. -/
structure Distinct (service : TerminalService) : Prop where
  ids : (ids service.sessions).Nodup
  refs : (service.sessions.map Prod.snd).Nodup
  allocated : ∀ entry ∈ service.sessions, entry.2 < service.next

section Distinct
variable {service : TerminalService}

theorem get_eq_some_iff {sessions : List (Int × SessionRef)} (hIds : (ids sessions).Nodup)
    (terminalId : Int) (ref : SessionRef) :
    get sessions terminalId = some ref ↔ (terminalId, ref) ∈ sessions := by
  refine ⟨mem_of_get, fun hIn => ?_⟩
  induction sessions with
  | nil => cases hIn
  | cons entry rest ih =>
      obtain ⟨hFresh, hRest⟩ := List.nodup_cons.mp hIds
      unfold get
      rw [List.lookup_cons]
      rcases List.mem_cons.mp hIn with rfl | hLater
      · simp
      · have hDiffers : (terminalId == entry.1) = false := by
          apply beq_false_of_ne
          intro hSame
          exact hFresh (hSame ▸ List.mem_map_of_mem hLater)
        rw [hDiffers]
        exact ih hRest hLater

theorem Distinct.sublist {after : TerminalService} (hDistinct : service.Distinct)
    (hSessions : after.sessions.Sublist service.sessions) (hNext : after.next = service.next) :
    after.Distinct := by
  refine ⟨hDistinct.ids.sublist (hSessions.map _), hDistinct.refs.sublist (hSessions.map _), ?_⟩
  intro entry hEntry
  rw [hNext]
  exact hDistinct.allocated entry (hSessions.subset hEntry)

theorem Distinct.act (hDistinct : service.Distinct) (action : Action) :
    (service.act action).Distinct := by
  rcases act_cases service action with ⟨hSessions, hNext, -⟩ |
    ⟨killed, terminalId, -, hSessions, hNext, -⟩ |
    ⟨helper, pid, terminalId, rows, cols, -, hNone, hSessions, hNext, -⟩
  · exact hDistinct.sublist (by rw [hSessions]) hNext
  · refine hDistinct.sublist ?_ hNext
    rw [hSessions]
    exact List.filter_sublist
  · have hFreshId : terminalId ∉ TerminalService.ids service.sessions := by
      intro hIn
      obtain ⟨entry, hEntry, rfl⟩ := List.mem_map.mp hIn
      rw [(get_eq_some_iff hDistinct.ids entry.1 entry.2).mpr hEntry] at hNone
      cases hNone
    have hFreshRef : service.next ∉ service.sessions.map Prod.snd := by
      intro hIn
      obtain ⟨entry, hEntry, hRef⟩ := List.mem_map.mp hIn
      exact Nat.ne_of_lt (hDistinct.allocated entry hEntry) hRef
    refine ⟨?_, ?_, ?_⟩
    · rw [hSessions, TerminalService.ids, List.map_append]
      exact List.nodup_append_comm.mp (List.nodup_cons.mpr ⟨hFreshId, hDistinct.ids⟩)
    · rw [hSessions, List.map_append]
      exact List.nodup_append_comm.mp (List.nodup_cons.mpr ⟨hFreshRef, hDistinct.refs⟩)
    · intro entry hEntry
      rw [hSessions, List.mem_append, List.mem_singleton] at hEntry
      rw [hNext]
      rcases hEntry with hOld | rfl
      · exact Nat.lt_succ_of_lt (hDistinct.allocated entry hOld)
      · exact Nat.lt_succ_self _

theorem Distinct.after_pass (hDistinct : service.Distinct) (locked : SessionRef → Bool)
    (exitCode : Int → Option Int) :
    (readOutputs zstdCompress locked exitCode service).2.Distinct := by
  obtain ⟨hNext, -, hSessions⟩ := readOutputs_settings zstdCompress locked exitCode service
  exact hDistinct.sublist hSessions hNext

theorem Distinct.mem_closingIds (hDistinct : service.Distinct) (locked : SessionRef → Bool)
    (terminalId : Int) :
    terminalId ∈ closingIds locked service service.sessions ↔
      ∃ ref, get service.sessions terminalId = some ref ∧ closing locked service ref = true := by
  unfold closingIds
  constructor
  · intro hIn
    obtain ⟨entry, hEntry, rfl⟩ := List.mem_map.mp hIn
    obtain ⟨hStored, hClosing⟩ := List.mem_filter.mp hEntry
    exact ⟨entry.2, (get_eq_some_iff hDistinct.ids entry.1 entry.2).mpr hStored, hClosing⟩
  · rintro ⟨ref, hGet, hClosing⟩
    refine List.mem_map.mpr ⟨(terminalId, ref), List.mem_filter.mpr ⟨mem_of_get hGet, ?_⟩, rfl⟩
    exact hClosing

theorem distinct_new (serviceId : String) (isPersistent : Bool) :
    (new serviceId isPersistent).Distinct := by
  refine ⟨List.nodup_nil, List.nodup_nil, fun entry hEntry => ?_⟩
  cases hEntry

end Distinct

/-- What the flags of the sessions say about the past: a session is marked if it
has been reported, and a terminal has a marked one just if a pass has kept it. -/
structure Tracked (start : TerminalService) (past : List ServiceEvent)
    (service : TerminalService) : Prop where
  distinct : service.Distinct
  reported : ∀ ref, Trace.Once (step zstdCompress) (Reports zstdCompress ref) start past →
    ref < service.next ∧ (service.session ref).closedMessageSent = true
  stored : ∀ terminalId ref, get service.sessions terminalId = some ref →
    (service.session ref).closedMessageSent = true →
      Trace.Once (step zstdCompress) (Reports zstdCompress ref) start past
  kept : ∀ terminalId,
    Trace.Since (step zstdCompress) (KeepsEnded terminalId) (Closes terminalId) start past ↔
      ∃ ref, get service.sessions terminalId = some ref ∧
        (service.session ref).closedMessageSent = true

section Tracked
variable {zstdCompress} {start : TerminalService} {past : List ServiceEvent}

theorem tracked_new (serviceId : String) (isPersistent : Bool) :
    Tracked zstdCompress (new serviceId isPersistent) [] (new serviceId isPersistent) := by
  refine ⟨distinct_new serviceId isPersistent, fun ref hOnce => hOnce.elim, ?_, fun terminalId => ?_⟩
  · intro terminalId ref hGet
    cases hGet
  · refine ⟨fun hSince => (Trace.since_nil _ _ hSince).elim, ?_⟩
    rintro ⟨ref, hGet, -⟩
    cases hGet

theorem once_act (ref : SessionRef) (action : Action) :
    Trace.Once (step zstdCompress) (Reports zstdCompress ref) start (past ++ [.act action]) ↔
      Trace.Once (step zstdCompress) (Reports zstdCompress ref) start past := by
  rw [Trace.once_concat]
  exact or_iff_left id

theorem since_act (terminalId : Int) (action : Action) :
    Trace.Since (step zstdCompress) (KeepsEnded terminalId) (Closes terminalId) start
        (past ++ [.act action]) ↔
      Trace.Since (step zstdCompress) (KeepsEnded terminalId) (Closes terminalId) start past ∧
        ¬ ∃ killed, action = .close killed terminalId := by
  rw [Trace.since_concat]
  have hCloses : Closes terminalId (Trace.run (step zstdCompress) start past) (.act action) ↔
      ∃ killed, action = .close killed terminalId := by
    cases action with
    | close killed closed => simp [Closes]
    | _ => simp [Closes]
  rw [hCloses]
  exact or_iff_right id

/-- An action keeps track if it leaves the marks of the sessions alone and takes
only closed terminals from the map. -/
theorem Tracked.of_marks {service after : TerminalService} {action : Action}
    (hTracked : Tracked zstdCompress start past service) (hDistinct : after.Distinct)
    (hNext : service.next ≤ after.next)
    (hMarks : ∀ ref, ref < service.next →
      (after.session ref).closedMessageSent = (service.session ref).closedMessageSent)
    (hStored : ∀ terminalId ref,
      (get after.sessions terminalId = some ref ∧ (after.session ref).closedMessageSent = true) ↔
        (get service.sessions terminalId = some ref ∧
          (service.session ref).closedMessageSent = true) ∧
            ¬ ∃ killed, action = .close killed terminalId) :
    Tracked zstdCompress start (past ++ [.act action]) after := by
  refine ⟨hDistinct, fun ref hOnce => ?_, fun terminalId ref hGet hMarked => ?_,
    fun terminalId => ?_⟩
  · obtain ⟨hLess, hMarked⟩ := hTracked.reported ref ((once_act ref action).mp hOnce)
    exact ⟨Nat.lt_of_lt_of_le hLess hNext, (hMarks ref hLess).trans hMarked⟩
  · obtain ⟨⟨hGet, hMarked⟩, -⟩ := (hStored terminalId ref).mp ⟨hGet, hMarked⟩
    exact (once_act ref action).mpr (hTracked.stored terminalId ref hGet hMarked)
  · rw [since_act, hTracked.kept terminalId]
    constructor
    · rintro ⟨⟨ref, hBefore⟩, hOpen⟩
      exact ⟨ref, (hStored terminalId ref).mpr ⟨hBefore, hOpen⟩⟩
    · rintro ⟨ref, hAfter⟩
      obtain ⟨hBefore, hOpen⟩ := (hStored terminalId ref).mp hAfter
      exact ⟨⟨ref, hBefore⟩, hOpen⟩

theorem Tracked.act {service : TerminalService} (hTracked : Tracked zstdCompress start past service)
    (action : Action) :
    Tracked zstdCompress start (past ++ [.act action]) (service.act action) := by
  have hDistinct := hTracked.distinct.act action
  rcases act_cases service action with ⟨hSessions, hNext, hKept⟩ |
    ⟨killed, closed, rfl, hSessions, hNext, hKept⟩ |
    ⟨helper, pid, opened, rows, cols, rfl, hNone, hSessions, hNext, hSession⟩
  · refine hTracked.of_marks hDistinct (Nat.le_of_eq hNext.symm)
      (fun ref _ => (hKept ref).closedMessageSent) fun terminalId ref => ?_
    rw [hSessions, (hKept ref).closedMessageSent]
    refine ⟨fun hBefore => ⟨hBefore, ?_⟩, And.left⟩
    rintro ⟨killed, rfl⟩
    -- Closing a terminal that is there would have taken it from the map.
    rw [TerminalService.act, handleClose_of_some hBefore.1] at hSessions
    have hGone : get service.sessions terminalId = none := by
      rw [← hSessions]
      exact get_remove_self
    rw [hGone] at hBefore
    cases hBefore.1
  · refine hTracked.of_marks hDistinct (Nat.le_of_eq hNext.symm)
      (fun ref _ => (hKept ref).closedMessageSent) fun terminalId ref => ?_
    rw [hSessions, (hKept ref).closedMessageSent]
    by_cases hThis : terminalId = closed
    · subst hThis
      simp
    · have hOpen : ¬ ∃ other, Action.close killed closed = .close other terminalId := by
        rintro ⟨other, hClose⟩
        exact hThis (Action.close.inj hClose).2.symm
      rw [get_remove_of_ne hThis]
      exact ⟨fun hBefore => ⟨hBefore, hOpen⟩, And.left⟩
  · have hOld : ∀ ref, ref < service.next → (service.act
        (.openTerminal helper (.ok pid) opened rows cols)).session ref = service.session ref := by
      intro ref hLess
      rw [hSession, Function.update_of_ne (Nat.ne_of_lt hLess)]
    have hNew : ((service.act (.openTerminal helper (.ok pid) opened rows cols)).session
        service.next).closedMessageSent = false := by
      rw [hSession, Function.update_self]
      rfl
    refine hTracked.of_marks hDistinct (hNext ▸ Nat.le_succ _)
      (fun ref hLess => by rw [hOld ref hLess]) fun terminalId ref => ?_
    rw [hSessions, get_concat]
    cases hStored : get service.sessions terminalId with
    | some old =>
        have hLess : old < service.next := hTracked.distinct.allocated _ (mem_of_get hStored)
        rw [Option.some_or]
        constructor
        · rintro ⟨hSame, hMarked⟩
          obtain rfl := Option.some.inj hSame
          rw [hOld old hLess] at hMarked
          exact ⟨⟨rfl, hMarked⟩, by simp⟩
        · rintro ⟨⟨hSame, hMarked⟩, -⟩
          obtain rfl := Option.some.inj hSame
          rw [hOld old hLess]
          exact ⟨rfl, hMarked⟩
    | none =>
        -- The new session is not marked.
        rw [Option.none_or]
        refine ⟨fun hAfter => ?_, fun hBefore => by cases hBefore.1.1⟩
        obtain ⟨hGet, hMarked⟩ := hAfter
        split at hGet
        · obtain rfl := Option.some.inj hGet
          rw [hNew] at hMarked
          cases hMarked
        · cases hGet

section Pass
variable {service : TerminalService} (locked : SessionRef → Bool) (exitCode : Int → Option Int)

theorem closing_iff (ref : SessionRef) :
    closing locked service ref = true ↔
      locked ref = false ∧ (service.session ref).closedMessageSent = false ∧
        ended (service.session ref) = true := by
  simp [closing, shouldSendClosed]

/-- A session is reported by a pass just if it is stored and found ended. -/
theorem Distinct.reports_iff (hDistinct : service.Distinct) (ref : SessionRef) :
    Reports zstdCompress ref service (.readOutputs locked exitCode) ↔
      ∃ terminalId, get service.sessions terminalId = some ref ∧
        closing locked service ref = true := by
  have hResponses := readOutputs_responses zstdCompress locked exitCode hDistinct.refs
  constructor
  · rintro ⟨terminalId, code, hStored, hIn⟩
    obtain ⟨other, hOther, hClosing⟩ := (hDistinct.mem_closingIds locked terminalId).mp
      ((hResponses terminalId).mp ⟨code, hIn⟩)
    rw [hStored] at hOther
    obtain rfl := Option.some.inj hOther
    exact ⟨terminalId, hStored, hClosing⟩
  · rintro ⟨terminalId, hStored, hClosing⟩
    obtain ⟨code, hIn⟩ := (hResponses terminalId).mpr
      ((hDistinct.mem_closingIds locked terminalId).mpr ⟨ref, hStored, hClosing⟩)
    exact ⟨terminalId, code, hStored, hIn⟩

/-- After a pass a terminal has its session still, unless the service is not
persistent and the pass found it ended. -/
theorem Distinct.get_pass_iff (hDistinct : service.Distinct) (terminalId : Int) (ref : SessionRef) :
    get (readOutputs zstdCompress locked exitCode service).2.sessions terminalId = some ref ↔
      get service.sessions terminalId = some ref ∧
        (closing locked service ref = true → service.isPersistent = true) := by
  rw [readOutputs_get zstdCompress locked exitCode hDistinct.refs]
  split
  next hGone =>
    obtain ⟨hTransient, hIn⟩ := hGone
    obtain ⟨other, hOther, hClosing⟩ := (hDistinct.mem_closingIds locked terminalId).mp hIn
    refine ⟨fun hNone => (by cases hNone), ?_⟩
    rintro ⟨hGet, hKept⟩
    rw [hOther] at hGet
    obtain rfl := Option.some.inj hGet
    rw [hTransient] at hKept
    cases hKept hClosing
  next hStays =>
    refine ⟨fun hGet => ⟨hGet, fun hClosing => ?_⟩, And.left⟩
    by_contra hTransient
    exact hStays ⟨by simpa using hTransient,
      (hDistinct.mem_closingIds locked terminalId).mpr ⟨ref, hGet, hClosing⟩⟩

theorem Distinct.mark_pass (hDistinct : service.Distinct) {terminalId : Int} {ref : SessionRef}
    (hGet : get service.sessions terminalId = some ref) :
    ((readOutputs zstdCompress locked exitCode service).2.session ref).closedMessageSent = true ↔
      (service.session ref).closedMessageSent = true ∨ closing locked service ref = true := by
  have hMember : ref ∈ service.sessions.map Prod.snd :=
    List.mem_map.mpr ⟨(terminalId, ref), mem_of_get hGet, rfl⟩
  rw [readOutputs_closedMessageSent zstdCompress locked exitCode hDistinct.refs]
  simp [hMember]

/-- A terminal has a marked session after the pass if it had one before, or if the
pass has kept one that ended. -/
theorem Distinct.kept_pass (hDistinct : service.Distinct) (terminalId : Int) :
    (∃ ref, get (readOutputs zstdCompress locked exitCode service).2.sessions terminalId = some ref ∧
      ((readOutputs zstdCompress locked exitCode service).2.session ref).closedMessageSent = true) ↔
      KeepsEnded terminalId service (.readOutputs locked exitCode) ∨
        ∃ ref, get service.sessions terminalId = some ref ∧
          (service.session ref).closedMessageSent = true := by
  constructor
  · rintro ⟨ref, hAfter, hMark⟩
    obtain ⟨hGet, hPersistent⟩ := (hDistinct.get_pass_iff locked exitCode terminalId ref).mp hAfter
    rcases (hDistinct.mark_pass locked exitCode hGet).mp hMark with hBefore | hClosing
    · exact Or.inr ⟨ref, hGet, hBefore⟩
    · obtain ⟨hFree, -, hEnded⟩ := (closing_iff locked ref).mp hClosing
      exact Or.inl ⟨hPersistent hClosing, ref, hGet, hFree, hEnded⟩
  · rintro (⟨hPersistent, ref, hGet, hFree, hEnded⟩ | ⟨ref, hGet, hBefore⟩)
    · refine ⟨ref, (hDistinct.get_pass_iff locked exitCode terminalId ref).mpr
        ⟨hGet, fun _ => hPersistent⟩, (hDistinct.mark_pass locked exitCode hGet).mpr ?_⟩
      cases hMark : (service.session ref).closedMessageSent with
      | true => exact Or.inl rfl
      | false => exact Or.inr ((closing_iff locked ref).mpr ⟨hFree, hMark, hEnded⟩)
    · have hNotClosing : ¬ closing locked service ref = true := by
        intro hClosing
        rw [((closing_iff locked ref).mp hClosing).2.1] at hBefore
        cases hBefore
      exact ⟨ref, (hDistinct.get_pass_iff locked exitCode terminalId ref).mpr
        ⟨hGet, fun hClosing => (hNotClosing hClosing).elim⟩,
        (hDistinct.mark_pass locked exitCode hGet).mpr (Or.inl hBefore)⟩

theorem Tracked.pass
    (hTracked : Tracked zstdCompress start past (Trace.run (step zstdCompress) start past)) :
    Tracked zstdCompress start (past ++ [.readOutputs locked exitCode])
      (readOutputs zstdCompress locked exitCode (Trace.run (step zstdCompress) start past)).2 := by
  have hDistinct := hTracked.distinct
  obtain ⟨hNext, -, -⟩ := readOutputs_settings zstdCompress locked exitCode
    (Trace.run (step zstdCompress) start past)
  refine ⟨hDistinct.after_pass zstdCompress locked exitCode, fun ref hOnce => ?_,
    fun terminalId ref hAfter hMark => ?_, fun terminalId => ?_⟩
  · rw [Trace.once_concat] at hOnce
    rw [hNext]
    rcases hOnce with hOld | hNow
    · obtain ⟨hLess, hMark⟩ := hTracked.reported ref hOld
      refine ⟨hLess, ?_⟩
      rw [readOutputs_closedMessageSent zstdCompress locked exitCode hDistinct.refs, hMark,
        Bool.true_or]
    · obtain ⟨terminalId, hGet, hClosing⟩ := (hDistinct.reports_iff locked exitCode ref).mp hNow
      exact ⟨hDistinct.allocated _ (mem_of_get hGet),
        (hDistinct.mark_pass locked exitCode hGet).mpr (Or.inr hClosing)⟩
  · obtain ⟨hGet, -⟩ := (hDistinct.get_pass_iff locked exitCode terminalId ref).mp hAfter
    rw [Trace.once_concat]
    rcases (hDistinct.mark_pass locked exitCode hGet).mp hMark with hBefore | hClosing
    · exact Or.inl (hTracked.stored terminalId ref hGet hBefore)
    · exact Or.inr ((hDistinct.reports_iff locked exitCode ref).mpr ⟨terminalId, hGet, hClosing⟩)
  · rw [Trace.since_concat, hDistinct.kept_pass locked exitCode, hTracked.kept terminalId]
    exact or_congr_right (and_iff_left id)

end Pass

/-- The flags tell the past of every run. -/
theorem tracked_run (serviceId : String) (isPersistent : Bool) (past : List ServiceEvent) :
    Tracked zstdCompress (new serviceId isPersistent) past
      (Trace.run (step zstdCompress) (new serviceId isPersistent) past) := by
  induction past using List.reverseRecOn with
  | nil => exact tracked_new serviceId isPersistent
  | append_singleton past event ih =>
      rw [Trace.run_append]
      cases event with
      | act action => exact ih.act action
      | readOutputs locked exitCode => exact ih.pass locked exitCode

end Tracked

/-- A step is answered with a live session just if it opens no terminal whose ended
session was kept. -/
theorem opensLive_iff (serviceId : String) (isPersistent : Bool) (past : List ServiceEvent)
    (event : ServiceEvent) :
    OpensLive zstdCompress (new serviceId isPersistent) past event ↔
      OpensNoneKept zstdCompress (new serviceId isPersistent) past event := by
  have hTracked : Tracked zstdCompress (new serviceId isPersistent) past _ :=
    tracked_run serviceId isPersistent past
  refine forall_congr' fun helper => forall_congr' fun spawned => forall_congr' fun terminalId =>
    forall_congr' fun rows => forall_congr' fun cols => forall_congr' fun _ => ?_
  rw [hTracked.kept terminalId]
  generalize hService : Trace.run (step zstdCompress) (new serviceId isPersistent) past = service
  rw [hService] at hTracked
  cases hGet : get service.sessions terminalId with
  | some ref =>
      have hAfter : get (service.handleOpen helper spawned terminalId rows cols).2.sessions
          terminalId = some ref := by
        rw [handleOpen_of_some hGet]
        exact hGet
      obtain ⟨message, pid, answered, others, hAnswer⟩ : ∃ message pid answered others,
          (service.handleOpen helper spawned terminalId rows cols).1 =
            .ok (.opened terminalId true message pid answered others) := by
        unfold handleOpen
        rw [hGet]
        exact ⟨_, _, _, _, rfl⟩
      constructor
      · rintro hLive ⟨other, hOther, hMark⟩
        obtain rfl := Option.some.inj hOther
        exact hLive message pid answered others hAnswer ref hAfter
          (hTracked.stored terminalId ref hGet hMark)
      · intro hFresh _ _ _ _ _ other hOther hOnce
        rw [hAfter] at hOther
        obtain rfl := Option.some.inj hOther
        exact hFresh ⟨ref, rfl, (hTracked.reported ref hOnce).2⟩
  | none =>
      refine ⟨fun _ => by simp, fun _ message pid answered others hAnswer ref hAfter hOnce => ?_⟩
      unfold handleOpen at hAnswer hAfter
      rw [hGet] at hAnswer hAfter
      cases spawned with
      | error error => cases hAnswer
      | ok pid =>
          -- The session is one that was not there before.
          have hNew : ref = service.next := by
            dsimp only at hAfter
            rw [get_concat, hGet, Option.none_or, if_pos rfl] at hAfter
            exact (Option.some.inj hAfter).symm
          have hLess := (hTracked.reported ref hOnce).1
          rw [hNew] at hLess
          exact Nat.lt_irrefl _ hLess

/-- Every open that is answered with success finds a session that was not reported
closed, in just those runs in which no terminal is opened after a pass over the
persistent service has kept its ended session, unless it was closed in between. -/
theorem opened_sessions_live_iff (serviceId : String) (isPersistent : Bool)
    (events : List ServiceEvent) :
    Trace.Along (OpensLive zstdCompress (new serviceId isPersistent)) events ↔
      Trace.Along (OpensNoneKept zstdCompress (new serviceId isPersistent)) events := by
  refine forall_congr' fun past => forall_congr' fun event => forall_congr' fun rest =>
    forall_congr' fun _ => ?_
  exact opensLive_iff zstdCompress serviceId isPersistent past event

/-- The shell of terminal 1 ends in a persistent service, a pass reports it closed,
and the terminal is opened again. -/
def reopenAfterExit : List ServiceEvent :=
  [.act (.openTerminal false (.ok 7) 1 24 80), .act (.readerEnds 0),
    .readOutputs (fun _ => false) (fun _ => none), .act (.openTerminal false (.ok 8) 1 24 80)]

/-- The answer is success, for the session that was reported closed. -/
theorem ended_session_reopened :
    ¬ Trace.Along (OpensLive (fun _ => none) (new "ts" true)) reopenAfterExit ∧
      ((Trace.run (step fun _ => none) (new "ts" true) (reopenAfterExit.take 3)).handleOpen
        false (.ok 8) 1 24 80).1 =
          .ok (.opened 1 true "Reconnected to existing terminal" 7 "ts" []) := by
  have hAnswer : ((Trace.run (step fun _ => none) (new "ts" true)
      (reopenAfterExit.take 3)).handleOpen false (.ok 8) 1 24 80).1 =
        .ok (.opened 1 true "Reconnected to existing terminal" 7 "ts" []) := by
    rfl
  refine ⟨fun hAlong => ?_, hAnswer⟩
  have hLive := hAlong (reopenAfterExit.take 3) (.act (.openTerminal false (.ok 8) 1 24 80)) [] rfl
    false (.ok 8) 1 24 80 rfl _ _ _ _ hAnswer 0 (by decide)
  apply hLive
  exact Or.inr (Or.inr (Or.inl ⟨1, 0, by decide, by decide⟩))

end TerminalService

end HibtDesk.Terminal
