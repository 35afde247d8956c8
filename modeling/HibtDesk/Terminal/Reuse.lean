import HibtDesk.Library.Trace
import HibtDesk.Terminal.PassSpec

/-! A pass of `read_outputs` with the connection at work in between. The pass notes
the ids of the terminals whose session it found ended, and cleans up by id later,
when another session may go by that id. -/
namespace HibtDesk.Terminal

open TerminalService (get remove ended)

/-- A service, with the pass of its thread if one is under way. -/
structure Serving where
  service : TerminalService
  pass : Option Pass

inductive ServingEvent where
  | act (action : Action)
  | collect
  /-- Read one of the sessions collected, in any order. -/
  | readSession (place : Nat) (locked : Bool)
  | beginCleanup
  | cleanTerminal (exitCode : Option Int)

namespace Serving
variable (zstdCompress : Bytes → Option Bytes)

def start (serviceId : String) (isPersistent : Bool) : Serving :=
  { service := .new serviceId isPersistent, pass := none }

/-- The collected session that is read next. -/
def reading (serving : Serving) (place : Nat) : Option (Pass × Int × SessionRef) :=
  serving.pass.bind fun pass =>
    if pass.sessions.isNone then pass.todo[place]?.map fun entry => (pass, entry) else none

/-- The terminal that is cleaned up next. -/
def cleaning (serving : Serving) : Option (Pass × Int) :=
  serving.pass.bind fun pass =>
    if pass.sessions.isSome then pass.closedTerminals.head?.map fun terminalId => (pass, terminalId)
    else none

def step (serving : Serving) : ServingEvent → Serving
  | .act action => { serving with service := serving.service.act action }
  | .collect =>
      match serving.pass with
      | none => { serving with pass := some serving.service.collect }
      | some _ => serving
  | .readSession place locked =>
      match serving.reading place with
      | none => serving
      | some (pass, entry) =>
          let (service, pass) :=
            TerminalService.readSession zstdCompress locked entry serving.service pass
          { service := service, pass := some { pass with todo := pass.todo.eraseIdx place } }
  | .beginCleanup =>
      match serving.pass with
      | none => serving
      | some pass =>
          if !pass.todo.isEmpty || pass.sessions.isSome then serving
          else if pass.closedTerminals.isEmpty then { serving with pass := none }
          else { serving with pass := some (serving.service.beginCleanup pass) }
  | .cleanTerminal exitCode =>
      match serving.cleaning with
      | none => serving
      | some (pass, terminalId) =>
          let (service, pass) :=
            TerminalService.cleanTerminal exitCode terminalId serving.service pass
          let closedTerminals := pass.closedTerminals.tail
          { service := service
            pass :=
              if closedTerminals.isEmpty then none
              else some { pass with closedTerminals := closedTerminals } }

/-- Only what has ended is cleaned up: a terminal that is reported closed has no
session but one whose reader has ended, and the steps of the pass leave every
other session in the map. -/
def OnlyEnded (serving : Serving) : ServingEvent → Prop
  | .act _ => True
  | event =>
      (∀ pass terminalId exitCode, serving.cleaning = some (pass, terminalId) →
        event = .cleanTerminal exitCode → ∀ ref, get serving.service.sessions terminalId = some ref →
          ended (serving.service.session ref) = true) ∧
      ∀ terminalId ref, get serving.service.sessions terminalId = some ref →
        ended (serving.service.session ref) = false →
          get (serving.step zstdCompress event).service.sessions terminalId = some ref

/-- The step puts no session in the place of one that has been found ended, and
finds none ended that another session has replaced. -/
def unreplaced (serving : Serving) : ServingEvent → Bool
  | .act (.openTerminal _ _ terminalId _ _) =>
      match serving.pass with
      | none => true
      | some pass =>
          (get serving.service.sessions terminalId).isSome ||
            !pass.closedTerminals.contains terminalId
  | .readSession place locked =>
      match serving.reading place with
      | none => true
      | some (_, terminalId, ref) =>
          locked || !TerminalService.shouldSendClosed (serving.service.session ref) ||
            get serving.service.sessions terminalId == none ||
            get serving.service.sessions terminalId == some ref
  | _ => true

/-- The terminals noted have no session but one whose reader has ended. -/
def Marked (service : TerminalService) (terminals : List Int) : Prop :=
  ∀ terminalId ∈ terminals, ∀ ref, get service.sessions terminalId = some ref →
    ended (service.session ref) = true

/-- What every pass can rely on for the terminals it has noted. -/
structure Sparing (serving : Serving) : Prop where
  allocated : serving.service.Allocated
  marked : ∀ pass, serving.pass = some pass → Marked serving.service pass.closedTerminals

theorem Marked.act {service : TerminalService} {terminals : List Int}
    (hMarked : Marked service terminals) (hAllocated : service.Allocated) {action : Action}
    (hNew : ∀ helper spawned terminalId rows cols,
      action = .openTerminal helper spawned terminalId rows cols →
        get service.sessions terminalId = none → terminalId ∉ terminals) :
    Marked (service.act action) terminals := by
  intro other hOther ref hGet
  rcases TerminalService.act_cases service action with ⟨hSessions, -, hKept⟩ |
    ⟨killed, terminalId, -, hSessions, -, hKept⟩ |
    ⟨helper, pid, terminalId, rows, cols, rfl, hNone, hSessions, -, hSession⟩
  · rw [hSessions] at hGet
    exact (hKept ref).ended (hMarked other hOther ref hGet)
  · rw [hSessions] at hGet
    exact (hKept ref).ended (hMarked other hOther ref (TerminalService.get_of_get_remove hGet))
  · have hNotThis : other ≠ terminalId := by
      rintro rfl
      exact hNew helper (.ok pid) other rows cols rfl hNone hOther
    rw [hSessions, TerminalService.get_concat, if_neg hNotThis, Option.or_none] at hGet
    have hOld : ref ≠ service.next := Nat.ne_of_lt (hAllocated other ref hGet)
    rw [hSession, Function.update_of_ne hOld]
    exact hMarked other hOther ref hGet

section Run
variable {serving : Serving}

theorem pass_of_reading {place : Nat} {pass : Pass} {entry : Int × SessionRef}
    (hReading : serving.reading place = some (pass, entry)) : serving.pass = some pass := by
  obtain ⟨found, hPass, hEntry⟩ := Option.bind_eq_some_iff.mp hReading
  split at hEntry
  · obtain ⟨there, -, hSame⟩ := Option.map_eq_some_iff.mp hEntry
    rw [hPass, (Prod.mk.inj hSame).1]
  · cases hEntry

theorem pass_of_cleaning {pass : Pass} {terminalId : Int}
    (hCleaning : serving.cleaning = some (pass, terminalId)) :
    serving.pass = some pass ∧ terminalId ∈ pass.closedTerminals := by
  obtain ⟨found, hPass, hHead⟩ := Option.bind_eq_some_iff.mp hCleaning
  split at hHead
  · obtain ⟨there, hFirst, hSame⟩ := Option.map_eq_some_iff.mp hHead
    obtain ⟨rfl, rfl⟩ := Prod.mk.inj hSame
    exact ⟨hPass, List.mem_of_mem_head? hFirst⟩
  · cases hHead

theorem sparing_start (serviceId : String) (isPersistent : Bool) :
    (start serviceId isPersistent).Sparing := by
  refine ⟨fun terminalId ref hGet => ?_, fun pass hPass => ?_⟩
  · cases hGet
  · cases hPass

theorem Sparing.act (hSparing : serving.Sparing) {action : Action}
    (hUnreplaced : serving.unreplaced (.act action) = true) :
    (serving.step zstdCompress (.act action)).Sparing := by
  refine ⟨hSparing.allocated.act action, fun pass hPass => ?_⟩
  have hNow : serving.pass = some pass := hPass
  refine (hSparing.marked pass hNow).act hSparing.allocated ?_
  rintro helper spawned terminalId rows cols rfl hNone hIn
  simp [unreplaced, hNow, hNone, hIn] at hUnreplaced

theorem Sparing.readSession (hSparing : serving.Sparing) {place : Nat} {locked : Bool}
    (hUnreplaced : serving.unreplaced (.readSession place locked) = true) :
    (serving.step zstdCompress (.readSession place locked)).Sparing := by
  rw [Serving.step]
  cases hReading : serving.reading place with
  | none => exact hSparing
  | some found =>
      obtain ⟨pass, entry⟩ := found
      obtain ⟨hSessions, hNext, hEnded⟩ :=
        TerminalService.readSession_frame zstdCompress serving.service locked entry pass
      refine ⟨fun terminalId ref hGet => ?_, fun after hAfter => ?_⟩
      · rw [hSessions] at hGet
        rw [hNext]
        exact hSparing.allocated terminalId ref hGet
      · intro terminalId hIn ref hGet
        obtain rfl := Option.some.inj hAfter
        rw [hSessions] at hGet
        rw [hEnded]
        rw [TerminalService.readSession_closed, List.mem_append] at hIn
        rcases hIn with hOld | hNoted
        · exact hSparing.marked pass (pass_of_reading hReading) terminalId hOld ref hGet
        · split at hNoted
          next hClosed =>
            obtain ⟨hFree, hSend⟩ := Bool.and_eq_true_iff.mp hClosed
            obtain rfl : terminalId = entry.1 := by simpa using hNoted
            have hUnlocked : locked = false := by simpa using hFree
            have hThis : ref = entry.2 := by
              simpa [unreplaced, hReading, hGet, hSend, hUnlocked] using hUnreplaced
            rw [hThis]
            exact (Bool.and_eq_true_iff.mp hSend).2
          next => simp at hNoted

theorem Sparing.cleanTerminal (hSparing : serving.Sparing) (exitCode : Option Int) :
    (serving.step zstdCompress (.cleanTerminal exitCode)).Sparing := by
  rw [Serving.step]
  cases hCleaning : serving.cleaning with
  | none => exact hSparing
  | some found =>
      obtain ⟨pass, terminalId⟩ := found
      obtain ⟨hSessions, hNext, hEnded, hClosed⟩ :=
        TerminalService.cleanTerminal_frame serving.service exitCode terminalId pass
      have hBefore : ∀ other ref, get (TerminalService.cleanTerminal exitCode terminalId
          serving.service pass).1.sessions other = some ref →
            get serving.service.sessions other = some ref := by
        intro other ref hGet
        rcases hSessions with hSame | hRemoved
        · rwa [hSame] at hGet
        · rw [hRemoved] at hGet
          exact TerminalService.get_of_get_remove hGet
      refine ⟨fun other ref hGet => ?_, fun after hAfter => ?_⟩
      · rw [hNext]
        exact hSparing.allocated other ref (hBefore other ref hGet)
      · intro other hIn ref hGet
        rw [hEnded]
        dsimp only at hAfter
        split at hAfter
        · cases hAfter
        · obtain rfl := Option.some.inj hAfter
          have hOld : other ∈ pass.closedTerminals := by
            rw [← hClosed]
            exact List.mem_of_mem_tail hIn
          exact hSparing.marked pass (pass_of_cleaning hCleaning).1 other hOld ref
            (hBefore other ref hGet)

theorem Sparing.step (hSparing : serving.Sparing) (event : ServingEvent)
    (hUnreplaced : serving.unreplaced event = true) :
    (serving.step zstdCompress event).Sparing := by
  cases event with
  | act action => exact hSparing.act zstdCompress hUnreplaced
  | readSession place locked => exact hSparing.readSession zstdCompress hUnreplaced
  | cleanTerminal exitCode => exact hSparing.cleanTerminal zstdCompress exitCode
  | collect =>
      rw [Serving.step]
      cases hPass : serving.pass with
      | some pass => exact hSparing
      | none =>
          refine ⟨hSparing.allocated, fun pass hNew => ?_⟩
          obtain rfl := Option.some.inj hNew
          intro terminalId hIn
          cases hIn
  | beginCleanup =>
      rw [Serving.step]
      cases hPass : serving.pass with
      | none => exact hSparing
      | some pass =>
          dsimp only
          split
          · exact hSparing
          · split
            · exact ⟨hSparing.allocated, fun after hAfter => by cases hAfter⟩
            · refine ⟨hSparing.allocated, fun after hAfter => ?_⟩
              obtain rfl := Option.some.inj hAfter
              exact hSparing.marked pass hPass

/-- While the pass can rely on its notes, it harms no session that lives. -/
theorem Sparing.onlyEnded (hSparing : serving.Sparing) (event : ServingEvent) :
    serving.OnlyEnded zstdCompress event := by
  have clean : ∀ pass terminalId exitCode, serving.cleaning = some (pass, terminalId) →
      event = .cleanTerminal exitCode → ∀ ref, get serving.service.sessions terminalId = some ref →
        ended (serving.service.session ref) = true := by
    intro pass terminalId exitCode hCleaning hEvent ref hGet
    obtain ⟨hPass, hIn⟩ := pass_of_cleaning hCleaning
    exact hSparing.marked pass hPass terminalId hIn ref hGet
  cases event with
  | act action => trivial
  | collect =>
      refine ⟨clean, fun terminalId ref hGet _ => ?_⟩
      rw [Serving.step]
      cases serving.pass with
      | none => exact hGet
      | some pass => exact hGet
  | beginCleanup =>
      refine ⟨clean, fun terminalId ref hGet _ => ?_⟩
      rw [Serving.step]
      cases serving.pass with
      | none => exact hGet
      | some pass =>
          dsimp only
          split
          · exact hGet
          · split
            · exact hGet
            · exact hGet
  | readSession place locked =>
      refine ⟨clean, fun terminalId ref hGet _ => ?_⟩
      rw [Serving.step]
      cases serving.reading place with
      | none => exact hGet
      | some found =>
          have hFrame := TerminalService.readSession_frame zstdCompress serving.service locked found.2 found.1
          show get (TerminalService.readSession zstdCompress locked found.2 serving.service
            found.1).1.sessions terminalId = some ref
          rw [hFrame.1]
          exact hGet
  | cleanTerminal exitCode =>
      refine ⟨clean, fun other ref hGet hLives => ?_⟩
      rw [Serving.step]
      cases hCleaning : serving.cleaning with
      | none => exact hGet
      | some found =>
          obtain ⟨pass, terminalId⟩ := found
          show get (TerminalService.cleanTerminal exitCode terminalId serving.service
            pass).1.sessions other = some ref
          rcases (TerminalService.cleanTerminal_frame serving.service exitCode terminalId pass).1 with
            hSame | hRemoved
          · rw [hSame]
            exact hGet
          · have hOther : other ≠ terminalId := by
              rintro rfl
              rw [clean pass other exitCode hCleaning rfl ref hGet] at hLives
              cases hLives
            rw [hRemoved, TerminalService.get_remove_of_ne hOther]
            exact hGet

end Run

/-- In every run in which no session takes the place of one that was found ended
before the cleanup is over, passes remove and report only what has ended. -/
theorem passes_clean_only_ended (serviceId : String) (isPersistent : Bool)
    (events : List ServingEvent)
    (hUnreplaced : Trace.Always (step zstdCompress) (fun serving event =>
      serving.unreplaced event = true) (start serviceId isPersistent) events) :
    Trace.Always (step zstdCompress) (OnlyEnded zstdCompress) (start serviceId isPersistent)
      events :=
  Trace.always_of_invariant (step zstdCompress) Sparing
    (fun _ event hEvent hSparing => hSparing.step zstdCompress event hEvent)
    (fun _ event _ hSparing => hSparing.onlyEnded zstdCompress event)
    (sparing_start serviceId isPersistent) hUnreplaced

/-- Open terminal 1. -/
def openFirst : ServingEvent := .act (.openTerminal false (.ok 7) 1 24 80)

/-- The shell of terminal 1 ends, and the next pass cleans the terminal up. -/
def exitThenPass : List ServingEvent :=
  [openFirst, .act (.readerEnds 0), .collect, .readSession 0 false, .beginCleanup,
    .cleanTerminal none]

theorem exit_cleaned_up :
    Trace.Always (step fun _ => none) (OnlyEnded fun _ => none) (start "ts" false) exitThenPass ∧
      (Trace.run (step fun _ => none) (start "ts" false) exitThenPass).service.sessions = [] := by
  refine ⟨passes_clean_only_ended _ "ts" false exitThenPass ?_, by decide⟩
  exact ⟨by decide, by decide, by decide, by decide, by decide, by decide, trivial⟩

/-- The shell of terminal 1 ends; after the pass has noted it the terminal is closed
and opened again, and the cleanup comes last. -/
def reopenBeforeCleanup : List ServingEvent :=
  [openFirst, .act (.readerEnds 0), .collect, .readSession 0 false, .act (.close (.ok ()) 1),
    openFirst, .beginCleanup, .cleanTerminal none]

/-- The cleanup takes the new session from the map, whose reader is running. -/
theorem successor_taken_down :
    ¬ Trace.Always (step fun _ => none) (OnlyEnded fun _ => none) (start "ts" false)
        reopenBeforeCleanup ∧
      get (Trace.run (step fun _ => none) (start "ts" false)
        (reopenBeforeCleanup.take 7)).service.sessions 1 = some 1 ∧
      ended ((Trace.run (step fun _ => none) (start "ts" false)
        reopenBeforeCleanup).service.session 1) = false ∧
      get (Trace.run (step fun _ => none) (start "ts" false)
        reopenBeforeCleanup).service.sessions 1 = none := by
  refine ⟨fun hAlways => ?_, by decide, by decide, by decide⟩
  obtain ⟨-, -, -, -, -, -, -, ⟨-, hStays⟩, -⟩ := hAlways
  have hThere := hStays 1 1 (by decide) (by decide)
  exact absurd hThere (by decide)

end Serving

end HibtDesk.Terminal
