import HibtDesk.Service.Subscribers

/-! The snapshot that a service sends to those who wait, before they take part. The lock is
taken for each step on its own, so connections come and go between any two of them. -/
namespace HibtDesk.Service

/-- What has happened: callbacks are numbered as they are run, with the messages each has sent
and the way it has ended. Of a connection it is kept which is the first callback that ends after
it has subscribed, whether that one had sent something before, and what it has been sent by
which callback since. -/
structure History where
  callback : Nat
  sent : Nat → List Message
  ended : Nat → Option Bool
  joined : Int → Nat
  late : Int → Bool
  received : Int → List (Nat × Message)

/-- A service, with whether its thread is in a snapshot callback. -/
structure State (T : Type*) where
  inner : ServiceInner T
  running : Bool
  history : History

/-- Whom a message of the service is for. -/
inductive Recipients where
  | shared
  | only (id : Int)
  | others (id : Int)
  | without (sub : Int)

inductive Event where
  | onSubscribe (sub : ConnInner)
  | onUnsubscribe (id : Int)
  /-- `ServiceTmpl::snapshot`, up to the callback. -/
  | snapshot
  /-- `ServiceSwap::send`. -/
  | swapSend (msg : Message)
  /-- The callback returns, and its `ServiceSwap` is dropped. -/
  | swapDrop (ok : Bool)
  | send (msg : Message) (recipients : Recipients)

namespace History
variable (history : History)

/-- The messages that a connection has been sent by one callback. -/
def got (id : Int) (callback : Nat) : List Message :=
  (history.received id).filterMap fun (number, msg) => if number = callback then some msg else none

/-- A new subscription. -/
def join (running : Bool) (id : Int) : History :=
  { history with
    joined := fun other =>
      if other = id then (if running then history.callback else history.callback + 1)
      else history.joined other
    late := fun other =>
      if other = id then running && !(history.sent history.callback).isEmpty else history.late other
    received := fun other => if other = id then [] else history.received other }

/-- A message of the callback under way to those who wait. -/
def send (waiting : Int → Bool) (msg : Message) : History :=
  { history with
    sent := fun n => if n = history.callback then history.sent n ++ [msg] else history.sent n
    received := fun id =>
      if waiting id then history.received id ++ [(history.callback, msg)] else history.received id }

def finish (ok : Bool) : History :=
  { history with ended := fun n => if n = history.callback then some ok else history.ended n }

/-- Since it has subscribed, the connection has been sent every message of a callback that has
ended as it should. -/
def Served (endings : Bool → Prop) (id : Int) : Prop :=
  ∃ n ok, history.joined id ≤ n ∧ history.ended n = some ok ∧ endings ok ∧
    history.got id n = history.sent n

theorem got_join (running : Bool) {id other : Int} (hOther : other ≠ id) (n : Nat) :
    (history.join running id).got other n = history.got other n := by
  have hReceived : (history.join running id).received other = history.received other := if_neg hOther
  unfold got
  rw [hReceived]

end History

namespace State
variable {T : Type*} [Subscriber T]

def start : State T where
  inner := .new true
  running := false
  history :=
    { callback := 0, sent := fun _ => [], ended := fun _ => none, joined := fun _ => 0
      late := fun _ => false, received := fun _ => [] }

variable (s : State T)

/-- What the service sends, and what has gone out to which connection. -/
def broadcast (msg : Message) : Recipients → ServiceInner T × List (Int × Message)
  | .shared => s.inner.sendShared msg
  | .only id => s.inner.sendTo msg id
  | .others id => s.inner.sendToOthers msg id
  | .without sub => s.inner.sendWithout msg sub

def step (s : State T) : Event → State T
  | .onSubscribe sub =>
      { s with
        inner := s.inner.onSubscribe sub
        history := if s.inner.isSubed sub.id then s.history else s.history.join s.running sub.id }
  | .onUnsubscribe id => { s with inner := s.inner.onUnsubscribe id }
  | .snapshot =>
      if !s.running && !s.inner.newSubscribes.entries.isEmpty then
        { s with running := true, history := { s.history with callback := s.history.callback + 1 } }
      else s
  | .swapSend msg =>
      if s.running then
        { s with
          inner := (s.inner.sendNewSubscribes msg).1
          history := s.history.send s.inner.newSubscribes.contains msg }
      else s
  | .swapDrop ok =>
      if s.running then
        { inner := s.inner.swapNewSubscribes, running := false, history := s.history.finish ok }
      else s
  | .send msg recipients => { s with inner := (s.broadcast msg recipients).1 }

end State

/-- A message of the service goes out to the connection. -/
def State.Reaches {T : Type*} [Subscriber T] (s : State T) (id : Int) : Event → Prop
  | .send msg recipients => ∃ out, (id, out) ∈ (s.broadcast msg recipients).2
  | _ => False

/-- Only who has got a whole snapshot is sent something by the service. -/
def SnapshotFirst {T : Type*} [Subscriber T] (s : State T) (event : Event) : Prop :=
  ∀ id, s.Reaches id event → s.history.Served (· = true) id

/-- Of those who have not come in the middle of a snapshot, only who has got what there was of
one, well ended or not, is sent something by the service. -/
def CallbackFirst {T : Type*} [Subscriber T] (s : State T) (event : Event) : Prop :=
  ∀ id, s.Reaches id event → s.history.late id = false → s.history.Served (fun _ => True) id

/-- Who takes part has been served, who waits has got all there is so far. -/
structure Inv {T : Type*} [Subscriber T] (s : State T) : Prop where
  filed : s.inner.Filed
  need : s.inner.needSnapshot = true
  served : ∀ id, s.inner.subscribes.contains id = true → s.history.late id = false →
    s.history.Served (fun _ => True) id
  waiting : s.running = true → ∀ id, s.inner.newSubscribes.contains id = true →
    s.history.late id = false → s.history.joined id ≤ s.history.callback ∧
      s.history.got id s.history.callback = s.history.sent s.history.callback
  joined : ∀ id, s.inner.newSubscribes.contains id = true → s.history.late id = false →
    s.history.joined id ≤ s.history.callback + 1
  received : ∀ id entry, entry ∈ s.history.received id → entry.1 ≤ s.history.callback
  unsent : ∀ n, s.history.callback < n → s.history.sent n = []
  ended : ∀ n ok, s.history.ended n = some ok → n ≤ s.history.callback
  underWay : s.running = true → s.history.ended s.history.callback = none

section Inv
variable {T : Type*} [Subscriber T] {s : State T}

theorem inv_start : Inv (State.start : State T) := by
  refine ⟨filed_new true, rfl, fun id hMem => ?_, fun hRunning => ?_, fun id hMem => ?_,
    fun id entry hMem => ?_, fun _ _ => rfl, fun n ok hEnded => ?_, fun _ => rfl⟩
  · cases hMem
  · cases hRunning
  · cases hMem
  · cases hMem
  · cases hEnded

theorem broadcast_eq (s : State T) (msg : Message) (recipients : Recipients) :
    ∃ picks, s.broadcast msg recipients = s.inner.sendSubscribes picks msg := by
  cases recipients with
  | shared => exact ⟨fun _ _ => true, rfl⟩
  | only id => exact ⟨fun sid _ => sid == id, rfl⟩
  | others id => exact ⟨fun sid _ => sid != id, rfl⟩
  | without sub => exact ⟨fun _ s => sub != Subscriber.id s, rfl⟩

/-- Only who takes part is reached. -/
theorem Inv.reaches (h : Inv s) {id : Int} {event : Event} (hReach : s.Reaches id event) :
    s.inner.subscribes.contains id = true := by
  cases event with
  | send msg recipients =>
      obtain ⟨out, hOut⟩ := hReach
      obtain ⟨picks, hPicks⟩ := broadcast_eq s msg recipients
      rw [hPicks] at hOut
      obtain ⟨sid, sub, hSub, rfl⟩ := mem_sendWhere hOut
      rw [h.filed.own sid sub hSub]
      exact Table.contains_iff.mpr ⟨sub, hSub⟩
  | _ => exact hReach.elim

theorem onSubscribe_cases {inner : ServiceInner T} (hNeed : inner.needSnapshot = true)
    (sub : ConnInner) :
    (inner.onSubscribe sub).subscribes = inner.subscribes ∧
      (inner.onSubscribe sub).needSnapshot = true ∧
      ∀ id, (inner.onSubscribe sub).newSubscribes.contains id = true →
        inner.newSubscribes.contains id = true ∨ id = sub.id ∧ inner.subscribes.contains sub.id = false := by
  unfold ServiceInner.onSubscribe
  split
  · exact ⟨rfl, hNeed, fun id hMem => .inl hMem⟩
  · rename_i hFresh
    refine ⟨rfl, hNeed, fun id hMem => ?_⟩
    by_cases hId : id = sub.id
    · exact .inr ⟨hId, Bool.eq_false_of_not_eq_true hFresh⟩
    · refine .inl ?_
      simpa [Table.contains, hId] using hMem

theorem Inv.onSubscribe (h : Inv s) (sub : ConnInner) : Inv (s.step (.onSubscribe sub)) := by
  obtain ⟨hOld, hNeed, hNew⟩ := onSubscribe_cases h.need sub
  have hFiled := onSubscribe_filed h.filed sub
  cases hSubed : s.inner.isSubed sub.id with
  | true =>
      have hStep : s.step (.onSubscribe sub) = { s with inner := s.inner.onSubscribe sub } := by
        simp [State.step, hSubed]
      have hWaits : ∀ id, (s.inner.onSubscribe sub).newSubscribes.contains id = true →
          s.inner.newSubscribes.contains id = true := by
        intro id hMem
        rcases hNew id hMem with hWaits | ⟨hId, hNot⟩
        · exact hWaits
        · subst hId
          unfold ServiceInner.isSubed at hSubed
          rwa [hNot, Bool.false_or] at hSubed
      rw [hStep]
      exact ⟨hFiled, hNeed, fun id hMem => h.served id (hOld ▸ hMem),
        fun hRunning id hMem => h.waiting hRunning id (hWaits id hMem),
        fun id hMem => h.joined id (hWaits id hMem), h.received, h.unsent, h.ended, h.underWay⟩
  | false =>
      have hStep : s.step (.onSubscribe sub) =
          { s with inner := s.inner.onSubscribe sub, history := s.history.join s.running sub.id } := by
        simp [State.step, hSubed]
      obtain ⟨hNotOld, hNotNew⟩ := isSubed_eq_false.mp hSubed
      have hWaits : ∀ id ≠ sub.id, (s.inner.onSubscribe sub).newSubscribes.contains id = true →
          s.inner.newSubscribes.contains id = true := by
        intro id hId hMem
        rcases hNew id hMem with hWaits | ⟨hSame, -⟩
        · exact hWaits
        · exact absurd hSame hId
      rw [hStep]
      -- the history of the others is as it was
      refine ⟨hFiled, hNeed, fun id hMem hLate => ?_, fun hRunning id hMem hLate => ?_,
        fun id hMem hLate => ?_, fun id entry hEntry => ?_, h.unsent, h.ended, h.underWay⟩
      · have hBefore : s.inner.subscribes.contains id = true := hOld ▸ hMem
        have hOther : id ≠ sub.id := by
          rintro rfl
          rw [Table.contains, hNotOld] at hBefore
          cases hBefore
        simp only [History.join, if_neg hOther] at hLate
        obtain ⟨n, ok, hJoined, hEnded, -, hGot⟩ := h.served id hBefore hLate
        refine ⟨n, ok, ?_, hEnded, trivial, ?_⟩
        · simpa only [History.join, if_neg hOther] using hJoined
        · exact (History.got_join _ _ hOther _).trans hGot
      · by_cases hId : id = sub.id
        · subst hId
          have hRunning : s.running = true := hRunning
          have hNone : s.history.sent s.history.callback = [] := by
            simpa [History.join, hRunning] using hLate
          simp [History.join, History.got, hRunning, hNone]
        · simp only [History.join, if_neg hId] at hLate
          obtain ⟨hJoined, hSame⟩ := h.waiting hRunning id (hWaits id hId hMem) hLate
          refine ⟨?_, ?_⟩
          · simpa only [History.join, if_neg hId] using hJoined
          · exact (History.got_join _ _ hId _).trans hSame
      · by_cases hId : id = sub.id
        · subst hId
          simp only [History.join, if_true]
          split <;> omega
        · simp only [History.join, if_neg hId] at hLate ⊢
          exact h.joined id (hWaits id hId hMem) hLate
      · simp only [History.join] at hEntry
        split at hEntry
        · exact absurd hEntry List.not_mem_nil
        · exact h.received id entry hEntry

theorem Inv.onUnsubscribe (h : Inv s) (gone : Int) : Inv (s.step (.onUnsubscribe gone)) := by
  have hRemove : ∀ {table : Table Int T} {id : Int},
      (table.remove gone).contains id = true → table.contains id = true := by
    intro table id hMem
    by_cases hId : id = gone
    · simp [Table.contains, hId] at hMem
    · simpa [Table.contains, hId] using hMem
  have hOld : ∀ id, (s.inner.onUnsubscribe gone).subscribes.contains id = true →
      s.inner.subscribes.contains id = true := by
    intro id hMem
    unfold ServiceInner.onUnsubscribe at hMem
    split at hMem
    · exact hRemove hMem
    · exact hMem
  have hNew : ∀ id, (s.inner.onUnsubscribe gone).newSubscribes.contains id = true →
      s.inner.newSubscribes.contains id = true := by
    intro id hMem
    unfold ServiceInner.onUnsubscribe at hMem
    split at hMem
    · exact hMem
    · exact hRemove hMem
  have hNeed : (s.inner.onUnsubscribe gone).needSnapshot = true := by
    unfold ServiceInner.onUnsubscribe
    split
    · exact h.need
    · exact h.need
  exact ⟨onUnsubscribe_filed h.filed gone, hNeed, fun id hMem => h.served id (hOld id hMem),
    fun hRunning id hMem => h.waiting hRunning id (hNew id hMem),
    fun id hMem => h.joined id (hNew id hMem), h.received, h.unsent, h.ended, h.underWay⟩

/-- The callback that begins has sent nothing to anyone. -/
theorem Inv.snapshot (h : Inv s) : Inv (s.step .snapshot) := by
  by_cases hBegins : (!s.running && !s.inner.newSubscribes.entries.isEmpty) = true
  · have hStep : s.step .snapshot =
        { s with
          running := true
          history := { s.history with callback := s.history.callback + 1 } } := if_pos hBegins
    have hNobody : ∀ id, s.history.got id (s.history.callback + 1) = [] := by
      intro id
      refine List.filterMap_eq_nil_iff.mpr fun entry hEntry => ?_
      have := h.received id entry hEntry
      exact if_neg (by omega)
    rw [hStep]
    refine ⟨h.filed, h.need, h.served, fun _ id hMem hLate => ⟨h.joined id hMem hLate, ?_⟩,
      fun id hMem hLate => (h.joined id hMem hLate).trans (Nat.le_succ _), fun id entry hEntry => ?_,
      fun n hLater => h.unsent n (Nat.lt_of_succ_lt hLater), fun n ok hEnded => ?_, fun _ => ?_⟩
    · exact (hNobody id).trans (h.unsent _ (Nat.lt_succ_self _)).symm
    · exact (h.received id entry hEntry).trans (Nat.le_succ _)
    · exact (h.ended n ok hEnded).trans (Nat.le_succ _)
    · refine Option.eq_none_iff_forall_ne_some.mpr fun ok hEnded => ?_
      exact absurd (h.ended _ ok hEnded) (Nat.not_succ_le_self _)
  · have hStep : s.step .snapshot = s := if_neg hBegins
    rw [hStep]
    exact h

theorem Inv.swapSend (h : Inv s) (msg : Message) : Inv (s.step (.swapSend msg)) := by
  by_cases hRunning : s.running = true
  · have hStep : s.step (.swapSend msg) =
        { s with
          inner := (s.inner.sendNewSubscribes msg).1
          history := s.history.send s.inner.newSubscribes.contains msg } := if_pos hRunning
    have hNew : ∀ id, (s.inner.sendNewSubscribes msg).1.newSubscribes.contains id =
        s.inner.newSubscribes.contains id :=
      fun id => (congrArg Option.isSome (lookup_sendWhere ..)).trans Option.isSome_map
    have hGot : ∀ id n, (s.history.send s.inner.newSubscribes.contains msg).got id n =
        s.history.got id n ++
          if n = s.history.callback ∧ s.inner.newSubscribes.contains id = true then [msg] else [] := by
      intro id n
      unfold History.got History.send
      dsimp only
      cases hWait : s.inner.newSubscribes.contains id with
      | true =>
          rw [if_pos rfl, List.filterMap_append]
          by_cases hN : n = s.history.callback
          · simp [hN]
          · simp [hN, Ne.symm hN]
      | false => simp
    rw [hStep]
    refine ⟨sendNewSubscribes_filed h.filed msg, h.need, fun id hMem hLate => ?_,
      fun hRun id hMem hLate => ?_, fun id hMem hLate => ?_, fun id entry hEntry => ?_,
      fun n hLater => ?_, h.ended, h.underWay⟩
    · obtain ⟨n, ok, hJoined, hEnded, -, hSame⟩ := h.served id hMem hLate
      -- a callback that has ended sends nothing more
      have hOther : n ≠ s.history.callback := by
        rintro rfl
        rw [h.underWay hRunning] at hEnded
        cases hEnded
      refine ⟨n, ok, hJoined, hEnded, trivial, ?_⟩
      rw [hGot, if_neg fun hBoth => hOther hBoth.1, List.append_nil, hSame]
      exact (if_neg hOther).symm
    · have hWaits := hNew id ▸ hMem
      obtain ⟨hJoined, hSame⟩ := h.waiting hRunning id hWaits hLate
      refine ⟨hJoined, ?_⟩
      change (s.history.send s.inner.newSubscribes.contains msg).got id s.history.callback = _
      rw [hGot, if_pos ⟨rfl, hWaits⟩, hSame]
      exact (if_pos rfl).symm
    · exact h.joined id (hNew id ▸ hMem) hLate
    · simp only [History.send] at hEntry
      split at hEntry
      · rcases List.mem_append.mp hEntry with hBefore | hLast
        · exact h.received id entry hBefore
        · rw [List.mem_singleton.mp hLast]
          exact Nat.le_refl _
      · exact h.received id entry hEntry
    · have hOther : n ≠ s.history.callback := Nat.ne_of_gt hLater
      exact (if_neg hOther).trans (h.unsent n hLater)
  · have hStep : s.step (.swapSend msg) = s := if_neg hRunning
    rw [hStep]
    exact h

/-- Who has waited has got everything, however the callback has ended. -/
theorem Inv.swapDrop (h : Inv s) (ok : Bool) : Inv (s.step (.swapDrop ok)) := by
  by_cases hRunning : s.running = true
  · have hStep : s.step (.swapDrop ok) =
        { inner := s.inner.swapNewSubscribes, running := false, history := s.history.finish ok } :=
      if_pos hRunning
    rw [hStep]
    refine ⟨swapNewSubscribes_filed h.filed, h.need, fun id hMem hLate => ?_, fun hRun => ?_,
      fun id hMem => ?_, h.received, h.unsent, fun n ending hEnded => ?_, fun hRun => ?_⟩
    · have hSwap := h.filed.lookup_swap id
      cases hNew : s.inner.newSubscribes.lookup id with
      | some sub =>
          obtain ⟨hJoined, hSame⟩ :=
            h.waiting hRunning id (Table.contains_iff.mpr ⟨sub, hNew⟩) hLate
          exact ⟨s.history.callback, ok, hJoined, if_pos rfl, trivial, hSame⟩
      | none =>
          have hOld : s.inner.subscribes.contains id = true := by
            rw [hNew, Option.none_or] at hSwap
            unfold Table.contains at hMem ⊢
            rwa [← hSwap]
          obtain ⟨n, ending, hJoined, hEnded, -, hSame⟩ := h.served id hOld hLate
          have hOther : n ≠ s.history.callback := by
            rintro rfl
            rw [h.underWay hRunning] at hEnded
            cases hEnded
          exact ⟨n, ending, hJoined, (if_neg hOther).trans hEnded, trivial, hSame⟩
    · cases hRun
    · cases hMem
    · by_cases hThis : n = s.history.callback
      · exact Nat.le_of_eq hThis
      · exact h.ended n ending ((if_neg hThis).symm.trans hEnded)
    · cases hRun
  · have hStep : s.step (.swapDrop ok) = s := if_neg hRunning
    rw [hStep]
    exact h

theorem Inv.send (h : Inv s) (msg : Message) (recipients : Recipients) :
    Inv (s.step (.send msg recipients)) := by
  obtain ⟨picks, hPicks⟩ := broadcast_eq s msg recipients
  have hStep : s.step (.send msg recipients) =
      { s with inner := (s.inner.sendSubscribes picks msg).1 } := by
    rw [← hPicks]
    rfl
  have hOld : ∀ id, (s.inner.sendSubscribes picks msg).1.subscribes.contains id =
      s.inner.subscribes.contains id :=
    fun id => (congrArg Option.isSome (lookup_sendWhere ..)).trans Option.isSome_map
  rw [hStep]
  exact ⟨sendSubscribes_filed h.filed picks msg, h.need, fun id hMem => h.served id (hOld id ▸ hMem),
    h.waiting, h.joined, h.received, h.unsent, h.ended, h.underWay⟩

theorem Inv.step (h : Inv s) (event : Event) : Inv (s.step event) := by
  cases event with
  | onSubscribe sub => exact h.onSubscribe sub
  | onUnsubscribe id => exact h.onUnsubscribe id
  | snapshot => exact h.snapshot
  | swapSend msg => exact h.swapSend msg
  | swapDrop ok => exact h.swapDrop ok
  | send msg recipients => exact h.send msg recipients

end Inv

/-- In every interleaving, who has not come in the middle of a snapshot is sent what there is of
one before anything else. -/
theorem callback_before_broadcast {T : Type*} [Subscriber T] (events : List Event) :
    Trace.Always State.step CallbackFirst (State.start : State T) events := by
  refine Trace.always_of_invariant _ Inv (fun _ event _ h => h.step event) ?_ inv_start
    (Trace.always_of_forall _ (fun _ _ => trivial) _ events)
  exact fun s event _ h id hReach => h.served id (h.reaches hReach)

def connection (id : Int) : ConnInner where
  id := id
  tx := true
  txVideo := true

/-- A callback fails on purpose when there is a new subscriber beside an earlier one. The new one
gets the next message though nothing was sent to it before. -/
theorem failed_callback_lets_in : ¬ Trace.Always State.step SnapshotFirst (State.start : State ConnInner)
    [.onSubscribe (connection 1), .snapshot, .swapDrop true, .onSubscribe (connection 2), .snapshot,
      .swapDrop false, .send (.videoFrame []) .shared] := by
  rintro ⟨-, -, -, -, -, -, hServed, -⟩
  obtain ⟨n, ok, hJoined, hEnded, rfl, -⟩ := hServed 2 ⟨.videoFrame [], by decide⟩
  have hNumber : ∀ n, (Trace.run State.step (State.start : State ConnInner)
      [.onSubscribe (connection 1), .snapshot, .swapDrop true, .onSubscribe (connection 2), .snapshot,
        .swapDrop false]).history.ended n =
        if n = 2 then some false else if n = 1 then some true else none := fun n => rfl
  have hJoined : 2 ≤ n := hJoined
  have hFailed := (hNumber n).symm.trans hEnded
  split at hFailed
  · cases hFailed
  · rw [if_neg (by omega)] at hFailed
    cases hFailed

end HibtDesk.Service
