import HibtDesk.Common.Options
import HibtDesk.Library.Table
import HibtDesk.Library.Trace

/-! Who has subscribed to a service. With snapshots the subscribers wait in a second table until
they are swapped into the first, which is the one that messages are sent to. -/
namespace HibtDesk.Service

/-- A message, as far as subscribers tell messages apart. -/
inductive Message where
  | videoFrame (frame : Bytes)
  | switchDisplay (display : Int)
  | cursorData (id : UInt64) (data : Bytes)
  | cursorId (id : UInt64)
  | other (data : Bytes)
  deriving DecidableEq

/-- A connection, with whether it has a channel for video and one for the rest. -/
structure ConnInner where
  id : Int
  tx : Bool
  txVideo : Bool

/-- Switching the display goes on the channel of the frames, to keep their order. -/
def Message.txByVideo : Message → Bool
  | .videoFrame _ | .switchDisplay _ => true
  | _ => false

/-- What is sent goes out on one of the channels, if it is there. -/
def ConnInner.send (conn : ConnInner) (msg : Message) : List Message :=
  if (if msg.txByVideo then conn.txVideo else conn.tx) then [msg] else []

/-- `Subscriber`, with `From<ConnInner>`. `send` also says what goes out to the connection. -/
class Subscriber (T : Type*) where
  id : T → Int
  send : T → Message → T × List Message
  ofConn : ConnInner → T
  id_ofConn : ∀ conn, id (ofConn conn) = conn.id
  id_send : ∀ s msg, id (send s msg).1 = id s
  length_send : ∀ s msg, (send s msg).2.length ≤ 1

theorem ConnInner.length_send (conn : ConnInner) (msg : Message) : (conn.send msg).length ≤ 1 := by
  unfold ConnInner.send
  generalize (if msg.txByVideo then conn.txVideo else conn.tx) = opened
  cases opened with
  | true => exact Nat.le_refl 1
  | false => exact Nat.zero_le 1

instance : Subscriber ConnInner where
  id := ConnInner.id
  send conn msg := (conn, conn.send msg)
  ofConn conn := conn
  id_ofConn _ := rfl
  id_send _ _ := rfl
  length_send := ConnInner.length_send

/-- A subscriber that keeps the cursors it has been sent, and is sent only their ids again. -/
structure MouseCursorSub where
  inner : ConnInner
  cached : Table UInt64 Message

def MouseCursorSub.send (sub : MouseCursorSub) (msg : Message) : MouseCursorSub × List Message :=
  match msg with
  | .cursorData id data =>
      match sub.cached.lookup id with
      | some msg => (sub, sub.inner.send msg)
      | none =>
          ({ sub with cached := sub.cached.insert id (.cursorId id) }, sub.inner.send (.cursorData id data))
  | msg => (sub, sub.inner.send msg)

theorem MouseCursorSub.send_cases (sub : MouseCursorSub) (msg : Message) :
    (sub.send msg).1.inner = sub.inner ∧ ∃ out, (sub.send msg).2 = sub.inner.send out := by
  cases hMsg : msg with
  | cursorData id data =>
      unfold MouseCursorSub.send
      cases hCached : sub.cached.lookup id with
      | some known => exact ⟨by simp [hCached], known, by simp [hCached]⟩
      | none => exact ⟨by simp [hCached], .cursorData id data, by simp [hCached]⟩
  | _ =>
      refine ⟨rfl, msg, ?_⟩
      rw [hMsg]
      rfl

instance : Subscriber MouseCursorSub where
  id sub := sub.inner.id
  send := MouseCursorSub.send
  ofConn conn := { inner := conn, cached := .empty }
  id_ofConn _ := rfl
  id_send sub msg := congrArg ConnInner.id (sub.send_cases msg).1
  length_send sub msg := by
    obtain ⟨out, hOut⟩ := (sub.send_cases msg).2
    rw [hOut]
    exact sub.inner.length_send out

structure ServiceInner (T : Type*) where
  subscribes : Table Int T
  newSubscribes : Table Int T
  needSnapshot : Bool

variable {T : Type*} [Subscriber T]

/-- Send a message to some of the subscribers: the table after it, and what has gone out to
which connection. -/
def sendWhere (table : Table Int T) (picks : Int → T → Bool) (msg : Message) :
    Table Int T × List (Int × Message) :=
  (table.map fun sid s => if picks sid s then (Subscriber.send s msg).1 else s,
    table.entries.flatMap fun (sid, s) =>
      if picks sid s then (Subscriber.send s msg).2.map (Subscriber.id s, ·) else [])

namespace ServiceInner

def new (needSnapshot : Bool) : ServiceInner T where
  subscribes := .empty
  newSubscribes := .empty
  needSnapshot := needSnapshot

variable (inner : ServiceInner T)

def isSubed (id : Int) : Bool := inner.subscribes.contains id || inner.newSubscribes.contains id

def onSubscribe (sub : ConnInner) : ServiceInner T :=
  if inner.subscribes.contains sub.id then inner
  else if inner.needSnapshot then
    { inner with newSubscribes := inner.newSubscribes.insert sub.id (Subscriber.ofConn sub) }
  else { inner with subscribes := inner.subscribes.insert sub.id (Subscriber.ofConn sub) }

def onUnsubscribe (id : Int) : ServiceInner T :=
  if inner.subscribes.contains id then { inner with subscribes := inner.subscribes.remove id }
  else { inner with newSubscribes := inner.newSubscribes.remove id }

def swapNewSubscribes : ServiceInner T :=
  { inner with
    subscribes := inner.newSubscribes.entries.foldl
      (fun table (_, s) => table.insert (Subscriber.id s) s) inner.subscribes
    newSubscribes := .empty }

/-- A message to some of those who take part. -/
def sendSubscribes (picks : Int → T → Bool) (msg : Message) : ServiceInner T × List (Int × Message) :=
  let (table, out) := sendWhere inner.subscribes picks msg
  ({ inner with subscribes := table }, out)

def sendNewSubscribes (msg : Message) : ServiceInner T × List (Int × Message) :=
  let (table, out) := sendWhere inner.newSubscribes (fun _ _ => true) msg
  ({ inner with newSubscribes := table }, out)

def sendTo (msg : Message) (id : Int) : ServiceInner T × List (Int × Message) :=
  inner.sendSubscribes (fun sid _ => sid == id) msg

def sendToOthers (msg : Message) (id : Int) : ServiceInner T × List (Int × Message) :=
  inner.sendSubscribes (fun sid _ => sid != id) msg

def sendShared (msg : Message) : ServiceInner T × List (Int × Message) :=
  inner.sendSubscribes (fun _ _ => true) msg

def sendWithout (msg : Message) (sub : Int) : ServiceInner T × List (Int × Message) :=
  inner.sendSubscribes (fun _ s => sub != Subscriber.id s) msg

end ServiceInner

/-- A call of a connection or of the service itself. Sending a video frame is `sendShared`. -/
inductive Call where
  | onSubscribe (sub : ConnInner)
  | onUnsubscribe (id : Int)
  | swapNewSubscribes
  | sendNewSubscribes (msg : Message)
  | sendTo (msg : Message) (id : Int)
  | sendToOthers (msg : Message) (id : Int)
  | sendShared (msg : Message)
  | sendWithout (msg : Message) (sub : Int)

/-- A call, with what has gone out to which connection. -/
def ServiceInner.call (inner : ServiceInner T) : Call → ServiceInner T × List (Int × Message)
  | .onSubscribe sub => (inner.onSubscribe sub, [])
  | .onUnsubscribe id => (inner.onUnsubscribe id, [])
  | .swapNewSubscribes => (inner.swapNewSubscribes, [])
  | .sendNewSubscribes msg => inner.sendNewSubscribes msg
  | .sendTo msg id => inner.sendTo msg id
  | .sendToOthers msg id => inner.sendToOthers msg id
  | .sendShared msg => inner.sendShared msg
  | .sendWithout msg sub => inner.sendWithout msg sub

def ServiceInner.step (inner : ServiceInner T) (call : Call) : ServiceInner T := (inner.call call).1

/-- The call says whether the connection takes part. -/
def Call.about (id : Int) : Call → Bool
  | .onSubscribe sub => sub.id == id
  | .onUnsubscribe gone => gone == id
  | _ => false

/-- The last call about the connection was to subscribe it. -/
def lastIsSubscribe (id : Int) (calls : List Call) : Bool :=
  match (calls.filter (Call.about id)).getLast? with
  | some (.onSubscribe _) => true
  | _ => false

/-- No connection is in both tables, and each is stored under its own id. -/
structure ServiceInner.Filed (inner : ServiceInner T) : Prop where
  disjoint : ∀ id s, inner.subscribes.lookup id = some s → inner.newSubscribes.lookup id = none
  own : ∀ id s, inner.subscribes.lookup id = some s → Subscriber.id s = id
  ownNew : ∀ id s, inner.newSubscribes.lookup id = some s → Subscriber.id s = id
  direct : inner.needSnapshot = false → ∀ id, inner.newSubscribes.lookup id = none

section Lookup
variable {inner : ServiceInner T}

omit [Subscriber T] in
theorem isSubed_eq_false {id : Int} : inner.isSubed id = false ↔
    inner.subscribes.lookup id = none ∧ inner.newSubscribes.lookup id = none := by
  simp [ServiceInner.isSubed, Table.contains]

theorem lookup_sendWhere (table : Table Int T) (picks : Int → T → Bool) (msg : Message) (id : Int) :
    (sendWhere table picks msg).1.lookup id =
      (table.lookup id).map fun s => if picks id s then (Subscriber.send s msg).1 else s :=
  Table.lookup_map ..

theorem id_sendWhere {table : Table Int T} {picks : Int → T → Bool} {msg : Message} {id : Int} {s : T}
    (hSome : (sendWhere table picks msg).1.lookup id = some s) :
    ∃ before, table.lookup id = some before ∧ Subscriber.id s = Subscriber.id before := by
  rw [lookup_sendWhere] at hSome
  obtain ⟨before, hBefore, rfl⟩ := Option.map_eq_some_iff.mp hSome
  refine ⟨before, hBefore, ?_⟩
  split
  · exact Subscriber.id_send before msg
  · rfl

/-- Only who is in the table is sent something. -/
theorem mem_sendWhere {table : Table Int T} {picks : Int → T → Bool} {msg : Message} {id : Int} {out : Message}
    (hMem : (id, out) ∈ (sendWhere table picks msg).2) :
    ∃ sid s, table.lookup sid = some s ∧ Subscriber.id s = id := by
  obtain ⟨⟨sid, s⟩, hEntry, hOut⟩ := List.mem_flatMap.mp hMem
  dsimp only at hOut
  split at hOut
  · obtain ⟨_, -, hSame⟩ := List.mem_map.mp hOut
    exact ⟨sid, s, Table.lookup_eq_some_iff.mpr hEntry, congrArg Prod.fst hSame⟩
  · exact absurd hOut List.not_mem_nil

/-- Subscribers stored under their own ids are sent at most one message each. -/
theorem nodup_sendWhere {table : Table Int T} (picks : Int → T → Bool) (msg : Message)
    (hOwn : ∀ id s, table.lookup id = some s → Subscriber.id s = id) :
    ((sendWhere table picks msg).2.map Prod.fst).Nodup := by
  have hMem : ∀ entry ∈ table.entries, Subscriber.id entry.2 = entry.1 :=
    fun entry hEntry => hOwn _ _ (Table.lookup_eq_some_iff.mpr hEntry)
  obtain ⟨entries, nodup⟩ := table
  unfold sendWhere
  dsimp only at hMem ⊢
  clear hOwn
  induction entries with
  | nil => exact List.nodup_nil
  | cons entry rest ih =>
      obtain ⟨sid, s⟩ := entry
      obtain ⟨hFresh, hRest⟩ := List.nodup_cons.mp nodup
      rw [List.flatMap_cons, List.map_append, List.nodup_append]
      refine ⟨?_, ih hRest fun entry hEntry => hMem entry (List.mem_cons_of_mem _ hEntry), ?_⟩
      · dsimp only
        split
        · rw [List.map_map]
          have hLength := Subscriber.length_send s msg
          cases hOut : (Subscriber.send s msg).2 with
          | nil => exact List.nodup_nil
          | cons out more =>
              rw [hOut] at hLength
              obtain rfl : more = [] := by simpa using hLength
              exact List.pairwise_singleton _ _
        · exact List.nodup_nil
      · intro id hFirst other hOther hSame
        have hId : id = sid := by
          dsimp only at hFirst
          split at hFirst
          · obtain ⟨_, hOut, rfl⟩ := List.mem_map.mp hFirst
            obtain ⟨_, -, rfl⟩ := List.mem_map.mp hOut
            exact hMem (sid, s) List.mem_cons_self
          · exact absurd hFirst List.not_mem_nil
        obtain ⟨⟨_, out⟩, hLater, rfl⟩ := List.mem_map.mp hOther
        obtain ⟨later, hEntry, hOut⟩ := List.mem_flatMap.mp hLater
        dsimp only at hOut hSame
        split at hOut
        · obtain ⟨_, -, hPair⟩ := List.mem_map.mp hOut
          have hLaterId := hMem later (List.mem_cons_of_mem _ hEntry)
          refine hFresh (List.mem_map.mpr ⟨later, hEntry, ?_⟩)
          exact hLaterId.symm.trans ((congrArg Prod.fst hPair).trans (hSame.symm.trans hId))
        · exact absurd hOut List.not_mem_nil

end Lookup

section Filed
variable {inner : ServiceInner T}

theorem filed_new (needSnapshot : Bool) : (ServiceInner.new needSnapshot : ServiceInner T).Filed := by
  refine ⟨fun id s hSome => ?_, fun id s hSome => ?_, fun id s hSome => ?_, fun _ _ => rfl⟩
  all_goals cases hSome

/-- Who waited takes part, as everyone does who took part before. -/
theorem ServiceInner.Filed.lookup_swap (h : inner.Filed) (id : Int) :
    inner.swapNewSubscribes.subscribes.lookup id =
      (inner.newSubscribes.lookup id).or (inner.subscribes.lookup id) := by
  have hExtend : inner.newSubscribes.entries.foldl
      (fun table (_, s) => table.insert (Subscriber.id s) s) inner.subscribes =
      inner.subscribes.extend inner.newSubscribes := by
    refine List.foldl_ext _ _ _ fun table entry hEntry => ?_
    obtain ⟨id, s⟩ := entry
    have hOwn := h.ownNew id s (Table.lookup_eq_some_iff.mpr hEntry)
    dsimp only
    rw [hOwn]
  exact (congrArg (Table.lookup · id) hExtend).trans (Table.lookup_extend ..)

theorem onSubscribe_filed (h : inner.Filed) (sub : ConnInner) : (inner.onSubscribe sub).Filed := by
  unfold ServiceInner.onSubscribe
  have hInsert : ∀ {table : Table Int T}, (∀ id s, table.lookup id = some s → Subscriber.id s = id) →
      ∀ id s, (table.insert sub.id (Subscriber.ofConn sub)).lookup id = some s → Subscriber.id s = id := by
    intro table hOwn id s hSome
    rw [Table.lookup_insert] at hSome
    split at hSome
    · rename_i hSame
      rw [← Option.some.inj hSome, hSame]
      exact Subscriber.id_ofConn sub
    · exact hOwn id s hSome
  split
  · exact h
  · rename_i hFresh
    have hNone : inner.subscribes.lookup sub.id = none := by simpa [Table.contains] using hFresh
    split
    · rename_i hNeed
      refine ⟨fun id s hSome => ?_, h.own, hInsert h.ownNew, fun hNot => ?_⟩
      · rw [Table.lookup_insert, if_neg]
        · exact h.disjoint id s hSome
        · rintro rfl
          rw [hNone] at hSome
          cases hSome
      · rw [hNeed] at hNot
        cases hNot
    · rename_i hNeed
      have hNobody := h.direct (Bool.eq_false_of_not_eq_true hNeed)
      exact ⟨fun id _ _ => hNobody id, hInsert h.own, h.ownNew, fun _ => hNobody⟩

theorem onUnsubscribe_filed (h : inner.Filed) (gone : Int) : (inner.onUnsubscribe gone).Filed := by
  unfold ServiceInner.onUnsubscribe
  have hRemove : ∀ {table : Table Int T} {id : Int} {s : T},
      (table.remove gone).lookup id = some s → table.lookup id = some s := by
    intro table id s hSome
    rw [Table.lookup_remove] at hSome
    split at hSome
    · cases hSome
    · exact hSome
  split
  · exact ⟨fun id s hSome => h.disjoint id s (hRemove hSome), fun id s hSome => h.own id s (hRemove hSome),
      h.ownNew, h.direct⟩
  · refine ⟨fun id s hSome => ?_, h.own, fun id s hSome => h.ownNew id s (hRemove hSome), fun hNot id => ?_⟩
    · rw [Table.lookup_remove, h.disjoint id s hSome, ite_self]
    · rw [Table.lookup_remove, h.direct hNot id, ite_self]

theorem swapNewSubscribes_filed (h : inner.Filed) : inner.swapNewSubscribes.Filed := by
  refine ⟨fun _ _ _ => rfl, fun id s hSome => ?_, fun id s hSome => ?_, fun _ _ => rfl⟩
  · rw [h.lookup_swap] at hSome
    rcases Option.or_eq_some_iff.mp hSome with hNew | ⟨-, hOld⟩
    · exact h.ownNew id s hNew
    · exact h.own id s hOld
  · cases hSome

theorem sendSubscribes_filed (h : inner.Filed) (picks : Int → T → Bool) (msg : Message) :
    (inner.sendSubscribes picks msg).1.Filed := by
  refine ⟨fun id s hSome => ?_, fun id s hSome => ?_, h.ownNew, h.direct⟩
  · obtain ⟨before, hBefore, -⟩ := id_sendWhere hSome
    exact h.disjoint id before hBefore
  · obtain ⟨before, hBefore, hSame⟩ := id_sendWhere hSome
    exact hSame.trans (h.own id before hBefore)

theorem sendNewSubscribes_filed (h : inner.Filed) (msg : Message) :
    (inner.sendNewSubscribes msg).1.Filed := by
  refine ⟨fun id s hSome => ?_, h.own, fun id s hSome => ?_, fun hNot id => ?_⟩
  · exact (lookup_sendWhere ..).trans (by rw [h.disjoint id s hSome]; rfl)
  · obtain ⟨before, hBefore, hSame⟩ := id_sendWhere hSome
    exact hSame.trans (h.ownNew id before hBefore)
  · exact (lookup_sendWhere ..).trans (by rw [h.direct hNot id]; rfl)

theorem step_filed (h : inner.Filed) (call : Call) : (inner.step call).Filed := by
  cases call with
  | onSubscribe sub => exact onSubscribe_filed h sub
  | onUnsubscribe id => exact onUnsubscribe_filed h id
  | swapNewSubscribes => exact swapNewSubscribes_filed h
  | sendNewSubscribes msg => exact sendNewSubscribes_filed h msg
  | sendTo msg id => exact sendSubscribes_filed h _ msg
  | sendToOthers msg id => exact sendSubscribes_filed h _ msg
  | sendShared msg => exact sendSubscribes_filed h _ msg
  | sendWithout msg sub => exact sendSubscribes_filed h _ msg

end Filed

section Subscribed
variable {inner : ServiceInner T}

omit [Subscriber T] in
theorem isSubed_congr {other : ServiceInner T} {id : Int}
    (hSame : (inner.subscribes.lookup id).isSome = (other.subscribes.lookup id).isSome)
    (hNew : (inner.newSubscribes.lookup id).isSome = (other.newSubscribes.lookup id).isSome) :
    inner.isSubed id = other.isSubed id := by
  unfold ServiceInner.isSubed Table.contains
  rw [hSame, hNew]

theorem isSubed_onSubscribe (sub : ConnInner) (id : Int) :
    (inner.onSubscribe sub).isSubed id = (sub.id == id || inner.isSubed id) := by
  unfold ServiceInner.onSubscribe ServiceInner.isSubed Table.contains
  by_cases hId : id = sub.id
  · subst hId
    split
    · rename_i hOld
      simp [hOld]
    · split <;> simp
  · have hNot : (sub.id == id) = false := beq_eq_false_iff_ne.mpr (Ne.symm hId)
    split
    · simp [hNot]
    · split <;> simp [hNot, hId]

theorem isSubed_onUnsubscribe (h : inner.Filed) (gone id : Int) :
    (inner.onUnsubscribe gone).isSubed id = (gone != id && inner.isSubed id) := by
  unfold ServiceInner.onUnsubscribe ServiceInner.isSubed Table.contains
  by_cases hId : id = gone
  · subst hId
    split
    · rename_i hOld
      obtain ⟨s, hSome⟩ := Option.isSome_iff_exists.mp hOld
      simp [h.disjoint id s hSome]
    · rename_i hNot
      simpa using hNot
  · have hNot : (gone != id) = true := bne_iff_ne.mpr (Ne.symm hId)
    split <;> simp [hNot, hId]

theorem isSubed_swap (h : inner.Filed) (id : Int) :
    inner.swapNewSubscribes.isSubed id = inner.isSubed id := by
  have hSwap := h.lookup_swap id
  unfold ServiceInner.isSubed Table.contains
  rw [hSwap]
  have hEmpty : inner.swapNewSubscribes.newSubscribes.lookup id = none := rfl
  rw [hEmpty]
  cases inner.newSubscribes.lookup id <;> simp

theorem isSubed_sendSubscribes (picks : Int → T → Bool) (msg : Message) (id : Int) :
    (inner.sendSubscribes picks msg).1.isSubed id = inner.isSubed id := by
  refine isSubed_congr ?_ rfl
  exact (congrArg Option.isSome (lookup_sendWhere ..)).trans Option.isSome_map

theorem isSubed_step (h : inner.Filed) (call : Call) (id : Int) :
    (inner.step call).isSubed id =
      if call.about id then lastIsSubscribe id [call] else inner.isSubed id := by
  cases call with
  | onSubscribe sub =>
      refine (isSubed_onSubscribe sub id).trans ?_
      cases hAbout : sub.id == id <;> simp [Call.about, lastIsSubscribe, hAbout]
  | onUnsubscribe gone =>
      refine (isSubed_onUnsubscribe h gone id).trans ?_
      cases hAbout : gone == id <;> simp [Call.about, lastIsSubscribe, hAbout, bne]
  | swapNewSubscribes => exact isSubed_swap h id
  | sendNewSubscribes msg =>
      refine isSubed_congr rfl ?_
      exact (congrArg Option.isSome (lookup_sendWhere ..)).trans Option.isSome_map
  | sendTo msg other => exact isSubed_sendSubscribes _ msg id
  | sendToOthers msg other => exact isSubed_sendSubscribes _ msg id
  | sendShared msg => exact isSubed_sendSubscribes _ msg id
  | sendWithout msg sub => exact isSubed_sendSubscribes _ msg id

theorem lastIsSubscribe_concat (id : Int) (past : List Call) (call : Call) :
    lastIsSubscribe id (past ++ [call]) =
      if call.about id then lastIsSubscribe id [call] else lastIsSubscribe id past := by
  unfold lastIsSubscribe
  rw [List.filter_append]
  cases hAbout : call.about id <;> simp [hAbout]

end Subscribed

/-- What is known of a service and the calls that have been made. -/
structure Bookkeeping (inner : ServiceInner T) (calls : List Call) : Prop where
  disjoint : ∀ id, ¬ (inner.subscribes.contains id = true ∧ inner.newSubscribes.contains id = true)
  own : ∀ id s, inner.subscribes.lookup id = some s ∨ inner.newSubscribes.lookup id = some s →
    Subscriber.id s = id
  subed : ∀ id, inner.isSubed id = lastIsSubscribe id calls
  once : ∀ call, ((inner.call call).2.map Prod.fst).Nodup

theorem call_once {inner : ServiceInner T} (h : inner.Filed) (call : Call) :
    ((inner.call call).2.map Prod.fst).Nodup := by
  cases call with
  | onSubscribe sub => exact List.nodup_nil
  | onUnsubscribe id => exact List.nodup_nil
  | swapNewSubscribes => exact List.nodup_nil
  | sendNewSubscribes msg => exact nodup_sendWhere (fun _ _ => true) msg h.ownNew
  | sendTo msg id => exact nodup_sendWhere (fun sid _ => sid == id) msg h.own
  | sendToOthers msg id => exact nodup_sendWhere (fun sid _ => sid != id) msg h.own
  | sendShared msg => exact nodup_sendWhere (fun _ _ => true) msg h.own
  | sendWithout msg sub => exact nodup_sendWhere (fun _ s => sub != Subscriber.id s) msg h.own

/-- Whatever calls have been made, the tables tell who takes part and nobody is sent a message
twice. -/
theorem bookkeeping (needSnapshot : Bool) (calls : List Call) :
    Bookkeeping (Trace.run ServiceInner.step (ServiceInner.new needSnapshot : ServiceInner T) calls) calls := by
  have hFiled : ∀ calls, (Trace.run ServiceInner.step
      (ServiceInner.new needSnapshot : ServiceInner T) calls).Filed :=
    Trace.invariant_of_step _ _ (filed_new needSnapshot) fun _ call h => step_filed h call
  refine ⟨fun id ⟨hOld, hNew⟩ => ?_, fun id s hSome => ?_, fun id => ?_, call_once (hFiled calls)⟩
  · obtain ⟨s, hOld⟩ := Table.contains_iff.mp hOld
    obtain ⟨_, hNew⟩ := Table.contains_iff.mp hNew
    rw [(hFiled calls).disjoint id s hOld] at hNew
    cases hNew
  · exact hSome.elim ((hFiled calls).own id s) ((hFiled calls).ownNew id s)
  · induction calls using List.reverseRecOn with
    | nil => rfl
    | append_singleton past call ih =>
        rw [Trace.run_append, lastIsSubscribe_concat, ← ih]
        exact isSubed_step (hFiled past) call id

end HibtDesk.Service
