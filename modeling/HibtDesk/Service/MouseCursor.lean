import HibtDesk.Service.Subscribers

/-! The cursor of the host, and the clients that show it. A picture is sent to a subscriber
once; afterwards its number is enough. A client decodes a picture while it goes on. -/
namespace HibtDesk.Service.MouseCursor

/-- `StateCursor`, before it has seen a cursor. -/
structure StateCursor where
  hcursor : UInt64 := 0
  cursorData : Message := .other []
  cachedCursorData : Table UInt64 Message := .empty

/-- The cursors of a client, with the messages that are on the way to it. -/
structure CursorModel where
  inbox : List Message := []
  decoding : List (UInt64 × Bytes) := []
  id : Option UInt64 := none
  images : Table UInt64 Bytes := .empty
  image : Option Bytes := none

namespace CursorModel

/-- `_updateCurData`. -/
def updateCurData (model : CursorModel) : CursorModel :=
  { model with image := (model.id.bind model.images.lookup).or model.image }

/-- The client handles a message. -/
def handle (model : CursorModel) : Message → CursorModel
  | .cursorData id data =>
      { model with id := some id, decoding := model.decoding ++ [(id, data)] }
  | .cursorId id => { model with id := some id }.updateCurData
  | _ => model

def receive (model : CursorModel) (msgs : List Message) : CursorModel :=
  { model with inbox := model.inbox ++ msgs }

def arrive (model : CursorModel) : CursorModel :=
  match model.inbox with
  | [] => model
  | msg :: inbox => { model with inbox := inbox }.handle msg

/-- A picture has been decoded, not always the oldest one. -/
def decoded (model : CursorModel) (i : Nat) : CursorModel :=
  match model.decoding[i]? with
  | some (id, data) =>
      { model with
        decoding := model.decoding.eraseIdx i
        images := model.images.insert id data }.updateCurData
  | none => model

end CursorModel

/-- Of what has gone out, what goes to one connection. -/
def sentTo (id : Int) (out : List (Int × Message)) : List Message :=
  out.filterMap fun (sid, msg) => if sid = id then some msg else none

/-- How far the service is in its turn. -/
inductive Phase where
  | idle | looked | swapping | swapped | resetting
  deriving DecidableEq, Repr

structure State where
  inner : ServiceInner MouseCursorSub
  cursor : StateCursor
  phase : Phase
  clients : Int → CursorModel

inductive Event where
  | subscribe (id : Int)
  | unsubscribe (id : Int)
  /-- `run_cursor` up to its snapshot; `get_cursor_data` succeeds or not. -/
  | runCursor (reading : Option UInt64) (readable : Bool)
  | snapshot
  | swapSend
  | swapDrop
  /-- Nobody takes part any more. -/
  | leave
  | reset
  | arrive (id : Int)
  | decoded (id : Int) (i : Nat)

/-- What `run_cursor` makes of the cursor that it reads, unless it fails: the state, and the
message for those who take part. -/
def StateCursor.read (image : UInt64 → Bytes) (cursor : StateCursor) (reading : Option UInt64)
    (readable : Bool) : Option (StateCursor × Option Message) :=
  match reading with
  | none => some (cursor, none)
  | some hcursor =>
      if hcursor = cursor.hcursor then some (cursor, none)
      else
        match cursor.cachedCursorData.lookup hcursor with
        | some msg => some ({ cursor with hcursor := hcursor, cursorData := msg }, some msg)
        | none =>
            if readable then
              let msg := .cursorData hcursor (image hcursor)
              some ({ hcursor := hcursor, cursorData := msg
                      cachedCursorData := cursor.cachedCursorData.insert hcursor msg }, some msg)
            else none

namespace State

def start : State where
  inner := .new true
  cursor := {}
  phase := .idle
  clients _ := {}

/-- What has gone out is on the way. -/
def deliver (s : State) (sent : ServiceInner MouseCursorSub × List (Int × Message)) : State :=
  { s with inner := sent.1, clients := fun id => (s.clients id).receive (sentTo id sent.2) }

def withClient (s : State) (id : Int) (model : CursorModel) : State :=
  { s with clients := fun other => if other = id then model else s.clients other }

def step (image : UInt64 → Bytes) (s : State) : Event → State
  | .subscribe id => { s with inner := s.inner.onSubscribe ⟨id, true, true⟩ }
  | .unsubscribe id => { s with inner := s.inner.onUnsubscribe id }
  | .runCursor reading readable =>
      if s.phase = .idle then
        match s.cursor.read image reading readable with
        | none => s
        | some (cursor, none) => { s with cursor := cursor, phase := .looked }
        | some (cursor, some msg) =>
            { s with cursor := cursor, phase := .looked }.deliver (s.inner.sendShared msg)
      else s
  | .snapshot =>
      if s.phase = .looked then
        { s with phase := if s.inner.newSubscribes.entries.isEmpty then .idle else .swapping }
      else s
  | .swapSend =>
      if s.phase = .swapping then
        { s with phase := .swapped }.deliver (s.inner.sendNewSubscribes s.cursor.cursorData)
      else s
  | .swapDrop =>
      if s.phase = .swapped then { s with inner := s.inner.swapNewSubscribes, phase := .idle } else s
  | .leave =>
      if s.phase = .idle ∧ s.inner.subscribes.entries = [] ∧ s.inner.newSubscribes.entries = [] then
        { s with phase := .resetting }
      else s
  | .reset => if s.phase = .resetting then { s with cursor := {}, phase := .idle } else s
  | .arrive id => s.withClient id (s.clients id).arrive
  | .decoded id i => s.withClient id ((s.clients id).decoded i)

end State

/-- The cursor that a message tells the client to show. -/
def cursorOf : Message → Option UInt64
  | .cursorData id _ | .cursorId id => some id
  | _ => none

namespace CursorModel

variable (image : UInt64 → Bytes) (model : CursorModel)

/-- The client has the picture, or is about to. -/
def Has (id : UInt64) : Prop := (model.images.lookup id).isSome ∨ id ∈ model.decoding.map Prod.fst

/-- The client has the picture once all messages have arrived. -/
def Gets (id : UInt64) : Prop := model.Has id ∨ ∃ data, .cursorData id data ∈ model.inbox

/-- The last cursor that the client has been told of. -/
def told : Option UInt64 := (model.inbox.filterMap cursorOf).getLast?.or model.id

/-- Pictures are those of the host, no number comes before its picture, and the client shows
the last cursor that has arrived, unless that one is still being decoded. -/
structure Sound : Prop where
  sent : ∀ id data, .cursorData id data ∈ model.inbox → data = image id
  decoding : ∀ id data, (id, data) ∈ model.decoding → data = image id
  images : ∀ id data, model.images.lookup id = some data → data = image id
  ready : ∀ k id, model.inbox[k]? = some (Message.cursorId id) →
    model.Has id ∨ ∃ (j : Nat) (data : Bytes), j < k ∧ model.inbox[j]? = some (Message.cursorData id data)
  has : ∀ id, model.id = some id → model.Has id
  shows : ∀ id data, model.id = some id → id ∉ model.decoding.map Prod.fst →
    model.images.lookup id = some data → model.image = some data

variable {image model}

theorem sound_start : Sound image {} where
  sent := nofun
  decoding := nofun
  images := nofun
  ready := nofun
  has := nofun
  shows := nofun

theorem Sound.push (hSound : model.Sound image) {msg : Message}
    (hData : ∀ id data, msg = .cursorData id data → data = image id)
    (hKnown : ∀ id, msg = .cursorId id → model.Gets id) :
    Sound image (model.receive [msg]) where
  sent id data hMem := by
    rcases List.mem_append.mp hMem with hOld | hNew
    · exact hSound.sent id data hOld
    · exact hData id data (List.mem_singleton.mp hNew).symm
  decoding := hSound.decoding
  images := hSound.images
  ready k id hAt := by
    change (model.inbox ++ [msg])[k]? = some (Message.cursorId id) at hAt
    rcases Nat.lt_or_ge k model.inbox.length with hOld | hNew
    · rw [List.getElem?_append_left hOld] at hAt
      refine (hSound.ready k id hAt).imp_right ?_
      rintro ⟨j, data, hBefore, hPicture⟩
      exact ⟨j, data, hBefore, (List.getElem?_append_left (Nat.lt_trans hBefore hOld)).trans hPicture⟩
    · rw [List.getElem?_append_right hNew, List.getElem?_singleton] at hAt
      split at hAt
      · refine (hKnown id (Option.some.inj hAt)).imp_right ?_
        rintro ⟨data, hMem⟩
        obtain ⟨j, hPicture⟩ := List.mem_iff_getElem?.mp hMem
        have hLess : j < model.inbox.length := (List.getElem?_eq_some_iff.mp hPicture).1
        exact ⟨j, data, Nat.lt_of_lt_of_le hLess hNew, (List.getElem?_append_left hLess).trans hPicture⟩
      · cases hAt
  has := hSound.has
  shows := hSound.shows

theorem gets_push (msg : Message) {id : UInt64} (hGets : model.Gets id) :
    (model.receive [msg]).Gets id :=
  hGets.imp_right fun ⟨data, hMem⟩ => ⟨data, List.mem_append_left _ hMem⟩

theorem told_push (msg : Message) :
    (model.receive [msg]).told = (cursorOf msg).or model.told := by
  unfold told receive
  dsimp only
  rw [List.filterMap_append, List.getLast?_append, Option.or_assoc]
  cases hCursor : cursorOf msg <;> simp [hCursor]

theorem arrive_nil (hInbox : model.inbox = []) : model.arrive = model := by
  unfold arrive
  rw [hInbox]

theorem arrive_cons {msg : Message} {rest : List Message} (hInbox : model.inbox = msg :: rest) :
    model.arrive = { model with inbox := rest }.handle msg := by
  unfold arrive
  rw [hInbox]

theorem has_decoding (picture : UInt64 × Bytes) {id : UInt64} (hHas : model.Has id ∨ id = picture.1)
    (inbox : List Message) (last : Option UInt64) :
    Has { model with inbox := inbox, id := last, decoding := model.decoding ++ [picture] } id := by
  unfold Has
  rw [List.map_append]
  rcases hHas with (hImage | hDecoding) | rfl
  · exact Or.inl hImage
  · exact Or.inr (List.mem_append_left _ hDecoding)
  · exact Or.inr (List.mem_append_right _ List.mem_cons_self)

theorem Sound.arrive (hSound : model.Sound image) : model.arrive.Sound image := by
  cases hInbox : model.inbox with
  | nil => rwa [arrive_nil hInbox]
  | cons msg rest =>
      obtain ⟨hSent, hDecoding, hImages, hReady, hHas, hShows⟩ := hSound
      rw [hInbox] at hSent hReady
      have hRest : ∀ id data, .cursorData id data ∈ rest → data = image id :=
        fun id data hMem => hSent id data (List.mem_cons_of_mem msg hMem)
      have hLater : ∀ k id, rest[k]? = some (Message.cursorId id) →
          (model.Has id ∨ ∃ data, msg = .cursorData id data) ∨
            ∃ (j : Nat) (data : Bytes), j < k ∧ rest[j]? = some (Message.cursorData id data) := by
        intro k id hAt
        rcases hReady (k + 1) id hAt with hNow | ⟨j, data, hBefore, hPicture⟩
        · exact Or.inl (Or.inl hNow)
        · cases j with
          | zero => exact Or.inl (Or.inr ⟨data, Option.some.inj hPicture⟩)
          | succ j => exact Or.inr ⟨j, data, Nat.lt_of_succ_lt_succ hBefore, hPicture⟩
      rw [arrive_cons hInbox]
      cases msg with
      | cursorData first picture =>
          refine ⟨hRest, fun id data hMem => ?_, hImages, fun k id hAt => ?_, ?_, ?_⟩
          · rcases List.mem_append.mp hMem with hOld | hNew
            · exact hDecoding id data hOld
            · cases List.mem_singleton.mp hNew
              exact hSent first picture List.mem_cons_self
          · refine (hLater k id hAt).imp_left fun hNow => has_decoding (first, picture) ?_ rest (some first)
            refine hNow.imp_right ?_
            rintro ⟨data, hSame⟩
            cases hSame
            rfl
          · rintro id ⟨⟩
            exact has_decoding (first, picture) (Or.inr rfl) rest (some first)
          · rintro id data ⟨⟩ hNot
            exact absurd (List.mem_map.mpr
              ⟨(first, picture), List.mem_append_right _ List.mem_cons_self, rfl⟩) hNot
      | cursorId first =>
          refine ⟨hRest, hDecoding, hImages, fun k id hAt => (hLater k id hAt).imp_left ?_, ?_, ?_⟩
          · rintro (hNow | ⟨data, hSame⟩)
            · exact hNow
            · cases hSame
          · rintro id ⟨⟩
            rcases hReady 0 first rfl with hNow | ⟨j, -, hBefore, -⟩
            · exact hNow
            · cases hBefore
          · rintro id data ⟨⟩ - hLookup
            exact congrArg (Option.or · model.image) hLookup
      | videoFrame _ | switchDisplay _ | other _ =>
          refine ⟨hRest, hDecoding, hImages, fun k id hAt => (hLater k id hAt).imp_left ?_, hHas, hShows⟩
          rintro (hNow | ⟨data, hSame⟩)
          · exact hNow
          · cases hSame

theorem gets_arrive {id : UInt64} (hGets : model.Gets id) : model.arrive.Gets id := by
  cases hInbox : model.inbox with
  | nil => rwa [arrive_nil hInbox]
  | cons msg rest =>
      unfold Gets at hGets
      rw [hInbox] at hGets
      rw [arrive_cons hInbox]
      cases msg with
      | cursorData first picture =>
          rcases hGets with hHas | ⟨data, hMem⟩
          · exact Or.inl (has_decoding (first, picture) (Or.inl hHas) rest (some first))
          · rcases List.mem_cons.mp hMem with hHead | hRest
            · cases hHead
              exact Or.inl (has_decoding _ (Or.inr rfl) rest (some _))
            · exact Or.inr ⟨data, hRest⟩
      | videoFrame _ | switchDisplay _ | cursorId _ | other _ =>
          refine hGets.imp_right ?_
          rintro ⟨data, hMem⟩
          rcases List.mem_cons.mp hMem with hHead | hRest
          · cases hHead
          · exact ⟨data, hRest⟩

theorem told_arrive (model : CursorModel) : model.arrive.told = model.told := by
  cases hInbox : model.inbox with
  | nil => rw [arrive_nil hInbox]
  | cons msg rest =>
      rw [arrive_cons hInbox]
      unfold told
      rw [hInbox]
      cases msg with
      | cursorData first _ | cursorId first =>
          change ((rest.filterMap cursorOf).getLast?).or (some first) =
            ((first :: rest.filterMap cursorOf).getLast?).or model.id
          rw [List.getLast?_cons]
          cases (rest.filterMap cursorOf).getLast? <;> rfl
      | videoFrame _ | switchDisplay _ | other _ => rfl

theorem has_decoded (model : CursorModel) (i : Nat) (id : UInt64) :
    (model.decoded i).Has id ↔ model.Has id := by
  unfold decoded
  split
  · rename_i found data hAt
    unfold Has updateCurData
    dsimp only
    rw [Table.lookup_insert]
    have hPerm : model.decoding.Perm ((found, data) :: model.decoding.eraseIdx i) := by
      obtain ⟨hLess, hGet⟩ := List.getElem?_eq_some_iff.mp hAt
      rw [← hGet]
      exact (List.getElem_cons_eraseIdx_perm hLess).symm
    rw [(hPerm.map Prod.fst).mem_iff, List.map_cons, List.mem_cons]
    by_cases hId : id = found
    · simp [hId]
    · simp [hId]
  · rfl

theorem gets_decoded (i : Nat) {id : UInt64} (hGets : model.Gets id) : (model.decoded i).Gets id := by
  have hHas := has_decoded model i id
  unfold decoded at hHas ⊢
  split
  · rename_i found data hAt
    rw [hAt] at hHas
    exact hGets.imp_left hHas.mpr
  · exact hGets

theorem Sound.decoded (hSound : model.Sound image) (i : Nat) : (model.decoded i).Sound image := by
  have hHas := has_decoded model i
  unfold CursorModel.decoded at hHas ⊢
  split
  · rename_i found picture hAt
    obtain ⟨hSent, hDecoding, hImages, hReady, hOwn, hShows⟩ := hSound
    simp only [hAt] at hHas
    refine ⟨hSent, fun id data hMem => hDecoding id data (List.mem_of_mem_eraseIdx hMem), ?_, ?_, ?_, ?_⟩
    · intro id data hLookup
      change (model.images.insert found picture).lookup id = some data at hLookup
      rw [Table.lookup_insert] at hLookup
      split at hLookup
      · rename_i hSame
        cases hLookup
        rw [hSame]
        exact hDecoding found _ (List.mem_of_getElem? hAt)
      · exact hImages id data hLookup
    · exact fun k id hNow => (hReady k id hNow).imp_left (hHas id).mpr
    · exact fun id hLast => (hHas id).mpr (hOwn id hLast)
    · rintro id data hLast - hLookup
      change model.id = some id at hLast
      change (model.id.bind (model.images.insert found picture).lookup).or model.image = some data
      rw [hLast]
      exact congrArg (Option.or · model.image) hLookup
  · exact hSound

theorem told_decoded (model : CursorModel) (i : Nat) : (model.decoded i).told = model.told := by
  unfold decoded
  split <;> rfl

end CursorModel

/-- What the service keeps: each picture under its number, and the message of the last one. -/
structure StateCursor.Sound (image : UInt64 → Bytes) (cursor : StateCursor) : Prop where
  cached : ∀ id msg, cursor.cachedCursorData.lookup id = some msg → msg = .cursorData id (image id)
  data : cursor.cursorData = .other [] ∨ cursor.cursorData = .cursorData cursor.hcursor (image cursor.hcursor)

theorem StateCursor.Sound.read {image : UInt64 → Bytes} {cursor next : StateCursor} {msg : Option Message}
    (hSound : cursor.Sound image) {reading : Option UInt64} {readable : Bool}
    (hRead : cursor.read image reading readable = some (next, msg)) :
    next.Sound image ∧ ((next = cursor ∧ msg = none) ∨
      msg = some (.cursorData next.hcursor (image next.hcursor))) := by
  unfold StateCursor.read at hRead
  split at hRead
  · cases hRead
    exact ⟨hSound, Or.inl ⟨rfl, rfl⟩⟩
  · rename_i hcursor
    split at hRead
    · cases hRead
      exact ⟨hSound, Or.inl ⟨rfl, rfl⟩⟩
    · split at hRead
      · rename_i found hCached
        cases hRead
        have hFound := hSound.cached hcursor found hCached
        exact ⟨⟨hSound.cached, Or.inr hFound⟩, Or.inr (congrArg some hFound)⟩
      · split at hRead
        · cases hRead
          refine ⟨⟨fun id found hFound => ?_, Or.inr rfl⟩, Or.inr rfl⟩
          dsimp only at hFound
          rw [Table.lookup_insert] at hFound
          split at hFound
          · rename_i hSame
            cases hFound
            rw [hSame]
          · exact hSound.cached id found hFound
        · cases hRead

/-- What a subscriber keeps: numbers of pictures that its client gets. If there is one, the
client was told of the cursor of the host. -/
structure Served (model : CursorModel) (hcursor : UInt64) (id : Int) (sub : MouseCursorSub) : Prop where
  inner : sub.inner = ⟨id, true, true⟩
  cached : ∀ number msg, sub.cached.lookup number = some msg → msg = .cursorId number ∧ model.Gets number
  told : sub.cached.entries ≠ [] → model.told = some hcursor

section Send
variable {image : UInt64 → Bytes} {model : CursorModel} {hcursor now : UInt64} {id : Int}
  {sub : MouseCursorSub} {msg : Message}

/-- Nothing has been sent to the subscriber that it keeps. -/
theorem served_of_fresh (hInner : sub.inner = ⟨id, true, true⟩) (hFresh : sub.cached.entries = []) :
    Served model hcursor id sub where
  inner := hInner
  cached number msg hFound := by
    have hMem := Table.lookup_eq_some_iff.mp hFound
    rw [hFresh] at hMem
    exact absurd hMem List.not_mem_nil
  told hSome := absurd hFresh hSome

/-- A subscriber is sent a picture or its number. Before the first one it may be sent nothing
of a cursor. -/
theorem Served.send (hServed : Served model hcursor id sub) (hSound : model.Sound image)
    (hMsg : (msg = .other [] ∧ now = hcursor) ∨ msg = .cursorData now (image now)) :
    (model.receive (sub.send msg).2).Sound image ∧
      Served (model.receive (sub.send msg).2) now id (sub.send msg).1 := by
  have hOut : ∀ out, sub.inner.send out = [out] := by
    intro out
    rw [hServed.inner]
    unfold ConnInner.send
    simp
  rcases hMsg with ⟨rfl, rfl⟩ | rfl
  · unfold MouseCursorSub.send
    dsimp only
    rw [hOut]
    refine ⟨hSound.push nofun nofun, hServed.inner, fun number found hFound => ?_, fun hSome => ?_⟩
    · obtain ⟨hNumber, hOld⟩ := hServed.cached number found hFound
      exact ⟨hNumber, CursorModel.gets_push _ hOld⟩
    · rw [CursorModel.told_push]
      exact hServed.told hSome
  · unfold MouseCursorSub.send
    dsimp only
    cases hCached : sub.cached.lookup now with
    | some known =>
        obtain ⟨rfl, hGets⟩ := hServed.cached now known hCached
        dsimp only
        rw [hOut]
        refine ⟨hSound.push nofun ?_, hServed.inner, fun number found hFound => ?_,
          fun _ => CursorModel.told_push _⟩
        · rintro _ ⟨⟩
          exact hGets
        · obtain ⟨hNumber, hOld⟩ := hServed.cached number found hFound
          exact ⟨hNumber, CursorModel.gets_push _ hOld⟩
    | none =>
        dsimp only
        rw [hOut]
        refine ⟨hSound.push ?_ nofun, hServed.inner, fun number found hFound => ?_,
          fun _ => CursorModel.told_push _⟩
        · rintro _ _ ⟨⟩
          rfl
        · dsimp only at hFound
          rw [Table.lookup_insert] at hFound
          split at hFound
          · rename_i hSame
            cases hFound
            rw [hSame]
            exact ⟨rfl, Or.inr ⟨image now, List.mem_append_right _ List.mem_cons_self⟩⟩
          · obtain ⟨hNumber, hOld⟩ := hServed.cached number found hFound
            exact ⟨hNumber, CursorModel.gets_push _ hOld⟩

/-- A connection is sent what its own subscriber sends. -/
theorem sentTo_sendWhere {table : Table Int MouseCursorSub}
    (hOwn : ∀ id s, table.lookup id = some s → Subscriber.id s = id) (msg : Message) (id : Int) :
    sentTo id (sendWhere table (fun _ _ => true) msg).2 =
      (table.lookup id).elim [] fun sub => (sub.send msg).2 := by
  have hMem : ∀ entry ∈ table.entries, Subscriber.id entry.2 = entry.1 :=
    fun entry hEntry => hOwn _ _ (Table.lookup_eq_some_iff.mpr hEntry)
  obtain ⟨entries, nodup⟩ := table
  unfold sentTo sendWhere Table.lookup
  dsimp only at hMem ⊢
  clear hOwn
  induction entries with
  | nil => rfl
  | cons entry rest ih =>
      obtain ⟨sid, sub⟩ := entry
      obtain ⟨hFresh, hRest⟩ := List.nodup_cons.mp nodup
      have hId : Subscriber.id sub = sid := hMem (sid, sub) List.mem_cons_self
      have ih := ih hRest fun entry hEntry => hMem entry (List.mem_cons_of_mem _ hEntry)
      rw [List.flatMap_cons, List.filterMap_append, ih, List.lookup_cons]
      dsimp only
      rw [if_pos rfl, hId, List.filterMap_map]
      by_cases hSame : id = sid
      · subst hSame
        rw [Table.lookup_of_fresh hFresh, beq_self_eq_true]
        simp
        rfl
      · have hOther : (id == sid) = false := beq_eq_false_iff_ne.mpr hSame
        rw [hOther]
        simp [Ne.symm hSame]

/-- What is sent to all subscribers of a table reaches each of their clients, and no others. -/
theorem send_table (now : UInt64) {table : Table Int MouseCursorSub} {clients : Int → CursorModel}
    (hServed : ∀ id sub, table.lookup id = some sub → Served (clients id) hcursor id sub)
    (hSound : ∀ id, (clients id).Sound image)
    (hMsg : (msg = .other [] ∧ now = hcursor) ∨ msg = .cursorData now (image now)) (id : Int) :
    ((clients id).receive (sentTo id (sendWhere table (fun _ _ => true) msg).2)).Sound image ∧
      ∀ sub, (sendWhere table (fun _ _ => true) msg).1.lookup id = some sub →
        Served ((clients id).receive (sentTo id (sendWhere table (fun _ _ => true) msg).2)) now id sub := by
  have hOwn : ∀ id s, table.lookup id = some s → Subscriber.id s = id := by
    intro id s hFound
    exact congrArg ConnInner.id (hServed id s hFound).inner
  rw [sentTo_sendWhere hOwn, lookup_sendWhere]
  cases hFound : table.lookup id with
  | none =>
      refine ⟨?_, nofun⟩
      unfold CursorModel.receive
      dsimp only [Option.elim]
      rw [List.append_nil]
      exact hSound id
  | some before =>
      obtain ⟨hNext, hStill⟩ := (hServed id before hFound).send (hSound id) hMsg
      refine ⟨hNext, ?_⟩
      rintro sub ⟨⟩
      exact hStill

end Send

/-- What holds at all times. Who waits has been sent nothing before the snapshot, and while the
service forgets the cursors nobody takes part. -/
structure State.Sound (image : UInt64 → Bytes) (s : State) : Prop where
  filed : s.inner.Filed
  cursor : s.cursor.Sound image
  clients : ∀ id, (s.clients id).Sound image
  served : ∀ id sub, s.inner.subscribes.lookup id = some sub → Served (s.clients id) s.cursor.hcursor id sub
  waiting : ∀ id sub, s.inner.newSubscribes.lookup id = some sub →
    Served (s.clients id) s.cursor.hcursor id sub
  fresh : s.phase ≠ .swapped → ∀ id sub, s.inner.newSubscribes.lookup id = some sub → sub.cached.entries = []
  snapshot : s.inner.needSnapshot = true
  resetting : s.phase = .resetting → s.inner.subscribes.entries = []

namespace State
variable {image : UInt64 → Bytes} {s : State}

theorem sound_start : start.Sound image where
  filed := filed_new true
  cursor := ⟨nofun, Or.inl rfl⟩
  clients _ := CursorModel.sound_start
  served := nofun
  waiting := nofun
  fresh _ := nofun
  snapshot := rfl
  resetting := nofun

theorem Sound.subscribe (hSound : s.Sound image) (id : Int) : (s.step image (.subscribe id)).Sound image := by
  have hFiled := onSubscribe_filed hSound.filed ⟨id, true, true⟩
  unfold step
  dsimp only
  unfold ServiceInner.onSubscribe at hFiled ⊢
  dsimp only at hFiled ⊢
  split at hFiled
  · rename_i hOld
    rw [if_pos hOld]
    exact hSound
  · rename_i hOther
    rw [if_pos hSound.snapshot] at hFiled
    rw [if_neg hOther, if_pos hSound.snapshot]
    have hNew : ∀ other sub,
        (s.inner.newSubscribes.insert id (Subscriber.ofConn ⟨id, true, true⟩)).lookup other = some sub →
          (other = id ∧ sub = Subscriber.ofConn ⟨id, true, true⟩) ∨
            s.inner.newSubscribes.lookup other = some sub := by
      intro other sub hFound
      rw [Table.lookup_insert] at hFound
      split at hFound
      · rename_i hSame
        exact Or.inl ⟨hSame, (Option.some.inj hFound).symm⟩
      · exact Or.inr hFound
    refine ⟨hFiled, hSound.cursor, hSound.clients, hSound.served, fun other sub hFound => ?_,
      fun hPhase other sub hFound => ?_, hSound.snapshot, hSound.resetting⟩
    · rcases hNew other sub hFound with ⟨rfl, rfl⟩ | hWaits
      · exact served_of_fresh rfl rfl
      · exact hSound.waiting other sub hWaits
    · rcases hNew other sub hFound with ⟨rfl, rfl⟩ | hWaits
      · rfl
      · exact hSound.fresh hPhase other sub hWaits

theorem Sound.unsubscribe (hSound : s.Sound image) (gone : Int) :
    (s.step image (.unsubscribe gone)).Sound image := by
  have hRemove : ∀ (table : Table Int MouseCursorSub) id sub,
      (table.remove gone).lookup id = some sub → table.lookup id = some sub := by
    intro table id sub hFound
    rw [Table.lookup_remove] at hFound
    split at hFound
    · cases hFound
    · exact hFound
  have hFiled := onUnsubscribe_filed hSound.filed gone
  unfold step
  dsimp only
  unfold ServiceInner.onUnsubscribe at hFiled ⊢
  split at hFiled
  · rename_i hThere
    rw [if_pos hThere]
    refine ⟨hFiled, hSound.cursor, hSound.clients,
      fun id sub hFound => hSound.served id sub (hRemove _ id sub hFound), hSound.waiting,
      hSound.fresh, hSound.snapshot, fun hPhase => ?_⟩
    have hNobody : s.inner.subscribes.entries = [] := hSound.resetting hPhase
    change s.inner.subscribes.entries.filter _ = []
    rw [hNobody, List.filter_nil]
  · rename_i hNot
    rw [if_neg hNot]
    exact ⟨hFiled, hSound.cursor, hSound.clients, hSound.served,
      fun id sub hFound => hSound.waiting id sub (hRemove _ id sub hFound),
      fun hPhase id sub hFound => hSound.fresh hPhase id sub (hRemove _ id sub hFound),
      hSound.snapshot, hSound.resetting⟩

theorem Sound.runCursor (hSound : s.Sound image) (reading : Option UInt64) (readable : Bool) :
    (s.step image (.runCursor reading readable)).Sound image := by
  unfold step
  dsimp only
  split
  · rename_i hIdle
    have hFresh := hSound.fresh (by rw [hIdle]; exact nofun)
    split
    · exact hSound
    · rename_i cursor hRead
      obtain ⟨hCursor, ⟨rfl, -⟩ | hMsg⟩ := hSound.cursor.read hRead
      · exact ⟨hSound.filed, hCursor, hSound.clients, hSound.served, hSound.waiting, fun _ => hFresh,
          hSound.snapshot, nofun⟩
      · cases hMsg
    · rename_i cursor msg hRead
      obtain ⟨hCursor, ⟨-, hMsg⟩ | hMsg⟩ := hSound.cursor.read hRead
      · cases hMsg
      · cases hMsg
        have hSend := send_table cursor.hcursor hSound.served hSound.clients (Or.inr rfl)
        exact ⟨sendSubscribes_filed hSound.filed (fun _ _ => true) _, hCursor, fun id => (hSend id).1,
          fun id sub hFound => (hSend id).2 sub hFound,
          fun id sub hWaits => served_of_fresh (hSound.waiting id sub hWaits).inner (hFresh id sub hWaits),
          fun _ => hFresh, hSound.snapshot, nofun⟩
  · exact hSound

theorem Sound.swapSend (hSound : s.Sound image) : (s.step image .swapSend).Sound image := by
  unfold step
  dsimp only
  split
  · have hSend := send_table s.cursor.hcursor hSound.waiting hSound.clients
      (hSound.cursor.data.imp_left fun hOther => ⟨hOther, rfl⟩)
    refine ⟨sendNewSubscribes_filed hSound.filed _, hSound.cursor, fun id => (hSend id).1,
      fun id sub hFound => ?_, fun id sub hWaits => (hSend id).2 sub hWaits, fun hPhase => absurd rfl hPhase,
      hSound.snapshot, nofun⟩
    have hOwn : ∀ id s', s.inner.newSubscribes.lookup id = some s' → Subscriber.id s' = id :=
      hSound.filed.ownNew
    have hNothing := sentTo_sendWhere hOwn s.cursor.cursorData id
    rw [hSound.filed.disjoint id sub hFound] at hNothing
    have hServed := hSound.served id sub hFound
    change Served ((s.clients id).receive (sentTo id _)) _ _ _
    rw [show sentTo id (s.inner.sendNewSubscribes s.cursor.cursorData).2 = [] from hNothing]
    unfold CursorModel.receive
    rw [List.append_nil]
    exact hServed
  · exact hSound

theorem Sound.swapDrop (hSound : s.Sound image) : (s.step image .swapDrop).Sound image := by
  unfold step
  dsimp only
  split
  · refine ⟨swapNewSubscribes_filed hSound.filed, hSound.cursor, hSound.clients, fun id sub hFound => ?_,
      nofun, fun _ => nofun, hSound.snapshot, nofun⟩
    rw [hSound.filed.lookup_swap, Option.or_eq_some_iff] at hFound
    rcases hFound with hWaits | ⟨-, hOld⟩
    · exact hSound.waiting id sub hWaits
    · exact hSound.served id sub hOld
  · exact hSound

/-- What a client does on its own keeps what its subscriber knows of it. -/
theorem Sound.withClient (hSound : s.Sound image) (id : Int) {model : CursorModel} (hModel : model.Sound image)
    (hGets : ∀ number, (s.clients id).Gets number → model.Gets number)
    (hTold : model.told = (s.clients id).told) : (s.withClient id model).Sound image := by
  have hKeep : ∀ other sub, Served (s.clients other) s.cursor.hcursor other sub →
      Served ((s.withClient id model).clients other) s.cursor.hcursor other sub := by
    intro other sub hServed
    unfold State.withClient
    dsimp only
    split
    · rename_i hSame
      subst hSame
      refine ⟨hServed.inner, fun number msg hFound => ?_, fun hSome => hTold.trans (hServed.told hSome)⟩
      exact (hServed.cached number msg hFound).imp_right (hGets number)
    · exact hServed
  refine ⟨hSound.filed, hSound.cursor, fun other => ?_,
    fun other sub hFound => hKeep other sub (hSound.served _ _ hFound),
    fun other sub hWaits => hKeep other sub (hSound.waiting _ _ hWaits), hSound.fresh, hSound.snapshot,
    hSound.resetting⟩
  unfold State.withClient
  dsimp only
  split
  · exact hModel
  · exact hSound.clients other

theorem Sound.step (hSound : s.Sound image) (event : Event) : (s.step image event).Sound image := by
  cases event with
  | subscribe id => exact hSound.subscribe id
  | unsubscribe id => exact hSound.unsubscribe id
  | runCursor reading readable => exact hSound.runCursor reading readable
  | snapshot =>
      unfold State.step
      dsimp only
      split
      · rename_i hLooked
        have hFresh := hSound.fresh (by rw [hLooked]; exact nofun)
        refine ⟨hSound.filed, hSound.cursor, hSound.clients, hSound.served, hSound.waiting, fun _ => hFresh,
          hSound.snapshot, fun hPhase => ?_⟩
        dsimp only at hPhase
        split at hPhase <;> cases hPhase
      · exact hSound
  | swapSend => exact hSound.swapSend
  | swapDrop => exact hSound.swapDrop
  | leave =>
      unfold State.step
      dsimp only
      split
      · rename_i hNobody
        have hFresh := hSound.fresh (by rw [hNobody.1]; exact nofun)
        exact ⟨hSound.filed, hSound.cursor, hSound.clients, hSound.served, hSound.waiting, fun _ => hFresh,
          hSound.snapshot, fun _ => hNobody.2.1⟩
      · exact hSound
  | reset =>
      unfold State.step
      dsimp only
      split
      · rename_i hResetting
        have hFresh := hSound.fresh (by rw [hResetting]; exact nofun)
        refine ⟨hSound.filed, ⟨nofun, Or.inl rfl⟩, hSound.clients, fun id sub hFound => ?_,
          fun id sub hWaits => served_of_fresh (hSound.waiting id sub hWaits).inner (hFresh id sub hWaits),
          fun _ => hFresh, hSound.snapshot, nofun⟩
        have hMem := Table.lookup_eq_some_iff.mp hFound
        rw [hSound.resetting hResetting] at hMem
        exact absurd hMem List.not_mem_nil
      · exact hSound
  | arrive id =>
      exact hSound.withClient id (hSound.clients id).arrive (fun _ => CursorModel.gets_arrive)
        (CursorModel.told_arrive _)
  | decoded id i =>
      exact hSound.withClient id ((hSound.clients id).decoded i) (fun _ => CursorModel.gets_decoded i)
        (CursorModel.told_decoded _ i)

/-- What clients see. A number that arrives is that of a picture which the client has. A client
that has handled everything shows the cursor it was told of last, which for one that takes part
and was sent a cursor is the cursor of the host. -/
structure Follows (image : UInt64 → Bytes) (s : State) : Prop where
  known : ∀ id number rest, (s.clients id).inbox = .cursorId number :: rest → (s.clients id).Has number
  shows : ∀ id number, (s.clients id).inbox = [] → (s.clients id).decoding = [] →
    (s.clients id).id = some number → (s.clients id).image = some (image number)
  follows : ∀ id sub, s.inner.subscribes.lookup id = some sub → sub.cached.entries ≠ [] →
    (s.clients id).inbox = [] → (s.clients id).decoding = [] →
      (s.clients id).image = some (image s.cursor.hcursor)

theorem follows_run (image : UInt64 → Bytes) (events : List Event) :
    Follows image (Trace.run (step image) start events) := by
  have hSound : (Trace.run (step image) start events).Sound image :=
    Trace.invariant_of_step _ _ sound_start (fun _ event hSound => hSound.step event) events
  generalize Trace.run (step image) start events = s at hSound
  have hShows : ∀ id number, (s.clients id).inbox = [] → (s.clients id).decoding = [] →
      (s.clients id).id = some number → (s.clients id).image = some (image number) := by
    intro id number hInbox hDecoding hLast
    have hClient := hSound.clients id
    rcases hClient.has number hLast with hImage | hLater
    · obtain ⟨data, hLookup⟩ := Option.isSome_iff_exists.mp hImage
      rw [hClient.shows number data hLast (by rw [hDecoding]; exact List.not_mem_nil) hLookup,
        hClient.images number data hLookup]
    · rw [hDecoding] at hLater
      exact absurd hLater List.not_mem_nil
  refine ⟨fun id number rest hInbox => ?_, hShows, fun id sub hFound hSome hInbox hDecoding => ?_⟩
  · rcases (hSound.clients id).ready 0 number (by rw [hInbox]; rfl) with hHas | ⟨_, _, hBefore, _⟩
    · exact hHas
    · exact absurd hBefore (Nat.not_lt_zero _)
  · refine hShows id s.cursor.hcursor hInbox hDecoding ?_
    have hTold := (hSound.served id sub hFound).told hSome
    unfold CursorModel.told at hTold
    rw [hInbox] at hTold
    exact hTold

end State

end HibtDesk.Service.MouseCursor
