import HibtDesk.Library.Trace
import Mathlib.Data.List.Sublists

/-! The frames of one display on their way to the decoder. Key frames travel in the channel
of the video thread. The other ones wait in a queue of bounded size, and for each of them a
token is sent through the channel, unless a frame was pushed out for it. -/
namespace HibtDesk.Video

def videoQueueSize : Nat := 120

variable {Frame : Type}

/-- What the channel of the thread carries, as far as frames are concerned. -/
inductive MediaData (Frame : Type) where
  | videoFrame (frame : Frame)
  | videoQueue
  | reset
  deriving DecidableEq, Repr

/-- What the video thread is doing: nothing, at the queue for a token, at the flag with a
frame from the queue, or with a key frame in its hands. -/
inductive Hand (Frame : Type) where
  | none
  | token
  | popped (frame : Frame)
  | key (frame : Frame)
  deriving DecidableEq, Repr

/-- The channel, the queue and the flag, a token that is still to be sent, the thread, and
the frames received and handed to the decoder so far. -/
structure State (Frame : Type) where
  channel : List (MediaData Frame)
  videoQueue : List Frame
  discardQueue : Bool
  tokenDue : Bool
  hand : Hand Frame
  received : List Frame
  decoded : List Frame
  deriving DecidableEq, Repr

inductive Event (Frame : Type) where
  /-- A frame is received that contains a key frame, or one that does not. -/
  | key (frame : Frame)
  | delta (frame : Frame)
  | sendToken
  | refreshVideo
  | resetDecoder
  /-- The video thread goes on. -/
  | thread
  deriving DecidableEq, Repr

namespace State

def start : State Frame where
  channel := []
  videoQueue := []
  discardQueue := false
  tokenDue := false
  hand := .none
  received := []
  decoded := []

/-- `force_push`. The token is sent next, unless a frame was pushed out. -/
def pushDelta (s : State Frame) (frame : Frame) : State Frame :=
  let s := { s with received := s.received ++ [frame] }
  if s.videoQueue.length < videoQueueSize then
    { s with videoQueue := s.videoQueue ++ [frame], tokenDue := true }
  else { s with videoQueue := s.videoQueue.tail ++ [frame] }

/-- One step of the thread of `start_video_thread`. -/
def goOn (s : State Frame) : State Frame :=
  match s.hand with
  | .none =>
      match s.channel with
      | [] => s
      | .videoFrame frame :: rest => { s with channel := rest, hand := .key frame }
      | .videoQueue :: rest => { s with channel := rest, hand := .token }
      | .reset :: rest => { s with channel := rest }
  | .token =>
      match s.videoQueue with
      | [] => { s with hand := .none }
      | frame :: rest => { s with videoQueue := rest, hand := .popped frame }
  | .popped frame =>
      if s.discardQueue then { s with hand := .none }
      else { s with hand := .none, decoded := s.decoded ++ [frame] }
  | .key frame =>
      { s with hand := .none, discardQueue := false, decoded := s.decoded ++ [frame] }

/-- The loop of the client handles nothing else between a push and the token. -/
def step (s : State Frame) : Event Frame → State Frame
  | .key frame =>
      if s.tokenDue then s
      else
        { s with received := s.received ++ [frame], channel := s.channel ++ [.videoFrame frame] }
  | .delta frame => if s.tokenDue then s else s.pushDelta frame
  | .sendToken =>
      if s.tokenDue then { s with channel := s.channel ++ [.videoQueue], tokenDue := false } else s
  | .refreshVideo => if s.tokenDue then s else { s with discardQueue := true }
  | .resetDecoder => if s.tokenDue then s else { s with channel := s.channel ++ [.reset] }
  | .thread => s.goOn

end State

section Media

/-- The frames that come of what is in the channel and in the queue. -/
def expand : List (MediaData Frame) → List Frame → List Frame
  | [], _ => []
  | .videoFrame frame :: rest, queue => frame :: expand rest queue
  | .videoQueue :: rest, [] => expand rest []
  | .videoQueue :: rest, frame :: queue => frame :: expand rest queue
  | .reset :: rest, queue => expand rest queue

def tokens : List (MediaData Frame) → Nat
  | [] => 0
  | .videoQueue :: rest => tokens rest + 1
  | _ :: rest => tokens rest

def keys : List (MediaData Frame) → List Frame
  | [] => []
  | .videoFrame frame :: rest => frame :: keys rest
  | _ :: rest => keys rest

/-- No token stands before a key frame. -/
def KeysFirst : List (MediaData Frame) → Prop
  | [] => True
  | .videoQueue :: rest => keys rest = []
  | _ :: rest => KeysFirst rest

instance KeysFirst.decidable [DecidableEq Frame] :
    ∀ media : List (MediaData Frame), Decidable (KeysFirst media)
  | [] => .isTrue trivial
  | .videoQueue :: rest => inferInstanceAs (Decidable (keys rest = []))
  | .videoFrame _ :: rest => KeysFirst.decidable rest
  | .reset :: rest => KeysFirst.decidable rest

@[simp] theorem tokens_append (first second : List (MediaData Frame)) :
    tokens (first ++ second) = tokens first + tokens second := by
  induction first with
  | nil => simp [tokens]
  | cons media rest ih => cases media <;> simp [tokens, ih]; omega

/-- With a frame in the queue for each token, what comes later comes of what is sent later. -/
theorem expand_append {first : List (MediaData Frame)} {queue : List Frame}
    (hTokens : tokens first = queue.length) (second : List (MediaData Frame)) (more : List Frame) :
    expand (first ++ second) (queue ++ more) = expand first queue ++ expand second more := by
  induction first generalizing queue with
  | nil =>
      obtain rfl := List.length_eq_zero_iff.mp hTokens.symm
      rfl
  | cons media rest ih =>
      cases media with
      | videoFrame frame => simpa [expand] using ih hTokens
      | reset => exact ih hTokens
      | videoQueue =>
          cases queue with
          | nil => simp [tokens] at hTokens
          | cons frame queue => simpa [expand] using ih (Nat.succ.inj hTokens)

theorem expand_of_no_keys {media : List (MediaData Frame)} {queue : List Frame}
    (hNone : keys media = []) (hTokens : tokens media = queue.length) : expand media queue = queue := by
  induction media generalizing queue with
  | nil => exact (List.length_eq_zero_iff.mp hTokens.symm).symm
  | cons first rest ih =>
      cases first with
      | videoFrame frame => simp [keys] at hNone
      | reset => exact ih hNone hTokens
      | videoQueue =>
          cases queue with
          | nil => simp [tokens] at hTokens
          | cons frame queue => rw [expand, ih hNone (Nat.succ.inj hTokens)]

/-- Behind the key frames the queue comes as it is. -/
theorem expand_of_keysFirst {media : List (MediaData Frame)} {queue : List Frame}
    (hFirst : KeysFirst media) (hTokens : tokens media = queue.length) :
    expand media queue = keys media ++ queue := by
  induction media with
  | nil =>
      obtain rfl := List.length_eq_zero_iff.mp hTokens.symm
      rfl
  | cons first rest ih =>
      cases first with
      | videoFrame frame => exact congrArg (frame :: ·) (ih hFirst hTokens)
      | reset => exact ih hFirst hTokens
      | videoQueue =>
          have hNone : keys (.videoQueue :: rest) = [] := hFirst
          rw [expand_of_no_keys hNone hTokens, hNone, List.nil_append]

end Media

namespace State

/-- The frames that have been handed to the decoder came in this order. -/
def InOrder (s : State Frame) : Prop := s.decoded.Sublist s.received

instance [DecidableEq Frame] (s : State Frame) : Decidable s.InOrder :=
  inferInstanceAs (Decidable (List.Sublist _ _))

/-- The token in the hands of the thread, what is in the channel, and the token due. -/
def media (s : State Frame) : List (MediaData Frame) :=
  (match s.hand with
    | .token => [.videoQueue]
    | _ => []) ++ s.channel ++ if s.tokenDue then [.videoQueue] else []

/-- The frame in the hands of the thread. -/
def held (s : State Frame) : List Frame :=
  match s.hand with
  | .popped frame | .key frame => [frame]
  | _ => []

/-- A frame pushes out another one only while no token stands before a key frame. -/
def NoOvertaking (s : State Frame) : Event Frame → Prop
  | .delta _ => s.tokenDue = false → videoQueueSize ≤ s.videoQueue.length → KeysFirst s.media
  | _ => True

instance [DecidableEq Frame] (s : State Frame) : ∀ event, Decidable (s.NoOvertaking event)
  | .delta _ => inferInstanceAs (Decidable (_ → _ → _))
  | .key _ | .sendToken | .refreshVideo | .resetDecoder | .thread => .isTrue trivial

/-- There is a frame for each token, and all frames to come are in the order received. -/
structure Aligned (s : State Frame) : Prop where
  tokens : tokens s.media = s.videoQueue.length
  order : (s.decoded ++ s.held ++ expand s.media s.videoQueue).Sublist s.received

theorem aligned_start : (start : State Frame).Aligned := ⟨rfl, List.Sublist.refl _⟩

section Steps
variable {s : State Frame}

theorem Aligned.inOrder (hAligned : s.Aligned) : s.InOrder :=
  ((List.sublist_append_left _ _).trans (List.sublist_append_left _ _)).trans hAligned.order

theorem Aligned.receive (hAligned : s.Aligned) (frame : Frame) {t : State Frame}
    {later : List (MediaData Frame)} {more : List Frame} (hMedia : t.media = s.media ++ later)
    (hQueue : t.videoQueue = s.videoQueue ++ more) (hTokens : Video.tokens later = more.length)
    (hExpand : expand later more = [frame]) (hHeld : t.held = s.held) (hDecoded : t.decoded = s.decoded)
    (hReceived : t.received = s.received ++ [frame]) : t.Aligned where
  tokens := by rw [hMedia, hQueue, tokens_append, List.length_append, hAligned.tokens, hTokens]
  order := by
    rw [hMedia, hQueue, expand_append hAligned.tokens, hExpand, hHeld, hDecoded, hReceived,
      ← List.append_assoc]
    exact hAligned.order.append_right [frame]

theorem Aligned.pushDelta (hAligned : s.Aligned) (hNotDue : s.tokenDue = false) (frame : Frame)
    (hFirst : videoQueueSize ≤ s.videoQueue.length → KeysFirst s.media) :
    (s.pushDelta frame).Aligned := by
  unfold State.pushDelta
  dsimp only
  split
  · refine hAligned.receive frame (?_ : _ = s.media ++ [.videoQueue])
      (rfl : _ = s.videoQueue ++ [frame]) rfl rfl rfl rfl rfl
    simp [media, hNotDue]
  · rename_i hFull
    have hKeys := hFirst (Nat.le_of_not_lt hFull)
    have hSome : s.videoQueue ≠ [] := by
      intro hNil
      simp [hNil, videoQueueSize] at hFull
    have hLength : (s.videoQueue.tail ++ [frame]).length = s.videoQueue.length := by
      have hPos := List.length_pos_of_ne_nil hSome
      simp only [List.length_append, List.length_tail, List.length_singleton]
      omega
    refine ⟨hAligned.tokens.trans hLength.symm, ?_⟩
    have hOrder := hAligned.order
    rw [expand_of_keysFirst hKeys hAligned.tokens] at hOrder
    change (s.decoded ++ s.held ++ expand s.media (s.videoQueue.tail ++ [frame])).Sublist
      (s.received ++ [frame])
    rw [expand_of_keysFirst hKeys (hAligned.tokens.trans hLength.symm), ← List.append_assoc,
      ← List.append_assoc]
    refine List.Sublist.append_right (List.Sublist.trans ?_ hOrder) [frame]
    rw [← List.append_assoc]
    exact (List.tail_sublist s.videoQueue).append_left _

/-- The thread takes from the channel what comes first, and drops nothing but frames. -/
theorem Aligned.goOn (hAligned : s.Aligned) : s.goOn.Aligned := by
  obtain ⟨hTokens, hOrder⟩ := hAligned
  unfold State.goOn
  cases hHand : s.hand with
  | none =>
      cases hChannel : s.channel with
      | nil => exact ⟨hTokens, hOrder⟩
      | cons first rest =>
          cases first with
          | videoFrame frame =>
              simp only [media, held, hHand, hChannel, List.nil_append, List.cons_append,
                Video.tokens, expand, List.append_nil] at hTokens hOrder
              exact ⟨hTokens, by simpa [media, held] using hOrder⟩
          | videoQueue =>
              simp only [media, held, hHand, hChannel, List.nil_append] at hTokens hOrder
              exact ⟨hTokens, hOrder⟩
          | reset =>
              simp only [media, held, hHand, hChannel, List.nil_append, List.cons_append,
                Video.tokens, expand] at hTokens hOrder
              exact ⟨by simpa [media, hHand] using hTokens, by simpa [media, held, hHand] using hOrder⟩
  | token =>
      cases hQueue : s.videoQueue with
      | nil =>
          simp [media, hHand, hQueue, Video.tokens] at hTokens
      | cons frame rest =>
          simp only [media, held, hHand, hQueue, List.cons_append, List.nil_append, Video.tokens,
            expand, List.length_cons, List.append_nil] at hTokens hOrder
          exact ⟨Nat.succ.inj hTokens, by simpa [media, held] using hOrder⟩
  | popped frame =>
      simp only [media, held, hHand, List.nil_append] at hTokens hOrder
      dsimp only
      split
      · refine ⟨hTokens, List.Sublist.trans ?_ hOrder⟩
        simp [media, held]
      · exact ⟨hTokens, by simpa [media, held] using hOrder⟩
  | key frame =>
      simp only [media, held, hHand, List.nil_append] at hTokens hOrder
      exact ⟨hTokens, by simpa [media, held] using hOrder⟩

theorem Aligned.step (hAligned : s.Aligned) (event : Event Frame) (hNo : s.NoOvertaking event) :
    (s.step event).Aligned := by
  cases event with
  | key frame =>
      rw [State.step]
      split
      · exact hAligned
      · rename_i hDue
        refine hAligned.receive frame (?_ : _ = s.media ++ [.videoFrame frame])
          (List.append_nil _).symm rfl rfl rfl rfl rfl
        simp [media, hDue]
  | delta frame =>
      rw [State.step]
      split
      · exact hAligned
      · rename_i hDue
        have hNotDue : s.tokenDue = false := by simpa using hDue
        exact hAligned.pushDelta hNotDue frame (hNo hNotDue)
  | sendToken =>
      rw [State.step]
      split
      · rename_i hDue
        have hMedia : ({ s with channel := s.channel ++ [.videoQueue], tokenDue := false } :
            State Frame).media = s.media := by
          simp [media, hDue]
        exact ⟨by rw [hMedia]; exact hAligned.tokens, by rw [hMedia]; exact hAligned.order⟩
      · exact hAligned
  | refreshVideo =>
      rw [State.step]
      split
      · exact hAligned
      · exact ⟨hAligned.tokens, hAligned.order⟩
  | resetDecoder =>
      rw [State.step]
      split
      · exact hAligned
      · rename_i hDue
        have hMedia : ({ s with channel := s.channel ++ [.reset] } : State Frame).media =
            s.media ++ [.reset] := by
          simp [media, hDue]
        refine ⟨by rw [hMedia, tokens_append, hAligned.tokens]; rfl, ?_⟩
        have hSame := expand_append hAligned.tokens [.reset] []
        rw [List.append_nil] at hSame
        rw [hMedia, hSame]
        simpa [expand, held] using hAligned.order
  | thread => exact hAligned.goOn

end Steps

/-- In a run in which no frame is pushed out while a token stands before a key frame, the
decoder gets the frames in the order in which they were received. -/
theorem inOrder_of_noOvertaking {events : List (Event Frame)}
    (hRun : Trace.Always step NoOvertaking start events) :
    ∀ past, past <+: events → (Trace.run step start past).InOrder := by
  rintro past ⟨rest, rfl⟩
  have hPast := ((Trace.always_append step _ past rest).mp hRun).1
  exact (Trace.invariant_of_always step Aligned (fun _ event hNo hAligned => hAligned.step event hNo)
    aligned_start hPast).inOrder

/-- While the thread is behind, two frames more come than the queue holds, and then a key frame. -/
def overflowing : List (Event Nat) :=
  (List.range videoQueueSize).flatMap (fun i => [.delta i, .sendToken]) ++
    [.delta 120, .delta 121, .key 122] ++ List.replicate (3 * videoQueueSize + 2) .thread

theorem overflowing_inOrder : (Trace.run step start overflowing).InOrder :=
  inOrder_of_noOvertaking (by decide +kernel) overflowing List.prefix_rfl

/-- While the thread is behind, the queue gets full, a key frame comes, and then one frame
more than the queue holds. -/
def overtaken : List (Event Nat) :=
  (List.range videoQueueSize).flatMap (fun i => [.delta i, .sendToken]) ++ [.key 120, .delta 121] ++
    List.replicate (3 * videoQueueSize + 2) .thread

/-- The last frame is decoded before the key frame that was received before it. -/
theorem overtaken_not_inOrder : ¬ (Trace.run step start overtaken).InOrder := by
  decide +kernel

end State

end HibtDesk.Video
