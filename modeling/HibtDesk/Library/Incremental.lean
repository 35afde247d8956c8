import Mathlib.Data.List.Induction

/-! Decoders that are handed a byte stream in pieces. A call looks at the bytes
buffered so far and either takes an item from their front, asks for more, or
refuses. If the answer of a call does not depend on bytes that are still to
come, the items do not depend on how the stream was cut. -/
namespace Incremental

variable {Byte State Item Error : Type*}

/-- What one call returns, with the state and the buffer it leaves. -/
abbrev Call (Byte State Item Error : Type*) := Except Error (Option Item) × State × List Byte

/-- A decoder whose answers are settled by the bytes at the front of the buffer. -/
structure Decoder (Byte State Item Error : Type*) where
  decode : State → List Byte → Call Byte State Item Error
  /-- Bounds the number of items that can follow. -/
  weight : State → List Byte → Nat
  weight_item : ∀ {state buffer item after rest},
    decode state buffer = (.ok (some item), after, rest) → weight after rest < weight state buffer
  item_append : ∀ {state buffer item after rest},
    decode state buffer = (.ok (some item), after, rest) →
      ∀ more, decode state (buffer ++ more) = (.ok (some item), after, rest ++ more)
  wait_append : ∀ {state buffer after rest},
    decode state buffer = (.ok none, after, rest) →
      ∀ more, decode state (buffer ++ more) = decode after (rest ++ more)
  fail_append : ∀ {state buffer error after rest},
    decode state buffer = (.error error, after, rest) →
      ∀ more, decode state (buffer ++ more) = (.error error, state, buffer ++ more)

/-- What is known after a row of calls: the items, a refusal if the last call
was one, the state and the buffer. -/
structure Drained (Byte State Item Error : Type*) where
  items : List Item
  refused : Option Error
  state : State
  rest : List Byte

namespace Decoder
variable (decoder : Decoder Byte State Item Error)

/-- Call the decoder until it asks for more or refuses. -/
def drain (state : State) (buffer : List Byte) : Drained Byte State Item Error :=
  match _hCall : decoder.decode state buffer with
  | (.ok (some item), after, rest) =>
      let later := drain after rest
      { later with items := item :: later.items }
  | (.ok none, after, rest) => ⟨[], none, after, rest⟩
  | (.error error, after, rest) => ⟨[], some error, after, rest⟩
termination_by decoder.weight state buffer
decreasing_by exact decoder.weight_item _hCall

/-- Buffer the chunks one after another, calling the decoder after each. -/
def feed (start : Drained Byte State Item Error) (chunks : List (List Byte)) :
    Drained Byte State Item Error :=
  chunks.foldl (fun now chunk =>
    let next := decoder.drain now.state (now.rest ++ chunk)
    { next with items := now.items ++ next.items }) start

variable {decoder}

theorem drain_of_item {state after : State} {buffer rest : List Byte} {item : Item}
    (hCall : decoder.decode state buffer = (.ok (some item), after, rest)) :
    decoder.drain state buffer =
      { decoder.drain after rest with items := item :: (decoder.drain after rest).items } := by
  rw [drain.eq_def]
  split <;> simp_all

theorem drain_of_wait {state after : State} {buffer rest : List Byte}
    (hCall : decoder.decode state buffer = (.ok none, after, rest)) :
    decoder.drain state buffer = ⟨[], none, after, rest⟩ := by
  rw [drain.eq_def]
  split <;> simp_all

theorem drain_of_fail {state after : State} {buffer rest : List Byte} {error : Error}
    (hCall : decoder.decode state buffer = (.error error, after, rest)) :
    decoder.drain state buffer = ⟨[], some error, after, rest⟩ := by
  rw [drain.eq_def]
  split <;> simp_all

/-- A refusal leaves the state and the buffer as they were. -/
theorem fail_unchanged {state after : State} {buffer rest : List Byte} {error : Error}
    (hCall : decoder.decode state buffer = (.error error, after, rest)) :
    after = state ∧ rest = buffer := by
  have hAgain := decoder.fail_append hCall []
  rw [List.append_nil, hCall] at hAgain
  simp only [Prod.mk.injEq, true_and] at hAgain
  exact hAgain

/-- Two calls in a row with nothing new in between ask for more twice. -/
theorem drain_append_of_wait {state after : State} {buffer rest : List Byte}
    (hCall : decoder.decode state buffer = (.ok none, after, rest)) (more : List Byte) :
    decoder.drain state (buffer ++ more) = decoder.drain after (rest ++ more) := by
  have hSame := decoder.wait_append hCall more
  rw [drain.eq_def, drain.eq_def decoder after, hSame]

/-- Draining in two goes gives the items of one go. -/
theorem drain_append (state : State) (buffer more : List Byte) :
    decoder.drain state (buffer ++ more) =
      let first := decoder.drain state buffer
      let second := decoder.drain first.state (first.rest ++ more)
      { second with items := first.items ++ second.items } := by
  fun_induction drain decoder state buffer with
  | case1 state buffer item after rest hCall later ih =>
      rw [drain_of_item (decoder.item_append hCall more), ih]
      rfl
  | case2 state buffer after rest hCall =>
      rw [drain_append_of_wait hCall]
      rfl
  | case3 state buffer error after rest hCall =>
      obtain ⟨rfl, rfl⟩ := fail_unchanged hCall
      rfl

/-- However the stream is cut, the decoder ends where one go over it ends. -/
theorem feed_eq_drain (start : Drained Byte State Item Error) (chunk : List Byte)
    (chunks : List (List Byte)) :
    decoder.feed start (chunk :: chunks) =
      let whole := decoder.drain start.state (start.rest ++ (chunk :: chunks).flatten)
      { whole with items := start.items ++ whole.items } := by
  induction chunks using List.reverseRecOn with
  | nil => simp [feed]
  | append_singleton chunks last ih =>
      have hLast : decoder.feed start (chunk :: (chunks ++ [last])) =
          let now := decoder.feed start (chunk :: chunks)
          let next := decoder.drain now.state (now.rest ++ last)
          { next with items := now.items ++ next.items } := by
        unfold feed
        rw [← List.cons_append, List.foldl_append]
        rfl
      rw [hLast, ih, ← List.cons_append, List.flatten_append, List.flatten_singleton,
        ← List.append_assoc, drain_append start.state (start.rest ++ (chunk :: chunks).flatten) last]
      simp only [List.append_assoc]

/-- Once the decoder has refused, further chunks only pile up in its buffer. -/
theorem feed_of_fail {start : Drained Byte State Item Error} {error : Error} {after : State}
    {rest : List Byte} (hRefused : start.refused = some error)
    (hCall : decoder.decode start.state start.rest = (.error error, after, rest))
    (chunks : List (List Byte)) :
    decoder.feed start chunks = { start with rest := start.rest ++ chunks.flatten } := by
  cases chunks with
  | nil => simp [feed]
  | cons chunk chunks =>
      rw [feed_eq_drain, drain_of_fail (decoder.fail_append hCall _), ← hRefused]
      simp

/-- A refusal at the end of a row of calls is one the next call repeats. -/
theorem decode_of_drain_refused {state : State} {buffer : List Byte} {error : Error}
    (hRefused : (decoder.drain state buffer).refused = some error) :
    decoder.decode (decoder.drain state buffer).state (decoder.drain state buffer).rest =
      (.error error, (decoder.drain state buffer).state, (decoder.drain state buffer).rest) := by
  fun_induction drain decoder state buffer with
  | case1 state buffer item after rest hCall later ih => exact ih hRefused
  | case2 state buffer after rest hCall => cases hRefused
  | case3 state buffer failure after rest hCall =>
      obtain ⟨rfl, rfl⟩ := fail_unchanged hCall
      rw [hCall, Option.some.inj hRefused]

end Decoder

end Incremental
