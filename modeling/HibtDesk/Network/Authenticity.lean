import HibtDesk.Library.Trace
import HibtDesk.Network.Nonces

/-! A secured stream against a network that hands an end whatever frames it
likes. The secretbox is ideal: a frame is opened exactly if one of the ends
sealed it under the nonce in use. -/
namespace HibtDesk

/-- One end as the network sees it: its key and counters, the messages it has
sealed, and what `dec` said of each frame longer than one byte. -/
structure Sealer where
  encrypt : Encrypt
  sealed : List Bytes
  outcomes : List (Except IoError Bytes)

abbrev Ends := Side → Sealer

inductive SealEvent where
  | enc (side : Side) (msg : Bytes)
  | dec (side : Side) (frame : Bytes)
  deriving DecidableEq, Repr

namespace Ends
variable (box : Secretbox)

/-- Both ends have just installed the key. -/
def start (key : Bytes) : Ends :=
  fun _ => { encrypt := .new key, sealed := [], outcomes := [] }

def step (ends : Ends) : SealEvent → Ends
  | .enc side msg =>
      let (encrypt, _) := (ends side).encrypt.enc box msg
      Function.update ends side
        { ends side with encrypt := encrypt, sealed := (ends side).sealed ++ [msg] }
  | .dec side frame =>
      let (result, encrypt) := (ends side).encrypt.dec box frame
      let outcomes :=
        if frame.length ≤ 1 then (ends side).outcomes else (ends side).outcomes ++ [result]
      Function.update ends side { ends side with encrypt := encrypt, outcomes := outcomes }

/-- The nonce of the `i`-th message an end seals, or frame it opens, counted
from zero. -/
def nonceAt (i : Nat) : Bytes := getNonce (UInt64.ofNat i + 1)

/-- The messages an end has sealed, each with its nonce and its ciphertext. -/
def sealedBy (key : Bytes) (ends : Ends) (side : Side) : List (Bytes × Bytes × Bytes) :=
  (ends side).sealed.mapIdx fun i msg => (nonceAt i, msg, box.sealBox msg (nonceAt i) key)

/-- What an ideal box finds in a frame: the plaintext of a ciphertext some end
has sealed under the nonce, and nothing else. -/
def idealOpen (key : Bytes) (ends : Ends) (frame nonce : Bytes) : Option Bytes :=
  ((ends.sealedBy box key .client ++ ends.sealedBy box key .server).find?
    fun call => call.1 = nonce ∧ call.2.2 = frame).map fun call => call.2.1

/-- The box is ideal on this step. -/
def Ideal (key : Bytes) (ends : Ends) : SealEvent → Prop
  | .enc _ _ => True
  | .dec side frame =>
      box.openBox frame (ends side).encrypt.decNonce key =
        ends.idealOpen box key frame (ends side).encrypt.decNonce

/-- Every frame an end accepted carries the message the other end sealed in
that position. -/
def Authentic (ends : Ends) : Prop :=
  ∀ (side : Side) (i : Nat) (plain : Bytes),
    (ends side).outcomes[i]? = some (.ok plain) → (ends side.other).sealed[i]? = some plain

/-- The step does not hand an end the frame it sealed itself in that position
(unless the other end sealed the same message there), and no counter has come
round. -/
def Unreflected (key : Bytes) (ends : Ends) : SealEvent → Prop
  | .enc _ _ => True
  | .dec side frame =>
      (ends side).outcomes.length < 2 ^ 64 ∧
        (∀ sealer, (ends sealer).sealed.length ≤ 2 ^ 64) ∧
        ∀ msg, (ends side).sealed[(ends side).outcomes.length]? = some msg →
          frame = box.sealBox msg (nonceAt (ends side).outcomes.length) key →
            (ends side.other).sealed[(ends side).outcomes.length]? = some msg

/-- The counters of an end are the lengths of its records. -/
structure Counted (key : Bytes) (ends : Ends) : Prop where
  key_eq : ∀ side, (ends side).encrypt.key = key
  sealed_eq : ∀ side, (ends side).encrypt.sealed = UInt64.ofNat (ends side).sealed.length
  opened_eq : ∀ side, (ends side).encrypt.opened = UInt64.ofNat (ends side).outcomes.length

variable {box} {key : Bytes} {ends : Ends}

theorem counted_start (key : Bytes) : Counted key (start key) :=
  ⟨fun _ => rfl, fun _ => rfl, fun _ => rfl⟩

theorem nonceAt_injective {i j : Nat} (hi : i < 2 ^ 64) (hj : j < 2 ^ 64)
    (hSame : nonceAt i = nonceAt j) : i = j := by
  have hNumber := congrArg UInt64.toNat (SecureSession.getNonce_injective hSame)
  have hOne : (1 : UInt64).toNat = 1 := rfl
  simp only [UInt64.toNat_add, UInt64.toNat_ofNat', hOne] at hNumber
  omega

/-- `dec` on a frame longer than a byte answers as the box does. -/
theorem dec_of_long {encrypt : Encrypt} {frame : Bytes} (hLong : 1 < frame.length) :
    encrypt.dec box frame =
      ((box.openBox frame encrypt.decNonce encrypt.key).elim (.error decryptionError) .ok,
        { encrypt with opened := encrypt.opened + 1 }) := by
  unfold Encrypt.dec
  rw [if_neg (Nat.not_le.mpr hLong)]
  cases box.openBox frame encrypt.decNonce encrypt.key <;> rfl

theorem dec_of_short {encrypt : Encrypt} {frame : Bytes} (hShort : frame.length ≤ 1) :
    encrypt.dec box frame = (.ok frame, encrypt) :=
  if_pos hShort

theorem step_of_short {side : Side} {frame : Bytes} (hShort : frame.length ≤ 1) :
    step box ends (.dec side frame) = ends := by
  simp only [step, dec_of_short hShort, if_pos hShort]
  exact Function.update_eq_self side ends

theorem Counted.step (hCounted : Counted key ends) (event : SealEvent) :
    Counted key (ends.step box event) := by
  cases event with
  | enc side msg =>
      refine ⟨fun other => ?_, fun other => ?_, fun other => ?_⟩
      · by_cases hOther : other = side
        · subst hOther
          simpa [Ends.step, Encrypt.enc] using hCounted.key_eq other
        · simpa [Ends.step, hOther] using hCounted.key_eq other
      · by_cases hOther : other = side
        · subst hOther
          simp [Ends.step, Encrypt.enc, hCounted.sealed_eq, UInt64.ofNat_add]
        · simpa [Ends.step, hOther] using hCounted.sealed_eq other
      · by_cases hOther : other = side
        · subst hOther
          simpa [Ends.step, Encrypt.enc] using hCounted.opened_eq other
        · simpa [Ends.step, hOther] using hCounted.opened_eq other
  | dec side frame =>
      by_cases hShort : frame.length ≤ 1
      · rw [step_of_short hShort]
        exact hCounted
      · have hLong : 1 < frame.length := Nat.lt_of_not_le hShort
        refine ⟨fun other => ?_, fun other => ?_, fun other => ?_⟩
        · by_cases hOther : other = side
          · subst hOther
            simpa [Ends.step, dec_of_long hLong] using hCounted.key_eq other
          · simpa [Ends.step, hOther] using hCounted.key_eq other
        · by_cases hOther : other = side
          · subst hOther
            simpa [Ends.step, dec_of_long hLong] using hCounted.sealed_eq other
          · simpa [Ends.step, hOther] using hCounted.sealed_eq other
        · by_cases hOther : other = side
          · subst hOther
            simp [Ends.step, dec_of_long hLong, hShort, hCounted.opened_eq, UInt64.ofNat_add]
          · simpa [Ends.step, hOther] using hCounted.opened_eq other

/-- What an ideal box opens was sealed by one of the ends under that nonce. -/
theorem idealOpen_eq_some {frame nonce plain : Bytes}
    (hOpen : ends.idealOpen box key frame nonce = some plain) :
    ∃ sealer i, (ends sealer).sealed[i]? = some plain ∧ nonceAt i = nonce ∧
      frame = box.sealBox plain nonce key := by
  obtain ⟨call, hFound, rfl⟩ := Option.map_eq_some_iff.mp hOpen
  have hMatch := List.find?_some hFound
  simp only [decide_eq_true_eq] at hMatch
  obtain ⟨hNonce, hFrame⟩ := hMatch
  have hSealed : ∃ sealer, call ∈ ends.sealedBy box key sealer := by
    rcases List.mem_append.mp (List.mem_of_find?_eq_some hFound) with hClient | hServer
    · exact ⟨.client, hClient⟩
    · exact ⟨.server, hServer⟩
  obtain ⟨sealer, hMem⟩ := hSealed
  obtain ⟨i, hi, rfl⟩ := List.mem_mapIdx.mp hMem
  refine ⟨sealer, i, ?_, hNonce, ?_⟩
  · exact List.getElem?_eq_getElem hi
  · rw [← hFrame, ← hNonce]

theorem step_enc (side reader : Side) (msg : Bytes) :
    (ends.step box (.enc side msg) reader).outcomes = (ends reader).outcomes ∧
      (ends reader).sealed <+: (ends.step box (.enc side msg) reader).sealed := by
  by_cases hReader : reader = side
  · subst hReader
    simp [step]
  · simp [step, hReader]

theorem step_dec_sealed (side reader : Side) (frame : Bytes) :
    (ends.step box (.dec side frame) reader).sealed = (ends reader).sealed := by
  by_cases hReader : reader = side
  · subst hReader
    simp [step]
  · simp [step, hReader]

theorem step_dec_outcomes {side : Side} {frame : Bytes} (hLong : 1 < frame.length) (reader : Side) :
    (ends.step box (.dec side frame) reader).outcomes =
      if reader = side then
        (ends side).outcomes ++
          [(box.openBox frame (ends side).encrypt.decNonce (ends side).encrypt.key).elim
            (.error decryptionError) .ok]
      else (ends reader).outcomes := by
  by_cases hReader : reader = side
  · subst hReader
    simp [step, dec_of_long hLong, Nat.not_le.mpr hLong]
  · simp [step, hReader]

/-- A frame that is opened and was not reflected is the other end's message in
that position. -/
theorem sealed_of_open (hCounted : Counted key ends) {side : Side} {frame plain : Bytes}
    (hIdeal : Ideal box key ends (.dec side frame))
    (hUnreflected : Unreflected box key ends (.dec side frame))
    (hOpen : box.openBox frame (ends side).encrypt.decNonce key = some plain) :
    (ends side.other).sealed[(ends side).outcomes.length]? = some plain := by
  obtain ⟨hFewOpened, hFewSealed, hOwn⟩ := hUnreflected
  have hNonce : (ends side).encrypt.decNonce = nonceAt (ends side).outcomes.length := by
    unfold Encrypt.decNonce nonceAt
    rw [hCounted.opened_eq]
  obtain ⟨sealer, i, hSealed, hSame, hFrame⟩ := idealOpen_eq_some (hIdeal.symm.trans hOpen)
  have hBound : i < (ends sealer).sealed.length := (List.getElem?_eq_some_iff.mp hSealed).1
  have hIndex : i = (ends side).outcomes.length :=
    nonceAt_injective (Nat.lt_of_lt_of_le hBound (hFewSealed sealer)) hFewOpened
      (hSame.trans hNonce)
  rw [hIndex] at hSealed
  by_cases hSealer : sealer = side
  · subst hSealer
    exact hOwn plain hSealed (hNonce ▸ hFrame)
  · have hOther : sealer = side.other := by
      cases sealer <;> cases side <;> first | rfl | exact absurd rfl hSealer
    rw [← hOther]
    exact hSealed

theorem Authentic.step (hCounted : Counted key ends) (hAuthentic : Authentic ends)
    {event : SealEvent} (hIdeal : Ideal box key ends event)
    (hUnreflected : Unreflected box key ends event) : Authentic (ends.step box event) := by
  intro reader i plain hAccepted
  cases event with
  | enc side msg =>
      rw [(step_enc side reader msg).1] at hAccepted
      obtain ⟨more, hMore⟩ := (step_enc side reader.other msg).2
      have hOld := hAuthentic reader i plain hAccepted
      rw [← hMore, List.getElem?_append_left (List.getElem?_eq_some_iff.mp hOld).1]
      exact hOld
  | dec side frame =>
      by_cases hShort : frame.length ≤ 1
      · rw [step_of_short hShort] at hAccepted ⊢
        exact hAuthentic reader i plain hAccepted
      · rw [step_dec_sealed]
        rw [step_dec_outcomes (Nat.lt_of_not_le hShort)] at hAccepted
        split_ifs at hAccepted with hReader
        · subst hReader
          rw [List.getElem?_append] at hAccepted
          split_ifs at hAccepted with hOld
          · exact hAuthentic reader i plain hAccepted
          · -- The outcome is the one this step adds.
            obtain ⟨hLast, hResult⟩ := List.getElem?_eq_some_iff.mp hAccepted
            have hIndex : i = (ends reader).outcomes.length := by
              simp only [List.length_singleton] at hLast
              omega
            have hOpen : box.openBox frame (ends reader).encrypt.decNonce key = some plain := by
              rw [List.getElem_singleton, hCounted.key_eq] at hResult
              cases hBox : box.openBox frame (ends reader).encrypt.decNonce key with
              | none => simp [hBox] at hResult
              | some opened =>
                  rw [hBox] at hResult
                  exact congrArg some (Except.ok.inj hResult)
            rw [hIndex]
            exact sealed_of_open hCounted hIdeal hUnreflected hOpen
        · exact hAuthentic reader i plain hAccepted

/-- Against an ideal box, in every run in which no end is handed its own frame
in its own position, whatever else the network does, each accepted frame
carries the message the other end sealed in that position. -/
theorem authentic_of_unreflected (box : Secretbox) (key : Bytes) (events : List SealEvent)
    (hIdeal : Trace.Always (step box) (Ideal box key) (start key) events)
    (hUnreflected : Trace.Always (step box) (Unreflected box key) (start key) events) :
    Authentic (Trace.run (step box) (start key) events) := by
  have hBoth : Trace.Always (step box)
      (fun ends event => Ideal box key ends event ∧ Unreflected box key ends event)
      (start key) events := Trace.Always.and (step box) hIdeal hUnreflected
  have hRun := Trace.invariant_of_always (step box)
    (fun ends => Counted key ends ∧ Authentic ends)
    (fun ends event hStep hInv =>
      ⟨hInv.1.step event, hInv.2.step hInv.1 hStep.1 hStep.2⟩)
    ⟨counted_start key, fun _ _ _ hNone => by simp [start] at hNone⟩ hBoth
  exact hRun.2

/-- The client seals a message and the server is handed it, after a frame the
network made up. -/
theorem authentic_of_delivery :
    Authentic (Trace.run (step .marking) (start (List.replicate 32 7))
      [.enc .client [5], .enc .client [6], .dec .server [1, 2, 3],
        .dec .server (Secretbox.marking.sealBox [6] (nonceAt 1) [])]) :=
  authentic_of_unreflected .marking (List.replicate 32 7) _
    ⟨trivial, trivial, by rfl, by rfl, trivial⟩
    ⟨trivial, trivial, ⟨by decide, fun sealer => by cases sealer <;> decide,
        fun msg hOwn => by simp [step, start] at hOwn⟩,
      ⟨by decide, fun sealer => by cases sealer <;> decide,
        fun msg hOwn => by simp [step, start] at hOwn⟩, trivial⟩

/-- The client seals a message and is handed its own frame back: it accepts it,
though the server has sealed nothing. -/
theorem reflected_frame_accepted :
    Trace.Always (step .marking) (Ideal .marking (List.replicate 32 7)) (start (List.replicate 32 7))
      [.enc .client [5], .dec .client (Secretbox.marking.sealBox [5] (nonceAt 0) [])] ∧
    ¬ Authentic (Trace.run (step .marking) (start (List.replicate 32 7))
      [.enc .client [5], .dec .client (Secretbox.marking.sealBox [5] (nonceAt 0) [])]) := by
  refine ⟨⟨trivial, by rfl, trivial⟩, fun hAuthentic => ?_⟩
  have hSealed := hAuthentic .client 0 [5] (by rfl)
  exact absurd hSealed (by decide)

end Ends

end HibtDesk
