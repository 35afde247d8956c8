import Mathlib.Data.List.Nodup
import HibtDesk.Network.Encrypt

/-! The nonces of a secured session. Each end numbers its own messages from one,
and the number is all the nonce holds, so the two ends use the same nonces. -/
namespace HibtDesk

inductive Side where
  | client | server
  deriving DecidableEq, Repr

def Side.other : Side → Side
  | client => server
  | server => client

/-- One end of a session, over either transport. -/
inductive Endpoint where
  | tcp (stream : FramedStream)
  | webSocket (stream : WsFramedStream)
  deriving DecidableEq, Repr

namespace Endpoint

def encrypt : Endpoint → Option Encrypt
  | tcp stream => stream.encrypt
  | webSocket stream => stream.encrypt

/-- `Stream::set_key`. -/
def setKey (key : Bytes) : Endpoint → Endpoint
  | tcp stream => tcp (stream.setKey key)
  | webSocket stream => webSocket (stream.setKey key)

/-- `Stream::send_raw`, of which only the end's own state is kept. -/
def sendRaw (box : Secretbox) (msg : Bytes) : Endpoint → Endpoint
  | tcp stream => tcp (stream.sendRaw box msg).2.1
  | webSocket stream => webSocket (stream.sendRaw box msg).1

end Endpoint

structure SecureSession where
  client : Endpoint
  server : Endpoint
  deriving DecidableEq, Repr

namespace SecureSession

def endpoint (session : SecureSession) : Side → Endpoint
  | .client => session.client
  | .server => session.server

def sendRaw (box : Secretbox) (session : SecureSession) (side : Side) (msg : Bytes) : SecureSession :=
  match side with
  | .client => { session with client := session.client.sendRaw box msg }
  | .server => { session with server := session.server.sendRaw box msg }

/-- Both ends install the key they agreed on. -/
def secure (session : SecureSession) (key : Bytes) : SecureSession :=
  { client := session.client.setKey key, server := session.server.setKey key }

/-- The calls of `enc` a row of sends makes: the end and the nonce of each. -/
def encCalls (box : Secretbox) : SecureSession → List (Side × Bytes) → List (Side × Bytes)
  | _, [] => []
  | session, (side, msg) :: sends =>
      ((session.endpoint side).encrypt.map fun key => (side, key.encNonce)).toList ++
        encCalls box (session.sendRaw box side msg) sends

section Counters
variable (box : Secretbox)

/-- The number of messages an end has sealed under its key. -/
def sealed (session : SecureSession) (side : Side) : Option UInt64 :=
  (session.endpoint side).encrypt.map Encrypt.sealed

theorem encrypt_sendRaw (endpoint : Endpoint) (msg : Bytes) :
    (endpoint.sendRaw box msg).encrypt = (sealMessage box endpoint.encrypt msg).1 := by
  cases endpoint <;> rfl

theorem sealed_sendRaw_self (session : SecureSession) (side : Side) (msg : Bytes) :
    (session.sendRaw box side msg).sealed side = (session.sealed side).map (· + 1) := by
  have hEnd : (session.sendRaw box side msg).endpoint side =
      (session.endpoint side).sendRaw box msg := by
    cases side <;> rfl
  unfold sealed
  rw [hEnd, encrypt_sendRaw]
  cases (session.endpoint side).encrypt <;> rfl

theorem sealed_sendRaw_other (session : SecureSession) {side other : Side} (hOther : other ≠ side)
    (msg : Bytes) : (session.sendRaw box side msg).sealed other = session.sealed other := by
  cases side <;> cases other <;> first | rfl | exact absurd rfl hOther

/-- The nonces of one end count up from where it stands. -/
theorem encCalls_of_side {session : SecureSession} {side : Side} {count : UInt64}
    (hSealed : session.sealed side = some count) (sends : List (Side × Bytes)) :
    ((encCalls box session sends).filter (·.1 = side)).map Prod.snd =
      (List.range (sends.countP (·.1 = side))).map fun i => getNonce (count + 1 + UInt64.ofNat i) := by
  induction sends generalizing session count with
  | nil => rfl
  | cons send sends ih =>
      obtain ⟨sender, msg⟩ := send
      by_cases hSide : sender = side
      · subst hSide
        have hNext : (session.sendRaw box sender msg).sealed sender = some (count + 1) := by
          rw [sealed_sendRaw_self, hSealed]
          rfl
        obtain ⟨key, hKey, hCount⟩ := Option.map_eq_some_iff.mp hSealed
        have hNonce : key.encNonce = getNonce (count + 1) := by
          unfold Encrypt.encNonce
          rw [hCount]
        simp only [encCalls, hKey, Option.map_some, Option.toList_some, List.cons_append,
          List.nil_append, List.filter_cons, decide_true, if_true, List.map_cons, ih hNext,
          List.countP_cons_of_pos, List.range_succ_eq_map, List.map_map, hNonce]
        congr 1
        · simp
        · refine List.map_congr_left fun i _ => ?_
          have hStep : count + 1 + 1 + UInt64.ofNat i = count + 1 + UInt64.ofNat (i + 1) := by
            rw [UInt64.ofNat_add, UInt64.add_comm (UInt64.ofNat i), ← UInt64.add_assoc]
            rfl
          exact congrArg getNonce hStep
      · have hNext : (session.sendRaw box sender msg).sealed side = some count := by
          rw [sealed_sendRaw_other box session (Ne.symm hSide), hSealed]
        have hHead : (((session.endpoint sender).encrypt.map
            fun key => (sender, key.encNonce)).toList).filter (·.1 = side) = [] := by
          cases (session.endpoint sender).encrypt <;> simp [hSide]
        simp only [encCalls, List.filter_append, hHead, List.nil_append, ih hNext]
        rw [List.countP_cons_of_neg (by simpa using hSide)]

end Counters

section Unique

theorem getNonce_injective {m n : UInt64} (hSame : getNonce m = getNonce n) : m = n := by
  have hBytes := List.append_inj_left hSame (by simp)
  exact UInt64.toNat_inj.mp
    (BytesCodec.putLe_injective 8 (UInt64.toNat_lt m) (UInt64.toNat_lt n) hBytes)

/-- The first `count` nonces of an end are distinct as long as its counter has
not come round. -/
theorem nodup_nonces (count : Nat) :
    ((List.range count).map fun i => getNonce (0 + 1 + UInt64.ofNat i)).Nodup ↔
      count ≤ 2 ^ 64 := by
  constructor
  · intro hNodup
    by_contra hMany
    have hFirst : 0 < count := by omega
    have hWrap : 2 ^ 64 < count := by omega
    have hSame := (List.nodup_map_iff_inj_on List.nodup_range).mp hNodup 0
      (List.mem_range.mpr hFirst) (2 ^ 64) (List.mem_range.mpr hWrap) rfl
    omega
  · intro hFew
    refine (List.nodup_map_iff_inj_on List.nodup_range).mpr ?_
    intro i hi j hj hSame
    have hNumber := congrArg UInt64.toNat (getNonce_injective hSame)
    simp only [UInt64.toNat_add, UInt64.toNat_ofNat'] at hNumber
    rw [List.mem_range] at hi hj
    have hOne : (1 : UInt64).toNat = 1 := rfl
    have hZero : (0 : UInt64).toNat = 0 := rfl
    rw [hOne, hZero] at hNumber
    omega

theorem mem_sends_of_mem_encCalls (box : Secretbox) {session : SecureSession}
    {sends : List (Side × Bytes)} {call : Side × Bytes} (hCall : call ∈ encCalls box session sends) :
    ∃ send ∈ sends, send.1 = call.1 := by
  induction sends generalizing session with
  | nil => simp [encCalls] at hCall
  | cons send sends ih =>
      obtain ⟨sender, msg⟩ := send
      rcases List.mem_append.mp hCall with hHere | hLater
      · obtain ⟨key, -, rfl⟩ := Option.map_eq_some_iff.mp (Option.mem_toList.mp hHere)
        exact ⟨(sender, msg), List.mem_cons_self .., rfl⟩
      · obtain ⟨send, hSend, hSide⟩ := ih hLater
        exact ⟨send, List.mem_cons_of_mem _ hSend, hSide⟩

theorem sealed_secure (session : SecureSession) (key : Bytes) (side : Side) :
    (session.secure key).sealed side = some 0 := by
  obtain ⟨client, server⟩ := session
  cases side
  · cases client <;> rfl
  · cases server <;> rfl

/-- The first message of either end is sealed under nonce one. -/
theorem first_call (box : Secretbox) (session : SecureSession) (key : Bytes)
    {sends : List (Side × Bytes)} {send : Side × Bytes} (hSend : send ∈ sends) :
    (send.1, getNonce 1) ∈ encCalls box (session.secure key) sends := by
  have hNonces := encCalls_of_side box (sealed_secure session key send.1) sends
  have hSome : 0 < sends.countP (·.1 = send.1) :=
    List.countP_pos_iff.mpr ⟨send, hSend, by simp⟩
  have hFirst : getNonce 1 ∈
      ((encCalls box (session.secure key) sends).filter (·.1 = send.1)).map Prod.snd := by
    rw [hNonces]
    exact List.mem_map.mpr ⟨0, List.mem_range.mpr hSome, rfl⟩
  obtain ⟨call, hCall, hNonce⟩ := List.mem_map.mp hFirst
  obtain ⟨hMem, hSide⟩ := List.mem_filter.mp hCall
  have hPair : call = (send.1, getNonce 1) := Prod.ext (by simpa using hSide) hNonce
  exact hPair ▸ hMem

/-- If one end does all the sending, its nonces are all there are. -/
theorem encCalls_of_single (box : Secretbox) (session : SecureSession) (key : Bytes)
    {sends : List (Side × Bytes)} {side : Side} (hSingle : ∀ send ∈ sends, send.1 = side) :
    (encCalls box (session.secure key) sends).map Prod.snd =
      (List.range sends.length).map fun i => getNonce (0 + 1 + UInt64.ofNat i) := by
  have hAll : (encCalls box (session.secure key) sends).filter (·.1 = side) =
      encCalls box (session.secure key) sends := by
    rw [List.filter_eq_self]
    intro call hCall
    obtain ⟨send, hSend, hSide⟩ := mem_sends_of_mem_encCalls box hCall
    simpa [← hSide] using hSingle send hSend
  have hCount : sends.countP (·.1 = side) = sends.length := by
    rw [List.countP_eq_length]
    intro send hSend
    simpa using hSingle send hSend
  rw [← hAll, encCalls_of_side box (sealed_secure session key side), hCount]

/-- No nonce is used twice exactly in the sessions in which one end does all the
sending and its counter does not come round. -/
theorem encCalls_nodup_iff (box : Secretbox) (session : SecureSession) (key : Bytes)
    (sends : List (Side × Bytes)) :
    ((encCalls box (session.secure key) sends).map Prod.snd).Nodup ↔
      ∃ side, (∀ send ∈ sends, send.1 = side) ∧ sends.length ≤ 2 ^ 64 := by
  constructor
  · intro hNodup
    have hSingle : ∃ side, ∀ send ∈ sends, send.1 = side := by
      cases sends with
      | nil => exact ⟨.client, by simp⟩
      | cons first sends =>
          refine ⟨first.1, fun send hSend => ?_⟩
          have hCall := first_call box session key hSend
          have hFirst := first_call box session key (List.mem_cons_self (a := first) (l := sends))
          exact (Prod.mk.inj (List.inj_on_of_nodup_map hNodup hCall hFirst rfl)).1
    obtain ⟨side, hSide⟩ := hSingle
    rw [encCalls_of_single box session key hSide, nodup_nonces] at hNodup
    exact ⟨side, hSide, hNodup⟩
  · rintro ⟨side, hSide, hFew⟩
    rw [encCalls_of_single box session key hSide, nodup_nonces]
    exact hFew

/-- One message each way, and the two share a nonce. -/
theorem encCalls_both_ways :
    ¬ ((encCalls .marking
      (secure ⟨.tcp .ofSocket, .tcp .ofSocket⟩ (List.replicate 32 7))
      [(.client, [1]), (.server, [2])]).map Prod.snd).Nodup := by
  decide

end Unique

end SecureSession

end HibtDesk
