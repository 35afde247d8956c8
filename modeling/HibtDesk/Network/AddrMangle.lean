import HibtDesk.Network.Framing

/-! Socket addresses as peers send them to one another. Some routers rewrite the
addresses of their own pool in the packets they pass on, so an IPv4 address is mangled
with the clock of the sender. -/
namespace HibtDesk

open BytesCodec (putLe leValue leValue_append leValue_zeros putLe_leValue)

structure Ipv4Addr where
  octets : Bytes
  sized : octets.length = 4
  deriving DecidableEq, Repr

def Ipv4Addr.new (a b c d : UInt8) : Ipv4Addr := ⟨[a, b, c, d], rfl⟩

theorem Ipv4Addr.new_octets : ∀ ip : Ipv4Addr,
    new (ip.octets.getD 0 0) (ip.octets.getD 1 0) (ip.octets.getD 2 0) (ip.octets.getD 3 0) = ip
  | ⟨[_, _, _, _], _⟩ => rfl

structure Ipv6Addr where
  octets : Bytes
  sized : octets.length = 16
  deriving DecidableEq, Repr

namespace Ipv6Addr

def unspecified : Ipv6Addr := ⟨List.replicate 16 0, rfl⟩

def isLoopback (ip : Ipv6Addr) : Bool := ip.octets = List.replicate 15 0 ++ [1]

/-- `Ipv6Addr::to_ipv4`, of the addresses `::a.b.c.d` and `::ffff:a.b.c.d`. -/
def toIpv4 (ip : Ipv6Addr) : Option Ipv4Addr :=
  let form := (ip.octets.drop 10).take 2
  if ip.octets.take 10 = List.replicate 10 0 ∧ (form = [0, 0] ∨ form = [0xFF, 0xFF]) then
    some ⟨ip.octets.drop 12, by rw [List.length_drop, ip.sized]⟩
  else none

end Ipv6Addr

inductive SocketAddr where
  | v4 (ip : Ipv4Addr) (port : UInt16)
  | v6 (ip : Ipv6Addr) (port : UInt16) (flowinfo scopeId : UInt32)
  deriving DecidableEq, Repr

namespace SocketAddr

/-- `SocketAddr::new` of an IPv6 address. -/
def newV6 (ip : Ipv6Addr) (port : UInt16) : SocketAddr := v6 ip port 0 0

def tryIntoV4 : SocketAddr → SocketAddr
  | v6 ip port flowinfo scopeId =>
      if ip.isLoopback then v6 ip port flowinfo scopeId
      else
        match ip.toIpv4 with
        | some ip => v4 ip port
        | none => v6 ip port flowinfo scopeId
  | addr => addr

/-- The address with the flow info and the scope zero. -/
def unscoped : SocketAddr → SocketAddr
  | v4 ip port => v4 ip port
  | v6 ip port _ _ => newV6 ip port

/-- `Config::get_any_listen_addr`, of IPv6. -/
def anyListenAddr : SocketAddr := newV6 Ipv6Addr.unspecified 0

end SocketAddr

namespace AddrMangle

open SocketAddr

/-- Where a build that checks its arithmetic stops. -/
inductive DecodeFault where
  | underflow | outOfRange
  deriving DecidableEq, Repr

/-- The sixteen bytes without the zeros at their end. -/
def stripPadding (bytes : Bytes) : Bytes :=
  let padding := (bytes.reverse.takeWhile (· == 0)).length
  bytes.take (16 - padding)

/-- The number an IPv4 address is mangled to at the time `tm`. -/
def mangled (tm : Nat) (ip : Ipv4Addr) (port : UInt16) : Nat :=
  ((leValue ip.octets + tm) <<< 49) ||| (tm <<< 17) ||| (port.toNat + (tm &&& 0xFFFF))

/-- `encode`, when the clock stands at `micros`. -/
def encode (micros : Nat) (addr : SocketAddr) : Bytes :=
  match addr.tryIntoV4 with
  | v4 ip port => stripPadding (putLe 16 (mangled (micros % 2 ^ 32) ip port))
  | v6 ip port _ _ => ip.octets ++ putLe 2 port.toNat

/-- A slice taken as an array of `n` bytes, `try_into().unwrap_or_default()`. -/
def asArray (n : Nat) (bytes : Bytes) : { array : Bytes // array.length = n } :=
  if h : bytes.length = n then ⟨bytes, h⟩ else ⟨List.replicate n 0, List.length_replicate⟩

def sliceFrom (bytes : Bytes) (start : Nat) : Except DecodeFault Bytes :=
  if start ≤ bytes.length then .ok (bytes.drop start) else .error .outOfRange

def sliceTo (bytes : Bytes) (stop : Nat) : Except DecodeFault Bytes :=
  if stop ≤ bytes.length then .ok (bytes.take stop) else .error .outOfRange

/-- `padded[..bytes.len()].copy_from_slice(bytes)`. -/
def copyInto (padded bytes : Bytes) : Except DecodeFault Bytes :=
  if bytes.length ≤ padded.length then .ok (bytes ++ padded.drop bytes.length)
  else .error .outOfRange

def subtract (a b : Nat) : Except DecodeFault Nat :=
  if b ≤ a then .ok (a - b) else .error .underflow

/-- The part of `decode` that takes the number apart again. -/
def unmangle (number : Nat) : Except DecodeFault SocketAddr := do
  let tm := (number >>> 17) &&& 0xFFFFFFFF
  let ip ← subtract (number >>> 49) tm
  let ip := putLe 4 ip
  let port ← subtract (number &&& 0xFFFFFF) (tm &&& 0xFFFF)
  return v4 (Ipv4Addr.new (ip.getD 0 0) (ip.getD 1 0) (ip.getD 2 0) (ip.getD 3 0)) (UInt16.ofNat port)

def decode (bytes : Bytes) : Except DecodeFault SocketAddr :=
  if bytes.length > 16 then
    if bytes.length ≠ 18 then .ok anyListenAddr
    else do
      let port := leValue (asArray 2 (← sliceFrom bytes 16)).val
      let ip := asArray 16 (← sliceTo bytes 16)
      return newV6 ⟨ip.val, ip.property⟩ (UInt16.ofNat port)
  else do
    let padded ← copyInto (List.replicate 16 0) bytes
    unmangle (leValue padded)

section Bytes

theorem leValue_octets_lt (ip : Ipv4Addr) : leValue ip.octets < 2 ^ 32 := by
  have hBound := BytesCodec.leValue_lt ip.octets
  rwa [ip.sized] at hBound

/-- What is stripped off was zeros. -/
theorem stripPadding_append {bytes : Bytes} (hLength : bytes.length = 16) :
    stripPadding bytes ++ List.replicate (16 - (stripPadding bytes).length) 0 = bytes := by
  have hSplit := List.takeWhile_append_dropWhile (p := (· == (0 : UInt8))) (l := bytes.reverse)
  generalize hZeros : bytes.reverse.takeWhile (· == 0) = zeros at hSplit
  generalize bytes.reverse.dropWhile (· == 0) = kept at hSplit
  have hAll : zeros = List.replicate zeros.length 0 := by
    apply List.eq_replicate_iff.mpr
    have hOnly : (bytes.reverse.takeWhile (· == 0)).all (· == 0) = true := List.all_takeWhile
    rw [hZeros, List.all_eq_true] at hOnly
    exact ⟨rfl, fun byte hMem => eq_of_beq (hOnly byte hMem)⟩
  have hBytes : bytes = kept.reverse ++ zeros.reverse := by
    rw [← List.reverse_append, hSplit, List.reverse_reverse]
  have hCount : kept.length + zeros.length = 16 := by
    rw [← hLength, hBytes, List.length_append, List.length_reverse, List.length_reverse]
  have hStrip : stripPadding bytes = kept.reverse := by
    unfold stripPadding
    rw [hZeros, hBytes, List.take_left' (by rw [List.length_reverse]; omega)]
  rw [hStrip, List.length_reverse, hBytes]
  congr 1
  rw [hAll, List.reverse_replicate]
  congr 1
  omega

end Bytes

section Number

/-- The three fields of the number do not run into one another. -/
theorem mangled_eq {tm : Nat} (hTm : tm < 2 ^ 32) (ip : Ipv4Addr) (port : UInt16) :
    mangled tm ip port =
      (leValue ip.octets + tm) * 2 ^ 49 + tm * 2 ^ 17 + (port.toNat + tm % 2 ^ 16) := by
  have hPort := port.toNat_lt
  have hMask : tm &&& 0xFFFF = tm % 2 ^ 16 := Nat.and_two_pow_sub_one_eq_mod tm 16
  have hLow : port.toNat + tm % 2 ^ 16 < 2 ^ 17 := by omega
  have hMiddle : tm <<< 17 < 2 ^ 49 := by
    rw [Nat.shiftLeft_eq]
    omega
  unfold mangled
  rw [hMask, Nat.or_assoc, ← Nat.shiftLeft_add_eq_or_of_lt hLow, ← Nat.shiftLeft_add_eq_or_of_lt,
    Nat.shiftLeft_eq, Nat.shiftLeft_eq, Nat.add_assoc]
  rw [Nat.shiftLeft_eq]
  omega

/-- How the fields of the number decide whether it can be taken apart. -/
theorem unmangle_eq (number : Nat) :
    unmangle number =
      (let high := number / 2 ^ 49
       let middle := number / 2 ^ 17 % 2 ^ 32
       if middle ≤ high ∧ middle % 2 ^ 16 ≤ number % 2 ^ 24 then
        let ip := putLe 4 (high - middle)
        .ok (v4 (Ipv4Addr.new (ip.getD 0 0) (ip.getD 1 0) (ip.getD 2 0) (ip.getD 3 0))
          (UInt16.ofNat (number % 2 ^ 24 - middle % 2 ^ 16)))
      else .error .underflow) := by
  have hTm : (number >>> 17) &&& 0xFFFFFFFF = number / 2 ^ 17 % 2 ^ 32 := by
    rw [Nat.shiftRight_eq_div_pow]
    exact Nat.and_two_pow_sub_one_eq_mod _ 32
  have hLow : number &&& 0xFFFFFF = number % 2 ^ 24 := Nat.and_two_pow_sub_one_eq_mod _ 24
  have hMask : ∀ n : Nat, n &&& 0xFFFF = n % 2 ^ 16 := fun n => Nat.and_two_pow_sub_one_eq_mod n 16
  unfold unmangle subtract
  rw [hTm, hLow]
  dsimp only
  rw [hMask, Nat.shiftRight_eq_div_pow]
  by_cases hHigh : number / 2 ^ 17 % 2 ^ 32 ≤ number / 2 ^ 49
  · rw [if_pos hHigh]
    by_cases hPort : number / 2 ^ 17 % 2 ^ 32 % 2 ^ 16 ≤ number % 2 ^ 24
    · rw [if_pos hPort, if_pos ⟨hHigh, hPort⟩]
      rfl
    · simp only [hPort, and_false, if_false]
      rfl
  · simp only [hHigh, false_and, if_false]
    rfl

/-- Only the bits of the port and the seven lowest of the time are compared, and any of
these seven outweighs what is subtracted. -/
theorem port_fits_iff (number : Nat) :
    number / 2 ^ 17 % 2 ^ 32 % 2 ^ 16 ≤ number % 2 ^ 24 ↔
      number / 2 ^ 17 % 2 ^ 7 ≠ 0 ∨ number / 2 ^ 17 % 2 ^ 16 ≤ number % 2 ^ 17 := by
  have hTm : number / 2 ^ 17 % 2 ^ 32 % 2 ^ 16 = number / 2 ^ 17 % 2 ^ 16 := by omega
  have hLow : number % 2 ^ 24 = number % 2 ^ 17 + 2 ^ 17 * (number / 2 ^ 17 % 2 ^ 7) := by omega
  rw [hTm, hLow]
  have hMask : number / 2 ^ 17 % 2 ^ 16 < 2 ^ 16 := Nat.mod_lt _ (by decide)
  omega

theorem unmangle_mangled {tm : Nat} (hTm : tm < 2 ^ 32) (ip : Ipv4Addr) (port : UInt16) :
    unmangle (mangled tm ip port) = .ok (v4 ip port) := by
  have hPort := port.toNat_lt
  have hIp := leValue_octets_lt ip
  rw [mangled_eq hTm, unmangle_eq]
  generalize hNumber : (leValue ip.octets + tm) * 2 ^ 49 + tm * 2 ^ 17 +
    (port.toNat + tm % 2 ^ 16) = number
  have hHigh : number / 2 ^ 49 = leValue ip.octets + tm := by omega
  have hMiddle : number / 2 ^ 17 % 2 ^ 32 = tm := by
    have hUpper : number / 2 ^ 17 = (leValue ip.octets + tm) * 2 ^ 32 + tm := by omega
    omega
  have hLow : number % 2 ^ 24 = tm % 2 ^ 7 * 2 ^ 17 + (port.toNat + tm % 2 ^ 16) := by omega
  have hBack : UInt16.ofNat (number % 2 ^ 24 - tm % 2 ^ 16) = port := by
    apply UInt16.toNat_inj.mp
    rw [UInt16.toNat_ofNat', hLow]
    omega
  have hOctets : putLe 4 (leValue ip.octets + tm - tm) = ip.octets := by
    rw [Nat.add_sub_cancel, ← ip.sized, putLe_leValue]
  dsimp only
  rw [hHigh, hMiddle, if_pos (by omega), hBack, hOctets, ip.new_octets]

end Number

section Decode

theorem decode_short {bytes : Bytes} (hShort : bytes.length ≤ 16) :
    decode bytes = unmangle (leValue bytes) := by
  have hValue : leValue (bytes ++ (List.replicate 16 0).drop bytes.length) = leValue bytes := by
    rw [List.drop_replicate, leValue_append, leValue_zeros, Nat.mul_zero, Nat.add_zero]
  unfold decode copyInto
  rw [if_neg (by omega), if_pos (by rwa [List.length_replicate])]
  change unmangle (leValue _) = _
  rw [hValue]

/-- Zeros at the end of the encoding of an IPv4 address make no difference. -/
theorem decode_append_zeros {bytes : Bytes} {k : Nat} (hShort : bytes.length + k ≤ 16) :
    decode (bytes ++ List.replicate k 0) = decode bytes := by
  rw [decode_short (by rw [List.length_append, List.length_replicate]; omega),
    decode_short (by omega), leValue_append, leValue_zeros, Nat.mul_zero, Nat.add_zero]

theorem decode_v6 (ip : Ipv6Addr) (port : UInt16) :
    decode (ip.octets ++ putLe 2 port.toNat) = .ok (newV6 ip port) := by
  have hLength : (ip.octets ++ putLe 2 port.toNat).length = 18 := by
    rw [List.length_append, ip.sized, BytesCodec.length_putLe]
  have hPort : leValue (putLe 2 port.toNat) = port.toNat :=
    BytesCodec.leValue_putLe_of_lt port.toNat_lt
  unfold decode sliceFrom sliceTo
  rw [if_pos (by omega), if_neg (by omega), if_pos (by omega), if_pos (by omega),
    List.drop_left' ip.sized, List.take_left' ip.sized]
  have hTail : asArray 2 (putLe 2 port.toNat) = ⟨putLe 2 port.toNat, BytesCodec.length_putLe ..⟩ :=
    dif_pos _
  have hHead : asArray 16 ip.octets = ⟨ip.octets, ip.sized⟩ := dif_pos _
  change Except.ok (newV6 ⟨(asArray 16 ip.octets).val, _⟩
    (UInt16.ofNat (leValue (asArray 2 (putLe 2 port.toNat)).val))) = _
  simp only [hTail, hHead, hPort, UInt16.ofNat_toNat]

/-- An address comes back as it was sent, whatever the clock of the sender stood at, but
for the flow info and the scope of an IPv6 address. -/
theorem decode_encode_addr (micros : Nat) (addr : SocketAddr) :
    decode (encode micros addr) = .ok addr.tryIntoV4.unscoped := by
  unfold encode
  cases addr.tryIntoV4 with
  | v4 ip port =>
      have hTm : micros % 2 ^ 32 < 2 ^ 32 := Nat.mod_lt _ (by decide)
      have hLength : (putLe 16 (mangled (micros % 2 ^ 32) ip port)).length = 16 :=
        BytesCodec.length_putLe ..
      have hPadded := stripPadding_append hLength
      have hShort : (stripPadding (putLe 16 (mangled (micros % 2 ^ 32) ip port))).length ≤ 16 := by
        have hTotal := congrArg List.length hPadded
        rw [List.length_append, hLength] at hTotal
        omega
      have hNumber : mangled (micros % 2 ^ 32) ip port < 256 ^ 16 := by
        have hIp := leValue_octets_lt ip
        have hPort := port.toNat_lt
        rw [mangled_eq hTm]
        omega
      have hRest := decode_append_zeros (Nat.add_sub_cancel' hShort).le
      dsimp only
      rw [← hRest, hPadded, decode_short hLength.le,
        BytesCodec.leValue_putLe_of_lt hNumber, unmangle_mangled hTm]
      rfl
  | v6 ip port flowinfo scopeId => exact decode_v6 ip port

/-- Bytes are decoded without a subtraction below zero exactly if they are too many for an
IPv4 address, or the fields of their number are: the high one at least the time in the
middle, and the low one at least the low half of the time, unless one of the seven lowest
bits of the time is set. No slice is ever out of range. -/
theorem decode_safe_iff (bytes : Bytes) :
    ((∃ addr, decode bytes = .ok addr) ↔
      bytes.length > 16 ∨
        (leValue bytes / 2 ^ 17 % 2 ^ 32 ≤ leValue bytes / 2 ^ 49 ∧
          (leValue bytes / 2 ^ 17 % 2 ^ 7 ≠ 0 ∨
            leValue bytes / 2 ^ 17 % 2 ^ 16 ≤ leValue bytes % 2 ^ 17))) ∧
    decode bytes ≠ .error .outOfRange := by
  by_cases hLong : bytes.length > 16
  · obtain ⟨addr, hAddr⟩ : ∃ addr, decode bytes = .ok addr := by
      by_cases hSized : bytes.length = 18
      · unfold decode sliceFrom sliceTo
        rw [if_pos hLong, if_neg (not_not.mpr hSized), if_pos (by omega), if_pos (by omega)]
        exact ⟨_, rfl⟩
      · exact ⟨anyListenAddr, by rw [decode, if_pos hLong, if_pos hSized]⟩
    rw [hAddr]
    exact ⟨⟨fun _ => .inl hLong, fun _ => ⟨addr, rfl⟩⟩, by simp⟩
  · rw [decode_short (by omega), unmangle_eq, ← port_fits_iff]
    dsimp only
    simp only [hLong, false_or]
    split_ifs with hFits
    · exact ⟨⟨fun _ => hFits, fun _ => ⟨_, rfl⟩⟩, by simp⟩
    · refine ⟨⟨?_, fun hBoth => absurd hBoth hFits⟩, by simp⟩
      rintro ⟨addr, hAddr⟩
      cases hAddr

/-- Of three bytes, the time is one and the address is below it. -/
theorem decode_underflow : decode [0, 0, 2] = .error .underflow := by decide +kernel

end Decode

end AddrMangle

end HibtDesk
