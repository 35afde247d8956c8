import HibtDesk.Connection.State

/-! The table of failed logins. Failures are counted for the address of the
peer and, for IPv6, for its /64, /56 and /48 networks as well. Looking the
counters up and writing them back are two separate accesses. -/
namespace HibtDesk

abbrev FailureTable := String → Option Failure

/-- `i64 as i32`. -/
def wrapI32 (value : Int) : Int := Int.bmod value (2 ^ 32)

/-- The minute `check_failure` works with. -/
def minuteOf (time : Int) : Int := wrapI32 (Int.tdiv time 60000)

/-- `mask_u128` for the three prefix lengths in use. -/
def maskU128 (addr bits : Nat) : Nat := addr / 2 ^ (128 - bits) * 2 ^ (128 - bits)

/-- `Connection::get_ipv6_prefixes`; `none` for an IPv4 address. A zone id is
cut off before the address is parsed. -/
def getIpv6Prefixes (deps : Deps) (ip : String) : Option (String × String × String) :=
  let ipOnly := String.ofList (trimChars ((splitChars '%' ip.toList).headD ip.toList))
  (deps.parseIpv6 ipOnly).map fun addr =>
    (deps.showIpv6 (maskU128 addr 64) ++ "/64",
     deps.showIpv6 (maskU128 addr 56) ++ "/56",
     deps.showIpv6 (maskU128 addr 48) ++ "/48")

/-- `bump` inside `update_failure`. -/
def Failure.bump (cur : Failure) (time : Int) : Failure :=
  if cur.minute = time then
    { cur with inMinute := cur.inMinute + 1, total := cur.total + 1 }
  else
    { minute := time, inMinute := 1, total := cur.total + 1 }

namespace FailureTable

def remove (table : FailureTable) (key : String) : FailureTable :=
  fun k => if k = key then none else table k

def insert (table : FailureTable) (key : String) (failure : Failure) : FailureTable :=
  fun k => if k = key then some failure else table k

/-- The counters of a network are bumped in place. -/
def bumpPrefix (table : FailureTable) (time : Int) (key : String) : FailureTable :=
  table.insert key (((table key).getD {}).bump time)

end FailureTable

/-- `Connection::update_failure`. The counter of the full address is bumped
from the value `check_failure` had read, not from the one in the table. -/
def updateFailure (deps : Deps) (ip : String) (table : FailureTable) (failure : Failure)
    (time : Int) (remove : Bool) : FailureTable :=
  match getIpv6Prefixes deps ip with
  | some (p64, p56, p48) =>
      if remove then
        if failure.minute ≠ 0 then
          (((table.remove p64).remove p56).remove p48).remove ip
        else table
      else
        ([p64, p56, p48].foldl (fun table key => table.bumpPrefix time key) table).insert ip
          (failure.bump time)
  | none =>
      if remove then
        if failure.minute ≠ 0 then table.remove ip else table
      else table.insert ip (failure.bump time)

/-- What `check_failure` returns, with the error it sends when it refuses. -/
structure FailureCheck where
  failure : Failure
  time : Int
  error : Option String
  deriving DecidableEq, Repr

/-- `Connection::check_failure_ipv6_prefix`. -/
def checkFailureIpv6Prefix (table : FailureTable) (time : Int) (key : String) (bits : Nat)
    (thresh : Int) : Option FailureCheck :=
  let failure := (table key).getD {}
  if failure.total > thresh then
    some ⟨failure, time, some ("Too many wrong attempts for IPv6 prefix /" ++ toString bits)⟩
  else none

/-- The check of the full address, the last part of `check_failure`. -/
def checkFailureAddress (table : FailureTable) (time : Int) (ip : String) : FailureCheck :=
  let failure := (table ip).getD {}
  if failure.total > 30 then ⟨failure, time, some "Too many wrong attempts"⟩
  else if time = failure.minute ∧ failure.inMinute > 6 then
    ⟨failure, time, some "Please try 1 minute later"⟩
  else ⟨failure, time, none⟩

/-- `Connection::check_failure` in the minute `time`. -/
def checkFailure (deps : Deps) (ip : String) (table : FailureTable) (time : Int) : FailureCheck :=
  match getIpv6Prefixes deps ip with
  | some (p64, p56, p48) =>
      ((checkFailureIpv6Prefix table time p64 64 60).orElse fun _ =>
        (checkFailureIpv6Prefix table time p56 56 80).orElse fun _ =>
          checkFailureIpv6Prefix table time p48 48 100).getD (checkFailureAddress table time ip)
  | none => checkFailureAddress table time ip

end HibtDesk
