import Mathlib.Algebra.Order.Ring.Int

/-! Version strings as peers send them, `1.1.10-1` and the like. The strings
come from the network, so every operation is total; machine arithmetic on
`i64` wraps around as in a release build. -/
namespace HibtDesk

/-- `str::split` on one character: at least one piece, empty pieces kept. -/
def splitChars (separator : Char) : List Char → List (List Char)
  | [] => [[]]
  | c :: rest =>
      if c = separator then [] :: splitChars separator rest
      else match splitChars separator rest with
        | [] => [[c]]
        | piece :: pieces => (c :: piece) :: pieces

theorem splitChars_of_notMem {separator : Char} {text : List Char} (hNone : separator ∉ text) :
    splitChars separator text = [text] := by
  induction text with
  | nil => rfl
  | cons c text ih =>
      obtain ⟨hFirst, hRest⟩ := not_or.mp (List.mem_cons.not.mp hNone)
      rw [splitChars, if_neg (Ne.symm hFirst), ih hRest]

theorem splitChars_append {separator : Char} {text : List Char} (hNone : separator ∉ text) (rest : List Char) :
    splitChars separator (text ++ separator :: rest) = text :: splitChars separator rest := by
  induction text with
  | nil => rw [List.nil_append, splitChars, if_pos rfl]
  | cons c text ih =>
      obtain ⟨hFirst, hRest⟩ := not_or.mp (List.mem_cons.not.mp hNone)
      rw [List.cons_append, splitChars, if_neg (Ne.symm hFirst), ih hRest]

/-- `char::is_whitespace`, the Unicode property White_Space. -/
def isWhitespace (c : Char) : Bool :=
  (9 ≤ c.toNat && c.toNat ≤ 13) || (0x2000 ≤ c.toNat && c.toNat ≤ 0x200A) ||
    [0x20, 0x85, 0xA0, 0x1680, 0x2028, 0x2029, 0x202F, 0x205F, 0x3000].contains c.toNat

/-- `str::trim`. -/
def trimChars (text : List Char) : List Char :=
  ((text.dropWhile isWhitespace).reverse.dropWhile isWhitespace).reverse

/-- The value of a run of decimal digits, none if another character occurs. -/
def digitsValue : List Char → Nat → Option Nat
  | [], value => some value
  | c :: rest, value =>
      if c.isDigit then digitsValue rest (value * 10 + (c.toNat - '0'.toNat)) else none

theorem digitsValue_of_digits {text : List Char} (hDigits : ∀ c ∈ text, c.isDigit = true) (value : Nat) :
    digitsValue text value = some (Nat.ofDigitChars 10 text value) := by
  induction text generalizing value with
  | nil => rfl
  | cons c text ih =>
      obtain ⟨hDigit, hRest⟩ := List.forall_mem_cons.mp hDigits
      rw [digitsValue, if_pos hDigit, ih hRest, Nat.ofDigitChars_cons, Nat.mul_comm]

/-- `str::parse::<i64>`: an optional sign, at least one digit, in range. -/
def parseI64 (text : List Char) : Option Int :=
  let signed : Option Int := match text with
    | [] => none
    | ['+'] => none
    | ['-'] => none
    | '+' :: digits => (digitsValue digits 0).map Int.ofNat
    | '-' :: digits => (digitsValue digits 0).map fun value => -(Int.ofNat value)
    | digits => (digitsValue digits 0).map Int.ofNat
  signed.filter fun value => -(2 ^ 63) ≤ value ∧ value < 2 ^ 63

/-- `str::parse::<u64>`: an optional plus sign, at least one digit, in range. -/
def parseU64 (text : List Char) : Option Nat :=
  let value := match text with
    | [] => none
    | ['+'] => none
    | '+' :: digits => digitsValue digits 0
    | digits => digitsValue digits 0
  value.filter fun value => value < 2 ^ 64

/-- A number that fits is read back. -/
theorem parseU64_toDigits {n : Nat} (hSmall : n < 2 ^ 64) : parseU64 (Nat.toDigits 10 n) = some n := by
  have hDigits : ∀ c ∈ Nat.toDigits 10 n, c.isDigit = true :=
    fun c hMem => Nat.isDigit_of_mem_toDigits (by decide) (by decide) hMem
  have hValue := digitsValue_of_digits hDigits 0
  rw [Nat.ofDigitChars_ten_toDigits] at hValue
  generalize hText : Nat.toDigits 10 n = text at hDigits hValue ⊢
  cases text with
  | nil => exact absurd hText Nat.toDigits_ne_nil
  | cons c rest =>
      have hPlus : c ≠ '+' := by
        rintro rfl
        exact absurd (hDigits _ List.mem_cons_self) (by decide)
      unfold parseU64
      split
      · contradiction
      · simp_all
      · simp_all
      · rw [hValue]
        exact Option.filter_some_pos (decide_eq_true hSmall)

/-- Two's complement wrap-around of `i64`. -/
def wrapI64 (value : Int) : Int := Int.bmod value (2 ^ 64)

/-- `hbb_common::get_version_number`. The last dotted number is multiplied by
ten to leave room for a patch number after the first dash. -/
def getVersionNumber (v : String) : Int :=
  let versions := splitChars '-' v.toList
  let number := fun x => (parseI64 x).getD 0
  let n := match versions with
    | [] => 0
    | first :: _ =>
        let (n, last) := (splitChars '.' first).foldl
          (fun (n, _) x => (wrapI64 (wrapI64 (n * 1000) + number x), number x)) (0, 0)
        wrapI64 (wrapI64 (n - last) + wrapI64 (last * 10))
  match versions with
  | _ :: patch :: _ => wrapI64 (n + number patch)
  | _ => n

example : getVersionNumber "1.1.10-1" = 1001101 := by decide

end HibtDesk
