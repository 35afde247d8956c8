import HibtDesk.Common.Version
import HibtDesk.Library.Path
import HibtDesk.Library.Patterns

/-! Hosts with ports, as servers are written in the settings. One regular expression
tells an IPv6 address from a host name with a port. -/
namespace HibtDesk.HostPort

open Lexical (Text)
open Patterns (oneOf repeated many mem_oneOf mem_repeated_oneOf mem_many_oneOf)
open RegularExpression (char matches'_add matches'_mul matches'_star rmatch_iff_matches')

/-- Where the decimal digits of the scripts of Unicode 16 start. -/
def zeroDigits : List Nat :=
  [0x0030, 0x0660, 0x06F0, 0x07C0, 0x0966, 0x09E6, 0x0A66, 0x0AE6, 0x0B66, 0x0BE6, 0x0C66, 0x0CE6,
    0x0D66, 0x0DE6, 0x0E50, 0x0ED0, 0x0F20, 0x1040, 0x1090, 0x17E0, 0x1810, 0x1946, 0x19D0, 0x1A80,
    0x1A90, 0x1B50, 0x1BB0, 0x1C40, 0x1C50, 0xA620, 0xA8D0, 0xA900, 0xA9D0, 0xA9F0, 0xAA50, 0xABF0,
    0xFF10, 0x104A0, 0x10D30, 0x10D40, 0x11066, 0x110F0, 0x11136, 0x111D0, 0x112F0, 0x11450, 0x114D0,
    0x11650, 0x116C0, 0x116D0, 0x116DA, 0x11730, 0x118E0, 0x11950, 0x11BF0, 0x11C50, 0x11D50, 0x11DA0,
    0x11F50, 0x16130, 0x16A60, 0x16AC0, 0x16B50, 0x16D70, 0x1CCF0, 0x1D7CE, 0x1D7D8, 0x1D7E2, 0x1D7EC,
    0x1D7F6, 0x1E140, 0x1E2F0, 0x1E4F0, 0x1E5F1, 0x1E950, 0x1FBF0]

/-- What the regular expression tells apart. A numeral is a decimal digit of another
script, which `\d` takes too. -/
inductive Mark where
  | digit | letter | numeral | colon | opening | closing | other
  deriving DecidableEq, Repr

def mark (c : Char) : Mark :=
  if c.isDigit then .digit
  else if ('a' ≤ c ∧ c ≤ 'f') ∨ ('A' ≤ c ∧ c ≤ 'F') then .letter
  else if c = ':' then .colon
  else if c = '[' then .opening
  else if c = ']' then .closing
  else if zeroDigits.any fun start => decide (start ≤ c.toNat ∧ c.toNat < start + 10) then .numeral
  else .other

/-- `[a-fA-F0-9]{1,4}`. -/
def hexGroup : RegularExpression Mark := repeated (oneOf [.digit, .letter]) 4

/-- `([a-fA-F0-9]{1,4}:{1,2})+[a-fA-F0-9]{1,4}`. -/
def hexGroups : RegularExpression Mark :=
  many (hexGroup * repeated (oneOf [.colon]) 2) * hexGroup

/-- `\[([a-fA-F0-9]{1,4}:{1,2})+[a-fA-F0-9]{1,4}\]:\d+`. -/
def bracketed : RegularExpression Mark :=
  char .opening * hexGroups * char .closing * char .colon * many (oneOf [.digit, .numeral])

/-- The expression of `is_ipv6_str`, between `^` and `$`. -/
def ipv6Pattern : RegularExpression Mark := hexGroups + bracketed

def isIpv6Str (id : Text) : Bool := ipv6Pattern.rmatch (id.map mark)

/-- `{}` of an `i32`. -/
def showI32 : Int → Text
  | .ofNat n => Nat.toDigits 10 n
  | .negSucc n => '-' :: Nat.toDigits 10 (n + 1)

/-- `str::parse::<i32>`, which is that of `i64` but for the range. -/
def parseI32 (text : Text) : Option Int :=
  (parseI64 text).filter fun value => -(2 ^ 31) ≤ value ∧ value < 2 ^ 31

/-- Two's complement wrap-around of `i32`. -/
def wrapI32 (value : Int) : Int := Int.bmod value (2 ^ 32)

/-- `split("]:")`. -/
def splitBracket : Text → List Text
  | [] => [[]]
  | ']' :: ':' :: rest => [] :: splitBracket rest
  | c :: rest =>
      match splitBracket rest with
      | [] => [[c]]
      | piece :: pieces => (c :: piece) :: pieces

def checkPort (host : Text) (port : Int) : Text :=
  if isIpv6Str host then
    if ['['] <+: host then host
    else '[' :: host ++ [']', ':'] ++ showI32 port
  else if ':' ∉ host then host ++ ':' :: showI32 port
  else host

/-- The two pieces of a split, the second one read as a port. -/
def hostAndPort (pieces : List Text) : Option (Text × Int) :=
  match pieces with
  | [host, port] =>
      let port := (parseI32 port).getD 0
      if port > 0 then some (host, port) else none
  | _ => none

def increasePort (host : Text) (offset : Int) : Text :=
  if isIpv6Str host then
    if ['['] <+: host then
      match hostAndPort (splitBracket host) with
      | some (name, port) => name ++ [']', ':'] ++ showI32 (wrapI32 (port + offset))
      | none => host
    else host
  else if ':' ∈ host then
    match hostAndPort (splitChars ':' host) with
    | some (name, port) => name ++ ':' :: showI32 (wrapI32 (port + offset))
    | none => host
  else host

def splitHostPort (host : Text) : Option (Text × Int) :=
  if isIpv6Str host then
    if ['['] <+: host then
      (hostAndPort (splitBracket host)).map fun (name, port) => (name ++ [']'], port)
    else none
  else if ':' ∈ host then hostAndPort (splitChars ':' host)
  else none

section Marks

theorem mark_colon_iff (c : Char) : mark c = .colon ↔ c = ':' := by
  constructor
  · intro hMark
    unfold mark at hMark
    split_ifs at hMark with hDigit hLetter hColon
    exact hColon
  · rintro rfl
    decide

theorem mark_of_isDigit {c : Char} (hDigit : c.isDigit = true) : mark c = .digit := if_pos hDigit

theorem count_colon (text : Text) : (text.map mark).count .colon = text.count ':' := by
  induction text with
  | nil => rfl
  | cons c text ih =>
      rw [List.map_cons, List.count_cons, List.count_cons, ih]
      simp only [beq_iff_eq, mark_colon_iff]

end Marks

section Pattern

/-- The forms `hexGroup` takes: up to four digits, none of them a colon or a bracket. -/
theorem mem_hexGroup {word : List Mark} : word ∈ hexGroup.matches' ↔
    word ≠ [] ∧ word.length ≤ 4 ∧ ∀ m ∈ word, m ∈ [Mark.digit, .letter] := mem_repeated_oneOf

theorem mem_colons {word : List Mark} : word ∈ (repeated (oneOf [Mark.colon]) 2).matches' ↔
    word = [.colon] ∨ word = [.colon, .colon] := by
  rw [mem_repeated_oneOf]
  constructor
  · rintro ⟨hSome, hLength, hAll⟩
    simp only [List.mem_singleton] at hAll
    have hWord := List.eq_replicate_iff.mpr ⟨rfl, hAll⟩
    have hPos := List.length_pos_iff.mpr hSome
    have hCases : word.length = 1 ∨ word.length = 2 := by omega
    rcases hCases with hOne | hTwo
    · left
      rw [hWord, hOne]
      rfl
    · right
      rw [hWord, hTwo]
      rfl
  · rintro (rfl | rfl)
    · simp
    · simp

theorem count_colon_hexGroup {word : List Mark} (hWord : word ∈ hexGroup.matches') :
    word.count .colon = 0 := by
  apply List.count_eq_zero.mpr
  intro hColon
  have hLetter := (mem_hexGroup.mp hWord).2.2 _ hColon
  simp at hLetter

/-- A group before other groups, with the one or two colons behind it. -/
theorem mem_hexGroups {word : List Mark} (hWord : word ∈ hexGroups.matches') :
    ∃ first colons middle last, word = first ++ colons ++ middle ++ last ∧
      first ∈ hexGroup.matches' ∧ (colons = [.colon] ∨ colons = [.colon, .colon]) ∧
      middle ∈ (hexGroup * repeated (oneOf [Mark.colon]) 2).star.matches' ∧
      last ∈ hexGroup.matches' := by
  rw [hexGroups, matches'_mul, Language.mem_mul] at hWord
  obtain ⟨front, hFront, last, hLast, rfl⟩ := hWord
  rw [many, matches'_mul, Language.mem_mul] at hFront
  obtain ⟨piece, hPiece, middle, hMiddle, rfl⟩ := hFront
  rw [matches'_mul, Language.mem_mul] at hPiece
  obtain ⟨first, hFirst, colons, hColons, rfl⟩ := hPiece
  exact ⟨first, colons, middle, last, rfl, hFirst, mem_colons.mp hColons, hMiddle, hLast⟩

/-- More groups mean more colons. -/
theorem count_colon_star {word : List Mark}
    (hWord : word ∈ (hexGroup * repeated (oneOf [Mark.colon]) 2).star.matches')
    (hNone : word.count .colon = 0) : word = [] := by
  rw [matches'_star, Language.mem_kstar] at hWord
  obtain ⟨pieces, rfl, hPieces⟩ := hWord
  cases pieces with
  | nil => rfl
  | cons piece pieces =>
      have hPiece := hPieces piece List.mem_cons_self
      rw [matches'_mul, Language.mem_mul] at hPiece
      obtain ⟨group, -, colons, hColons, rfl⟩ := hPiece
      have hColon : Mark.colon ∈ colons := by
        rcases mem_colons.mp hColons with rfl | rfl
        · exact List.mem_cons_self
        · exact List.mem_cons_self
      exact absurd (List.count_eq_zero.mp hNone) (not_not.mpr (by simp [hColon]))

/-- Only the marks of digits and colons stand in groups, and a colon is among them. -/
theorem marks_hexGroups {word : List Mark} (hWord : word ∈ hexGroups.matches') :
    (∀ m ∈ word, m ∈ [Mark.digit, .letter, .colon]) ∧ .colon ∈ word := by
  have hGroup : ∀ group ∈ hexGroup.matches', ∀ m ∈ group, m ∈ [Mark.digit, .letter, .colon] := by
    intro group hMem m hIn
    have hLetter := (mem_hexGroup.mp hMem).2.2 m hIn
    simp only [List.mem_cons, List.not_mem_nil, or_false] at hLetter ⊢
    exact hLetter.elim .inl fun hRight => .inr (.inl hRight)
  have hColon : ∀ colons ∈ (repeated (oneOf [Mark.colon]) 2).matches', ∀ m ∈ colons,
      m ∈ [Mark.digit, .letter, .colon] := by
    intro colons hMem m hIn
    rcases mem_colons.mp hMem with rfl | rfl <;> simp_all
  obtain ⟨first, colons, middle, last, rfl, hFirst, hColons, hMiddle, hLast⟩ := mem_hexGroups hWord
  have hInside : ∀ m ∈ middle, m ∈ [Mark.digit, .letter, .colon] := by
    rw [matches'_star, Language.mem_kstar] at hMiddle
    obtain ⟨pieces, rfl, hPieces⟩ := hMiddle
    intro m hIn
    obtain ⟨piece, hMem, hPiece⟩ := List.mem_flatten.mp hIn
    have hParts := hPieces piece hMem
    rw [matches'_mul, Language.mem_mul] at hParts
    obtain ⟨group, hInGroup, tail, hTail, rfl⟩ := hParts
    rcases List.mem_append.mp hPiece with hLeft | hRight
    · exact hGroup group hInGroup m hLeft
    · exact hColon tail hTail m hRight
  constructor
  · intro m hIn
    simp only [List.mem_append] at hIn
    rcases hIn with ((hIn | hIn) | hIn) | hIn
    · exact hGroup first hFirst m hIn
    · exact hColon colons (mem_colons.mpr hColons) m hIn
    · exact hInside m hIn
    · exact hGroup last hLast m hIn
  · have hThere : Mark.colon ∈ colons := by
      rcases hColons with rfl | rfl
      · exact List.mem_cons_self
      · exact List.mem_cons_self
    simp [hThere]

/-- Groups with one colon are two groups. -/
theorem hexGroups_split {left right : List Mark}
    (hWord : left ++ .colon :: right ∈ hexGroups.matches')
    (hOne : (left ++ .colon :: right).count .colon = 1) :
    left ∈ hexGroup.matches' ∧ right ∈ hexGroup.matches' := by
  obtain ⟨first, colons, middle, last, hSplit, hFirst, hColons, hMiddle, hLast⟩ :=
    mem_hexGroups hWord
  rw [hSplit] at hOne
  simp only [List.count_append, count_colon_hexGroup hFirst, count_colon_hexGroup hLast] at hOne
  have hSides : left.count .colon = 0 ∧ right.count .colon = 0 := by
    have hTotal := congrArg (List.count Mark.colon) hSplit
    simp only [List.count_append, List.count_cons_self, count_colon_hexGroup hFirst,
      count_colon_hexGroup hLast] at hTotal
    omega
  rcases hColons with rfl | rfl
  · have hEmpty : middle = [] := by
      apply count_colon_star hMiddle
      simp only [List.count_singleton_self] at hOne
      omega
    rw [hEmpty, List.append_nil, List.append_assoc, List.singleton_append] at hSplit
    have hNotLeft : Mark.colon ∉ left := List.count_eq_zero.mp hSides.1
    have hNotRight : Mark.colon ∉ right := List.count_eq_zero.mp hSides.2
    obtain ⟨rfl, -, rfl⟩ := (List.append_cons_inj_of_notMem hNotLeft hNotRight).mp hSplit
    exact ⟨hFirst, hLast⟩
  · simp only [List.count_cons_self, List.count_nil] at hOne
    omega

theorem isIpv6Str_iff (id : Text) : isIpv6Str id = true ↔
    id.map mark ∈ hexGroups.matches' ∨ id.map mark ∈ bracketed.matches' := by
  rw [isIpv6Str, rmatch_iff_matches', ipv6Pattern, matches'_add, Language.mem_add]

/-- The marks of an address with a port. -/
theorem mem_bracketed {word : List Mark} :
    word ∈ bracketed.matches' ↔
      ∃ groups port, word = .opening :: groups ++ [.closing, .colon] ++ port ∧
        groups ∈ hexGroups.matches' ∧ port ≠ [] ∧ ∀ m ∈ port, m ∈ [Mark.digit, .numeral] := by
  simp only [bracketed, matches'_mul, Language.mem_mul, mem_many_oneOf]
  constructor
  · rintro ⟨front, ⟨front', ⟨front'', ⟨opening, hOpening, groups, hGroups, rfl⟩, closing, hClosing,
      rfl⟩, colon, hColon, rfl⟩, port, hPort, rfl⟩
    obtain rfl : opening = [Mark.opening] := hOpening
    obtain rfl : closing = [Mark.closing] := hClosing
    obtain rfl : colon = [Mark.colon] := hColon
    exact ⟨groups, port, by simp, hGroups, hPort⟩
  · rintro ⟨groups, port, rfl, hGroups, hPort⟩
    exact ⟨_, ⟨_, ⟨_, ⟨[.opening], rfl, groups, hGroups, rfl⟩, [.closing], rfl, rfl⟩, [.colon], rfl,
      rfl⟩, port, hPort, by simp⟩

theorem isIpv6Str_colon {id : Text} (hIpv6 : isIpv6Str id = true) : ':' ∈ id := by
  have hColon : Mark.colon ∈ id.map mark := by
    rcases (isIpv6Str_iff id).mp hIpv6 with hGroups | hBracketed
    · exact (marks_hexGroups hGroups).2
    · obtain ⟨groups, port, hWord, -, -⟩ := mem_bracketed.mp hBracketed
      rw [hWord]
      simp
  obtain ⟨c, hMem, hMark⟩ := List.mem_map.mp hColon
  rwa [← (mark_colon_iff c).mp hMark]

/-- One to four hexadecimal digits. -/
def ShortHex (text : Text) : Prop :=
  text ≠ [] ∧ text.length ≤ 4 ∧
    ∀ c ∈ text, c.isDigit = true ∨ ('a' ≤ c ∧ c ≤ 'f') ∨ ('A' ≤ c ∧ c ≤ 'F')

theorem shortHex_singleton {c : Char} (h : c.isDigit = true) : ShortHex [c] :=
  ⟨List.cons_ne_nil _ _, by simp, fun _ hMem => Or.inl (List.mem_singleton.mp hMem ▸ h)⟩

theorem mark_hex_iff (c : Char) : mark c ∈ [Mark.digit, .letter] ↔
    c.isDigit = true ∨ ('a' ≤ c ∧ c ≤ 'f') ∨ ('A' ≤ c ∧ c ≤ 'F') := by
  unfold mark
  split_ifs with hDigit hLetter <;> simp [*]

theorem shortHex_iff (text : Text) : ShortHex text ↔ text.map mark ∈ hexGroup.matches' := by
  rw [mem_hexGroup, List.length_map, ne_eq, List.map_eq_nil_iff, List.forall_mem_map]
  simp only [mark_hex_iff]
  rfl

/-- A name with a port reads as an IPv6 address only if each side of the colon does as a
group of one. -/
theorem shortHex_of_isIpv6Str {host port : Text} (hHost : ':' ∉ host) (hPort : ':' ∉ port)
    (hIpv6 : isIpv6Str (host ++ ':' :: port) = true) : ShortHex host ∧ ShortHex port := by
  have hOne : (host ++ ':' :: port).count ':' = 1 := by
    rw [List.count_append, List.count_cons_self, List.count_eq_zero.mpr hHost,
      List.count_eq_zero.mpr hPort]
  have hMarks := count_colon (host ++ ':' :: port)
  have hWord : (host ++ ':' :: port).map mark = host.map mark ++ .colon :: port.map mark := by
    rw [List.map_append, List.map_cons, (mark_colon_iff ':').mpr rfl]
  rw [hOne] at hMarks
  rw [shortHex_iff, shortHex_iff]
  rcases (isIpv6Str_iff _).mp hIpv6 with hGroups | hBracketed
  · rw [hWord] at hGroups hMarks
    exact hexGroups_split hGroups hMarks
  · obtain ⟨groups, rest, hText, hGroups, -⟩ := mem_bracketed.mp hBracketed
    have hInside := List.count_pos_iff.mpr (marks_hexGroups hGroups).2
    rw [hText] at hMarks
    simp only [List.cons_append, List.append_assoc, List.count_cons, List.count_append,
      List.nil_append, beq_self_eq_true, if_true] at hMarks
    omega

/-- An IPv6 address without brackets and without a port: groups with one or two colons
between them. -/
inductive Groups : Text → Prop where
  | pair {first last : Text} : ShortHex first → ShortHex last → ∀ colons,
      colons = [':'] ∨ colons = [':', ':'] → Groups (first ++ colons ++ last)
  | more {first rest : Text} : ShortHex first → Groups rest → ∀ colons,
      colons = [':'] ∨ colons = [':', ':'] → Groups (first ++ colons ++ rest)

theorem mem_hexGroups_of {first colons middle last : List Mark} (hFirst : first ∈ hexGroup.matches')
    (hColons : colons = [Mark.colon] ∨ colons = [Mark.colon, .colon])
    (hMiddle : middle ∈ (hexGroup * repeated (oneOf [Mark.colon]) 2).star.matches')
    (hLast : last ∈ hexGroup.matches') :
    first ++ colons ++ middle ++ last ∈ hexGroups.matches' := by
  rw [hexGroups, many, matches'_mul, matches'_mul]
  apply Language.append_mem_mul _ hLast
  apply Language.append_mem_mul _ hMiddle
  rw [matches'_mul]
  exact Language.append_mem_mul hFirst (mem_colons.mpr hColons)

theorem Groups.mem_hexGroups {text : Text} (hGroups : Groups text) :
    text.map mark ∈ hexGroups.matches' := by
  have hMarks : ∀ colons : Text, colons = [':'] ∨ colons = [':', ':'] →
      colons.map mark = [Mark.colon] ∨ colons.map mark = [Mark.colon, .colon] := by
    rintro colons (rfl | rfl)
    · exact .inl rfl
    · exact .inr rfl
  induction hGroups with
  | @pair first last hFirst hLast colons hColons =>
      rw [List.map_append, List.map_append, ← List.append_nil (first.map mark ++ colons.map mark)]
      exact mem_hexGroups_of ((shortHex_iff first).mp hFirst) (hMarks colons hColons)
        (Language.nil_mem_kstar _) ((shortHex_iff last).mp hLast)
  | @more first rest hFirst hRest colons hColons ih =>
      obtain ⟨group, between, middle, last, hText, hGroup, hBetween, hMiddle, hLast⟩ :=
        HostPort.mem_hexGroups ih
      -- the first group of the rest is one more of those in the middle
      have hNext : group ++ between ++ middle ∈
          (hexGroup * repeated (oneOf [Mark.colon]) 2).star.matches' := by
        rw [matches'_star, Language.mem_kstar] at hMiddle ⊢
        obtain ⟨pieces, rfl, hPieces⟩ := hMiddle
        refine ⟨(group ++ between) :: pieces, rfl, List.forall_mem_cons.mpr ⟨?_, hPieces⟩⟩
        rw [matches'_mul]
        exact Language.append_mem_mul hGroup (mem_colons.mpr hBetween)
      rw [List.map_append, List.map_append, hText,
        ← List.append_assoc (first.map mark ++ colons.map mark)]
      exact mem_hexGroups_of ((shortHex_iff first).mp hFirst) (hMarks colons hColons) hNext hLast

end Pattern

section Numbers

theorem parseI64_of_digits {text : Text} (hSome : text ≠ []) (hDigits : ∀ c ∈ text, c.isDigit = true) :
    parseI64 text =
      (some (Int.ofNat (Nat.ofDigitChars 10 text 0))).filter fun value =>
        -(2 ^ 63) ≤ value ∧ value < 2 ^ 63 := by
  have hValue := digitsValue_of_digits hDigits 0
  cases text with
  | nil => exact absurd rfl hSome
  | cons c rest =>
      have hDigit := hDigits c List.mem_cons_self
      have hPlus : c ≠ '+' := by
        rintro rfl
        exact absurd hDigit (by decide)
      have hMinus : c ≠ '-' := by
        rintro rfl
        exact absurd hDigit (by decide)
      unfold parseI64
      split
      · contradiction
      · simp_all
      · simp_all
      · simp_all
      · simp_all
      · rw [hValue]
        rfl

/-- A number printed is read back. -/
theorem parseI32_toDigits {n : Nat} (hSmall : n < 2 ^ 31) :
    parseI32 (Nat.toDigits 10 n) = some (n : Int) := by
  have hDigits : ∀ c ∈ Nat.toDigits 10 n, c.isDigit = true :=
    fun c hMem => Nat.isDigit_of_mem_toDigits (by decide) (by decide) hMem
  unfold parseI32
  rw [parseI64_of_digits Nat.toDigits_ne_nil hDigits, Nat.ofDigitChars_ten_toDigits,
    Option.filter_some_pos, Option.filter_some_pos]
  · rfl
  · simp
    omega
  · simp
    omega

theorem colon_notMem_toDigits (n : Nat) : ':' ∉ Nat.toDigits 10 n := by
  intro hMem
  exact absurd (Nat.isDigit_of_mem_toDigits (by decide) (by decide) hMem) (by decide)

theorem closing_notMem_toDigits (n : Nat) : ']' ∉ Nat.toDigits 10 n := by
  intro hMem
  exact absurd (Nat.isDigit_of_mem_toDigits (by decide) (by decide) hMem) (by decide)

theorem splitBracket_cons {c : Char} (hOther : c ≠ ']') (text : Text) :
    splitBracket (c :: text) =
      match splitBracket text with
      | [] => [[c]]
      | piece :: pieces => (c :: piece) :: pieces := by
  rw [splitBracket]
  rintro rest hClosing
  exact absurd hClosing hOther

theorem splitBracket_of_notMem {text : Text} (hNone : ']' ∉ text) : splitBracket text = [text] := by
  induction text with
  | nil => rfl
  | cons c text ih =>
      obtain ⟨hFirst, hRest⟩ := not_or.mp (List.mem_cons.not.mp hNone)
      rw [splitBracket_cons (Ne.symm hFirst), ih hRest]

theorem splitBracket_append {text : Text} (hNone : ']' ∉ text) (rest : Text) :
    splitBracket (text ++ ']' :: ':' :: rest) = text :: splitBracket rest := by
  induction text with
  | nil => rw [List.nil_append, splitBracket]
  | cons c text ih =>
      obtain ⟨hFirst, hRest⟩ := not_or.mp (List.mem_cons.not.mp hNone)
      rw [List.cons_append, splitBracket_cons (Ne.symm hFirst), ih hRest]

theorem hostAndPort_toDigits (name : Text) {n : Nat} (hPos : 0 < n) (hSmall : n < 2 ^ 31) :
    hostAndPort [name, Nat.toDigits 10 n] = some (name, (n : Int)) := by
  unfold hostAndPort
  dsimp only
  rw [parseI32_toDigits hSmall, Option.getD_some]
  exact if_pos (Int.natCast_pos.mpr hPos)

end Numbers

section Helpers

/-- A port as the program prints and reads it. -/
theorem port_eq {p : Int} (hLow : 1 ≤ p) (hHigh : p ≤ 65535) :
    ∃ n : Nat, p = n ∧ 0 < n ∧ n < 2 ^ 31 ∧ showI32 p = Nat.toDigits 10 n := by
  obtain ⟨n, rfl⟩ := Int.eq_ofNat_of_zero_le (by omega : 0 ≤ p)
  exact ⟨n, rfl, by omega, by omega, rfl⟩

theorem wrapI32_of_port {p : Int} (hLow : 1 ≤ p) (hHigh : p ≤ 65535) : wrapI32 p = p := by
  unfold wrapI32
  rw [Int.bmod_def]
  omega

theorem isIpv6Str_of_noColon {host : Text} (hHost : ':' ∉ host) : isIpv6Str host = false := by
  rw [← Bool.not_eq_true]
  exact fun hIpv6 => hHost (isIpv6Str_colon hIpv6)

theorem checkPort_name {host : Text} (hHost : ':' ∉ host) (p : Int) :
    checkPort host p = host ++ ':' :: showI32 p := by
  rw [checkPort, isIpv6Str_of_noColon hHost, if_neg Bool.false_ne_true, if_pos hHost]

/-- A name with a port is one to all the helpers unless it is short and hexadecimal and
the port has at most four digits. -/
theorem isIpv6Str_name {host : Text} (hHost : ':' ∉ host) {p : Int} (hLow : 1 ≤ p) (hHigh : p ≤ 65535)
    (hNamed : ¬ (ShortHex host ∧ p < 10000)) : isIpv6Str (host ++ ':' :: showI32 p) = false := by
  obtain ⟨n, rfl, hPos, hSmall, hShow⟩ := port_eq hLow hHigh
  rw [← Bool.not_eq_true, hShow]
  intro hIpv6
  obtain ⟨hShort, hPort⟩ := shortHex_of_isIpv6Str hHost (colon_notMem_toDigits n) hIpv6
  have hDigits : n < 10 ^ 4 := (Nat.length_toDigits_le_iff (by decide) (by decide)).mp hPort.2.1
  apply hNamed
  exact ⟨hShort, by omega⟩

theorem splitChars_name {host : Text} (hHost : ':' ∉ host) (n : Nat) :
    splitChars ':' (host ++ ':' :: Nat.toDigits 10 n) = [host, Nat.toDigits 10 n] := by
  rw [splitChars_append hHost, splitChars_of_notMem (colon_notMem_toDigits n)]

section Groups
variable {x : Text} (hGroups : Groups x)
include hGroups

theorem Groups.isIpv6Str : isIpv6Str x = true := (isIpv6Str_iff x).mpr (.inl hGroups.mem_hexGroups)

theorem Groups.mark_mem {c : Char} (hMem : c ∈ x) : mark c ∈ [Mark.digit, .letter, .colon] :=
  (marks_hexGroups hGroups.mem_hexGroups).1 _ (List.mem_map_of_mem hMem)

theorem Groups.not_opening : ¬ ['['] <+: x := by
  rintro ⟨rest, rfl⟩
  have hMark := hGroups.mark_mem (List.mem_append_left rest (List.mem_singleton_self '['))
  exact absurd hMark (by decide)

theorem Groups.not_closing : ']' ∉ '[' :: x := by
  intro hMem
  rcases List.mem_cons.mp hMem with hHead | hTail
  · exact absurd hHead (by decide)
  · exact absurd (hGroups.mark_mem hTail) (by decide)

theorem Groups.checkPort (p : Int) :
    checkPort x p = '[' :: x ++ [']', ':'] ++ showI32 p := by
  rw [HostPort.checkPort, if_pos hGroups.isIpv6Str, if_neg hGroups.not_opening]

/-- In brackets and with a port, it is still an IPv6 address. -/
theorem Groups.isIpv6Str_bracketed (n : Nat) :
    HostPort.isIpv6Str ('[' :: x ++ [']', ':'] ++ Nat.toDigits 10 n) = true := by
  apply (isIpv6Str_iff _).mpr
  right
  apply mem_bracketed.mpr
  refine ⟨x.map mark, (Nat.toDigits 10 n).map mark, ?_, hGroups.mem_hexGroups, ?_, ?_⟩
  · rw [List.map_append, List.map_append]
    rfl
  · rw [ne_eq, List.map_eq_nil_iff]
    exact Nat.toDigits_ne_nil
  · intro m hMem
    obtain ⟨c, hDigit, rfl⟩ := List.mem_map.mp hMem
    rw [mark_of_isDigit (Nat.isDigit_of_mem_toDigits (by decide) (by decide) hDigit)]
    exact List.mem_cons_self

theorem Groups.splitBracket (n : Nat) :
    splitBracket ('[' :: x ++ [']', ':'] ++ Nat.toDigits 10 n) = ['[' :: x, Nat.toDigits 10 n] := by
  rw [List.append_assoc]
  exact (splitBracket_append hGroups.not_closing _).trans
    (congrArg _ (splitBracket_of_notMem (closing_notMem_toDigits n)))

end Groups

/-- The helpers agree on a host without a colon, unless it is short and hexadecimal and
the port has at most four digits; and they agree on an IPv6 address, which goes into
brackets. -/
theorem helpers_agree :
    (∀ (h : Text) (p : Int), ':' ∉ h → 1 ≤ p → p ≤ 65535 → ¬ (ShortHex h ∧ p < 10000) →
      splitHostPort (checkPort h p) = some (h, p) ∧
        (∀ q, checkPort (checkPort h p) q = checkPort h p) ∧
        ∀ d, 1 ≤ p + d → p + d ≤ 65535 → increasePort (checkPort h p) d = checkPort h (p + d)) ∧
    (∀ (x : Text) (p : Int), Groups x → 1 ≤ p → p ≤ 65535 →
      checkPort x p = '[' :: x ++ [']', ':'] ++ showI32 p ∧
        splitHostPort (checkPort x p) = some ('[' :: x ++ [']'], p) ∧
        (∀ q, checkPort (checkPort x p) q = checkPort x p) ∧
        ∀ d, 1 ≤ p + d → p + d ≤ 65535 → increasePort (checkPort x p) d = checkPort x (p + d)) := by
  constructor
  · intro h p hHost hLow hHigh hNamed
    have hName := isIpv6Str_name hHost hLow hHigh hNamed
    have hColon : ':' ∈ h ++ ':' :: showI32 p := List.mem_append_right h List.mem_cons_self
    obtain ⟨n, rfl, hPos, hSmall, hShow⟩ := port_eq hLow hHigh
    have hPair : hostAndPort (splitChars ':' (h ++ ':' :: showI32 n)) = some (h, (n : Int)) := by
      rw [hShow, splitChars_name hHost, hostAndPort_toDigits h hPos hSmall]
    rw [checkPort_name hHost]
    refine ⟨?_, fun q => ?_, fun d hFirst hLast => ?_⟩
    · rw [splitHostPort, hName, if_neg Bool.false_ne_true, if_pos hColon, hPair]
    · rw [checkPort, hName, if_neg Bool.false_ne_true, if_neg (not_not.mpr hColon)]
    · rw [increasePort, hName, if_neg Bool.false_ne_true, if_pos hColon, hPair,
        checkPort_name hHost]
      dsimp only
      rw [wrapI32_of_port hFirst hLast]
  · intro x p hGroups hLow hHigh
    obtain ⟨n, rfl, hPos, hSmall, hShow⟩ := port_eq hLow hHigh
    have hIpv6 := hGroups.isIpv6Str_bracketed n
    have hOpening : ['['] <+: '[' :: x ++ [']', ':'] ++ showI32 n := ⟨_, rfl⟩
    have hPair : hostAndPort (splitBracket ('[' :: x ++ [']', ':'] ++ showI32 n)) =
        some ('[' :: x, (n : Int)) := by
      rw [hShow, hGroups.splitBracket, hostAndPort_toDigits _ hPos hSmall]
    rw [← hShow] at hIpv6
    rw [hGroups.checkPort]
    refine ⟨rfl, ?_, fun q => ?_, fun d hFirst hLast => ?_⟩
    · rw [splitHostPort, if_pos hIpv6, if_pos hOpening, hPair]
      rfl
    · rw [checkPort, if_pos hIpv6, if_pos hOpening]
    · rw [increasePort, if_pos hIpv6, if_pos hOpening, hPair, hGroups.checkPort]
      dsimp only
      rw [wrapI32_of_port hFirst hLast]

/-- A name, and a short hexadecimal one with a long port. -/
theorem helpers_agree_cafe :
    splitHostPort (checkPort "cafe.org".toList 80) = some ("cafe.org".toList, 80) ∧
      increasePort (checkPort "cafe".toList 21116) 1 = checkPort "cafe".toList 21117 ∧
      splitHostPort (checkPort "1:2".toList 80) = some ("[1:2]".toList, 80) :=
  ⟨(helpers_agree.1 _ 80 (by decide) (by decide) (by decide) fun hShort =>
      absurd hShort.1.2.1 (by decide)).1,
    (helpers_agree.1 _ 21116 (by decide) (by decide) (by decide) fun hShort =>
      absurd hShort.2 (by decide)).2.2 1 (by decide) (by decide),
    (helpers_agree.2 _ 80
      (@Groups.pair ['1'] ['2'] (shortHex_singleton (by decide)) (shortHex_singleton (by decide)) [':']
        (.inl rfl)) (by decide) (by decide)).2.1⟩

/-- A host named `a` with a short port is taken for an IPv6 address, and an address in
brackets gets no port. -/
theorem short_hexadecimal_host :
    checkPort ['a'] 80 = "a:80".toList ∧ splitHostPort (checkPort ['a'] 80) = none ∧
      checkPort (checkPort ['a'] 80) 81 ≠ checkPort ['a'] 80 ∧
      increasePort (checkPort ['a'] 80) 1 ≠ checkPort ['a'] 81 ∧
      splitHostPort (checkPort "[1:2]".toList 80) = none := by
  decide +kernel

end Helpers

end HibtDesk.HostPort
