import HibtDesk.Common.Version
import HibtDesk.Library.Lowercase

/-! The settings of a server that the name of the program carries. -/
namespace HibtDesk

open Lowercase (byteLen splitAtByte find Lowercasing)

structure CustomServer where
  key : List Char := []
  host : List Char := []
  api : List Char := []
  relay : List Char := []
  deriving DecidableEq, Repr

namespace CustomServer

abbrev Text := List Char

/-- A slice that does not start or end where a character does. -/
inductive Panic where
  | charBoundary
  deriving DecidableEq, Repr

/-- What reads a licence: base64 without padding, JSON and the check of a signature. -/
structure LicenceReader where
  decode : Text → Option (List UInt8)
  fromSlice : List UInt8 → Option CustomServer
  verify : List UInt8 → List UInt8 → Option (List UInt8)

/-- A reader that finds no licence. -/
def LicenceReader.blind : LicenceReader := ⟨fun _ => none, fun _ => none, fun _ _ => none⟩

def pk : List UInt8 :=
  [88, 168, 68, 104, 60, 5, 163, 198, 165, 38, 12, 85, 114, 203, 96, 163, 70, 48, 0, 131, 57,
    12, 46, 129, 83, 17, 84, 193, 119, 197, 130, 103]

/-- `get_custom_server_from_config_string`. Which error there is, nobody looks at. -/
def getFromConfigString (reader : LicenceReader) (s : Text) : Option CustomServer := do
  let data ← reader.decode s.reverse
  (reader.fromSlice data).or do
    let data ← reader.verify data pk
    reader.fromSlice data

/-- What is between the places of a pattern. A number of characters is still part of one. -/
def splitBy (pattern : Text) : Nat → Text → List Text
  | _, [] => [[]]
  | n + 1, _ :: rest => splitBy pattern n rest
  | 0, c :: rest =>
      if pattern <+: c :: rest then [] :: splitBy pattern (pattern.length - 1) rest
      else (splitBy pattern 0 rest).modifyHead (c :: ·)

def replace (pattern new s : Text) : Text := List.intercalate new (splitBy pattern 0 s)

/-- The licence in a name without settings. -/
def findLicence (reader : LicenceReader) (s : Text) : Option CustomServer :=
  let dashes : Text := ['-', '-']
  let s := replace "-licensed---".toList dashes s
  let s := replace "-licensed--".toList dashes s
  let s := replace "-licensed-".toList dashes s
  (splitBy dashes 0 s).findSome? fun s =>
    (getFromConfigString reader (trimChars s)).or <|
      if '(' ∈ s then (s.splitOn '(').findSome? fun s => getFromConfigString reader (trimChars s) else none

inductive Label where
  | host | key | api | relay
  deriving DecidableEq, Repr

def Label.mark : Label → Text
  | host => ['h', 'o', 's', 't', '=']
  | key => ['k', 'e', 'y', '=']
  | api => ['a', 'p', 'i', '=']
  | relay => ['r', 'e', 'l', 'a', 'y', '=']

def exe : Text := ['.', 'e', 'x', 'e']

section Model
variable (L : Lowercasing) (reader : LicenceReader)

def sliceTo (s : Text) (n : Nat) : Except Panic Text :=
  match splitAtByte s n with
  | some parts => .ok parts.1
  | none => .error .charBoundary

def sliceFrom (s : Text) (n : Nat) : Except Panic Text :=
  match splitAtByte s n with
  | some parts => .ok parts.2
  | none => .error .charBoundary

def stripExe (s : Text) : Except Panic Text :=
  if exe ++ exe <:+ L.toLowercase s then sliceTo s (byteLen s - 8)
  else if exe <:+ L.toLowercase s then sliceTo s (byteLen s - 4)
  else .ok s

/-- One part between commas. -/
def readElement (server : CustomServer) (el : Text) : CustomServer :=
  let elLower := L.toLowercase el
  let server := if Label.host.mark <+: elLower then { server with host := el.drop 5 } else server
  let server := if Label.key.mark <+: elLower then { server with key := el.drop 4 } else server
  let server := if Label.api.mark <+: elLower then { server with api := el.drop 4 } else server
  if Label.relay.mark <+: elLower then { server with relay := el.drop 6 } else server

/-- `get_custom_server_from_string`. The byte where the host is in the copy in lower
case is where the string itself is cut. -/
def getCustomServerFromString (s : Text) : Except Panic (Except String CustomServer) := do
  let s ← stripExe L s
  if (find Label.host.mark (L.toLowercase s)).isSome then
    let stripped ← sliceFrom s ((find Label.host.mark (L.toLowercase s)).getD 0)
    return .ok ((stripped.splitOn ',').foldl (readElement L) {})
  else
    match findLicence reader s with
    | some lic => return .ok lic
    | none => return .error "Failed to parse"

end Model

/-- A label in any letter case, and its value. -/
structure Entry where
  label : Label
  spelled : Text
  value : Text
  isLabel : spelled.map Char.toLower = label.mark
  noComma : ',' ∉ value

def Entry.text (entry : Entry) : Text := entry.spelled ++ entry.value

/-- A host, and at most one key, api and relay in any order. -/
structure Settings where
  host : Entry
  others : List Entry
  isHost : host.label = .host
  notHost : ∀ entry ∈ others, entry.label ≠ .host
  distinct : (others.map Entry.label).Nodup

namespace Settings
variable (settings : Settings)

def text : Text := settings.host.text ++ settings.others.flatMap fun entry => ',' :: entry.text

def lastValue : Text := (settings.others.getLast?.getD settings.host).value

def valueOf (label : Label) : Text :=
  ((settings.others.find? (·.label = label)).map Entry.value).getD []

/-- What the settings say. -/
def server : CustomServer where
  key := settings.valueOf .key
  host := settings.host.value
  api := settings.valueOf .api
  relay := settings.valueOf .relay

end Settings

/-- The string ends like the name of a program, in some letter case. -/
def EndsExe (s : Text) : Prop := ∃ found, found <:+ s ∧ found.map Char.toLower = exe

/-- The string has the label of a host somewhere, in some letter case. -/
def NamesHost (s : Text) : Prop := ∃ found, found <:+: s ∧ found.map Char.toLower = Label.host.mark

section Case

theorem toNat_lt_of_toLower {c : Char} (h : c.toLower.toNat < 128) : c.toNat < 128 := by
  unfold Char.toLower at h
  split at h
  · rename_i hUpper
    exact Nat.lt_of_le_of_lt (UInt32.le_iff_toNat_le.mp hUpper.2) (by decide)
  · exact h

theorem ascii_of_map {found pattern : Text} (hMap : found.map Char.toLower = pattern)
    (hAscii : ∀ d ∈ pattern, d.toNat < 128) : ∀ c ∈ found, c.toNat < 128 := by
  intro c hMem
  refine toNat_lt_of_toLower (hAscii _ ?_)
  rw [← hMap]
  exact List.mem_map_of_mem hMem

theorem mark_ascii (label : Label) : ∀ d ∈ label.mark, d.toNat < 128 := by
  have hAll : label.mark.all (fun d => decide (d.toNat < 128)) = true := by cases label <;> rfl
  exact fun d hMem => of_decide_eq_true (List.all_eq_true.mp hAll d hMem)

theorem comma_notMem_spelled (entry : Entry) : ',' ∉ entry.spelled := by
  intro hMem
  have hComma : ',' ∈ entry.label.mark := by
    rw [← entry.isLabel]
    exact List.mem_map_of_mem (f := Char.toLower) hMem
  revert hComma
  cases entry.label <;> decide

/-- What ends like a program behind a label does so in the value. -/
theorem EndsExe.value {before : Text} {entry : Entry} (h : EndsExe (before ++ entry.text)) :
    EndsExe entry.value := by
  obtain ⟨found, hFound, hMap⟩ := h
  have hText : before ++ entry.text = (before ++ entry.spelled) ++ entry.value := by
    rw [Entry.text, List.append_assoc]
  rw [hText] at hFound
  rcases le_total found.length entry.value.length with hShort | hLong
  · exact ⟨found, List.suffix_of_suffix_length_le hFound (List.suffix_append _ _) hShort, hMap⟩
  · -- Otherwise the end of the label is in it.
    obtain ⟨early, hEarly⟩ := List.suffix_of_suffix_length_le (List.suffix_append _ _) hFound hLong
    rw [← hEarly] at hFound hMap
    obtain ⟨front, hFront⟩ := hFound
    rw [← List.append_assoc] at hFront
    have hLabel := List.append_cancel_right hFront
    rcases List.eq_nil_or_concat early with rfl | ⟨init, c, rfl⟩
    · exact ⟨entry.value, List.suffix_rfl, hMap⟩
    · exfalso
      have hLast := congrArg (fun text => (text.map Char.toLower).getLast?) hLabel
      have hMark : (entry.label.mark).getLast? = some '=' := by cases entry.label <;> rfl
      simp only [List.concat_eq_append, List.map_append, entry.isLabel, List.getLast?_append, hMark,
        List.map_cons, List.map_nil, List.getLast?_singleton, Option.some_or] at hLast
      have hMem : '=' ∈ exe := by
        rw [← hMap, List.concat_eq_append, List.map_append, List.map_append, List.map_singleton,
          Option.some.inj hLast]
        simp
      exact absurd hMem (by decide)

theorem not_endsExe_of_short {s : Text} (hShort : s.length < 4) : ¬ EndsExe s := by
  rintro ⟨found, hFound, hMap⟩
  have hLength := congrArg List.length hMap
  rw [List.length_map] at hLength
  have hFits := hFound.length_le
  change found.length = 4 at hLength
  omega

theorem not_namesHost_of_short {s : Text} (hShort : s.length < 5) : ¬ NamesHost s := by
  rintro ⟨found, hFound, hMap⟩
  have hLength := congrArg List.length hMap
  rw [List.length_map] at hLength
  have hFits := hFound.length_le
  change found.length = 5 at hLength
  omega

end Case

section Slices
variable {L : Lowercasing} {s : Text}

theorem exe_markers : ∀ d ∈ exe, Lowercasing.Marker d := Lowercasing.markers_of_all (by decide)

theorem endsExe_of_lower (h : exe <:+ L.toLowercase s) : EndsExe s :=
  Lowercasing.exists_suffix exe_markers h

theorem stripExe_plain (hNot : ¬ EndsExe s) : stripExe L s = .ok s := by
  have hOnce : ¬ exe <:+ L.toLowercase s := fun hEnd => hNot (endsExe_of_lower hEnd)
  have hTwice : ¬ exe ++ exe <:+ L.toLowercase s := fun hEnd =>
    hOnce ((List.suffix_append _ _).trans hEnd)
  rw [stripExe, if_neg hTwice, if_neg hOnce]

/-- Of a name with the ending of a program once, it is stripped. -/
theorem stripExe_exe (hNot : ¬ EndsExe s) : stripExe L (s ++ exe) = .ok s := by
  have hTwice : ¬ exe ++ exe <:+ L.toLowercase (s ++ exe) := by
    intro hEnd
    obtain ⟨found, ⟨front, hFront⟩, hMap⟩ :=
      Lowercasing.exists_suffix (Lowercasing.markers_of_all (by decide : (exe ++ exe).all _ = true)) hEnd
    have hLength : found.length = 8 := by
      rw [← List.length_map (f := Char.toLower), hMap]
      rfl
    rw [← List.take_append_drop 4 found, ← List.append_assoc] at hFront
    obtain ⟨hInit, -⟩ := List.append_inj' hFront (by rw [List.length_drop, hLength]; rfl)
    refine hNot ⟨found.take 4, ⟨front, hInit⟩, ?_⟩
    rw [List.map_take, hMap]
    rfl
  have hOnce : exe <:+ L.toLowercase (s ++ exe) := by
    rw [Lowercasing.toLowercase, Lowercasing.lowerIn_append,
      Lowercasing.lowerIn_ascii (s := exe) fun d hMem => (exe_markers d hMem).1]
    exact List.suffix_append _ _
  have hLength : byteLen (s ++ exe) - 4 = byteLen s := by
    rw [Lowercase.byteLen_append, show byteLen exe = 4 from rfl, Nat.add_sub_cancel]
  rw [stripExe, if_neg hTwice, if_pos hOnce, hLength, sliceTo, Lowercase.splitAtByte_append]

theorem sliceFrom_append (before s : Text) : sliceFrom (before ++ s) (byteLen before) = .ok s := by
  rw [sliceFrom, Lowercase.splitAtByte_append]

/-- The label of the host is found right behind what is before it. -/
theorem find_host {entry : Entry} (hHost : entry.label = .host) (hNone : ¬ NamesHost s)
    (rest : Text) :
    find Label.host.mark (L.toLowercase (s ++ (entry.text ++ rest))) =
      some (byteLen (L.toLowercase s)) := by
  have hLower : L.toLowercase (s ++ (entry.text ++ rest)) =
      L.lowerIn [] s (entry.text ++ rest ++ []) ++
        (Label.host.mark ++ L.lowerIn (s ++ entry.spelled) (entry.value ++ rest) []) := by
    have hLabel : entry.spelled.map Char.toLower = Label.host.mark := by rw [entry.isLabel, hHost]
    have hText : entry.text ++ rest = entry.spelled ++ (entry.value ++ rest) :=
      List.append_assoc ..
    have hSplit : L.lowerIn s (entry.text ++ rest) [] =
        Label.host.mark ++ L.lowerIn (s ++ entry.spelled) (entry.value ++ rest) [] := by
      rw [hText, Lowercasing.lowerIn_append,
        Lowercasing.lowerIn_ascii (ascii_of_map hLabel (mark_ascii _)), hLabel]
    rw [Lowercasing.toLowercase, Lowercasing.lowerIn_append, List.nil_append, hSplit]
  rw [hLower, ← Lowercasing.byteLen_lowerIn [] (entry.text ++ rest ++ [])]
  refine Lowercase.find_append (d := 'h') (by decide) fun hIn => hNone ?_
  exact Lowercasing.exists_infix (by decide) (Lowercasing.markers_of_all (by decide)) hIn

end Slices

section Elements
variable {L : Lowercasing}

def get (server : CustomServer) : Label → Text
  | .host => server.host
  | .key => server.key
  | .api => server.api
  | .relay => server.relay

def set (server : CustomServer) : Label → Text → CustomServer
  | .host, value => { server with host := value }
  | .key, value => { server with key := value }
  | .api, value => { server with api := value }
  | .relay, value => { server with relay := value }

@[simp] theorem get_set (server : CustomServer) (label other : Label) (value : Text) :
    (server.set label value).get other = if label = other then value else server.get other := by
  cases label <;> cases other <;> rfl

theorem ext_get {first second : CustomServer} (h : ∀ label, first.get label = second.get label) :
    first = second := by
  cases first
  cases second
  rw [CustomServer.mk.injEq]
  exact ⟨h .key, h .host, h .api, h .relay⟩

/-- Of the four labels an entry starts with its own one. -/
theorem mark_prefix_iff (entry : Entry) (label : Label) :
    label.mark <+: L.toLowercase entry.text ↔ label = entry.label := by
  have hLower : L.toLowercase entry.text =
      entry.label.mark ++ L.lowerIn entry.spelled entry.value [] := by
    rw [Entry.text, Lowercasing.toLowercase, Lowercasing.lowerIn_append,
      Lowercasing.lowerIn_ascii (ascii_of_map entry.isLabel (mark_ascii _)), entry.isLabel]
    rfl
  rw [hLower]
  cases label <;> cases entry.label <;> simp [Label.mark]

theorem length_spelled (entry : Entry) : entry.spelled.length = entry.label.mark.length := by
  rw [← entry.isLabel, List.length_map]

/-- An entry sets what its label says. -/
theorem readElement_entry (server : CustomServer) (entry : Entry) :
    readElement L server entry.text = server.set entry.label entry.value := by
  have hDrop : entry.text.drop entry.label.mark.length = entry.value := by
    rw [← length_spelled, Entry.text, List.drop_left]
  unfold readElement
  simp only [mark_prefix_iff]
  cases hLabel : entry.label <;> rw [hLabel] at hDrop <;> simpa [set, Label.mark] using hDrop

/-- What is read of entries with different labels is what each of them says. -/
theorem get_foldl (entries : List Entry) (hDistinct : (entries.map Entry.label).Nodup)
    (server : CustomServer) (label : Label) :
    ((entries.map Entry.text).foldl (readElement L) server).get label =
      ((entries.find? (·.label = label)).map Entry.value).getD (server.get label) := by
  induction entries generalizing server with
  | nil => rfl
  | cons entry entries ih =>
      rw [List.map_cons, List.nodup_cons] at hDistinct
      rw [List.map_cons, List.foldl_cons, ih hDistinct.2, readElement_entry, get_set]
      by_cases hLabel : entry.label = label
      · have hNone : entries.find? (·.label = label) = none := by
          rw [List.find?_eq_none]
          intro other hOther hSame
          refine hDistinct.1 (List.mem_map.mpr ⟨other, hOther, ?_⟩)
          rw [hLabel]
          simpa using hSame
        rw [hNone, List.find?_cons_of_pos (by simpa using hLabel), if_pos hLabel]
        rfl
      · rw [List.find?_cons_of_neg (by simpa using hLabel), if_neg hLabel]

theorem comma_notMem_text (entry : Entry) : ',' ∉ entry.text := by
  rw [Entry.text, List.mem_append, not_or]
  exact ⟨comma_notMem_spelled entry, entry.noComma⟩

theorem splitOn_entries (first : Entry) (rest : List Entry) :
    (first.text ++ rest.flatMap fun entry => ',' :: entry.text).splitOn ',' =
      (first :: rest).map Entry.text := by
  have hOne : ∀ entry : Entry, entry.text.splitOn ',' = [entry.text] := fun entry =>
    List.splitOn_eq_singleton (comma_notMem_text entry)
  induction rest generalizing first with
  | nil => simp [hOne]
  | cons second rest ih =>
      rw [List.flatMap_cons, List.cons_append, List.splitOn_append_cons_self, hOne, ih]
      rfl

end Elements

namespace Settings
variable {L : Lowercasing} (settings : Settings)

/-- The settings end with the last entry. -/
theorem text_eq_append : ∃ before,
    settings.text = before ++ (settings.others.getLast?.getD settings.host).text := by
  rcases List.eq_nil_or_concat settings.others with hNil | ⟨init, last, hConcat⟩
  · exact ⟨[], by simp [text, hNil]⟩
  · refine ⟨settings.host.text ++ (init.flatMap fun entry => ',' :: entry.text) ++ [','], ?_⟩
    simp [text, hConcat]

theorem not_endsExe (before : Text) (hLast : ¬ EndsExe settings.lastValue) :
    ¬ EndsExe (before ++ settings.text) := by
  obtain ⟨early, hEarly⟩ := settings.text_eq_append
  rw [hEarly, ← List.append_assoc]
  exact fun hEnd => hLast hEnd.value

/-- All of the settings are read from their text. -/
theorem foldl_text :
    (settings.text.splitOn ',').foldl (readElement L) {} = settings.server := by
  have hNoHost : settings.others.find? (·.label = .host) = none := by
    rw [List.find?_eq_none]
    intro entry hEntry hHost
    exact settings.notHost entry hEntry (by simpa using hHost)
  rw [text, splitOn_entries, List.map_cons, List.foldl_cons, readElement_entry, settings.isHost]
  apply ext_get
  intro label
  rw [get_foldl settings.others settings.distinct, get_set]
  cases label with
  | host =>
      rw [hNoHost]
      rfl
  | key => rfl
  | api => rfl
  | relay => rfl

end Settings

/-- The settings in the name of a program are read, where what is before them does not
change its length in lower case and the last value does not end like a program. -/
theorem getCustomServer_settings (L : Lowercasing) (reader : LicenceReader) (before : Text)
    (settings : Settings) (ending : Bool) (hNone : ¬ NamesHost before)
    (hSame : byteLen (L.toLowercase before) = byteLen before)
    (hLast : ¬ EndsExe settings.lastValue) :
    getCustomServerFromString L reader (before ++ settings.text ++ if ending then exe else []) =
      .ok (.ok settings.server) := by
  have hNot := settings.not_endsExe before hLast
  have hStrip : stripExe L (before ++ settings.text ++ if ending then exe else []) =
      .ok (before ++ settings.text) := by
    cases ending with
    | false => simpa using stripExe_plain hNot
    | true => exact stripExe_exe hNot
  have hFind : find Label.host.mark (L.toLowercase (before ++ settings.text)) =
      some (byteLen before) := by
    rw [← hSame]
    exact find_host settings.isHost hNone _
  rw [getCustomServerFromString, hStrip]
  change (if (find Label.host.mark (L.toLowercase (before ++ settings.text))).isSome then _ else _) = _
  rw [hFind, Option.isSome_some, if_pos rfl, Option.getD_some, sliceFrom_append]
  change Except.ok (Except.ok ((settings.text.splitOn ',').foldl (readElement L) {})) = _
  rw [settings.foldl_text]

-- A comma keeps what is put before the ending of a copied file out of the host.
example : getCustomServerFromString Lowercasing.latin LicenceReader.blind
    "rustdesk-host=server.example.net,(1).exe".toList =
      .ok (.ok { host := "server.example.net".toList }) := by decide +kernel

/-- A host, with nothing else. -/
def Settings.ofHost (value : Text) (noComma : ',' ∉ value) : Settings where
  host := ⟨.host, Label.host.mark, value, by decide, noComma⟩
  others := []
  isHost := rfl
  notHost := by simp
  distinct := List.nodup_nil

/-- The name of a program with a host and a key in upper case. -/
theorem getCustomServer_settings_upper :
    getCustomServerFromString Lowercasing.latin LicenceReader.blind "é-HOST=h,KEY=k.exe".toList =
      .ok (.ok { host := ['h'], key := ['k'] }) :=
  getCustomServer_settings Lowercasing.latin LicenceReader.blind ['é', '-']
    { host := ⟨.host, ['H', 'O', 'S', 'T', '='], ['h'], by decide, by decide⟩
      others := [⟨.key, ['K', 'E', 'Y', '='], ['k'], by decide, by decide⟩]
      isHost := rfl
      notHost := by decide
      distinct := by decide } true
    (not_namesHost_of_short (by decide)) (by decide) (not_endsExe_of_short (by decide))

/-- A dotted capital in front loses the host, a sign for kelvins stops the program, and a
host that ends like a program loses its ending. -/
theorem settings_not_read :
    ¬ NamesHost ['İ'] ∧ ¬ NamesHost ['é', '\u212A'] ∧
    getCustomServerFromString Lowercasing.latin LicenceReader.blind
      (['İ'] ++ (Settings.ofHost ['a'] (by decide)).text) = .ok (.ok {}) ∧
    getCustomServerFromString Lowercasing.latin LicenceReader.blind
      (['é', '\u212A'] ++ (Settings.ofHost ['a'] (by decide)).text) = .error .charBoundary ∧
    getCustomServerFromString Lowercasing.latin LicenceReader.blind
      (Settings.ofHost ['a', '.', 'e', 'x', 'e'] (by decide)).text = .ok (.ok { host := ['a'] }) := by
  refine ⟨not_namesHost_of_short (by decide), not_namesHost_of_short (by decide), ?_, ?_, ?_⟩
  · decide
  · decide
  · decide

end CustomServer

end HibtDesk
