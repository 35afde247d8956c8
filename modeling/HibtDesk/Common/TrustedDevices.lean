import HibtDesk.Common.StringSecurity
import HibtDesk.Library.Trace
import Mathlib.Algebra.Order.BigOperators.Group.List

/-! The devices that need no second factor for ninety days. The list is kept encrypted in the
configuration, and once it has been read or written it is kept in memory as well. -/
namespace HibtDesk.TrustedDevices

open Portable (Text encodeUtf8)

/-- A list of devices as JSON text. How one device is written and how a text is read is up to
`serde_json`. -/
structure Json where
  device : TrustedDevice → Text
  parse : Text → Option (List TrustedDevice)

def Json.toString (json : Json) (devices : List TrustedDevice) : Text :=
  '[' :: ([','].intercalate (devices.map json.device) ++ [']'])

def Json.Documented (json : Json) : Prop := ∀ devices, json.parse (json.toString devices) = some devices

/-- The time that a device was added with, and the last time since at which the list was written,
or read from the configuration. -/
structure Term where
  time : Int
  seen : Int

/-- The configuration and the cache, with whether it is in sync. Of the past it is kept which
devices have been removed and not been added again, and the terms of those that are trusted. -/
structure State where
  trustedDevices : Text
  cache : List TrustedDevice
  synced : Bool
  gone : Bytes → Bool
  trusted : Bytes → Option Term

inductive Event where
  | add (device : TrustedDevice)
  | remove (hwids : List Bytes)
  | clear
  | get
  /-- The program ends and is started again. -/
  | restart

def maxLen : Nat := 1024 * 1024

/-- The list is written or read. -/
def look (now : Int) (trusted : Bytes → Option Term) (hwid : Bytes) : Option Term :=
  (trusted hwid).map fun term => { term with seen := max term.seen now }

/-- The time of a device whose ninety days had not ended by then. -/
def live (trusted : Bytes → Option Term) (hwid : Bytes) : Option Int :=
  ((trusted hwid).filter fun term => decide (term.seen ≤ term.time + days90)).map Term.time

namespace State
variable (json : Json) (box : SecretBox) (s : State) (now : Int)

def setTrustedDevices (devices : List TrustedDevice) (trusted : Bytes → Option Term) : State :=
  let devices := devices.filter fun d => !d.outdate now
  let text := json.toString devices
  if maxLen < (encodeUtf8 text).length then s
  else
    { s with
      trustedDevices := encryptStrOrOriginal box text "00" maxLen
      cache := devices
      synced := true
      trusted := look now trusted }

def getTrustedDevices : List TrustedDevice × State :=
  if s.synced then (s.cache, s)
  else
    let (text, succ, store) := decryptStrOrOriginal box s.trustedDevices "00"
    if succ then
      let stored := (json.parse text).getD []
      let devices := stored.filter fun d => !d.outdate now
      let s := { s with trusted := look now s.trusted }
      let s :=
        if store || devices.length != stored.length then s.setTrustedDevices json box now devices s.trusted
        else s
      (devices, { s with cache := devices, synced := true })
    else ([], s)

def addTrustedDevice (device : TrustedDevice) : State :=
  let (devices, s) := s.getTrustedDevices json box now
  let s := { s with gone := fun hwid => if hwid = device.hwid then false else s.gone hwid }
  s.setTrustedDevices json box now ((devices.filter fun d => d.hwid != device.hwid) ++ [device])
    fun hwid => if hwid = device.hwid then some ⟨device.time, device.time⟩ else s.trusted hwid

def removeTrustedDevices (hwids : List Bytes) : State :=
  let (devices, s) := s.getTrustedDevices json box now
  let s := { s with gone := fun hwid => hwids.contains hwid || s.gone hwid }
  s.setTrustedDevices json box now (devices.filter fun d => !hwids.contains d.hwid)
    fun hwid => if hwids.contains hwid then none else s.trusted hwid

def clearTrustedDevices : State :=
  { s with gone := fun _ => true }.setTrustedDevices json box now [] fun _ => none

/-- One call at a time of the clock. -/
def step (s : State) : Int × Event → State
  | (now, .add device) => s.addTrustedDevice json box now device
  | (now, .remove hwids) => s.removeTrustedDevices json box now hwids
  | (now, .clear) => s.clearTrustedDevices json box now
  | (now, .get) => (s.getTrustedDevices json box now).2
  | (_, .restart) => { s with cache := [], synced := false }

/-- No device has been trusted yet. -/
def start : State where
  trustedDevices := []
  cache := []
  synced := false
  gone _ := false
  trusted _ := none

end State

/-- What a call returns: devices that are not out of date, no two of them the same, and none
that has been removed. -/
structure Answers (s : State) (now : Int) (devices : List TrustedDevice) : Prop where
  fresh : ∀ d ∈ devices, now ≤ d.time + days90
  distinct : (devices.map (·.hwid)).Nodup
  present : ∀ d ∈ devices, s.gone d.hwid = false

/-- Every call for the devices is answered as it should be. -/
def Honest (json : Json) (box : SecretBox) (s : State) : Int × Event → Prop
  | (now, .get) => Answers s now (s.getTrustedDevices json box now).1
  | _ => True

/-- No ninety days end between the last time the list was written or read and a call that is
answered from the cache. -/
def Timely (s : State) : Int × Event → Prop
  | (now, .get) => s.synced = true → ∀ hwid time, live s.trusted hwid = some time → now ≤ time + days90
  | _ => True

section Length
variable {json : Json}

def textLen (text : Text) : Nat := (encodeUtf8 text).length

theorem length_le_textLen (text : Text) : text.length ≤ textLen text := by
  induction text with
  | nil => exact Nat.zero_le _
  | cons c rest ih =>
      change rest.length + 1 ≤ (String.utf8EncodeChar c ++ encodeUtf8 rest).length
      rw [List.length_append, String.length_utf8EncodeChar]
      have hPos := c.utf8Size_pos
      unfold textLen at ih
      omega

theorem textLen_append (first second : Text) :
    textLen (first ++ second) = textLen first + textLen second := by
  unfold textLen
  rw [encodeUtf8_append, List.length_append]

/-- There is one separator less than there are parts. -/
theorem textLen_intercalate (parts : List Text) :
    textLen ([','].intercalate parts) = (parts.map fun part => textLen part + 1).sum - 1 := by
  induction parts with
  | nil => rfl
  | cons part rest ih =>
      cases rest with
      | nil => simp [List.intercalate]
      | cons next rest =>
          have hJoin : [','].intercalate (part :: next :: rest) =
              part ++ [','] ++ [','].intercalate (next :: rest) := by
            simp [List.intercalate]
          have hComma : textLen [','] = 1 := by decide
          rw [hJoin, textLen_append, textLen_append, ih, hComma]
          simp only [List.map_cons, List.sum_cons]
          omega

theorem textLen_toString (devices : List TrustedDevice) : textLen (json.toString devices) =
    ((devices.map fun device => textLen (json.device device) + 1).sum - 1) + 2 := by
  have hEnds : textLen ['['] = 1 ∧ textLen [']'] = 1 := by decide
  have hText : json.toString devices =
      ['['] ++ ([','].intercalate (devices.map json.device) ++ [']']) := rfl
  rw [hText, textLen_append, textLen_append, textLen_intercalate, hEnds.1, hEnds.2, List.map_map]
  simp only [Function.comp_def]
  omega

/-- A part of the devices takes no more room than all of them. -/
theorem textLen_sublist {devices part : List TrustedDevice} (hPart : part.Sublist devices) :
    textLen (json.toString part) ≤ textLen (json.toString devices) := by
  rw [textLen_toString, textLen_toString]
  have hSum := (hPart.map fun device => textLen (json.device device) + 1).sum_le_sum
    fun _ _ => Nat.zero_le _
  omega

end Length

/-- Devices that may be kept: no two are the same, none has been removed, and they fit. -/
structure Keepable (json : Json) (gone : Bytes → Bool) (devices : List TrustedDevice) : Prop where
  distinct : (devices.map (·.hwid)).Nodup
  present : ∀ d ∈ devices, gone d.hwid = false
  fits : textLen (json.toString devices) ≤ maxLen

namespace Keepable
variable {json : Json} {gone later : Bytes → Bool} {devices part : List TrustedDevice}

theorem nil : Keepable json gone [] :=
  ⟨List.nodup_nil, fun _ hMem => absurd hMem List.not_mem_nil, by
    rw [textLen_toString]
    exact Nat.le_of_ble_eq_true rfl⟩

theorem sublist (h : Keepable json gone devices) (hPart : part.Sublist devices) : Keepable json gone part :=
  ⟨h.distinct.sublist (hPart.map _), fun d hMem => h.present d (hPart.subset hMem),
    (textLen_sublist hPart).trans h.fits⟩

theorem fresh (h : Keepable json gone devices) (now : Int) :
    Keepable json gone (devices.filter fun d => !d.outdate now) := h.sublist List.filter_sublist

theorem mono (h : Keepable json gone devices)
    (hLater : ∀ d ∈ devices, gone d.hwid = false → later d.hwid = false) :
    Keepable json later devices :=
  ⟨h.distinct, fun d hMem => hLater d hMem (h.present d hMem), h.fits⟩

end Keepable

/-- The devices are those that are trusted and had not run out when they were looked at. -/
def Matches (trusted : Bytes → Option Term) (devices : List TrustedDevice) : Prop :=
  ∀ hwid time, live trusted hwid = some time ↔ ∃ d ∈ devices, d.hwid = hwid ∧ d.time = time

namespace Matches
variable {trusted : Bytes → Option Term} {devices : List TrustedDevice}

theorem look (h : Matches trusted devices) (now : Int) :
    Matches (look now trusted) (devices.filter fun d => !d.outdate now) := by
  intro hwid time
  have hLive : live (TrustedDevices.look now trusted) hwid = some time ↔
      live trusted hwid = some time ∧ now ≤ time + days90 := by
    unfold live TrustedDevices.look
    cases trusted hwid with
    | none => simp
    | some term =>
        simp only [Option.map_some, Option.map_eq_some_iff, Option.filter_eq_some_iff, Option.some.injEq,
          decide_eq_true_eq]
        constructor
        · rintro ⟨_, ⟨rfl, hSeen⟩, rfl⟩
          obtain ⟨hBefore, hNow⟩ := max_le_iff.mp hSeen
          exact ⟨⟨term, ⟨rfl, hBefore⟩, rfl⟩, hNow⟩
        · rintro ⟨⟨_, ⟨rfl, hBefore⟩, rfl⟩, hNow⟩
          exact ⟨_, ⟨rfl, max_le hBefore hNow⟩, rfl⟩
  rw [hLive, h hwid time]
  constructor
  · rintro ⟨⟨d, hMem, hHwid, rfl⟩, hNow⟩
    exact ⟨d, List.mem_filter.mpr ⟨hMem, by simpa [TrustedDevice.outdate] using hNow⟩, hHwid, rfl⟩
  · rintro ⟨d, hMem, hHwid, rfl⟩
    obtain ⟨hMem, hNow⟩ := List.mem_filter.mp hMem
    exact ⟨⟨d, hMem, hHwid, rfl⟩, by simpa [TrustedDevice.outdate] using hNow⟩

theorem add (h : Matches trusted devices) (device : TrustedDevice) :
    Matches (fun hwid => if hwid = device.hwid then some ⟨device.time, device.time⟩ else trusted hwid)
      ((devices.filter fun d => d.hwid != device.hwid) ++ [device]) := by
  intro hwid time
  have hOld := h hwid time
  have hDays : device.time ≤ device.time + days90 := by
    unfold days90
    omega
  unfold live at hOld ⊢
  dsimp only
  by_cases hSame : hwid = device.hwid
  · rw [if_pos hSame, Option.filter_some_pos (by simpa using hDays), Option.map_some, Option.some_inj]
    constructor
    · exact fun hTime => ⟨device, List.mem_append_right _ List.mem_cons_self, hSame.symm, hTime⟩
    · rintro ⟨d, hMem, hHwid, hTime⟩
      rcases List.mem_append.mp hMem with hOther | hNew
      · exact absurd (hHwid.trans hSame) (by simpa using (List.mem_filter.mp hOther).2)
      · rw [← hTime, List.mem_singleton.mp hNew]
  · simp only [if_neg hSame, hOld, List.mem_append, List.mem_filter, bne_iff_ne, List.mem_singleton]
    constructor
    · rintro ⟨d, hMem, rfl, rfl⟩
      exact ⟨d, Or.inl ⟨hMem, hSame⟩, rfl, rfl⟩
    · rintro ⟨d, ⟨hMem, -⟩ | rfl, rfl, rfl⟩
      · exact ⟨d, hMem, rfl, rfl⟩
      · exact absurd rfl hSame

theorem remove (h : Matches trusted devices) (hwids : List Bytes) :
    Matches (fun hwid => if hwids.contains hwid then none else trusted hwid)
      (devices.filter fun d => !hwids.contains d.hwid) := by
  intro hwid time
  have hOld := h hwid time
  unfold live at hOld ⊢
  dsimp only
  by_cases hGone : hwids.contains hwid = true
  · rw [if_pos hGone]
    refine iff_of_false (by simp) ?_
    rintro ⟨d, hMem, rfl, -⟩
    have hKept := (List.mem_filter.mp hMem).2
    rw [hGone] at hKept
    cases hKept
  · rw [if_neg hGone, hOld]
    constructor
    · rintro ⟨d, hMem, rfl, rfl⟩
      exact ⟨d, List.mem_filter.mpr ⟨hMem, by simpa using hGone⟩, rfl, rfl⟩
    · rintro ⟨d, hMem, hSame⟩
      exact ⟨d, (List.mem_filter.mp hMem).1, hSame⟩

theorem clear : Matches (fun _ => none) [] := by simp [Matches, live]

end Matches

/-- What is in the configuration and what is in the cache may be kept, and is what is trusted. -/
structure Sound (json : Json) (box : SecretBox) (s : State) : Prop where
  stored : ∃ devices, Keepable json s.gone devices ∧ Matches s.trusted devices ∧
    (s.trustedDevices = [] ∧ devices = [] ∨
      s.trustedDevices = encryptStrOrOriginal box (json.toString devices) "00" maxLen)
  cached : s.synced = true → Keepable json s.gone s.cache ∧ Matches s.trusted s.cache

section Sound
variable {json : Json} {box : SecretBox} {s : State} {now : Int} {devices : List TrustedDevice}

theorem sound_start : Sound json box .start :=
  ⟨⟨[], .nil, .clear, .inl ⟨rfl, rfl⟩⟩, fun hSynced => by cases hSynced⟩

theorem filter_outdate_fresh {d : TrustedDevice} (hMem : d ∈ devices.filter fun d => !d.outdate now) :
    d.outdate now = false := by
  simpa using (List.mem_filter.mp hMem).2

/-- Devices that may be kept are stored, whatever there was before. -/
theorem setTrustedDevices_of_keepable (h : Keepable json s.gone devices) {trusted : Bytes → Option Term}
    (hMatches : Matches trusted devices) (now : Int) :
    Sound json box (s.setTrustedDevices json box now devices trusted) ∧
      (s.setTrustedDevices json box now devices trusted).gone = s.gone ∧
      (s.setTrustedDevices json box now devices trusted).trusted = look now trusted := by
  have hFresh := h.fresh now
  have hLooked := hMatches.look now
  have hStored : s.setTrustedDevices json box now devices trusted =
      { s with
        trustedDevices := encryptStrOrOriginal box
          (json.toString (devices.filter fun d => !d.outdate now)) "00" maxLen
        cache := devices.filter fun d => !d.outdate now
        synced := true
        trusted := look now trusted } := if_neg (Nat.not_lt.mpr hFresh.fits)
  rw [hStored]
  exact ⟨⟨⟨_, hFresh, hLooked, .inr rfl⟩, fun _ => ⟨hFresh, hLooked⟩⟩, rfl, rfl⟩

/-- Devices that do not fit leave everything as it is. -/
theorem setTrustedDevices_sound (hSound : Sound json box s)
    (hDistinct : (devices.map (·.hwid)).Nodup) (hPresent : ∀ d ∈ devices, s.gone d.hwid = false)
    {trusted : Bytes → Option Term} (hMatches : Matches trusted devices) :
    Sound json box (s.setTrustedDevices json box now devices trusted) := by
  by_cases hFits : maxLen < textLen (json.toString (devices.filter fun d => !d.outdate now))
  · have hSame : s.setTrustedDevices json box now devices trusted = s := if_pos hFits
    rw [hSame]
    exact hSound
  · have hKeep : Keepable json s.gone (devices.filter fun d => !d.outdate now) :=
      ⟨hDistinct.sublist (List.filter_sublist.map _),
        fun d hMem => hPresent d (List.filter_sublist.subset hMem), Nat.not_lt.mp hFits⟩
    have hStored : s.setTrustedDevices json box now devices trusted = _ := if_neg hFits
    rw [hStored]
    have hLooked := hMatches.look now
    exact ⟨⟨_, hKeep, hLooked, .inr rfl⟩, fun _ => ⟨hKeep, hLooked⟩⟩

variable (hBox : box.Documented) (hAscii : box.DecodesAscii) (hJson : json.Documented)
include hBox hAscii

/-- JSON text is not taken for an encrypted one, and comes back whole. -/
theorem decrypt_stored (h : textLen (json.toString devices) ≤ maxLen) :
    decryptStrOrOriginal box (encryptStrOrOriginal box (json.toString devices) "00" maxLen) "00" =
      (json.toString devices, true, false) := by
  refine decryptStr_encryptStr hBox hAscii (List.cons_ne_nil _ _) ?_
    ((length_le_textLen _).trans h)
  unfold decryptStrOrOriginal
  rw [if_neg]
  rintro ⟨-, hZeros⟩
  obtain ⟨rest, hRest⟩ := hZeros
  exact absurd (List.cons.inj hRest).1 (by decide)

include hJson

/-- What `get_trusted_devices` returns may be kept. Without the cache it is also fresh. -/
theorem getTrustedDevices_spec (hSound : Sound json box s) (now : Int) :
    Keepable json s.gone (s.getTrustedDevices json box now).1 ∧
      Matches (s.getTrustedDevices json box now).2.trusted (s.getTrustedDevices json box now).1 ∧
      Sound json box (s.getTrustedDevices json box now).2 ∧
      (s.getTrustedDevices json box now).2.gone = s.gone ∧
      (s.synced = false → ∀ d ∈ (s.getTrustedDevices json box now).1, d.outdate now = false) := by
  cases hSynced : s.synced with
  | true =>
      have hCached : s.getTrustedDevices json box now = (s.cache, s) := if_pos hSynced
      obtain ⟨hKeep, hMatches⟩ := hSound.cached hSynced
      rw [hCached]
      exact ⟨hKeep, hMatches, hSound, rfl, fun hNot => by cases hNot⟩
  | false =>
      have hNot : ¬ s.synced = true := Bool.eq_false_iff.mp hSynced
      unfold State.getTrustedDevices
      rw [if_neg hNot]
      obtain ⟨stored, hKeep, hMatches, ⟨hNone, rfl⟩ | hStored⟩ := hSound.stored
      · rw [hNone]
        exact ⟨.nil, hMatches, hSound, rfl, fun _ _ hMem => absurd hMem List.not_mem_nil⟩
      · have hText := decrypt_stored hBox hAscii hKeep.fits
        rw [← hStored] at hText
        rw [hText]
        have hFresh := hKeep.fresh now
        have hLooked := hMatches.look now
        simp only [if_true, hJson stored, Option.getD_some, Bool.false_or]
        split_ifs with hLess
        · obtain ⟨hSet, hGone, hTrusted⟩ := setTrustedDevices_of_keepable
            (s := { s with trusted := look now s.trusted }) hFresh hLooked now
          have hTwice := hLooked.look now
          rw [List.filter_filter, ← hTrusted] at hTwice
          simp only [Bool.and_self] at hTwice
          have hCached := hFresh
          rw [← hGone] at hCached
          exact ⟨hFresh, hTwice, ⟨hSet.stored, fun _ => ⟨hCached, hTwice⟩⟩, hGone,
            fun _ d hMem => filter_outdate_fresh hMem⟩
        · have hAll : stored.filter (fun d => !d.outdate now) = stored := by
            refine List.filter_eq_self.mpr (List.length_filter_eq_length_iff.mp ?_)
            simpa using hLess
          refine ⟨hFresh, hLooked, ⟨⟨stored, hKeep, ?_, .inr hStored⟩, fun _ => ⟨hFresh, hLooked⟩⟩, rfl,
            fun _ d hMem => filter_outdate_fresh hMem⟩
          rw [hAll] at hLooked
          exact hLooked

theorem step_sound (hSound : Sound json box s) (event : Int × Event) :
    Sound json box (s.step json box event) := by
  obtain ⟨now, event⟩ := event
  cases event with
  | add device =>
      change Sound json box (s.addTrustedDevice json box now device)
      obtain ⟨hKeep, hMatches, hGot, hGone, -⟩ := getTrustedDevices_spec hBox hAscii hJson hSound now
      unfold State.addTrustedDevice
      cases hGet : s.getTrustedDevices json box now with
      | mk devices got =>
          rw [hGet] at hKeep hMatches hGot hGone
          dsimp only at hKeep hMatches hGot hGone ⊢
          refine setTrustedDevices_sound ⟨?_, fun hSynced => ?_⟩ ?_ ?_ (hMatches.add device)
          · obtain ⟨stored, hStored, hText⟩ := hGot.stored
            exact ⟨stored, hStored.mono fun d _ hLive => by simp [hLive], hText⟩
          · obtain ⟨hCached, hSame⟩ := hGot.cached hSynced
            exact ⟨hCached.mono fun d _ hLive => by simp [hLive], hSame⟩
          · rw [List.map_append, List.nodup_append]
            refine ⟨hKeep.distinct.sublist (List.filter_sublist.map _), List.pairwise_singleton _ _, ?_⟩
            intro hwid hMem other hOther
            obtain ⟨d, hFiltered, rfl⟩ := List.mem_map.mp hMem
            obtain rfl : other = device.hwid := by simpa using hOther
            simpa using (List.mem_filter.mp hFiltered).2
          · intro d hMem
            simp only [hGone]
            rcases List.mem_append.mp hMem with hOld | hNew
            · have hLive := hKeep.present d (List.filter_sublist.subset hOld)
              simp [hLive]
            · rw [List.mem_singleton.mp hNew]
              simp
  | remove hwids =>
      change Sound json box (s.removeTrustedDevices json box now hwids)
      obtain ⟨hKeep, hMatches, -, hGone, -⟩ := getTrustedDevices_spec hBox hAscii hJson hSound now
      unfold State.removeTrustedDevices
      cases hGet : s.getTrustedDevices json box now with
      | mk devices got =>
          rw [hGet] at hKeep hMatches hGone
          dsimp only at hKeep hMatches hGone ⊢
          refine (setTrustedDevices_of_keepable ((hKeep.sublist List.filter_sublist).mono ?_)
            (hMatches.remove hwids) now).1
          intro d hMem hLive
          have hOther : hwids.contains d.hwid = false := by simpa using (List.mem_filter.mp hMem).2
          simp only [hGone, hLive, hOther, Bool.or_false]
  | clear => exact (setTrustedDevices_of_keepable .nil .clear now).1
  | get => exact (getTrustedDevices_spec hBox hAscii hJson hSound now).2.2.1
  | restart => exact ⟨hSound.stored, fun hSynced => by cases hSynced⟩

/-- A call for the devices is answered as it should be exactly if no ninety days have ended since
the devices in the cache were looked at. -/
theorem honest_iff_timely (hSound : Sound json box s) (event : Int × Event) :
    Honest json box s event ↔ Timely s event := by
  obtain ⟨now, event⟩ := event
  cases event with
  | get =>
      change Answers s now (s.getTrustedDevices json box now).1 ↔
        (s.synced = true → ∀ hwid time, live s.trusted hwid = some time → now ≤ time + days90)
      obtain ⟨hKeep, -, -, -, hFresh⟩ := getTrustedDevices_spec hBox hAscii hJson hSound now
      constructor
      · intro hAnswers hSynced hwid time hLive
        have hCached : s.getTrustedDevices json box now = (s.cache, s) := if_pos hSynced
        rw [hCached] at hAnswers
        obtain ⟨d, hMem, -, rfl⟩ := ((hSound.cached hSynced).2 hwid time).mp hLive
        exact hAnswers.fresh d hMem
      · intro hTimely
        refine ⟨fun d hMem => ?_, hKeep.distinct, hKeep.present⟩
        cases hSynced : s.synced with
        | true =>
            have hCached : s.getTrustedDevices json box now = (s.cache, s) := if_pos hSynced
            rw [hCached] at hMem
            exact hTimely hSynced d.hwid d.time (((hSound.cached hSynced).2 _ _).mpr ⟨d, hMem, rfl, rfl⟩)
        | false =>
            have hNot := hFresh hSynced d hMem
            unfold TrustedDevice.outdate at hNot
            rw [decide_eq_false_iff_not] at hNot
            omega
  | _ => exact Iff.rfl

/-- In a run of calls every one is answered as it should be exactly if no ninety
days end between the last time the list was written or read and a call answered from the cache. -/
theorem honest_iff (events : List (Int × Event)) :
    Trace.Always (State.step json box) (Honest json box) .start events ↔
      Trace.Always (State.step json box) Timely .start events := by
  constructor
  · refine Trace.always_of_invariant _ (Sound json box) ?_ ?_ sound_start
    · exact fun s event _ hSound => step_sound hBox hAscii hJson hSound event
    · exact fun s event hHonest hSound => (honest_iff_timely hBox hAscii hJson hSound event).mp hHonest
  · refine Trace.always_of_invariant _ (Sound json box) ?_ ?_ sound_start
    · exact fun s event _ hSound => step_sound hBox hAscii hJson hSound event
    · exact fun s event hTimely hSound => (honest_iff_timely hBox hAscii hJson hSound event).mpr hTimely

end Sound

section Unary

/-- Numbers, each as so many zeros before a one. -/
def unary (numbers : List Nat) : Text := numbers.flatMap fun n => List.replicate n '0' ++ ['1']

/-- Two texts are the same up to the first separator, and after it. -/
theorem split_at_first {c : Char} {first second before after : Text} (hFirst : c ∉ first)
    (hSecond : c ∉ second) (hSame : first ++ c :: before = second ++ c :: after) :
    first = second ∧ before = after := by
  induction first generalizing second with
  | nil =>
      cases second with
      | nil => exact ⟨rfl, (List.cons.inj hSame).2⟩
      | cons d rest => exact absurd ((List.cons.inj hSame).1 ▸ List.mem_cons_self) hSecond
  | cons d rest ih =>
      cases second with
      | nil => exact absurd ((List.cons.inj hSame).1 ▸ List.mem_cons_self) hFirst
      | cons e other =>
          obtain ⟨rfl, hRest⟩ := List.cons.inj hSame
          obtain ⟨rfl, hAfter⟩ := ih (fun hMem => hFirst (List.mem_cons_of_mem _ hMem))
            (fun hMem => hSecond (List.mem_cons_of_mem _ hMem)) hRest
          exact ⟨rfl, hAfter⟩

theorem mem_unary {numbers : List Nat} {c : Char} (hMem : c ∈ unary numbers) : c = '0' ∨ c = '1' := by
  obtain ⟨n, -, hDigit⟩ := List.mem_flatMap.mp hMem
  rcases List.mem_append.mp hDigit with hZero | hOne
  · exact .inl (List.eq_of_mem_replicate hZero)
  · exact .inr (List.mem_singleton.mp hOne)

theorem unary_cons (n : Nat) (rest : List Nat) :
    unary (n :: rest) = List.replicate n '0' ++ '1' :: unary rest := by simp [unary]

theorem unary_injective : Function.Injective unary := by
  intro first second hSame
  have hNot : ∀ n : Nat, '1' ∉ List.replicate n '0' :=
    fun n hMem => absurd (List.eq_of_mem_replicate hMem) (by decide)
  induction first generalizing second with
  | nil =>
      cases second with
      | nil => rfl
      | cons n rest =>
          rw [unary_cons] at hSame
          exact absurd hSame.symm (by simp [unary])
  | cons n rest ih =>
      cases second with
      | nil =>
          rw [unary_cons] at hSame
          exact absurd hSame (by simp [unary])
      | cons m other =>
          rw [unary_cons, unary_cons] at hSame
          obtain ⟨hZeros, hRest⟩ := split_at_first (hNot n) (hNot m) hSame
          have hCount : n = m := by simpa using congrArg List.length hZeros
          rw [hCount, ih hRest]

def letters (s : String) : List Nat := s.toList.map Char.toNat

theorem letters_injective : Function.Injective letters := by
  intro first second hSame
  refine String.toList_inj.mp (List.map_injective_iff.mpr (fun c d hChar => ?_) hSame)
  exact Char.ext (UInt32.toNat_inj.mp hChar)

/-- A device in place of its JSON text, without commas. -/
def unaryDevice (d : TrustedDevice) : Text :=
  unary (d.hwid.map UInt8.toNat) ++ '|' :: (unary [d.time.toNat, (-d.time).toNat] ++
    '|' :: (unary (letters d.id) ++ '|' :: (unary (letters d.name) ++ '|' :: unary (letters d.platform))))

theorem unaryDevice_injective : Function.Injective unaryDevice := by
  intro first second hSame
  have hNot : ∀ numbers, '|' ∉ unary numbers := by
    intro numbers hMem
    rcases mem_unary hMem with h | h
    · exact absurd h (by decide)
    · exact absurd h (by decide)
  unfold unaryDevice at hSame
  obtain ⟨hHwid, hSame⟩ := split_at_first (hNot _) (hNot _) hSame
  obtain ⟨hTime, hSame⟩ := split_at_first (hNot _) (hNot _) hSame
  obtain ⟨hId, hSame⟩ := split_at_first (hNot _) (hNot _) hSame
  obtain ⟨hName, hPlatform⟩ := split_at_first (hNot _) (hNot _) hSame
  have hHwid := List.map_injective_iff.mpr (fun _ _ => UInt8.toNat_inj.mp) (unary_injective hHwid)
  have hTime := unary_injective hTime
  simp only [List.cons.injEq, and_true] at hTime
  have hTime : first.time = second.time := by omega
  rw [TrustedDevice.mk.injEq]
  exact ⟨hHwid, hTime, letters_injective (unary_injective hId),
    letters_injective (unary_injective hName), letters_injective (unary_injective hPlatform)⟩

/-- A separator after every part tells the parts apart. -/
theorem flatMap_unaryDevice_injective :
    Function.Injective
      fun devices : List TrustedDevice => devices.flatMap fun d => unaryDevice d ++ [','] := by
  intro first second hSame
  dsimp only at hSame
  induction first generalizing second with
  | nil =>
      cases second with
      | nil => rfl
      | cons d rest => exact absurd hSame.symm (by simp)
  | cons d rest ih =>
      cases second with
      | nil => exact absurd hSame (by simp)
      | cons e other =>
          have hNot : ∀ d, ',' ∉ unaryDevice d := by
            intro d hMem
            simp only [unaryDevice, List.mem_append, List.mem_cons] at hMem
            rcases hMem with h | h | h | h | h | h | h | h | h
            all_goals first
              | exact absurd h (by decide)
              | rcases mem_unary h with h | h <;> exact absurd h (by decide)
          simp only [List.flatMap_cons, List.append_assoc, List.singleton_append] at hSame
          obtain ⟨hDevice, hRest⟩ := split_at_first (hNot d) (hNot e) hSame
          rw [unaryDevice_injective hDevice, ih hRest]

theorem intercalate_concat (parts : List Text) (hSome : parts ≠ []) :
    [','].intercalate parts ++ [','] = parts.flatMap (· ++ [',']) := by
  induction parts with
  | nil => exact absurd rfl hSome
  | cons part rest ih =>
      cases rest with
      | nil => simp [List.intercalate]
      | cons next rest =>
          have hJoin : [','].intercalate (part :: next :: rest) =
              part ++ ',' :: [','].intercalate (next :: rest) := by
            simp [List.intercalate]
          rw [hJoin, List.append_assoc, List.cons_append, ih (List.cons_ne_nil _ _)]
          simp

noncomputable def Json.unary : Json where
  device := unaryDevice
  parse := Function.partialInv fun devices => '[' :: ([','].intercalate (devices.map unaryDevice) ++ [']'])

theorem Json.unary_documented : Json.unary.Documented := by
  refine Function.partialInv_left fun first second hSame => ?_
  have hBody := List.append_cancel_right (List.cons.inj hSame).2
  have hSome : ∀ (d : TrustedDevice) rest, [','].intercalate ((d :: rest).map unaryDevice) ≠ [] := by
    intro d rest hNil
    have hConcat := intercalate_concat ((d :: rest).map unaryDevice) (List.cons_ne_nil _ _)
    rw [hNil] at hConcat
    have hLength := congrArg List.length hConcat
    simp [unaryDevice] at hLength
    omega
  cases first with
  | nil =>
      cases second with
      | nil => rfl
      | cons d rest => exact absurd hBody.symm (hSome d rest)
  | cons d rest =>
      cases second with
      | nil => exact absurd hBody (hSome d rest)
      | cons e other =>
          refine flatMap_unaryDevice_injective ?_
          have hConcat : [','].intercalate (unaryDevice d :: rest.map unaryDevice) ++ [','] =
              [','].intercalate (unaryDevice e :: other.map unaryDevice) ++ [','] :=
            congrArg (· ++ [',']) hBody
          rw [intercalate_concat _ (List.cons_ne_nil _ _), intercalate_concat _ (List.cons_ne_nil _ _)]
            at hConcat
          simpa [List.flatMap_map] using hConcat

end Unary

def device : TrustedDevice where
  hwid := []
  time := 0
  id := ""
  name := ""
  platform := ""

/-- A device is returned to the last of its ninety days, and no more after a restart. -/
theorem device_runs_out : Trace.Always (State.step .unary .clear) (Honest .unary .clear) .start
    [(0, .add device), (days90, .get), (days90, .restart), (days90 + 1, .get)] := by
  refine (honest_iff SecretBox.clear_documented SecretBox.clear_decodesAscii Json.unary_documented _).mpr ?_
  have hTrusted : (State.step .unary .clear .start (0, .add device)).trusted =
      look 0 fun hwid => if hwid = [] then some ⟨0, 0⟩ else none := rfl
  refine ⟨trivial, fun _ hwid time hLive => ?_, trivial, fun hSynced => ?_, trivial⟩
  · rw [hTrusted] at hLive
    unfold live look at hLive
    dsimp only at hLive
    split at hLive
    · obtain ⟨term, hTerm, rfl⟩ := Option.map_eq_some_iff.mp hLive
      obtain rfl := Option.some.inj (Option.filter_eq_some_iff.mp hTerm).1
      exact Int.le_add_of_nonneg_left (Int.le_refl 0)
    · cases hLive
  · exact absurd hSynced Bool.false_ne_true

/-- A device is trusted, and once the ninety days are over it is still in the cache. -/
theorem outdated_device_is_trusted : ¬ Trace.Always (State.step .unary .clear) (Honest .unary .clear) .start
    [(0, .add device), (days90 + 1, .get)] := by
  rintro ⟨-, hAnswers, -⟩
  have hAdded : (State.step .unary .clear .start (0, .add device)).cache = [device] ∧
      (State.step .unary .clear .start (0, .add device)).synced = true := ⟨rfl, rfl⟩
  have hReturned : (State.getTrustedDevices .unary .clear
      (State.step .unary .clear .start (0, .add device)) (days90 + 1)).1 = [device] := by
    unfold State.getTrustedDevices
    rw [if_pos hAdded.2, hAdded.1]
  have hFresh := hAnswers.fresh device (hReturned ▸ List.mem_singleton_self device)
  exact absurd hFresh (by decide)

end HibtDesk.TrustedDevices
