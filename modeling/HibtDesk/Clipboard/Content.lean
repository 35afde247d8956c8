import HibtDesk.FileTransfer.Job
import HibtDesk.Library.Casts
import Mathlib.Data.List.Basic

/-! What is copied, as it travels to the peer. Each kind of content is compressed
unless that makes it longer, and the peer is told which of the two it gets. -/
namespace HibtDesk.Clipboard

open FileTransfer (compress decompress)

inductive ImageData where
  | rgba (width height : Nat) (bytes : Bytes)
  | png (bytes : Bytes)
  | svg (text : String)
  deriving DecidableEq, Repr

def ImageData.bytes : ImageData → Bytes
  | rgba _ _ bytes => bytes
  | png bytes => bytes
  | svg text => utf8 text

inductive ClipboardData where
  | text (s : String)
  | rtf (s : String)
  | html (s : String)
  | image (a : ImageData)
  | fileUrl (urls : List String)
  | special (name : String) (data : Bytes)
  deriving DecidableEq, Repr

inductive ClipboardFormat where
  | text | rtf | html | imageRgba | imagePng | imageSvg | special
  deriving DecidableEq, Repr

/-- The message for one item. There is no format for a number the enumeration does
not have; the sides of an image are `int32`. -/
structure Message where
  compress : Bool
  content : Bytes
  width : BitVec 32
  height : BitVec 32
  format : Option ClipboardFormat
  specialName : String
  deriving DecidableEq, Repr

/-- `String::from_utf8`. -/
def fromUtf8 (bytes : Bytes) : Option String := String.fromUTF8? bytes.toByteArray

section Encode
variable (zstdCompress : Bytes → Option Bytes)

/-- The compressed content if that is shorter than the data, else the plain one. -/
def shorter (data plain : Bytes) : Bool × Bytes :=
  let compressed := compress zstdCompress data
  if compressed.length < data.length then (true, compressed) else (false, plain)

def plainToProto (s : String) (format : ClipboardFormat) : Message :=
  let (compress, content) := shorter zstdCompress (utf8 s) (utf8 s)
  { compress := compress
    content := content
    width := 0
    height := 0
    format := some format
    specialName := "" }

def imageToProto (a : ImageData) : Message :=
  match a with
  | .rgba width height _ =>
      let (compress, content) := shorter zstdCompress a.bytes a.bytes
      { compress := compress
        content := content
        width := .ofNat 32 width
        height := .ofNat 32 height
        format := some .imageRgba
        specialName := "" }
  | .png png =>
      { compress := false
        content := png
        width := 0
        height := 0
        format := some .imagePng
        specialName := "" }
  | .svg _ =>
      let (compress, content) := shorter zstdCompress a.bytes a.bytes
      { compress := compress
        content := content
        width := 0
        height := 0
        format := some .imageSvg
        specialName := "" }

/-- `special_to_proto`. What it sends plain is the name. -/
def specialToProto (d : Bytes) (s : String) : Message :=
  let (compress, content) := shorter zstdCompress d (utf8 s)
  { compress := compress
    content := content
    width := 0
    height := 0
    format := some .special
    specialName := s }

def clipboardDataToProto : ClipboardData → Option Message
  | .text s => some (plainToProto zstdCompress s .text)
  | .rtf s => some (plainToProto zstdCompress s .rtf)
  | .html s => some (plainToProto zstdCompress s .html)
  | .image a => some (imageToProto zstdCompress a)
  | .special s d => some (specialToProto zstdCompress d s)
  | .fileUrl _ => none

end Encode

/-- `create_multi_clipboards`. The compressor may do well on one item and fail on
another, so there is one for each place. -/
def createMultiClipboards (zstdCompress : Nat → Bytes → Option Bytes)
    (vecData : List ClipboardData) : List Message :=
  vecData.zipIdx.filterMap fun item => clipboardDataToProto (zstdCompress item.2) item.1

/-- The bytes of a message as the receiver has them. -/
def Message.data (env : FileTransfer.Env) (clipboard : Message) : Bytes :=
  if clipboard.compress then decompress env clipboard.content else clipboard.content

def fromClipboard (env : FileTransfer.Env) (clipboard : Message) : Option ClipboardData :=
  let data := clipboard.data env
  match clipboard.format with
  | some .text => (fromUtf8 data).map .text
  | some .rtf => (fromUtf8 data).map .rtf
  | some .html => (fromUtf8 data).map .html
  | some .imageRgba =>
      some (.image (.rgba (Casts.widen 64 clipboard.width).toNat
        (Casts.widen 64 clipboard.height).toNat data))
  | some .imagePng => some (.image (.png data))
  | some .imageSvg => some (.image (.svg ((fromUtf8 data).getD "")))
  | some .special => some (.special clipboard.specialName data)
  | none => none

def fromMultiClipbards (env : FileTransfer.Env) (multiClipboards : List Message) :
    List ClipboardData :=
  multiClipboards.filterMap (fromClipboard env)

/-- The kinds of content that travel, with sides of 32 bits. -/
def ClipboardData.Travels : ClipboardData → Prop
  | .image (.rgba width height _) => width < 2 ^ 32 ∧ height < 2 ^ 32
  | .fileUrl _ => False
  | _ => True

/-- The compressor does not fail on the data, or there is none. -/
def Compresses (zstdCompress : Bytes → Option Bytes) (data : Bytes) : Prop :=
  zstdCompress data = none → data = []

/-- What it takes for an item to arrive as it is. -/
def ClipboardData.Survives (zstdCompress : Bytes → Option Bytes) : ClipboardData → Prop
  | .text s | .rtf s | .html s | .image (.svg s) => Compresses zstdCompress (utf8 s)
  | .image (.rgba width height bytes) =>
      width < 2 ^ 31 ∧ height < 2 ^ 31 ∧ Compresses zstdCompress bytes
  | .image (.png _) => True
  | .special name data =>
      Compresses zstdCompress data ∧
        (data.length ≤ (compress zstdCompress data).length → utf8 name = data)
  | .fileUrl _ => False

theorem toByteArray_utf8 (s : String) : (utf8 s).toByteArray = s.toByteArray := by
  rw [← String.utf8Encode_toList]
  rfl

theorem fromUtf8_eq_some_iff {bytes : Bytes} {s : String} :
    fromUtf8 bytes = some s ↔ bytes = utf8 s := by
  unfold fromUtf8 String.fromUTF8?
  constructor
  · intro h
    split at h
    · have hBytes : bytes.toByteArray = s.toByteArray :=
        congrArg String.toByteArray (Option.some.inj h)
      rw [← toByteArray_utf8 s] at hBytes
      exact List.toByteArray_inj.mp hBytes
    · cases h
  · rintro rfl
    rw [dif_pos (toByteArray_utf8 s ▸ s.isValidUTF8)]
    simp [String.fromUTF8, toByteArray_utf8]

section Item
variable {env : FileTransfer.Env} {zstdCompress : Bytes → Option Bytes}
  (hInverse : ∀ data compressed, zstdCompress data = some compressed →
    env.zstdDecodeAll compressed = some data)
  (hEmpty : decompress env [] = [])
include hInverse hEmpty

/-- What the receiver makes of the content is the data, unless the compressor failed
or the plain content is not the data. -/
theorem data_eq_iff {data plain : Bytes} (clipboard : Message)
    (hSent : (clipboard.compress, clipboard.content) = shorter zstdCompress data plain) :
    clipboard.data env = data ↔
      Compresses zstdCompress data ∧
        (data.length ≤ (compress zstdCompress data).length → plain = data) := by
  unfold shorter compress at hSent
  unfold Message.data Compresses compress
  cases hCompressed : zstdCompress data with
  | some compressed =>
      by_cases hShorter : compressed.length < data.length
      · have hDecoded := hInverse data compressed hCompressed
        obtain ⟨hFlag, hContent⟩ : clipboard.compress = true ∧ clipboard.content = compressed := by
          simpa [hCompressed, hShorter] using hSent
        simp [hFlag, hContent, hShorter, decompress, hDecoded]
      · obtain ⟨hFlag, hContent⟩ : clipboard.compress = false ∧ clipboard.content = plain := by
          simpa [hCompressed, hShorter] using hSent
        simp [hFlag, hContent, Nat.not_lt.mp hShorter]
  | none =>
      cases data with
      | nil =>
          obtain ⟨hFlag, hContent⟩ : clipboard.compress = false ∧ clipboard.content = plain := by
            simpa [hCompressed] using hSent
          simp [hFlag, hContent]
      | cons byte data =>
          obtain ⟨hFlag, hContent⟩ : clipboard.compress = true ∧ clipboard.content = [] := by
            simpa [hCompressed] using hSent
          simp [hFlag, hContent, hEmpty]

/-- If the plain content is the data, it arrives if and only if the compressor does not fail. -/
theorem plain_data_eq_iff {data : Bytes} (clipboard : Message)
    (hSent : (clipboard.compress, clipboard.content) = shorter zstdCompress data data) :
    clipboard.data env = data ↔ Compresses zstdCompress data := by
  rw [data_eq_iff hInverse hEmpty clipboard hSent]
  exact and_iff_left fun _ => rfl

omit hInverse in
/-- If the compressor fails, nothing arrives. -/
theorem data_eq_nil {data : Bytes} (clipboard : Message)
    (hSent : (clipboard.compress, clipboard.content) = shorter zstdCompress data data)
    (hFails : ¬ Compresses zstdCompress data) : clipboard.data env = [] := by
  unfold Compresses at hFails
  push Not at hFails
  obtain ⟨hNone, hSome⟩ := hFails
  have hLength : 0 < data.length := List.length_pos_iff.mpr hSome
  obtain ⟨hFlag, hContent⟩ : clipboard.compress = true ∧ clipboard.content = [] := by
    simpa [shorter, compress, hNone, hLength] using hSent
  simp [Message.data, hFlag, hContent, hEmpty]

/-- The three plain kinds arrive if and only if the compressor does not fail. -/
theorem plain_iff (s : String) (format : ClipboardFormat) {kind : String → ClipboardData}
    (hKind : Function.Injective kind)
    (hFormat : ∀ clipboard : Message, clipboard.format = some format →
      fromClipboard env clipboard = (fromUtf8 (clipboard.data env)).map kind) :
    fromClipboard env (plainToProto zstdCompress s format) = some (kind s) ↔
      Compresses zstdCompress (utf8 s) := by
  rw [hFormat _ rfl, ← plain_data_eq_iff hInverse hEmpty (plainToProto zstdCompress s format) rfl,
    ← fromUtf8_eq_some_iff]
  constructor
  · intro hSome
    obtain ⟨found, hFound, hSame⟩ := Option.map_eq_some_iff.mp hSome
    obtain rfl := hKind hSame
    exact hFound
  · intro hFound
    rw [Option.map_eq_some_iff]
    exact ⟨s, hFound, rfl⟩

omit hInverse hEmpty in
theorem widen_ofNat_iff {n : Nat} (hLt : n < 2 ^ 32) :
    (Casts.widen 64 (BitVec.ofNat 32 n)).toNat = n ↔ n < 2 ^ 31 := by
  have hNat : (BitVec.ofNat 32 n).toNat = n := by
    rw [BitVec.toNat_ofNat, Nat.mod_eq_of_lt hLt]
  have hIff := Casts.toNat_widen_eq_iff (w := 31) (v := 64) (by decide) (BitVec.ofNat 32 n)
  rwa [hNat] at hIff

theorem image_iff {a : ImageData} (hTravels : (ClipboardData.image a).Travels) :
    fromClipboard env (imageToProto zstdCompress a) = some (.image a) ↔
      (ClipboardData.image a).Survives zstdCompress := by
  cases a with
  | rgba width height bytes =>
      have hData : _ ↔ Compresses zstdCompress bytes :=
        plain_data_eq_iff hInverse hEmpty (imageToProto zstdCompress (.rgba width height bytes)) rfl
      simp only [ClipboardData.Survives]
      rw [← hData, ← widen_ofNat_iff hTravels.1, ← widen_ofNat_iff hTravels.2]
      simp [imageToProto, fromClipboard]
  | png bytes => simp [imageToProto, fromClipboard, Message.data, ClipboardData.Survives]
  | svg text =>
      have hData : _ ↔ Compresses zstdCompress (utf8 text) :=
        plain_data_eq_iff hInverse hEmpty (imageToProto zstdCompress (.svg text)) rfl
      have hSvg : fromClipboard env (imageToProto zstdCompress (.svg text)) =
          some (.image (.svg ((fromUtf8 ((imageToProto zstdCompress (.svg text)).data env)).getD ""))) :=
        rfl
      have hUtf8 : ∀ s, fromUtf8 (utf8 s) = some s := fun _ => fromUtf8_eq_some_iff.mpr rfl
      rw [hSvg]
      simp only [ClipboardData.Survives]
      by_cases hCompresses : Compresses zstdCompress (utf8 text)
      · rw [hData.mpr hCompresses, hUtf8]
        simp [hCompresses]
      · -- Nothing arrives, which is a text of its own.
        rw [data_eq_nil hEmpty (imageToProto zstdCompress (.svg text)) rfl hCompresses,
          show ([] : Bytes) = utf8 "" from rfl, hUtf8]
        simp only [hCompresses, Option.getD_some, Option.some.injEq, ClipboardData.image.injEq,
          ImageData.svg.injEq, iff_false]
        rintro rfl
        exact hCompresses fun _ => rfl

/-- An item arrives as it is if and only if it is one that survives. -/
theorem item_iff {item : ClipboardData} (hTravels : item.Travels) :
    (clipboardDataToProto zstdCompress item).bind (fromClipboard env) = some item ↔
      item.Survives zstdCompress := by
  cases item with
  | text s =>
      rw [clipboardDataToProto, Option.bind_some]
      refine plain_iff hInverse hEmpty s .text (fun _ _ => ClipboardData.text.inj) ?_
      intro clipboard hFormat
      simp [fromClipboard, hFormat]
  | rtf s =>
      rw [clipboardDataToProto, Option.bind_some]
      refine plain_iff hInverse hEmpty s .rtf (fun _ _ => ClipboardData.rtf.inj) ?_
      intro clipboard hFormat
      simp [fromClipboard, hFormat]
  | html s =>
      rw [clipboardDataToProto, Option.bind_some]
      refine plain_iff hInverse hEmpty s .html (fun _ _ => ClipboardData.html.inj) ?_
      intro clipboard hFormat
      simp [fromClipboard, hFormat]
  | image a =>
      rw [clipboardDataToProto, Option.bind_some]
      exact image_iff hInverse hEmpty hTravels
  | fileUrl urls => exact hTravels.elim
  | special name data =>
      have hData := data_eq_iff hInverse hEmpty (specialToProto zstdCompress data name) rfl
      simp only [ClipboardData.Survives]
      rw [← hData]
      simp [clipboardDataToProto, specialToProto, fromClipboard]

end Item

/-- All that was copied arrives, in the same order, if and only if every item survives
what the compressor makes of it. -/
theorem fromMultiClipbards_createMultiClipboards_iff (env : FileTransfer.Env)
    (zstdCompress : Nat → Bytes → Option Bytes)
    (hInverse : ∀ i data compressed, zstdCompress i data = some compressed →
      env.zstdDecodeAll compressed = some data)
    (hEmpty : decompress env [] = []) (items : List ClipboardData)
    (hTravel : ∀ item ∈ items, item.Travels) :
    fromMultiClipbards env (createMultiClipboards zstdCompress items) = items ↔
      ∀ (i : Nat) (item : ClipboardData), items[i]? = some item → item.Survives (zstdCompress i) := by
  have hArrive : fromMultiClipbards env (createMultiClipboards zstdCompress items) =
      items.zipIdx.filterMap fun item =>
        (clipboardDataToProto (zstdCompress item.2) item.1).bind (fromClipboard env) :=
    List.filterMap_filterMap ..
  have hSame : items = items.zipIdx.map Prod.fst := (List.zipIdx_map_fst 0 items).symm
  rw [hArrive]
  nth_rewrite 2 [hSame]
  rw [List.filterMap_eq_map_iff_forall_eq_some]
  constructor
  · intro hAll i item hItem
    have hIn : (item, i) ∈ items.zipIdx := List.mem_zipIdx_iff_getElem?.mpr hItem
    exact (item_iff (hInverse i) hEmpty (hTravel item (List.mem_of_getElem? hItem))).mp (hAll _ hIn)
  · rintro hAll ⟨item, i⟩ hIn
    have hItem : items[i]? = some item := List.mem_zipIdx_iff_getElem?.mp hIn
    exact (item_iff (hInverse i) hEmpty (hTravel item (List.mem_of_getElem? hItem))).mpr
      (hAll i item hItem)

/-- A compressor that makes everything longer, and what undoes it. -/
def longer (data : Bytes) : Option Bytes := some (data ++ [0])

def longerEnv : FileTransfer.Env where
  now := 0
  zstdDecodeAll := fun data => some data.dropLast
  digestToJson := fun _ => []
  digestFromJson := fun _ => none

/-- A text and a picture arrive though the compressor cannot make them shorter. -/
theorem fromMultiClipbards_longer :
    let items : List ClipboardData := [.text "ab", .image (.rgba 1 1 [1, 2, 3, 4])]
    fromMultiClipbards longerEnv (createMultiClipboards (fun _ => longer) items) = items := by
  intro items
  refine (fromMultiClipbards_createMultiClipboards_iff longerEnv (fun _ => longer) ?_ rfl items ?_).mpr ?_
  · intro i data compressed hCompressed
    rw [← Option.some.inj hCompressed]
    simp [longerEnv]
  · simp [items, ClipboardData.Travels]
  · intro i item hItem
    have hDone : ∀ data, Compresses longer data := by
      intro data hFails
      cases hFails
    rcases List.mem_pair.mp (List.mem_of_getElem? hItem) with rfl | rfl
    · exact hDone _
    · exact ⟨by decide, by decide, hDone _⟩

/-- In place of two bytes that cannot be made shorter, their name arrives. -/
theorem special_name_for_data :
    ¬ ∀ (env : FileTransfer.Env) (zstdCompress : Nat → Bytes → Option Bytes)
      (items : List ClipboardData),
      (∀ i data compressed, zstdCompress i data = some compressed →
        env.zstdDecodeAll compressed = some data) →
      decompress env [] = [] → (∀ item ∈ items, item.Travels) →
      fromMultiClipbards env (createMultiClipboards zstdCompress items) = items := by
  intro hClaim
  have hSame := hClaim longerEnv (fun _ => longer) [.special "name" [1, 2]]
    (by
      intro i data compressed hCompressed
      rw [← Option.some.inj hCompressed]
      simp [longerEnv])
    rfl (by simp [ClipboardData.Travels])
  exact absurd hSame (by decide +kernel)

end HibtDesk.Clipboard
