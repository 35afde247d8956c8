import HibtDesk.Library.Plurality
import HibtDesk.Library.Trace

/-! Which codec the pictures are sent in. Every viewer tells what it can decode and what it
would rather have; the encoder takes the preference that most of them share, as far as all
can decode it, and picks one itself where no preference counts. -/
namespace HibtDesk.Video.Codec

inductive CodecFormat where
  | vp8 | vp9 | av1 | h264 | h265 | unknown
  deriving DecidableEq, Repr

inductive PreferCodec where
  | auto | vp9 | h264 | h265 | vp8 | av1
  deriving DecidableEq, Repr

/-- A field of an enumeration as it came from a peer. -/
inductive EnumOrUnknown where
  | known (value : PreferCodec)
  | unknown (value : Int)
  deriving DecidableEq, Repr

def EnumOrUnknown.enumValueOr (field : EnumOrUnknown) (default : PreferCodec) : PreferCodec :=
  match field with
  | .known value => value
  | .unknown _ => default

/-- `SupportedDecoding`, without the colors. -/
structure SupportedDecoding where
  abilityVp9 : Int
  abilityH264 : Int
  abilityH265 : Int
  prefer : EnumOrUnknown
  abilityVp8 : Int
  abilityAv1 : Int
  deriving DecidableEq, Repr

instance : Inhabited SupportedDecoding := ⟨⟨0, 0, 0, .known .auto, 0, 0⟩⟩

/-- `SupportedEncoding`, without the colors. -/
structure SupportedEncoding where
  vp8 : Bool
  av1 : Bool
  h264 : Bool
  h265 : Bool
  deriving DecidableEq, Repr

inductive EncodingUpdate where
  | update (id : Int) (decoding : SupportedDecoding)
  | remove (id : Int)
  | newOnlyVp9 (id : Int)
  | check
  deriving DecidableEq, Repr

/-- The order in which a map goes through its entries, which can be any. -/
structure Iteration (α : Type*) where
  order : List α → List α
  perm : ∀ entries, (order entries).Perm entries

/-- What a call finds besides the peers: the features it is built with, the encoders and
the settings there are. -/
structure Env where
  disableAv1 : Bool
  vramFeature : Bool
  enableVramOption : Bool
  vramH264 : Nat
  vramH265 : Nat
  hwcodecFeature : Bool
  enableHwcodecOption : Bool
  hwramH264 : Option String
  hwramH265 : Option String
  av1Test : Bool
  totalMemory : Nat
  iteration : Iteration (Int × SupportedDecoding)

/-- `PEER_DECODINGS`, `ENCODE_CODEC_FORMAT` and `USABLE_ENCODING`. -/
structure Encoder where
  decodings : List (Int × SupportedDecoding)
  format : CodecFormat
  usableEncoding : Option SupportedEncoding
  deriving DecidableEq, Repr

namespace Encoder

def new : Encoder where
  decodings := []
  format := .vp9
  usableEncoding := none

/-- `HashMap::insert`. -/
def insert (id : Int) (decoding : SupportedDecoding) (decodings : List (Int × SupportedDecoding)) :
    List (Int × SupportedDecoding) :=
  (id, decoding) :: decodings.filter (·.1 ≠ id)

/-- The peers after the change that a call brings. -/
def peersAfter (decodings : List (Int × SupportedDecoding)) :
    EncodingUpdate → List (Int × SupportedDecoding)
  | .update id decoding => insert id decoding decodings
  | .remove id => decodings.filter (·.1 ≠ id)
  | .newOnlyVp9 id => insert id { (default : SupportedDecoding) with abilityVp9 := 1 } decodings
  | .check => decodings

/-- There are peers, and all of them have an ability. -/
def allSupport (decodings : List (Int × SupportedDecoding)) (ability : SupportedDecoding → Int) : Bool :=
  decide (0 < decodings.length) && decodings.all fun entry => decide (0 < ability entry.2)

def vp8Useable (decodings : List (Int × SupportedDecoding)) : Bool := allSupport decodings (·.abilityVp8)

def av1Useable (env : Env) (decodings : List (Int × SupportedDecoding)) : Bool :=
  allSupport decodings (·.abilityAv1) && !env.disableAv1

def h264VramEncoding (env : Env) (decodings : List (Int × SupportedDecoding)) : Bool :=
  env.vramFeature && env.enableVramOption && allSupport decodings (·.abilityH264) &&
    decide (0 < env.vramH264)

def h265VramEncoding (env : Env) (decodings : List (Int × SupportedDecoding)) : Bool :=
  env.vramFeature && env.enableVramOption && allSupport decodings (·.abilityH265) &&
    decide (0 < env.vramH265)

def h264HwEncoding (env : Env) (decodings : List (Int × SupportedDecoding)) : Option String :=
  if env.hwcodecFeature && env.enableHwcodecOption && allSupport decodings (·.abilityH264) then
    env.hwramH264
  else none

def h265HwEncoding (env : Env) (decodings : List (Int × SupportedDecoding)) : Option String :=
  if env.hwcodecFeature && env.enableHwcodecOption && allSupport decodings (·.abilityH265) then
    env.hwramH265
  else none

/-- There is an encoder for what all can decode. -/
def h264Encoding (env : Env) (decodings : List (Int × SupportedDecoding)) : Bool :=
  h264VramEncoding env decodings || (h264HwEncoding env decodings).isSome

def h265Encoding (env : Env) (decodings : List (Int × SupportedDecoding)) : Bool :=
  h265VramEncoding env decodings || (h265HwEncoding env decodings).isSome

def h264Useable (env : Env) (decodings : List (Int × SupportedDecoding)) : Bool :=
  allSupport decodings (·.abilityH264) && h264Encoding env decodings

def h265Useable (env : Env) (decodings : List (Int × SupportedDecoding)) : Bool :=
  allSupport decodings (·.abilityH265) && h265Encoding env decodings

/-- Whether a preference counts. -/
def counts (env : Env) (decodings : List (Int × SupportedDecoding)) : EnumOrUnknown → Bool
  | .known .vp9 => true
  | .known .vp8 => vp8Useable decodings
  | .known .av1 => av1Useable env decodings
  | .known .h264 => h264Useable env decodings
  | .known .h265 => h265Useable env decodings
  | .known .auto => false
  | .unknown _ => false

def preferences (env : Env) (decodings : List (Int × SupportedDecoding)) : List EnumOrUnknown :=
  ((env.iteration.order decodings).map (·.2.prefer)).filter (counts env decodings)

/-- The most frequent preference. -/
def preference (env : Env) (decodings : List (Int × SupportedDecoding)) : PreferCodec :=
  ((Plurality.winner (preferences env decodings)).getD (.known .auto)).enumValueOr .auto

def autoCodec (env : Env) (decodings : List (Int × SupportedDecoding)) : CodecFormat :=
  let codec := if av1Useable env decodings && env.av1Test then CodecFormat.av1 else .vp9
  let codec := if h264Useable env decodings then CodecFormat.h264 else codec
  let codec := if h265Useable env decodings then CodecFormat.h265 else codec
  if (codec = .vp9 ∨ codec = .av1) ∧ vp8Useable decodings = true ∧
      env.totalMemory ≤ 4 * 1024 * 1024 * 1024 then .vp8
  else codec

/-- The codec for a preference. -/
def choose (env : Env) (decodings : List (Int × SupportedDecoding)) : PreferCodec → CodecFormat
  | .vp8 => .vp8
  | .vp9 => .vp9
  | .av1 => .av1
  | .h264 => if h264Encoding env decodings then .h264 else autoCodec env decodings
  | .h265 => if h265Encoding env decodings then .h265 else autoCodec env decodings
  | .auto => autoCodec env decodings

/-- `Encoder::update`. -/
def update (env : Env) (encoder : Encoder) (change : EncodingUpdate) : Encoder :=
  let decodings := peersAfter encoder.decodings change
  { decodings := decodings
    usableEncoding := some
      { vp8 := vp8Useable decodings
        av1 := av1Useable env decodings
        h264 := h264Useable env decodings
        h265 := h265Useable env decodings }
    format := choose env decodings (preference env decodings) }

end Encoder

/-- What a client finds when it tells what it can decode. -/
structure DecoderEnv where
  disableAv1 : Bool
  hwcodecFeature : Bool
  hwramH264 : Option String
  hwramH265 : Option String
  vramFeature : Bool
  enableVramOption : Bool
  vramH264 : Nat
  vramH265 : Nat
  mediacodecFeature : Bool
  enableHwcodecOption : Bool
  h264DecoderSupport : Bool
  h265DecoderSupport : Bool

namespace Decoder

/-- A decoder that turned out not to work is told of no more. -/
def markUnsupported (decoding : SupportedDecoding) : CodecFormat → SupportedDecoding
  | .vp8 => { decoding with abilityVp8 := 0 }
  | .vp9 => { decoding with abilityVp9 := 0 }
  | .av1 => { decoding with abilityAv1 := 0 }
  | .h264 => { decoding with abilityH264 := 0 }
  | .h265 => { decoding with abilityH265 := 0 }
  | .unknown => decoding

/-- The ability for a codec of the hardware, from what each feature finds. -/
def hardwareAbility (env : DecoderEnv) (useTextureRender : Bool) (hwram : Option String) (vram : Nat)
    (mediacodec : Bool) : Int :=
  if env.mediacodecFeature && env.enableHwcodecOption then (if mediacodec then 1 else 0)
  else if env.hwcodecFeature && hwram.isSome then 1
  else if env.vramFeature && env.enableVramOption && useTextureRender && decide (0 < vram) then 1
  else 0

/-- `Decoder::supported_decodings`, for a preference of the settings. -/
def supportedDecodings (env : DecoderEnv) (prefer : PreferCodec) (useTextureRender : Bool)
    (markedUnsupported : List CodecFormat) : SupportedDecoding :=
  markedUnsupported.foldl markUnsupported
    { abilityVp8 := 1
      abilityVp9 := 1
      abilityAv1 := if env.disableAv1 then 0 else 1
      abilityH264 :=
        hardwareAbility env useTextureRender env.hwramH264 env.vramH264 env.h264DecoderSupport
      abilityH265 :=
        hardwareAbility env useTextureRender env.hwramH265 env.vramH265 env.h265DecoderSupport
      prefer := .known prefer }

end Decoder

/-- What a viewer says it can decode. -/
def SupportedDecoding.declares (decoding : SupportedDecoding) : CodecFormat → Bool
  | .vp8 => decide (0 < decoding.abilityVp8)
  | .vp9 => decide (0 < decoding.abilityVp9)
  | .av1 => decide (0 < decoding.abilityAv1)
  | .h264 => decide (0 < decoding.abilityH264)
  | .h265 => decide (0 < decoding.abilityH265)
  | .unknown => false

/-- An encoder for H264 is there and may be used. -/
def Env.h264Available (env : Env) : Bool :=
  env.vramFeature && env.enableVramOption && decide (0 < env.vramH264) ||
    env.hwcodecFeature && env.enableHwcodecOption && env.hwramH264.isSome

def Env.h265Available (env : Env) : Bool :=
  env.vramFeature && env.enableVramOption && decide (0 < env.vramH265) ||
    env.hwcodecFeature && env.enableHwcodecOption && env.hwramH265.isSome

/-- The formats there are to encode in. -/
def Env.offers (env : Env) : CodecFormat → Bool
  | .vp8 => true
  | .vp9 => true
  | .av1 => !env.disableAv1
  | .h264 => env.h264Available
  | .h265 => env.h265Available
  | .unknown => false

/-- Every viewer can decode the format. -/
def AllDeclare (decodings : List (Int × SupportedDecoding)) (format : CodecFormat) : Prop :=
  ∀ entry ∈ decodings, entry.2.declares format = true

instance (decodings : List (Int × SupportedDecoding)) (format : CodecFormat) :
    Decidable (AllDeclare decodings format) := inferInstanceAs (Decidable (∀ _ ∈ _, _))

/-- What is agreed on can be decoded by every viewer, if there is anything that can, and is
encoded by hardware only if there is an encoder. -/
structure Negotiated (env : Env) (encoder : Encoder) : Prop where
  common : encoder.decodings ≠ [] →
    (∃ format, env.offers format = true ∧ AllDeclare encoder.decodings format) →
    AllDeclare encoder.decodings encoder.format
  h264 : encoder.format = .h264 → env.h264Available = true
  h265 : encoder.format = .h265 → env.h265Available = true

namespace Encoder

/-- VP9 is what is left to pick where no preference counts. -/
def AutoVp9 (env : Env) (decodings : List (Int × SupportedDecoding)) : Prop :=
  h264Useable env decodings = false ∧ h265Useable env decodings = false ∧
    (av1Useable env decodings && env.av1Test) = false ∧
    ¬ (vp8Useable decodings = true ∧ env.totalMemory ≤ 4 * 1024 * 1024 * 1024)

/-- VP9 is the first of the preferences that most viewers share, or no preference counts
and it is what is left to pick. -/
def Vp9Chosen (env : Env) (decodings : List (Int × SupportedDecoding)) : Prop :=
  (preferences env decodings).find? (fun vote => decide (Plurality.Leads (preferences env decodings) vote)) =
      some (.known .vp9) ∨
    preferences env decodings = [] ∧ AutoVp9 env decodings

/-- All viewers can decode the format, and if hardware encodes it, it is there. -/
structure Agreed (env : Env) (decodings : List (Int × SupportedDecoding)) (format : CodecFormat) : Prop where
  declared : AllDeclare decodings format
  h264 : format = .h264 → env.h264Available = true
  h265 : format = .h265 → env.h265Available = true

section Spec
variable {env : Env} {decodings : List (Int × SupportedDecoding)}

theorem allDeclare_of_allSupport {ability : SupportedDecoding → Int} {format : CodecFormat}
    (hAbility : ∀ decoding : SupportedDecoding, decoding.declares format = decide (0 < ability decoding))
    (hAll : allSupport decodings ability = true) : AllDeclare decodings format := by
  intro entry hEntry
  rw [hAbility]
  exact List.all_eq_true.mp (Bool.and_eq_true_iff.mp hAll).2 entry hEntry

/-- An encoder that is used is there. -/
theorem available_of_encoding {vram hw shared there : Bool} {encoder : Option String}
    (hEncoding : (vram && shared && there || (if hw && shared then encoder else none).isSome) = true) :
    (vram && there || hw && encoder.isSome) = true := by
  rw [Bool.or_eq_true] at hEncoding ⊢
  rcases hEncoding with hVram | hHw
  · simp only [Bool.and_eq_true] at hVram ⊢
    exact Or.inl ⟨hVram.1.1, hVram.2⟩
  · split at hHw
    · rename_i hOn
      rw [Bool.and_eq_true] at hOn
      exact Or.inr (Bool.and_eq_true_iff.mpr ⟨hOn.1, hHw⟩)
    · cases hHw

theorem h264Available_of_encoding (hEncoding : h264Encoding env decodings = true) :
    env.h264Available = true :=
  available_of_encoding hEncoding

theorem h265Available_of_encoding (hEncoding : h265Encoding env decodings = true) :
    env.h265Available = true :=
  available_of_encoding hEncoding

theorem agreed_vp8 (hUseable : vp8Useable decodings = true) : Agreed env decodings .vp8 where
  declared := allDeclare_of_allSupport (fun _ => rfl) hUseable
  h264 := fun hFormat => by cases hFormat
  h265 := fun hFormat => by cases hFormat

theorem agreed_av1 (hUseable : av1Useable env decodings = true) : Agreed env decodings .av1 where
  declared := allDeclare_of_allSupport (fun _ => rfl) (Bool.and_eq_true_iff.mp hUseable).1
  h264 := fun hFormat => by cases hFormat
  h265 := fun hFormat => by cases hFormat

theorem agreed_h264 (hUseable : h264Useable env decodings = true) : Agreed env decodings .h264 where
  declared := allDeclare_of_allSupport (fun _ => rfl) (Bool.and_eq_true_iff.mp hUseable).1
  h264 := fun _ => h264Available_of_encoding (Bool.and_eq_true_iff.mp hUseable).2
  h265 := fun hFormat => by cases hFormat

theorem agreed_h265 (hUseable : h265Useable env decodings = true) : Agreed env decodings .h265 where
  declared := allDeclare_of_allSupport (fun _ => rfl) (Bool.and_eq_true_iff.mp hUseable).1
  h264 := fun hFormat => by cases hFormat
  h265 := fun _ => h265Available_of_encoding (Bool.and_eq_true_iff.mp hUseable).2

/-- The preference is the one most viewers share of those that count, if there is one. -/
theorem preference_cases :
    (preferences env decodings = [] ∧ preference env decodings = .auto) ∨
      ∃ value, Plurality.winner (preferences env decodings) = some (.known value) ∧
        counts env decodings (.known value) = true ∧ preference env decodings = value := by
  cases hWinner : Plurality.winner (preferences env decodings) with
  | none =>
      refine Or.inl ⟨(Plurality.winner_eq_none_iff _).mp hWinner, ?_⟩
      unfold preference
      rw [hWinner]
      rfl
  | some vote =>
      have hCounts := List.of_mem_filter (Plurality.mem_of_winner _ hWinner)
      cases vote with
      | known value =>
          refine Or.inr ⟨value, rfl, hCounts, ?_⟩
          unfold preference
          rw [hWinner]
          rfl
      | unknown value => cases hCounts

/-- What is picked where no preference counts. -/
theorem autoCodec_cases :
    (autoCodec env decodings = .vp9 ∧ AutoVp9 env decodings) ∨
      ¬ AutoVp9 env decodings ∧
        (autoCodec env decodings = .vp8 ∧ vp8Useable decodings = true ∨
          autoCodec env decodings = .av1 ∧ av1Useable env decodings = true ∨
          autoCodec env decodings = .h264 ∧ h264Useable env decodings = true ∨
          autoCodec env decodings = .h265 ∧ h265Useable env decodings = true) := by
  unfold autoCodec AutoVp9
  cases h264Useable env decodings <;> cases h265Useable env decodings <;>
    cases hAv1 : av1Useable env decodings <;> cases env.av1Test <;>
    by_cases hLow : vp8Useable decodings = true ∧ env.totalMemory ≤ 4 * 1024 * 1024 * 1024 <;>
    simp [hLow]

theorem vp9Chosen_of_nil (hNone : preferences env decodings = []) :
    Vp9Chosen env decodings ↔ AutoVp9 env decodings := by
  unfold Vp9Chosen
  rw [hNone]
  simp

theorem vp9Chosen_of_winner {value : PreferCodec}
    (hWinner : Plurality.winner (preferences env decodings) = some (.known value)) :
    Vp9Chosen env decodings ↔ value = .vp9 := by
  have hSome : preferences env decodings ≠ [] := by
    intro hNone
    rw [(Plurality.winner_eq_none_iff _).mpr hNone] at hWinner
    cases hWinner
  unfold Vp9Chosen
  rw [← Plurality.winner_eq, hWinner]
  simp [hSome]

/-- The format is VP9 where that is chosen, and otherwise one that all have agreed on. -/
theorem choose_cases :
    (choose env decodings (preference env decodings) = .vp9 ∧ Vp9Chosen env decodings) ∨
      ¬ Vp9Chosen env decodings ∧
        Agreed env decodings (choose env decodings (preference env decodings)) := by
  rcases @preference_cases env decodings with ⟨hNone, hAuto⟩ | ⟨value, hWinner, hCounts, hPreference⟩
  · rw [hAuto, vp9Chosen_of_nil hNone, choose]
    rcases @autoCodec_cases env decodings with
      hVp9 | ⟨hNot, ⟨hCodec, hUseable⟩ | ⟨hCodec, hUseable⟩ | ⟨hCodec, hUseable⟩ | ⟨hCodec, hUseable⟩⟩
    · exact Or.inl hVp9
    all_goals
      rw [hCodec]
      refine Or.inr ⟨hNot, ?_⟩
    · exact agreed_vp8 hUseable
    · exact agreed_av1 hUseable
    · exact agreed_h264 hUseable
    · exact agreed_h265 hUseable
  · rw [hPreference, vp9Chosen_of_winner hWinner]
    cases value with
    | auto => cases hCounts
    | vp9 => exact Or.inl ⟨rfl, rfl⟩
    | vp8 => exact Or.inr ⟨(fun hSame => by cases hSame), agreed_vp8 hCounts⟩
    | av1 => exact Or.inr ⟨(fun hSame => by cases hSame), agreed_av1 hCounts⟩
    | h264 =>
        have hEncoding : h264Encoding env decodings = true := (Bool.and_eq_true_iff.mp hCounts).2
        rw [choose, if_pos hEncoding]
        exact Or.inr ⟨(fun hSame => by cases hSame), agreed_h264 hCounts⟩
    | h265 =>
        have hEncoding : h265Encoding env decodings = true := (Bool.and_eq_true_iff.mp hCounts).2
        rw [choose, if_pos hEncoding]
        exact Or.inr ⟨(fun hSame => by cases hSame), agreed_h265 hCounts⟩

end Spec

/-- Before a call: of the peers there are after it, all declare VP9, or they have no format
in common that is offered, or VP9 is not what is chosen for them. -/
def Decodable (encoder : Encoder) (call : Env × EncodingUpdate) : Prop :=
  let decodings := peersAfter encoder.decodings call.2
  AllDeclare decodings .vp9 ∨
    (¬ ∃ format, call.1.offers format = true ∧ AllDeclare decodings format) ∨
    ¬ Vp9Chosen call.1 decodings

/-- A call, in the environment it finds. -/
def step (encoder : Encoder) (call : Env × EncodingUpdate) : Encoder := update call.1 encoder call.2

theorem negotiated_update_iff (encoder : Encoder) (call : Env × EncodingUpdate) :
    Negotiated call.1 (step encoder call) ↔ encoder.Decodable call := by
  obtain ⟨env, change⟩ := call
  have hDecodings : (step encoder (env, change)).decodings = peersAfter encoder.decodings change := rfl
  have hFormat : (step encoder (env, change)).format =
      choose env (peersAfter encoder.decodings change)
        (preference env (peersAfter encoder.decodings change)) := rfl
  have hEmpty : peersAfter encoder.decodings change = [] →
      AllDeclare (peersAfter encoder.decodings change) .vp9 := by
    intro hNone
    rw [hNone]
    intro entry hEntry
    cases hEntry
  unfold Decodable
  rcases @choose_cases env (peersAfter encoder.decodings change) with ⟨hVp9, hChosen⟩ | ⟨hNot, hAgreed⟩
  · rw [hVp9] at hFormat
    constructor
    · intro hNegotiated
      by_cases hCommon : ∃ format, env.offers format = true ∧
          AllDeclare (peersAfter encoder.decodings change) format
      · by_cases hNone : peersAfter encoder.decodings change = []
        · exact Or.inl (hEmpty hNone)
        · have hAll := hNegotiated.common hNone hCommon
          rw [hFormat] at hAll
          exact Or.inl hAll
      · exact Or.inr (Or.inl hCommon)
    · intro hDecodable
      refine ⟨fun _ hCommon => ?_, fun hSame => ?_, fun hSame => ?_⟩
      · rw [hFormat]
        rcases hDecodable with hAll | hNone | hOther
        · exact hAll
        · exact absurd hCommon hNone
        · exact absurd hChosen hOther
      · rw [hFormat] at hSame
        cases hSame
      · rw [hFormat] at hSame
        cases hSame
  · refine iff_of_true ⟨fun _ _ => ?_, fun hSame => ?_, fun hSame => ?_⟩ (Or.inr (Or.inr hNot))
    · rw [hFormat]
      exact hAgreed.declared
    · exact hAgreed.h264 (hFormat.symm.trans hSame)
    · exact hAgreed.h265 (hFormat.symm.trans hSame)

/-- After every call of a run there is agreed on what all viewers can decode if and only if
VP9 is chosen in it only for viewers that declare it, or that have nothing in common. -/
theorem negotiated_run_iff (encoder : Encoder) (calls : List (Env × EncodingUpdate)) :
    Trace.Always step (fun encoder call => Negotiated call.1 (step encoder call)) encoder calls ↔
      Trace.Always step Decodable encoder calls := by
  refine Trace.always_iff_of_invariant step (fun _ => True) ?_ (fun _ _ _ => trivial) trivial calls
  intro encoder call _
  exact negotiated_update_iff encoder call

/-- A viewer declares VP9 unless its decoder for it is marked. -/
theorem supportedDecodings_declares_vp9 (env : DecoderEnv) (prefer : PreferCodec) (useTextureRender : Bool)
    {markedUnsupported : List CodecFormat} (hMarked : .vp9 ∉ markedUnsupported) :
    (Decoder.supportedDecodings env prefer useTextureRender markedUnsupported).declares .vp9 = true := by
  have hFold : ∀ decoding : SupportedDecoding, decoding.declares .vp9 = true →
      (markedUnsupported.foldl Decoder.markUnsupported decoding).declares .vp9 = true := by
    induction markedUnsupported with
    | nil => exact fun _ hDeclares => hDeclares
    | cons format rest ih =>
        intro decoding hDeclares
        refine ih (fun hLater => hMarked (List.mem_cons_of_mem _ hLater)) _ ?_
        cases format with
        | vp9 => exact absurd List.mem_cons_self hMarked
        | vp8 | av1 | h264 | h265 | unknown => exact hDeclares
  exact hFold _ rfl

/-- A machine without hardware encoders. -/
def plainEnv : Env where
  disableAv1 := false
  vramFeature := false
  enableVramOption := false
  vramH264 := 0
  vramH265 := 0
  hwcodecFeature := false
  enableHwcodecOption := false
  hwramH264 := none
  hwramH265 := none
  av1Test := true
  totalMemory := 8 * 1024 * 1024 * 1024
  iteration := ⟨id, fun entries => List.Perm.refl entries⟩

def plainDecoder : DecoderEnv where
  disableAv1 := false
  hwcodecFeature := false
  hwramH264 := none
  hwramH265 := none
  vramFeature := false
  enableVramOption := false
  vramH264 := 0
  vramH265 := 0
  mediacodecFeature := false
  enableHwcodecOption := false
  h264DecoderSupport := false
  h265DecoderSupport := false

/-- A viewer whose decoder for VP9 did not work is sent VP9 if another one prefers it. -/
theorem vp9_for_viewer_without :
    ¬ ∀ (encoder : Encoder) (calls : List (Env × EncodingUpdate)),
      Trace.Always step (fun encoder call => Negotiated call.1 (step encoder call)) encoder calls := by
  intro hClaim
  let without := Decoder.supportedDecodings plainDecoder .auto false [.vp9]
  let prefers := Decoder.supportedDecodings plainDecoder .vp9 false []
  obtain ⟨-, hNegotiated, -⟩ := hClaim .new
    [(plainEnv, .update 1 without), (plainEnv, .update 2 prefers)]
  have hAll := hNegotiated.common (by decide) ⟨.vp8, rfl, by decide⟩
  exact absurd hAll (by decide)

end Encoder

end HibtDesk.Video.Codec
