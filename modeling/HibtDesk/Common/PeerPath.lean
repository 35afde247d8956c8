import HibtDesk.Common.StringSecurity
import HibtDesk.Library.Extensions

/-! Where the configuration of a peer is kept, and which id its file is listed under.
Paths are those below the directory of the configuration. -/
namespace HibtDesk

open Lexical.Unix
open Portable (Text encodeUtf8 lossyChars fromUtf8Lossy fromUtf8Lossy_encodeUtf8)

def toml : Text := "toml".toList

/-- `Config::with_extension`. -/
def Config.withExtension (path : Text) : Text :=
  match extension path with
  | some ext => Lexical.Unix.withExtension path (ext ++ '.' :: toml)
  | none => Lexical.Unix.withExtension path toml

namespace PeerConfig

def peers : Text := "peers".toList

/-- What an encoded id has in front. -/
def base64Mark : Text := "base64_".toList

def forbiddenPaths : Text := ['<', '>', ':', '/', '\\', '|', '?', '*']

/-- Whether the id has a character that no path may have, as the expression for
such ids finds it. -/
def isMatch (id : Text) : Bool := id.any (forbiddenPaths.contains ·)

def idEncoded (id : Text) : Text :=
  if isMatch id then base64Mark ++ ofAscii (Base64.encode (encodeUtf8 id)) else id

/-- `PeerConfig::path`. An id with a separator in front is encoded, so that what is
collected is never that id alone. -/
def path (id : Text) : Text := Config.withExtension (peers ++ '/' :: idEncoded id)

/-- Whether the stem of a file is taken for an encoded id. -/
def LooksEncoded (stem : Text) : Prop := base64Mark <+: stem ∧ (encodeUtf8 stem).length ≠ 7

instance (stem : Text) : Decidable (LooksEncoded stem) := inferInstanceAs (Decidable (_ ∧ _))

def idDecoded (stem : Text) : Text :=
  if LooksEncoded stem then
    fromUtf8Lossy ((Base64.decode ((encodeUtf8 stem).drop 7)).getD [])
  else stem

/-- The id that `get_vec_id_modified_time_path` lists a file of the directory under. -/
def listedId (file : Text) : Option Text :=
  if extension file = some toml then some (idDecoded ((fileStem file).getD [])) else none

/-- The file of the id is in the directory of the peers, and is listed under that id. -/
structure Faithful (id : Text) : Prop where
  inside : ∃ name, PlainName name ∧ path id = peers ++ '/' :: name
  listed : listedId (path id) = some id

/-- An id that is no name of a directory and is not taken for an encoded one, or an id
whose code has no separator. -/
def Kept (id : Text) : Prop :=
  (isMatch id = false ∧ id ≠ ['.'] ∧ id ≠ ['.', '.'] ∧ ¬ LooksEncoded id) ∨
    (isMatch id = true ∧ 47 ∉ Base64.encode (encodeUtf8 id))

instance (id : Text) : Decidable (Kept id) := inferInstanceAs (Decidable (_ ∨ _))

variable {id first second : Text}

section Codes

theorem plainName_peers : PlainName peers where
  noSep := by decide
  notBlank := by decide
  notUp := by decide

/-- The code has no dot, and a separator exactly as its bytes have one. -/
theorem sep_mem_code (data : Bytes) :
    '/' ∈ ofAscii (Base64.encode data) ↔ 47 ∈ Base64.encode data :=
  @mem_ofAscii _ (Base64.encode_ascii data) 47 (by decide)

theorem dot_notMem_code (data : Bytes) : '.' ∉ ofAscii (Base64.encode data) := by
  intro hMem
  have hByte : (46 : UInt8) ∈ Base64.encode data :=
    (@mem_ofAscii _ (Base64.encode_ascii data) 46 (by decide)).mp hMem
  rcases Base64.mem_encode hByte with hPad | ⟨i, hBound, hSymbol⟩
  · exact absurd hPad (by decide)
  · have hIndex := Base64.index_symbol hBound
    rw [← hSymbol] at hIndex
    cases hIndex

theorem encodeUtf8_mark : (encodeUtf8 base64Mark).length = 7 := by decide

/-- The bytes behind the mark. -/
theorem drop_mark (code : Text) : (encodeUtf8 (base64Mark ++ code)).drop 7 = encodeUtf8 code := by
  rw [encodeUtf8_append]
  exact List.drop_left' encodeUtf8_mark

/-- A stem that is taken for an encoded id is never the id itself. -/
theorem idDecoded_eq_iff (hSome : id ≠ []) : idDecoded id = id ↔ ¬ LooksEncoded id := by
  constructor
  · intro hSame hLooks
    obtain ⟨code, rfl⟩ := hLooks.1
    rw [idDecoded, if_pos hLooks, drop_mark] at hSame
    cases hDecode : Base64.decode (encodeUtf8 code) with
    | none =>
        rw [hDecode] at hSame
        exact hSome hSame.symm
    | some data =>
        obtain ⟨hShort, hAscii⟩ := Base64.decode_shape hDecode
        have hCode : code.length = (encodeUtf8 code).length := by
          rw [← congrArg List.length (ofAscii_encodeUtf8 hAscii)]
          exact List.length_map ..
        have hLossy := length_lossyChars_le data.length data
        have hLength := congrArg List.length hSame
        rw [hDecode, Option.getD_some, List.length_append] at hLength
        change (lossyChars data.length data).length = 7 + code.length at hLength
        omega
  · intro hNot
    rw [idDecoded, if_neg hNot]

theorem idDecoded_code (hSome : id ≠ []) :
    idDecoded (base64Mark ++ ofAscii (Base64.encode (encodeUtf8 id))) = id := by
  have hBytes := encodeUtf8_ofAscii (Base64.encode_ascii (encodeUtf8 id))
  have hLooks : LooksEncoded (base64Mark ++ ofAscii (Base64.encode (encodeUtf8 id))) := by
    refine ⟨List.prefix_append _ _, ?_⟩
    have hPos : (Base64.encode (encodeUtf8 id)).length ≠ 0 := by
      intro hNil
      have hDecode := Base64.decode_encode (encodeUtf8 id)
      rw [List.length_eq_zero_iff.mp hNil] at hDecode
      have hLong := encodeUtf8_length_pos hSome
      rw [← Option.some.inj hDecode] at hLong
      exact absurd hLong (by decide)
    rw [encodeUtf8_append, List.length_append, encodeUtf8_mark, hBytes]
    omega
  rw [idDecoded, if_pos hLooks, drop_mark, hBytes, Base64.decode_encode, Option.getD_some,
    fromUtf8Lossy_encodeUtf8]

end Codes

section Paths

theorem Config.withExtension_eq (path : Text) :
    Config.withExtension path =
      Lexical.Unix.withExtension path (((extension path).map (· ++ '.' :: toml)).getD toml) := by
  unfold Config.withExtension
  cases extension path <;> rfl

/-- An id that is written as a name is in the directory, under this name. -/
theorem path_of_plainName (hPlain : PlainName (idEncoded id)) :
    (∃ name, PlainName name ∧ path id = peers ++ '/' :: name) ∧
      listedId (path id) = some (idDecoded (idEncoded id)) := by
  have hPath : path id = peers ++ '/' :: (idEncoded id ++ '.' :: toml) := by
    rw [path, Config.withExtension_eq]
    exact withExtension_inside plainName_peers hPlain (by decide)
  have hName : PlainName (idEncoded id ++ '.' :: toml) := by
    refine plainName_of_mem (c := 't') ?_ ?_ (by decide)
    · rw [List.mem_append, not_or]
      exact ⟨hPlain.noSep, by decide⟩
    · exact List.mem_append_right _ (by decide)
  have hSome : idEncoded id ≠ [] := by
    intro hNil
    have hBlank := hPlain.notBlank
    rw [hNil] at hBlank
    cases hBlank
  obtain ⟨hStem, hExt⟩ := stem_extension_inside plainName_peers hSome hName (by decide)
  rw [hPath, listedId, hExt, if_pos rfl, hStem]
  exact ⟨⟨_, hName, rfl⟩, rfl⟩

/-- What is left of the path of a code without its trailing separators. -/
theorem after_code {code : Text} (hDot : '.' ∉ code) :
    ∃ kept lost, code = kept ++ List.replicate lost '/' ∧
      after 0 (peers ++ '/' :: (base64Mark ++ code)) = peers ++ '/' :: (base64Mark ++ kept) := by
  obtain ⟨rest, hRest, hBlank⟩ := after_zero_append (peers ++ '/' :: (base64Mark ++ code))
  have hWhole : (peers ++ '/' :: base64Mark) ++ code =
      after 0 (peers ++ '/' :: (base64Mark ++ code)) ++ rest := by
    rw [← hRest]
    rfl
  have hSlashes : ∀ {text : Text}, text ⊆ code → text ⊆ rest →
      text = List.replicate text.length '/' := by
    intro text hCode hIn
    rw [List.eq_replicate_iff]
    refine ⟨rfl, fun c hMem => (hBlank c (hIn hMem)).resolve_right ?_⟩
    rintro rfl
    exact hDot (hCode hMem)
  rcases List.append_eq_append_iff.mp hWhole with ⟨kept, hKept, rfl⟩ | ⟨early, hEarly, hLost⟩
  · refine ⟨kept, rest.length, ?_, by rw [hKept]; rfl⟩
    rw [← hSlashes (List.subset_append_right kept rest) (List.Subset.refl _)]
  · -- The mark does not end in a separator.
    have hNone : early = [] := by
      by_contra hSome
      have hLast : early.getLast hSome = '_' := by
        have hEnd := congrArg List.getLast? hEarly
        rw [List.getLast?_append_of_ne_nil _ hSome, List.getLast?_eq_getLast_of_ne_nil hSome] at hEnd
        exact (Option.some.inj hEnd).symm
      have hMem : '_' ∈ rest := by
        rw [hLost, ← hLast]
        exact List.mem_append_left _ (List.getLast_mem hSome)
      rcases hBlank _ hMem with hSep | hSep <;> cases hSep
    subst hNone
    rw [List.nil_append] at hLost
    rw [List.append_nil] at hEarly
    refine ⟨[], code.length, ?_, by rw [← hEarly]; rfl⟩
    rw [List.nil_append]
    exact hSlashes (List.Subset.refl _) (by rw [hLost]; exact List.Subset.refl _)

theorem encodeUtf8_seps (n : Nat) :
    encodeUtf8 (List.replicate n '/') = List.replicate n 47 := by
  induction n with
  | zero => rfl
  | succ n ih =>
      rw [List.replicate_succ, List.replicate_succ, ← ih]
      rfl

/-- A code that loses its end is not read as what it was. -/
theorem idDecoded_kept {kept : Text} {lost : Nat} (hSome : id ≠ []) (hMatch : isMatch id = true)
    (hCode : ofAscii (Base64.encode (encodeUtf8 id)) = kept ++ List.replicate lost '/')
    (hLost : lost ≠ 0) : idDecoded (base64Mark ++ kept) ≠ id := by
  intro hSame
  by_cases hLooks : LooksEncoded (base64Mark ++ kept)
  · rw [idDecoded, if_pos hLooks, drop_mark] at hSame
    cases hDecode : Base64.decode (encodeUtf8 kept) with
    | none =>
        rw [hDecode] at hSame
        exact hSome hSame.symm
    | some data =>
        have hBytes := congrArg encodeUtf8 hCode
        rw [encodeUtf8_ofAscii (Base64.encode_ascii _), encodeUtf8_append] at hBytes
        rw [encodeUtf8_seps] at hBytes
        have hWhole := Base64.length_encode_mod (encodeUtf8 id)
        have hPart := Base64.length_decode_mod hDecode
        rw [hBytes, List.length_append, List.length_replicate] at hWhole
        -- Both are whole groups, and so is what was lost.
        have hFour : 4 ≤ lost := by omega
        have hGroup : List.replicate 4 47 <:+ Base64.encode (encodeUtf8 id) := by
          refine List.IsSuffix.trans ?_ ⟨_, hBytes.symm⟩
          exact ⟨List.replicate (lost - 4) 47, by rw [List.replicate_append_replicate]; congr 1; omega⟩
        exact last_notMem_encodeUtf8 id (Base64.mem_of_encode_last hGroup)
  · rw [idDecoded, if_neg hLooks] at hSame
    have hLength : (encodeUtf8 (base64Mark ++ kept)).length = 7 := by
      by_contra hLong
      exact hLooks ⟨List.prefix_append _ _, hLong⟩
    rw [encodeUtf8_append, List.length_append, encodeUtf8_mark] at hLength
    have hNil : kept = [] := by
      by_contra hKept
      have := encodeUtf8_length_pos hKept
      omega
    rw [← hSame, hNil] at hMatch
    exact absurd hMatch (by decide)

/-- A code with a separator leads out of the directory, or loses its end. -/
theorem not_faithful_of_sep (hSome : id ≠ []) (hMatch : isMatch id = true)
    (hSep : 47 ∈ Base64.encode (encodeUtf8 id)) : ¬ Faithful id := by
  rintro ⟨⟨name, hPlain, hPath⟩, hListed⟩
  obtain ⟨kept, lost, hCode, hAfter⟩ := after_code (dot_notMem_code (encodeUtf8 id))
  have hWhole : path id = Config.withExtension
      (peers ++ '/' :: (base64Mark ++ ofAscii (Base64.encode (encodeUtf8 id)))) := by
    rw [path, idEncoded, if_pos hMatch]
  cases hName : fileName
      (peers ++ '/' :: (base64Mark ++ ofAscii (Base64.encode (encodeUtf8 id)))) with
  | none =>
      have hStays : path id =
          peers ++ '/' :: (base64Mark ++ ofAscii (Base64.encode (encodeUtf8 id))) := by
        rw [hWhole, Config.withExtension_eq, Lexical.Unix.withExtension, hName]
      rw [listedId, hStays, extension, hName] at hListed
      cases hListed
  | some last =>
      have hStored : path id = peers ++ '/' :: (base64Mark ++ kept ++ '.' :: toml) := by
        rw [hWhole, Config.withExtension_eq, withExtension_after hName (by decide), hAfter]
        simp
      have hSame : name = base64Mark ++ kept ++ '.' :: toml := by
        rw [hStored] at hPath
        exact (List.cons.inj (List.append_cancel_left hPath)).2.symm
      subst hSame
      have hLost : lost ≠ 0 := by
        rintro rfl
        rw [← sep_mem_code, hCode] at hSep
        refine hPlain.noSep (List.mem_append_left _ (List.mem_append_right _ ?_))
        simpa using hSep
      obtain ⟨hStem, hExt⟩ :=
        stem_extension_inside plainName_peers (List.append_ne_nil_of_left_ne_nil (by decide) kept)
          hPlain (by decide)
      rw [listedId, hStored, hExt, if_pos rfl, hStem] at hListed
      exact idDecoded_kept hSome hMatch hCode hLost (Option.some.inj hListed)

/-- The file of an id is there and is listed under the id exactly where the id is kept. -/
theorem faithful_iff (hSome : id ≠ []) : Faithful id ↔ Kept id := by
  cases hMatch : isMatch id with
  | true =>
      have hEncoded : idEncoded id = base64Mark ++ ofAscii (Base64.encode (encodeUtf8 id)) :=
        if_pos hMatch
      by_cases hSep : 47 ∈ Base64.encode (encodeUtf8 id)
      · refine iff_of_false (not_faithful_of_sep hSome hMatch hSep) ?_
        rintro (⟨hPlain, -⟩ | ⟨-, hNo⟩)
        · rw [hMatch] at hPlain
          cases hPlain
        · exact hNo hSep
      · refine iff_of_true ?_ (Or.inr ⟨hMatch, hSep⟩)
        have hPlain : PlainName (idEncoded id) := by
          rw [hEncoded]
          refine plainName_of_mem (c := '_') ?_ (List.mem_append_left _ (by decide)) (by decide)
          rw [List.mem_append, not_or, sep_mem_code]
          exact ⟨by decide, hSep⟩
        obtain ⟨hInside, hListed⟩ := path_of_plainName hPlain
        rw [hEncoded, idDecoded_code hSome] at hListed
        exact ⟨hInside, hListed⟩
  | false =>
      have hEncoded : idEncoded id = id := if_neg (by simp [hMatch])
      by_cases hDot : id = ['.']
      · subst hDot
        refine iff_of_false ?_ (by decide)
        rintro ⟨-, hListed⟩
        exact absurd hListed (by decide)
      by_cases hUp : id = ['.', '.']
      · subst hUp
        refine iff_of_false ?_ (by decide)
        rintro ⟨-, hListed⟩
        exact absurd hListed (by decide)
      have hPlain : PlainName (idEncoded id) := by
        rw [hEncoded]
        refine ⟨fun hMem => ?_, ?_, hUp⟩
        · rw [isMatch, List.any_eq_false] at hMatch
          exact absurd (hMatch '/' hMem) (by decide)
        · simp [blank, hSome, hDot]
      obtain ⟨hInside, hListed⟩ := path_of_plainName hPlain
      rw [hEncoded] at hListed
      have hKept : Kept id ↔ ¬ LooksEncoded id := by
        simp [Kept, hMatch, hDot, hUp]
      rw [hKept, ← idDecoded_eq_iff hSome]
      constructor
      · intro hFaithful
        exact Option.some.inj (hListed.symm.trans hFaithful.listed)
      · intro hSame
        exact ⟨hInside, by rw [hListed, hSame]⟩

end Paths

/-- Files are faithful to the ids of two peers, and different where the ids are,
exactly where both ids are kept. -/
theorem paths_faithful_iff (hFirst : first ≠ []) (hSecond : second ≠ []) :
    (Faithful first ∧ Faithful second ∧ (first ≠ second → path first ≠ path second)) ↔
      Kept first ∧ Kept second := by
  rw [faithful_iff hFirst, faithful_iff hSecond, ← and_assoc, and_iff_left_iff_imp]
  rintro ⟨hKept, hOther⟩ hDiffer hSame
  have hListed := ((faithful_iff hFirst).mpr hKept).listed
  rw [hSame, ((faithful_iff hSecond).mpr hOther).listed] at hListed
  exact hDiffer (Option.some.inj hListed).symm

/-- The codes of `a?` and `a:b` have no separator. -/
theorem paths_faithful_encoded : path ['a', '?'] ≠ path ['a', ':', 'b'] :=
  ((@paths_faithful_iff ['a', '?'] ['a', ':', 'b'] (by decide) (by decide)).mpr
    ⟨by decide, by decide⟩).2.2 (by decide)

/-- The file of `???a` is in a directory of its own, and the one of `a?` is that of
another id as well. -/
theorem paths_not_faithful :
    path "???a".toList = peers ++ "/base64_Pz8/YQ==.toml".toList ∧
      ¬ Faithful "???a".toList ∧ path "a?".toList = path "base64_YT8=".toList := by
  refine ⟨by decide, ?_, by decide⟩
  intro hFaithful
  exact absurd hFaithful.listed (by decide)

end PeerConfig

end HibtDesk
