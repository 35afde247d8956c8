import HibtDesk.Video.CodecNegotiation

/-! Whether the codec depends on the order in which the viewers came, or in which the map
goes through them. Viewers that are tied are told apart by nothing else. -/
namespace HibtDesk.Video.Codec

namespace Encoder

/-- Viewers join one after the other; each call goes through the map in an order of its own. -/
def joined (env : Env) (arrivals : List (Iteration (Int × SupportedDecoding) × Int × SupportedDecoding)) :
    Encoder :=
  arrivals.foldl
    (fun encoder arrival =>
      update { env with iteration := arrival.1 } encoder (.update arrival.2.1 arrival.2.2))
    new

/-- The viewers, in whatever order, end up with one format. -/
def OrderFree (env : Env) (peers : List (Int × SupportedDecoding)) : Prop :=
  ∀ arrivals others, (arrivals.map (·.2)).Perm peers → (others.map (·.2)).Perm peers →
    (joined env arrivals).format = (joined env others).format

/-- The preferences that count. -/
def countedVotes (env : Env) (peers : List (Int × SupportedDecoding)) : List EnumOrUnknown :=
  (peers.map (·.2.prefer)).filter (counts env peers)

/-- No two preferences that count are shared by the same number of viewers, the most there is. -/
def TieFree (env : Env) (peers : List (Int × SupportedDecoding)) : Prop :=
  ∀ first ∈ countedVotes env peers, ∀ second ∈ countedVotes env peers,
    Plurality.Leads (countedVotes env peers) first → Plurality.Leads (countedVotes env peers) second →
      first = second

section Perm
variable {env : Env} {peers others : List (Int × SupportedDecoding)}

theorem allSupport_perm (hPerm : peers.Perm others) (ability : SupportedDecoding → Int) :
    allSupport peers ability = allSupport others ability := by
  unfold allSupport
  rw [hPerm.length_eq, hPerm.all_eq]

theorem h264Useable_perm (hPerm : peers.Perm others) : h264Useable env peers = h264Useable env others := by
  simp only [h264Useable, h264Encoding, h264VramEncoding, h264HwEncoding, allSupport_perm hPerm]

theorem h265Useable_perm (hPerm : peers.Perm others) : h265Useable env peers = h265Useable env others := by
  simp only [h265Useable, h265Encoding, h265VramEncoding, h265HwEncoding, allSupport_perm hPerm]

theorem counts_perm (hPerm : peers.Perm others) : counts env peers = counts env others := by
  funext vote
  cases vote with
  | unknown value => rfl
  | known value =>
      cases value with
      | auto | vp9 => rfl
      | vp8 => exact allSupport_perm hPerm _
      | av1 => exact congrArg (· && !env.disableAv1) (allSupport_perm hPerm _)
      | h264 => exact h264Useable_perm hPerm
      | h265 => exact h265Useable_perm hPerm

theorem choose_perm (hPerm : peers.Perm others) (preference : PreferCodec) :
    choose env peers preference = choose env others preference := by
  have hVp8 : vp8Useable peers = vp8Useable others := allSupport_perm hPerm _
  have hAv1 : av1Useable env peers = av1Useable env others :=
    congrArg (· && !env.disableAv1) (allSupport_perm hPerm _)
  have hAuto : autoCodec env peers = autoCodec env others := by
    unfold autoCodec
    rw [hVp8, hAv1, h264Useable_perm hPerm, h265Useable_perm hPerm]
  have hH264 : h264Encoding env peers = h264Encoding env others := by
    simp only [h264Encoding, h264VramEncoding, h264HwEncoding, allSupport_perm hPerm]
  have hH265 : h265Encoding env peers = h265Encoding env others := by
    simp only [h265Encoding, h265VramEncoding, h265HwEncoding, allSupport_perm hPerm]
  cases preference <;> simp only [choose, hAuto, hH264, hH265]

/-- The votes are those of the peers, in some order. -/
theorem preferences_perm (env : Env) (hPerm : peers.Perm others) :
    (preferences env peers).Perm (countedVotes env others) := by
  unfold preferences countedVotes
  rw [counts_perm hPerm]
  exact (((env.iteration.perm peers).trans hPerm).map _).filter _

end Perm

section Joined
variable (env : Env)

theorem joined_concat (arrivals : List (Iteration (Int × SupportedDecoding) × Int × SupportedDecoding))
    (arrival : Iteration (Int × SupportedDecoding) × Int × SupportedDecoding) :
    joined env (arrivals ++ [arrival]) =
      update { env with iteration := arrival.1 } (joined env arrivals)
        (.update arrival.2.1 arrival.2.2) := by
  unfold joined
  rw [List.foldl_append]
  rfl

/-- All that joined are among the peers. -/
theorem decodings_joined {arrivals : List (Iteration (Int × SupportedDecoding) × Int × SupportedDecoding)}
    (hIds : ((arrivals.map (·.2)).map (·.1)).Nodup) :
    (joined env arrivals).decodings.Perm (arrivals.map (·.2)) := by
  induction arrivals using List.reverseRecOn with
  | nil => exact List.Perm.refl []
  | append_singleton arrivals arrival ih =>
      rw [List.map_append, List.map_append, List.nodup_append] at hIds
      have hBefore := ih hIds.1
      have hNew : (joined env arrivals).decodings.filter (·.1 ≠ arrival.2.1) =
          (joined env arrivals).decodings := by
        rw [List.filter_eq_self]
        intro peer hPeer
        have hThere : peer.1 ∈ (arrivals.map (·.2)).map (·.1) :=
          List.mem_map_of_mem (hBefore.mem_iff.mp hPeer)
        exact decide_eq_true (hIds.2.2 peer.1 hThere arrival.2.1 (by simp))
      rw [joined_concat]
      show (insert arrival.2.1 arrival.2.2 (joined env arrivals).decodings).Perm _
      unfold insert
      rw [hNew, List.map_append]
      exact (hBefore.cons _).trans (List.perm_append_singleton _ _).symm

/-- What the last call of those that let the peers join chooses. -/
theorem format_joined_concat {peers : List (Int × SupportedDecoding)} (hIds : (peers.map (·.1)).Nodup)
    {arrivals : List (Iteration (Int × SupportedDecoding) × Int × SupportedDecoding)}
    {arrival : Iteration (Int × SupportedDecoding) × Int × SupportedDecoding}
    (hPeers : ((arrivals ++ [arrival]).map (·.2)).Perm peers) :
    ∃ decodings : List (Int × SupportedDecoding), decodings.Perm peers ∧
      (joined env (arrivals ++ [arrival])).format =
        choose env peers
          (((Plurality.winner (preferences { env with iteration := arrival.1 } decodings)).getD
            (.known .auto)).enumValueOr .auto) := by
  have hNodup : (((arrivals ++ [arrival]).map (·.2)).map (·.1)).Nodup :=
    (hPeers.map (·.1)).nodup_iff.mpr hIds
  have hDecodings := (decodings_joined env hNodup).trans hPeers
  refine ⟨_, hDecodings, ?_⟩
  rw [← @choose_perm env _ _ hDecodings, joined_concat]
  rfl

end Joined

section Tie
variable {env : Env} {peers : List (Int × SupportedDecoding)}

/-- Those that want the same first. -/
def wanting (vote : EnumOrUnknown) : Iteration (Int × SupportedDecoding) where
  order entries :=
    entries.filter (fun entry => decide (entry.2.prefer = vote)) ++
      entries.filter (fun entry => !decide (entry.2.prefer = vote))
  perm entries := List.filter_append_perm _ entries

/-- A preference that leads is chosen if those that want it are gone through first. -/
theorem winner_wanting {vote : EnumOrUnknown} (hMem : vote ∈ countedVotes env peers)
    (hLeads : Plurality.Leads (countedVotes env peers) vote) {decodings : List (Int × SupportedDecoding)}
    (hPerm : decodings.Perm peers) :
    Plurality.winner (preferences { env with iteration := wanting vote } decodings) = some vote := by
  have hVotes : (preferences { env with iteration := wanting vote } decodings).Perm
      (countedVotes env peers) :=
    preferences_perm { env with iteration := wanting vote } hPerm
  obtain ⟨hWanted, hCounts⟩ := List.mem_filter.mp hMem
  obtain ⟨peer, hPeer, rfl⟩ := List.mem_map.mp hWanted
  have hThere : peer ∈ decodings.filter fun entry => decide (entry.2.prefer = peer.2.prefer) :=
    List.mem_filter.mpr ⟨hPerm.mem_iff.mpr hPeer, decide_eq_true rfl⟩
  obtain ⟨rest, hFirst⟩ : ∃ rest, preferences { env with iteration := wanting peer.2.prefer } decodings =
      peer.2.prefer :: rest := by
    cases hList : decodings.filter fun entry => decide (entry.2.prefer = peer.2.prefer) with
    | nil =>
        rw [hList] at hThere
        cases hThere
    | cons first later =>
        have hFirst : first ∈ decodings.filter fun entry => decide (entry.2.prefer = peer.2.prefer) := by
          rw [hList]
          exact List.mem_cons_self
        have hSame : first.2.prefer = peer.2.prefer := of_decide_eq_true (List.mem_filter.mp hFirst).2
        have hCounts' : counts env decodings peer.2.prefer = true := by
          rw [counts_perm hPerm]
          exact hCounts
        unfold preferences
        simp only [wanting, hList, List.cons_append, List.map_cons, hSame]
        rw [List.filter_cons_of_pos (by exact hCounts')]
        exact ⟨_, rfl⟩
  rw [hFirst] at hVotes ⊢
  exact Plurality.winner_cons_of_leads ((Plurality.leads_perm hVotes _).mpr hLeads)

/-- Preferences that count lead to formats of their own. -/
theorem choose_injective {first second : PreferCodec}
    (hFirst : counts env peers (.known first) = true) (hSecond : counts env peers (.known second) = true)
    (hSame : choose env peers first = choose env peers second) : first = second := by
  have hEncoding : ∀ value, counts env peers (.known value) = true →
      (value = .vp8 ∧ choose env peers value = .vp8) ∨ (value = .vp9 ∧ choose env peers value = .vp9) ∨
        (value = .av1 ∧ choose env peers value = .av1) ∨ (value = .h264 ∧ choose env peers value = .h264) ∨
          (value = .h265 ∧ choose env peers value = .h265) := by
    intro value hCounts
    cases value with
    | auto => cases hCounts
    | vp8 | vp9 | av1 => simp [choose]
    | h264 =>
        have hThere : h264Encoding env peers = true := (Bool.and_eq_true_iff.mp hCounts).2
        simp [choose, hThere]
    | h265 =>
        have hThere : h265Encoding env peers = true := (Bool.and_eq_true_iff.mp hCounts).2
        simp [choose, hThere]
  rcases hEncoding first hFirst with ⟨rfl, hA⟩ | ⟨rfl, hA⟩ | ⟨rfl, hA⟩ | ⟨rfl, hA⟩ | ⟨rfl, hA⟩ <;>
    rcases hEncoding second hSecond with ⟨rfl, hB⟩ | ⟨rfl, hB⟩ | ⟨rfl, hB⟩ | ⟨rfl, hB⟩ | ⟨rfl, hB⟩ <;>
    first
      | rfl
      | (rw [hA, hB] at hSame; cases hSame)

/-- The peers, gone through by the one order. -/
def arriving (vote : EnumOrUnknown) (peers : List (Int × SupportedDecoding)) :
    List (Iteration (Int × SupportedDecoding) × Int × SupportedDecoding) :=
  peers.map fun peer => (wanting vote, peer)

theorem arriving_peers (vote : EnumOrUnknown) (peers : List (Int × SupportedDecoding)) :
    (arriving vote peers).map (·.2) = peers := by
  rw [arriving, List.map_map]
  exact List.map_id peers

theorem format_arriving (hIds : (peers.map (·.1)).Nodup) {value : PreferCodec}
    (hMem : EnumOrUnknown.known value ∈ countedVotes env peers)
    (hLeads : Plurality.Leads (countedVotes env peers) (.known value)) :
    (joined env (arriving (.known value) peers)).format = choose env peers value := by
  have hSome : peers ≠ [] := by
    rintro rfl
    cases hMem
  obtain ⟨front, last, rfl⟩ : ∃ front last, peers = front ++ [last] :=
    ⟨peers.dropLast, peers.getLast hSome, (List.dropLast_append_getLast hSome).symm⟩
  have hArriving : arriving (.known value) (front ++ [last]) =
      arriving (.known value) front ++ [(wanting (.known value), last)] := List.map_append
  have hPeers : ((arriving (.known value) front ++ [(wanting (.known value), last)]).map (·.2)).Perm
      (front ++ [last]) := by
    rw [← hArriving, arriving_peers]
  obtain ⟨decodings, hPerm, hFormat⟩ := format_joined_concat env hIds hPeers
  rw [winner_wanting hMem hLeads hPerm] at hFormat
  rw [hArriving]
  exact hFormat

end Tie

/-- The format does not depend on the order if and only if no two preferences are tied. -/
theorem orderFree_iff_tieFree (env : Env) (peers : List (Int × SupportedDecoding))
    (hIds : (peers.map (·.1)).Nodup) : OrderFree env peers ↔ TieFree env peers := by
  constructor
  · intro hFree first hFirst second hSecond hFirstLeads hSecondLeads
    have hFirstCounts := (List.mem_filter.mp hFirst).2
    have hSecondCounts := (List.mem_filter.mp hSecond).2
    cases first with
    | unknown value => cases hFirstCounts
    | known first =>
        cases second with
        | unknown value => cases hSecondCounts
        | known second =>
            have hSame := hFree (arriving (.known first) peers) (arriving (.known second) peers)
              (by rw [arriving_peers]) (by rw [arriving_peers])
            rw [format_arriving hIds hFirst hFirstLeads, format_arriving hIds hSecond hSecondLeads] at hSame
            rw [choose_injective hFirstCounts hSecondCounts hSame]
  · intro hTie arrivals others hArrivals hOthers
    rcases List.eq_nil_or_concat' arrivals with rfl | ⟨front, last, rfl⟩
    · have hNone : peers = [] := hArrivals.symm.eq_nil
      subst hNone
      rw [List.map_eq_nil_iff.mp hOthers.eq_nil]
    · rcases List.eq_nil_or_concat' others with rfl | ⟨otherFront, otherLast, rfl⟩
      · have hNone : peers = [] := hOthers.symm.eq_nil
        subst hNone
        have hEmpty := hArrivals.eq_nil
        simp at hEmpty
      · obtain ⟨decodings, hPerm, hFormat⟩ := format_joined_concat env hIds hArrivals
        obtain ⟨others, hOther, hOtherFormat⟩ := format_joined_concat env hIds hOthers
        have hWinner : ∀ (iteration : Iteration (Int × SupportedDecoding))
            {decodings : List (Int × SupportedDecoding)}, decodings.Perm peers →
            Plurality.winner (countedVotes env peers) =
              Plurality.winner (preferences { env with iteration := iteration } decodings) :=
          fun iteration _ hPeers =>
            Plurality.winner_perm (preferences_perm { env with iteration := iteration } hPeers).symm hTie
        rw [hFormat, hOtherFormat, ← hWinner _ hPerm, ← hWinner _ hOther]

/-- Two viewers that can decode everything but do not want the same. -/
def tiedPeers : List (Int × SupportedDecoding) :=
  [(1, Decoder.supportedDecodings plainDecoder .vp8 false []),
    (2, Decoder.supportedDecodings plainDecoder .av1 false [])]

/-- The two get VP8 or AV1, whichever is gone through first. -/
theorem tied_not_orderFree :
    ¬ ∀ (env : Env) (peers : List (Int × SupportedDecoding)), (peers.map (·.1)).Nodup → OrderFree env peers := by
  intro hClaim
  have hSame := hClaim plainEnv tiedPeers (by decide)
    (arriving (.known .vp8) tiedPeers) (arriving (.known .av1) tiedPeers) (by decide) (by decide)
  exact absurd hSame (by decide)

/-- The last of three viewers decides. -/
theorem majority_orderFree :
    (((3, Decoder.supportedDecodings plainDecoder .av1 false []) :: tiedPeers).map (·.1)).Nodup ∧
      OrderFree plainEnv ((3, Decoder.supportedDecodings plainDecoder .av1 false []) :: tiedPeers) :=
  ⟨by decide, (orderFree_iff_tieFree plainEnv _ (by decide)).mpr (by unfold TieFree; decide)⟩

end Encoder

end HibtDesk.Video.Codec
