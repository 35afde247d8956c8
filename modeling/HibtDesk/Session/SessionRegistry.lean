import HibtDesk.Library.Trace
import Mathlib.Data.Finset.Basic

/-! The sessions of the UI. Each peer has one session, with the ids of the windows that show
it. A window is taken out under one lock, and its peer, if no window is left, under the next
one. What is done under one lock is one step. -/
namespace HibtDesk.Session

variable {Peer SessionId : Type} [DecidableEq Peer] [DecidableEq SessionId]

/-- `SESSIONS` with the session ids of each peer, and the removals that stand between their
two locks. The ids inserted and not removed since are kept beside it, and the peers that were
removed with the ids they had. -/
structure Registry (Peer SessionId : Type) where
  sessions : Peer → Option (Finset SessionId)
  removing : List Peer
  inserted : Finset SessionId
  closed : List (Finset SessionId)

namespace Registry

inductive Event (Peer SessionId : Type) where
  | insertSession (id : SessionId) (peer : Peer)
  | insertPeerSessionId (peer : Peer) (id : SessionId)
  /-- The loop of `remove_session_by_session_id` finds the id with a peer. -/
  | removeId (id : SessionId) (peer : Peer)
  /-- The removal of the peer it has left without an id. -/
  | removePeer (peer : Peer)
  deriving DecidableEq, Repr

def empty : Registry Peer SessionId where
  sessions := fun _ => none
  removing := []
  inserted := ∅
  closed := []

/-- `get_session_by_session_id` finds a session. -/
def Found (r : Registry Peer SessionId) (id : SessionId) : Prop :=
  ∃ peer ids, r.sessions peer = some ids ∧ id ∈ ids

def setIds (r : Registry Peer SessionId) (peer : Peer) (ids : Finset SessionId) :
    Registry Peer SessionId :=
  { r with sessions := Function.update r.sessions peer (some ids) }

def insertSession (r : Registry Peer SessionId) (id : SessionId) (peer : Peer) :
    Registry Peer SessionId :=
  { r.setIds peer (insert id ((r.sessions peer).getD ∅)) with inserted := insert id r.inserted }

/-- `insert_peer_session_id`, which succeeds for a peer that is there. -/
def insertPeerSessionId (r : Registry Peer SessionId) (peer : Peer) (id : SessionId) :
    Bool × Registry Peer SessionId :=
  match r.sessions peer with
  | some ids => (true, { r.setIds peer (insert id ids) with inserted := insert id r.inserted })
  | none => (false, r)

def removeId (r : Registry Peer SessionId) (id : SessionId) (peer : Peer) :
    Registry Peer SessionId :=
  match r.sessions peer with
  | some ids =>
      if id ∈ ids then
        let r := { r.setIds peer (ids.erase id) with inserted := r.inserted.erase id }
        if ids.erase id = ∅ then { r with removing := peer :: r.removing } else r
      else r
  | none => r

def removePeer (r : Registry Peer SessionId) (peer : Peer) : Registry Peer SessionId :=
  if peer ∈ r.removing then
    { r with
      sessions := Function.update r.sessions peer none
      removing := r.removing.erase peer
      closed := (r.sessions peer).toList ++ r.closed }
  else r

def step (r : Registry Peer SessionId) : Event Peer SessionId → Registry Peer SessionId
  | .insertSession id peer => r.insertSession id peer
  | .insertPeerSessionId peer id => (r.insertPeerSessionId peer id).2
  | .removeId id peer => r.removeId id peer
  | .removePeer peer => r.removePeer peer

/-- No id is lost, and no peer is closed with an id left. -/
structure NoneLost (r : Registry Peer SessionId) : Prop where
  found : ∀ id ∈ r.inserted, r.Found id
  closed : ∀ ids ∈ r.closed, ids = ∅

/-- No id is inserted for a peer while a removal is about to take the peer out. -/
def NotRemoving (r : Registry Peer SessionId) : Event Peer SessionId → Prop
  | .insertSession _ peer | .insertPeerSessionId peer _ => peer ∉ r.removing
  | _ => True

instance (r : Registry Peer SessionId) : ∀ event, Decidable (r.NotRemoving event)
  | .insertSession _ _ | .insertPeerSessionId _ _ => inferInstanceAs (Decidable (_ ∉ _))
  | .removeId _ _ | .removePeer _ => .isTrue trivial

/-- Besides, a peer that is about to be taken out has no id. -/
structure Kept (r : Registry Peer SessionId) : Prop extends r.NoneLost where
  removing : ∀ peer ∈ r.removing, ∀ ids, r.sessions peer = some ids → ids = ∅

omit [DecidableEq Peer] [DecidableEq SessionId] in
theorem kept_empty : (empty : Registry Peer SessionId).Kept where
  found := by simp [empty]
  closed := nofun
  removing := nofun

section Steps
variable {r : Registry Peer SessionId}

/-- One more id for a peer loses none of the others. -/
theorem Found.setIds_insert {id other : SessionId} {peer : Peer} {ids : Finset SessionId}
    (hIds : ∀ old, r.sessions peer = some old → old ⊆ ids) (hFound : r.Found other ∨ other = id) :
    (r.setIds peer (insert id ids)).Found other := by
  rcases hFound with ⟨holder, old, hOld, hMem⟩ | rfl
  · by_cases hSame : holder = peer
    · subst hSame
      exact ⟨holder, insert id ids, Function.update_self .., Finset.mem_insert_of_mem (hIds old hOld hMem)⟩
    · exact ⟨holder, old, (Function.update_of_ne hSame ..).trans hOld, hMem⟩
  · exact ⟨peer, insert other ids, Function.update_self .., Finset.mem_insert_self ..⟩

theorem Kept.insert (hKept : r.Kept) {peer : Peer} (hNot : peer ∉ r.removing) (id : SessionId)
    {ids : Finset SessionId} (hIds : ∀ old, r.sessions peer = some old → old ⊆ ids) :
    { r.setIds peer (insert id ids) with inserted := insert id r.inserted }.Kept where
  found := by
    intro other hOther
    refine Found.setIds_insert hIds ?_
    rcases Finset.mem_insert.mp hOther with hNew | hOld
    · exact Or.inr hNew
    · exact Or.inl (hKept.found other hOld)
  closed := hKept.closed
  removing := by
    intro gone hGone found hFound
    have hOther : gone ≠ peer := fun hSame => hNot (hSame ▸ hGone)
    exact hKept.removing gone hGone found ((Function.update_of_ne hOther ..).symm.trans hFound)

theorem Kept.removeId (hKept : r.Kept) (id : SessionId) (peer : Peer) : (r.removeId id peer).Kept := by
  unfold Registry.removeId
  split
  · rename_i ids hIds
    split
    · rename_i hMem
      have hFound : ∀ other ∈ r.inserted.erase id, (r.setIds peer (ids.erase id)).Found other := by
        intro other hOther
        obtain ⟨hNe, hIn⟩ := Finset.mem_erase.mp hOther
        obtain ⟨holder, old, hOld, hOtherMem⟩ := hKept.found other hIn
        by_cases hSame : holder = peer
        · subst hSame
          obtain rfl := Option.some.inj (hIds.symm.trans hOld)
          exact ⟨holder, ids.erase id, Function.update_self .., Finset.mem_erase.mpr ⟨hNe, hOtherMem⟩⟩
        · exact ⟨holder, old, (Function.update_of_ne hSame ..).trans hOld, hOtherMem⟩
      have hRemoving : ∀ gone ∈ r.removing, ∀ found,
          (r.setIds peer (ids.erase id)).sessions gone = some found → found = ∅ := by
        intro gone hGone found hHas
        by_cases hSame : gone = peer
        · subst hSame
          have hNone := hKept.removing gone hGone ids hIds
          rw [hNone] at hMem
          exact absurd hMem (Finset.notMem_empty id)
        · exact hKept.removing gone hGone found ((Function.update_of_ne hSame ..).symm.trans hHas)
      dsimp only
      split
      · rename_i hEmpty
        refine ⟨⟨hFound, hKept.closed⟩, fun gone hGone found hHas => ?_⟩
        rcases List.mem_cons.mp hGone with rfl | hOld
        · have hSame : (r.setIds gone (ids.erase id)).sessions gone = some (ids.erase id) :=
            Function.update_self ..
          exact (Option.some.inj (hHas.symm.trans hSame)).trans hEmpty
        · exact hRemoving gone hOld found hHas
      · exact ⟨⟨hFound, hKept.closed⟩, hRemoving⟩
    · exact hKept
  · exact hKept

omit [DecidableEq SessionId] in
theorem Kept.removePeer (hKept : r.Kept) (peer : Peer) : (r.removePeer peer).Kept := by
  unfold Registry.removePeer
  split
  · rename_i hMem
    refine ⟨⟨fun id hId => ?_, fun ids hIds => ?_⟩, fun gone hGone found hHas => ?_⟩
    · -- The peer that goes has no id, so the id is found with another one.
      obtain ⟨holder, old, hOld, hIn⟩ := hKept.found id hId
      have hOther : holder ≠ peer := by
        rintro rfl
        have hNone := hKept.removing holder hMem old hOld
        rw [hNone] at hIn
        exact Finset.notMem_empty id hIn
      exact ⟨holder, old, (Function.update_of_ne hOther ..).trans hOld, hIn⟩
    · rcases List.mem_append.mp hIds with hNow | hBefore
      · exact hKept.removing peer hMem ids (Option.mem_toList.mp hNow)
      · exact hKept.closed ids hBefore
    · by_cases hSame : gone = peer
      · subst hSame
        simp at hHas
      · exact hKept.removing gone (List.mem_of_mem_erase hGone) found
          ((Function.update_of_ne hSame ..).symm.trans hHas)
  · exact hKept

theorem Kept.step (hKept : r.Kept) (event : Event Peer SessionId) (hNot : r.NotRemoving event) :
    (r.step event).Kept := by
  cases event with
  | insertSession id peer =>
      refine hKept.insert hNot id fun old hOld => ?_
      rw [hOld]
      exact Finset.Subset.refl old
  | insertPeerSessionId peer id =>
      rw [Registry.step, insertPeerSessionId]
      split
      · rename_i ids hIds
        refine hKept.insert hNot id fun old hOld => ?_
        rw [Option.some.inj (hOld.symm.trans hIds)]
      · exact hKept
  | removeId id peer => exact hKept.removeId id peer
  | removePeer peer => exact hKept.removePeer peer

end Steps

/-- In a run in which nothing is inserted for a peer that is about to be taken out, no id is
lost, and no peer is closed with an id left. -/
theorem noneLost_of_notRemoving {events : List (Event Peer SessionId)}
    (hRun : Trace.Always step NotRemoving empty events) :
    ∀ past, past <+: events → (Trace.run step empty past).NoneLost := by
  rintro past ⟨rest, rfl⟩
  have hPast := ((Trace.always_append step _ past rest).mp hRun).1
  exact (Trace.invariant_of_always step Kept (fun _ event hNot hKept => hKept.step event hNot)
    kept_empty hPast).toNoneLost

/-- Two windows of a peer come and go, and a third one comes afterwards. -/
def inTurn : List (Event Nat Nat) :=
  [.insertSession 1 7, .insertPeerSessionId 7 2, .removeId 1 7, .removeId 2 7, .removePeer 7,
    .insertSession 3 7]

theorem inTurn_noneLost : (Trace.run step empty inTurn).NoneLost :=
  noneLost_of_notRemoving (by decide) inTurn List.prefix_rfl

/-- A second window comes between the two locks of the removal of the first one. -/
theorem inserted_between_locks_lost :
    ¬ (Trace.run step empty
      [.insertSession 1 7, .removeId 1 7, .insertPeerSessionId 7 2, .removePeer 7] :
        Registry Nat Nat).NoneLost := by
  intro hNone
  have hClosed := hNone.closed {2} (by decide)
  exact absurd hClosed (by decide)

end Registry

end HibtDesk.Session
