import HibtDesk.Connection.HandlerFrame
import HibtDesk.Connection.Start

/-! What a message to capture displays does to the subscriptions. Displays are added, taken
away or set, and all three go through one loop over the services that is told whether to
include the displays it is given and whether to exclude the others. -/
namespace HibtDesk

namespace Server

section Exact
variable (server : Server) (name n : ServiceName) (id i : Int)

theorem isSubed_subscribe (sub : Bool) :
    (server.subscribe name id sub).isSubed n i =
      if n = name ∧ i = id then server.contains name && sub else server.isSubed n i := by
  unfold isSubed contains
  rw [subscribe_services]
  unfold subscribe contains onSubscribe onUnsubscribe
  by_cases hThis : n = name ∧ i = id
  · obtain ⟨rfl, rfl⟩ := hThis
    cases sub <;> split_ifs <;> simp_all
  · rw [if_neg hThis]
    split_ifs <;> simp [hThis]

/-- A service that is added has no subscribers. -/
theorem isSubed_ensureService : (server.ensureService name).isSubed n i = server.isSubed n i := by
  unfold ensureService
  split_ifs with hThere
  · rfl
  · unfold isSubed contains addService
    by_cases hName : n = name
    · subst hName
      have hNot : n ∉ server.services := by simpa [contains] using hThere
      simp [hNot]
    · simp [hName]

theorem contains_ensureService :
    (server.ensureService name).contains n = true ↔ n = name ∨ server.contains n = true := by
  unfold ensureService
  split_ifs with hThere
  · constructor
    · exact Or.inr
    · rintro (rfl | hOld)
      · exact hThere
      · exact hOld
  · simp [contains, addService]

theorem nodup_ensureService (hKeys : server.services.Nodup) :
    (server.ensureService name).services.Nodup := by
  unfold ensureService
  split_ifs with hThere
  · exact hKeys
  · refine List.nodup_cons.mpr ⟨?_, hKeys⟩
    simpa [contains] using hThere

/-- Adding services changes no subscription and takes no service away. -/
theorem foldl_ensureService (names : List ServiceName) :
    (∀ n i, (names.foldl ensureService server).isSubed n i = server.isSubed n i) ∧
      (∀ n, (names.foldl ensureService server).contains n = true ↔
        n ∈ names ∨ server.contains n = true) ∧
      (server.services.Nodup → (names.foldl ensureService server).services.Nodup) := by
  induction names generalizing server with
  | nil => simp
  | cons name rest ih =>
      obtain ⟨hSubed, hContains, hKeys⟩ := ih (server.ensureService name)
      refine ⟨fun n i => ?_, fun n => ?_, fun hNodup => ?_⟩
      · exact (hSubed n i).trans (isSubed_ensureService server name n i)
      · refine (hContains n).trans ?_
        rw [contains_ensureService, List.mem_cons]
        tauto
      · exact hKeys (nodup_ensureService server name hNodup)

end Exact

/-- What becomes of the subscription to a video service. -/
def turned (displays : List ServiceName) (including excluding : Bool) (name : ServiceName) (old : Bool) :
    Bool :=
  if displays.contains name then including || old else !excluding && old

section Capture
variable (server : Server) (n : ServiceName) (id i : Int) (displays : List ServiceName)
  (including excluding : Bool)

@[simp] theorem captureDisplay_services (name : ServiceName) :
    (captureDisplay id displays including excluding server name).services = server.services := by
  unfold captureDisplay
  split_ifs <;> simp

/-- One pass of the loop turns the one subscription it is about. -/
theorem isSubed_captureDisplay (name : ServiceName) :
    (captureDisplay id displays including excluding server name).isSubed n i =
      if n = name ∧ i = id ∧ n.isVideo = true then
        server.contains n && turned displays including excluding n (server.isSubed n i)
      else server.isSubed n i := by
  by_cases hThis : n = name ∧ i = id ∧ n.isVideo = true
  · obtain ⟨rfl, rfl, hVideo⟩ := hThis
    rw [if_pos ⟨rfl, rfl, hVideo⟩]
    unfold captureDisplay turned
    rw [if_pos hVideo]
    split_ifs with hAsked hIn hEx
    · rw [isSubed_subscribe, if_pos ⟨rfl, rfl⟩, hIn]
      simp
    · simp [isSubed, hIn]
    · rw [isSubed_subscribe, if_pos ⟨rfl, rfl⟩, hEx]
      simp
    · simp [isSubed, hEx]
  · rw [if_neg hThis]
    have hOther : n.isVideo = true → ¬ (n = name ∧ i = id) :=
      fun hVideo hSame => hThis ⟨hSame.1, hSame.2, hVideo⟩
    unfold captureDisplay
    by_cases hSame : n = name ∧ i = id
    · obtain ⟨rfl, rfl⟩ := hSame
      rw [if_neg (fun hVideo => hOther hVideo ⟨rfl, rfl⟩)]
    · split_ifs
      · rw [isSubed_subscribe, if_neg hSame]
      · rfl
      · rw [isSubed_subscribe, if_neg hSame]
      · rfl
      · rfl

/-- A second pass over the same service would find nothing left to turn. -/
theorem turned_turned (name : ServiceName) (old there : Bool) :
    (there && turned displays including excluding name
        (there && turned displays including excluding name old)) =
      (there && turned displays including excluding name old) := by
  unfold turned
  cases there <;> cases old <;> cases including <;> cases excluding <;> split_ifs <;> rfl

theorem isSubed_foldl_captureDisplay (names : List ServiceName) :
    (names.foldl (captureDisplay id displays including excluding) server).isSubed n i =
      if n ∈ names ∧ i = id ∧ n.isVideo = true then
        server.contains n && turned displays including excluding n (server.isSubed n i)
      else server.isSubed n i := by
  induction names generalizing server with
  | nil => simp
  | cons name rest ih =>
      have hThere : (captureDisplay id displays including excluding server name).contains n =
          server.contains n := by
        unfold contains
        rw [captureDisplay_services]
      rw [List.foldl_cons, ih, hThere, isSubed_captureDisplay]
      by_cases hMine : i = id ∧ n.isVideo = true
      · by_cases hName : n = name
        · have hNow : n = name ∧ i = id ∧ n.isVideo = true := ⟨hName, hMine⟩
          have hIn : n ∈ name :: rest ∧ i = id ∧ n.isVideo = true := ⟨by simp [hName], hMine⟩
          rw [if_pos hNow, if_pos hIn, turned_turned, ite_self]
        · simp [hName]
      · simp [hMine]

theorem services_foldl_captureDisplay (names : List ServiceName) :
    (names.foldl (captureDisplay id displays including excluding) server).services =
      server.services := by
  induction names generalizing server with
  | nil => rfl
  | cons name rest ih => exact (ih _).trans (captureDisplay_services ..)

end Capture

/-- The loop turns the subscriptions of one connection to the video services there are. -/
theorem isSubed_captureDisplays (server : Server) (n : ServiceName) (id i : Int) (source : VideoSource)
    (displays : List Nat) (including excluding : Bool) :
    (server.captureDisplays id source displays including excluding).isSubed n i =
      if i = id ∧ n.isVideo = true then
        server.contains n && turned (displays.map (ServiceName.video source)) including excluding n
          (server.isSubed n i)
      else server.isSubed n i := by
  unfold captureDisplays
  dsimp only
  rw [isSubed_foldl_captureDisplay]
  by_cases hThere : n ∈ server.services
  · simp [hThere]
  · have hNot : server.contains n = false := by simpa [contains] using hThere
    have hOld : server.isSubed n i = false := by simp [isSubed, hNot]
    simp [hThere, hNot, hOld]

theorem services_captureDisplays (server : Server) (id : Int) (source : VideoSource)
    (displays : List Nat) (including excluding : Bool) :
    (server.captureDisplays id source displays including excluding).services = server.services :=
  services_foldl_captureDisplay ..

/-- More than one video service is counted if and only if there are two of them. -/
theorem one_lt_getSubbedDisplaysCount (server : Server) (hKeys : server.services.Nodup) (id : Int) :
    1 < server.getSubbedDisplaysCount id ↔
      ∃ first second : ServiceName, first ≠ second ∧ first.isVideo = true ∧ second.isVideo = true ∧
        server.isSubed first id = true ∧ server.isSubed second id = true := by
  have hMem : ∀ name, name ∈ server.services.filter (fun name => name.isVideo && server.subed name id) ↔
      name.isVideo = true ∧ server.isSubed name id = true := by
    intro name
    simp [isSubed, contains]
    tauto
  have hFilter := hKeys.filter (fun name => name.isVideo && server.subed name id)
  unfold getSubbedDisplaysCount
  constructor
  · intro hCount
    generalize server.services.filter (fun name => name.isVideo && server.subed name id) = counted
      at hCount hMem hFilter
    cases counted with
    | nil => simp at hCount
    | cons first rest =>
        cases rest with
        | nil => simp at hCount
        | cons second rest =>
            obtain ⟨hFirst, -⟩ := List.nodup_cons.mp hFilter
            obtain ⟨hVideo, hSubed⟩ := (hMem first).mp (by simp)
            obtain ⟨hVideo', hSubed'⟩ := (hMem second).mp (by simp)
            refine ⟨first, second, ?_, hVideo, hVideo', hSubed, hSubed'⟩
            rintro rfl
            exact hFirst List.mem_cons_self
  · rintro ⟨first, second, hNe, hVideo, hVideo', hSubed, hSubed'⟩
    have hFirst := (hMem first).mpr ⟨hVideo, hSubed⟩
    have hSecond := (hMem second).mpr ⟨hVideo', hSubed'⟩
    by_contra hFew
    obtain ⟨only, hOnly⟩ := List.length_eq_one_iff.mp
      ((Nat.not_lt.mp hFew).antisymm (List.length_pos_of_mem hFirst))
    rw [hOnly, List.mem_singleton] at hFirst hSecond
    exact hNe (hFirst.trans hSecond.symm)

end Server

namespace State

/-- What a message leaves of a subscription to a video service. -/
def leaves (source : VideoSource) (add sub set : List Nat) (name : ServiceName) (old : Bool) : Bool :=
  if !add.isEmpty then (add.map (ServiceName.video source)).contains name || old
  else if !sub.isEmpty then (sub.map (ServiceName.video source)).contains name && old
  else (set.map (ServiceName.video source)).contains name

theorem leaves_video (source : VideoSource) (add sub set : List Nat) (display : Nat) (old : Bool) :
    leaves source add sub set (.video source display) old = true ↔
      if add ≠ [] then display ∈ add ∨ old = true
      else if sub ≠ [] then display ∈ sub ∧ old = true
      else display ∈ set := by
  unfold leaves
  cases add with
  | cons first rest => simp
  | nil =>
      cases sub with
      | cons first rest => simp
      | nil => simp

section CaptureOn
variable (conn : Connection) (server : Server) (add sub set : List Nat)

theorem isSubed_captureOn_eq (n : ServiceName) (i : Int) :
    (captureOn conn server add sub set).isSubed n i =
      if i = conn.id ∧ n.isVideo = true then
        leaves conn.videoSource add sub set n (server.isSubed n i)
      else server.isSubed n i := by
  obtain ⟨hAdd, hAdded, -⟩ :=
    Server.foldl_ensureService server (add.map (ServiceName.video conn.videoSource))
  obtain ⟨hSet, hThere, -⟩ := Server.foldl_ensureService
    ((add.map (ServiceName.video conn.videoSource)).foldl Server.ensureService server)
    (set.map (ServiceName.video conn.videoSource))
  have hOld : server.isSubed n conn.id = true → server.contains n = true := by
    intro hSubed
    exact (Bool.and_eq_true_iff.mp hSubed).1
  have hContains := (hThere n).trans (or_congr_right (hAdded n))
  unfold captureOn leaves
  dsimp only
  split_ifs with hMode hMine hMode' hMine hMine
  all_goals
    rw [Server.isSubed_captureDisplays, hSet, hAdd]
    simp only [hMine, if_false, and_self, if_true]
  · rw [Bool.eq_iff_iff, Bool.and_eq_true_iff, hContains, Bool.or_eq_true_iff, Server.turned]
    split_ifs with hAsked
    · simp [List.contains_iff_mem.mp hAsked]
    · simp only [Bool.not_false, Bool.true_and, hAsked, Bool.false_eq_true, false_or]
      exact ⟨And.right, fun hSubed => ⟨Or.inr (Or.inr (hOld hSubed)), hSubed⟩⟩
  · rw [Bool.eq_iff_iff, Bool.and_eq_true_iff, hContains, Bool.and_eq_true_iff, Server.turned]
    split_ifs with hAsked
    · simp only [Bool.false_or, hAsked, true_and]
      exact ⟨And.right, fun hSubed => ⟨Or.inr (Or.inr (hOld hSubed)), hSubed⟩⟩
    · simp only [Bool.not_true, Bool.false_and, hAsked, Bool.false_eq_true, and_false, false_and]
  · rw [Bool.eq_iff_iff, Bool.and_eq_true_iff, hContains, Server.turned]
    split_ifs with hAsked
    · simp [List.contains_iff_mem.mp hAsked]
    · simp only [Bool.not_true, Bool.false_and, hAsked, Bool.false_eq_true, and_false]

theorem nodup_captureOn (hKeys : server.services.Nodup) :
    (captureOn conn server add sub set).services.Nodup := by
  have hAdded := (Server.foldl_ensureService server
    (add.map (ServiceName.video conn.videoSource))).2.2 hKeys
  have hAll := (Server.foldl_ensureService _ (set.map (ServiceName.video conn.videoSource))).2.2 hAdded
  unfold captureOn
  dsimp only
  split_ifs <;> (rw [Server.services_captureDisplays]; exact hAll)

end CaptureOn

/-- The displays that a message asks for, of those of before. -/
def Asked (add sub set : List Nat) (old : Nat → Prop) (display : Nat) : Prop :=
  if add ≠ [] then old display ∨ display ∈ add
  else if sub ≠ [] then old display ∧ display ∉ sub
  else display ∈ set

/-- From `s` to `t` the displays of the source are as the message asks, nothing else has
changed but whether the focus of windows is followed, and more than one display is known
to be shown if and only if it is. -/
structure CapturedAsAsked (s t : State) (add sub set : List Nat) : Prop where
  displays : ∀ display, t.subed (.video s.conn.videoSource display) = true ↔
    Asked add sub set (fun display => s.subed (.video s.conn.videoSource display) = true) display
  others : ∀ name id, id ≠ s.conn.id → Server.heard t.server name id = Server.heard s.server name id
  services : ∀ name, name.isVideo = false → name ≠ .windowFocus → t.subed name = s.subed name
  multi : t.conn.multiUiSession = true ↔
    ∃ first second : ServiceName, first ≠ second ∧ first.isVideo = true ∧ second.isVideo = true ∧
      t.subed first = true ∧ t.subed second = true

section Capture
variable {s : State} {server : Server} (hServer : s.server = some server) (add sub set : List Nat)
include hServer

/-- The server after a message, but for the focus of windows. -/
theorem captureDisplays_spec :
    ∃ after, (s.captureDisplays add sub set).server = some after ∧
      (∀ name id, name ≠ .windowFocus ∨ id ≠ s.conn.id →
        after.isSubed name id = (captureOn s.conn server add sub set).isSubed name id) ∧
      (s.captureDisplays add sub set).conn.id = s.conn.id ∧
      ((s.captureDisplays add sub set).conn.multiUiSession = true ↔
        1 < (captureOn s.conn server add sub set).getSubbedDisplaysCount s.conn.id) := by
  unfold captureDisplays
  rw [hServer]
  dsimp only
  by_cases hFollow : s.conn.followRemoteWindow = true
  · rw [if_pos hFollow]
    refine ⟨_, rfl, fun name id hOther => ?_, rfl, ?_⟩
    · rw [Server.isSubed_subscribe, if_neg]
      rintro ⟨rfl, rfl⟩
      exact hOther.elim (fun h => h rfl) (fun h => h rfl)
    · exact decide_eq_true_iff
  · rw [if_neg hFollow]
    exact ⟨_, rfl, fun _ _ _ => rfl, rfl, decide_eq_true_iff⟩

/-- Whether this connection is subscribed to a service, after a message. -/
theorem subed_captureDisplays_eq {name : ServiceName} (hName : name ≠ .windowFocus) :
    (s.captureDisplays add sub set).subed name =
      if name.isVideo = true then leaves s.conn.videoSource add sub set name (s.subed name)
      else s.subed name := by
  obtain ⟨after, hAfter, hSubed, hId, -⟩ := captureDisplays_spec hServer add sub set
  unfold subed
  rw [hAfter, hServer, hId]
  dsimp only
  rw [hSubed name s.conn.id (Or.inl hName), isSubed_captureOn_eq]
  simp

/-- The displays of the source are as the message asks if and only if it adds displays, or
takes none away, or there are none of them to be taken away. -/
theorem displays_asked_iff :
    (∀ display, (s.captureDisplays add sub set).subed (.video s.conn.videoSource display) = true ↔
      Asked add sub set (fun display => s.subed (.video s.conn.videoSource display) = true) display) ↔
      add ≠ [] ∨ sub = [] ∨ ∀ display, s.subed (.video s.conn.videoSource display) = false := by
  have hAfter : ∀ display,
      (s.captureDisplays add sub set).subed (.video s.conn.videoSource display) =
        leaves s.conn.videoSource add sub set (.video s.conn.videoSource display)
          (s.subed (.video s.conn.videoSource display)) := by
    intro display
    rw [subed_captureDisplays_eq hServer add sub set (by simp)]
    exact if_pos rfl
  simp only [hAfter, leaves_video, Asked]
  by_cases hAdd : add = []
  · by_cases hSub : sub = []
    · simp [hAdd, hSub]
    · simp only [hAdd, hSub, ne_eq, not_true_eq_false, not_false_eq_true, if_true, if_false, false_or]
      constructor
      · intro hSame display
        have hThis := hSame display
        by_contra hOld
        rw [Bool.not_eq_false] at hOld
        tauto
      · intro hNone display
        rw [hNone display]
        simp
  · simp [hAdd, or_comm]

/-- A message is done as it asks if and only if it adds displays, or takes none away, or
there are none of them to be taken away. -/
theorem capturedAsAsked_iff (hKeys : server.services.Nodup) :
    CapturedAsAsked s (s.captureDisplays add sub set) add sub set ↔
      add ≠ [] ∨ sub = [] ∨ ∀ display, s.subed (.video s.conn.videoSource display) = false := by
  obtain ⟨after, hAfter, hSubed, hId, hMulti⟩ := captureDisplays_spec hServer add sub set
  have hVideo : ∀ name : ServiceName, name.isVideo = true →
      (s.captureDisplays add sub set).subed name =
        (captureOn s.conn server add sub set).isSubed name s.conn.id := by
    intro name hName
    unfold subed
    rw [hAfter, hId]
    refine hSubed name s.conn.id (Or.inl ?_)
    rintro rfl
    cases hName
  rw [← displays_asked_iff hServer add sub set]
  refine ⟨CapturedAsAsked.displays, fun hDisplays => ⟨hDisplays, ?_, ?_, ?_⟩⟩
  · intro name id hOther
    rw [hAfter, hServer]
    unfold Server.heard
    dsimp only
    rw [hSubed name id (Or.inr hOther), isSubed_captureOn_eq, if_neg fun hMine => hOther hMine.1]
  · intro name hName hFocus
    rw [subed_captureDisplays_eq hServer add sub set hFocus, if_neg (by simp [hName])]
  · rw [hMulti, Server.one_lt_getSubbedDisplaysCount _ (nodup_captureOn _ _ _ _ _ hKeys)]
    constructor
    · rintro ⟨first, second, hNe, hFirst, hSecond, hOn, hOn'⟩
      exact ⟨first, second, hNe, hFirst, hSecond, (hVideo first hFirst).trans hOn,
        (hVideo second hSecond).trans hOn'⟩
    · rintro ⟨first, second, hNe, hFirst, hSecond, hOn, hOn'⟩
      exact ⟨first, second, hNe, hFirst, hSecond, (hVideo first hFirst).symm.trans hOn,
        (hVideo second hSecond).symm.trans hOn'⟩

end Capture

/-- A connection that is shown the first of two displays. -/
def shownFirst : State :=
  let server : Server :=
    { services := [.video .monitor 0, .video .monitor 1]
      subed := fun name id => name == .video .monitor 0 && id == 1
      connections := [1] }
  let start := Loop.start default default none 0 1 "10.0.0.1" "salt" "challenge" none none
  { start.state with server := some server }

theorem server_shownFirst : ∃ server, shownFirst.server = some server ∧ server.services.Nodup :=
  ⟨_, rfl, by decide⟩

/-- The second display is added to the first. -/
theorem second_display_added :
    CapturedAsAsked shownFirst (shownFirst.captureDisplays [1] [] []) [1] [] [] := by
  obtain ⟨server, hServer, hKeys⟩ := server_shownFirst
  exact (capturedAsAsked_iff hServer [1] [] [] hKeys).mpr (Or.inl (by decide))

/-- The only display there is stays when it is to be taken away. -/
theorem display_not_taken_away :
    ¬ ∀ (s : State) (server : Server) (add sub set : List Nat), s.server = some server →
      server.services.Nodup → CapturedAsAsked s (s.captureDisplays add sub set) add sub set := by
  intro hClaim
  obtain ⟨server, hServer, hKeys⟩ := server_shownFirst
  have hDisplay := (hClaim shownFirst server [] [0] [] hServer hKeys).displays 0
  have hStays : (shownFirst.captureDisplays [] [0] []).subed
      (.video shownFirst.conn.videoSource 0) = true := by decide +kernel
  have hAsked := hDisplay.mp hStays
  simp [Asked] at hAsked

end State

end HibtDesk
