import Mathlib.Algebra.Order.Ring.Int
import Mathlib.Data.List.Basic
import Mathlib.Tactic.SplitIfs

/-! The services of the server process and who is subscribed to them. A
subscription is a pair of a service name and a connection id; whether a new
subscriber still waits for its snapshot is left to the services themselves. -/
namespace HibtDesk

inductive VideoSource where
  | monitor | camera
  deriving DecidableEq, Repr

/-- The names of the services. `video_service::get_service_name` joins the
name of the source and the index of the display. -/
inductive ServiceName where
  | audio | display | clipboard | fileClipboard | mouseCursor | mousePos | windowFocus
  | remotePrinter
  | video (source : VideoSource) (idx : Nat)
  deriving DecidableEq, Repr

/-- `Server::is_video_service_name`. -/
def ServiceName.isVideo : ServiceName → Bool
  | .video .. => true
  | _ => false

/-- `services` are the keys of the service table. -/
structure Server where
  services : List ServiceName
  subed : ServiceName → Int → Bool
  connections : List Int

/-- `i32 as usize` on a 64-bit target. -/
def asUsize (n : Int) : Nat := (n % 2 ^ 64).toNat

namespace Server

/-- `Service::on_subscribe` of the named service. -/
def onSubscribe (server : Server) (name : ServiceName) (id : Int) : Server :=
  { server with subed := fun n i => if n = name ∧ i = id then true else server.subed n i }

/-- `Service::on_unsubscribe` of the named service. -/
def onUnsubscribe (server : Server) (name : ServiceName) (id : Int) : Server :=
  { server with subed := fun n i => if n = name ∧ i = id then false else server.subed n i }

def contains (server : Server) (name : ServiceName) : Bool := server.services.contains name

/-- A connection is subscribed to a service of the table. -/
def isSubed (server : Server) (name : ServiceName) (id : Int) : Bool :=
  server.contains name && server.subed name id

/-- `Server::add_service` with a new service, which has no subscribers. -/
def addService (server : Server) (name : ServiceName) : Server :=
  { server with
    services := name :: server.services
    subed := fun n i => if n = name then false else server.subed n i }

/-- `add_service` unless the table has the service already. -/
def ensureService (server : Server) (name : ServiceName) : Server :=
  if server.contains name then server else server.addService name

/-- `Server::subscribe`. -/
def subscribe (server : Server) (name : ServiceName) (id : Int) (sub : Bool) : Server :=
  if server.contains name then
    if server.subed name id = sub then server
    else if sub then server.onSubscribe name id
    else server.onUnsubscribe name id
  else server

/-- One pass of the loop in `Server::add_connection`: every service that is
not refused, and of the video services only the primary display. -/
def addConnectionTo (primaryDisplayIdx : Nat) (id : Int) (noperms : List ServiceName)
    (server : Server) (name : ServiceName) : Server :=
  if name.isVideo && name != .video .monitor primaryDisplayIdx then server
  else if noperms.contains name then server
  else server.onSubscribe name id

/-- `Server::add_connection`. -/
def addConnection (server : Server) (primaryDisplayIdx : Nat) (id : Int)
    (noperms : List ServiceName) : Server :=
  let server := server.services.foldl (addConnectionTo primaryDisplayIdx id noperms) server
  { server with connections := id :: server.connections }

/-- `Server::add_camera_connection`. -/
def addCameraConnection (server : Server) (primaryCameraExists : Bool) (primaryCameraIdx : Nat)
    (id : Int) : Server :=
  let server :=
    if primaryCameraExists && server.contains (.video .camera primaryCameraIdx) then
      server.onSubscribe (.video .camera primaryCameraIdx) id
    else server
  { server with connections := id :: server.connections }

/-- `Server::remove_connection`. -/
def removeConnection (server : Server) (id : Int) : Server :=
  let server := server.services.foldl (fun server name => server.onUnsubscribe name id) server
  { server with connections := server.connections.filter (· != id) }

/-- `Server::get_subbed_displays_count`. -/
def getSubbedDisplaysCount (server : Server) (id : Int) : Nat :=
  (server.services.filter fun name => name.isVideo && server.subed name id).length

/-- One pass of the loop in `Server::capture_displays`. -/
def captureDisplay (id : Int) (displays : List ServiceName) (including excluding : Bool)
    (server : Server) (name : ServiceName) : Server :=
  if name.isVideo then
    if displays.contains name then
      if including then server.subscribe name id true else server
    else
      if excluding then server.subscribe name id false else server
  else server

/-- `Server::capture_displays` on the displays of one source. -/
def captureDisplays (server : Server) (id : Int) (source : VideoSource) (displays : List Nat)
    (including excluding : Bool) : Server :=
  let displays := displays.map (ServiceName.video source)
  server.services.foldl (captureDisplay id displays including excluding) server

/-- Other connections of the process add services and change their own
subscriptions, never those of the connection `id`. -/
def interfere (server : Server) (id : Int) (added : List ServiceName)
    (subed : ServiceName → Int → Bool) : Server :=
  let server := added.foldl ensureService server
  { server with subed := fun n i => if i = id then server.subed n i else subed n i }

section Lemmas
variable (server : Server) (name n : ServiceName) (id : Int) (sub : Bool)

@[simp] theorem subscribe_services :
    (server.subscribe name id sub).services = server.services := by
  unfold subscribe onSubscribe onUnsubscribe
  split_ifs <;> rfl

theorem subscribe_isSubed :
    (server.subscribe name id sub).isSubed n id =
      if n = name then server.contains name && sub else server.isSubed n id := by
  unfold isSubed contains
  rw [subscribe_services]
  unfold subscribe contains onSubscribe onUnsubscribe
  cases sub <;> split_ifs <;> simp_all

/-- A subscription that is on after `subscribe` was on before or was asked for. -/
theorem isSubed_of_subscribe (h : (server.subscribe name id sub).isSubed n id = true) :
    server.isSubed n id = true ∨ (n = name ∧ sub = true) := by
  rw [subscribe_isSubed] at h
  split_ifs at h with hName
  · exact Or.inr ⟨hName, by simp_all⟩
  · exact Or.inl h

/-- Adding a service never adds a subscription. -/
theorem isSubed_of_ensureService (h : (server.ensureService name).isSubed n id = true) :
    server.isSubed n id = true := by
  unfold ensureService at h
  split_ifs at h with hc
  · exact h
  · unfold isSubed contains addService at h
    unfold isSubed contains
    by_cases hName : n = name <;> simp_all

/-- A loop over services turns a subscription on only in one of its passes. -/
theorem isSubed_of_foldl {asked : Prop} (pass : Server → ServiceName → Server)
    (hPass : ∀ s name, (pass s name).isSubed n id = true → s.isSubed n id = true ∨ asked)
    (names : List ServiceName) (h : (names.foldl pass server).isSubed n id = true) :
    server.isSubed n id = true ∨ asked := by
  induction names generalizing server with
  | nil => exact Or.inl h
  | cons first rest ih =>
      rcases ih _ h with hOne | hAsked
      · exact hPass server first hOne
      · exact Or.inr hAsked

theorem isSubed_of_captureDisplay (displays : List ServiceName) (including excluding : Bool)
    (h : (captureDisplay id displays including excluding server name).isSubed n id = true) :
    server.isSubed n id = true ∨ (n ∈ displays ∧ including = true) := by
  unfold captureDisplay at h
  split_ifs at h with hVideo hAsked hIn hEx
  · rcases isSubed_of_subscribe _ _ _ _ _ h with hOld | ⟨rfl, -⟩
    · exact Or.inl hOld
    · exact Or.inr ⟨by simpa using hAsked, hIn⟩
  · exact Or.inl h
  · rcases isSubed_of_subscribe _ _ _ _ _ h with hOld | ⟨-, hFalse⟩
    · exact Or.inl hOld
    · cases hFalse
  · exact Or.inl h
  · exact Or.inl h

/-- A subscription that is on after `capture_displays` was on before, or it is
one of the displays asked for and displays are included. -/
theorem isSubed_of_captureDisplays (source : VideoSource) (displays : List Nat)
    (including excluding : Bool)
    (h : (server.captureDisplays id source displays including excluding).isSubed n id = true) :
    server.isSubed n id = true ∨ ((∃ d ∈ displays, n = .video source d) ∧ including = true) := by
  refine isSubed_of_foldl server n id _ (fun s name hs => ?_) _ h
  rcases isSubed_of_captureDisplay s name n id _ _ _ hs with hOld | ⟨hMem, hIn⟩
  · exact Or.inl hOld
  · obtain ⟨d, hd, rfl⟩ := List.mem_map.mp hMem
    exact Or.inr ⟨⟨d, hd, rfl⟩, hIn⟩

theorem isSubed_of_addConnectionTo (primaryDisplayIdx : Nat) (noperms : List ServiceName)
    (h : (addConnectionTo primaryDisplayIdx id noperms server name).isSubed n id = true) :
    server.isSubed n id = true ∨
      (n ∉ noperms ∧ (n.isVideo = false ∨ n = .video .monitor primaryDisplayIdx)) := by
  unfold addConnectionTo at h
  split_ifs at h with hVideo hRefused
  · exact Or.inl h
  · exact Or.inl h
  · by_cases hThis : n = name
    · refine Or.inr ⟨by simpa [hThis] using hRefused, ?_⟩
      by_cases hv : n.isVideo = true
      · exact Or.inr (by simpa [hThis ▸ hv, hThis] using hVideo)
      · exact Or.inl (by simpa using hv)
    · refine Or.inl ?_
      simpa [isSubed, contains, onSubscribe, hThis] using h

/-- What `add_connection` subscribes was not refused, and of the video
services it is the primary display. -/
theorem isSubed_of_addConnection (primaryDisplayIdx : Nat) (noperms : List ServiceName)
    (h : (server.addConnection primaryDisplayIdx id noperms).isSubed n id = true) :
    server.isSubed n id = true ∨
      (n ∉ noperms ∧ (n.isVideo = false ∨ n = .video .monitor primaryDisplayIdx)) :=
  isSubed_of_foldl server n id _
    (fun s name hs => isSubed_of_addConnectionTo s name n id primaryDisplayIdx noperms hs) _ h

theorem isSubed_of_addCameraConnection (primaryCameraExists : Bool) (primaryCameraIdx : Nat)
    (h : (server.addCameraConnection primaryCameraExists primaryCameraIdx id).isSubed n id = true) :
    server.isSubed n id = true ∨ n = .video .camera primaryCameraIdx := by
  by_cases hThis : n = .video .camera primaryCameraIdx
  · exact Or.inr hThis
  · refine Or.inl ?_
    unfold addCameraConnection at h
    dsimp only at h
    split_ifs at h
    · simpa [isSubed, contains, onSubscribe, hThis] using h
    · exact h

/-- The other connections never subscribe this one. -/
theorem isSubed_of_interfere (added : List ServiceName) (subed : ServiceName → Int → Bool)
    (h : (server.interfere id added subed).isSubed n id = true) : server.isSubed n id = true := by
  have hSame : (added.foldl ensureService server).isSubed n id = true := by
    simpa [interfere, isSubed, contains] using h
  have hFold : server.isSubed n id = true ∨ False := isSubed_of_foldl server n id ensureService
    (fun s name hs => Or.inl (isSubed_of_ensureService s name n id hs)) added hSame
  simpa using hFold

end Lemmas

end Server

end HibtDesk
