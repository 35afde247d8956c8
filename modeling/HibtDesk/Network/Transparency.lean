import HibtDesk.Network.PortForwardRuns

/-! Every step of a port forward at which neither end goes over with a message still on its
way to it leaves both directions as they should be. -/
namespace HibtDesk.PortForward

variable {proto : Protobuf} {box : Secretbox} {s : Session}

namespace Session

section Server

/-- A server that has granted and has not gone over waits for an answer, and goes on to. -/
theorem Sound.goesOn (hSound : Sound proto box s) (hServer : s.server.forwarding = false) :
    Sound proto box (s.afterMessage true) := by
  refine sound_afterMessage hSound.linked hSound.flags hServer nofun fun _ hOr => ?_
  obtain ⟨hAuthorized, hDelay⟩ := hOr.resolve_left (by decide)
  cases (hSound.awaited hAuthorized hServer).symm.trans hDelay

theorem sound_closes (hBox : box.Documented) (hLinked : Linked proto box s) (hFlags : Flags s)
    (hServer : s.server.forwarding = false) (hNot : s.server.authorized = false)
    {error : Option Bytes} (hFits : ∀ told ∈ error.map Message.loginError, proto.Fits told)
    (hRest : s.server.portForwardSocket = true → s.up = []) :
    Sound proto box ((s.serverSend? proto box (error.map .loginError)).afterMessage false) := by
  obtain ⟨stream, toClient, down, hSend, hSent, hAfter⟩ :=
    tell_error hBox hLinked hFlags hServer fun told hTold => ⟨hNot, hFits told hTold⟩
  rw [hSend] at hSent hAfter ⊢
  exact sound_afterMessage hSent hAfter hServer (fun _ => hNot) fun hSocket _ => hRest hSocket

theorem Sound.waits (hBox : box.Documented) (hSound : Sound proto box s)
    (hServer : s.server.forwarding = false) {error : Option Bytes}
    (hTold : ∀ told ∈ error.map Message.loginError, s.server.authorized = false ∧ proto.Fits told) :
    Sound proto box ((s.serverSend? proto box (error.map .loginError)).afterMessage true) := by
  obtain ⟨stream, toClient, down, hSend, hSent, hAfter⟩ :=
    tell_error hBox hSound.linked hSound.flags hServer hTold
  rw [hSend] at hSent hAfter ⊢
  exact Sound.goesOn ⟨hSent, hAfter, hSound.awaited⟩ hServer

theorem sound_grants (hBox : box.Documented) (hLinked : Linked proto box s) (hFlags : Flags s)
    (hServer : s.server.forwarding = false) (hNot : s.server.authorized = false)
    (hSocket : s.server.portForwardSocket = true) {info : Bytes} (hFits : proto.Fits (.peerInfo info))
    (hRest : s.server.lastTestDelay = false → s.up = []) :
    Sound proto box ((s.sendLogonResponse proto box info).afterMessage true) := by
  obtain ⟨stream, toClient, down, hSend, hSent, hAfter⟩ :=
    grant hBox hLinked hFlags hServer hNot hSocket hFits
  rw [hSend] at hSent hAfter ⊢
  exact sound_afterMessage hSent hAfter hServer nofun fun _ hOr =>
    hRest (hOr.resolve_left (by decide)).2

theorem sendLogonResponse_of_authorized (hAuthorized : s.server.authorized = true) (info : Bytes) :
    s.sendLogonResponse proto box info = s := by
  unfold sendLogonResponse
  rw [if_pos hAuthorized]

theorem Sound.loginRequest (hBox : box.Documented) (hSound : Sound proto box s)
    (hServer : s.server.forwarding = false) {verdict : Verdict} (request : Bytes)
    (hReady : s.server.Ready proto verdict s.up (.loginRequest request)) :
    Sound proto box ((s.onMessage proto box verdict (.loginRequest request)).1.afterMessage
      (s.onMessage proto box verdict (.loginRequest request)).2) := by
  unfold onMessage
  cases hAuthorized : s.server.authorized with
  | true => exact hSound.goesOn hServer
  | false =>
      obtain ⟨hTold, hRest⟩ := hReady hAuthorized
      have hLinked : Linked proto box
          { s with server := { s.server with portForwardSocket := true, cm := true } } :=
        ⟨hSound.linked.up, hSound.linked.down⟩
      have hFlags : Flags
          { s with server := { s.server with portForwardSocket := true, cm := true } } :=
        ⟨hSound.flags.pending, fun _ => rfl, hSound.flags.granted, hSound.flags.probes⟩
      cases verdict with
      | closes connects error =>
          cases connects with
          | true =>
              exact sound_closes hBox hLinked hFlags hServer hAuthorized hTold fun _ =>
                hRest (Or.inr rfl)
          | false =>
              exact sound_closes hBox hSound.linked hSound.flags hServer hAuthorized hTold
                fun hSocket => hRest (Or.inl hSocket)
      | waits error =>
          exact Sound.waits hBox ⟨hLinked, hFlags, hSound.awaited⟩ hServer fun told hError =>
            ⟨hAuthorized, hTold told hError⟩
      | grants info =>
          exact sound_grants hBox hLinked hFlags hServer hAuthorized rfl (hTold _ rfl) hRest

theorem Sound.auth2fa (hBox : box.Documented) (hSound : Sound proto box s)
    (hServer : s.server.forwarding = false) {verdict : Verdict} (code : Bytes)
    (hReady : s.server.Ready proto verdict s.up (.auth2fa code)) :
    Sound proto box ((s.onMessage proto box verdict (.auth2fa code)).1.afterMessage
      (s.onMessage proto box verdict (.auth2fa code)).2) := by
  unfold onMessage
  cases verdict with
  | closes connects error => exact hSound.goesOn hServer
  | waits error => exact hSound.waits hBox hServer hReady
  | grants info =>
      cases hAuthorized : s.server.authorized with
      | true =>
          dsimp only
          rw [sendLogonResponse_of_authorized hAuthorized]
          exact hSound.goesOn hServer
      | false =>
          obtain ⟨hFits, hSocket, hRest⟩ := hReady hAuthorized
          exact sound_grants hBox hSound.linked hSound.flags hServer hAuthorized hSocket hFits hRest

/-- The server reads a message while the others are still on their way. -/
theorem Sound.onMessage (hBox : box.Documented) (hSound : Sound proto box s)
    (hServer : s.server.forwarding = false) {verdict : Verdict} {msg : Message} {rest : List Message}
    (hUp : s.up = msg :: rest) {stream : FramedStream}
    (hLinked : Linked proto box { s with server := { s.server with stream := stream }, up := rest })
    (hReady : s.server.Ready proto verdict rest msg) {after : Session} {goesOn : Bool}
    (hAfter : ({ s with server := { s.server with stream := stream }, up := rest } : Session).onMessage
      proto box verdict msg = (after, goesOn)) :
    Sound proto box (after.afterMessage goesOn) := by
  have hRead : msg.isProbe = false →
      Sound proto box { s with server := { s.server with stream := stream }, up := rest } := fun hProbe =>
    ⟨hLinked, hSound.flags.read hUp hProbe stream, hSound.awaited⟩
  cases msg with
  | loginRequest request =>
      have hSoundAfter := (hRead rfl).loginRequest hBox hServer request hReady
      rw [hAfter] at hSoundAfter
      exact hSoundAfter
  | auth2fa code =>
      have hSoundAfter := (hRead rfl).auth2fa hBox hServer code hReady
      rw [hAfter] at hSoundAfter
      exact hSoundAfter
  | testDelay delay =>
      cases hAfter
      have hAnswered := hSound.flags.answered hServer hUp stream
      refine sound_afterMessage (s := { s with
        server := { s.server with stream := stream, lastTestDelay := false }
        up := rest }) ⟨hLinked.up, hLinked.down⟩ hAnswered hServer nofun fun _ hOr => ?_
      exact hReady (hOr.resolve_left (by decide)).1
  | hash challenge =>
      cases hAfter
      exact (hRead rfl).goesOn hServer
  | loginError error =>
      cases hAfter
      exact (hRead rfl).goesOn hServer
  | peerInfo info =>
      cases hAfter
      exact (hRead rfl).goesOn hServer
  | other payload =>
      cases hAfter
      exact (hRead rfl).goesOn hServer

/-- The branch of `stream.next` of the server. -/
theorem Sound.serverNext (hBox : box.Documented) (hProto : proto.Documented) (hSound : Sound proto box s)
    {verdict : Verdict} (hReady : s.server.forwarding = false → (s.server.stream.next box).1 ≠ none →
      ∀ msg rest, s.up = msg :: rest → s.server.Ready proto verdict rest msg) :
    Sound proto box (s.serverNext proto box verdict) := by
  cases hServer : s.server.forwarding with
  | true =>
      obtain ⟨fresh, hApp, hBuffer, hUp⟩ := hSound.linked.up
      rw [hServer] at hUp
      have hDown := hSound.linked.down
      rcases hUp.nextBytes with ⟨hNone, hSame⟩ | ⟨bytes, hTaken, hRead, hWritten⟩
      · have hNext : s.serverNext proto box verdict = s := by
          simp only [Session.serverNext, hNone, hSame]
        rw [hNext]
        exact hSound
      · have hNext : s.serverNext proto box verdict =
            { s with
              server := { s.server with stream := { s.server.stream with buffer := [] } }
              toTarget := s.toTarget ++ bytes } := by
          simp only [Session.serverNext, hTaken, hRead, hServer, if_true]
        rw [hNext]
        refine hSound.relink ⟨⟨fresh, hApp, hBuffer, ?_⟩, hDown⟩ rfl
        dsimp only
        rw [hServer]
        exact hWritten
  | false =>
      -- Behind the frames to a server that waits for an answer there is one, even if the
      -- client has gone over.
      have hSome : s.client.forwarding = true → s.up ≠ [] := by
        intro hClient hNone
        have hAuthorized : s.server.authorized = true := by
          by_contra hNot
          cases (hSound.flags.pending (eq_false_of_ne_true hNot)).1.symm.trans hClient
        have hDown := hSound.linked.down
        rw [hServer, hClient] at hDown
        have hProbes := hSound.flags.probes hServer
        rw [hSound.awaited hAuthorized hServer, hNone, List.map_eq_nil_iff.mp hDown.2.2.1] at hProbes
        cases hProbes
      rcases hSound.linked.serverReads hBox hServer hSome with
        ⟨hNone, hLinked⟩ | ⟨msg, rest, hUp, hTaken, hLinked⟩
      · have hNext : s.serverNext proto box verdict =
            { s with server := { s.server with stream := (s.server.stream.next box).2 } } := by
          simp only [Session.serverNext, hNone]
        rw [hNext]
        exact hSound.relink hLinked rfl
      · have hWhole : (s.server.stream.next box).1 ≠ none := by
          rw [hTaken]
          exact Option.some_ne_none _
        have hNext : s.serverNext proto box verdict =
            (({ s with
              server := { s.server with stream := (s.server.stream.next box).2 }
              up := rest } : Session).onMessage proto box verdict msg).1.afterMessage
            (({ s with
              server := { s.server with stream := (s.server.stream.next box).2 }
              up := rest } : Session).onMessage proto box verdict msg).2 := by
          simp only [Session.serverNext, hTaken, hServer, hProto.parse_write, hUp, List.tail_cons,
            Bool.false_eq_true, if_false]
        rw [hNext]
        exact hSound.onMessage hBox hServer hUp hLinked (hReady hServer hWhole msg rest hUp) rfl

/-- The user of the server accepts when no message is on its way to it. -/
theorem Sound.authorize (hBox : box.Documented) (hSound : Sound proto box s)
    (hServer : s.server.forwarding = false) (hCm : s.server.cm = true) (hRead : s.up = [])
    {info : Bytes} (hFits : s.server.authorized = false → proto.Fits (.peerInfo info)) :
    Sound proto box (s.authorize proto box info) := by
  have hSocket := hSound.flags.socket (Or.inl hCm)
  have hForwards : ∀ {t : Session}, Linked proto box t → Flags t → t.server.forwarding = false →
      t.server.portForwardSocket = true → t.up = [] →
      Sound proto box (if t.server.portForwardSocket then t.serverForwards else t) := by
    intro t hLinked hFlags hFramed hSocket hUp
    rw [if_pos hSocket]
    exact ⟨hLinked.serverForwards hFramed hUp, hFlags.serverForwards, nofun⟩
  unfold Session.authorize
  cases hAuthorized : s.server.authorized with
  | true =>
      rw [sendLogonResponse_of_authorized hAuthorized]
      exact hForwards hSound.linked hSound.flags hServer hSocket hRead
  | false =>
      obtain ⟨stream, toClient, down, hSend, hSent, hAfter⟩ :=
        grant hBox hSound.linked hSound.flags hServer hAuthorized hSocket (hFits hAuthorized)
      rw [hSend] at hSent hAfter ⊢
      exact hForwards hSent hAfter hServer hSocket hRead

/-- A probe is sent only by a server that waits for no answer and has not granted. -/
theorem Sound.testDelayTimer (hBox : box.Documented) (hSound : Sound proto box s)
    (hServer : s.server.forwarding = false) {delay : Bytes} (hFits : proto.Fits (.testDelay delay)) :
    Sound proto box (s.testDelayTimer proto box delay) := by
  unfold Session.testDelayTimer
  split
  · rename_i hProbe
    simp only [Bool.and_eq_true, Bool.not_eq_true', Bool.and_eq_false_iff] at hProbe
    obtain ⟨hDelay, hOr⟩ := hProbe
    have hNot : s.server.authorized = false := by
      rcases hOr with hSocket | hNot
      · by_contra hGranted
        cases hSocket.symm.trans (hSound.flags.socket (Or.inr (eq_true_of_ne_false hGranted)))
      · exact hNot
    obtain ⟨hClient, hPending⟩ := hSound.flags.pending hNot
    have hWaits : Linked proto box { s with server := { s.server with lastTestDelay := true } } :=
      ⟨hSound.linked.up, hSound.linked.down⟩
    obtain ⟨stream, out, hSend, hSent⟩ := hWaits.serverSend hBox hClient hServer hFits
    rw [hSend] at hSent ⊢
    refine ⟨hSent, ⟨fun _ => ⟨hClient, fun info hMem => ?_⟩, hSound.flags.socket,
      fun hAuthorized => ?_, fun _ => ?_⟩, fun _ _ => rfl⟩
    · rcases List.mem_append.mp hMem with hBefore | hLast
      · exact hPending info hBefore
      · cases List.mem_singleton.mp hLast
    · cases hNot.symm.trans hAuthorized
    · have hProbes := hSound.flags.probes hServer
      rw [hDelay] at hProbes
      have hOne : PortForward.probes (s.down ++ [.testDelay delay]) = PortForward.probes s.down + 1 := by
        simp [PortForward.probes, Message.isProbe]
      dsimp only
      rw [hOne, if_pos rfl]
      simp only [Bool.false_eq_true, if_false] at hProbes
      omega
  · exact hSound

end Server

section Client

/-- The client sends a message that is no answer, or the answer to a probe it has read. -/
theorem Sound.clientSend (hBox : box.Documented) (hLinked : Linked proto box s)
    (hFlags : s.server.authorized = false → Pending s.down)
    (hSocket : s.server.cm = true ∨ s.server.authorized = true → s.server.portForwardSocket = true)
    (hGranted : s.server.authorized = true → Granted s.down) (hAwaited : Awaited s)
    (hClient : s.client.forwarding = false) (hServer : s.server.forwarding = false) {msg : Message}
    (hProbes : PortForward.probes s.down + PortForward.probes (s.up ++ [msg]) =
      if s.server.lastTestDelay then 1 else 0)
    (hFits : proto.Fits msg) : Sound proto box (s.clientSend proto box msg) := by
  obtain ⟨stream, out, hSend, hSent⟩ := hLinked.clientSend hBox hClient hServer hFits
  rw [hSend] at hSent ⊢
  exact ⟨hSent, ⟨fun hNot => ⟨hClient, hFlags hNot⟩, hSocket, fun hAuthorized _ => hGranted hAuthorized,
    fun _ => hProbes⟩, hAwaited⟩

/-- The user of the client enters something. -/
theorem Sound.enters (hBox : box.Documented) (hSound : Sound proto box s)
    (hClient : s.client.forwarding = false) (hServer : s.server.forwarding = false) {msg : Message}
    (hProbe : msg.isProbe = false) (hFits : proto.Fits msg) :
    Sound proto box (s.clientSend proto box msg) := by
  refine Sound.clientSend hBox hSound.linked (fun hNot => (hSound.flags.pending hNot).2)
    hSound.flags.socket (fun hAuthorized => hSound.flags.granted hAuthorized hClient) hSound.awaited
    hClient hServer ?_ hFits
  rw [← hSound.flags.probes hServer]
  simp [PortForward.probes, hProbe]

/-- What the client does with a message: it goes over, ends, or replies. -/
theorem onClientMessage_cases (answer : Answer) (msg : Message) :
    (∃ info, msg = .peerInfo info ∧ s.onClientMessage proto box answer msg = s.clientForwards) ∨
      (∀ info, msg ≠ .peerInfo info) ∧
        ((answer.reply msg = none ∧ msg.isProbe = false ∧
            (s.onClientMessage proto box answer msg = s ∨
              s.onClientMessage proto box answer msg = s.clientEnds)) ∨
          ∃ reply, answer.reply msg = some reply ∧ reply.isProbe = msg.isProbe ∧
            s.onClientMessage proto box answer msg = s.clientSend proto box reply) := by
  cases msg with
  | peerInfo info => exact Or.inl ⟨info, rfl, rfl⟩
  | hash challenge =>
      refine Or.inr ⟨nofun, ?_⟩
      cases hRequest : answer.request with
      | none =>
          refine Or.inl ⟨by simp only [Answer.reply, hRequest, Option.map_none], rfl, Or.inl ?_⟩
          simp only [onClientMessage, hRequest]
      | some request =>
          refine Or.inr ⟨.loginRequest request, ?_, rfl, ?_⟩
          · simp only [Answer.reply, hRequest, Option.map_some]
          · simp only [onClientMessage, hRequest]
  | loginError error =>
      refine Or.inr ⟨nofun, Or.inl ⟨rfl, rfl, ?_⟩⟩
      cases hGoesOn : answer.goesOn with
      | true => exact Or.inl (by simp only [onClientMessage, hGoesOn, if_true])
      | false =>
          exact Or.inr (by simp only [onClientMessage, hGoesOn, Bool.false_eq_true, if_false])
  | testDelay delay => exact Or.inr ⟨nofun, Or.inr ⟨.testDelay delay, rfl, rfl, rfl⟩⟩
  | loginRequest request => exact Or.inr ⟨nofun, Or.inl ⟨rfl, rfl, Or.inl rfl⟩⟩
  | auth2fa code => exact Or.inr ⟨nofun, Or.inl ⟨rfl, rfl, Or.inl rfl⟩⟩
  | other payload => exact Or.inr ⟨nofun, Or.inl ⟨rfl, rfl, Or.inl rfl⟩⟩

/-- The client reads a message of a server that still reads its replies. -/
theorem Sound.onClientMessage (hBox : box.Documented) (hSound : Sound proto box s)
    (hClient : s.client.forwarding = false) {answer : Answer} {msg : Message} {rest : List Message}
    (hDown : s.down = msg :: rest) {stream : FramedStream}
    (hLinked : Linked proto box { s with client := { s.client with stream := stream }, down := rest })
    (hReply : ∀ reply ∈ answer.reply msg, s.server.forwarding = false ∧ proto.Fits reply) :
    Sound proto box (({ s with client := { s.client with stream := stream }, down := rest } :
      Session).onClientMessage proto box answer msg) := by
  obtain ⟨hPending, hSocket, hGranted, hProbes⟩ := hSound.flags
  rw [hDown] at hPending hGranted hProbes
  rcases onClientMessage_cases (s := { s with client := { s.client with stream := stream }, down := rest })
    answer msg with ⟨info, rfl, hAfter⟩ | ⟨hNotInfo, hCases⟩
  · rw [hAfter]
    have hAuthorized : s.server.authorized = true := by
      by_contra hNot
      exact (hPending (eq_false_of_ne_true hNot)).2 info List.mem_cons_self
    rcases (hGranted hAuthorized hClient).cons with ⟨-, rfl⟩ | ⟨hOther, -⟩
    · refine ⟨hLinked.clientForwards hClient rfl, ⟨fun hNot => ?_, hSocket, fun _ => nofun,
        fun hServer => ?_⟩, hSound.awaited⟩
      · cases hNot.symm.trans hAuthorized
      · exact hProbes hServer
    · exact absurd rfl (hOther info)
  · have hStill : s.server.authorized = false → Pending rest := fun hNot info hMem =>
      (hPending hNot).2 info (List.mem_cons_of_mem _ hMem)
    have hLeft : s.server.authorized = true → Granted rest := by
      intro hAuthorized
      rcases (hGranted hAuthorized hClient).cons with ⟨⟨info, hInfo⟩, -⟩ | ⟨-, hRest⟩
      · exact absurd hInfo (hNotInfo info)
      · exact hRest
    rcases hCases with ⟨-, hNoProbe, hAfter⟩ | ⟨reply, hSome, hProbe, hAfter⟩
    · have hRead : Flags { s with client := { s.client with stream := stream }, down := rest } := by
        refine ⟨fun hNot => ⟨hClient, hStill hNot⟩, hSocket, fun hAuthorized _ => hLeft hAuthorized,
          fun hServer => ?_⟩
        have hCount := hProbes hServer
        rw [PortForward.probes, List.countP_cons, hNoProbe] at hCount
        simpa [PortForward.probes] using hCount
      have hReads : Sound proto box
          { s with client := { s.client with stream := stream }, down := rest } :=
        ⟨hLinked, hRead, hSound.awaited⟩
      rcases hAfter with hAfter | hAfter
      · rw [hAfter]
        exact hReads
      · rw [hAfter]
        exact hReads.relink ⟨hLinked.up, hLinked.down⟩ rfl
    · obtain ⟨hServer, hFits⟩ := hReply reply hSome
      rw [hAfter]
      refine Sound.clientSend hBox hLinked hStill hSocket hLeft hSound.awaited hClient hServer ?_ hFits
      have hCount := hProbes hServer
      rw [PortForward.probes, List.countP_cons] at hCount
      dsimp only
      rw [← hCount]
      simp only [PortForward.probes, List.countP_append, List.countP_singleton, hProbe]
      omega

/-- The branch of `stream.next` of the client. -/
theorem Sound.clientNext (hBox : box.Documented) (hProto : proto.Documented) (hSound : Sound proto box s)
    {answer : Answer}
    (hBehind : s.client.forwarding = false → s.server.forwarding = true →
      s.down ≠ [] ∨ s.client.stream.buffer = [])
    (hReply : s.client.forwarding = false → (s.client.stream.next box).1 ≠ none →
      ∀ msg ∈ s.down.head?, ∀ reply ∈ answer.reply msg,
        s.server.forwarding = false ∧ proto.Fits reply) :
    Sound proto box (s.clientNext proto box answer) := by
  cases hClient : s.client.forwarding with
  | true =>
      have hDown := hSound.linked.down
      rw [hClient] at hDown
      obtain ⟨fresh, hApp, hBuffer, hUp⟩ := hSound.linked.up
      rcases hDown.nextBytes with ⟨hNone, hSame⟩ | ⟨bytes, hTaken, hRead, hWritten⟩
      · have hNext : s.clientNext proto box answer = s := by
          simp only [Session.clientNext, hNone, hSame]
        rw [hNext]
        exact hSound
      · have hNext : s.clientNext proto box answer =
            { s with
              client := { s.client with stream := { s.client.stream with buffer := [] } }
              toApp := s.toApp ++ bytes } := by
          simp only [Session.clientNext, hTaken, hRead, hClient, if_true]
        rw [hNext]
        refine hSound.relink ⟨⟨fresh, hApp, hBuffer, hUp⟩, ?_⟩ rfl
        dsimp only
        rw [hClient]
        exact hWritten
  | false =>
      rcases hSound.linked.clientReads hBox hClient (hBehind hClient) with
        ⟨hNone, hLinked⟩ | ⟨msg, rest, hDown, hTaken, hLinked⟩
      · have hNext : s.clientNext proto box answer =
            { s with client := { s.client with stream := (s.client.stream.next box).2 } } := by
          simp only [Session.clientNext, hNone]
        rw [hNext]
        exact hSound.relink hLinked rfl
      · have hNext : s.clientNext proto box answer =
            ({ s with
              client := { s.client with stream := (s.client.stream.next box).2 }
              down := rest } : Session).onClientMessage proto box answer msg := by
          simp only [Session.clientNext, hTaken, hClient, hProto.parse_write, hDown, List.tail_cons,
            Bool.false_eq_true, if_false]
        rw [hNext]
        refine hSound.onClientMessage hBox hClient hDown hLinked fun reply hMem => ?_
        refine hReply hClient ?_ msg ?_ reply hMem
        · rw [hTaken]
          exact Option.some_ne_none _
        · rw [hDown]
          rfl

end Client

/-- What has to hold before a step. No end speaks to one that does not read messages any more,
and none stops reading them with one on its way. -/
def Orderly (proto : Protobuf) (box : Secretbox) (s : Session) : Event → Prop
  | .clientNext answer => s.client.ended = false → s.client.forwarding = false →
      (s.server.forwarding = true → s.down ≠ [] ∨ s.client.stream.buffer = []) ∧
        ((s.client.stream.next box).1 ≠ none → ∀ msg ∈ s.down.head?, ∀ reply ∈ answer.reply msg,
          s.server.forwarding = false ∧ proto.Fits reply)
  | .serverNext verdict => s.server.ended = false → s.server.forwarding = false →
      (s.server.stream.next box).1 ≠ none →
        ∀ msg rest, s.up = msg :: rest → s.server.Ready proto verdict rest msg
  | .login request => s.client.ended = false → s.client.forwarding = false →
      s.server.forwarding = false ∧ proto.Fits (.loginRequest request)
  | .auth2fa code => s.client.ended = false → s.client.forwarding = false →
      s.server.forwarding = false ∧ proto.Fits (.auth2fa code)
  | .authorize info => s.server.ended = false → s.server.forwarding = false → s.server.cm = true →
      s.up = [] ∧ (s.server.authorized = false → proto.Fits (.peerInfo info))
  | .testDelayTimer delay => s.server.ended = false → s.server.forwarding = false →
      proto.Fits (.testDelay delay)
  | _ => True

theorem Sound.unless (hSound : Sound proto box s) {stopped : Bool} {after : Session}
    (hAfter : stopped = false → Sound proto box after) :
    Sound proto box (if stopped then s else after) := by
  cases stopped with
  | true => exact hSound
  | false => exact hAfter rfl

theorem Sound.step (hBox : box.Documented) (hProto : proto.Documented) (hSound : Sound proto box s)
    {event : Event} (hOrderly : Orderly proto box s event) :
    Sound proto box (s.step proto box event) := by
  cases event with
  | arrive side count =>
      have hLinked := hSound.linked.arrive side count
      cases side
      · exact hSound.relink hLinked rfl
      · exact hSound.relink hLinked rfl
  | clientNext answer =>
      refine hSound.unless fun hRuns => ?_
      exact hSound.clientNext hBox hProto (fun hClient => (hOrderly hRuns hClient).1)
        fun hClient => (hOrderly hRuns hClient).2
  | serverNext verdict =>
      exact hSound.unless fun hRuns => hSound.serverNext hBox hProto (hOrderly hRuns)
  | login request =>
      refine hSound.unless fun hRuns => ?_
      obtain ⟨hRuns, hClient⟩ := Bool.or_eq_false_iff.mp hRuns
      obtain ⟨hServer, hFits⟩ := hOrderly hRuns hClient
      exact hSound.enters hBox hClient hServer rfl hFits
  | auth2fa code =>
      refine hSound.unless fun hRuns => ?_
      obtain ⟨hRuns, hClient⟩ := Bool.or_eq_false_iff.mp hRuns
      obtain ⟨hServer, hFits⟩ := hOrderly hRuns hClient
      exact hSound.enters hBox hClient hServer rfl hFits
  | authorize info =>
      refine hSound.unless fun hRuns => ?_
      simp only [Bool.or_eq_false_iff, Bool.not_eq_false'] at hRuns
      obtain ⟨⟨hRuns, hServer⟩, hCm⟩ := hRuns
      obtain ⟨hRead, hFits⟩ := hOrderly hRuns hServer hCm
      exact hSound.authorize hBox hServer hCm hRead hFits
  | testDelayTimer delay =>
      refine hSound.unless fun hRuns => ?_
      obtain ⟨hRuns, hServer⟩ := Bool.or_eq_false_iff.mp hRuns
      exact hSound.testDelayTimer hBox hServer (hOrderly hRuns hServer)
  | app bytes =>
      refine hSound.unless fun _ => ?_
      refine hSound.relink (hSound.linked.app bytes) ?_
      unfold Session.app
      split
      · rfl
      · rfl
  | target bytes =>
      refine hSound.unless fun hRuns => ?_
      simp only [Bool.or_eq_false_iff, Bool.not_eq_false'] at hRuns
      exact hSound.relink (hSound.linked.target hRuns.2 bytes) rfl
  | leave side =>
      have hLinked := hSound.linked
      cases side
      · exact hSound.relink ⟨hLinked.up, hLinked.down⟩ rfl
      · exact hSound.relink ⟨hLinked.up, hLinked.down⟩ rfl

theorem sound_start (hBox : box.Documented) (key : Option Bytes) {challenge : Bytes}
    (hFits : proto.Fits (.hash challenge)) : Sound proto box (start proto box key challenge) := by
  have hAhead : ∀ stream : FramedStream, stream.codec = .new → stream.buffer = [] →
      Ahead stream [] [] [] := fun stream hCodec hBuffer => by
    obtain ⟨state, hState, hDrain⟩ := Underway.ofSocket
    exact Ahead.nil_iff.mpr ⟨state, hCodec.trans hState, by rw [hBuffer]; exact hDrain⟩
  have hLinked : Linked proto box (connected key) := by
    refine ⟨⟨[], rfl, nofun, ?_, hAhead _ rfl rfl, rfl, rfl⟩, ?_, hAhead _ rfl rfl, rfl, rfl⟩
    · cases key <;> rfl
    · cases key <;> rfl
  obtain ⟨stream, out, hSend, hSent⟩ := hLinked.serverSend hBox rfl rfl hFits
  unfold start
  rw [hSend] at hSent ⊢
  refine ⟨hSent, ⟨fun _ => ⟨rfl, fun info hMem => ?_⟩, ?_, nofun, fun _ => rfl⟩, nofun⟩
  · cases List.mem_singleton.mp hMem
  · rintro (hCm | hAuthorized)
    · cases hCm
    · cases hAuthorized

/-- In every run in which no end goes over with a message on its way to it, neither socket gets
anything but what the other one has sent, each byte once and in order. -/
theorem transparent_of_orderly (hBox : box.Documented) (hProto : proto.Documented)
    (key : Option Bytes) (challenge : Bytes) (hFits : proto.Fits (.hash challenge))
    (events : List Event)
    (hOrderly : Trace.Always (Session.step proto box) (Orderly proto box)
      (start proto box key challenge) events) :
    (Trace.run (Session.step proto box) (start proto box key challenge) events).Transparent :=
  (Trace.invariant_of_always (Session.step proto box) (Sound proto box)
    (fun _ _ hStep hSound => hSound.step hBox hProto hStep) (sound_start hBox key hFits)
    hOrderly).linked.transparent

/-- The application is early, the password is right, and the target answers. -/
theorem password_login_transparent :
    (Trace.run (Session.step .tagged .marking)
      (start .tagged .marking (some (List.replicate 32 7)) [7])
      [.arrive .client 100, .clientNext ⟨some [1], true⟩, .app [65], .arrive .server 100,
        .serverNext (.grants [9]), .arrive .client 100, .clientNext ⟨none, true⟩, .arrive .server 100,
        .serverNext (.waits none), .target [66], .arrive .client 100,
        .clientNext ⟨none, true⟩]).Transparent := by
  refine transparent_of_orderly Secretbox.marking_documented Protobuf.tagged_documented
    (some (List.replicate 32 7)) [7] (by decide) _ ⟨trivial,
      fun _ _ => ⟨nofun, fun _ msg hMsg reply hReply => ?_⟩, trivial, trivial,
      fun _ _ _ msg rest hUp => ?_, trivial, fun _ _ => ⟨fun _ => Or.inl (List.cons_ne_nil _ _), ?_⟩,
      trivial, nofun, trivial, trivial, fun _ => nofun, trivial⟩
  · obtain rfl : Message.hash [7] = msg := Option.some.inj hMsg
    obtain rfl : Message.loginRequest [1] = reply := Option.some.inj hReply
    exact ⟨rfl, by decide⟩
  · obtain ⟨rfl, rfl⟩ : Message.loginRequest [1] = msg ∧ [] = rest := List.cons.inj hUp
    refine fun _ => ⟨fun told hTold => ?_, fun _ => rfl⟩
    obtain rfl : Message.peerInfo [9] = told := Option.some.inj hTold
    decide
  · intro _ msg hMsg reply hReply
    obtain rfl : Message.peerInfo [9] = msg := Option.some.inj hMsg
    cases hReply

/-- The user of the server accepts while a probe is on its way to the client, and the target is
sent the answer. -/
theorem probe_answer_reaches_target :
    ¬ (Trace.run (Session.step .tagged .marking)
      (start .tagged .marking (some (List.replicate 32 7)) [7])
      [.arrive .client 100, .clientNext ⟨some [1], true⟩, .arrive .server 100, .serverNext (.waits none),
        .testDelayTimer [3], .authorize [9], .arrive .client 100, .clientNext ⟨none, true⟩,
        .arrive .server 100, .serverNext (.waits none)]).Transparent := by
  rintro ⟨hTarget, -⟩
  exact absurd hTarget (by decide)

end Session

end HibtDesk.PortForward
