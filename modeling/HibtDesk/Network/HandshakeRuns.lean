import HibtDesk.Network.HandshakeAgreement

/-! The runs of a handshake, up to the messages of the two ends after it. -/
namespace HibtDesk.Handshake

theorem server_ne_client : Side.server ≠ .client := nofun

theorem client_ne_server : Side.client ≠ .server := nofun

namespace Session

section Moves
variable (s : Session) (sodium : Sodium) {side other : Side}

@[simp] theorem setStream_self (side : Side) (stream : FramedStream) :
    (s.setStream side stream).line side = { s.line side with stream := stream } :=
  Function.update_self ..

theorem setStream_of_ne (hOther : other ≠ side) (stream : FramedStream) :
    (s.setStream side stream).line other = s.line other := Function.update_of_ne hOther ..

@[simp] theorem setStream_stage (stream : FramedStream) :
    (s.setStream side stream).stage = s.stage := rfl

@[simp] theorem setStage_line (stage : Stage) : (s.setStage side stage).line = s.line := rfl

@[simp] theorem setStage_self (stage : Stage) : (s.setStage side stage).stage side = stage :=
  Function.update_self ..

theorem setStage_of_ne (hOther : other ≠ side) (stage : Stage) :
    (s.setStage side stage).stage other = s.stage other := Function.update_of_ne hOther ..

@[simp] theorem installKey_stage (key : Option Bytes) : (s.installKey side key).stage = s.stage := by
  cases key <;> rfl

theorem installKey_of_ne (hOther : other ≠ side) (key : Option Bytes) :
    (s.installKey side key).line other = s.line other := by
  cases key with
  | none => rfl
  | some key => exact setStream_of_ne s hOther _

theorem plain_stream {stream : FramedStream} (hPlain : stream.encrypt = none) :
    { stream with encrypt := none } = stream := by
  rw [← hPlain]

theorem installKey_self (hPlain : (s.line side).stream.encrypt = none) (key : Option Bytes) :
    (s.installKey side key).line side = { s.line side with
      stream := { (s.line side).stream with encrypt := key.map Encrypt.new } } := by
  cases key with
  | none =>
      rw [Option.map_none, plain_stream hPlain]
      rfl
  | some key => exact setStream_self s _ _

theorem transmit_of_ne (hOther : other ≠ side) (msg : Bytes) (next : Stage) :
    (s.transmit sodium side msg next).stage other = s.stage other := by
  unfold transmit
  split
  · exact setStage_of_ne _ hOther _
  · exact setStage_of_ne _ hOther _

/-- A message of the handshake is put on the wire, or the end fails. -/
theorem transmit_cases {frames : List Bytes}
    (hUnderway : Underway (s.line side).stream (s.line side).inbound frames)
    (hPlain : (s.line side).stream.encrypt = none) (msg : Bytes) (next : Stage) :
    (∃ header, BytesCodec.encodeHead msg.length = some header ∧ msg.length ≤ 0x3FFFFFFF ∧
      (s.transmit sodium side msg next).line side = s.line side ∧
      (s.transmit sodium side msg next).line side.other = { s.line side.other with
        inbound := (s.line side.other).inbound ++ (header ++ msg) } ∧
      (s.transmit sodium side msg next).stage side = next) ∨
    (s.transmit sodium side msg next).stage side = .failed := by
  have hSend := hUnderway.sendRaw sodium.secretbox msg
  rw [hPlain] at hSend
  simp only [sealMessage, plain_stream hPlain] at hSend
  unfold transmit
  rcases hSend with ⟨header, hHeader, hFits, hSend⟩ | ⟨-, hSend⟩
  · rw [hSend]
    refine Or.inl ⟨header, hHeader, hFits, ?_, ?_, setStage_self _ _⟩
    · exact (Function.update_of_ne (Line.other_ne side).symm ..).trans (setStream_self s _ _)
    · refine (Function.update_self ..).trans ?_
      rw [setStream_of_ne s (Line.other_ne side)]
  · rw [hSend]
    exact Or.inr (setStage_self _ _)

end Moves

section Runs
variable (proto : Protobuf) (sodium : Sodium) (setup : Setup)

/-- The ends are linked unless one of them has failed. -/
def Sound (s : Session) : Prop :=
  s.stage .client ≠ .failed → s.stage .server ≠ .failed →
    Linked proto sodium setup (s.line .client) (s.line .server) (s.stage .client) (s.stage .server)

/-- What the ends have agreed on when both have gone on: one key or none, and what each sends
the other receives. -/
structure Agreed (s : Session) : Prop where
  sameKey : (s.line .client).stream.encrypt.map Encrypt.key =
    (s.line .server).stream.encrypt.map Encrypt.key
  toServer : Delivers sodium.secretbox (s.line .server) (s.line .client).accepted
  toClient : ∃ unread, (unread = [] ∨ unread = [signedIdMessage proto sodium setup]) ∧
    Delivers sodium.secretbox (s.line .client) (unread ++ (s.line .server).accepted)

/-- On a stream with a key, a message that fits is sent only by an end none of whose messages
was refused before. -/
def NoneRefused (s : Session) : Event → Prop
  | .send side msg => s.stage side = .done → (s.line side).stream.encrypt ≠ none →
      msg.length + 16 ≤ 0x3FFFFFFF → (s.line side).refused = []
  | _ => True

instance (s : Session) : ∀ event, Decidable (s.NoneRefused event)
  | .send _ _ => inferInstanceAs (Decidable (_ → _ → _ → _))
  | .arrive _ _ | .go _ | .giveUp _ | .next _ => .isTrue trivial

variable {proto sodium setup} {s : Session}

theorem Keeps.same {key : Option Bytes} {first second : Correspondent} (hFirst : Keeps key first)
    (hSecond : Keeps key second) :
    first.stream.encrypt.map Encrypt.key = second.stream.encrypt.map Encrypt.key := by
  cases key with
  | none => rw [hFirst.plain rfl, hSecond.plain rfl]
  | some key =>
      obtain ⟨encrypt, hEncrypt, hKey, -⟩ := hFirst.counted key rfl
      obtain ⟨encrypt', hEncrypt', hKey', -⟩ := hSecond.counted key rfl
      rw [hEncrypt, hEncrypt', Option.map_some, Option.map_some, hKey, hKey']

theorem answerServer_server (s : Session) (pk bytes : Bytes) :
    (s.answerServer proto sodium setup pk bytes).stage .server = s.stage .server := by
  unfold answerServer
  dsimp only
  split
  · rw [installKey_stage]
    exact transmit_of_ne s sodium server_ne_client _ _
  · exact transmit_of_ne s sodium server_ne_client _ _

theorem goClient_server (s : Session) :
    (s.goClient proto sodium setup).stage .server = s.stage .server := by
  have hNe := server_ne_client
  unfold goClient
  split
  · exact transmit_of_ne s sodium hNe _ _
  · exact setStage_of_ne s hNe _
  · dsimp only
    split
    · exact answerServer_server _ _ _
    · exact setStage_of_ne _ hNe _
    · rfl
  · rfl

theorem goServer_client (s : Session) :
    (s.goServer proto sodium setup).stage .client = s.stage .client := by
  have hNe := client_ne_server
  unfold goServer
  split
  · split
    · exact transmit_of_ne s sodium hNe _ _
    · exact setStage_of_ne s hNe _
  · dsimp only
    split
    · unfold acceptClient
      split
      · rw [setStage_of_ne _ hNe, installKey_stage]
        rfl
      · exact setStage_of_ne _ hNe _
    · exact setStage_of_ne _ hNe _
    · rfl
  · rfl

/-- The client has answered with its key installed, or it has failed. -/
theorem answerServer_cases {frames : List Bytes}
    (hUnderway : Underway (s.line .client).stream (s.line .client).inbound frames)
    (hPlain : (s.line .client).stream.encrypt = none) {pk bytes : Bytes}
    (hAnswer : answer proto sodium setup pk bytes = Handshake.reply proto sodium setup) :
    (∃ header, BytesCodec.encodeHead (replyMessage proto sodium setup).length = some header ∧
      (replyMessage proto sodium setup).length ≤ 0x3FFFFFFF ∧
      (s.answerServer proto sodium setup pk bytes).line .client = { s.line .client with
        stream := { (s.line .client).stream with
          encrypt := (sessionKey proto sodium setup).map Encrypt.new } } ∧
      (s.answerServer proto sodium setup pk bytes).line .server = { s.line .server with
        inbound := (s.line .server).inbound ++ (header ++ replyMessage proto sodium setup) } ∧
      (s.answerServer proto sodium setup pk bytes).stage .client = .done) ∨
    (s.answerServer proto sodium setup pk bytes).stage .client = .failed := by
  unfold answerServer
  rw [hAnswer]
  change let sent := s.transmit sodium .client (replyMessage proto sodium setup) .done
    (∃ header, _ ∧ _ ∧
      (if sent.stage .client = .done then sent.installKey .client (sessionKey proto sodium setup)
        else sent).line .client = _ ∧
      (if sent.stage .client = .done then sent.installKey .client (sessionKey proto sodium setup)
        else sent).line .server = _ ∧
      (if sent.stage .client = .done then sent.installKey .client (sessionKey proto sodium setup)
        else sent).stage .client = _) ∨
    (if sent.stage .client = .done then sent.installKey .client (sessionKey proto sodium setup)
      else sent).stage .client = _
  intro sent
  rcases transmit_cases s sodium hUnderway hPlain (replyMessage proto sodium setup) .done with
    ⟨header, hHeader, hFits, hSelf, hOther, hDone⟩ | hFailed
  · rw [if_pos hDone]
    refine Or.inl ⟨header, hHeader, hFits, ?_, ?_, ?_⟩
    · rw [installKey_self _ (by rw [hSelf]; exact hPlain), hSelf]
    · rw [installKey_of_ne _ server_ne_client]
      exact hOther
    · rw [installKey_stage]
      exact hDone
  · rw [if_neg (by rw [hFailed]; nofun)]
    exact Or.inr hFailed

/-- The client's handshake has one message to wait for. -/
theorem Sound.goClient (hSound : Sound proto sodium setup s) :
    Sound proto sodium setup (s.goClient proto sodium setup) := by
  intro hClient hServer
  rw [goClient_server] at hServer ⊢
  unfold Session.goClient at hClient ⊢
  cases hStage : s.stage .client with
  | starting =>
      have hLinked := hSound (by rw [hStage]; decide) hServer
      rw [hStage] at hLinked
      cases hTrust : signPk proto sodium setup with
      | some pk =>
          dsimp only
          rw [setStage_line, setStage_self]
          exact { hLinked with
            order := fun hDone => nomatch hLinked.order hDone
            trusts := fun _ => by rw [hTrust]; nofun
            greeted := nofun
            clientIdle := fun _ => hLinked.clientIdle nofun
            clientKeeps := nofun
            clientBefore := fun _ => hLinked.clientBefore nofun
            clientAfter := nofun }
      | none =>
          have hMessage : proto.writeMessage none = replyMessage proto sodium setup := by
            simp only [replyMessage, Handshake.reply, hTrust]
          simp only [hStage, hTrust, hMessage] at hClient ⊢
          rcases transmit_cases s sodium (hLinked.clientBefore nofun) (hLinked.clientIdle nofun).encrypt
            (replyMessage proto sodium setup) .done with
            ⟨header, hHeader, hFits, hSelf, hOther, hDone⟩ | hFailed
          · rw [hSelf, hDone, show Side.server = Side.client.other from rfl, hOther]
            exact hLinked.skip hTrust hHeader hFits
          · exact absurd hFailed hClient
  | waiting =>
      have hLinked := hSound (by rw [hStage]; decide) hServer
      rw [hStage] at hLinked
      have hIdle := hLinked.clientIdle nofun
      obtain ⟨pk, hTrust⟩ := Option.ne_none_iff_exists'.mp (hLinked.trusts rfl)
      simp only [hStage, hTrust] at hClient ⊢
      rcases (hLinked.clientBefore nofun).next sodium.secretbox with
        ⟨hNone, hEncrypt, hUnderway, -⟩ | ⟨frame, rest, hFrames, hSome, hEncrypt, hUnderway⟩
      · simp only [hNone]
        rw [setStream_self, setStream_of_ne _ server_ne_client, setStream_stage, hStage]
        exact { hLinked with
          clientIdle := fun _ => hIdle.stream (hEncrypt.trans hIdle.encrypt) _
          clientKeeps := nofun
          clientBefore := fun _ => hUnderway
          clientAfter := nofun }
      · -- Only the server's first message can be there.
        have hGreeted : s.stage .server ≠ .starting := by
          intro hStarting
          rw [greeting, if_pos hStarting] at hFrames
          cases hFrames
        rw [greeting, if_neg hGreeted] at hFrames
        obtain ⟨rfl, rfl⟩ := List.cons.inj hFrames
        rw [hIdle.encrypt] at hSome hEncrypt
        simp only [hSome, openFrame] at hClient hEncrypt ⊢
        have hAnswer : answer proto sodium setup pk (signedIdMessage proto sodium setup) =
            Handshake.reply proto sodium setup := by
          simp only [Handshake.reply, hTrust]
        have hSelf := setStream_self s .client ((s.line .client).stream.next sodium.secretbox).2
        have hOther := setStream_of_ne s server_ne_client
          ((s.line .client).stream.next sodium.secretbox).2
        rcases answerServer_cases (s := s.setStream .client
            ((s.line .client).stream.next sodium.secretbox).2) (by rw [hSelf]; exact hUnderway)
            (by rw [hSelf]; exact hEncrypt) hAnswer with
          ⟨header, hHeader, hFits, hSelfAfter, hOtherAfter, hDone⟩ | hFailed
        · rw [hSelfAfter, hOtherAfter, hDone, hSelf, hOther]
          exact hLinked.reply hGreeted (hUnderway.encrypt _) hHeader hFits rfl
        · exact absurd hFailed hClient
  | done =>
      have hLinked := hSound (by rw [hStage]; decide) hServer
      cases signPk proto sodium setup <;> exact hLinked
  | failed =>
      rw [hStage] at hClient
      cases hTrust : signPk proto sodium setup <;> rw [hTrust] at hClient <;>
        exact absurd hStage hClient

/-- The server reads the client's answer, and nothing else before that. -/
theorem Sound.goServer (hProto : proto.Documented) (hSodium : sodium.Ideal) (hSetup : setup.WellFormed)
    (hSound : Sound proto sodium setup s) :
    Sound proto sodium setup (s.goServer proto sodium setup) := by
  intro hClient hServer
  rw [goServer_client] at hClient ⊢
  unfold Session.goServer at hServer ⊢
  cases hStage : s.stage .server with
  | starting =>
      have hLinked := hSound hClient (by rw [hStage]; decide)
      rw [hStage] at hLinked
      simp only [hStage] at hServer ⊢
      rw [if_pos ⟨hSetup.pk, hSetup.sk⟩] at hServer ⊢
      rcases transmit_cases s sodium (hLinked.serverBefore nofun) (hLinked.serverIdle nofun).encrypt
        (signedIdMessage proto sodium setup) .waiting with
        ⟨header, hHeader, hFits, hSelf, hOther, hWaits⟩ | hFailed
      · rw [hSelf, hWaits, show Side.client = Side.server.other from rfl, hOther]
        exact hLinked.greet hHeader hFits
      · exact absurd hFailed hServer
  | waiting =>
      have hLinked := hSound hClient (by rw [hStage]; decide)
      rw [hStage] at hLinked
      have hIdle := hLinked.serverIdle nofun
      simp only [hStage] at hServer ⊢
      rcases (hLinked.serverBefore nofun).next sodium.secretbox with
        ⟨hNone, hEncrypt, hUnderway, -⟩ | ⟨frame, rest, hFrames, hSome, hEncrypt, hUnderway⟩
      · simp only [hNone]
        rw [setStream_self, setStream_of_ne _ client_ne_server, setStream_stage, hStage]
        exact { hLinked with
          order := nofun
          serverIdle := fun _ => hIdle.stream (hEncrypt.trans hIdle.encrypt) _
          serverKeeps := nofun
          serverBefore := fun _ => hUnderway
          serverAfter := nofun }
      · -- The client has answered, and its answer is the first message.
        have hDone : s.stage .client = .done := by
          by_contra hNot
          rw [answered, if_neg hNot, (hLinked.clientIdle hNot).accepted] at hFrames
          cases hFrames
        rw [answered, if_pos hDone] at hFrames
        obtain ⟨rfl, rfl⟩ := List.cons.inj hFrames
        rw [hIdle.encrypt] at hSome hEncrypt
        simp only [hSome, openFrame, acceptClient, accept_reply hProto hSodium hSetup] at hEncrypt ⊢
        have hSelf := setStream_self s .server ((s.line .server).stream.next sodium.secretbox).2
        have hPlain : ((s.setStream .server ((s.line .server).stream.next sodium.secretbox).2).line
            .server).stream.encrypt = none := by
          rw [hSelf]
          exact hEncrypt
        rw [setStage_line, setStage_self, installKey_self _ hPlain, installKey_of_ne _ client_ne_server,
          hSelf, setStream_of_ne _ client_ne_server, hDone]
        rw [hDone] at hLinked
        exact hLinked.accept (hUnderway.encrypt _) rfl
  | done => exact hSound hClient (by rw [hStage]; decide)
  | failed =>
      simp only [hStage] at hServer
      exact absurd rfl hServer

theorem Sound.arrive (hSound : Sound proto sodium setup s) (side : Side) (count : Nat) :
    Sound proto sodium setup (s.step proto sodium setup (.arrive side count)) := by
  intro hClient hServer
  have hLinked := hSound hClient hServer
  obtain ⟨hSelf, hOther⟩ := Line.step_arrive sodium.secretbox s.line side count
  cases side with
  | client =>
      change Linked proto sodium setup (s.line.step sodium.secretbox (.arrive .client count) .client)
        (s.line.step sodium.secretbox (.arrive .client count) Side.client.other) _ _
      rw [hSelf, hOther]
      exact hLinked.arriveClient count
  | server =>
      change Linked proto sodium setup (s.line.step sodium.secretbox (.arrive .server count) Side.server.other)
        (s.line.step sodium.secretbox (.arrive .server count) .server) _ _
      rw [hSelf, hOther]
      exact hLinked.arriveServer count

theorem Sound.next (hSodium : sodium.Ideal) (hSound : Sound proto sodium setup s) (side : Side) :
    Sound proto sodium setup (s.step proto sodium setup (.next side)) := by
  change Sound proto sodium setup (if s.stage side = .done then
    { s with line := s.line.step sodium.secretbox (.next side) } else s)
  split
  · rename_i hDone
    intro hClient hServer
    have hLinked := hSound hClient hServer
    obtain ⟨hSelf, hOther⟩ := Line.step_next sodium.secretbox s.line side
    cases side with
    | client =>
        change Linked proto sodium setup (s.line.step sodium.secretbox (.next .client) .client)
          (s.line.step sodium.secretbox (.next .client) Side.client.other) (s.stage .client) _
        rw [hSelf, hOther, hDone]
        rw [hDone] at hLinked
        exact hLinked.nextClient hSodium
    | server =>
        change Linked proto sodium setup (s.line.step sodium.secretbox (.next .server) Side.server.other)
          (s.line.step sodium.secretbox (.next .server) .server) _ (s.stage .server)
        rw [hSelf, hOther, hDone]
        rw [hDone] at hLinked
        exact hLinked.nextServer hSodium
  · exact hSound

/-- With a key, a message whose frame fits is one that the end may send. -/
theorem refused_of_fits (hSodium : sodium.Ideal) {key : Option Bytes} {side : Side} {msg : Bytes}
    (hKeeps : Keeps key (s.line side)) (hDone : s.stage side = .done)
    (hNone : s.NoneRefused (.send side msg))
    (hFits : (sealMessage sodium.secretbox (s.line side).stream.encrypt msg).2.length ≤ 0x3FFFFFFF) :
    key ≠ none → (s.line side).refused = [] := by
  intro hKey
  obtain ⟨found, rfl⟩ := Option.ne_none_iff_exists'.mp hKey
  obtain ⟨encrypt, hEncrypt, -⟩ := hKeeps.counted found rfl
  refine hNone hDone (by rw [hEncrypt]; nofun) ?_
  rw [hEncrypt] at hFits
  change (sodium.secretbox.sealBox msg _ _).length ≤ _ at hFits
  rw [hSodium.secretbox.seal_length] at hFits
  exact hFits

theorem Sound.sendClient (hSodium : sodium.Ideal) (hSound : Sound proto sodium setup s) {msg : Bytes}
    (hDone : s.stage .client = .done) (hNone : s.NoneRefused (.send .client msg)) :
    Sound proto sodium setup
      { s with line := s.line.step sodium.secretbox (.send .client msg) } := by
  intro hClient hServer
  have hLinked := hSound hClient hServer
  change Linked proto sodium setup (s.line.step sodium.secretbox (.send .client msg) .client)
    (s.line.step sodium.secretbox (.send .client msg) Side.client.other) (s.stage .client) _
  rw [hDone] at hLinked ⊢
  rcases (hLinked.clientAfter rfl).underway.sendRaw sodium.secretbox msg with
    ⟨header, hHeader, hFits, hSend⟩ | ⟨-, hSend⟩
  · obtain ⟨hSelf, hOther⟩ := Line.step_send_ok hSend
    rw [hSelf, hOther]
    exact hLinked.sendClient (refused_of_fits hSodium (hLinked.clientKeeps rfl) hDone hNone hFits)
      hHeader hFits
  · obtain ⟨hSelf, hOther⟩ := Line.step_send_error hSend
    rw [hSelf, hOther]
    exact hLinked.refuseClient msg

theorem Sound.sendServer (hSodium : sodium.Ideal) (hSound : Sound proto sodium setup s) {msg : Bytes}
    (hDone : s.stage .server = .done) (hNone : s.NoneRefused (.send .server msg)) :
    Sound proto sodium setup
      { s with line := s.line.step sodium.secretbox (.send .server msg) } := by
  intro hClient hServer
  have hLinked := hSound hClient hServer
  change Linked proto sodium setup (s.line.step sodium.secretbox (.send .server msg) Side.server.other)
    (s.line.step sodium.secretbox (.send .server msg) .server) _ (s.stage .server)
  rw [hDone] at hLinked ⊢
  rcases (hLinked.serverAfter rfl).underway.sendRaw sodium.secretbox msg with
    ⟨header, hHeader, hFits, hSend⟩ | ⟨-, hSend⟩
  · obtain ⟨hSelf, hOther⟩ := Line.step_send_ok hSend
    rw [hSelf, hOther]
    exact hLinked.sendServer (refused_of_fits hSodium (hLinked.serverKeeps rfl) hDone hNone hFits)
      hHeader hFits
  · obtain ⟨hSelf, hOther⟩ := Line.step_send_error hSend
    rw [hSelf, hOther]
    exact hLinked.refuseServer msg

theorem Sound.step (hProto : proto.Documented) (hSodium : sodium.Ideal) (hSetup : setup.WellFormed)
    (hSound : Sound proto sodium setup s) {event : Event} (hNone : s.NoneRefused event) :
    Sound proto sodium setup (s.step proto sodium setup event) := by
  cases event with
  | arrive side count => exact hSound.arrive side count
  | go side =>
      cases side with
      | client => exact hSound.goClient
      | server => exact hSound.goServer hProto hSodium hSetup
  | giveUp side =>
      change Sound proto sodium setup
        (if s.stage side = .done then s else s.setStage side .failed)
      split
      · exact hSound
      · intro hClient hServer
        cases side with
        | client => exact absurd (setStage_self s _) hClient
        | server => exact absurd (setStage_self s _) hServer
  | send side msg =>
      change Sound proto sodium setup (if s.stage side = .done then
        { s with line := s.line.step sodium.secretbox (.send side msg) } else s)
      split
      · rename_i hDone
        cases side with
        | client => exact hSound.sendClient hSodium hDone hNone
        | server => exact hSound.sendServer hSodium hDone hNone
      · exact hSound
  | next side => exact hSound.next hSodium side

end Runs

end Session

end HibtDesk.Handshake
