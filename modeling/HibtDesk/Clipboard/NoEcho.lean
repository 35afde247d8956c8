import HibtDesk.Clipboard.Exchange
import HibtDesk.Library.History

/-! What was received is not sent on, so that clipboards do not answer each other for ever. -/
namespace HibtDesk.Clipboard

variable {unixFileCopyPaste : Bool}

/-- The content was put there for a peer. -/
def marked (content : List ClipboardData) : Bool := content.any (isOwnerMark .host)

theorem supportedFormat_of_mark {side : ClipboardSide} {item : ClipboardData}
    (hMark : isOwnerMark side item = true) : supportedFormat unixFileCopyPaste item = true := by
  cases item with
  | special name data =>
      simp only [isOwnerMark, Bool.and_eq_true] at hMark
      simp only [supportedFormat, hMark.1, Bool.or_true]
  | text s => cases hMark
  | rtf s => cases hMark
  | html s => cases hMark
  | image a => cases hMark
  | fileUrl urls => cases hMark

theorem getFormatsFilter_of_marked {content : List ClipboardData} (side : ClipboardSide)
    (hMarked : marked content = true) : getFormatsFilter unixFileCopyPaste side false content = [] := by
  obtain ⟨item, hItem, hMark⟩ := List.any_eq_true.mp hMarked
  have hRead : item ∈ content.filter (supportedFormat unixFileCopyPaste) :=
    List.mem_filter.mpr ⟨hItem, supportedFormat_of_mark hMark⟩
  have hAny : (content.filter (supportedFormat unixFileCopyPaste)).any (isOwnerMark side) = true :=
    List.any_eq_true.mpr ⟨item, hRead, hMark⟩
  unfold getFormatsFilter
  simp only [hAny, Bool.not_false, Bool.and_true, if_true]
  split
  · rename_i hEmpty
    exact List.isEmpty_iff.mp hEmpty
  · rfl

/-- What has the mark is not told to peers. -/
theorem checkClipboard_of_marked {content : List ClipboardData} (side : ClipboardSide)
    (zstdCompress : Nat → Bytes → Option Bytes) (hMarked : marked content = true) :
    checkClipboard unixFileCopyPaste zstdCompress side false content = none := by
  have hNone : getContent unixFileCopyPaste side false content = [] := by
    simp [getContent, getFormatsFilter_of_marked side hMarked]
  simp [checkClipboard, hNone]

/-- What is told is what can be read of the content, without its mark and empty texts. -/
theorem eq_of_checkClipboard {content : List ClipboardData} {side : ClipboardSide}
    {zstdCompress : Nat → Bytes → Option Bytes} {told : List Message}
    (hTold : checkClipboard unixFileCopyPaste zstdCompress side false content = some told) :
    told = createMultiClipboards zstdCompress
      ((content.filter (supportedFormat unixFileCopyPaste)).filter forPeer) := by
  have hFilter : getFormatsFilter unixFileCopyPaste side false content = [] ∨
      getFormatsFilter unixFileCopyPaste side false content =
        (content.filter (supportedFormat unixFileCopyPaste)).filter forPeer := by
    unfold getFormatsFilter
    by_cases hEmpty : (content.filter (supportedFormat unixFileCopyPaste)).isEmpty = true
    · exact Or.inl ((if_pos hEmpty).trans (List.isEmpty_iff.mp hEmpty))
    · by_cases hMark : (content.filter (supportedFormat unixFileCopyPaste)).any (isOwnerMark side) = true
      · exact Or.inl (by simp [hMark])
      · exact Or.inr (by simp [hEmpty, hMark])
  have hData : getContent unixFileCopyPaste side false content = [] ∨
      getContent unixFileCopyPaste side false content =
        (content.filter (supportedFormat unixFileCopyPaste)).filter forPeer := by
    unfold getContent
    dsimp only
    split
    · exact Or.inl rfl
    · exact hFilter
  unfold checkClipboard at hTold
  rcases hData with hNone | hSome
  · simp [hNone] at hTold
  · rw [hSome] at hTold
    dsimp only at hTold
    split at hTold
    · cases hTold
    · exact (Option.some.inj hTold).symm

theorem marked_doUpdateClipboard (content : List ClipboardData) (side : ClipboardSide) :
    marked (doUpdateClipboard content side) = true := by
  refine List.any_eq_true.mpr ⟨.special rustdeskClipboardOwnerFormat side.getOwnerData,
    List.mem_append_right _ List.mem_cons_self, ?_⟩
  cases side <;> decide

theorem marked_of_updateClipboard {env : FileTransfer.Env} {told : List Message} {side : ClipboardSide}
    {content : List ClipboardData} (hUpdate : updateClipboard env told side = some content) :
    marked content = true := by
  unfold updateClipboard at hUpdate
  dsimp only at hUpdate
  split at hUpdate
  · cases hUpdate
  · cases hUpdate
    exact marked_doUpdateClipboard _ side

/-- The changes still to be looked at, if looking at them may lead to a message. -/
def Desk.restless (desk : Desk) : Nat :=
  if marked desk.content then 0 else (desk.subscribers.map Prod.snd).sum

namespace Exchange

/-- Nothing is on its way yet, and no process has read a clipboard. -/
def start (desks : List Desk) : Exchange :=
  ⟨desks.map fun desk => { desk with lastMultiClipboards := fun _ => [] }, []⟩

section Origin
variable (unixFileCopyPaste : Bool) (desks : List Desk) (moves : List Move)

/-- The content was in the clipboard at the start, or another program put it there. -/
def Copied (desk : Nat) (content : List ClipboardData) : Prop :=
  .copy desk content ∈ moves ∨ ∃ found, desks[desk]? = some found ∧ found.content = content

/-- The clipboards hold content without the mark that was copied at the computer. -/
def Found (desk : Nat) (clipboards : List Message) : Prop :=
  ∃ content, Copied desks moves desk content ∧ marked content = false ∧
    ∃ zstdCompress, clipboards = createMultiClipboards zstdCompress
      ((content.filter (supportedFormat unixFileCopyPaste)).filter forPeer)

/-- The clipboards hold what was read, whatever its mark, when a client was let in whose process
had not found anything before. -/
def Read (desk : Nat) (clipboards : List Message) : Prop :=
  ∃ past rest subscriber zstdCompress recipient,
    moves = past ++ .greet desk subscriber zstdCompress recipient :: rest ∧
    ∃ found, (Trace.run (step unixFileCopyPaste) (start desks) past).desks[desk]? = some found ∧
      found.lastMultiClipboards subscriber = [] ∧
      clipboards = createMultiClipboards zstdCompress
        (getContent unixFileCopyPaste .client true found.content)

/-- The message tells of content without the mark that was copied where it was sent. Only where a
client was let in it may be what was read there. -/
def Letter.Tells (letter : Letter) : Prop :=
  ∃ clipboards isSupport, letter.clipboards = messageFor isSupport clipboards ∧
    (Found unixFileCopyPaste desks moves letter.source clipboards ∨
      letter.greeting = true ∧ Read unixFileCopyPaste desks moves letter.source clipboards)

/-- What is in the clipboard without a mark was copied there, and what is remembered was found or read. -/
structure Desk.Honest (k : Nat) (desk : Desk) : Prop where
  copied : marked desk.content = false → Copied desks moves k desk.content
  known : ∀ subscriber, desk.lastMultiClipboards subscriber = [] ∨
    Found unixFileCopyPaste desks moves k (desk.lastMultiClipboards subscriber) ∨
    Read unixFileCopyPaste desks moves k (desk.lastMultiClipboards subscriber)

structure Honest (s : Exchange) : Prop where
  kept : ∀ i desk, s.desks[i]? = some desk → Desk.Honest unixFileCopyPaste desks moves i desk
  tells : ∀ letter ∈ s.letters, Letter.Tells unixFileCopyPaste desks moves letter

end Origin

variable {desks : List Desk} {past : List Move} {s : Exchange} {i : Nat}

theorem Copied.later {content : List ClipboardData} (hCopied : Copied desks past i content) (move : Move) :
    Copied desks (past ++ [move]) i content :=
  hCopied.imp (fun hMem => List.mem_append_left _ hMem) id

theorem Found.later {clipboards : List Message} (hFound : Found unixFileCopyPaste desks past i clipboards)
    (move : Move) : Found unixFileCopyPaste desks (past ++ [move]) i clipboards := by
  obtain ⟨content, hCopied, hRest⟩ := hFound
  exact ⟨content, hCopied.later move, hRest⟩

theorem Read.later {clipboards : List Message} (hRead : Read unixFileCopyPaste desks past i clipboards)
    (move : Move) : Read unixFileCopyPaste desks (past ++ [move]) i clipboards := by
  obtain ⟨before, rest, subscriber, zstdCompress, recipient, rfl, hRest⟩ := hRead
  exact ⟨before, rest ++ [move], subscriber, zstdCompress, recipient, by simp, hRest⟩

theorem Letter.Tells.later {letter : Letter} (hTells : Letter.Tells unixFileCopyPaste desks past letter)
    (move : Move) : Letter.Tells unixFileCopyPaste desks (past ++ [move]) letter := by
  obtain ⟨clipboards, isSupport, hTold, hOrigin⟩ := hTells
  exact ⟨clipboards, isSupport, hTold, hOrigin.imp (fun hFound => hFound.later move)
    (And.imp_right fun hRead => hRead.later move)⟩

theorem Desk.Honest.later {desk : Desk} (hDesk : Desk.Honest unixFileCopyPaste desks past i desk)
    (move : Move) : Desk.Honest unixFileCopyPaste desks (past ++ [move]) i desk :=
  ⟨fun hUnmarked => (hDesk.copied hUnmarked).later move, fun subscriber =>
    (hDesk.known subscriber).imp id (Or.imp (fun hFound => hFound.later move) fun hRead => hRead.later move)⟩

/-- What is remembered anew was found or read. -/
theorem Desk.Honest.remember {desk : Desk} (hDesk : Desk.Honest unixFileCopyPaste desks past i desk)
    (subscriber : Nat) {clipboards : List Message}
    (hKnown : clipboards = [] ∨ Found unixFileCopyPaste desks past i clipboards ∨
      Read unixFileCopyPaste desks past i clipboards) :
    Desk.Honest unixFileCopyPaste desks past i (desk.remember subscriber clipboards) := by
  refine ⟨hDesk.copied, fun k => ?_⟩
  unfold Desk.remember
  dsimp only
  split
  · exact hKnown
  · exact hDesk.known k

/-- A step that changes at most one computer. -/
theorem Honest.modify (hHonest : Honest unixFileCopyPaste desks past s) (move : Move) (k : Nat)
    (change : Desk → Desk)
    (hChange : ∀ desk, s.desks[k]? = some desk → Desk.Honest unixFileCopyPaste desks (past ++ [move]) k desk →
      Desk.Honest unixFileCopyPaste desks (past ++ [move]) k (change desk)) :
    ∀ i desk, (s.desks.modify k change)[i]? = some desk →
      Desk.Honest unixFileCopyPaste desks (past ++ [move]) i desk := by
  intro i desk hDesk
  obtain ⟨before, hBefore, rfl⟩ := Trace.getElem?_modify_cases hDesk
  have hKept := (hHonest.kept i before hBefore).later move
  split
  · rename_i hSame
    subst hSame
    exact hChange before hBefore hKept
  · exact hKept

/-- What is found has no mark. -/
theorem found_of_desk {desk : Desk} {zstdCompress : Nat → Bytes → Option Bytes} {subscriber : Nat}
    {told : List Message} (hFound : desk.found unixFileCopyPaste zstdCompress subscriber = some told) :
    ∃ side waiting, desk.subscribers[subscriber]? = some (side, waiting) ∧ 0 < waiting ∧
      marked desk.content = false ∧
      checkClipboard unixFileCopyPaste zstdCompress side false desk.content = some told := by
  unfold Desk.found at hFound
  split at hFound
  · rename_i side waiting hSubscriber
    split at hFound
    · cases hFound
    · rename_i hSome
      refine ⟨side, waiting, hSubscriber, Nat.pos_of_ne_zero hSome, ?_, hFound⟩
      by_contra hMarked
      rw [checkClipboard_of_marked side zstdCompress (Bool.not_eq_false _ ▸ hMarked)] at hFound
      cases hFound
  · cases hFound

/-- What is found was copied there. -/
theorem found_of_check {desk : Desk} (hDesk : Desk.Honest unixFileCopyPaste desks past i desk)
    {zstdCompress : Nat → Bytes → Option Bytes} {subscriber : Nat} {told : List Message}
    (hTold : desk.found unixFileCopyPaste zstdCompress subscriber = some told) :
    Found unixFileCopyPaste desks past i told := by
  obtain ⟨side, waiting, -, -, hUnmarked, hCheck⟩ := found_of_desk hTold
  exact ⟨desk.content, hDesk.copied hUnmarked, hUnmarked, zstdCompress, eq_of_checkClipboard hCheck⟩

/-- A greeting has what a message about a change would have. -/
theorem messageFor_of_greetingFor {isSupport : Bool} {clipboards told : List Message}
    (hTold : greetingFor isSupport clipboards = some told) :
    clipboards ≠ [] ∧ told = messageFor isSupport clipboards := by
  unfold greetingFor at hTold
  split at hTold
  · cases hTold
  · rename_i hSome
    refine ⟨fun hNone => hSome (List.isEmpty_iff.mpr hNone), ?_⟩
    split at hTold
    · rename_i hSupport
      rw [hSupport]
      exact (Option.some.inj hTold).symm
    · rename_i hOld
      obtain ⟨clipboard, hFind, rfl⟩ := Option.map_eq_some_iff.mp hTold
      simp [messageFor, getMsgIfNotSupportMultiClip, hOld, hFind]

/-- What a peer is greeted with was found or is read now. -/
theorem current_known {desk : Desk} (hDesk : Desk.Honest unixFileCopyPaste desks past i desk)
    (hAt : (Trace.run (step unixFileCopyPaste) (start desks) past).desks[i]? = some desk)
    (subscriber : Nat) (zstdCompress : Nat → Bytes → Option Bytes) (recipient : Option (Nat × Bool)) :
    Found unixFileCopyPaste desks (past ++ [.greet i subscriber zstdCompress recipient]) i
        (desk.current unixFileCopyPaste zstdCompress subscriber) ∨
      Read unixFileCopyPaste desks (past ++ [.greet i subscriber zstdCompress recipient]) i
        (desk.current unixFileCopyPaste zstdCompress subscriber) := by
  unfold Desk.current
  split
  · rename_i hNone
    exact Or.inr ⟨past, [], subscriber, zstdCompress, recipient, rfl, desk, hAt,
      List.isEmpty_iff.mp hNone, rfl⟩
  · rename_i hSome
    rcases (hDesk.later _).known subscriber with hNone | hKnown
    · exact absurd (List.isEmpty_iff.mpr hNone) hSome
    · exact hKnown

theorem Honest.step
    (hHonest : Honest unixFileCopyPaste desks past (Trace.run (step unixFileCopyPaste) (start desks) past))
    (move : Move) : Honest unixFileCopyPaste desks (past ++ [move])
      ((Trace.run (step unixFileCopyPaste) (start desks) past).step unixFileCopyPaste move) := by
  generalize hRun : Trace.run (Exchange.step unixFileCopyPaste) (start desks) past = s at hHonest ⊢
  have hLetters : ∀ letter ∈ s.letters, Letter.Tells unixFileCopyPaste desks (past ++ [move]) letter :=
    fun letter hLetter => (hHonest.tells letter hLetter).later move
  have hDesks : ∀ i desk, s.desks[i]? = some desk →
      Desk.Honest unixFileCopyPaste desks (past ++ [move]) i desk :=
    fun i desk hDesk => (hHonest.kept i desk hDesk).later move
  cases move with
  | copy desk content =>
      refine ⟨hHonest.modify _ desk _ fun before _ hBefore => ⟨fun _ => ?_, hBefore.known⟩, hLetters⟩
      exact Or.inl (List.mem_append_right _ List.mem_cons_self)
  | check desk subscriber zstdCompress recipients =>
      refine ⟨hHonest.modify _ desk _ fun before _ hBefore => ?_, fun letter hLetter => ?_⟩
      · have hTaken : Desk.Honest unixFileCopyPaste desks _ desk (before.take subscriber) :=
          ⟨hBefore.copied, hBefore.known⟩
        unfold Desk.look
        split
        · rename_i told hTold
          exact hTaken.remember subscriber (Or.inr (Or.inl (found_of_check hBefore hTold)))
        · exact hTaken
      · rcases List.mem_append.mp hLetter with hOld | hNew
        · exact hLetters letter hOld
        · obtain ⟨⟨destination, isSupport⟩, -, hMem⟩ := List.mem_flatMap.mp hNew
          obtain ⟨told, hTold, rfl⟩ := List.mem_map.mp hMem
          obtain ⟨found, hAt, hFound⟩ := Option.bind_eq_some_iff.mp (Option.mem_toList.mp hTold)
          exact ⟨told, isSupport, rfl, Or.inl (found_of_check (hDesks desk found hAt) hFound)⟩
  | skip desk subscriber =>
      exact ⟨hHonest.modify _ desk _ fun before _ hBefore => ⟨hBefore.copied, hBefore.known⟩, hLetters⟩
  | greet desk subscriber zstdCompress recipient =>
      have hKnown : ∀ before, s.desks[desk]? = some before → _ := fun before hAt =>
        current_known (hHonest.kept desk before hAt) (hRun ▸ hAt) subscriber zstdCompress recipient
      refine ⟨hHonest.modify _ desk _ fun before hAt hBefore => ?_, fun letter hLetter => ?_⟩
      · rw [hAt]
        exact hBefore.remember subscriber (Or.inr (hKnown before hAt))
      · rcases List.mem_append.mp hLetter with hOld | hNew
        · exact hLetters letter hOld
        · obtain ⟨⟨destination, isSupport⟩, -, hMem⟩ := List.mem_flatMap.mp hNew
          obtain ⟨told, hTold, rfl⟩ := List.mem_map.mp hMem
          obtain ⟨hSome, hMessage⟩ := messageFor_of_greetingFor (Option.mem_toList.mp hTold)
          cases hAt : s.desks[desk]? with
          | none =>
              rw [hAt] at hSome
              exact absurd rfl hSome
          | some before =>
              rw [hAt] at hMessage
              exact ⟨_, isSupport, hMessage, (hKnown before hAt).imp id fun hRead => ⟨rfl, hRead⟩⟩
  | update letter env side =>
      unfold Exchange.step
      dsimp only
      split
      · rename_i told hTold
        refine ⟨hHonest.modify _ told.destination _ fun before _ hBefore => ?_, fun letter hLetter =>
          hLetters letter (List.mem_of_mem_eraseIdx hLetter)⟩
        split
        · rename_i content hUpdate
          have hMarked : marked (before.change content).content = true := marked_of_updateClipboard hUpdate
          exact ⟨fun hUnmarked => absurd (hMarked.symm.trans hUnmarked) (by decide), hBefore.known⟩
        · exact hBefore
      · exact ⟨hDesks, hLetters⟩
  | refuse letter =>
      exact ⟨hDesks, fun letter hLetter => hLetters letter (List.mem_of_mem_eraseIdx hLetter)⟩

/-- Whatever is copied, read, delivered late, out of order or not at all: each message between
the computers that a change has led to tells of something that another program than this one put
into the clipboard of the computer that sent it, and never of something that came from a peer.
A greeting does so as well, unless nothing had been found before it: then it may tell of what was
in the clipboard when a client was let in. -/
theorem letters_copied (unixFileCopyPaste : Bool) (desks : List Desk) (moves : List Move) :
    ∀ letter ∈ (Trace.run (step unixFileCopyPaste) (start desks) moves).letters,
      Letter.Tells unixFileCopyPaste desks moves letter := by
  have hStart : Honest unixFileCopyPaste desks [] (start desks) := by
    refine ⟨fun i desk hDesk => ?_, nofun⟩
    unfold start at hDesk
    rw [List.getElem?_map] at hDesk
    obtain ⟨found, hFound, rfl⟩ := Option.map_eq_some_iff.mp hDesk
    exact ⟨fun _ => Or.inr ⟨found, hFound, rfl⟩, fun _ => Or.inl rfl⟩
  exact (Trace.invariant_of_past (step unixFileCopyPaste) (Honest unixFileCopyPaste desks) hStart
    (fun past move _ hInv => hInv.step move)
    (Trace.always_of_forall (P := fun _ _ => True) _ (fun _ _ => trivial) _ moves)).tells

/-- What a host got from its peer, and as a client sends on when it is let in elsewhere. -/
theorem letters_copied_greeting :
    let marked : List ClipboardData := doUpdateClipboard [.text "a"] .host
    Letter.Tells false [⟨marked, [(.host, 1), (.client, 1)], fun _ => []⟩]
      [.check 0 0 (fun _ _ => none) [(1, true)], .greet 0 1 (fun _ _ => none) (some (2, true))]
      ⟨0, 2, createMultiClipboards (fun _ _ => none) [.text "a"], true⟩ :=
  letters_copied false _ _ _ List.mem_cons_self

/-- The changes still to be looked at that may lead to a message. -/
def restless (s : Exchange) : Nat := (s.desks.map Desk.restless).sum

/-- A subscriber finds something to tell. -/
def sends (unixFileCopyPaste : Bool) (s : Exchange) : Move → Bool
  | .check desk subscriber zstdCompress _ =>
      (s.desks[desk]?.bind (Desk.found unixFileCopyPaste zstdCompress subscriber)).isSome
  | .copy .. | .skip .. | .greet .. | .update .. | .refuse .. => false

/-- How often subscribers find something to tell. -/
def sendings (unixFileCopyPaste : Bool) : Exchange → List Move → Nat
  | _, [] => 0
  | s, move :: rest =>
      (s.sends unixFileCopyPaste move).toNat + sendings unixFileCopyPaste (s.step unixFileCopyPaste move) rest

/-- No other program puts something into the clipboard. -/
def Move.FromPeer : Move → Prop
  | .copy .. => False
  | .check .. | .skip .. | .greet .. | .update .. | .refuse .. => True

/-- One entry is made smaller. -/
theorem sum_map_modify_le {α : Type*} (size : α → Nat) (less : Nat) (change : α → α)
    {entries : List α} {k : Nat} {found : α} (hAt : entries[k]? = some found)
    (hLess : less + size (change found) ≤ size found) :
    less + ((entries.modify k change).map size).sum ≤ (entries.map size).sum := by
  induction entries generalizing k with
  | nil => cases hAt
  | cons first rest ih =>
      cases k with
      | zero =>
          obtain rfl := Option.some.inj hAt
          simp only [List.modify_zero_cons, List.map_cons, List.sum_cons]
          omega
      | succ k =>
          have hRest := ih (k := k) hAt
          simp only [List.modify_succ_cons, List.map_cons, List.sum_cons]
          omega

theorem modify_of_none {α : Type*} {entries : List α} {k : Nat} {change : α → α}
    (hAt : entries[k]? = none) : entries.modify k change = entries := by
  rw [List.modify_eq_set_getElem?, hAt]
  rfl

/-- Looking at a change does not add to what is to be looked at. -/
theorem restless_take (desk : Desk) (subscriber : Nat) : (desk.take subscriber).restless ≤ desk.restless := by
  unfold Desk.restless Desk.take
  dsimp only
  split
  · exact Nat.le_refl _
  · cases hAt : desk.subscribers[subscriber]? with
    | none => rw [modify_of_none hAt]
    | some told =>
        have hLess := sum_map_modify_le Prod.snd 0 (fun told => (told.1, told.2 - 1)) hAt
          (by dsimp only; omega)
        omega

theorem restless_look (desk : Desk) (zstdCompress : Nat → Bytes → Option Bytes) (subscriber : Nat) :
    (desk.look unixFileCopyPaste zstdCompress subscriber).restless ≤ desk.restless := by
  unfold Desk.look
  split
  · exact restless_take desk subscriber
  · exact restless_take desk subscriber

/-- What is found by looking at a change is told once. -/
theorem restless_look_of_found {desk : Desk} {zstdCompress : Nat → Bytes → Option Bytes}
    {subscriber : Nat} {told : List Message}
    (hFound : desk.found unixFileCopyPaste zstdCompress subscriber = some told) :
    1 + (desk.look unixFileCopyPaste zstdCompress subscriber).restless ≤ desk.restless := by
  obtain ⟨side, waiting, hAt, hWaiting, hUnmarked, -⟩ := found_of_desk hFound
  unfold Desk.look
  rw [hFound]
  unfold Desk.restless Desk.remember Desk.take
  simp only [hUnmarked]
  exact sum_map_modify_le Prod.snd 1 _ hAt (by dsimp only; omega)

theorem restless_modify (s : Exchange) (k : Nat) (change : Desk → Desk)
    (hChange : ∀ desk, s.desks[k]? = some desk → (change desk).restless ≤ desk.restless) :
    ((s.desks.modify k change).map Desk.restless).sum ≤ s.restless := by
  cases hAt : s.desks[k]? with
  | none =>
      rw [modify_of_none hAt]
      exact Nat.le_refl _
  | some desk =>
      have hLess := sum_map_modify_le Desk.restless 0 change hAt
        (by rw [Nat.zero_add]; exact hChange desk hAt)
      rwa [Nat.zero_add] at hLess

theorem restless_step (unixFileCopyPaste : Bool) (s : Exchange) {move : Move} (hMove : Move.FromPeer move) :
    (s.sends unixFileCopyPaste move).toNat + (s.step unixFileCopyPaste move).restless ≤ s.restless := by
  cases move with
  | copy desk content => exact hMove.elim
  | check desk subscriber zstdCompress recipients =>
      change (s.sends unixFileCopyPaste (.check desk subscriber zstdCompress recipients)).toNat +
        ((s.desks.modify desk fun desk =>
          desk.look unixFileCopyPaste zstdCompress subscriber).map Desk.restless).sum ≤ s.restless
      unfold sends
      dsimp only
      cases hAt : s.desks[desk]? with
      | none =>
          rw [modify_of_none hAt]
          exact Nat.le_of_eq (Nat.zero_add _)
      | some found =>
          cases hFound : found.found unixFileCopyPaste zstdCompress subscriber with
          | none =>
              simp only [Option.bind_some, hFound, Option.isSome_none, Bool.toNat_false, Nat.zero_add]
              exact restless_modify s desk _ fun desk _ => restless_look desk zstdCompress subscriber
          | some told =>
              simp only [Option.bind_some, hFound, Option.isSome_some, Bool.toNat_true]
              exact sum_map_modify_le Desk.restless 1 _ hAt (restless_look_of_found hFound)
  | skip desk subscriber =>
      change 0 + _ ≤ _
      rw [Nat.zero_add]
      exact restless_modify s desk _ fun _ _ => restless_take _ subscriber
  | greet desk subscriber zstdCompress recipient =>
      change 0 + _ ≤ _
      rw [Nat.zero_add]
      exact restless_modify s desk _ fun _ _ => Nat.le_refl _
  | update letter env side =>
      change 0 + _ ≤ _
      rw [Nat.zero_add]
      unfold Exchange.step
      dsimp only
      split
      · rename_i told _
        refine restless_modify s told.destination _ fun desk _ => ?_
        split
        · rename_i content hUpdate
          have hMarked : marked (desk.change content).content = true := marked_of_updateClipboard hUpdate
          rw [Desk.restless, hMarked]
          exact Nat.zero_le _
        · exact Nat.le_refl _
      · exact Nat.le_refl _
  | refuse letter => exact Nat.le_of_eq (Nat.zero_add _)

/-- Without another program that puts something into a clipboard, what was copied is told at
most once for each change that is still to be looked at, whatever arrives meanwhile. -/
theorem dies_down (unixFileCopyPaste : Bool) (s : Exchange) (moves : List Move)
    (hMoves : ∀ move ∈ moves, Move.FromPeer move) :
    s.sendings unixFileCopyPaste moves + (Trace.run (step unixFileCopyPaste) s moves).restless ≤
      s.restless := by
  induction moves generalizing s with
  | nil => exact Nat.le_of_eq (Nat.zero_add _)
  | cons move rest ih =>
      have hFirst := restless_step unixFileCopyPaste s (hMoves move List.mem_cons_self)
      have hRest := ih (s.step unixFileCopyPaste move) fun later hLater =>
        hMoves later (List.mem_cons_of_mem _ hLater)
      rw [sendings, Trace.run_cons]
      omega

/-- Two computers, one of which has just got a text to tell. -/
theorem dies_down_text :
    let s : Exchange := ⟨[⟨[.text "a"], [(.client, 1)], fun _ => []⟩, ⟨[], [(.host, 0)], fun _ => []⟩], []⟩
    let moves : List Move := [.check 0 0 (fun _ _ => none) [(1, true)], .refuse 0]
    s.sendings false moves + (Trace.run (step false) s moves).restless ≤ s.restless :=
  dies_down false ⟨[⟨[.text "a"], [(.client, 1)], fun _ => []⟩, ⟨[], [(.host, 0)], fun _ => []⟩], []⟩
    [.check 0 0 (fun _ _ => none) [(1, true)], .refuse 0] (by simp [Move.FromPeer])

end Exchange

end HibtDesk.Clipboard
