import HibtDesk.Clipboard.Content
import HibtDesk.Library.Trace

/-! The clipboards of computers that are in sessions with each other. A change of a clipboard
is told to the subscribers of its computer, which read the clipboard some time later; what
arrives from a peer is put into the clipboard with a mark. A client that has been let in may
tell its peer at once what the clipboard holds, whatever the mark. -/
namespace HibtDesk.Clipboard

def rustdeskClipboardOwnerFormat : String := "dyn.com.rustdesk.owner"

def clipboardFormatExcelXmlSpreadsheet : String := "XML Spreadsheet"

inductive ClipboardSide where
  | host
  | client
  deriving DecidableEq, Repr

namespace ClipboardSide

/-- `get_owner_data`. -/
def getOwnerData : ClipboardSide → Bytes
  | host => [0b01]
  | client => [0b10]

/-- `is_owner`, which does not look at the side. -/
def isOwner (_side : ClipboardSide) (data : Bytes) : Bool :=
  match data with
  | [] => false
  | first :: _ => first &&& 0b11 != 0

end ClipboardSide

section Context
variable (unixFileCopyPaste : Bool)

/-- `SUPPORTED_FORMATS`. -/
def supportedFormat : ClipboardData → Bool
  | .text _ | .rtf _ | .html _ | .image _ => true
  | .fileUrl _ => unixFileCopyPaste
  | .special name _ =>
      name == clipboardFormatExcelXmlSpreadsheet || name == rustdeskClipboardOwnerFormat

/-- The mark of content that was put there for a peer. -/
def isOwnerMark (side : ClipboardSide) : ClipboardData → Bool
  | .special name data => name == rustdeskClipboardOwnerFormat && side.isOwner data
  | _ => false

/-- What of the content is for a peer: not the mark, and no empty text. -/
def forPeer : ClipboardData → Bool
  | .special name _ => name != rustdeskClipboardOwnerFormat
  | .text s => !s.isEmpty
  | _ => true

/-- `get_formats_filter`. -/
def getFormatsFilter (side : ClipboardSide) (force : Bool) (content : List ClipboardData) :
    List ClipboardData :=
  let data := content.filter (supportedFormat unixFileCopyPaste)
  if data.isEmpty then data
  else if !force && data.any (isOwnerMark side) then []
  else data.filter forPeer

def isFileUrl : ClipboardData → Bool
  | .fileUrl _ => true
  | _ => false

/-- `ClipboardContext::get`. -/
def getContent (side : ClipboardSide) (force : Bool) (content : List ClipboardData) : List ClipboardData :=
  let data := getFormatsFilter unixFileCopyPaste side force content
  if unixFileCopyPaste && data.any isFileUrl then [] else data

/-- `check_clipboard`. -/
def checkClipboard (zstdCompress : Nat → Bytes → Option Bytes) (side : ClipboardSide) (force : Bool)
    (content : List ClipboardData) : Option (List Message) :=
  let data := getContent unixFileCopyPaste side force content
  if data.isEmpty then none else some (createMultiClipboards zstdCompress data)

end Context

/-- `get_msg_if_not_support_multi_clip`. -/
def getMsgIfNotSupportMultiClip (isSupport : Bool) (multiClipboards : List Message) : Option Message :=
  if isSupport then none
  else multiClipboards.find? fun clipboard => clipboard.format == some .text

/-- What a peer is sent, which may not know messages with several contents. -/
def messageFor (isSupport : Bool) (multiClipboards : List Message) : List Message :=
  match getMsgIfNotSupportMultiClip isSupport multiClipboards with
  | some clipboard => [clipboard]
  | none => multiClipboards

/-- What `get_current_clipboard_msg` makes of the clipboards for a peer. Without a text there is
nothing for one that does not know messages with several contents. -/
def greetingFor (isSupport : Bool) (multiClipboards : List Message) : Option (List Message) :=
  if multiClipboards.isEmpty then none
  else if isSupport then some multiClipboards
  else (multiClipboards.find? fun clipboard => clipboard.format == some .text).map ([·])

/-- `do_update_clipboard_`, as the content that is set. -/
def doUpdateClipboard (toUpdateData : List ClipboardData) (side : ClipboardSide) : List ClipboardData :=
  toUpdateData ++ [.special rustdeskClipboardOwnerFormat side.getOwnerData]

/-- `update_clipboard_`, which leaves the clipboard alone when there is nothing to put. -/
def updateClipboard (env : FileTransfer.Env) (multiClipboards : List Message) (side : ClipboardSide) :
    Option (List ClipboardData) :=
  let toUpdateData := fromMultiClipbards env multiClipboards
  if toUpdateData.isEmpty then none else some (doUpdateClipboard toUpdateData side)

/-- A computer: its clipboard, and for each subscriber to changes of it how many are to be
looked at. A subscriber is the service for the peers that control this computer, or the loop
for those that it controls; each runs in a process of its own, which remembers what it found. -/
structure Desk where
  content : List ClipboardData
  subscribers : List (ClipboardSide × Nat)
  lastMultiClipboards : Nat → List Message

/-- A message on its way, which a change has led to, or that a peer let its client in. -/
structure Letter where
  source : Nat
  destination : Nat
  clipboards : List Message
  greeting : Bool

structure Exchange where
  desks : List Desk
  letters : List Letter

inductive Move where
  /-- Another program puts something into the clipboard. -/
  | copy (desk : Nat) (content : List ClipboardData)
  /-- A subscriber looks at a change, and what it finds is sent to the peers that are to have it. -/
  | check (desk subscriber : Nat) (zstdCompress : Nat → Bytes → Option Bytes)
      (recipients : List (Nat × Bool))
  /-- A subscriber does not get to read the clipboard. -/
  | skip (desk subscriber : Nat)
  /-- A client is let in by a peer, which is told what the clipboard holds if that is wanted. -/
  | greet (desk subscriber : Nat) (zstdCompress : Nat → Bytes → Option Bytes)
      (recipient : Option (Nat × Bool))
  /-- A message is put into the clipboard. Each does so in a thread of its own. -/
  | update (letter : Nat) (env : FileTransfer.Env) (side : ClipboardSide)
  /-- A message is not wanted. -/
  | refuse (letter : Nat)

namespace Desk

/-- The clipboard gets new content, and the subscribers are told. -/
def change (desk : Desk) (content : List ClipboardData) : Desk :=
  { desk with
    content := content
    subscribers := desk.subscribers.map fun told => (told.1, told.2 + 1) }

/-- A subscriber takes the next change. -/
def take (desk : Desk) (subscriber : Nat) : Desk :=
  { desk with subscribers := desk.subscribers.modify subscriber fun told => (told.1, told.2 - 1) }

/-- What a subscriber that was told of a change makes of the clipboard. -/
def found (unixFileCopyPaste : Bool) (zstdCompress : Nat → Bytes → Option Bytes) (subscriber : Nat)
    (desk : Desk) : Option (List Message) :=
  match desk.subscribers[subscriber]? with
  | some (side, waiting) =>
      if waiting = 0 then none
      else checkClipboard unixFileCopyPaste zstdCompress side false desk.content
  | none => none

/-- The process of a subscriber keeps what it has read. -/
def remember (desk : Desk) (subscriber : Nat) (clipboards : List Message) : Desk :=
  { desk with
    lastMultiClipboards := fun k => if k = subscriber then clipboards else desk.lastMultiClipboards k }

/-- A subscriber takes the next change, and what it finds is kept. -/
def look (unixFileCopyPaste : Bool) (zstdCompress : Nat → Bytes → Option Bytes) (subscriber : Nat)
    (desk : Desk) : Desk :=
  match desk.found unixFileCopyPaste zstdCompress subscriber with
  | some clipboards => (desk.take subscriber).remember subscriber clipboards
  | none => desk.take subscriber

/-- What was found last, or else what the clipboard holds now, with a mark or without. -/
def current (unixFileCopyPaste : Bool) (zstdCompress : Nat → Bytes → Option Bytes) (subscriber : Nat)
    (desk : Desk) : List Message :=
  if (desk.lastMultiClipboards subscriber).isEmpty then
    createMultiClipboards zstdCompress (getContent unixFileCopyPaste .client true desk.content)
  else desk.lastMultiClipboards subscriber

end Desk

namespace Exchange

def step (unixFileCopyPaste : Bool) (s : Exchange) : Move → Exchange
  | .copy desk content => { s with desks := s.desks.modify desk fun desk => desk.change content }
  | .check desk subscriber zstdCompress recipients =>
      let found := s.desks[desk]?.bind (Desk.found unixFileCopyPaste zstdCompress subscriber)
      { desks := s.desks.modify desk fun desk => desk.look unixFileCopyPaste zstdCompress subscriber
        letters := s.letters ++ recipients.flatMap fun (destination, isSupport) =>
          found.toList.map fun clipboards => ⟨desk, destination, messageFor isSupport clipboards, false⟩ }
  | .skip desk subscriber => { s with desks := s.desks.modify desk fun desk => desk.take subscriber }
  | .greet desk subscriber zstdCompress recipient =>
      let clipboards := (s.desks[desk]?.map (Desk.current unixFileCopyPaste zstdCompress subscriber)).getD []
      { desks := s.desks.modify desk fun desk => desk.remember subscriber clipboards
        letters := s.letters ++ recipient.toList.flatMap fun (destination, isSupport) =>
          (greetingFor isSupport clipboards).toList.map fun told => ⟨desk, destination, told, true⟩ }
  | .update letter env side =>
      match s.letters[letter]? with
      | some told =>
          { desks := s.desks.modify told.destination fun desk =>
              match updateClipboard env told.clipboards side with
              | some content => desk.change content
              | none => desk
            letters := s.letters.eraseIdx letter }
      | none => s
  | .refuse letter => { s with letters := s.letters.eraseIdx letter }

end Exchange

end HibtDesk.Clipboard
