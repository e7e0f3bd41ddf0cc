import PeerPanel.Ids

/-!
Messages, what is attached to them, and the shared media lists that they appear in.

A message is a value; what an account stores under its number, and in which of the two timelines,
is said in `PeerPanel.Account.Timeline`.
-/

set_option autoImplicit false
set_option relaxedAutoImplicit false

namespace PeerPanel

/-- A list of shared media. -/
inductive MediaKind
  | photo | video | photoVideo | musicFile | file | voiceFile | link | chatPhoto
  | roundVoiceFile | gif | roundFile | pinned
  deriving DecidableEq

namespace MediaKind

/-- All lists, in their fixed order. -/
def all : List MediaKind :=
  [photo, video, photoVideo, musicFile, file, voiceFile, link, chatPhoto, roundVoiceFile, gif,
    roundFile, pinned]

/-- The name by which a configuration mentions a list. -/
def name : MediaKind → String
  | photo => "photo"
  | video => "video"
  | photoVideo => "photo_video"
  | musicFile => "music_file"
  | file => "file"
  | voiceFile => "voice_file"
  | link => "link"
  | chatPhoto => "chat_photo"
  | roundVoiceFile => "round_voice_file"
  | gif => "gif"
  | roundFile => "round_file"
  | pinned => "pinned"

def ofName? (s : String) : Option MediaKind := all.find? fun k => k.name = s

theorem mem_all (k : MediaKind) : k ∈ all := by cases k <;> decide

theorem ofName?_name (k : MediaKind) : ofName? k.name = some k := by cases k <;> decide

end MediaKind

/-- What is attached to a message. -/
inductive Attachment
  | photo | video | gif | file | music | voice | roundVideo | webPage | chatPhoto
  | poll (id : PollId)
  deriving DecidableEq

namespace Attachment

def poll? : Attachment → Option PollId
  | poll id => some id
  | _ => none

def lists : Attachment → List MediaKind
  | photo => [.photo, .photoVideo]
  | video => [.video, .photoVideo]
  | gif => [.gif]
  | file => [.file]
  | music => [.musicFile]
  | voice => [.voiceFile, .roundVoiceFile]
  | roundVideo => [.roundFile, .roundVoiceFile]
  | webPage => [.link]
  | chatPhoto => [.chatPhoto]
  | poll _ => []

end Attachment

/-- A message. One that is scheduled waits for its delivery and is in no history yet. -/
structure Message where
  id : FullId
  text : String := ""
  attachment : Option Attachment := none
  scheduled : Bool := false
  pinned : Bool := false
  deriving DecidableEq

/-- The shared media lists that show a message: those of its attachment, then the pinned one. -/
def Message.lists (m : Message) : List MediaKind :=
  (m.attachment.map Attachment.lists).getD [] ++ if m.pinned then [.pinned] else []

def Message.poll? (m : Message) : Option PollId := m.attachment.bind Attachment.poll?

/-- A poll with its question. -/
structure Poll where
  id : PollId
  question : String
  deriving DecidableEq

end PeerPanel
