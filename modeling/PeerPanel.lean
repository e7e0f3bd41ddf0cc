import PeerPanel.Config.Directory
import PeerPanel.Desk.Clock
import PeerPanel.Proofs.Signal.Feed
import PeerPanel.Proofs.FileTree
import PeerPanel.Proofs.Account.History
import PeerPanel.Proofs.Account.MergedTimeline
import PeerPanel.Proofs.Account.Notices
import PeerPanel.Proofs.Account.Viewing
import PeerPanel.Proofs.Account.ListViews
import PeerPanel.Proofs.Search.Finder
import PeerPanel.Proofs.Search.Pending
import PeerPanel.Proofs.Search.Automaton
import PeerPanel.Proofs.Panel.Parts
import PeerPanel.Proofs.Panel.Scene
import PeerPanel.Proofs.Panel.RoundTrip
import PeerPanel.Proofs.Search.Scene
import PeerPanel.Proofs.Search.HitViews
import PeerPanel.Proofs.Search.FieldEdits
import PeerPanel.Proofs.Account.PeerReading
import PeerPanel.Proofs.Desk.Places
import PeerPanel.Proofs.Desk.Tasks
import PeerPanel.Proofs.Desk.Moves
import PeerPanel.Proofs.Desk.Watching
import PeerPanel.Proofs.Desk.Migrations
import PeerPanel.Proofs.Desk.Background
import PeerPanel.Proofs.Panel.Admission
import PeerPanel.Proofs.Panel.Switching
import PeerPanel.Proofs.Desk.Calls
import PeerPanel.Proofs.Desk.Reopenings
import PeerPanel.Proofs.Account.Separation
import PeerPanel.Proofs.Account.LinkNotices
import PeerPanel.Proofs.Account.MutualLinks
import PeerPanel.Proofs.Toml.Quoted
import PeerPanel.Proofs.Toml.Scalar
import PeerPanel.Proofs.Toml.Statement
import PeerPanel.Proofs.Config.RoundTrip
import PeerPanel.Proofs.Config.Saves
import PeerPanel.Proofs.Text.Lowercase
import PeerPanel.Proofs.Account.TextSearch
import PeerPanel.Proofs.Search.Results
import PeerPanel.Proofs.Transfers.Calls
import PeerPanel.Proofs.Transfers.Views
import PeerPanel.Proofs.Transfers.Unfinished
import PeerPanel.Proofs.Window.Cut
import PeerPanel.Proofs.Account.OneWayLinks
import PeerPanel.Proofs.Desk.Settling
import PeerPanel.Proofs.Panel.Anchors
import PeerPanel.Proofs.Window.Nearest
import PeerPanel.Proofs.Panel.MediaViews
import PeerPanel.Proofs.Account.Origins
import PeerPanel.Proofs.Account.Subscribers
import PeerPanel.Proofs.Lifetime
import PeerPanel.Proofs.Panel.Sections
import PeerPanel.Proofs.Search.Remembered
import PeerPanel.Proofs.Desk.Followers
import PeerPanel.Proofs.Desk.Finishing
