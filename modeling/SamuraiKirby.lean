import SamuraiKirby.Network.GameplayLines
import SamuraiKirby.Network.Outbound
import SamuraiKirby.Messages.Callbacks
import SamuraiKirby.Messages.NetworkMessageBroker
import SamuraiKirby.Network.ClientSocket
import SamuraiKirby.Network.Server
import SamuraiKirby.Room.Polling
import SamuraiKirby.Network.ActionFormat
import SamuraiKirby.Room.Consent
import SamuraiKirby.Room.EarlyPress
import SamuraiKirby.Room.Results
import SamuraiKirby.Room.Timers
import SamuraiKirby.Room.LobbyView
import SamuraiKirby.Transition.Monitor
import SamuraiKirby.Room.Protocol
import SamuraiKirby.Room.Verdict
import SamuraiKirby.Gameplay.Subscriptions
import SamuraiKirby.Gameplay.Roster
import SamuraiKirby.Gameplay.Disconnection
import SamuraiKirby.Gameplay.Batching
import SamuraiKirby.Gameplay.Matchmaking
import SamuraiKirby.Network.Segmentation
import SamuraiKirby.Room.Isolation
import SamuraiKirby.Room.FirstPress
import SamuraiKirby.Transition.Parts
import SamuraiKirby.Gameplay.Rooms
import SamuraiKirby.Network.Sockets
import SamuraiKirby.Network.Passes
import SamuraiKirby.Gameplay.Sessions
import SamuraiKirby.Network.Requests
import SamuraiKirby.Coding.Scanning
import SamuraiKirby.Network.Lexer
import SamuraiKirby.Network.Parser
import SamuraiKirby.Network.RoundTrip
import SamuraiKirby.Gameplay.Provenance
import SamuraiKirby.Network.Presses
import SamuraiKirby.Network.Wire
import SamuraiKirby.Coding.Quoting
import SamuraiKirby.Network.Words
import SamuraiKirby.Network.Brackets
import SamuraiKirby.Network.Grammar
import SamuraiKirby.Room.Progress
