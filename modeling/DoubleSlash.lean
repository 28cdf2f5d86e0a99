import DoubleSlash.Lib.Machine
import DoubleSlash.Lib.Codec
import DoubleSlash.Lib.Base64
import DoubleSlash.Lib.Text
import DoubleSlash.Lib.Assoc
import DoubleSlash.Lib.Disk
import DoubleSlash.Lib.Run
import DoubleSlash.Protocol.Message
import DoubleSlash.Protocol.JsonValue
import DoubleSlash.Protocol.ReplayGuard
import DoubleSlash.Store.PeerStore
import DoubleSlash.Direct.PeerConnection
import DoubleSlash.Direct.Sessions
import DoubleSlash.Direct.Crossing
import DoubleSlash.Files.Paths
import DoubleSlash.Files.Transfer
import DoubleSlash.Files.Encoding
import DoubleSlash.Files.Outbound
import DoubleSlash.Files.Inbound
import DoubleSlash.Files.Receiver
import DoubleSlash.Files.Link
import DoubleSlash.Manager.State
import DoubleSlash.Manager.Invites
import DoubleSlash.Manager.Files
import DoubleSlash.Manager.Inbound
import DoubleSlash.Manager.DirectLane
import DoubleSlash.Theorems.InviteAdmission
import DoubleSlash.Lemmas.Sessions
import DoubleSlash.Lemmas.Crossing
import DoubleSlash.Theorems.DownloadPaths
import DoubleSlash.Lemmas.Inbound
import DoubleSlash.Lemmas.PartFiles
import DoubleSlash.Lemmas.Encoding
import DoubleSlash.Lemmas.Outbound
import DoubleSlash.Lemmas.Sender
import DoubleSlash.Lemmas.FileMessages
import DoubleSlash.Tls.Der
import DoubleSlash.Tls.Certificate
import DoubleSlash.Theorems.Certificates
import DoubleSlash.Theorems.CrossingDials
import DoubleSlash.Theorems.InviteAccept
import DoubleSlash.Theorems.DirectIdentity
import DoubleSlash.Theorems.TransferOwners
import DoubleSlash.Lib.JsonText
import DoubleSlash.Spaces.Merkle
import DoubleSlash.Spaces.Tree
import DoubleSlash.Lemmas.Merkle
import DoubleSlash.Theorems.SpaceInclusion
import DoubleSlash.Lib.Bytes
import DoubleSlash.Video.Fragment
import DoubleSlash.Lemmas.Fragments
import DoubleSlash.Lemmas.Reassembly
import DoubleSlash.Theorems.FrameRoundTrip
import DoubleSlash.Sfu.Room
import DoubleSlash.Sfu.Invites
import DoubleSlash.Lemmas.Rooms
import DoubleSlash.Lemmas.Spellings
import DoubleSlash.Theorems.RoomMembership
import DoubleSlash.Theorems.RoomSpelling
import DoubleSlash.Cluster.Link
import DoubleSlash.Theorems.ClusterLinks
import DoubleSlash.Lib.SetMap
import DoubleSlash.Relay.Routes
import DoubleSlash.Relay.State
import DoubleSlash.Relay.Server
import DoubleSlash.Lemmas.Relay
import DoubleSlash.Theorems.RelayIndex
import DoubleSlash.Theorems.RelayPlacement
import DoubleSlash.Theorems.RelayTables
import DoubleSlash.Theorems.SessionTable
import DoubleSlash.Calls.DeviceCalls
import DoubleSlash.Calls.Network
import DoubleSlash.Lemmas.DeviceCalls
import DoubleSlash.Theorems.CallSelection
import DoubleSlash.Theorems.CallRelease
import DoubleSlash.Theorems.FrameSplicing
import DoubleSlash.Supernode.SpaceRoots
import DoubleSlash.Supernode.RoomHandlers
import DoubleSlash.Lemmas.RoomHandlers
import DoubleSlash.Theorems.SpaceConvergence
import DoubleSlash.Theorems.RoomRematerialize
import DoubleSlash.Theorems.SpaceAdmission
import DoubleSlash.Theorems.InviteTokens
import DoubleSlash.Sfu.Speakers
import DoubleSlash.Supernode.Frames
import DoubleSlash.Theorems.RoomFrames
import DoubleSlash.Supernode.Wire
import DoubleSlash.Supernode.Signaling
import DoubleSlash.Theorems.SignalingReplay
import DoubleSlash.Lib.Recent
import DoubleSlash.Cluster.Replication
import DoubleSlash.Theorems.ReplicatedFrames
import DoubleSlash.Lib.Keyed
import DoubleSlash.Lib.Versioned
import DoubleSlash.Spaces.Owned
import DoubleSlash.Lemmas.SpaceMerge
import DoubleSlash.Store.RoomStore
import DoubleSlash.Store.OwnSync
import DoubleSlash.Store.Household
import DoubleSlash.Theorems.SpaceSettling
import DoubleSlash.Theorems.SpaceEpochs
import DoubleSlash.Keys.Group
import DoubleSlash.Theorems.GroupEpochs
import DoubleSlash.Theorems.MintedEpochs
import DoubleSlash.Theorems.SealedContent
import DoubleSlash.Theorems.PunchPairs
import DoubleSlash.Theorems.HiddenRooms
import DoubleSlash.Lib.JsonTree
import DoubleSlash.Installer.ReleaseManifest
import DoubleSlash.Installer.State
import DoubleSlash.Installer.Github
import DoubleSlash.Installer.Install
import DoubleSlash.Installer.Extract
import DoubleSlash.Lemmas.Installs
import DoubleSlash.Theorems.SignedReleases
import DoubleSlash.Theorems.Installs
import DoubleSlash.Keys.OwnRounds
import DoubleSlash.Theorems.OwnRounds
import DoubleSlash.Manager.Ws
import DoubleSlash.Theorems.SupernodeLinks
import DoubleSlash.Store.Backup
import DoubleSlash.Lemmas.Backups
import DoubleSlash.Theorems.Backups
import DoubleSlash.Lib.Least
import DoubleSlash.Keys.Election
import DoubleSlash.Lib.Total
import DoubleSlash.Lemmas.SenderStates
import DoubleSlash.Theorems.ReassemblerCounters
import DoubleSlash.Theorems.FramesOnce
import DoubleSlash.Lemmas.Streams
import DoubleSlash.Theorems.StreamRecovery
import DoubleSlash.Supernode.EndpointMailbox
import DoubleSlash.Theorems.EndpointExpiry
import DoubleSlash.Lemmas.RoomOps
import DoubleSlash.Theorems.RoomCollection
import DoubleSlash.Keys.RoomSession
import DoubleSlash.Lemmas.RoomSession
import DoubleSlash.Theorems.RoomLeaves
import DoubleSlash.Lib.Nested
import DoubleSlash.Features.DeviceRoutes
import DoubleSlash.Theorems.DeviceRoutes
import DoubleSlash.Lib.TokenBucket
import DoubleSlash.Features.Quota
import DoubleSlash.Features.ChannelTag
import DoubleSlash.Features.Registry
import DoubleSlash.Theorems.ChannelTags
import DoubleSlash.Lemmas.Quotas
import DoubleSlash.Theorems.Quotas
import DoubleSlash.Theorems.DeltaEncoding
import DoubleSlash.Theorems.Rosters
import DoubleSlash.Theorems.ActiveSpeakers
import DoubleSlash.Lemmas.FileStreams
import DoubleSlash.Theorems.FilePump
import DoubleSlash.Lib.Renaming
import DoubleSlash.Lib.UnixPath
import DoubleSlash.Store.Attachments
import DoubleSlash.Lemmas.Attachments
import DoubleSlash.Theorems.Attachments
import DoubleSlash.Lib.Stretch
import DoubleSlash.Calls.ContentPlayout
import DoubleSlash.Lemmas.Playout
import DoubleSlash.Theorems.ContentPlayout
import DoubleSlash.Supernode.Handshake
import DoubleSlash.Theorems.ReusableInvite
import DoubleSlash.Lib.Offsets
import DoubleSlash.Features.Brand
import DoubleSlash.Lemmas.Brand
import DoubleSlash.Protocol.JsonReader
import DoubleSlash.Manager.RoomLinks
import DoubleSlash.Theorems.RoomInviteLinks
import DoubleSlash.Manager.AcceptInvite
import DoubleSlash.Theorems.SignedLinks
import DoubleSlash.Store.RoomRelearning
import DoubleSlash.Lemmas.Relearning
import DoubleSlash.Theorems.RoomRelearning
import DoubleSlash.Lib.Unique
import DoubleSlash.Store.PeerRecords
import DoubleSlash.Theorems.PeerRecords
import DoubleSlash.Spaces.MerkleWords
import DoubleSlash.Theorems.ProofTermination
import DoubleSlash.Installer.Archives
import DoubleSlash.Theorems.LocalArchives
import DoubleSlash.Video.MediaSync
import DoubleSlash.Theorems.MediaSync
import DoubleSlash.Lib.Table
import DoubleSlash.Store.ChatStore
import DoubleSlash.Theorems.ChatHistory
import DoubleSlash.Theorems.ChatUpkeep
import DoubleSlash.Lib.Ledger
import DoubleSlash.Supernode.PeerQueues
import DoubleSlash.Theorems.PeerQueues
import DoubleSlash.Video.Receiver
import DoubleSlash.Theorems.VideoReceiver
