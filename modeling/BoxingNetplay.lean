import BoxingNetplay.Analysis.Replicas
import BoxingNetplay.Analysis.Reassembly
import BoxingNetplay.Analysis.WireWrites
import BoxingNetplay.Analysis.ImageTransfer
import BoxingNetplay.Analysis.LocalInput
import BoxingNetplay.Analysis.HalfImage
import BoxingNetplay.Analysis.RelayTables
import BoxingNetplay.Analysis.FanOut
import BoxingNetplay.Analysis.FrameLengths
import BoxingNetplay.Analysis.ServerNames
import BoxingNetplay.Analysis.ServerMatches
import BoxingNetplay.Library.Delay
import BoxingNetplay.Library.History
import BoxingNetplay.Analysis.WatermarkLaw
import BoxingNetplay.Analysis.StreamCuts
import BoxingNetplay.Analysis.MailboxReplies
import BoxingNetplay.Analysis.HostPush
import BoxingNetplay.Analysis.ImageCommit
import BoxingNetplay.Analysis.PairComparator
import BoxingNetplay.Analysis.GateInputs
import BoxingNetplay.Analysis.MatchStart
import BoxingNetplay.Analysis.Frozen
import BoxingNetplay.Analysis.Survivors
import BoxingNetplay.Analysis.LobbyUpdates
import BoxingNetplay.Analysis.LobbySpacing
import BoxingNetplay.Analysis.LobbyBody
import BoxingNetplay.Analysis.RngIsolation
import BoxingNetplay.Analysis.StallBounds
import BoxingNetplay.Analysis.TableInstalls
import BoxingNetplay.Analysis.ConnectionTags
import BoxingNetplay.Analysis.LobbyMenu
import BoxingNetplay.Analysis.KeyPairs
import BoxingNetplay.Analysis.Checksums
import BoxingNetplay.Analysis.CaptureSlots
