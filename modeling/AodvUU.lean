import AodvUU.ActiveCount
import AodvUU.OwnSeqno
import AodvUU.UntestedNumbers
import AodvUU.RouteChannels
import AodvUU.Isolation
import AodvUU.RerrWire
import AodvUU.NextHops
import AodvUU.PacketRelease
import AodvUU.SelfRoute
import AodvUU.LinkLessons
import AodvUU.HopLimit
import AodvUU.PathCosts
import AodvUU.Handshake
import AodvUU.RateLimit
import AodvUU.PacketQueue
import AodvUU.HelloWire
import AodvUU.LocalRepairWire
import AodvUU.NeighborBounds
import AodvUU.NeighborRecords
import AodvUU.HelloWindow
import AodvUU.LinkCosts
import AodvUU.Interfaces
import AodvUU.LoopFree
import AodvUU.Unreachable
import AodvUU.Retries
import AodvUU.Updates
import AodvUU.Repair
import AodvUU.LrReplies
import AodvUU.LrAnswers
import AodvUU.LrErrors
import AodvUU.Lib.SlotBuffer
import AodvUU.CostReplies
import AodvUU.SendBuffer
import AodvUU.Lib.CheapestOffer
import AodvUU.RequestLists
import AodvUU.Floods
import AodvUU.LrLoops
import AodvUU.NeighborChange
import AodvUU.ChannelSnr
import AodvUU.HelloScan
import AodvUU.RouteRefresh
import AodvUU.Verdicts
import AodvUU.Wraparound
import AodvUU.ConsecutiveHellos
import AodvUU.Lifetimes
import AodvUU.ReportBuffer
import AodvUU.MacAttempts
import AodvUU.MacDelivery
import AodvUU.MacSafety
import AodvUU.MacReserve
import AodvUU.MacHandshake
import AodvUU.MacBackoff
