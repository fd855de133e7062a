import AsioTcp.FrameErrors
import AsioTcp.PoolReuse
import AsioTcp.AcceptChain
import AsioTcp.MessageLeaks
import AsioTcp.StaleReads
import AsioTcp.ReadLoop
import AsioTcp.ConnectionLimit
import AsioTcp.ClientIds
import AsioTcp.FirstRun
import AsioTcp.StopServer
import AsioTcp.AcceptRearm
import AsioTcp.Locks
import AsioTcp.ClearBuffer
import AsioTcp.LeftSession
import AsioTcp.EchoRounds
import AsioTcp.Broadcast
import AsioTcp.MessageMemory
import AsioTcp.StopClients
import AsioTcp.CallLines
import AsioTcp.StringFormat
import AsioTcp.Wrapper.EchoLink
import AsioTcp.Wrapper.ServerBase
import AsioTcp.Wrapper.Connector
import AsioTcp.Wrapper.UdpSocket
