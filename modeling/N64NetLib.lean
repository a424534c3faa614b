import N64NetLib.Lib.Run
import N64NetLib.Lib.BigEndian
import N64NetLib.Lib.Memory
import N64NetLib.Lib.Utf8
import N64NetLib.Packet.Sequence
import N64NetLib.Packet.Basic
import N64NetLib.Packet.Java
import N64NetLib.Packet.Cpp
import N64NetLib.Packet.WireFormat
import N64NetLib.Udp.Handler
import N64NetLib.Udp.Bounds
import N64NetLib.Udp.Resend
import N64NetLib.Udp.Network
import N64NetLib.Udp.Loss
import N64NetLib.Udp.Duplicates
import N64NetLib.Client.ServerConnection
import N64NetLib.N64.WriteBuffer
import N64NetLib.Realtime.Routing
import N64NetLib.Master.Dispatch
import N64NetLib.Master.Download
import N64NetLib.Client.ServerTrip
import N64NetLib.Master.Transfer
import N64NetLib.Client.RomPath
import N64NetLib.Client.Downloads
import N64NetLib.Client.Exceptions
import N64NetLib.Master.Registry
import N64NetLib.Udp.Discipline
import N64NetLib.Udp.AckFields
import N64NetLib.Udp.SendFailure
import N64NetLib.Udp.JavaBounds
import N64NetLib.GameServer.MasterConnection
import N64NetLib.GameServer.ClientConnection
import N64NetLib.TicTacToe.Game
import N64NetLib.N64.Dispatch
import N64NetLib.Client.RomHash
import N64NetLib.Client.Sha256
import N64NetLib.Master.RomReply
import N64NetLib.TicTacToe.Referee
import N64NetLib.N64.Callbacks
import N64NetLib.Realtime.Inputs
import N64NetLib.N64.Connection
import N64NetLib.Udp.GivenUp
import N64NetLib.GameServer.WaitAck
import N64NetLib.Lib.Serial
import N64NetLib.Udp.Newest
import N64NetLib.Lib.Blocks
import N64NetLib.Lib.Separation
import N64NetLib.Realtime.DataStructs
import N64NetLib.Realtime.InputBuffers
import N64NetLib.Realtime.Objects
import N64NetLib.N64.UsbWrite
import N64NetLib.N64.UsbStream
import N64NetLib.Realtime.Updates
import N64NetLib.Realtime.Replication
import N64NetLib.Realtime.Timeline
import N64NetLib.Realtime.Journey
