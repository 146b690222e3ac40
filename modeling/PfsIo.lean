import PfsIo.Library.Machine
import PfsIo.Library.Loop
import PfsIo.Library.Transfer
import PfsIo.Library.Tally
import PfsIo.Library.Ledger
import PfsIo.Library.Patch
import PfsIo.Library.Decimal
import PfsIo.Library.Custody
import PfsIo.Library.Simulation
import PfsIo.Model.Memory
import PfsIo.Model.ErrorCode
import PfsIo.Model.Kernel
import PfsIo.Model.UnixFile
import PfsIo.Model.UnixSocket
import PfsIo.Model.InetSocket
import PfsIo.Model.Objects
import PfsIo.Model.Buffer
import PfsIo.Model.NetDevice
import PfsIo.Model.Status
import PfsIo.Stream.SendLoop
import PfsIo.Stream.Accounting
import PfsIo.Stream.Link
import PfsIo.Stream.Returns
import PfsIo.Stream.Receive
import PfsIo.Stream.BufferStream
import PfsIo.Stream.BufferCapacity
import PfsIo.Stream.BufferPending
import PfsIo.Stream.BufferPool
import PfsIo.Inet.AddressLoop
import PfsIo.Inet.Failover
import PfsIo.Inet.ServerEnd
import PfsIo.Inet.Descriptors
import PfsIo.Inet.Servers
import PfsIo.Inet.Nonblocking
import PfsIo.Inet.Address
import PfsIo.Local.Open
import PfsIo.Local.Server
import PfsIo.Local.Names
import PfsIo.NetDevice.Mtu
import PfsIo.Objects.EntryError
import PfsIo.Objects.World
import PfsIo.Objects.Ownership
import PfsIo.Objects.Leaks
import PfsIo.Objects.Destination
import PfsIo.Objects.Factories
import PfsIo.Objects.Program
import PfsIo.Objects.OpenMode
import PfsIo.Objects.Unwrapped
import PfsIo.Datagram.Write
import PfsIo.Datagram.Drain
import PfsIo.Datagram.Reply
import PfsIo.Files.Disk
import PfsIo.Files.RoundTrip
import PfsIo.Files.Filing
import PfsIo.Network.Net
import PfsIo.Network.Exchange
import PfsIo.Network.Mail
import PfsIo.Network.Post
