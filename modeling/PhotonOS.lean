import PhotonOS.Access.UserPointers
import PhotonOS.Access.WriteProtection
import PhotonOS.Bcache.Durability
import PhotonOS.Exec.FailedExec
import PhotonOS.Exec.StackLayout
import PhotonOS.Exec.WxorX
import PhotonOS.Ext2.DirectoryNames
import PhotonOS.Ext2.Mount
import PhotonOS.Fat16.Geometry
import PhotonOS.Files.RefCounts
import PhotonOS.Heap.DoubleFree
import PhotonOS.Net.ArpCache
import PhotonOS.Net.RawSockets
import PhotonOS.Net.StaleBytes
import PhotonOS.NetLocks.Discipline
import PhotonOS.Pipe.Fifo
import PhotonOS.Sched.ProcessTable
import PhotonOS.Sched.Stopping
import PhotonOS.Sched.Waitpid
import PhotonOS.Signal.Dispositions
import PhotonOS.Signal.ForkInHandler
import PhotonOS.Signal.Supervisor
import PhotonOS.TableLock.Safety
import PhotonOS.Tcp.AfterFin
import PhotonOS.Tcp.ChecksumRoundTrip
import PhotonOS.Tcp.DrainWindows
import PhotonOS.Tcp.HandshakeAgreement
import PhotonOS.Tcp.ListenerDestroy
import PhotonOS.Tcp.LookupOrder
import PhotonOS.Tcp.OrderlyClose
import PhotonOS.Tcp.PortExclusivity
import PhotonOS.Tcp.ReceiveRing
import PhotonOS.Tcp.ReceiveWindow
import PhotonOS.Tcp.ResetStays
import PhotonOS.Tcp.Retransmission
import PhotonOS.Tcp.StreamSafety
import PhotonOS.Tcp.UnsentAck
import PhotonOS.Udp.Checksum
import PhotonOS.Vfs.Chdir
import PhotonOS.Vfs.Flock
import PhotonOS.Vmm.Isolation
