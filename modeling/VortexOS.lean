import VortexOS.Arch.EntryTheorems
import VortexOS.Fs.VfsNames
import VortexOS.Dev.NvmeTheorems
import VortexOS.Net.DhcpTheorems
import VortexOS.Net.UdpRoundTrip
import VortexOS.Dev.DeviceTheorems
import VortexOS.Proc.ThreadPool
import VortexOS.Proc.ProcessTable
import VortexOS.Proc.StaleRecord
import VortexOS.Proc.UserPointers
import VortexOS.Dev.PciTheorems
import VortexOS.Mm.PmmAlloc
import VortexOS.Sched.Selection
import VortexOS.Mm.HeapBooks
import VortexOS.Mm.StaleFrames
import VortexOS.Arch.ThreadStart
import VortexOS.Fs.VfsResolve
import VortexOS.Fs.TmpfsBounds
import VortexOS.Fs.DevConsole
import VortexOS.Mm.CowStarved
import VortexOS.Proc.ElfReads
import VortexOS.Net.ArpCache
import VortexOS.Net.Mtu
import VortexOS.Net.Ports
import VortexOS.Net.UdpReads
import VortexOS.Dev.Hpet
import VortexOS.Dev.NvmeBlocks
import VortexOS.Dev.PciCaps
import VortexOS.Net.Tcp
import VortexOS.Mm.PmmPartition
import VortexOS.Dev.Framebuffer
