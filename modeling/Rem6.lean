import Rem6.Coherence.MoesiRuns
import Rem6.Coherence.Chi
import Rem6.Coherence.LoadLocked
import Rem6.Kernel.Conservative
import Rem6.Kernel.Projection
import Rem6.Kernel.Plans
import Rem6.Kernel.Handles
import Rem6.Kernel.Losses
import Rem6.Cache.Msi
import Rem6.Memory.TlbRuns
import Rem6.Cpu.Translation
import Rem6.Cache.Indexing
import Rem6.Isa.Containment
import Rem6.Cache.Dirty
import Rem6.Interrupt.Plic
import Rem6.Interrupt.Snapshot
import Rem6.Fabric.Capacity
import Rem6.Fabric.Waits
import Rem6.System.Brk
import Rem6.Virtio.Locks
import Rem6.Transport.MessageBuffer
import Rem6.Cache.Forwarding
import Rem6.Isa.Errors
import Rem6.Memory.Offsets
import Rem6.Cache.TreePlru
import Rem6.Cpu.ReturnStack
import Rem6.Fabric.Arbiter
import Rem6.System.Pipe
