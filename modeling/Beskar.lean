import Beskar.Lib.Transition
import Beskar.Lib.Checked
import Beskar.Arch.Addrs
import Beskar.Kernel.Syscall
import Beskar.Kernel.Scheduler
import Beskar.Kernel.SleepQueues
import Beskar.Core.Sleep
import Beskar.Core.Video
import Beskar.Lib.Slice
import Beskar.Lib.Layout
import Beskar.Lib.OnesComplement
import Beskar.Holonet.Checksum
import Beskar.Holonet.L2
import Beskar.Holonet.L3
import Beskar.Holonet.L4
import Beskar.Hyperdrive.Mcs
import Beskar.Hyperdrive.Mpsc
import Beskar.Hyperdrive.RwLock
import Beskar.Hyperdrive.Mpmc
import Beskar.Lib.Circular
import Beskar.Hyperdrive.Ring
import Beskar.Hyperdrive.Ticket
import Beskar.Hyperdrive.Once
import Beskar.Hyperdrive.ReusableBarrier
import Beskar.Lib.Blocks
import Beskar.Heaperion.Basic
import Beskar.Heaperion.Slab
import Beskar.Heaperion.Buddy
import Beskar.Heaperion.Hybrid
import Beskar.Heaperion.Drain
import Beskar.Lib.TableTree
import Beskar.Paging.Entry
import Beskar.Paging.Range
import Beskar.Paging.PageTable
import Beskar.Paging.Walk
import Beskar.Paging.Mapper
import Beskar.Paging.Recursive
import Beskar.Lib.Fallible
import Beskar.Lib.Utf8
import Beskar.Elf.File
import Beskar.Elf.Loader
import Beskar.Elf.Image
import Beskar.Storage.Vfs
import Beskar.Storage.InMem
import Beskar.Lib.Bits
import Beskar.Storage.Fat.Entry
import Beskar.Storage.Fat.Table
import Beskar.Storage.Fat.Chain
import Beskar.Storage.Fat.File
import Beskar.Storage.Fat.Cursor
import Beskar.Storage.Fat.BootSector
import Beskar.Storage.Fat.Date
import Beskar.Storage.Fat.Dirent
import Beskar.Storage.Fat.Dir
import Beskar.Mem.Ranges
import Beskar.Mem.Covered
import Beskar.Boot.KernelElf
import Beskar.Boot.Phys
import Beskar.Acpi.Madt
import Beskar.Drivers.Nvme
import Beskar.Drivers.Keyboard
import Beskar.Lib.Machine
import Beskar.Drivers.Ps2
import Beskar.Lib.StringBytes
import Beskar.Bashkar.Tty
import Beskar.Hyperdrive.MpmcSequential
import Beskar.Kernel.Threads
import Beskar.Arch.Context
import Beskar.Kernel.ThreadStack
import Beskar.Kernel.Switching
