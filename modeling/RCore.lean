import RCore.Foundation.LittleEndian
import RCore.Foundation.FirstMin
import RCore.Foundation.StateExcept
import RCore.Foundation.Triple
import RCore.Foundation.KeyedList
import RCore.Foundation.SortedMap
import RCore.Foundation.Utf8
import RCore.Foundation.Simulation
import RCore.Foundation.Trace
import RCore.Foundation.Raises
import RCore.Foundation.Scatter
import RCore.Config
import RCore.Mm.Address
import RCore.Mm.FrameAllocator
import RCore.Mm.PageTable
import RCore.Mm.PageTableMap
import RCore.Mm.PageTableSpec
import RCore.Mm.PageTableRun
import RCore.Mm.MemorySet
import RCore.Task.Manager
import RCore.Task.Stride
import RCore.Task.StrideFifo
import RCore.Mm.MemorySetSpec
import RCore.Mm.MemorySetInv
import RCore.Mm.KernelSpace
import RCore.Task.Processor
import RCore.Mm.ElfLoad
import RCore.Mm.UserBuffer
import RCore.Mm.Raises
import RCore.Boot.LinkApp
import RCore.Boot.Loader
import RCore.Syscall.Fs
import RCore.Syscall.Process
import RCore.User.Console
import RCore.EasyFs.BlockDevice
import RCore.EasyFs.Bitmap
import RCore.EasyFs.BitmapSpec
import RCore.EasyFs.Layout
import RCore.EasyFs.Efs
import RCore.EasyFs.DiskInode
import RCore.EasyFs.BlockCache
import RCore.EasyFs.DiskInodeSize
import RCore.EasyFs.DiskInodeBytes
import RCore.EasyFs.DiskInodeGrow
import RCore.Task.Pid
import RCore.Task.Control
import RCore.Task.ControlSpec
import RCore.Task.Trap
import RCore.Task.Table
import RCore.Task.TableInv
import RCore.Task.TableMoves
import RCore.Task.TableRefine
import RCore.Task.Safety
import RCore.Task.TableReports
import RCore.Task.SchedulerRefine
import RCore.EasyFs.DirEntry
import RCore.EasyFs.DiskInodeRecord
import RCore.EasyFs.Vfs
import RCore.EasyFs.VfsCreate
