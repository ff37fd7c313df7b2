import CS162.Threads.MonitorSignals
import CS162.Threads.RwLockProgress
import CS162.Threads.PallocSafety
import CS162.Threads.MallocGuarantee
import CS162.Foundation.Ownership
import CS162.Filesys.Handles
import CS162.Filesys.FilesysStart
import CS162.Filesys.FilesysRuns
import CS162.Filesys.DirectoryMap
import CS162.Filesys.DirectoryMemory
import CS162.Kernel.ListSequences
import CS162.Kernel.ListOrdering
import CS162.Kernel.HashIteration
import CS162.Kernel.HashSet
import CS162.HwList.Pwords
import CS162.Foundation.Queues
import CS162.Threads.SchedulerRuns
import CS162.Devices.Rtc
import CS162.Devices.Serial
import CS162.Kernel.Console
import CS162.Devices.Ide
import CS162.Devices.PartitionTables
import CS162.Lib.Ustar
import CS162.Lib.UstarNames
import CS162.Lib.UstarOctal
import CS162.Userprog.ElfImage
import CS162.Utils.DiskReaders
import CS162.Userprog.UserSafety
import CS162.Lib.Arithmetic
import CS162.Threads.FixedPoint
import CS162.Threads.MallocSizes
import CS162.Kernel.ListUnique
import CS162.Lib.Stdlib
import CS162.Utils.ScratchArchive
import CS162.Lib.Atoi
import CS162.Lib.PrintfSinks
import CS162.Filesys.OpenSafety
import CS162.HwShell.Shell
import CS162.HwShell.Parsing
import CS162.HwShell.DescriptorLeaks
import CS162.HwShell.JobControl
import CS162.HwShell.LineSafety
import CS162.HwShell.LongLines
import CS162.HwShell.Wiring
import CS162.HwShell.Launching
import CS162.HwShell.Stages
import CS162.Lib.String
import CS162.Lib.Strtok
import CS162.Threads.ArgumentArea
import CS162.Threads.CommandLine
import CS162.Threads.Options
import CS162.Utils.ScratchPartition
import CS162.Utils.Geometry
import CS162.Threads.LoaderRead
import CS162.Threads.LoaderScan
import CS162.Words.Frequencies
import CS162.Words.TotalCount
import CS162.Threads.TimeSlices
import CS162.Threads.IntrStubs
import CS162.Threads.Switch
import CS162.Userprog.ManyDirectories
import CS162.Userprog.Start
import CS162.Userprog.UserRing
import CS162.Devices.Vga
