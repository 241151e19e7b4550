import Campix.Lib.Tiling
import Campix.Lib.Dyadic
import Campix.Lib.Chain
import Campix.Lib.Word
import Campix.Lib.Slice
import Campix.Lib.Blocks
import Campix.Lib.Ring
import Campix.Lib.Run
import Campix.Lib.Fallible
import Campix.Lib.Outcome
import Campix.Lib.TableTree
import Campix.Lib.Bytes
import Campix.Lib.Caching
import Campix.Lib.Checked
import Campix.Lib.Fields
import Campix.Lib.FirstFit
import Campix.Lib.Folds
import Campix.Lib.OpenFile
import Campix.Lib.Search
import Campix.Lib.Service
import Campix.Lib.Trie
import Campix.Boot.Checksum
import Campix.Memory.BuddyAlloc
import Campix.Memory.BuddyInvariant
import Campix.Memory.BuddyRuns
import Campix.Memory.BuddyCoalescing
import Campix.Memory.HeapRuns
import Campix.Memory.ExtendedBuddy
import Campix.Paging.PageTable
import Campix.Paging.Entry
import Campix.Paging.Walk
import Campix.Paging.AddressMap
import Campix.Paging.AddressSpace
import Campix.Paging.Runs
import Campix.Paging.Iter
import Campix.Paging.Iteration
import Campix.Paging.Ownership
import Campix.Paging.EntryWords
import Campix.Paging.LowerHalf
import Campix.Paging.MapMemory
import Campix.Paging.NewSpaces
import Campix.Paging.SimplePages
import Campix.Paging.Teardown
import Campix.Drivers.Vfs
import Campix.Drivers.Window
import Campix.Drivers.Handles
import Campix.Drivers.Pata
import Campix.Drivers.PataRuns
import Campix.Drivers.ByteAccess
import Campix.Drivers.FileDriver
import Campix.Drivers.FrameAccess
import Campix.Drivers.Keyboard
import Campix.Drivers.Listing
import Campix.Drivers.MountSearch
import Campix.Drivers.MountTree
import Campix.Drivers.Mounting
import Campix.Drivers.OpenModes
import Campix.Drivers.Partitions
import Campix.Drivers.PataCoherence
import Campix.Drivers.PathParts
import Campix.Drivers.Paths
import Campix.Drivers.Resolution
import Campix.Drivers.Vga
import Campix.Pipes.Pipe
import Campix.Pipes.PipeFs
import Campix.Pipes.Lifetimes
import Campix.Pipes.PipeListing
import Campix.Process.Memory
import Campix.Process.Scheduler
import Campix.Process.Preemption
import Campix.Process.DescriptorNumbers
import Campix.Process.FileTable
import Campix.Process.Liveness
import Campix.Process.PageFaults
import Campix.Process.RoundRobin
import Campix.Process.SyscallReturn
import Campix.Syscall.UserMemory
import Campix.Syscall.Pointers
import Campix.Syscall.CStrings
import Campix.Syscall.Descriptors
import Campix.Syscall.FailedCalls
import Campix.Syscall.Io
import Campix.Syscall.UserBuffers
import Campix.Formats.Elf
import Campix.Formats.CreateProcess
import Campix.Formats.Loading
import Campix.Formats.BuiltStack
import Campix.Formats.Image
import Campix.Formats.SegmentBuffers
import Campix.Formats.SegmentPages
import Campix.Formats.StackLayout
import Campix.Formats.TablesInOrder
import Campix.Ext2.Volume
import Campix.Ext2.Inode
import Campix.Ext2.Location
import Campix.Ext2.Growth
import Campix.Ext2.FileHandle
import Campix.Ext2.Numbering
import Campix.Ext2.Contents
import Campix.Ext2.Path
import Campix.Ext2.Reads
import Campix.Ext2.ReadRuns
import Campix.Ext2.AlignedScans
import Campix.Ext2.Allocators
import Campix.Ext2.AppendedBlocks
import Campix.Ext2.Appending
import Campix.Ext2.BackupGroups
import Campix.Ext2.BitNumbers
import Campix.Ext2.BitmapBlocks
import Campix.Ext2.Bitmaps
import Campix.Ext2.BlockCache
import Campix.Ext2.Catalogue
import Campix.Ext2.ClippedWrites
import Campix.Ext2.Deletions
import Campix.Ext2.DescriptorTable
import Campix.Ext2.Directory
import Campix.Ext2.DirectoryEnds
import Campix.Ext2.DirectoryRuns
import Campix.Ext2.DirectorySlots
import Campix.Ext2.FailedGrowth
import Campix.Ext2.FileNames
import Campix.Ext2.FileSessions
import Campix.Ext2.FileTree
import Campix.Ext2.FreeInodes
import Campix.Ext2.FreeSpace
import Campix.Ext2.FreeSpaceRuns
import Campix.Ext2.FreshBlocks
import Campix.Ext2.Geometry
import Campix.Ext2.GroupRanges
import Campix.Ext2.GrownFiles
import Campix.Ext2.GrowthRuns
import Campix.Ext2.HandOuts
import Campix.Ext2.InodeRecords
import Campix.Ext2.InodeUpdates
import Campix.Ext2.Insertions
import Campix.Ext2.Listing
import Campix.Ext2.LostInodes
import Campix.Ext2.LostWays
import Campix.Ext2.Marks
import Campix.Ext2.Mount
import Campix.Ext2.Namespace
import Campix.Ext2.NamespaceCalls
import Campix.Ext2.NamespaceRuns
import Campix.Ext2.NamespaceSteps
import Campix.Ext2.NextBlock
import Campix.Ext2.OpenHandles
import Campix.Ext2.PointerTree
import Campix.Ext2.RawInodes
import Campix.Ext2.Records
import Campix.Ext2.ResizedFiles
import Campix.Ext2.Resizing
import Campix.Ext2.Rewrites
import Campix.Ext2.SeekTargets
import Campix.Ext2.SparseFiles
import Campix.Ext2.StoredFiles
import Campix.Ext2.StrayTables
import Campix.Ext2.Upkeep
import Campix.Ext2.Walks
import Campix.Ext2.Ways
import Campix.Ext2.Writes
import Campix.Ext2.WrittenBack
import Campix.Log
