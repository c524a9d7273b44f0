import KernelHacking.Foundations.Machine
import KernelHacking.Foundations.KernelMemory
import KernelHacking.Foundations.FileOps
import KernelHacking.Foundations.UserLoops
import KernelHacking.Foundations.CString
import KernelHacking.Foundations.Decimal
import KernelHacking.Foundations.Loops
import KernelHacking.Foundations.Resources
import KernelHacking.Foundations.Cyclic
import KernelHacking.Foundations.UserString
import KernelHacking.Foundations.Stride
import KernelHacking.Foundations.RingList
import KernelHacking.Foundations.FileTree
import KernelHacking.Foundations.ShellWords
import KernelHacking.Foundations.WordMemory
import KernelHacking.Foundations.LineMarks
import KernelHacking.Foundations.Tasks
import KernelHacking.CharacterDevice.Driver
import KernelHacking.CharacterDevice.Sessions
import KernelHacking.MemoryDevice.Driver
import KernelHacking.MemoryDevice.Bounds
import KernelHacking.MemoryDevice.AppendLog
import KernelHacking.MemoryDevice.Delivery
import KernelHacking.MemoryDevice.Lifetime
import KernelHacking.MemoryDevice.Transfer
import KernelHacking.MemoryDevice.Faults
import KernelHacking.ParallelPort.Driver
import KernelHacking.ParallelPort.WriteTrace
import KernelHacking.ParallelPort.Region
import KernelHacking.ParallelPort.ReadSession
import KernelHacking.Procfs.Driver
import KernelHacking.Procfs.ContentLaw
import KernelHacking.Procfs.Terminated
import KernelHacking.Procfs.Transfer
import KernelHacking.Procfs.RoundTrip
import KernelHacking.Keyboard.Driver
import KernelHacking.Keyboard.Micro
import KernelHacking.Keyboard.Codec
import KernelHacking.Keyboard.Original
import KernelHacking.Keyboard.Refinement
import KernelHacking.Keyboard.Serio
import KernelHacking.Keyboard.Sentinels
import KernelHacking.SyscallHook.Redirect
import KernelHacking.SyscallHook.Toplel
import KernelHacking.SyscallHook.Module
import KernelHacking.SyscallHook.Sysfs
import KernelHacking.SyscallHook.Concurrent
import KernelHacking.SyscallHook.Overlap
import KernelHacking.SyscallHook.Patch
import KernelHacking.SyscallHook.ThreeHooks
import KernelHacking.SyscallHook.Compose
import KernelHacking.SyscallHook.Basic
import KernelHacking.SyscallHook.Suffix
import KernelHacking.SyscallHook.Unparsable
import KernelHacking.SyscallHook.Search
import KernelHacking.SyscallHook.Transparent
import KernelHacking.UsbHid.Reports
import KernelHacking.UsbHid.Driver
import KernelHacking.UsbHid.Lifecycle
import KernelHacking.UsbHid.Power
import KernelHacking.UsbHid.Delivery
import KernelHacking.Atl1c.Ring
import KernelHacking.Atl1c.Transmit
import KernelHacking.Atl1c.Building
import KernelHacking.Atl1c.Prepare
import KernelHacking.Atl1c.Soundness
import KernelHacking.Atl1c.Interrupt
import KernelHacking.Atl1c.StationAddress
import KernelHacking.Listings.ListHead
import KernelHacking.Listings.Modules
import KernelHacking.Listings.Processes
import KernelHacking.Registers.Capture
import KernelHacking.Minkernel.Lonely
import KernelHacking.Minkernel.Rmtree
import KernelHacking.Atl1c.Delivery
import KernelHacking.Atl1c.Starvation
import KernelHacking.Atl1c.Fragments
import KernelHacking.Atl1c.Lifecycle
import KernelHacking.Atl1c.Polling
import KernelHacking.Atl1c.Ledger
import KernelHacking.Atl1c.Link
import KernelHacking.Atl1c.Settling
import KernelHacking.Foundations.CompareExchange
import KernelHacking.Foundations.Reversal
import KernelHacking.Random.Pool
import KernelHacking.Random.Credit
import KernelHacking.Random.Accounting
import KernelHacking.Random.Timer
