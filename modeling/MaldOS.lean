import MaldOS.Library.ByteMemory
import MaldOS.Library.Words
import MaldOS.Arch
import MaldOS.Library.DeadlineMap
import MaldOS.Library.LinkedRing
import MaldOS.Timers.EmulatedTimers
import MaldOS.Timers.QueueRefinement
import MaldOS.Timers.TimerQueue
import MaldOS.Library.Extents
import MaldOS.Hal.Fat
import MaldOS.Hal.FatChain
import MaldOS.Hal.FatTransfer
import MaldOS.Hal.FatRead
import MaldOS.Hal.FatWrite
import MaldOS.Emulated.Registers
import MaldOS.Library.Runs
import MaldOS.Hal.ArmTimers
import MaldOS.Emulated.System
import MaldOS.Emulated.Tapes
import MaldOS.Emulated.Disks
import MaldOS.Emulated.Printers
import MaldOS.Emulated.Handlers
import MaldOS.Emulated.Reachable
import MaldOS.Emulated.InFlight
import MaldOS.Emulated.CarriedOut
import MaldOS.Emulated.Answers
import MaldOS.Emulated.Deadlines
import MaldOS.Emulated.CardKept
import MaldOS.Emulated.Blocks
import MaldOS.Library.Aarch64
import MaldOS.Exceptions.Asmlib
import MaldOS.Exceptions.Vectors
import MaldOS.Exceptions.Loading
import MaldOS.Exceptions.OldArea
import MaldOS.Exceptions.Resume
import MaldOS.Exceptions.Dispatch
import MaldOS.Exceptions.Frames
import MaldOS.Exceptions.El2Stack
import MaldOS.Exceptions.Image
import MaldOS.Exceptions.Fiq
import MaldOS.Emulated.Lines
import MaldOS.Emulated.Announced
import MaldOS.Emulated.Waiting
import MaldOS.Emulated.Apart
import MaldOS.Emulated.Installed
import MaldOS.Emulated.Interference
import MaldOS.Emulated.Geometry
import MaldOS.Emulated.Terminals
import MaldOS.Emulated.Divisions
import MaldOS.Emulated.Cancelled
import MaldOS.Emulated.Invocations
import MaldOS.Emulated.Wakeups
import MaldOS.Emulated.TimerLine
import MaldOS.Emulated.Addresses
import MaldOS.Emulated.TapeFiles
import MaldOS.Emulated.TapeOrder
import MaldOS.Hal.FatBuffers
import MaldOS.Hal.FatDivisions
import MaldOS.Hal.FatCache
import MaldOS.Hal.FatDirectory
import MaldOS.Cores.WaitLock
import MaldOS.Cores.SpinSlots
import MaldOS.Cores.Messages
import MaldOS.Emulated.Drained
import MaldOS.Emulated.TimeOfDay
import MaldOS.Emulated.Offsets
import MaldOS.Emulated.Delays
import MaldOS.Emulated.OwnTimer
import MaldOS.Emulated.ReadingOrder
import MaldOS.Emulated.TapeHeads
import MaldOS.Emulated.Headers
import MaldOS.Emulated.DiskReport
import MaldOS.Mmu.PageTables
import MaldOS.Hal.FatFiles
import MaldOS.Hal.FatWalk
import MaldOS.Hal.FatWindow
import MaldOS.Library.Texts
import MaldOS.Library.Numerals
import MaldOS.Library.Vmsa
import MaldOS.Utils.Strings
import MaldOS.Library.Polling
import MaldOS.Hal.Emmc
import MaldOS.Hal.EmmcCommands
import MaldOS.Hal.EmmcStart
import MaldOS.Hal.EmmcConditions
import MaldOS.Hal.EmmcBlocks
import MaldOS.Hal.EmmcClosing
import MaldOS.Hal.EmmcSectors
import MaldOS.Hal.FatStore
import MaldOS.Hal.FatInside
import MaldOS.Emulated.FilesKept
import MaldOS.Cores.Boot
import MaldOS.Cores.BootCount
import MaldOS.Emulated.TermPuts
import MaldOS.Emulated.TermShown
import MaldOS.Library.Tiles
import MaldOS.Emulated.Screen
import MaldOS.Emulated.Framebuffer
import MaldOS.Hal.MailboxReturns
import MaldOS.Emulated.Punctual
import MaldOS.Utils.Memory
import MaldOS.Hal.Uart
import MaldOS.Hal.UartWire
import MaldOS.Exceptions.Switching
