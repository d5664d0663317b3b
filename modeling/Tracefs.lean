import Tracefs.Bytes.Memory
import Tracefs.Bytes.Word
import Tracefs.Bytes.CString
import Tracefs.Bytes.Layout
import Tracefs.Bytes.Access
import Tracefs.Bytes.Decimal
import Tracefs.Transition
import Tracefs.Ring
import Tracefs.Balance
import Tracefs.Loop
import Tracefs.LinkedList
import Tracefs.ShiftRegister
import Tracefs.WaitQueue
import Tracefs.NameCache.Basic
import Tracefs.NameCache.Mirror
import Tracefs.Record.Structs
import Tracefs.Record.Encoder
import Tracefs.Record.Emission
import Tracefs.Record.Bounds
import Tracefs.Record.Contents
import Tracefs.Record.Stores
import Tracefs.Record.StaleBytes
import Tracefs.Record.Allocation
import Tracefs.Record.Gate
import Tracefs.Record.Pathnames
import Tracefs.Record.RecordId
import Tracefs.Record.UniqueIds
import Tracefs.LogThread.Basic
import Tracefs.LogThread.Shutdown
import Tracefs.LogThread.PageBuffer
import Tracefs.LogThread.Packing
import Tracefs.LogThread.ShortWrites
import Tracefs.LogThread.Refinement
import Tracefs.LogThread.Unmount
import Tracefs.LogThread.Ledger
import Tracefs.MsgQueue.Basic
import Tracefs.MsgQueue.Table
import Tracefs.MsgQueue.Fifo
import Tracefs.MsgQueue.Rings
import Tracefs.MsgQueue.Lookup
import Tracefs.MsgQueue.Delivery
import Tracefs.MsgQueue.Bounds
import Tracefs.MsgQueue.Receivers
import Tracefs.MsgQueue.Waiting
import Tracefs.MsgQueue.SoleReceiver
import Tracefs.Vfs.Dentry
import Tracefs.Vfs.Operations
import Tracefs.Vfs.Mount
import Tracefs.Vfs.Ioctl
import Tracefs.Trctl
import Tracefs.Vfs.Inodes
import Tracefs.Vfs.ReadSuper
import Tracefs.Vfs.ModuleLifetime
import Tracefs.Vfs.Options
import Tracefs.Vfs.Llseek
import Tracefs.Vfs.Steps
import Tracefs.Vfs.Hooks
import Tracefs.Vfs.Coherence
import Tracefs.Vfs.References
import Tracefs.Vfs.Stacking
import Tracefs.Vfs.Mirroring
import Tracefs.Vfs.OpenFiles
import Tracefs.Vfs.Setattr
import Tracefs.Replay.Handlers
import Tracefs.Replay.Omap
import Tracefs.Replay.OmapLifetime
import Tracefs.Replay.Parser
import Tracefs.Replay.Simulation
import Tracefs.Replay.Framing
import Tracefs.Replay.Chunks
import Tracefs.Replay.PageLoop
import Tracefs.Replay.Termination
import Tracefs.Replay.Inspections
import Tracefs.Replay.Dispatch
import Tracefs.Replay.RoundTrip
import Tracefs.Replay.Names
import Tracefs.Replay.Meaning
import Tracefs.Replay.Execution
import Tracefs.Replay.Descriptors
import Tracefs.Replay.Offsets
import Tracefs.Replay.LocalBuffers
import Tracefs.Replay.Reports
import Tracefs.Replay.Host
import Tracefs.Replay.Reproduction
import Tracefs.Replay.Strict
import Tracefs.Replay.Stopping
import Tracefs.Replay.Decoding
import Tracefs.Pipeline
import Tracefs.Crc.Checksum
import Tracefs.Crc.Burst
