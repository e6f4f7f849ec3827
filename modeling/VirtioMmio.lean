import VirtioMmio.Bytes.BigEndian
import VirtioMmio.Bytes.Halves
import VirtioMmio.Bytes.Hex
import VirtioMmio.Bytes.LittleEndian
import VirtioMmio.Memory.Rights
import VirtioMmio.Memory.Error
import VirtioMmio.Memory.Store
import VirtioMmio.Memory.Window
import VirtioMmio.Memory.Pointer
import VirtioMmio.Memory.Ram
import VirtioMmio.Vring.Descriptor
import VirtioMmio.Vring.Chain
import VirtioMmio.Vring.Part
import VirtioMmio.Vring.Layout
import VirtioMmio.Dma.Error
import VirtioMmio.Dma.Mapping
import VirtioMmio.Dma.Table
import VirtioMmio.Dma.Space
import VirtioMmio.Interrupt.Causes
import VirtioMmio.Interrupt.Line
import VirtioMmio.Queue.Error
import VirtioMmio.Queue.Mask
import VirtioMmio.Queue.Registers
import VirtioMmio.Queue.Virtqueue
import VirtioMmio.Queue.Transfer
import VirtioMmio.Wakeup.Semaphore
import VirtioMmio.Wakeup.Doorbell
import VirtioMmio.Board.Slot
import VirtioMmio.DeviceTree.Error
import VirtioMmio.DeviceTree.Reader
import VirtioMmio.DeviceTree.Slots
import VirtioMmio.DeviceTree.Format
import VirtioMmio.DeviceTree.Flat.Token
import VirtioMmio.DeviceTree.Flat.Reader
import VirtioMmio.Config.Error
import VirtioMmio.Config.Status
import VirtioMmio.Config.Block
import VirtioMmio.Config.State
import VirtioMmio.Backend.Call
import VirtioMmio.Backend.Connection
import VirtioMmio.Backend.Session
import VirtioMmio.Machine.Basic
import VirtioMmio.Machine.Operations
import VirtioMmio.Transport.Error
import VirtioMmio.Transport.Events
import VirtioMmio.Transport.Register
import VirtioMmio.Transport.Basic
import VirtioMmio.Device.Profile
import VirtioMmio.Device.Basic
import VirtioMmio.Device.Iommu
import VirtioMmio.Kind.Block
import VirtioMmio.Kind.Console
import VirtioMmio.Kind.Net
import VirtioMmio.Kind.Socket
import VirtioMmio.Kind.Basic
import VirtioMmio.Device.Setup
import VirtioMmio.Proofs.Memory.Regions
import VirtioMmio.Proofs.Memory.Order
import VirtioMmio.Proofs.Memory.Operations
import VirtioMmio.Proofs.Memory.Views
import VirtioMmio.Proofs.Memory.Banks
import VirtioMmio.Proofs.Memory.Flat
import VirtioMmio.Proofs.Dma.Reach
import VirtioMmio.Proofs.Dma.Windows
import VirtioMmio.Proofs.Dma.Balance
import VirtioMmio.Proofs.Queue.Programming
import VirtioMmio.Proofs.Queue.Rings
import VirtioMmio.Proofs.Queue.Placement
import VirtioMmio.Proofs.Queue.Paths
import VirtioMmio.Proofs.Queue.Chains
import VirtioMmio.Proofs.Queue.Tables
import VirtioMmio.Proofs.Queue.Available
import VirtioMmio.Proofs.Queue.Used
import VirtioMmio.Proofs.Queue.Traffic
import VirtioMmio.Proofs.Queue.Returns
import VirtioMmio.Proofs.Dma.Footprint
import VirtioMmio.Proofs.Queue.Footprint
import VirtioMmio.Proofs.Queue.Order
import VirtioMmio.Proofs.Machine.Requests
import VirtioMmio.Proofs.Machine.Failure
import VirtioMmio.Proofs.Queue.Buffers
import VirtioMmio.Proofs.Queue.Gather
import VirtioMmio.Proofs.Queue.Scatter
import VirtioMmio.Proofs.Queue.Backing
import VirtioMmio.Proofs.Queue.Independence
import VirtioMmio.Proofs.Queue.Scripts
import VirtioMmio.Proofs.Queue.Bounds
import VirtioMmio.Proofs.Queue.Cycles
import VirtioMmio.Proofs.Machine.Retirement
import VirtioMmio.Proofs.Device.Dealings
import VirtioMmio.Proofs.Device.Runs
import VirtioMmio.Proofs.Config.Progress
import VirtioMmio.Proofs.Config.Handshake
import VirtioMmio.Proofs.Config.Generation
import VirtioMmio.Proofs.Config.Bytes
import VirtioMmio.Proofs.Device.Aside
import VirtioMmio.Proofs.Device.Confinement
import VirtioMmio.Proofs.Machine.Past
import VirtioMmio.Proofs.Device.Past
import VirtioMmio.Proofs.Device.Reset
import VirtioMmio.Proofs.Device.Effects
import VirtioMmio.Proofs.Device.Progress
import VirtioMmio.Proofs.Device.Traceless
import VirtioMmio.Proofs.Device.Lifecycle
import VirtioMmio.Proofs.Interrupt.Edges
import VirtioMmio.Proofs.Device.Moves
import VirtioMmio.Proofs.Device.Teardown
import VirtioMmio.Proofs.Device.Sessions
import VirtioMmio.Proofs.Device.Negotiation
import VirtioMmio.Proofs.Device.Handles
import VirtioMmio.Proofs.Device.Queues
import VirtioMmio.Proofs.Device.Tables
import VirtioMmio.Proofs.Device.Interrupts
import VirtioMmio.Proofs.Device.Balance
import VirtioMmio.Proofs.Device.Failures
import VirtioMmio.Proofs.Device.Backing
import VirtioMmio.Proofs.Device.Recovery
import VirtioMmio.Proofs.Device.Generation
import VirtioMmio.Proofs.Device.Provenance
import VirtioMmio.Proofs.Device.Fields
import VirtioMmio.Proofs.Kind.Published
import VirtioMmio.Proofs.Device.Survey
import VirtioMmio.Proofs.Wakeup.Threads
import VirtioMmio.Proofs.Wakeup.Interleavings
import VirtioMmio.Proofs.DeviceTree.RoundTrip
import VirtioMmio.Proofs.DeviceTree.Discovery
import VirtioMmio.Proofs.Device.Validation
import VirtioMmio.Proofs.Queue.Enumeration
import VirtioMmio.Proofs.Transport.Notes
