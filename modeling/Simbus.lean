import Simbus.Pci.Fairness
import Simbus.Pci.VpiFeedback
import Simbus.Pci.Ownership
import Simbus.Pci.TargetIdle
import Simbus.Service.Run
import Simbus.Service.LineBuffer
import Simbus.Service.Attachment
import Simbus.Pcie.RoundTrip
import Simbus.Axi4.ReadOrder
import Simbus.Axi4.ReadAccess
import Simbus.Axi4.RoundTrip
import Simbus.Timekeeping
import Simbus.Axi4.Codec
import Simbus.P2p.Transport
import Simbus.Service.Trace
import Simbus.ClientSignals
import Simbus.Service.CommandStream
import Simbus.Pci.Break
import Simbus.Config.RoundTrip
import Simbus.Service.Shutdown
import Simbus.Pcie.ByteEnables
import Simbus.Axi4.ResponseTimer
import Simbus.Pci.Interrupts
import Simbus.Pci.WriteBurst
import Simbus.Pci.AddressPhase
import Simbus.Pci.Ramdev
import Simbus.Vpi.Vectors
import Simbus.Pci.Parity
import Simbus.Axi4.InterruptWait
import Simbus.Pci.InterruptWait
import Simbus.Pcie.InterruptWait
import Simbus.Pcie.StaleWords
import Simbus.P2p.Cameralink
import Simbus.Pci.AttributePhase
import Simbus.Pci.SplitCompletion
import Simbus.Pci.ReadResults
import Simbus.ExactTime
import Simbus.Vpi.UntilTime
import Simbus.Libsimbus.SendRecv
import Simbus.Vpi.ReadMessage
import Simbus.P2p.VectorWidth
import Simbus.Pci.RamdevRegions
import Simbus.Pci.RamdevDma
import Simbus.Pci.StoppedWrite
import Simbus.Pci.BusMemory
import Simbus.Pci.WriteArray
import Simbus.P2p.CaptureRun
import Simbus.CheckedArray
import Simbus.Vpi.Memory
import Simbus.Vpi.MemoryBounds
import Simbus.Libsimbus.Memdev
import Simbus.Libsimbus.MemdevCompare
import Simbus.Libsimbus.MemdevPath
import Simbus.P2p.CaptureArea
import Simbus.Pci.Linger
import Simbus.Lines.Ready
import Simbus.Lines.Until
import Simbus.Lines.Buffers
import Simbus.Finish
import Simbus.SplayTree
import Simbus.Numbering
import Simbus.ByteFormat
import Simbus.Lxt2.Change
import Simbus.InPlaceMerge
import Simbus.Lxt2.Facilities
import Simbus.Lxt2.Calls
import Simbus.Lxt2.Playback
import Simbus.Lxt2.Session
import Simbus.P2p.Dump
import Simbus.Pcie.Dump
import Simbus.Axi4.Dump
import Simbus.Pci.Dump
import Simbus.Libsimbus.Mt19937
