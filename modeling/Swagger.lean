import Swagger.Library.Transition
import Swagger.Library.Framing
import Swagger.Host.Cobs
import Swagger.Host.CommandQueue
import Swagger.Host.Kinetis
import Swagger.Host.Answers
import Swagger.Firmware.Buffer
import Swagger.Firmware.Cobs
import Swagger.Firmware.Loop
import Swagger.Firmware.Device
import Swagger.Firmware.Refinement
import Swagger.Firmware.Execution
import Swagger.Firmware.PacketSemantics
import Swagger.Firmware.Safety
import Swagger.Firmware.Results
import Swagger.Firmware.Bounds
import Swagger.Firmware.ApSelect
import Swagger.Line.RoundTrip
import Swagger.Line.Matching
import Swagger.Library.InOrder
import Swagger.Line.Accounting
import Swagger.Host.Canonical
import Swagger.Line.Codecs
import Swagger.Host.Transport
import Swagger.Firmware.Statuses
import Swagger.Line.Malformed
import Swagger.Firmware.Termination
import Swagger.Firmware.LowLevel
import Swagger.Firmware.BitLevel
import Swagger.Library.Store
import Swagger.Firmware.MemAp
import Swagger.Firmware.WordMemory
import Swagger.Host.Blob
import Swagger.Host.FlashProgram
import Swagger.Host.Verify
import Swagger.Library.History
import Swagger.Library.Attempts
import Swagger.Host.MassErase
import Swagger.Host.FlashErrors
import Swagger.Firmware.Retries
import Swagger.Firmware.MemoryWait
import Swagger.Firmware.Cycles
import Swagger.Firmware.Contention
import Swagger.Firmware.Parity
import Swagger.Firmware.Bursts
import Swagger.Library.Arrivals
import Swagger.Firmware.Locals
import Swagger.Firmware.Response
import Swagger.Firmware.SwjTarget
import Swagger.Firmware.Lockstep
import Swagger.Firmware.Connect
import Swagger.Host.Scripts
import Swagger.Host.InitSystem
import Swagger.Host.Part
import Swagger.Host.Flashing
import Swagger.Library.InTurn
import Swagger.Line.Requests
import Swagger.Firmware.Bus
import Swagger.Line.Direct
import Swagger.Line.Chip
import Swagger.Line.FlashDevice
import Swagger.Line.Rig
import Swagger.Line.Memory
import Swagger.Firmware.Alike
import Swagger.Firmware.Attached
import Swagger.Line.Pins
