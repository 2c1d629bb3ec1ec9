import SensorVhal.Lib.Run
import SensorVhal.Lib.Mailbox
import SensorVhal.Lib.Mask
import SensorVhal.Lib.Bytes
import SensorVhal.Lib.Numeral
import SensorVhal.Lib.Framing
import SensorVhal.Lib.Table
import SensorVhal.Lib.Fifo
import SensorVhal.Lib.Pipe
import SensorVhal.Lib.Session
import SensorVhal.Lib.Locks
import SensorVhal.Lib.Races
import SensorVhal.Sensors.Device
import SensorVhal.Sensors.Poll
import SensorVhal.Sensors.Slots
import SensorVhal.Sensors.Interleaving
import SensorVhal.Sensors.FlushAccounting
import SensorVhal.Sensors.DataDelivery
import SensorVhal.Sensors.Placement
import SensorVhal.Sensors.Timestamps
import SensorVhal.Sensors.Alignment
import SensorVhal.Sensors.Pending
import SensorVhal.Sensors.LogTrace
import SensorVhal.Sock.Transfer
import SensorVhal.Sock.Clients
import SensorVhal.Sock.Coherence
import SensorVhal.Sock.Admission
import SensorVhal.Sock.EndOfFile
import SensorVhal.Sock.Client
import SensorVhal.Sock.Senders
import SensorVhal.Sock.Readiness
import SensorVhal.Sock.Descriptors
import SensorVhal.Sock.SocketFile
import SensorVhal.Sock.Lifecycle
import SensorVhal.Stream.Callback
import SensorVhal.Stream.Assembly
import SensorVhal.Stream.Conversation
import SensorVhal.Stream.Retries
import SensorVhal.Stream.Framing
import SensorVhal.Stream.Segmentation
import SensorVhal.Stream.Frames
import SensorVhal.Stream.Truncation
import SensorVhal.Pipeline.Threads
import SensorVhal.Pipeline.Buffers
import SensorVhal.Pipeline.Refinement
import SensorVhal.Pipeline.Waits
import SensorVhal.Pipeline.Locking
import SensorVhal.Pipeline.Races
import SensorVhal.Config.Calls
import SensorVhal.Config.Channel
import SensorVhal.Config.Listener
import SensorVhal.Config.Replay
import SensorVhal.Config.LateClient
import SensorVhal.Config.Success
import SensorVhal.Config.Handles
import SensorVhal.Sensors.Reports
import SensorVhal.Sensors.Overtaking
import SensorVhal.Sensors.Draining
import SensorVhal.Pipeline.Simulation
import SensorVhal.Stream.Delivery
import SensorVhal.Sock.Service
import SensorVhal.Lib.Records
import SensorVhal.Config.Mirror
import SensorVhal.Config.Bounds
import SensorVhal.Config.Order
