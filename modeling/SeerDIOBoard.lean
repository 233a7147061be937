import SeerDIOBoard.Lib.Machine
import SeerDIOBoard.Lib.Framing
import SeerDIOBoard.Gyro.Receiver
import SeerDIOBoard.Gyro.ReceiverProofs
import SeerDIOBoard.Gyro.Frames
import SeerDIOBoard.Can.Driver
import SeerDIOBoard.Chassis.Device
import SeerDIOBoard.Mileage.Param
import SeerDIOBoard.Chassis.Config
import SeerDIOBoard.Chassis.MotorIds
import SeerDIOBoard.Chassis.Commands
import SeerDIOBoard.Chassis.Replies
import SeerDIOBoard.Lib.Mutex
import SeerDIOBoard.Reporter.Buffer
import SeerDIOBoard.Dispatch.Dispatcher
import SeerDIOBoard.Lib.Varint
import SeerDIOBoard.Pb.Stream
import SeerDIOBoard.Pb.Encode
import SeerDIOBoard.Pb.Decode
import SeerDIOBoard.Pb.Records
import SeerDIOBoard.Pb.Compat
import SeerDIOBoard.Pb.Truncated
import SeerDIOBoard.Pb.Messages
import SeerDIOBoard.Lib.Ieee
import SeerDIOBoard.Dispatch.Nanopb
import SeerDIOBoard.Dispatch.SpeedCommand
import SeerDIOBoard.Chassis.Task
import SeerDIOBoard.Chassis.DriverPresence
import SeerDIOBoard.Chassis.SpeedRequests
import SeerDIOBoard.Chassis.OdoRound
import SeerDIOBoard.Dispatch.Lengths
import SeerDIOBoard.Dispatch.TimeSync
import SeerDIOBoard.Dispatch.ConfigPort
import SeerDIOBoard.Gyro.Accesses
import SeerDIOBoard.Gyro.Motion
import SeerDIOBoard.Gyro.Stale
import SeerDIOBoard.Can.Requests
import SeerDIOBoard.Lib.DiffDrive
import SeerDIOBoard.Lib.Round
import SeerDIOBoard.Mileage.Kinematics
import SeerDIOBoard.Chassis.DrivePath
import SeerDIOBoard.Chassis.SpeedLimit
import SeerDIOBoard.Can.InBand
import SeerDIOBoard.Can.Rounds
import SeerDIOBoard.Can.InBandProofs
import SeerDIOBoard.Can.MingZhi
import SeerDIOBoard.Can.StartUp
import SeerDIOBoard.Chassis.Selection
import SeerDIOBoard.Mileage.Samples
import SeerDIOBoard.Mileage.Heading
import SeerDIOBoard.Chassis.RollOver
import SeerDIOBoard.Chassis.Parameters
import SeerDIOBoard.Mileage.Floats
import SeerDIOBoard.Mileage.FloatLoops
import SeerDIOBoard.Mileage.Usable
import SeerDIOBoard.Mileage.Valid
import SeerDIOBoard.Dispatch.Parameters
import SeerDIOBoard.Reporter.Odometer
import SeerDIOBoard.Dispatch.Midpoint
import SeerDIOBoard.Gyro.LineErrors
import SeerDIOBoard.Lib.Streak
import SeerDIOBoard.Gyro.Freeze
import SeerDIOBoard.Lib.Crc
import SeerDIOBoard.Utils.Crc
import SeerDIOBoard.Utils.Normalize
import SeerDIOBoard.Can.Grammar
import SeerDIOBoard.Dispatch.Replies
import SeerDIOBoard.Chassis.OdoTick
import SeerDIOBoard.Mileage.Uninitialised
import SeerDIOBoard.Reporter.Upload
import SeerDIOBoard.Can.Handshake
import SeerDIOBoard.Can.MingZhiHandshake
import SeerDIOBoard.Dispatch.Wire
import SeerDIOBoard.Reporter.Reports
import SeerDIOBoard.Dispatch.System
import SeerDIOBoard.Chassis.InitFrames
import SeerDIOBoard.Dispatch.Velocity
import SeerDIOBoard.Can.InitPass
import SeerDIOBoard.Can.Keya
import SeerDIOBoard.Utils.Singleton
import SeerDIOBoard.Gyro.Sharing
import SeerDIOBoard.Gyro.Locks
import SeerDIOBoard.Dispatch.Calibration
import SeerDIOBoard.Chassis.Bus
import SeerDIOBoard.Chassis.BusRounds
import SeerDIOBoard.Chassis.BusProgress
import SeerDIOBoard.Chassis.BusHeading
import SeerDIOBoard.Chassis.BusSpeed
