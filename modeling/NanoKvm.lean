import NanoKvm.Contract.Profile
import NanoKvm.Contract.Records
import NanoKvm.Firmware.Activation
import NanoKvm.Firmware.ControlTask
import NanoKvm.Lcd.Record
import NanoKvm.Firmware.Boots
import NanoKvm.Linux.Control
import NanoKvm.Linux.Consumers
import NanoKvm.Activation.Safety
import NanoKvm.Activation.Agreement
import NanoKvm.Exec.Reachability
import NanoKvm.Exec.Program
import NanoKvm.Rpmsg.Layout
import NanoKvm.Rpmsg.Transport
import NanoKvm.Activation.Handshake
import NanoKvm.Activation.Verdict
import NanoKvm.Rpmsg.Confinement
import NanoKvm.Rpmsg.Notify
import NanoKvm.Rpmsg.Reattach
import NanoKvm.Exec.Parallel
import NanoKvm.Mailbox.Linux
import NanoKvm.Mailbox.Rtos
import NanoKvm.Mailbox.Protocol
import NanoKvm.Mailbox.Section
import NanoKvm.Mailbox.LinuxSide
import NanoKvm.Mailbox.RtosSide
import NanoKvm.Mailbox.Integrity
import NanoKvm.Lcd.Shared
import NanoKvm.Lcd.Driver
import NanoKvm.Lcd.Service
import NanoKvm.Lcd.DriverSide
import NanoKvm.Lcd.ServiceSide
import NanoKvm.Lcd.Scanout
import NanoKvm.Exec.Bytes
import NanoKvm.Rpmsg.Host
import NanoKvm.Firmware.Leases
import NanoKvm.Rpmsg.Rings
import NanoKvm.Activation.Readers
import NanoKvm.Clock.Mmux
import NanoKvm.Clock.Parking
import NanoKvm.Clock.Rollback
import NanoKvm.TryBoot.Script
import NanoKvm.TryBoot.Trials
import NanoKvm.Rtp.Packetizer
import NanoKvm.Rtp.Reassembly
import NanoKvm.DeviceTree.Guard
import NanoKvm.DeviceTree.Soundness
import NanoKvm.Lcd.Drawing
import NanoKvm.Lcd.Display
import NanoKvm.Lcd.Refinement
import NanoKvm.Exec.Snapshot
import NanoKvm.WifiPower.Record
import NanoKvm.WifiPower.Protocol
import NanoKvm.WifiPower.Ownership
import NanoKvm.WifiPower.FirmwareSide
import NanoKvm.WifiPower.DriverSide
import NanoKvm.WifiPower.Commands
import NanoKvm.Sessions.Device
import NanoKvm.Sessions.Pairing
import NanoKvm.Boot.Publication
import NanoKvm.Boot.Snapshot
import NanoKvm.Lcd.Bus
import NanoKvm.Lcd.PowerUp
import NanoKvm.Lcd.Jobs
import NanoKvm.Lcd.Admission
import NanoKvm.Ctl.Attributes
import NanoKvm.Ctl.Grammar
import NanoKvm.Ctl.Printed
import NanoKvm.DeviceTree.Dts
import NanoKvm.DeviceTree.Lexing
import NanoKvm.DeviceTree.RoundTrip
import NanoKvm.DeviceTree.Progress
import NanoKvm.Rtp.AnnexB
import NanoKvm.Rtp.Fragments
import NanoKvm.Bridge.Cadence
import NanoKvm.Bridge.Session
import NanoKvm.Boot.Handoff
import NanoKvm.Bridge.AudioRing
import NanoKvm.Bridge.AudioRun
import NanoKvm.Exec.Traces
import NanoKvm.Peripherals.I2c
import NanoKvm.Peripherals.I2cTransfer
import NanoKvm.Peripherals.Timer
import NanoKvm.Peripherals.TimerSafety
import NanoKvm.Peripherals.Spi
import NanoKvm.Peripherals.SpiSession
import NanoKvm.Bridge.Calls
import NanoKvm.Exec.Ledger
import NanoKvm.Bridge.SetUp
import NanoKvm.Bridge.Live
import NanoKvm.Bridge.CleanUp
import NanoKvm.Bridge.Buffers
import NanoKvm.Bridge.BufferRun
import NanoKvm.Ctl.Stress
import NanoKvm.Peripherals.Delay
import NanoKvm.Text.Base64
import NanoKvm.Bridge.ParameterSets
import NanoKvm.Peripherals.Pwm
import NanoKvm.Peripherals.Efuse
import NanoKvm.UsbBoot.Snapshot
import NanoKvm.Peripherals.Rng
import NanoKvm.Peripherals.RngRuns
import NanoKvm.Media.Vpss
import NanoKvm.Rpmsg.Echo
import NanoKvm.Exec.Locks
import NanoKvm.Media.Lt6911
import NanoKvm.Media.Lt6911Polling
import NanoKvm.Media.Lt6911Lifetime
import NanoKvm.Media.VpssPower
import NanoKvm.Media.VpssFrames
import NanoKvm.Media.VpssCustody
