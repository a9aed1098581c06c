import SensorLink.Lib.Wrap
import SensorLink.Lib.Reach
import SensorLink.Peek.Model
import SensorLink.Peek.World
import SensorLink.Peek.Accounting
import SensorLink.Peek.Window
import SensorLink.Peek.Trace
import SensorLink.Peek.Safety
import SensorLink.Firmware.Header
import SensorLink.Firmware.Chunking
import SensorLink.Flash.Nor
import SensorLink.Flash.BlockLayer
import SensorLink.Flash.View
import SensorLink.Flash.BlockSpec
import SensorLink.Db.Database
import SensorLink.Db.FileStore
import SensorLink.Db.FileView
import SensorLink.Db.FileWrite
import SensorLink.Db.FileAtomic
import SensorLink.Db.FileVersions
import SensorLink.Db.CircularStore
import SensorLink.Db.CircularView
import SensorLink.Db.CircularSpec
import SensorLink.Db.Frontier
import SensorLink.Db.Range
import SensorLink.Db.Recovery
import SensorLink.Db.RingRun
import SensorLink.Stream.Store
import SensorLink.Stream.Spec
import SensorLink.Stream.World
import SensorLink.Stream.Steps
import SensorLink.Stream.Overwrite
import SensorLink.Stream.Fifo
import SensorLink.Flash.Atomic
import SensorLink.Lib.Slice
import SensorLink.Samples.Codec
import SensorLink.Samples.Format
import SensorLink.Samples.RoundTrip
import SensorLink.Samples.Uniform
import SensorLink.Samples.Parser
import SensorLink.Samples.Agreement
import SensorLink.Network.Connection
import SensorLink.Network.Uploads
import SensorLink.Sync.Isolation
import SensorLink.Dispatch.Buffer
import SensorLink.Dispatch.Buffering
import SensorLink.Firmware.Bootloader
import SensorLink.Firmware.Decision
import SensorLink.Dispatch.Task
import SensorLink.Dispatch.StreamCalls
import SensorLink.Dispatch.Barrier
import SensorLink.Server.MatViewQueue
import SensorLink.Server.MatViewSchedule
import SensorLink.Notify.Alarm
import SensorLink.Notify.AlarmLoss
import SensorLink.Notify.AlarmRetry
import SensorLink.Sync.DoubleBuffer
import SensorLink.Sync.Torn
import SensorLink.Server.DataExport
import SensorLink.Server.ExportRange
import SensorLink.Lib.Rollup
import SensorLink.Server.MatViewUpdate
import SensorLink.Server.MatViewScratch
import SensorLink.Notify.Mail
import SensorLink.Notify.MailLimits
import SensorLink.Dma.Handoff
import SensorLink.Dma.Stopped
import SensorLink.Dma.Circular
import SensorLink.Dma.Reception
import SensorLink.Modem.Commands
import SensorLink.Modem.Download
import SensorLink.Modem.Setup
import SensorLink.Modem.Delivery
import SensorLink.Dispatch.Retry
import SensorLink.Firmware.Completion
import SensorLink.Firmware.Signing
import SensorLink.Db.Capacity
import SensorLink.Flash.Bounds
import SensorLink.Db.Region
import SensorLink.Db.RoundTrip
import SensorLink.Db.Numbering
import SensorLink.Peek.Retry
import SensorLink.Stream.Flaky
import SensorLink.Stream.Cleanup
import SensorLink.Stream.Transient
import SensorLink.Peek.Wrap
import SensorLink.Stream.Wrap
import SensorLink.Dispatch.Contiguous
import SensorLink.Lib.Binary32
import SensorLink.Lib.Truncation
import SensorLink.Clock.Estimate
import SensorLink.Clock.Rejection
import SensorLink.Clock.Safety
import SensorLink.Clock.Inverse
import SensorLink.Clock.Correction
import SensorLink.Dispatch.Serialize
import SensorLink.Firmware.BootStats
import SensorLink.Flash.SpiFlash
import SensorLink.Lib.Tiling
import SensorLink.Sync.ActiveConfig
import SensorLink.Flash.SpiCoverage
import SensorLink.Notify.Release
import SensorLink.Lib.Gregorian
import SensorLink.Notify.IdleTime
import SensorLink.Server.Datetime
import SensorLink.Server.LicenseStart
import SensorLink.Server.CsvRows
import SensorLink.Server.OptionalColumns
import SensorLink.Modem.Provisioning
import SensorLink.Modem.Unranged
import SensorLink.Server.Timeseries
import SensorLink.Lib.Ascending
import SensorLink.Server.Buckets
import SensorLink.Server.DownsampleSafety
import SensorLink.Server.DownsampleCover
import SensorLink.Server.FixedWidth
import SensorLink.Lib.Text
import SensorLink.Protocol.BoundedStrings
import SensorLink.Firmware.BootloaderMeta
import SensorLink.Firmware.Config
import SensorLink.Protocol.Topics
import SensorLink.Sync.Polling
import SensorLink.Lib.Base64
import SensorLink.Network.Client
import SensorLink.Clock.Mono
import SensorLink.Bsp.I2c
import SensorLink.Factory.Result
import SensorLink.Factory.Guards
import SensorLink.Factory.Latch
import SensorLink.Provision.Rtt
import SensorLink.Factory.Modem
import SensorLink.Firmware.Transpose
import SensorLink.Provision.Iccid
import SensorLink.Samples.Capacity
import SensorLink.Samples.Quantize
import SensorLink.Samples.Serializer
import SensorLink.Bsp.Exti
import SensorLink.Firmware.Install
import SensorLink.Modem.Urcs
import SensorLink.Dma.TransmitSleep
import SensorLink.Network.Reconnect
import SensorLink.Server.Supervisor
import SensorLink.Server.MqttClient
import SensorLink.Notify.SmsTask
import SensorLink.Provision.InStep
import SensorLink.Provision.Reports
import SensorLink.Provision.Counts
