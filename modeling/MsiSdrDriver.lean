import MsiSdrDriver.Foundations.LabelledRuns
import MsiSdrDriver.Foundations.Histories
import MsiSdrDriver.Foundations.BoundedFraction
import MsiSdrDriver.Foundations.LittleEndianBits
import MsiSdrDriver.Foundations.FixedBlocks
import MsiSdrDriver.Foundations.WriteLog
import MsiSdrDriver.Foundations.PackedWords
import MsiSdrDriver.Foundations.Heaps
import MsiSdrDriver.Foundations.Ownership
import MsiSdrDriver.Foundations.HeapPrograms
import MsiSdrDriver.Foundations.Families
import MsiSdrDriver.Foundations.Monitors
import MsiSdrDriver.Foundations.Numerals
import MsiSdrDriver.Foundations.Replacing
import MsiSdrDriver.Foundations.FlatMemory
import MsiSdrDriver.Foundations.GreedyGroups
import MsiSdrDriver.Driver.Device
import MsiSdrDriver.Driver.Soft
import MsiSdrDriver.Driver.PllAccuracy
import MsiSdrDriver.Driver.Gain
import MsiSdrDriver.Driver.Hard
import MsiSdrDriver.Driver.Setters
import MsiSdrDriver.Driver.StreamCalls
import MsiSdrDriver.Driver.FailedSetters
import MsiSdrDriver.Driver.RegisterCoherence
import MsiSdrDriver.Driver.TuningHistory
import MsiSdrDriver.Driver.DecodedFrequency
import MsiSdrDriver.Driver.BiasLine
import MsiSdrDriver.Driver.BandwidthHistory
import MsiSdrDriver.Driver.SampleClock
import MsiSdrDriver.Driver.GainStages
import MsiSdrDriver.Driver.GainWord
import MsiSdrDriver.Driver.SavedSettings
import MsiSdrDriver.Driver.UsbStrings
import MsiSdrDriver.Convert.Converters
import MsiSdrDriver.Convert.BitExact
import MsiSdrDriver.Convert.PassThrough
import MsiSdrDriver.Convert.CompleteBlocks
import MsiSdrDriver.Driver.AutoFormat
import MsiSdrDriver.Async.Feed
import MsiSdrDriver.Async.Transfers
import MsiSdrDriver.Async.TransferSizes
import MsiSdrDriver.Async.DeviceMemory
import MsiSdrDriver.Async.MemoryBalance
import MsiSdrDriver.Async.Continuity
import MsiSdrDriver.Async.Resync
import MsiSdrDriver.Async.Stream
import MsiSdrDriver.Async.StreamPhases
import MsiSdrDriver.Async.Teardown
import MsiSdrDriver.Async.PausePhases
import MsiSdrDriver.Async.StopScan
import MsiSdrDriver.Async.SteadyStream
import MsiSdrDriver.Async.PauseResume
import MsiSdrDriver.Async.CancelLoss
import MsiSdrDriver.Async.CancelEnd
import MsiSdrDriver.Async.Closing
import MsiSdrDriver.Async.DeviceLoss
import MsiSdrDriver.Async.RefusedStart
import MsiSdrDriver.Usb.BulkTransfer
import MsiSdrDriver.Usb.BulkUrbs
import MsiSdrDriver.Usb.BulkReaping
import MsiSdrDriver.Usb.BulkDelivery
import MsiSdrDriver.Usb.IsoTransfer
import MsiSdrDriver.Usb.IsoDelivery
import MsiSdrDriver.Server.WorkPool
import MsiSdrDriver.Server.PoolOwnership
import MsiSdrDriver.Server.LinkedQueue
import MsiSdrDriver.Server.PoolConservation
import MsiSdrDriver.Server.Sdrtcp
import MsiSdrDriver.Server.ClientStream
import MsiSdrDriver.Server.StreamOwnership
import MsiSdrDriver.Server.StreamIntegrity
import MsiSdrDriver.Server.CommandFraming
import MsiSdrDriver.Server.SessionThreads
import MsiSdrDriver.Server.StopRequest
import MsiSdrDriver.Server.ListenerLifetime
import MsiSdrDriver.Server.Descriptors
import MsiSdrDriver.Server.SocketLeaks
import MsiSdrDriver.Server.DeviceSession
import MsiSdrDriver.Server.StreamEnd
import MsiSdrDriver.Server.CommandTeardown
import MsiSdrDriver.Server.DeviceCommands
import MsiSdrDriver.Server.PercentageGain
import MsiSdrDriver.Server.TunedAsAsked
import MsiSdrDriver.Server.GainTotal
import MsiSdrDriver.Server.CommandedRegisters
import MsiSdrDriver.Server.ClientCommands
import MsiSdrDriver.Server.ClientConnection
import MsiSdrDriver.Server.ClientDeparture
import MsiSdrDriver.Server.MeanCorrection
import MsiSdrDriver.Server.SampleCallback
import MsiSdrDriver.Server.SamplePath
import MsiSdrDriver.Server.SessionMemory
import MsiSdrDriver.Service.ArgumentParser
import MsiSdrDriver.Service.QuotedArguments
import MsiSdrDriver.Service.TcpArguments
import MsiSdrDriver.Service.RequestedSession
import MsiSdrDriver.Service.StatusListeners
import MsiSdrDriver.Service.AsyncFuture
import MsiSdrDriver.Service.UsbPermission
import MsiSdrDriver.Service.BinaryRunner
import MsiSdrDriver.Service.OneDevice
import MsiSdrDriver.Service.Announcements
import MsiSdrDriver.Service.HandlerSteps
import MsiSdrDriver.Service.HandlerOwner
import MsiSdrDriver.Service.OwnerTurns
import MsiSdrDriver.Service.DeviceLives
import MsiSdrDriver.Service.OwedStarts
import MsiSdrDriver.Service.ScreenLock
