import DiskSpd.Proof.Region
import DiskSpd.Proof.RandomOffsets
import DiskSpd.Proof.SequentialPattern
import DiskSpd.Proof.InterlockedPattern
import DiskSpd.Proof.Percentiles
import DiskSpd.Proof.Latency
import DiskSpd.Proof.Accounting
import DiskSpd.Proof.Window
import DiskSpd.Proof.KernelAio
import DiskSpd.Proof.PosixAio
import DiskSpd.Proof.FailedSubmit
import DiskSpd.Proof.Groups
import DiskSpd.Proof.ByteSizes
import DiskSpd.Proof.Assignment
import DiskSpd.Proof.Divisions
import DiskSpd.Proof.Statistics
import DiskSpd.Proof.Direct
import DiskSpd.Proof.Depth
import DiskSpd.Proof.Requests
import DiskSpd.Proof.Progress
import DiskSpd.Proof.Run
import DiskSpd.Proof.Ending
import DiskSpd.Proof.Load
import DiskSpd.Proof.EngineLoad
import DiskSpd.Proof.KernelMemory
import DiskSpd.Proof.KernelArrays
import DiskSpd.Proof.Reproducible
import DiskSpd.Proof.Waits
import DiskSpd.Proof.CyclicStepping
import DiskSpd.Proof.HistogramStatistics
import DiskSpd.Proof.BucketizerMerge
import DiskSpd.Proof.IopsDeviation
import DiskSpd.Proof.ResultOutput
import DiskSpd.Proof.Tables
import DiskSpd.Proof.OptionOrder
import DiskSpd.Proof.CreatedFiles
import DiskSpd.Proof.Throttle
import DiskSpd.Proof.CpuList
import DiskSpd.Proof.Affinity
import DiskSpd.Proof.CpuUsage
import DiskSpd.Proof.Devices
import DiskSpd.Proof.SchedulerLine
