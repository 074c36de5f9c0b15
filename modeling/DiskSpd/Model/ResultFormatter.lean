/-
**The histograms behind the printed results** (`result_formatter.cc`).

* `JobResults`, `ThreadResults` — the results of a job: for each thread, those on each target;
  `JobState.jobResults` — the results that the threads of a job hold.
* `printIopsHistogram` — the `total_histogram` of `print_iops`, from which the average and the
  deviation in the last row are printed; `printIopsCount` — the `total_iops` of that row.
* `outputHistograms` — the histograms of `output_results`, from which the columns of the percentile
  table are printed.
* `printIops`, `LatencyHistograms.table`, `outputResults` — the numbers of the tables, or the
  exception that ends the output. The hash tables are iterated over in the order of their entries.

A `double` is a rational number, so the parts of the percentiles and their products are exact. The text
around the numbers and the parts of the output without a histogram are left out: nothing reads them and
nothing in them throws.
-/

import DiskSpd.Model.Profile
import DiskSpd.Model.Summary
import DiskSpd.Model.Thread

namespace DiskSpd

structure ThreadResults where
  threadId : UInt32
  targetResults : List TargetResults

structure JobResults where
  threadResults : List ThreadResults

/-- The results of the threads, which are in `results->thread_results` from the start. -/
def JobState.jobResults {Op Engine : Type} (params : List ThreadParams)
    (state : JobState Op Engine) : JobResults where
  threadResults := params.mapIdx fun n th =>
    { threadId := th.threadId, targetResults := (state.threads n).results }

/-- Which operations a table is about. -/
inductive ReportType where
  | read
  | write
  | rw
  deriving DecidableEq, Repr

/-- `curr_histogram`: the reads, the writes or both of one row of the table. -/
def currHistogram (t : ReportType) (tResult : TargetResults) : Histogram UInt64 :=
  let curr : Histogram UInt64 := {}
  let curr := if t = .read ∨ t = .rw then curr.merge tResult.readLatencyHistogram else curr
  if t = .write ∨ t = .rw then curr.merge tResult.writeLatencyHistogram else curr

/-- `total_histogram` after the loops of `print_iops`. -/
def printIopsHistogram (options : JobOptions) (t : ReportType) (results : JobResults) :
    Histogram UInt64 :=
  results.threadResults.foldl (fun total threadResult =>
    threadResult.targetResults.foldl (fun total tResult =>
      if options.measureLatency then total.merge (currHistogram t tResult) else total) total) {}

/-- `IOPS_GET(read_iops_count, write_iops_count, iops_count)` -/
def TargetResults.iopsOf (tResult : TargetResults) : ReportType → UInt64
  | .read => tResult.readIopsCount
  | .write => tResult.writeIopsCount
  | .rw => tResult.iopsCount

/-- `total_iops` after the loops of `print_iops`. -/
def printIopsCount (t : ReportType) (results : JobResults) : UInt64 :=
  results.threadResults.foldl (fun total threadResult =>
    threadResult.targetResults.foldl (fun total tResult => total + tResult.iopsOf t) total) 0

/-- The histograms of the percentile table. -/
structure LatencyHistograms where
  read : Histogram UInt64 := {}
  write : Histogram UInt64 := {}
  total : Histogram UInt64 := {}

/-- A round of the inner loop of `output_results`. -/
def LatencyHistograms.accumulate (histograms : LatencyHistograms) (tResult : TargetResults) :
    LatencyHistograms :=
  let read := histograms.read.merge tResult.readLatencyHistogram
  let write := histograms.write.merge tResult.writeLatencyHistogram
  { read, write, total := (histograms.total.merge read).merge write }

/-- The histograms after the loops of `output_results`, which returns before them when no latency
is measured. -/
def outputHistograms (options : JobOptions) (results : JobResults) : Option LatencyHistograms :=
  if !options.measureLatency then none
  else some (results.threadResults.foldl (fun histograms threadResult =>
    threadResult.targetResults.foldl LatencyHistograms.accumulate histograms) {})

/-! ### The tables -/

/-- The numbers of a row of `print_iops`: deviations are squared, `none` is a column that is not
printed or says `N/A`. -/
structure IopsRow where
  bytes : UInt64
  iops : UInt64
  iopsStdDevSq : Option ℚ
  latency : Option (ℚ × Option ℚ)

/-- `IOPS_GET(read_bytes_count, write_bytes_count, bytes_count)` -/
def TargetResults.bytesOf (tResult : TargetResults) : ReportType → UInt64
  | .read => tResult.readBytesCount
  | .write => tResult.writeBytesCount
  | .rw => tResult.bytesCount

/-- `curr_bucketizer` -/
def currBucketizer (t : ReportType) (tResult : TargetResults) : IoBucketizer :=
  let curr : IoBucketizer := {}
  let curr := if t = .read ∨ t = .rw then curr.merge tResult.readBucketizer else curr
  if t = .write ∨ t = .rw then curr.merge tResult.writeBucketizer else curr

/-- The columns of the average latency and of its deviation. -/
def latencyColumns (histogram : Histogram UInt64) : Except Histogram.Error (ℚ × Option ℚ) := do
  let average ← histogram.getMean histogram.data.entries
  -- avoid nans
  if 0 < histogram.getSampleSize then
    let deviation ← histogram.getStandardDeviationSq histogram.data.entries
    return (average, some deviation)
  else return (average, none)

/-- One row, or the last one, from its counters, its bucketizer and its histogram. -/
def iopsRow (options : JobOptions) (bytes iops : UInt64) (bucketizer : IoBucketizer)
    (histogram : Histogram UInt64) : Except Histogram.Error IopsRow :=
  let iopsStdDevSq := if options.measureIopsStdDev then some bucketizer.getStandardDeviationSq
    else none
  if options.measureLatency then
    (latencyColumns histogram).map fun columns =>
      { bytes, iops, iopsStdDevSq, latency := some columns }
  else pure { bytes, iops, iopsStdDevSq, latency := none }

/-- `total_bytes` after the loops of `print_iops`. -/
def printIopsBytes (t : ReportType) (results : JobResults) : UInt64 :=
  results.threadResults.foldl (fun total threadResult =>
    threadResult.targetResults.foldl (fun total tResult => total + tResult.bytesOf t) total) 0

/-- `total_bucketizer` after the loops of `print_iops`. -/
def printIopsBucketizer (options : JobOptions) (t : ReportType) (results : JobResults) :
    IoBucketizer :=
  results.threadResults.foldl (fun total threadResult =>
    threadResult.targetResults.foldl (fun total tResult =>
      if options.measureIopsStdDev then total.merge (currBucketizer t tResult) else total) total) {}

/-- **`print_iops`**: a row for each thread and target, and the row of the totals. -/
def printIops (options : JobOptions) (t : ReportType) (results : JobResults) :
    Except Histogram.Error (List IopsRow × IopsRow) := do
  let rows ← (results.threadResults.flatMap (·.targetResults)).mapM fun tResult =>
    iopsRow options (tResult.bytesOf t) (tResult.iopsOf t) (currBucketizer t tResult)
      (currHistogram t tResult)
  let total ← iopsRow options (printIopsBytes t results) (printIopsCount t results)
    (printIopsBucketizer options t results) (printIopsHistogram options t results)
  return (rows, total)

/-- The percentiles of the table, as exact numbers, with their names. -/
def percentiles : List (ℚ × String) :=
  [(1 / 4, "25th"), (1 / 2, "50th"), (3 / 4, "75th"), (9 / 10, "90th"), (95 / 100, "95th"),
    (99 / 100, "99th"), (1 - 1 / 10 ^ 3, "3-nines"), (1 - 1 / 10 ^ 4, "4-nines"),
    (1 - 1 / 10 ^ 5, "5-nines"), (1 - 1 / 10 ^ 6, "6-nines"), (1 - 1 / 10 ^ 7, "7-nines"),
    (1 - 1 / 10 ^ 8, "8-nines"), (1 - 1 / 10 ^ 9, "9-nines")]

/-- A row of the percentile table; `none` is `N/A`. -/
structure PercentileRow where
  name : String
  read : Option UInt64
  write : Option UInt64
  total : UInt64

namespace LatencyHistograms

variable (histograms : LatencyHistograms)

def hasReads : Bool := 0 < histograms.read.getSampleSize

def hasWrites : Bool := 0 < histograms.write.getSampleSize

/-- A column that says `N/A` when it has no samples. -/
def guardedPercentile (has : Bool) (histogram : Histogram UInt64) (p : ℚ) :
    Except Histogram.Error (Option UInt64) :=
  if has then (histogram.getPercentile histogram.data.entries p).map some else pure none

/-- The row of a percentile. The column of the totals is not guarded. -/
def percentileRow (p : ℚ × String) : Except Histogram.Error PercentileRow := do
  let read ← guardedPercentile histograms.hasReads histograms.read p.1
  let write ← guardedPercentile histograms.hasWrites histograms.write p.1
  let total ← histograms.total.getPercentile histograms.total.data.entries p.1
  return { name := p.2, read, write, total }

/-- The row of the minima or of the maxima. -/
def extremeRow (name : String) (extreme : Histogram.Entries UInt64 → UInt64) : PercentileRow where
  name := name
  read := if histograms.hasReads then some (extreme histograms.read.data.entries) else none
  write := if histograms.hasWrites then some (extreme histograms.write.data.entries) else none
  total := extreme histograms.total.data.entries

/-- **The percentile table.** -/
def table : Except Histogram.Error (List PercentileRow) := do
  let rows ← percentiles.mapM histograms.percentileRow
  return histograms.extremeRow "min" Histogram.getMin :: rows ++
    [histograms.extremeRow "max" Histogram.getMax]

end LatencyHistograms

/-- The percentile table of a job that measures latency. -/
def percentileTable (options : JobOptions) (results : JobResults) :
    Except Histogram.Error (Option (List PercentileRow)) :=
  match outputHistograms options results with
  | none => pure none
  | some histograms => histograms.table.map some

/-- The tables of the results of a job. -/
structure Output where
  totalIo : List IopsRow × IopsRow
  readIo : List IopsRow × IopsRow
  writeIo : List IopsRow × IopsRow
  percentiles : Option (List PercentileRow)

/-- **`output_results`** for one job. -/
def outputResults (options : JobOptions) (results : JobResults) :
    Except Histogram.Error Output := do
  let totalIo ← printIops options .rw results
  let readIo ← printIops options .read results
  let writeIo ← printIops options .write results
  let percentiles ← percentileTable options results
  return { totalIo, readIo, writeIo, percentiles }

end DiskSpd
