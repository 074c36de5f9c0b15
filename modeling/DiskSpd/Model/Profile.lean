/-
**From options to targets** (`profile.cc`, the set-up checks of `job.cc`).

* `parseOptions` — `Profile::parse_options` after the argp library has handed over the arguments:
  the options of the job, and one dummy target whose options every target gets
  (`parseArguments`); then each target with the size of its file (`setUpTarget`).
* `parseCommandLine` — the same from the calls argp makes.
* `Target.checkSetUp` — the checks `Job::run_job` makes on a target before it opens it.

The CPU set of `-a` and the system information are left out; they touch no target.
-/

import DiskSpd.Model.Options
import DiskSpd.Model.Target

namespace DiskSpd

inductive IoEngine where
  | kernelAio
  | posixAio
  deriving DecidableEq, Repr

/-- The options of a job. `total_threads` is used even without `-F`. -/
structure JobOptions where
  ioManager : IoEngine := .kernelAio
  duration : UInt32 := 10
  warmupTime : UInt32 := 5
  useTimeSeed : Bool := false
  randSeed : UInt64 := 0
  totalThreads : UInt32 := 0
  useTotalThreads : Bool := false
  disableAffinity : Bool := false
  measureLatency : Bool := false
  measureIopsStdDev : Bool := false
  ioBucketDurationMs : UInt32 := 1000
  targets : List Target := []
  deriving Repr

/-! ### The options that need their own loops -/

/-- `-S`: each character of the argument adds flags; `h` ends the loop. -/
def cachingFlags : CString → OpenFlags → Except Failure OpenFlags
  | [], flags => .ok flags
  | 'h' :: _, _ => .ok { direct := true, sync := true }
  | 's' :: rest, flags => cachingFlags rest { flags with sync := true }
  | 'd' :: rest, flags => cachingFlags rest { flags with direct := true }
  | c :: _, _ =>
    .error (.rejected ("Invalid or unimplemented caching option -S" ++ c.toString ++ "\n"))

def parseCaching (options : Options) : Except Failure OpenFlags :=
  match options.getArg .cachingOptions with
  | some arg => cachingFlags arg {}
  | none => .ok {}

/-- The flags of `-Z`. -/
structure BufferFlags where
  zero : Bool := false
  rand : Bool := false
  separate : Bool := false

/-- `-Z`: each character of the argument sets a flag. -/
def bufferFlags : CString → BufferFlags → Except Failure BufferFlags
  | [], flags => .ok flags
  | 's' :: rest, flags => bufferFlags rest { flags with separate := true }
  | 'z' :: rest, flags => bufferFlags rest { flags with zero := true }
  | 'r' :: rest, flags => bufferFlags rest { flags with rand := true }
  | c :: _, _ =>
    .error (.rejected ("Invalid or unimplemented io-buffers argument -Z" ++ c.toString ++ "\n"))

def parseBuffers (options : Options) : Except Failure BufferFlags :=
  match options.getArg .ioBuffers with
  | some arg => bufferFlags arg {}
  | none => .ok {}

/-- The stride, and whether the access is random or interlocked. -/
structure Access where
  stride : Int64
  useRandomAlignment : Bool := false
  useInterlocked : Bool := false

/-- The size after `-s` or `-si`; without one the stride is the block size. -/
def strideSize (arg : CString) (blockSize : UInt64) : Except Failure Int64 :=
  if arg.isEmpty then .ok blockSize.toInt64
  else do
    rejectIf (!validByteSize arg) "Error in stride argument\n"
    let stride ← byteSizeFromArg arg blockSize
    .ok stride.toInt64

/-- `-s`: an optional `i` for interlocked access, then an optional size. -/
def parseStride (arg : CString) (blockSize : UInt64) : Except Failure Access :=
  match arg with
  | 'i' :: rest => do
    let stride ← strideSize rest blockSize
    .ok { stride, useInterlocked := true }
  | _ => do
    let stride ← strideSize arg blockSize
    .ok { stride }

/-- The access of a job without `-r`. -/
def parseSequential (options : Options) (blockSize : UInt64) : Except Failure Access :=
  match options.getArg .sequentialStride with
  | some arg => parseStride arg blockSize
  | none => .ok { stride := blockSize.toInt64 }

/-- `-r` and `-s`; the first overrides the second. With an empty `-r` the stride stays at its
default, and only a stride of 0 becomes the block size. -/
def parseAccess (options : Options) (blockSize : UInt64) : Except Failure Access := do
  let (random, stride) ← options.argToNumber .randomAlign blockSize (64 * 1024 : Int64)
  if random then
    .ok { stride := if stride = 0 then blockSize.toInt64 else stride, useRandomAlignment := true }
  else parseSequential options blockSize

/-- `-x` -/
def parseEngine (arg : Option CString) : Except Failure IoEngine :=
  match arg with
  | none => .ok .kernelAio
  | some ['k'] => .ok .kernelAio
  | some ['p'] => .ok .posixAio
  | some (_ :: _ :: _) => .error (.rejected "Invalid argument to -x\n")
  | some _ => .error (.rejected "Invalid io engine specified. Choose from k, p\n")

/-! ### The job options and the dummy target -/

/-- The options of the job, and the dummy target that collects the options of every target, read in
the order of the source. With `-F` the threads per target start from 0. -/
def parseArguments (options : Options) : Except Failure (JobOptions × Target) := do
  let job : JobOptions := {}
  let dummy : Target := { path := [] }
  let (_, blockSize) ← options.argToNumber .blockSize 1 dummy.blockSize
  let (_, baseOffset) ← options.argToNumber .baseOffset blockSize dummy.baseOffset
  let (createFile, size) ← options.argToNumber .createFiles blockSize dummy.size
  let (_, duration) ← options.argToNumber .duration 0 job.duration
  let (measureIopsStdDev, ioBucketDurationMs) ←
    options.argToNumber .diops 0 job.ioBucketDurationMs
  let (_, maxSize) ← options.argToNumber .maxSize blockSize dummy.maxSize
  let (useTotalThreads, totalThreads) ← options.argToNumber .totalThreads 0 job.totalThreads
  rejectIf (useTotalThreads && (options.getArg .threadsPerTarget).isSome)
    "Can't use -t and -F at the same time!\n"
  let (_, maxThroughput) ← options.argToNumber .maxThroughput blockSize dummy.maxThroughput
  let (_, overlap) ← options.argToNumber .overlap 0 dummy.overlap
  let access ← parseAccess options blockSize
  let openFlags ← parseCaching options
  let (_, threadsPerTarget) ← options.argToNumber .threadsPerTarget 0
    (if useTotalThreads then 0 else dummy.threadsPerTarget)
  let (strided, threadOffset) ← options.argToNumber .threadStride blockSize dummy.threadOffset
  rejectIf (strided && access.useInterlocked) "Stride between threads must be 0 if using -si\n"
  let (_, writePercentage) ← options.argToNumber .write 0 dummy.writePercentage
  rejectIf (100 < writePercentage) "Invalid argument. -w must be 0-100\n"
  let (_, warmupTime) ← options.argToNumber .warmupTime 0 job.warmupTime
  let ioManager ← parseEngine (options.getArg .ioEngine)
  let (_, randSeed) ← options.argToNumber .randSeed 0 job.randSeed
  let buffers ← parseBuffers options
  rejectIf (buffers.rand && buffers.zero) "Conflicting arguments specified for -Z\n"
  .ok ({ job with
      ioManager, duration, warmupTime, randSeed, totalThreads, useTotalThreads,
      measureIopsStdDev, ioBucketDurationMs
      useTimeSeed := options.getArg .randSeed == some []
      disableAffinity := (options.getArg .noAffinity).isSome
      measureLatency := (options.getArg .latency).isSome },
    { dummy with
      size, createFile, blockSize, baseOffset, maxSize, overlap, threadOffset, openFlags,
      writePercentage, threadsPerTarget, maxThroughput
      stride := access.stride
      useRandomAlignment := access.useRandomAlignment
      useInterlocked := access.useInterlocked
      zeroBuffers := buffers.zero
      randBuffers := buffers.rand
      separateBuffers := buffers.separate })

/-! ### The targets -/

/-- What `stat` says about a path, and the size of the partition where it is a device. -/
inductive Stat where
  | failed (description : String)
  | noEntry
  | file (stSize : Int64)
  | device (partitionSize : Int64)
  deriving DecidableEq, Repr

/-- The size of the target and whether its file is to be created. -/
def targetSize (dummy : Target) (path : CString) (stat : Stat) :
    Except Failure (Int64 × Bool) :=
  match stat with
  | .failed description => .error (.rejected ("Unexpected error '" ++ description ++
      "' when statting " ++ String.ofList path ++ "!\n"))
  | .noEntry =>
    if dummy.createFile then .ok (dummy.size, true)
    else .error (.rejected ("Target \"" ++ String.ofList path ++ "\" does not exist!\n"))
  | .file stSize =>
    -- a file that is large enough is not created again; the size is that of -c in either case
    if dummy.createFile then .ok (dummy.size, !(dummy.size ≤ stSize))
    else .ok (stSize, false)
  | .device partitionSize =>
    if dummy.createFile then
      .error (.rejected ("Target \"" ++ String.ofList path ++
        "\" is an existing device! Don't use -c!\n"))
    else .ok (partitionSize, false)

/-- One target: the options of the dummy, its size, and the checks on it. -/
def setUpTarget (dummy : Target) (path : CString) (stat : Stat) : Except Failure Target := do
  let (size, createFile) ← targetSize dummy path stat
  let target : Target := { dummy with
    path, size, createFile
    interlockedOffset := if dummy.useInterlocked then dummy.baseOffset else 0
    -- default max_size to size if the option wasn't specified
    maxSize := if dummy.maxSize = 0 then size else dummy.maxSize }
  rejectIf (target.size < target.maxSize) "target-size can't be larger than its actual size!\n"
  -- check the block size against the max_size of the file
  rejectIf ((target.maxSize - target.baseOffset).toUInt64 < target.blockSize ||
      target.maxSize ≤ target.baseOffset)
    ("target " ++ String.ofList path ++ "'s specified size is too small for block size of " ++
      toString target.blockSize ++ " bytes\n")
  .ok target

def setUpTargets (dummy : Target) (stat : CString → Stat) :
    List CString → Except Failure (List Target)
  | [] => .ok []
  | path :: paths => do
    let target ← setUpTarget dummy path (stat path)
    let targets ← setUpTargets dummy stat paths
    .ok (target :: targets)

/-- The thread count: the one of `-F`, or the sum over the targets in `unsigned int`. -/
def countThreads (job : JobOptions) (targets : List Target) : UInt32 :=
  if job.useTotalThreads then job.totalThreads
  else targets.foldl (fun total target => total + target.threadsPerTarget) job.totalThreads

def parseOptions (options : Options) (stat : CString → Stat) : Except Failure JobOptions := do
  rejectIf options.nonOpts.isEmpty "No targets specified!\n"
  let (job, dummy) ← parseArguments options
  let targets ← setUpTargets dummy stat options.nonOpts
  .ok { job with targets, totalThreads := countThreads job targets }

/-- The whole of `Profile::parse_options`, on the calls argp makes for a command line. -/
def parseCommandLine (calls : List (Key × Option CString)) (stat : CString → Stat) :
    Except Failure JobOptions :=
  match Options.parseArgs calls {} with
  | .error _ => .error (.rejected "Couldn't parse arguments\n")
  | .ok options => parseOptions options stat

/-! ### The checks of `run_job` -/

/-- How many threads operate on the target. -/
def JobOptions.noThreads (job : JobOptions) (target : Target) : UInt32 :=
  if job.useTotalThreads then job.totalThreads else target.threadsPerTarget

/-- The highest offset an operation of the target can have. -/
def Target.maxOffset (target : Target) : Int64 :=
  ((target.maxSize - target.baseOffset).toUInt64 - target.blockSize).toInt64

def Target.checkSetUp (target : Target) (noThreads : UInt32) : Except Failure Unit := do
  let mask := target.sectorSize - 1
  rejectIf (target.openFlags.direct &&
      (target.blockSize &&& mask != 0 || target.stride.toUInt64 &&& mask != 0 ||
        target.threadOffset.toUInt64 &&& mask != 0))
    "O_DIRECT specified, but block size, stride or thread stride (-b, -s, -r, -T) argument isn't block aligned!\n"
  -- none of the starting offsets of the threads may be past the max size
  rejectIf (target.maxOffset < target.threadOffset * (noThreads - 1).toUInt64.toInt64)
    ("File setup failed; I/O offset would overwrite end of file.\n" ++
      "Solution: reduce -T (more overlap between threads), or -t or -F (less " ++
      "threads per file), or increase file size (-c)\n")

end DiskSpd
