/-
**The block devices** (`sys_info.cc`, `job.cc`).

* `blockDevices`, `mapDevices`, `initDevices` — the second part of `init_sys_info`: the devices of
  `/sys/class/block` under the ids that `/dev` has for them.
* `dirname`, `basename` — the two functions of `libgen.h`.
* `deviceFromId` — the device that a device or a partition is on.
* `targetDevice` — the device and the scheduler of a target.

What `readdir`, `stat` and `readlink` say of the system are parameters.
-/

import DiskSpd.Model.SysInfo
import Mathlib.Data.Char
import Mathlib.Data.List.DropRight
import Mathlib.Data.List.Lex
import Mathlib.Logic.Function.Basic

namespace DiskSpd

/-! ### The set-up -/

/-- The names of `/sys/class/block` in the order of a `std::set`; hidden files are ignored. -/
def blockDevices (dir : List CString) : SortedSet CString :=
  dir.foldl (fun devices name => if name.head? = some '.' then devices else devices.insert name) .empty

abbrev DeviceMap := UInt64 → Option CString

/-- `stat` gives the `st_rdev` of a path, or its error as `errno` and text. -/
def mapDevices (stat : CString → Except String UInt64) :
    List CString → DeviceMap → Except Failure DeviceMap
  | [], idToDevice => .ok idToDevice
  | str :: devices, idToDevice =>
    let devPath := "/dev/".toList ++ str
    match stat devPath with
    | .error err => .error (.exit ("Unexpected error '" ++ err ++ "' when statting " ++
        String.ofList devPath ++ "!\n"))
    | .ok stRdev => mapDevices stat devices (Function.update idToDevice stRdev (some str))

/-- `dir` has the entries of `/sys/class/block`, if it can be opened. -/
def initDevices (dir : Option (List CString)) (stat : CString → Except String UInt64) :
    Except Failure DeviceMap :=
  match dir with
  | none => .error (.exit "Failed to get list of block devices from /sys/class/block")
  | some dir => mapDevices stat (blockDevices dir).toList fun _ => none

/-! ### Paths -/

def dirname (path : CString) : CString :=
  let path' := path.rdropWhile (· = '/')
  let dir := if path' = [] then path else path'.rdropWhile (· ≠ '/')
  if dir = [] then ['.']
  else
    let dir' := dir.rdropWhile (· = '/')
    -- exactly two slashes at the start are kept
    if dir' = [] then if dir.length = 2 then ['/', '/'] else ['/'] else dir'

def basename (path : CString) : CString :=
  let path' := path.rdropWhile (· = '/')
  if path' = [] then if path = [] then ['.'] else ['/']
  else path'.rtakeWhile (· ≠ '/')

/-! ### The device of an id -/

/-- The two numbers of a `dev_t`. -/
def major (dev : UInt64) : UInt32 :=
  UInt64.toUInt32 (((dev >>> (8 : UInt64)) &&& 0xfff) ||| ((dev >>> (32 : UInt64)) &&& 0xfffff000))

def minor (dev : UInt64) : UInt32 :=
  UInt64.toUInt32 ((dev &&& 0xff) ||| ((dev >>> (12 : UInt64)) &&& 0xffffff00))

def pathMax : Nat := 4096

/-- `readlink` gives the text of a link, of which it stores at most `PATH_MAX` characters, or fails. -/
def deviceFromId (idToDevice : DeviceMap) (readlink : CString → Option CString) (deviceId : UInt64) :
    Except Failure CString :=
  match idToDevice deviceId with
  | none => .error (.exit ("Tried to lookup nonexistent device " ++ toString (major deviceId) ++ "," ++
      toString (minor deviceId) ++ " in sys_info!\n"))
  | some devName =>
    match readlink ("/sys/class/block/".toList ++ devName) with
    | none => .error (.exit "Error reading link!\n")
    | some link =>
      let upOneName := basename (dirname (link.take pathMax))
      -- strncmp(up_one_name, "block", 5) == 0
      if upOneName.take 5 = "block".toList then .ok devName else .ok upOneName

/-- What `stat` says of a target: both are 0 if it fails, which nothing checks. -/
structure DeviceIds where
  stRdev : UInt64
  stDev : UInt64

/-- The loop body of `run_job`: the device of a target and its scheduler. `schedfile` has the line of the
scheduler file of each device, which the scan of `scheduler_from_device` reads in so many rounds. -/
def targetDevice (idToDevice : DeviceMap) (readlink : CString → Option CString)
    (schedfile : CString → Option (List Char)) (rounds : Nat) (buf : DeviceIds) :
    Option (Except Stop (CString × List Char)) :=
  match deviceFromId idToDevice readlink (if buf.stRdev ≠ 0 then buf.stRdev else buf.stDev) with
  | .error failure => some (.error (.failure failure))
  | .ok device =>
    (schedulerFromDevice rounds device (schedfile device)).map fun scheduler =>
      scheduler.map fun scheduler => (device, scheduler)

end DiskSpd
