/-
**The device of a target.**

* `mapDevices_ok` — each block device is found under its id.
* `basename_file`, `dirname_file` — what the two functions give for a path with a last part.
* `SysfsLink` — the two forms of a link that `device_from_id` is written for.
* `targetDevice_disk` — a target gets the disk of its device and the scheduler of that disk exactly when the
  device is the disk itself, or the name of the disk does not start as the directory of the disks is called.
-/

import DiskSpd.Model.Devices

namespace DiskSpd

/-! ### The set-up -/

section SetUp

variable {stat : CString → Except String UInt64} {ids result : DeviceMap} {id : UInt64} {name : CString}

theorem mem_blockDevices {dir : List CString} :
    name ∈ blockDevices dir ↔ name ∈ dir ∧ name.head? ≠ some '.' := by
  have loop : ∀ devices : SortedSet CString, name ∈ dir.foldl
      (fun devices name => if name.head? = some '.' then devices else devices.insert name) devices ↔
      (name ∈ dir ∧ name.head? ≠ some '.') ∨ name ∈ devices := by
    induction dir with
    | nil => simp
    | cons first dir ih =>
      intro devices
      rw [List.foldl_cons, ih, List.mem_cons]
      split_ifs with hidden
      · constructor
        · tauto
        · rintro (⟨rfl | later, shown⟩ | before)
          · exact absurd hidden shown
          · exact Or.inl ⟨later, shown⟩
          · exact Or.inr before
      · rw [SortedSet.mem_insert]
        constructor
        · rintro (later | rfl | before)
          · exact Or.inl ⟨Or.inr later.1, later.2⟩
          · exact Or.inl ⟨Or.inl rfl, hidden⟩
          · exact Or.inr before
        · tauto
  exact (loop .empty).trans (or_iff_left (SortedSet.not_mem_empty name))

/-- The loop over the devices leaves an id alone that none of them has. -/
theorem mapDevices_other {devices : List CString} (ok : mapDevices stat devices ids = .ok result)
    (other : ∀ str ∈ devices, stat ("/dev/".toList ++ str) ≠ .ok id) : result id = ids id := by
  induction devices generalizing ids with
  | nil =>
    rw [mapDevices, Except.ok.injEq] at ok
    rw [ok]
  | cons str devices ih =>
    obtain ⟨first, later⟩ := List.forall_mem_cons.mp other
    unfold mapDevices at ok
    dsimp only at ok
    cases isStat : stat ("/dev/".toList ++ str) with
    | error err =>
      rw [isStat] at ok
      cases ok
    | ok stRdev =>
      rw [isStat] at ok
      rw [ih ok later]
      refine Function.update_of_ne (fun same => first ?_) _ _
      rw [isStat, same]

/-- **A device is found under its id**, if no other one has the same. -/
theorem mapDevices_ok {devices : List CString} (ok : mapDevices stat devices ids = .ok result)
    (member : name ∈ devices) (isStat : stat ("/dev/".toList ++ name) = .ok id)
    (unique : ∀ str ∈ devices, stat ("/dev/".toList ++ str) = .ok id → str = name) :
    result id = some name := by
  induction devices generalizing ids with
  | nil => exact absurd member List.not_mem_nil
  | cons str devices ih =>
    unfold mapDevices at ok
    dsimp only at ok
    by_cases later : name ∈ devices
    · cases isFirst : stat ("/dev/".toList ++ str) with
      | error err =>
        rw [isFirst] at ok
        cases ok
      | ok stRdev =>
        rw [isFirst] at ok
        exact ih ok later fun other inLater => unique other (List.mem_cons_of_mem _ inLater)
    · obtain rfl := (List.mem_cons.mp member).resolve_right later
      rw [isStat] at ok
      rw [mapDevices_other ok fun other inLater same => ?_]
      · exact Function.update_self _ _ _
      · exact later (unique other (List.mem_cons_of_mem _ inLater) same ▸ inLater)

end SetUp

/-! ### Paths -/

section Paths

variable {dir file : CString}

/-- The name of a file: a part of a path. -/
structure IsName (name : CString) : Prop where
  nonempty : name ≠ []
  noSlash : '/' ∉ name

theorem IsName.rdropWhile_append (name : IsName file) (dir : CString) :
    (dir ++ file).rdropWhile (· = '/') = dir ++ file := by
  rw [List.rdropWhile_eq_self_iff]
  intro nonempty isSlash
  rw [List.getLast_append_of_ne_nil nonempty name.nonempty] at isSlash
  exact name.noSlash (of_decide_eq_true isSlash ▸ List.getLast_mem name.nonempty)

theorem IsName.rdropWhile_file (name : IsName file) (dir : CString) :
    (dir ++ '/' :: file).rdropWhile (· ≠ '/') = dir ++ ['/'] := by
  have all : ∀ c ∈ file.reverse, decide (c ≠ '/') = true := fun c member =>
    decide_eq_true fun isSlash => name.noSlash (isSlash ▸ List.mem_reverse.mp member)
  unfold List.rdropWhile
  rw [List.reverse_append, List.reverse_cons, List.append_assoc, List.dropWhile_append_of_pos all,
    List.singleton_append, List.dropWhile_cons_of_neg (by decide), List.reverse_cons, List.reverse_reverse]

theorem IsName.rtakeWhile_file (name : IsName file) (dir : CString) :
    (dir ++ '/' :: file).rtakeWhile (· ≠ '/') = file := by
  have all : ∀ c ∈ file.reverse, decide (c ≠ '/') = true := fun c member =>
    decide_eq_true fun isSlash => name.noSlash (isSlash ▸ List.mem_reverse.mp member)
  unfold List.rtakeWhile
  rw [List.reverse_append, List.reverse_cons, List.append_assoc, List.takeWhile_append_of_pos all,
    List.singleton_append, List.takeWhile_cons_of_neg (by decide), List.append_nil, List.reverse_reverse]

/-- **The last part of a path.** -/
theorem basename_file (name : IsName file) (dir : CString) : basename (dir ++ '/' :: file) = file := by
  have keeps := name.rdropWhile_append (dir ++ ['/'])
  rw [List.append_assoc, List.singleton_append] at keeps
  unfold basename
  dsimp only
  rw [keeps, if_neg (List.append_ne_nil_of_right_ne_nil _ (List.cons_ne_nil _ _))]
  exact name.rtakeWhile_file dir

/-- **The path before the last part**, if it ends in a part too. -/
theorem dirname_file {up : CString} (name : IsName file) (isUp : IsName up) (dir : CString) :
    dirname (dir ++ '/' :: up ++ '/' :: file) = dir ++ '/' :: up := by
  have keeps := name.rdropWhile_append (dir ++ '/' :: up ++ ['/'])
  rw [List.append_assoc _ ['/'], List.singleton_append] at keeps
  have upKeeps := isUp.rdropWhile_append (dir ++ ['/'])
  rw [List.append_assoc, List.singleton_append] at upKeeps
  have trims : (dir ++ '/' :: up ++ ['/']).rdropWhile (· = '/') = dir ++ '/' :: up :=
    (List.rdropWhile_concat_pos _ _ _ rfl).trans upKeeps
  unfold dirname
  dsimp only
  rw [keeps, if_neg (List.append_ne_nil_of_right_ne_nil _ (List.cons_ne_nil _ _)),
    name.rdropWhile_file, if_neg (List.append_ne_nil_of_right_ne_nil _ (List.cons_ne_nil _ _)),
    trims, if_neg (List.append_ne_nil_of_right_ne_nil _ (List.cons_ne_nil _ _))]

end Paths

/-! ### The disk -/

/-- The text of the link that sysfs has for a device: it ends in `block/disk`, or in `disk/partition`. -/
inductive SysfsLink (disk : CString) : CString → CString → Prop where
  | disk (dir : CString) : SysfsLink disk disk (dir ++ '/' :: "block".toList ++ '/' :: disk)
  | partition (dir part : CString) (isPart : IsName part) :
    SysfsLink disk part (dir ++ '/' :: disk ++ '/' :: part)

section Disk

variable {entries : List CString} {stat : CString → Except String UInt64} {ids : DeviceMap}
  {readlink : CString → Option CString} {id : UInt64} {name disk link : CString}

/-- What `device_from_id` makes of a link with a part above the last one. -/
theorem deviceFromId_file {dir up file : CString} (isDevice : ids id = some name)
    (isLink : readlink ("/sys/class/block/".toList ++ name) = some (dir ++ '/' :: up ++ '/' :: file))
    (short : (dir ++ '/' :: up ++ '/' :: file).length ≤ pathMax) (isUp : IsName up)
    (isFile : IsName file) :
    deviceFromId ids readlink id = .ok (if up.take 5 = "block".toList then name else up) := by
  unfold deviceFromId
  rw [isDevice]
  dsimp only
  rw [isLink]
  dsimp only
  rw [List.take_of_length_le short, dirname_file isFile isUp, basename_file isUp]
  split_ifs <;> rfl

/-- `"block"` is what a name starts with. -/
theorem take_block : disk.take 5 = "block".toList ↔ "block".toList <+: disk :=
  eq_comm.trans List.prefix_iff_eq_take.symm

/-- **The device that is found**: the disk, or the device itself. -/
theorem deviceFromId_link (isDevice : ids id = some name)
    (isLink : readlink ("/sys/class/block/".toList ++ name) = some link)
    (short : link.length ≤ pathMax) (isDisk : IsName disk) (sysfs : SysfsLink disk name link) :
    deviceFromId ids readlink id = .ok (if "block".toList <+: disk then name else disk) := by
  cases sysfs with
  | disk dir =>
    have isBlock : IsName "block".toList := ⟨by decide, by decide⟩
    rw [ite_self, deviceFromId_file isDevice isLink short isBlock isDisk]
    rfl
  | partition dir part isPart =>
    rw [deviceFromId_file isDevice isLink short isDisk isPart]
    simp only [take_block]

theorem map_pair_eq {result : Option (Except Stop (List Char))} {device : CString}
    {scheduler : List Char} :
    (result.map fun scheduler => scheduler.map fun scheduler => (device, scheduler)) =
        some (.ok (disk, scheduler)) ↔ device = disk ∧ result = some (.ok scheduler) := by
  cases result with
  | none => simp
  | some result => cases result <;> simp [Except.map]

/-- **The device and the scheduler of a target.** -/
theorem targetDevice_disk (initialized : initDevices (some entries) stat = .ok ids)
    (listed : name ∈ entries) (shown : name.head? ≠ some '.')
    (isStat : stat ("/dev/".toList ++ name) = .ok id)
    -- the kernel gives each block device an id of its own
    (unique : ∀ other ∈ entries, stat ("/dev/".toList ++ other) = .ok id → other = name)
    (isLink : readlink ("/sys/class/block/".toList ++ name) = some link)
    (short : link.length ≤ pathMax) (isDisk : IsName disk) (sysfs : SysfsLink disk name link)
    {buf : DeviceIds} (onDevice : (if buf.stRdev ≠ 0 then buf.stRdev else buf.stDev) = id)
    (schedfile : CString → Option (List Char)) (rounds : Nat) (scheduler : List Char) :
    targetDevice ids readlink schedfile rounds buf = some (.ok (disk, scheduler)) ↔
      (name = disk ∨ ¬ "block".toList <+: disk) ∧
        schedulerFromDevice rounds disk (schedfile disk) = some (.ok scheduler) := by
  have isDevice : ids id = some name :=
    mapDevices_ok initialized (mem_blockDevices.mpr ⟨listed, shown⟩) isStat fun other isOther =>
      unique other (mem_blockDevices.mp isOther).1
  unfold targetDevice
  rw [onDevice, deviceFromId_link isDevice isLink short isDisk sysfs]
  dsimp only
  rw [map_pair_eq]
  constructor
  · rintro ⟨same, isScheduler⟩
    rw [same] at isScheduler
    refine ⟨?_, isScheduler⟩
    split_ifs at same with starts
    · exact Or.inl same
    · exact Or.inr starts
  · rintro ⟨isFound, isScheduler⟩
    have same : (if "block".toList <+: disk then name else disk) = disk := by
      split_ifs with starts
      · exact isFound.resolve_right (not_not.mpr starts)
      · rfl
    rw [same]
    exact ⟨rfl, isScheduler⟩

end Disk

/-! ### One partition -/

/-- A disk and its partition. -/
def sdaEntries : List CString := [".".toList, "..".toList, "sda".toList, "sda1".toList]

def sdaStat (path : CString) : Except String UInt64 :=
  if path = "/dev/sda".toList then .ok 2048
  else if path = "/dev/sda1".toList then .ok 2049
  else .error "2: No such file or directory"

def sdaLink (path : CString) : Option CString :=
  if path = "/sys/class/block/sda".toList then some "../../devices/ata1/block/sda".toList
  else if path = "/sys/class/block/sda1".toList then some "../../devices/ata1/block/sda/sda1".toList
  else none

def sdaSchedulers (device : CString) : Option (List Char) :=
  if device = "sda".toList then some "none [mq-deadline]".toList else none

/-- A file on the partition. -/
theorem sda_targetDevice : ∃ ids, initDevices (some sdaEntries) sdaStat = .ok ids ∧
    targetDevice ids sdaLink sdaSchedulers 32 ⟨0, 2049⟩ =
      some (.ok ("sda".toList, "mq-deadline".toList)) := by
  have initialized : initDevices (some sdaEntries) sdaStat = .ok _ := rfl
  have listed : "sda1".toList ∈ sdaEntries := by decide
  have shown : "sda1".toList.head? ≠ some '.' := by decide
  have isStat : sdaStat ("/dev/".toList ++ "sda1".toList) = .ok 2049 := rfl
  have unique : ∀ other ∈ sdaEntries,
      sdaStat ("/dev/".toList ++ other) = .ok 2049 → other = "sda1".toList := by
    simp only [sdaEntries, List.forall_mem_cons]
    refine ⟨fun no => ?_, fun no => ?_, fun no => ?_, fun _ => trivial, fun _ no => absurd no List.not_mem_nil⟩
      <;> cases no
  have isLink : sdaLink ("/sys/class/block/".toList ++ "sda1".toList) =
    some "../../devices/ata1/block/sda/sda1".toList := rfl
  have isDisk : IsName "sda".toList := ⟨by decide, by decide⟩
  have isPart : IsName "sda1".toList := ⟨by decide, by decide⟩
  have sysfs : SysfsLink "sda".toList "sda1".toList "../../devices/ata1/block/sda/sda1".toList :=
    .partition "../../devices/ata1/block".toList _ isPart
  let buf : DeviceIds := ⟨0, 2049⟩
  have onDevice : (if buf.stRdev ≠ 0 then buf.stRdev else buf.stDev) = 2049 := rfl
  have found := targetDevice_disk initialized listed shown isStat unique isLink (by decide) isDisk sysfs
    onDevice sdaSchedulers 32 "mq-deadline".toList
  exact ⟨_, initialized, found.mpr ⟨Or.inr (by decide), rfl⟩⟩

end DiskSpd
