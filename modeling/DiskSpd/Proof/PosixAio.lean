/-
**The POSIX engine keeps its contract.**

* `Sound` — what the engine knows about a group: the flight ids of its operations find them in the
  shared map, a `wait` past `aio_suspend` has a completed operation in front of it, and what was
  accepted has been returned or is in flight.
* `PosixInv` — the invariant of all groups: no operation is queued or in flight twice, and each entry
  of the map is an operation in flight.
* `posixContract_reachable` — so in every interleaving each submission is returned once, by its own
  group, after it completed, and the exit of a `wait` that finds no completed operation is not
  reached.
-/

import DiskSpd.Lib.Dispatch
import DiskSpd.Model.PosixAio

namespace DiskSpd

open Dispatch IdPool Transition

/-! ### Groups -/

/-- The thread is at no access to the map. -/
def PosixPc.Plain : PosixPc → Prop
  | .registering _ | .taking _ _ => False
  | _ => True

theorem PosixPc.Plain.of_eq {pc pc' : PosixPc} (same : pc = pc') (plain : pc'.Plain) : pc.Plain :=
  same ▸ plain

theorem PosixPc.Plain.not_registering {pc : PosixPc} {op : Nat} (plain : pc.Plain) :
    pc ≠ .registering op := fun same => by
  rw [same] at plain
  exact plain

theorem PosixPc.Plain.not_taking {pc : PosixPc} {op : Nat} {flightId : UInt32} (plain : pc.Plain) :
    pc ≠ .taking op flightId := fun same => by
  rw [same] at plain
  exact plain

namespace PosixGroup

variable {group : PosixGroup} {op : Nat}

/-- The operations of a group, queued or in flight. -/
def place (group : PosixGroup) : List Nat :=
  group.queue ++ group.flying

theorem flying_plain (plain : group.pc.Plain) : group.flying = group.suspendVec := by
  unfold flying
  split
  · next taking => exact absurd taking plain.not_taking
  · rfl

theorem mem_flying (member : op ∈ group.suspendVec) : op ∈ group.flying := by
  unfold flying
  split
  · exact List.mem_cons_of_mem _ member
  · exact member

theorem flying_taking {flightId : UInt32} (taking : group.pc = .taking op flightId) :
    group.flying = op :: group.suspendVec := by
  unfold flying
  rw [taking]

theorem taking_mem_flying {flightId : UInt32} (taking : group.pc = .taking op flightId) :
    op ∈ group.flying := by
  rw [flying_taking taking]
  exact List.mem_cons_self

end PosixGroup

/-! ### The invariant -/

/-- **What the engine knows about a group.** -/
structure Sound (s : PosixState) (group : PosixGroup) : Prop where
  found : ∀ op ∈ group.flying, group.pc ≠ .registering op →
    s.suspendInFlight.lookup (s.flightId op) = some op
  registering : ∀ op, group.pc = .registering op → op ∈ group.suspendVec
  scanning : ∀ place, group.pc = .scanning place →
    ∃ (j : Nat) (cb : Nat), place ≤ j ∧ group.suspendVec[j]? = some cb ∧ s.inProgress cb = false
  taking : ∀ cb flightId, group.pc = .taking cb flightId →
    s.inProgress cb = false ∧ flightId = s.flightId cb
  exit : group.pc ≠ .noCompletedIops
  log : (group.returned ++ group.flying.map some).Perm (group.accepted.map some)

structure PosixInv (s : PosixState) : Prop where
  apart : Apart (PosixGroup.place ∘ s.groups)
  owned : ∀ id op, s.suspendInFlight.lookup id = some op → s.flightId op = id ∧
    ∃ g, op ∈ (s.groups g).flying ∧ (s.groups g).pc ≠ .registering op
  sound : ∀ g, Sound s (s.groups g)

theorem posixInv_initial (ops : Nat → PosixAsyncIop) : PosixInv { ops } where
  apart := .empty
  owned _ _ found := by cases found
  sound _ :=
    { found := fun _ member => (by cases member)
      registering := fun _ pc => (by cases pc)
      scanning := fun _ pc => (by cases pc)
      taking := fun _ _ pc => (by cases pc)
      exit := fun pc => (by cases pc)
      log := List.Perm.refl [] }

section Invariant

variable {s next : PosixState} {g : Int32} {group : PosixGroup} {op : Nat}

/-- **Frame.** What is known about a group depends on its operations in flight only. -/
theorem Sound.frame (sound : Sound s group)
    (flightIds : ∀ op ∈ group.flying, next.flightId op = s.flightId op)
    (done : ∀ op ∈ group.flying, s.inProgress op = false → next.inProgress op = false)
    (lookups : ∀ op ∈ group.flying, s.suspendInFlight.lookup (s.flightId op) = some op →
      next.suspendInFlight.lookup (s.flightId op) = some op) : Sound next group where
  found op member registered := by
    rw [flightIds op member]
    exact lookups op member (sound.found op member registered)
  registering := sound.registering
  scanning place scans := by
    obtain ⟨j, cb, ahead, inVec, isDone⟩ := sound.scanning place scans
    have member := PosixGroup.mem_flying (List.mem_of_getElem? inVec)
    exact ⟨j, cb, ahead, inVec, done cb member isDone⟩
  taking cb flightId takes := by
    obtain ⟨isDone, read⟩ := sound.taking cb flightId takes
    have member := PosixGroup.taking_mem_flying takes
    exact ⟨done cb member isDone, by rw [flightIds cb member, read]⟩
  exit := sound.exit
  log := sound.log

/-- An operation that is not enqueued itself stays idle. -/
theorem PosixState.Idle.enqueue {other : Nat} (idle : s.Idle op) (ne : op ≠ other) : (s.enqueue other).Idle op := by
  intro g
  unfold PosixState.enqueue PosixState.setGroup
  dsimp only
  by_cases here : g = (s.ops other).groupId
  · subst here
    rw [Function.update_self]
    refine ⟨fun queued => ?_, (idle _).2⟩
    rcases List.mem_append.mp queued with old | new
    · exact (idle _).1 old
    · exact ne (List.mem_singleton.mp new)
  · rw [Function.update_of_ne here]
    exact idle g

namespace PosixInv

/-- Two groups have no operation in common. -/
theorem disjoint (inv : PosixInv s) {g' : Int32} (other : g' ≠ g) (member : op ∈ (s.groups g').flying) :
    op ∉ (s.groups g).place := fun here =>
  other (inv.apart.apart g' g op (List.mem_append_right _ member) here)

/-- **A step of one group**: what has to be shown of the group, of the map, and of the operations that
other groups have in flight. -/
theorem of_group (inv : PosixInv s) (groups : next.groups = Function.update s.groups g group)
    (apart : Apart (PosixGroup.place ∘ next.groups)) (own : Sound next group)
    (owned : ∀ id op, next.suspendInFlight.lookup id = some op → next.flightId op = id ∧
      ((op ∈ group.flying ∧ group.pc ≠ .registering op) ∨
        s.suspendInFlight.lookup id = some op ∧ op ∉ (s.groups g).flying))
    (others : ∀ g' ≠ g, Sound next (s.groups g')) : PosixInv next := by
  have elsewhere : ∀ g' ≠ g, next.groups g' = s.groups g' := fun g' other => by
    rw [groups, Function.update_of_ne other]
  have here : next.groups g = group := by
    rw [groups, Function.update_self]
  refine ⟨apart, fun id op found => ?_, fun g' => ?_⟩
  · obtain ⟨read, isHere | ⟨found', notHere⟩⟩ := owned id op found
    · exact ⟨read, g, by rwa [here]⟩
    · obtain ⟨_, g', member, registered⟩ := inv.owned id op found'
      have other : g' ≠ g := fun same => notHere (same ▸ member)
      exact ⟨read, g', by rw [elsewhere g' other]; exact ⟨member, registered⟩⟩
  · by_cases same : g' = g
    · rw [same, here]
      exact own
    · rw [elsewhere g' same]
      exact others g' same

/-- A step that only changes a group, where its registered operations stay in flight. -/
theorem setGroup (inv : PosixInv s)
    (apart : Apart (PosixGroup.place ∘ Function.update s.groups g group))
    (own : Sound s group)
    (kept : ∀ op ∈ (s.groups g).flying, (s.groups g).pc ≠ .registering op →
      op ∈ group.flying ∧ group.pc ≠ .registering op) : PosixInv (s.setGroup g group) := by
  refine inv.of_group rfl apart (own.frame (fun _ _ => rfl) (fun _ _ isDone => isDone)
    fun _ _ found => found) ?_ fun g' _ => (inv.sound g').frame (fun _ _ => rfl)
      (fun _ _ isDone => isDone) fun _ _ found => found
  intro id op found
  obtain ⟨read, g', member, registered⟩ := inv.owned id op found
  refine ⟨read, ?_⟩
  by_cases same : g' = g
  · subst same
    exact Or.inl (kept op member registered)
  · exact Or.inr ⟨found, fun here => inv.disjoint same member (List.mem_append_right _ here)⟩

/-- A step of a thread that is at no access to the map, before and after it. -/
theorem plain (inv : PosixInv s) (was : (s.groups g).pc.Plain) (isPlain : group.pc.Plain)
    (queue : group.queue.Sublist (s.groups g).queue)
    (vec : group.suspendVec = (s.groups g).suspendVec)
    (logs : group.accepted = (s.groups g).accepted ∧ group.returned = (s.groups g).returned)
    (scanning : ∀ place, group.pc = .scanning place →
      ∃ (j : Nat) (cb : Nat), place ≤ j ∧ group.suspendVec[j]? = some cb ∧ s.inProgress cb = false)
    (exit : group.pc ≠ .noCompletedIops) : PosixInv (s.setGroup g group) := by
  have same : group.flying = (s.groups g).flying := by
    rw [PosixGroup.flying_plain was, PosixGroup.flying_plain isPlain, vec]
  refine inv.setGroup ?_ ?_ fun op member _ => ⟨same ▸ member, isPlain.not_registering⟩
  · rw [Function.comp_update]
    refine inv.apart.update ?_
    show (group.queue ++ group.flying).Subperm ((s.groups g).queue ++ (s.groups g).flying)
    rw [same]
    exact (queue.append_right _).subperm
  · exact
    { found := fun op member _ => (inv.sound g).found op (same ▸ member) was.not_registering
      registering := fun op pc => absurd pc isPlain.not_registering
      scanning := scanning
      taking := fun cb flightId pc => absurd pc isPlain.not_taking
      exit := exit
      log := by
        rw [logs.1, logs.2, same]
        exact (inv.sound g).log }

/-- Such a step that at most drops queued operations, and looks at no entry of the map next. -/
theorem goto (inv : PosixInv s) (was : (s.groups g).pc.Plain) {rest : List Nat}
    {submitted : List Int32} {pc : PosixPc} (part : rest.Sublist (s.groups g).queue)
    (isPlain : pc.Plain) (notScanning : ∀ place, pc ≠ .scanning place)
    (notExit : pc ≠ .noCompletedIops) :
    PosixInv (s.setGroup g { s.groups g with queue := rest, submitted := submitted, pc := pc }) :=
  inv.plain was isPlain part rfl ⟨rfl, rfl⟩ (fun place here => absurd here (notScanning place))
    notExit

/-! ### The calls -/

theorem enqueue (inv : PosixInv s) (idle : s.Idle op) : PosixInv (s.enqueue op) := by
  have sound := inv.sound (s.ops op).groupId
  unfold PosixState.enqueue
  generalize (s.ops op).groupId = g at *
  refine inv.setGroup ?_ ⟨sound.found, sound.registering, sound.scanning, sound.taking, sound.exit,
    sound.log⟩ fun _ member registered => ⟨member, registered⟩
  rw [Function.comp_update]
  refine inv.apart.grow (x := op) (fun g' member => ?_) ?_
  · rcases List.mem_append.mp member with queued | flying
    · exact (idle g').1 queued
    · exact (idle g').2 flying
  · show ((s.groups g).queue ++ [op] ++ (s.groups g).flying).Perm
      (op :: ((s.groups g).queue ++ (s.groups g).flying))
    rw [List.append_assoc]
    exact List.perm_middle

/-- An operation is not in flight while it is queued. -/
theorem not_flying (inv : PosixInv s) (queued : op ∈ (s.groups g).queue) (g' : Int32) :
    op ∉ (s.groups g').flying := fun flying => by
  have here := inv.apart.apart g' g op (List.mem_append_right _ flying)
    (List.mem_append_left _ queued)
  subst here
  exact (List.nodup_append.mp (inv.apart.queues g')).2.2 op queued op flying rfl

/-- `aio_read` or `aio_write` accepts the last operation of the queue. -/
theorem started (inv : PosixInv s) (plain : (s.groups g).pc.Plain) {rest : List Nat}
    (queue : (s.groups g).queue = rest ++ [op]) :
    PosixInv { s.setGroup g { s.groups g with
        queue := rest
        suspendVec := (s.groups g).suspendVec ++ [op]
        accepted := (s.groups g).accepted ++ [op]
        pc := .registering op } with
      inProgress := Function.update s.inProgress op true } := by
  have queued : op ∈ (s.groups g).queue := by
    rw [queue]
    exact List.mem_append_right _ (List.mem_singleton.mpr rfl)
  have others : ∀ g', ∀ op' ∈ (s.groups g').flying, s.inProgress op' = false →
      Function.update s.inProgress op true op' = false := fun g' op' flying isDone => by
    have ne : op' ≠ op := fun same => inv.not_flying queued g' (same ▸ flying)
    rw [Function.update_of_ne ne, isDone]
  have sound := inv.sound g
  have flying := PosixGroup.flying_plain plain
  refine inv.of_group rfl ?_ ?_ (fun id op' found => ?_) fun g' _ =>
    (inv.sound g').frame (fun _ _ => rfl) (others g') fun _ _ found => found
  · unfold PosixState.setGroup
    rw [Function.comp_update]
    refine inv.apart.update (List.Perm.subperm ?_)
    show (rest ++ ((s.groups g).suspendVec ++ [op])).Perm
      ((s.groups g).queue ++ (s.groups g).flying)
    rw [queue, flying, List.append_assoc]
    exact (List.perm_append_left_iff rest).mpr List.perm_append_comm
  · refine ⟨fun op' member registered => ?_, fun op' pc => ?_, fun _ pc => ?_, fun _ _ pc => ?_,
      fun pc => ?_, ?_⟩
    · rcases List.mem_append.mp member with old | new
      · exact sound.found op' (flying ▸ old) plain.not_registering
      · exact absurd (by rw [List.mem_singleton.mp new]) registered
    · cases pc
      exact List.mem_append_right _ (List.mem_singleton.mpr rfl)
    · cases pc
    · cases pc
    · cases pc
    · show ((s.groups g).returned ++ ((s.groups g).suspendVec ++ [op]).map some).Perm
        (((s.groups g).accepted ++ [op]).map some)
      have log := sound.log
      rw [flying] at log
      rw [List.map_append, List.map_append, ← List.append_assoc]
      exact log.append_right _
  · obtain ⟨read, g', member, registered⟩ := inv.owned id op' found
    refine ⟨read, ?_⟩
    by_cases same : g' = g
    · subst same
      refine Or.inl ⟨List.mem_append_left _ (flying ▸ member), fun pc => ?_⟩
      cases pc
      exact inv.not_flying queued g' member
    · exact Or.inr ⟨found, fun here => inv.disjoint same member (List.mem_append_right _ here)⟩

theorem start (inv : PosixInv s) (pc : (s.groups g).pc = .submitting) (ret : Int32) :
    PosixInv (s.start g ret) := by
  have plain : (s.groups g).pc.Plain := .of_eq pc trivial
  unfold PosixState.start
  dsimp only
  split
  · exact inv.goto plain (List.Sublist.refl _) trivial nofun nofun
  · next op last =>
    split_ifs with failed
    · exact inv.goto plain (List.dropLast_sublist _) trivial nofun nofun
    · exact inv.started plain (List.dropLast_append_getLast? op last).symm

/-- The critical section of `submit`. -/
theorem register (inv : PosixInv s) (pc : (s.groups g).pc = .registering op)
    (done : s.register g op = some next) : PosixInv next := by
  unfold PosixState.register at done
  obtain ⟨id, free, rfl⟩ := Option.map_eq_some_iff.mp done
  have fresh : id ∉ s.suspendInFlight := findFree_not_mem free
  have sound := inv.sound g
  have flying : (s.groups g).flying = (s.groups g).suspendVec := by
    unfold PosixGroup.flying
    rw [pc]
  have member : op ∈ (s.groups g).flying := PosixGroup.mem_flying (sound.registering op pc)
  let ops := Function.update s.ops op { s.ops op with
    cb := { (s.ops op).cb with sivalInt := id.toInt32 } }
  have atOp : (ops op).cb.sivalInt.toUInt32 = id := by
    unfold ops
    rw [Function.update_self]
    exact UInt32.toUInt32_toInt32 id
  have elsewhere : ∀ op' ≠ op, (ops op').cb.sivalInt.toUInt32 = s.flightId op' := fun op' ne => by
    unfold ops
    rw [Function.update_of_ne ne]
    rfl
  -- an entry of the map is not the one the new id gets
  have kept : ∀ id' op', s.suspendInFlight.lookup id' = some op' →
      (s.suspendInFlight.insert id op).lookup id' = some op' := fun id' op' found => by
    have ne : id' ≠ id := fun same => fresh (AList.lookup_isSome.mp (by rw [← same, found]; rfl))
    rw [AList.lookup_insert_ne ne, found]
  refine inv.of_group rfl ?_ ?_ (fun id' op' found => ?_) fun g' other =>
    (inv.sound g').frame (fun op' isFlying => elsewhere op' fun same => ?_)
      (fun _ _ isDone => isDone) fun op' _ found => kept _ op' found
  · unfold PosixState.goto PosixState.setGroup
    rw [Function.comp_update]
    refine inv.apart.update (List.Perm.subperm ?_)
    show ((s.groups g).queue ++ (s.groups g).suspendVec).Perm
      ((s.groups g).queue ++ (s.groups g).flying)
    rw [flying]
  · refine ⟨fun op' isFlying _ => ?_, fun _ pc => ?_, fun _ pc => ?_, fun _ _ pc => ?_, fun pc => ?_,
      ?_⟩
    · show (s.suspendInFlight.insert id op).lookup (ops op').cb.sivalInt.toUInt32 = some op'
      by_cases same : op' = op
      · rw [same, atOp, AList.lookup_insert]
      · rw [elsewhere op' same]
        refine kept _ op' (sound.found op' (flying ▸ isFlying) fun pc' => same ?_)
        rw [pc] at pc'
        cases pc'
        rfl
    · cases pc
    · cases pc
    · cases pc
    · cases pc
    · have log := sound.log
      rw [flying] at log
      exact log
  · by_cases same : id' = id
    · rw [same, AList.lookup_insert, Option.some.injEq] at found
      rw [← found, same]
      exact ⟨atOp, Or.inl ⟨sound.registering op pc, fun pc => by cases pc⟩⟩
    · rw [AList.lookup_insert_ne same] at found
      obtain ⟨read, g', isFlying, registered⟩ := inv.owned id' op' found
      have ne : op' ≠ op := fun here => by
        have group := inv.apart.apart g' g op (List.mem_append_right _ (here ▸ isFlying))
          (List.mem_append_right _ member)
        rw [group, here] at registered
        exact registered pc
      refine ⟨(elsewhere op' ne).trans read, ?_⟩
      by_cases group : g' = g
      · subst group
        have inVec : op' ∈ (s.groups g').suspendVec := flying ▸ isFlying
        exact Or.inl ⟨inVec, fun pc => by cases pc⟩
      · exact Or.inr ⟨found, fun here =>
          inv.disjoint group isFlying (List.mem_append_right _ here)⟩
  · subst same
    exact inv.disjoint other isFlying (List.mem_append_right _ member)

/-- A round of the loop of `wait`. -/
theorem scan (inv : PosixInv s) {place : Nat} (pc : (s.groups g).pc = .scanning place) :
    PosixInv (s.scan g place) := by
  have plain : (s.groups g).pc.Plain := .of_eq pc trivial
  have sound := inv.sound g
  have flying := PosixGroup.flying_plain plain
  obtain ⟨j, done, ahead, inVec, isDone⟩ := sound.scanning place pc
  have inside := (List.getElem?_eq_some_iff.mp inVec).1
  unfold PosixState.scan
  dsimp only
  split
  · next outside =>
    rw [List.getElem?_eq_none_iff] at outside
    omega
  next cb here =>
  split_ifs with going
  · refine inv.plain plain trivial (List.Sublist.refl _) rfl ⟨rfl, rfl⟩ (fun place' pc' => ?_)
      fun pc => by cases pc
    cases pc'
    have ne : place ≠ j := fun same => by
      rw [← same, here, Option.some.injEq] at inVec
      rw [← inVec, going] at isDone
      cases isDone
    exact ⟨j, done, by omega, inVec, isDone⟩
  · obtain ⟨below, isCb⟩ := List.getElem?_eq_some_iff.mp here
    have moved : (cb :: (s.groups g).suspendVec.eraseIdx place).Perm (s.groups g).flying := by
      rw [flying, ← isCb]
      exact List.getElem_cons_eraseIdx_perm below
    refine inv.setGroup ?_ ?_ fun op member _ => ⟨moved.mem_iff.mpr member, fun pc => by cases pc⟩
    · rw [Function.comp_update]
      refine inv.apart.update (List.Perm.subperm ?_)
      exact (List.perm_append_left_iff _).mpr moved
    · refine ⟨fun op member _ => ?_, fun _ pc => ?_, fun _ pc => ?_, fun cb' flightId pc => ?_,
        fun pc => ?_, ?_⟩
      · exact sound.found op (moved.mem_iff.mp member) plain.not_registering
      · cases pc
      · cases pc
      · cases pc
        exact ⟨Bool.eq_false_iff.mpr going, rfl⟩
      · cases pc
      · exact ((List.perm_append_left_iff _).mpr (moved.map some)).trans sound.log

/-- The critical section of `wait`. -/
theorem take (inv : PosixInv s) {cb : Nat} {flightId : UInt32}
    (pc : (s.groups g).pc = .taking cb flightId) : PosixInv (s.take g flightId) := by
  have sound := inv.sound g
  obtain ⟨_, rfl⟩ := sound.taking cb flightId pc
  have flying := PosixGroup.flying_taking pc
  have member : cb ∈ (s.groups g).flying := PosixGroup.taking_mem_flying pc
  have found : s.suspendInFlight.lookup (s.flightId cb) = some cb :=
    sound.found cb member fun registering => by rw [pc] at registering; cases registering
  have nodup : (cb :: (s.groups g).suspendVec).Nodup := by
    rw [← flying]
    exact (inv.apart.queues g).sublist (List.sublist_append_right _ _)
  -- an entry of another operation stays
  have kept : ∀ id op, op ≠ cb → s.suspendInFlight.lookup id = some op →
      (s.suspendInFlight.erase (s.flightId cb)).lookup id = some op := fun id op ne isOp => by
    have other : id ≠ s.flightId cb := fun same => ne <| by
      rw [same, found, Option.some.injEq] at isOp
      exact isOp.symm
    rw [AList.lookup_erase_ne other, isOp]
  have apart : ∀ op ∈ (s.groups g).suspendVec, op ≠ cb := fun op inVec same =>
    (List.nodup_cons.mp nodup).1 (same ▸ inVec)
  unfold PosixState.take PosixState.setGroup
  refine inv.of_group rfl ?_ ?_ (fun id op isOp => ?_) fun g' other =>
    (inv.sound g').frame (fun _ _ => rfl) (fun _ _ isDone => isDone) fun op isFlying =>
      kept _ op fun same => inv.disjoint other isFlying (List.mem_append_right _ (same ▸ member))
  · rw [Function.comp_update]
    refine inv.apart.update (List.Sublist.subperm ?_)
    show ((s.groups g).queue ++ (s.groups g).suspendVec).Sublist
      ((s.groups g).queue ++ (s.groups g).flying)
    rw [flying]
    exact (List.sublist_cons_self cb _).append_left _
  · refine ⟨fun op inVec _ => ?_, fun _ pc => ?_, fun _ pc => ?_, fun _ _ pc => ?_, fun pc => ?_, ?_⟩
    · refine kept _ op (apart op inVec) (sound.found op ?_ fun registering => ?_)
      · rw [flying]
        exact List.mem_cons_of_mem cb inVec
      · rw [pc] at registering
        cases registering
    · cases pc
    · cases pc
    · cases pc
    · cases pc
    · have log := sound.log
      show ((s.groups g).returned ++ [s.suspendInFlight.lookup (s.flightId cb)] ++
        (s.groups g).suspendVec.map some).Perm ((s.groups g).accepted.map some)
      rw [flying, List.map_cons] at log
      rw [found, List.append_assoc]
      exact log
  · dsimp only at isOp
    have ne : id ≠ s.flightId cb := fun same => by
      rw [same, AList.lookup_erase] at isOp
      cases isOp
    rw [AList.lookup_erase_ne ne] at isOp
    obtain ⟨read, g', isFlying, registered⟩ := inv.owned id op isOp
    refine ⟨read, ?_⟩
    by_cases same : g' = g
    · subst same
      rw [flying] at isFlying
      rcases List.mem_cons.mp isFlying with rfl | inVec
      · exact absurd read.symm ne
      · exact Or.inl ⟨inVec, fun pc => by cases pc⟩
    · exact Or.inr ⟨isOp, fun here => inv.disjoint same isFlying (List.mem_append_right _ here)⟩

/-- **The operation that `wait` returns is idle again**, and may be enqueued once more. -/
theorem take_idle (inv : PosixInv s) {cb : Nat} {flightId : UInt32}
    (pc : (s.groups g).pc = .taking cb flightId) : (s.take g flightId).Idle cb := by
  have member : cb ∈ (s.groups g).flying := PosixGroup.taking_mem_flying pc
  have flying := PosixGroup.flying_taking pc
  have nodup : (cb :: (s.groups g).suspendVec).Nodup := by
    rw [← flying]
    exact (inv.apart.queues g).sublist (List.sublist_append_right _ _)
  intro g'
  unfold PosixState.take PosixState.setGroup
  dsimp only
  by_cases same : g' = g
  · subst same
    rw [Function.update_self]
    exact ⟨fun queued => inv.not_flying queued g' member, (List.nodup_cons.mp nodup).1⟩
  · rw [Function.update_of_ne same]
    exact ⟨fun queued => inv.not_flying queued g member,
      fun isFlying => inv.disjoint same isFlying (List.mem_append_right _ member)⟩

/-! ### Runs -/

theorem advance (inv : PosixInv s) {ret : Int32}
    (completed : (s.groups g).pc = .suspending → ret = 0 →
      ∃ cb ∈ (s.groups g).listed, s.inProgress cb = false)
    (done : s.advance g ret = some next) : PosixInv next := by
  unfold PosixState.advance at done
  split at done
  · next pc =>
    cases done
    exact inv.start pc ret
  · next op pc => exact inv.register pc done
  · next pc =>
    have plain : (s.groups g).pc.Plain := .of_eq pc trivial
    cases done
    split_ifs with failed
    · exact inv.goto plain (List.Sublist.refl _) trivial nofun nofun
    · refine inv.plain plain trivial (List.Sublist.refl _) rfl ⟨rfl, rfl⟩ (fun place pc' => ?_)
        fun pc => by cases pc
      cases pc'
      obtain ⟨cb, isListed, isDone⟩ := completed pc (not_not.mp failed)
      obtain ⟨j, inVec⟩ := List.mem_iff_getElem?.mp (List.mem_of_mem_take isListed)
      exact ⟨j, cb, j.zero_le, inVec, isDone⟩
  · next place pc =>
    cases done
    exact inv.scan pc
  · next cb flightId pc =>
    cases done
    exact inv.take pc
  · cases done

/-- A step that changes no group. -/
theorem of_groups (inv : PosixInv s) (groups : next.groups = s.groups)
    (inFlight : next.suspendInFlight = s.suspendInFlight)
    (flightIds : ∀ g, ∀ op ∈ (s.groups g).flying, next.flightId op = s.flightId op)
    (done : ∀ op, s.inProgress op = false → next.inProgress op = false) : PosixInv next := by
  obtain ⟨apart, owned, sound⟩ := inv
  refine ⟨groups ▸ apart, fun id op found => ?_, fun g => ?_⟩
  · rw [inFlight] at found
    obtain ⟨read, g, member, registered⟩ := owned id op found
    exact ⟨(flightIds g op member).trans read, g, by rw [groups]; exact ⟨member, registered⟩⟩
  · rw [groups]
    refine (sound g).frame (flightIds g) (fun op _ => done op) fun op _ found => ?_
    rw [inFlight, found]

/-- **Each step keeps the invariant.** -/
theorem step (inv : PosixInv s) {call : PosixCall} (step : PosixStep s call next) :
    PosixInv next := by
  cases step with
  | enqueue idle _ => exact inv.enqueue idle
  | @submit g pc =>
    have plain : (s.groups g).pc.Plain := .of_eq pc trivial
    exact inv.goto plain (List.Sublist.refl _) trivial nofun nofun
  | @wait g pc =>
    have plain : (s.groups g).pc.Plain := .of_eq pc trivial
    exact inv.goto plain (List.Sublist.refl _) trivial nofun nofun
  | advance completed done => exact inv.advance completed done
  | @complete op =>
    refine inv.of_groups rfl rfl (fun _ _ _ => rfl) fun op' isDone => ?_
    show Function.update s.inProgress op false op' = false
    by_cases same : op' = op
    · rw [same, Function.update_self]
    · rw [Function.update_of_ne same, isDone]
  | @set op fields idle =>
    refine inv.of_groups rfl rfl (fun g op' member => ?_) fun _ isDone => isDone
    have ne : op' ≠ op := fun same => (idle g).2 (same ▸ member)
    show (Function.update s.ops op fields op').cb.sivalInt.toUInt32 = s.flightId op'
    rw [Function.update_of_ne ne]
    rfl

end PosixInv

theorem posixInv_reachable (reached : Reachable posixSystem s) : PosixInv s :=
  reached.invariant (fun _ isInit => by
    obtain ⟨ops, rfl⟩ := isInit
    exact posixInv_initial ops) fun _ _ _ inv step => inv.step step

/-! ### The contract -/

/-- **The contract of the engine.** -/
structure PosixContract (s : PosixState) : Prop where
  /-- each submission has been returned by its own group once, or is still in flight there only -/
  once : ∀ g, ((s.groups g).returned ++ (s.groups g).flying.map some).Perm
      ((s.groups g).accepted.map some) ∧ (s.groups g).flying.Nodup ∧
    ∀ g' ≠ g, ∀ op ∈ (s.groups g').flying, op ∉ (s.groups g).flying
  /-- the flight id of a control block finds the operation that owns it -/
  found : ∀ g, ∀ op ∈ (s.groups g).flying, (s.groups g).pc ≠ .registering op →
    s.suspendInFlight.lookup (s.flightId op) = some op
  /-- what `wait` is about to return is the operation it chose, which has completed -/
  wait : ∀ g cb flightId, (s.groups g).pc = .taking cb flightId →
    s.suspendInFlight.lookup flightId = some cb ∧ s.inProgress cb = false
  /-- the search for an id ends while one is free -/
  register : ∀ g op, (s.groups g).pc = .registering op → s.suspendInFlight.keys.length < 2 ^ 32 →
    ∃ next, s.register g op = some next
  exit : ∀ g, (s.groups g).pc ≠ .noCompletedIops

theorem PosixState.register_total (s : PosixState) (g : Int32) (op : Nat)
    (few : s.suspendInFlight.keys.length < 2 ^ 32) : ∃ next, s.register g op = some next := by
  have counter : ∀ id : UInt32, (id + 1).toNat = (id.toNat + 1) % 2 ^ 32 := fun id =>
    UInt32.toNat_add id 1
  obtain ⟨id, found⟩ := findFree_total UInt32.toNat_lt counter s.nextFlightId few
  unfold PosixState.register
  rw [found]
  exact ⟨_, rfl⟩

theorem PosixInv.contract (inv : PosixInv s) : PosixContract s where
  once g := ⟨(inv.sound g).log,
    (inv.apart.queues g).sublist (List.sublist_append_right _ _),
    fun _ other _ member here => inv.disjoint other member (List.mem_append_right _ here)⟩
  found g := (inv.sound g).found
  wait g cb flightId pc := by
    obtain ⟨isDone, rfl⟩ := (inv.sound g).taking cb flightId pc
    refine ⟨(inv.sound g).found cb (PosixGroup.taking_mem_flying pc) fun registering => ?_, isDone⟩
    rw [pc] at registering
    cases registering
  register g op _ few := s.register_total g op few
  exit g := (inv.sound g).exit

/-- **The engine keeps its contract** in every interleaving. -/
theorem posixContract_reachable (reached : Reachable posixSystem s) : PosixContract s :=
  (posixInv_reachable reached).contract

end Invariant

/-- A heap of operations of group 0, all alike. -/
def plainPosixOps (_ : Nat) : PosixAsyncIop where
  cb := { aioOffset := 0, aioFildes := 3, aioBuf := 0, aioNbytes := 512 }
  targetData := 0
  time := 0
  readBuf := 0
  writeBuf := 0

/-- Operations 0 and 1 of group 0, the others of group 1. -/
def twoGroupPosixOps (n : Nat) : PosixAsyncIop :=
  { plainPosixOps n with groupId := if n < 2 then 0 else 1 }

/-- The thread of a group goes on, where the kernel accepts every request. -/
def PosixState.goOn (s : PosixState) (g : Int32) : Option PosixState :=
  if (s.groups g).pc = .suspending ∧ (s.groups g).listed.all s.inProgress then none
  else s.advance g 0

/-- The threads of some groups go on, one after the other. -/
theorem goOn_reachable {groups : List Int32} {s next : PosixState} (reached : Reachable posixSystem s)
    (done : groups.foldlM PosixState.goOn s = some next) : Reachable posixSystem next := by
  induction groups generalizing s with
  | nil =>
    cases done
    exact reached
  | cons g groups ih =>
    obtain ⟨middle, first, rest⟩ := Option.bind_eq_some_iff.mp done
    unfold PosixState.goOn at first
    split_ifs at first with asleep
    refine ih (reached.step (@PosixStep.advance _ g 0 _ (fun pc _ => ?_) first)) rest
    by_contra all
    refine asleep ⟨pc, List.all_eq_true.mpr fun cb listed => ?_⟩
    by_contra isDone
    exact all ⟨cb, listed, Bool.eq_false_iff.mpr isDone⟩

/-- Operations 0 and 1 are queued for group 0, and operation 2 for group 1, and both submit. -/
def twoSubmitting : PosixState :=
  ((((({ ops := twoGroupPosixOps } : PosixState).enqueue 0).enqueue 1).enqueue 2).goto 0
    .submitting).goto 1 .submitting

theorem twoSubmitting_reachable : Reachable posixSystem twoSubmitting := by
  have idle : ∀ n, ({ ops := twoGroupPosixOps } : PosixState).Idle n := fun _ _ =>
    ⟨List.not_mem_nil, List.not_mem_nil⟩
  have begun : Reachable posixSystem { ops := twoGroupPosixOps } := .of_init ⟨twoGroupPosixOps, rfl⟩
  have queued := ((begun.step (.enqueue (idle 0) rfl)).step
    (.enqueue ((idle 1).enqueue (by decide)) rfl)).step
    (.enqueue (((idle 2).enqueue (by decide)).enqueue (by decide)) rfl)
  exact (queued.step (.submit (g := 0) rfl)).step (.submit (g := 1) rfl)

/-- The kernel completes an operation, and the thread of a group waits. -/
def PosixState.completeAndWait (s : PosixState) (op : Nat) (g : Int32) : PosixState :=
  ({ s with inProgress := Function.update s.inProgress op false } : PosixState).goto g .suspending

/-- **Two groups**, whose threads submit at the same time. A `wait` returns operation 1, which is enqueued
and submitted again while operation 0 is still in flight. -/
theorem twoFlights_reachable : ∃ s, Reachable posixSystem s ∧
    (s.groups 0).accepted = [1, 0, 1] ∧ (s.groups 0).returned = [some 1] ∧
    (s.groups 0).suspendVec = [0, 1] ∧ (s.groups 1).accepted = [2] ∧
    s.suspendInFlight.keys = [3, 2, 0] := by
  let submit := [0, 1, 1, 0, 0, 0, 0].foldlM PosixState.goOn twoSubmitting
  let wait (s : PosixState) := [0, 0].foldlM PosixState.goOn (s.completeAndWait 1 0)
  let again (s : PosixState) :=
    [0, 0].foldlM PosixState.goOn (((s.take 0 1).enqueue 1).goto 0 .submitting)
  obtain ⟨submitted, isSubmitted, outside⟩ := Option.map_eq_some_iff.mp
    (show submit.map (fun s => (s.groups 0).pc) = some .idle by decide +kernel)
  obtain ⟨taking, isTaking, places⟩ := Option.map_eq_some_iff.mp
    (show (submit.bind wait).map (fun s =>
      ((s.groups 0).pc, ((s.take 0 1).groups ((s.take 0 1).ops 1).groupId).pc,
        (((s.take 0 1).enqueue 1).groups 0).pc)) = some (.taking 1 1, .idle, .idle) by decide +kernel)
  obtain ⟨last, isLast, facts⟩ := Option.map_eq_some_iff.mp
    (show ((submit.bind wait).bind again).map (fun s =>
      ((s.groups 0).accepted, (s.groups 0).returned, (s.groups 0).suspendVec, (s.groups 1).accepted,
        s.suspendInFlight.keys)) = some ([1, 0, 1], [some 1], [0, 1], [2], [3, 2, 0]) by decide +kernel)
  simp only [Prod.mk.injEq] at places facts
  obtain ⟨isTaken, outside', outside''⟩ := places
  rw [isTaking] at isLast
  rw [isSubmitted] at isTaking
  have waiting : Reachable posixSystem (submitted.completeAndWait 1 0) :=
    ((goOn_reachable twoSubmitting_reachable isSubmitted).step (@PosixStep.complete _ 1)).step
      (.wait outside)
  have reached := goOn_reachable waiting isTaking
  have returned : Reachable posixSystem (taking.take 0 1) := by
    refine reached.step (@PosixStep.advance _ 0 0 _ (fun pc => ?_) ?_)
    · rw [isTaken] at pc
      cases pc
    · unfold PosixState.advance
      rw [isTaken]
  have idle := (posixInv_reachable reached).take_idle isTaken
  have resubmitting := (returned.step (.enqueue idle outside')).step (.submit outside'')
  exact ⟨last, goOn_reachable resubmitting isLast, facts⟩

theorem twoFlights_contract : ∃ s, PosixContract s ∧
    (s.groups 0).accepted = [1, 0, 1] ∧ (s.groups 0).returned = [some 1] ∧
    (s.groups 0).suspendVec = [0, 1] ∧ (s.groups 1).accepted = [2] ∧
    s.suspendInFlight.keys = [3, 2, 0] := by
  obtain ⟨s, reached, logs⟩ := twoFlights_reachable
  exact ⟨s, posixContract_reachable reached, logs⟩

end DiskSpd
