/-
**The POSIX engine keeps the promise of the interface.**

* `GroupAdvance`, `advance_group` — what a step inside a call does to its group, and that it leaves the
  other groups alone.
* `PosixStands` — how a group stands, and where its thread is inside a call.
* `PosixStands.insideSubmit` and the like — each step inside a call keeps the operations of the group,
  `submit` returns with all of them in flight or fails, `wait` returns one of them.
* `lawfulPosix` — so the engine keeps the promise; `IoEngine.lawful` — and so does the engine of any job.
-/

import DiskSpd.Proof.KernelManager
import DiskSpd.Proof.PosixAio

namespace DiskSpd

open Dispatch IdPool IAsyncIop LawfulIop

/-! ### Steps inside a call -/

/-- **What a step inside a call does to its group**, by the place of the thread. -/
inductive GroupAdvance (s : PosixState) (group : PosixGroup) (ret : Int32) : PosixGroup → Prop
  | submitted : group.pc = .submitting → group.queue = [] →
      GroupAdvance s group ret { group with submitted := group.submitted ++ [0], pc := .idle }
  | refused {rest : List Nat} {n : Nat} : group.pc = .submitting → group.queue = rest ++ [n] →
      ret ≠ 0 → GroupAdvance s group ret
        { group with queue := rest, submitted := group.submitted ++ [ret], pc := .idle }
  | started {rest : List Nat} {n : Nat} : group.pc = .submitting → group.queue = rest ++ [n] →
      GroupAdvance s group ret
        { group with
          queue := rest
          suspendVec := group.suspendVec ++ [n]
          accepted := group.accepted ++ [n]
          pc := .registering n }
  | registered {n : Nat} : group.pc = .registering n →
      GroupAdvance s group ret { group with pc := .submitting }
  | suspended {pc : PosixPc} : group.pc = .suspending → pc = .suspendError ∨ pc = .scanning 0 →
      GroupAdvance s group ret { group with pc := pc }
  | exhausted {place : Nat} : group.pc = .scanning place →
      GroupAdvance s group ret { group with pc := .noCompletedIops }
  | passed {place : Nat} : group.pc = .scanning place →
      GroupAdvance s group ret { group with pc := .scanning (place + 1) }
  | chosen {place cb : Nat} : group.pc = .scanning place → group.suspendVec[place]? = some cb →
      GroupAdvance s group ret
        { group with
          suspendVec := group.suspendVec.eraseIdx place
          pc := .taking cb (s.flightId cb) }
  | took {cb : Nat} {flightId : UInt32} : group.pc = .taking cb flightId →
      GroupAdvance s group ret
        { group with
          returned := group.returned ++ [s.suspendInFlight.lookup flightId]
          pc := .idle }

section Posix

variable {s next : PosixState} {st : Int32 → Standing} {g ret : Int32} {standing : Standing}

theorem setGroup_here (s : PosixState) (g : Int32) (group : PosixGroup) :
    (s.setGroup g group).groups g = group := by
  unfold PosixState.setGroup
  exact Function.update_self g group s.groups

/-- **Each step inside a call** is one of these, and leaves the other groups alone. -/
theorem advance_group (done : s.advance g ret = some next) :
    GroupAdvance s (s.groups g) ret (next.groups g) ∧ ∀ g' ≠ g, next.groups g' = s.groups g' := by
  unfold PosixState.advance at done
  split at done
  · next pc =>
    cases done
    unfold PosixState.start
    dsimp only
    split
    · next last =>
      refine ⟨?_, fun g' other => Function.update_of_ne other _ _⟩
      rw [setGroup_here]
      exact .submitted pc (List.getLast?_eq_none_iff.mp last)
    · next n last =>
      have split := (List.dropLast_append_getLast? n last).symm
      split_ifs with failed
      · refine ⟨?_, fun g' other => Function.update_of_ne other _ _⟩
        rw [setGroup_here]
        exact .refused pc split failed
      · refine ⟨?_, fun g' other => Function.update_of_ne other _ _⟩
        show GroupAdvance s (s.groups g) ret ((s.setGroup g _).groups g)
        rw [setGroup_here]
        exact .started pc split
  · next n pc =>
    unfold PosixState.register at done
    obtain ⟨id, _, rfl⟩ := Option.map_eq_some_iff.mp done
    refine ⟨?_, fun g' other => Function.update_of_ne other _ _⟩
    show GroupAdvance s (s.groups g) ret ((s.goto g .submitting).groups g)
    unfold PosixState.goto
    rw [setGroup_here]
    exact .registered pc
  · next pc =>
    cases done
    refine ⟨?_, fun g' other => Function.update_of_ne other _ _⟩
    unfold PosixState.goto
    rw [setGroup_here]
    refine .suspended pc ?_
    split_ifs
    · exact Or.inl rfl
    · exact Or.inr rfl
  · next place pc =>
    cases done
    unfold PosixState.scan PosixState.goto
    dsimp only
    split
    · refine ⟨?_, fun g' other => Function.update_of_ne other _ _⟩
      rw [setGroup_here]
      exact .exhausted pc
    · next cb found =>
      split_ifs
      · refine ⟨?_, fun g' other => Function.update_of_ne other _ _⟩
        rw [setGroup_here]
        exact .passed pc
      · refine ⟨?_, fun g' other => Function.update_of_ne other _ _⟩
        rw [setGroup_here]
        exact .chosen pc found
  · next cb flightId pc =>
    cases done
    refine ⟨?_, fun g' other => Function.update_of_ne other _ _⟩
    show GroupAdvance s (s.groups g) ret ((s.setGroup g _).groups g)
    rw [setGroup_here]
    exact .took pc
  · cases done

/-- No step inside a call changes what an operation says. -/
theorem advance_unchanged (done : s.advance g ret = some next) (n : Nat) :
    Unchanged (s.ops n) (next.ops n) := by
  have same : next.ops = s.ops ∨ ∃ m id, next.ops = Function.update s.ops m { s.ops m with
      cb := { (s.ops m).cb with sivalInt := id } } := by
    unfold PosixState.advance at done
    split at done
    · cases done
      unfold PosixState.start
      dsimp only
      split
      · exact Or.inl rfl
      · split_ifs
        · exact Or.inl rfl
        · exact Or.inl rfl
    · next m _ =>
      unfold PosixState.register at done
      obtain ⟨id, _, rfl⟩ := Option.map_eq_some_iff.mp done
      exact Or.inr ⟨m, _, rfl⟩
    · cases done
      exact Or.inl rfl
    · cases done
      unfold PosixState.scan
      dsimp only
      split
      · exact Or.inl rfl
      · split_ifs
        · exact Or.inl rfl
        · exact Or.inl rfl
    · cases done
      exact Or.inl rfl
    · cases done
  rcases same with ops | ⟨m, id, ops⟩
  · rw [ops]
    exact .refl _
  · have fields : Unchanged (s.ops m) { s.ops m with
        cb := { (s.ops m).cb with sivalInt := id } } := ⟨rfl, fun inStep => inStep⟩
    rw [ops]
    exact fields.update n

/-- Where the thread of a group is while the group is in a call. -/
def Activity.At : Activity → PosixPc → Prop
  | .outside, pc => pc = .idle
  | .submitting, pc => pc = .submitting ∨ ∃ n, pc = .registering n
  | .waiting, pc => pc = .suspending ∨ pc = .suspendError ∨ (∃ place, pc = .scanning place) ∨
      ∃ cb flightId, pc = .taking cb flightId
  | .failed, _ => True

/-- **How a group of the POSIX engine stands.** -/
structure PosixStands (group : PosixGroup) (standing : Standing) : Prop where
  pc : standing.activity.At group.pc
  place : group.place.Subperm standing.place
  queue : standing.activity ≠ .failed → group.queue = standing.queue
  flying : standing.activity ≠ .failed → group.flying.Perm standing.flying

structure PosixHolds (s : PosixState) (st : Int32 → Standing) : Prop where
  inv : PosixInv s
  apart : Dispatch.Apart (Standing.place ∘ st)
  stands : ∀ g, PosixStands (s.groups g) (st g)

/-- A group that is not lost stands as its queue and its flights are. -/
theorem PosixStands.of_alive {group : PosixGroup} (pc : standing.activity.At group.pc)
    (queue : group.queue = standing.queue) (flying : group.flying.Perm standing.flying) :
    PosixStands group standing where
  pc := pc
  place := by
    unfold PosixGroup.place Standing.place
    rw [queue]
    exact (flying.append_left standing.queue).subperm
  queue _ := queue
  flying _ := flying

/-- A step of one group that leaves the others alone. -/
theorem PosixHolds.update (holds : PosixHolds s st) (inv : PosixInv next)
    (others : ∀ g' ≠ g, next.groups g' = s.groups g')
    (apart : Dispatch.Apart (Standing.place ∘ Function.update st g standing))
    (own : PosixStands (next.groups g) standing) :
    PosixHolds next (Function.update st g standing) where
  inv := inv
  apart := apart
  stands g' := by
    by_cases here : g' = g
    · subst here
      rw [Function.update_self]
      exact own
    · rw [Function.update_of_ne here, others g' here]
      exact holds.stands g'

/-- An operation in no group is idle for the engine. -/
theorem PosixHolds.idle (holds : PosixHolds s st) {n : Nat} (free : ∀ g, n ∉ (st g).place) :
    s.Idle n := fun g =>
  ⟨fun queued => free g ((holds.stands g).place.subset (List.mem_append_left _ queued)),
    fun flying => free g ((holds.stands g).place.subset (List.mem_append_right _ flying))⟩

theorem posixHolds_init (ops : Nat → PosixAsyncIop) : PosixHolds { ops } fun _ => {} where
  inv := posixInv_initial ops
  apart := .empty
  stands _ := .of_alive rfl rfl (List.Perm.refl _)

theorem posixHolds_store (holds : PosixHolds s st) {n : Nat} (op : PosixAsyncIop)
    (free : ∀ g, n ∉ (st g).place) :
    PosixHolds { s with ops := Function.update s.ops n op } st where
  inv := holds.inv.step (.set (holds.idle free))
  apart := holds.apart
  stands := holds.stands

theorem posixHolds_enqueue (holds : PosixHolds s st) {n : Nat} {q f : List Nat}
    (here : st g = ⟨.outside, q, f⟩) (isGroup : (s.ops n).groupId = g)
    (free : ∀ g, n ∉ (st g).place) :
    PosixHolds (s.enqueue n) (Function.update st g ⟨.outside, q ++ [n], f⟩) := by
  have stands := holds.stands g
  rw [here] at stands
  have alive : Activity.outside ≠ .failed := by decide
  subst isGroup
  refine holds.update (holds.inv.enqueue (holds.idle free)) (fun g' other => ?_)
    (apart_enqueue holds.apart here free) ?_
  · exact Function.update_of_ne other _ _
  · unfold PosixState.enqueue
    dsimp only
    rw [setGroup_here]
    exact .of_alive stands.pc (congrArg (· ++ [n]) (stands.queue alive)) (stands.flying alive)

/-- The thread of a group enters a call. -/
theorem posixHolds_call (holds : PosixHolds s st) {q f : List Nat}
    (here : st g = ⟨.outside, q, f⟩) {activity : Activity} {pc : PosixPc} (at_ : activity.At pc)
    (plain : pc.Plain) (inv : PosixInv (s.goto g pc)) :
    PosixHolds (s.goto g pc) (Function.update st g ⟨activity, q, f⟩) := by
  have stands := holds.stands g
  rw [here] at stands
  have alive : Activity.outside ≠ .failed := by decide
  have was : (s.groups g).pc.Plain := .of_eq stands.pc trivial
  refine holds.update inv (fun g' other => Function.update_of_ne other _ _)
    (apart_of_perm holds.apart ?_) ?_
  · rw [here]
    exact List.Subperm.refl _
  · unfold PosixState.goto
    rw [setGroup_here]
    refine .of_alive at_ (stands.queue alive) ?_
    have same : ({ s.groups g with pc := pc } : PosixGroup).flying = (s.groups g).flying := by
      rw [PosixGroup.flying_plain was, PosixGroup.flying_plain plain]
    rw [same]
    exact stands.flying alive

/-- A step inside a call, from what it does to its group. -/
theorem posixHolds_advance (holds : PosixHolds s st) (sound : s.SuspendSound g ret)
    (done : s.advance g ret = some next) (kept : standing.place.Subperm (st g).place)
    (own : PosixStands (next.groups g) standing) :
    PosixHolds next (Function.update st g standing) :=
  holds.update (holds.inv.advance sound done) (advance_group done).2
    (apart_of_perm holds.apart kept) own

section Group

variable {group group' : PosixGroup} {q f : List Nat}

/-- A step inside `submit` that goes on moves operations from the queue into flight. -/
theorem PosixStands.insideSubmit (stands : PosixStands group ⟨.submitting, q, f⟩)
    (advance : GroupAdvance s group ret group') (goesOn : group'.pc ≠ .idle) :
    ∃ q' f', (q' ++ f').Perm (q ++ f) ∧ f.Subperm f' ∧
      PosixStands group' ⟨.submitting, q', f'⟩ := by
  have alive : Activity.submitting ≠ .failed := by decide
  have queue : group.queue = q := stands.queue alive
  have flying : group.flying.Perm f := stands.flying alive
  have at_ := stands.pc
  cases advance with
  | submitted | refused | took => exact absurd rfl goesOn
  | @started rest n pc split =>
    rw [PosixGroup.flying_plain (.of_eq pc trivial)] at flying
    refine ⟨rest, n :: f, ?_, (List.sublist_cons_self n f).subperm,
      .of_alive (Or.inr ⟨n, rfl⟩) rfl ?_⟩
    · rw [← queue, split, List.append_assoc]
      exact List.Perm.refl _
    · exact (flying.append_right [n]).trans (List.perm_append_singleton n f)
  | @registered n pc =>
    have same : ({ group with pc := .submitting } : PosixGroup).flying = group.flying := by
      unfold PosixGroup.flying
      rw [pc]
    exact ⟨q, f, List.Perm.refl _, List.Subperm.refl f,
      .of_alive (Or.inl rfl) queue (by rw [same]; exact flying)⟩
  | suspended pc | exhausted pc | passed pc | chosen pc =>
    rw [pc] at at_
    rcases at_ with here | ⟨_, here⟩ <;> cases here

/-- A step inside `wait` that goes on keeps what is in flight. -/
theorem PosixStands.insideWait (stands : PosixStands group ⟨.waiting, q, f⟩)
    (advance : GroupAdvance s group ret group') (goesOn : group'.pc ≠ .idle)
    (exit : group'.pc ≠ .noCompletedIops) :
    ∃ f', f'.Perm f ∧ PosixStands group' ⟨.waiting, q, f'⟩ := by
  have alive : Activity.waiting ≠ .failed := by decide
  have queue : group.queue = q := stands.queue alive
  have flying : group.flying.Perm f := stands.flying alive
  have at_ := stands.pc
  cases advance with
  | submitted | refused | took => exact absurd rfl goesOn
  | exhausted => exact absurd rfl exit
  | started pc | registered pc =>
    rw [pc] at at_
    rcases at_ with here | here | ⟨_, here⟩ | ⟨_, _, here⟩ <;> cases here
  | @suspended pc' pc ways =>
    have same : ({ group with pc := pc' } : PosixGroup).flying = group.flying := by
      rw [PosixGroup.flying_plain (.of_eq pc trivial)]
      rcases ways with rfl | rfl <;> rfl
    refine ⟨f, List.Perm.refl f, .of_alive ?_ queue (by rw [same]; exact flying)⟩
    rcases ways with rfl | rfl
    · exact Or.inr (Or.inl rfl)
    · exact Or.inr (Or.inr (Or.inl ⟨0, rfl⟩))
  | @passed place pc =>
    refine ⟨f, List.Perm.refl f, .of_alive (Or.inr (Or.inr (Or.inl ⟨place + 1, rfl⟩))) queue ?_⟩
    rwa [PosixGroup.flying_plain (.of_eq pc trivial)] at flying
  | @chosen place cb pc found =>
    obtain ⟨below, isCb⟩ := List.getElem?_eq_some_iff.mp found
    rw [PosixGroup.flying_plain (.of_eq pc trivial)] at flying
    have moved : (cb :: group.suspendVec.eraseIdx place).Perm group.suspendVec := by
      rw [← isCb]
      exact List.getElem_cons_eraseIdx_perm below
    exact ⟨f, List.Perm.refl f, .of_alive (Or.inr (Or.inr (Or.inr ⟨cb, _, rfl⟩))) queue
      (moved.trans flying)⟩

/-- `submit` returns: everything is in flight, or the group has failed. -/
theorem PosixStands.submitReturns (stands : PosixStands group ⟨.submitting, q, f⟩)
    (advance : GroupAdvance s group ret group') (pc : group.pc = .submitting)
    (returned : group'.pc = .idle) {value : Int32}
    (last : group'.submitted.getLast? = some value) :
    (value = 0 ∧ ∃ f', f'.Perm (q ++ f) ∧ PosixStands group' ⟨.outside, [], f'⟩) ∨
      (value ≠ 0 ∧ PosixStands group' ⟨.failed, q, f⟩) := by
  have alive : Activity.submitting ≠ .failed := by decide
  have queue : group.queue = q := stands.queue alive
  have flying : group.flying.Perm f := stands.flying alive
  have plain : group.pc.Plain := .of_eq pc trivial
  rw [PosixGroup.flying_plain plain] at flying
  cases advance with
  | submitted _ empty =>
    rw [List.getLast?_concat, Option.some.injEq] at last
    refine Or.inl ⟨last.symm, f, ?_, .of_alive rfl empty flying⟩
    rw [← queue, empty]
    exact List.Perm.refl _
  | @refused rest n _ split failed =>
    rw [List.getLast?_concat, Option.some.injEq] at last
    subst last
    refine Or.inr ⟨failed, trivial, List.Subperm.trans ?_ stands.place, fun dead => absurd rfl dead,
      fun dead => absurd rfl dead⟩
    unfold PosixGroup.place
    rw [PosixGroup.flying_plain plain, split]
    exact ((List.sublist_append_left rest [n]).append (List.Sublist.refl _)).subperm
  | started => cases returned
  | took taking | registered taking | suspended taking | exhausted taking | passed taking
  | chosen taking =>
    rw [pc] at taking
    cases taking

/-- `wait` returns an operation that was in flight. -/
theorem PosixStands.waitReturns (stands : PosixStands group ⟨.waiting, q, f⟩) {cb : Nat}
    {flightId : UInt32} (advance : GroupAdvance s group ret group')
    (pc : group.pc = .taking cb flightId) (found : s.suspendInFlight.lookup flightId = some cb)
    {op : Option Nat} (last : group'.returned.getLast? = some op) :
    ∃ n f', op = some n ∧ f.Perm (n :: f') ∧ PosixStands group' ⟨.outside, q, f'⟩ := by
  have alive : Activity.waiting ≠ .failed := by decide
  have flying : group.flying.Perm f := stands.flying alive
  rw [PosixGroup.flying_taking pc] at flying
  cases advance with
  | @took cb' flightId' taking =>
    rw [pc] at taking
    cases taking
    rw [List.getLast?_concat, Option.some.injEq, found] at last
    exact ⟨cb, group.suspendVec, last.symm, flying.symm,
      .of_alive rfl (stands.queue alive) (List.Perm.refl _)⟩
  | submitted taking | refused taking | started taking | registered taking | suspended taking
  | exhausted taking | passed taking | chosen taking =>
    rw [pc] at taking
    cases taking

end Group

theorem posixHolds_submitReturns (holds : PosixHolds s st) {q f : List Nat} {aioRet : Int32}
    (here : st g = ⟨.submitting, q, f⟩) (pc : (s.groups g).pc = .submitting)
    (done : s.advance g aioRet = some next) (returned : (next.groups g).pc = .idle)
    (last : (next.groups g).submitted.getLast? = some ret) :
    (ret = 0 ∧ ∃ f', f'.Perm (q ++ f) ∧
        PosixHolds next (Function.update st g ⟨.outside, [], f'⟩)) ∨
      (ret ≠ 0 ∧ PosixHolds next (Function.update st g ⟨.failed, q, f⟩)) := by
  have stands := holds.stands g
  rw [here] at stands
  have sound : s.SuspendSound g aioRet := fun suspending => by
    rw [pc] at suspending
    cases suspending
  rcases stands.submitReturns (advance_group done).1 pc returned last with
    ⟨rfl, f', same, own⟩ | ⟨failed, own⟩
  · refine Or.inl ⟨rfl, f', same, posixHolds_advance holds sound done ?_ own⟩
    rw [here]
    exact same.subperm
  · refine Or.inr ⟨failed, posixHolds_advance holds sound done ?_ own⟩
    rw [here]
    exact List.Subperm.refl _

theorem posixHolds_waitReturns (holds : PosixHolds s st) {q f : List Nat} {cb : Nat}
    {flightId : UInt32} {op : Option Nat} (here : st g = ⟨.waiting, q, f⟩)
    (pc : (s.groups g).pc = .taking cb flightId) (done : s.advance g ret = some next)
    (last : (next.groups g).returned.getLast? = some op) :
    ∃ n f', op = some n ∧ f.Perm (n :: f') ∧
      PosixHolds next (Function.update st g ⟨.outside, q, f'⟩) := by
  have stands := holds.stands g
  rw [here] at stands
  have sound : s.SuspendSound g ret := fun suspending => by
    rw [pc] at suspending
    cases suspending
  obtain ⟨found, _⟩ := holds.inv.contract.wait g cb flightId pc
  obtain ⟨n, f', rfl, split, own⟩ := stands.waitReturns (advance_group done).1 pc found last
  refine ⟨n, f', rfl, split, posixHolds_advance holds sound done ?_ own⟩
  rw [here]
  exact (List.subperm_append_left q).mpr ((List.sublist_cons_self n f').subperm.trans split.symm.subperm)

/-- **The POSIX engine keeps the promise.** -/
def lawfulPosix : LawfulManager posixSuspendAsyncIOManager where
  Holds := PosixHolds
  apart holds := holds.apart
  requests holds alive := (holds.stands _).flying alive
  requests_place holds :=
    (List.sublist_append_right _ _).subperm.trans (holds.stands _).place
  init isInit := by
    obtain ⟨ops, rfl⟩ := isInit
    exact posixHolds_init ops
  store op holds free := posixHolds_store holds op free
  ops_store _ _ _ := rfl
  enqueue holds here isGroup free := posixHolds_enqueue holds here isGroup free
  callSubmit {s _ g _ _} holds here := by
    have outside := (holds.stands g).pc
    rw [here] at outside
    exact posixHolds_call holds here (Or.inl rfl) trivial (holds.inv.step (.submit outside))
  callWait {s _ g _ _} holds here := by
    have outside := (holds.stands g).pc
    rw [here] at outside
    exact posixHolds_call holds here (Or.inl rfl) trivial (holds.inv.step (.wait outside))
  insideSubmit {_ _ _ g _ _} holds here step := by
    obtain ⟨ret, sound, done, goesOn⟩ := step
    have stands := holds.stands g
    rw [here] at stands
    obtain ⟨q', f', same, more, own⟩ := stands.insideSubmit (advance_group done).1 goesOn
    refine ⟨q', f', same, more, posixHolds_advance holds sound done ?_ own⟩
    rw [here]
    exact same.subperm
  insideWait {_ _ _ g _ _} holds here step := by
    obtain ⟨ret, sound, done, goesOn⟩ := step
    have stands := holds.stands g
    rw [here] at stands
    obtain ⟨f', same, own⟩ := stands.insideWait (advance_group done).1 goesOn
      ((holds.inv.advance sound done).contract.exit g)
    refine ⟨f', same, posixHolds_advance holds sound done ?_ own⟩
    rw [here]
    exact (same.append_left _).subperm
  submitReturns holds here returned := by
    obtain ⟨aioRet, pc, done, idle, last⟩ := returned
    exact posixHolds_submitReturns holds here pc done idle last
  waitReturns holds here returned := by
    obtain ⟨ret, cb, flightId, pc, done, last⟩ := returned
    exact posixHolds_waitReturns holds here pc done last
  device holds step := by
    obtain ⟨n, rfl⟩ := step
    exact ⟨holds.inv.step .complete, holds.apart, holds.stands⟩
  enqueue_ops _ _ _ := .refl _
  callSubmit_ops _ _ _ := .refl _
  callWait_ops _ _ _ := .refl _
  inside_ops step := by
    obtain ⟨ret, _, done, _⟩ := step
    exact advance_unchanged done
  submitReturns_ops returned := by
    obtain ⟨_, _, done, _⟩ := returned
    exact advance_unchanged done
  waitReturns_ops returned := by
    obtain ⟨_, _, _, _, done, _⟩ := returned
    exact advance_unchanged done
  device_ops step _ := by
    obtain ⟨n, rfl⟩ := step
    exact .refl _

end Posix

/-- **The engine of a job keeps the promise.** -/
def IoEngine.lawful : (engine : IoEngine) → LawfulManager engine.manager
  | .kernelAio => lawfulKernel
  | .posixAio => lawfulPosix

end DiskSpd
