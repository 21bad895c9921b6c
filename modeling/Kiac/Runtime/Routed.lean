import Kiac.Runtime.Host
import Kiac.Program.Strategy

/-!
# The routed runtime

`RoutedRuntime` presents the two backends as one. Operations on a node go to the krunkit store when
it owns the name and to the `container` service otherwise; `List` merges both inventories and
`Remove` splits its names by backend. The results say which rows `list` can return and which VMs the
other operations can act on.
-/

namespace Kiac.Runtime

open Prog

def backendFor (name : Str) : Prog Op Op.Ans Backend := do
  if ← perform (Op.owns name) then return .krunkit else return .container

def runDetached (opts : RunOpts) : Action Unit :=
  match opts.backend with
  | some backend => ExceptT.mk (perform (Op.run backend opts))
  | none => ExceptT.mk (backendFor opts.name >>= fun backend => perform (Op.run backend opts))

def firstDuplicate : List Str → List Info → Option Str
  | _, [] => none
  | seen, info :: rows =>
    if seen.contains info.name then some info.name
    else firstDuplicate (info.name :: seen) rows

/-- What `List` returns for the outcomes of the primary backend and of the other one. -/
def mergeRows (primary alternate : Except Err (List Info)) : Except Err (List Info) :=
  match alternate with
  | .error _ => .error (.listing .krunkit)
  | .ok rows =>
    match firstDuplicate ((primary.toOption.getD []).map Info.name) rows with
    | some name => .error (.duplicateNode name)
    | none =>
      match primary with
      | .error err => if rows.isEmpty then .error err else .ok rows
      | .ok infos => .ok (infos ++ rows)

def list (start : Str) : Action (List Info) := ExceptT.mk do
  let primary ← perform (Op.list .container start)
  let alternate ← perform (Op.list .krunkit start)
  return mergeRows primary alternate

def stop (name : Str) : Action Unit :=
  ExceptT.mk (backendFor name >>= fun backend => perform (Op.stop backend name))

def start (name : Str) : Action Unit :=
  ExceptT.mk (backendFor name >>= fun backend => perform (Op.start backend name))

/-- The names of each backend, `container` first, in the given order. -/
def groupNames : List Str → Prog Op Op.Ans (List Str × List Str)
  | [] => return ([], [])
  | name :: names => do
      let backend ← backendFor name
      let (container, krunkit) ← groupNames names
      match backend with
      | .container => return (name :: container, krunkit)
      | .krunkit => return (container, name :: krunkit)

def removeGroups : List (Backend × List Str) → Prog Op Op.Ans (List (List Str))
  | [] => return []
  | (backend, names) :: groups =>
    if names.isEmpty then removeGroups groups
    else do
      let result ← perform (Op.remove backend names)
      let failed ← removeGroups groups
      match result with
      | .ok _ => return failed
      | .error _ => return names :: failed

def orderedGroups (krunkitFirst : Bool) (groups : List Str × List Str) :
    List (Backend × List Str) :=
  if krunkitFirst then [(.krunkit, groups.2), (.container, groups.1)]
  else [(.container, groups.1), (.krunkit, groups.2)]

/-- `Remove`; the map of groups is ranged over in any order. -/
def remove (names : List Str) : Action Unit := ExceptT.mk do
  let groups ← groupNames names
  let krunkitFirst ← perform Op.krunkitGroupFirst
  let failed ← removeGroups (orderedGroups krunkitFirst groups)
  if failed.isEmpty then return .ok () else return .error (.removing failed)

def guest (node : Str) (step : GuestStep) : Action Str := ExceptT.mk (perform (Op.guest node step))

def host (step : HostStep) : Action Str := ExceptT.mk (perform (Op.host step))

def fromResult {α : Type} (result : Except Err α) : Action α := ExceptT.mk (done result)

def check (holds : Bool) (err : Err) : Action Unit := if holds then pure () else throw err

def onlyIf {α : Type} (holds : Bool) (action : Action α) : Action Unit :=
  if holds then action >>= fun _ => pure () else pure ()

def attempt {α : Type} (action : Action α) : Action Unit :=
  ExceptT.mk (action.run >>= fun _ => done (.ok ()))

def Op.touches : Op → Str → Bool
  | .start _ name, vm => name == vm
  | .stop _ name, vm => name == vm
  | .remove _ names, vm => names.contains vm
  | _, _ => false

/-- The names that the operation stops, starts or removes all satisfy the predicate. -/
def Op.TouchesOnly (allowed : Str → Prop) (op : Op) : Prop :=
  ∀ vm, op.touches vm = true → allowed vm

variable {host : Host} {start : Str}

variable {backend : Backend} {info : Info} {rows infos : List Info}

theorem mem_rows :
    info ∈ host.rows backend start ↔
      info ∈ host.vms ∧ info.backend = backend ∧ info.name.hasPrefix start := by
  simp [Host.rows]

theorem firstDuplicate_eq_none {seen : List Str}
    (distinct : (rows.map Info.name).Nodup) (fresh : ∀ info ∈ rows, info.name ∉ seen) :
    firstDuplicate seen rows = none := by
  induction rows generalizing seen with
  | nil => rfl
  | cons info rows ih =>
    rw [List.map_cons, List.nodup_cons] at distinct
    have unseen : seen.contains info.name = false := by
      simpa using fresh info List.mem_cons_self
    simp only [firstDuplicate, unseen, Bool.false_eq_true, if_false]
    apply ih distinct.2
    intro other mem
    rw [List.mem_cons, not_or]
    refine ⟨?_, fresh other (List.mem_cons_of_mem _ mem)⟩
    intro same
    exact distinct.1 (same ▸ List.mem_map_of_mem mem)

theorem eq_of_name_eq {other : Info} (mem : info ∈ host.vms)
    (otherMem : other ∈ host.vms) (same : info.name = other.name) : info = other :=
  List.inj_on_of_nodup_map host.distinct mem otherMem same

theorem firstDuplicate_rows (host : Host) (start : Str) {seen : List Info}
    (listed : ∀ info ∈ seen, info ∈ host.rows .container start) :
    firstDuplicate (seen.map Info.name) (host.rows .krunkit start) = none := by
  apply firstDuplicate_eq_none
  · exact host.distinct.sublist (List.filter_sublist.map Info.name)
  · intro info mem repeated
    rcases List.mem_map.mp repeated with ⟨other, seenMem, same⟩
    rcases mem_rows.mp mem with ⟨infoMem, krunkit, _⟩
    rcases mem_rows.mp (listed other seenMem) with ⟨otherMem, container, _⟩
    rw [eq_of_name_eq infoMem otherMem same.symm, container] at krunkit
    exact Backend.noConfusion krunkit

theorem mergeRows_ok (host : Host) (start : Str) :
    mergeRows (.ok (host.rows .container start)) (.ok (host.rows .krunkit start)) =
      .ok (host.rows .container start ++ host.rows .krunkit start) := by
  have none := firstDuplicate_rows host start (fun info mem => mem)
  simp only [mergeRows, Except.toOption, Option.getD_some, none]

/-- Rows are returned only when the second backend answers, and either the first one
does too or the second one has a row. -/
theorem mergeRows_eq_ok {primary alternate : Except Err (List Info)}
    (merged : mergeRows primary alternate = .ok infos) :
    ∃ rows, alternate = .ok rows ∧
      ((∃ first, primary = .ok first ∧ infos = first ++ rows) ∨
        (∃ err, primary = .error err) ∧ infos = rows ∧ rows ≠ []) := by
  unfold mergeRows at merged
  split at merged
  · simp at merged
  · rename_i rows
    refine ⟨rows, rfl, ?_⟩
    split at merged
    · simp at merged
    · split at merged
      · split at merged
        · simp at merged
        · rename_i nonempty
          simp only [Except.ok.injEq] at merged
          exact Or.inr ⟨⟨_, rfl⟩, merged.symm, fun empty => nonempty (by simp [empty])⟩
      · simp only [Except.ok.injEq] at merged
        exact Or.inl ⟨_, rfl, merged.symm⟩

def answered (choice : Choice) (host : Host) (backend : Backend) (start : Str) :
    Except Err (List Info) :=
  if choice.succeeds then .ok (host.rows backend start) else .error .command

theorem answered_eq_ok {choice : Choice} (ok : answered choice host backend start = .ok rows) :
    choice.succeeds ∧ rows = host.rows backend start := by
  unfold answered at ok
  split at ok
  · rename_i succeeds
    exact ⟨succeeds, (Except.ok.inj ok).symm⟩
  · simp at ok

/-- The rows that `list` returns are VMs with the requested start; if it returns none of
them, then there is none. -/
theorem merged_answers {primary alternate : Choice}
    (merged : mergeRows (answered primary host .container start)
      (answered alternate host .krunkit start) = .ok infos) :
    (∀ info ∈ infos, info ∈ host.vms ∧ info.name.hasPrefix start) ∧
      (infos = [] → ∀ info ∈ host.vms, info.name.hasPrefix start = false) := by
  have sound : ∀ backend, ∀ info ∈ host.rows backend start,
      info ∈ host.vms ∧ info.name.hasPrefix start = true := by
    intro backend info mem
    rcases mem_rows.mp mem with ⟨infoMem, _, starts⟩
    exact ⟨infoMem, starts⟩
  rcases mergeRows_eq_ok merged with ⟨rows, alternateOk, both | ⟨_, rfl, nonempty⟩⟩
  · rcases both with ⟨first, primaryOk, rfl⟩
    rw [(answered_eq_ok primaryOk).2, (answered_eq_ok alternateOk).2]
    constructor
    · intro info mem
      rcases List.mem_append.mp mem with container | krunkit
      · exact sound .container info container
      · exact sound .krunkit info krunkit
    · intro empty info mem
      rw [List.append_eq_nil_iff] at empty
      by_contra starts
      rw [Bool.not_eq_false] at starts
      have row := mem_rows.mpr ⟨mem, rfl, starts⟩
      cases backend : info.backend with
      | container =>
        rw [backend, empty.1] at row
        exact absurd row List.not_mem_nil
      | krunkit =>
        rw [backend, empty.2] at row
        exact absurd row List.not_mem_nil
  · rw [(answered_eq_ok alternateOk).2] at nonempty ⊢
    exact ⟨sound .krunkit, fun empty => absurd empty nonempty⟩

/-- Every VM that the program stops, starts or removes is allowed, and what it returns
satisfies the condition. -/
def Confined {α : Type} (allowed : Str → Prop) (program : Prog Op Op.Ans α)
    (post : α → Prop) : Prop :=
  ∀ state, program.wp machine (fun _ _ _ => True) (fun op _ => op.TouchesOnly allowed)
    (fun value _ => post value) state

def Within {α : Type} (allowed : Str → Prop) (action : Action α) (post : α → Prop) : Prop :=
  Confined allowed action.run fun
    | .ok value => post value
    | .error _ => True

variable {allowed : Str → Prop} {α β : Type}

namespace Confined

variable {post : α → Prop} {program : Prog Op Op.Ans α}

theorem done {value : α} (holds : post value) :
    Confined allowed (Prog.done value) post := fun _ => holds

theorem bind {next : α → Prog Op Op.Ans β} {middle : α → Prop}
    {post : β → Prop} (first : Confined allowed program middle)
    (second : ∀ value, middle value → Confined allowed (next value) post) :
    Confined allowed (program >>= next) post := by
  intro state
  rw [wp_bind]
  apply wp_mono (first state)
  intro value state holds
  exact second value holds state

theorem mono {post' : α → Prop}
    (confined : Confined allowed program post) (weaken : ∀ value, post value → post' value) :
    Confined allowed program post' := by
  intro state
  exact wp_mono (confined state) (fun value _ holds => weaken value holds)

variable {op : Op}

theorem perform {post : op.Ans → Prop} (only : op.TouchesOnly allowed)
    (answers : ∀ choice state, post (step op choice state).2) :
    Confined allowed (Prog.perform op) post :=
  fun state => ⟨only, fun choice _ => answers choice state⟩

theorem quiet (only : op.TouchesOnly allowed) :
    Confined allowed (Prog.perform op) fun _ => True := perform only fun _ _ => trivial

theorem not_touched
    (confined : Confined allowed program post) {choices : List Choice} {state : Host} {vm : Str}
    (forbidden : ¬ allowed vm) :
    ∀ op ∈ (program.exec machine choices state).trace, op.touches vm = false := by
  intro op issued
  rcases guard_of_mem_trace (confined state)
    (fairRun_of_forall (fun _ _ _ _ => trivial) program state) issued with ⟨_, only⟩
  by_contra touched
  exact forbidden (only vm (by simpa using touched))

end Confined

theorem touchesOnly_of_quiet {op : Op} (quiet : ∀ vm, op.touches vm = false) :
    op.TouchesOnly allowed := by
  intro vm touched
  rw [quiet vm] at touched
  exact absurd touched (by decide)

namespace Within

variable {post : α → Prop} {action : Action α}

theorem pure {value : α} (holds : post value) :
    Within allowed (Pure.pure value : Action α) post := Confined.done holds

variable {err : Err} {holds : Bool}

theorem throw :
    Within allowed (MonadExcept.throw err : Action α) post := fun _ => trivial

theorem bind {next : α → Action β} {middle : α → Prop} {post : β → Prop}
    (first : Within allowed action middle)
    (second : ∀ value, middle value → Within allowed (next value) post) :
    Within allowed (action >>= next) post := by
  intro state
  rw [wp_run_bind]
  apply wp_mono (first state)
  intro result state holds
  cases result with
  | ok value => exact second value holds state
  | error err => trivial

theorem mono {post' : α → Prop} (within : Within allowed action post)
    (weaken : ∀ value, post value → post' value) : Within allowed action post' := by
  apply Confined.mono within
  intro result holds
  cases result with
  | ok value => exact weaken value holds
  | error err => trivial

theorem run (within : Within allowed action post) :
    Confined allowed action.run fun _ => True := Confined.mono within fun _ _ => trivial

theorem onError {recovery : Prog Op Op.Ans PUnit}
    (within : Within allowed action post) (recovers : Confined allowed recovery fun _ => True) :
    Within allowed (Prog.onError action recovery) post := by
  intro state
  rw [wp_run_onError]
  apply wp_mono (within state)
  intro result state holds
  cases result with
  | ok value => exact holds
  | error err => exact recovers state

theorem fromResult {result : Except Err α} (holds : ∀ value, result = .ok value → post value) :
    Within allowed (Runtime.fromResult result) post := by
  cases result with
  | ok value => exact Confined.done (holds value rfl)
  | error err => exact Confined.done trivial

theorem check :
    Within allowed (Runtime.check holds err) fun _ => holds := by
  cases holds with
  | true => exact Within.pure rfl
  | false => exact Within.throw

theorem onlyIf (within : Within allowed action fun _ => True) :
    Within allowed (Runtime.onlyIf holds action) fun _ => True := by
  cases holds with
  | true => exact within.bind fun _ _ => Within.pure trivial
  | false => exact Within.pure trivial

theorem list {start : Str} :
    Within allowed (Runtime.list start) fun infos =>
      ∀ info ∈ infos, info.name.hasPrefix start := by
  have answers : ∀ backend, Confined allowed (Prog.perform (Op.list backend start))
      fun answer => ∀ rows, answer = .ok rows →
        ∀ info ∈ rows, info.name.hasPrefix start = true := by
    intro backend
    apply Confined.perform (touchesOnly_of_quiet fun _ => rfl)
    intro choice state rows ok info mem
    rw [(answered_eq_ok ok).2] at mem
    exact (mem_rows.mp mem).2.2
  apply (answers .container).bind
  intro primary primaryRows
  apply (answers .krunkit).bind
  intro alternate alternateRows
  apply Confined.done
  cases merged : mergeRows primary alternate with
  | error err => trivial
  | ok infos =>
    intro info mem
    rcases mergeRows_eq_ok merged with ⟨rows, alternateOk, ⟨first, primaryOk, rfl⟩ | ⟨_, rfl, _⟩⟩
    · rcases List.mem_append.mp mem with container | krunkit
      · exact primaryRows first primaryOk info container
      · exact alternateRows rows alternateOk info krunkit
    · exact alternateRows infos alternateOk info mem

end Within

theorem Confined.backendFor {name : Str} :
    Confined allowed (Runtime.backendFor name) fun _ => True := by
  apply (Confined.quiet (touchesOnly_of_quiet fun _ => rfl)).bind
  intro owned _
  cases owned <;> exact Confined.done trivial

variable {names : List Str}

theorem Confined.groupNames :
    Confined allowed (Runtime.groupNames names) fun groups =>
      groups.1 ⊆ names ∧ groups.2 ⊆ names := by
  induction names with
  | nil => exact Confined.done ⟨List.nil_subset _, List.nil_subset _⟩
  | cons name names ih =>
    apply Confined.backendFor.bind
    intro backend _
    apply ih.bind
    rintro ⟨container, krunkit⟩ ⟨containerSub, krunkitSub⟩
    cases backend with
    | container =>
      exact Confined.done ⟨List.cons_subset_cons name containerSub,
        List.subset_cons_of_subset name krunkitSub⟩
    | krunkit =>
      exact Confined.done ⟨List.subset_cons_of_subset name containerSub,
        List.cons_subset_cons name krunkitSub⟩

theorem Confined.removeGroups {groups : List (Backend × List Str)}
    (isAllowed : ∀ group ∈ groups, ∀ name ∈ group.2, allowed name) :
    Confined allowed (Runtime.removeGroups groups) fun _ => True := by
  induction groups with
  | nil => exact Confined.done trivial
  | cons group groups ih =>
    rcases group with ⟨backend, names⟩
    have others := ih fun other mem => isAllowed other (List.mem_cons_of_mem _ mem)
    unfold Runtime.removeGroups
    split
    · exact others
    · have only : (Op.remove backend names).TouchesOnly allowed := by
        intro vm touched
        exact isAllowed _ List.mem_cons_self vm (List.contains_iff_mem.mp touched)
      apply (Confined.quiet only).bind
      intro result _
      apply others.bind
      intro failed _
      cases result <;> exact Confined.done trivial

theorem Within.remove (isAllowed : ∀ name ∈ names, allowed name) :
    Within allowed (Runtime.remove names) fun _ => True := by
  apply Confined.groupNames.bind
  rintro ⟨container, krunkit⟩ ⟨containerSub, krunkitSub⟩
  apply (Confined.quiet (touchesOnly_of_quiet fun _ => rfl)).bind
  intro krunkitFirst _
  have groups : ∀ group ∈ [(Backend.container, container), (Backend.krunkit, krunkit)],
      ∀ name ∈ group.2, allowed name := by
    intro group mem name inGroup
    rcases List.mem_pair.mp mem with rfl | rfl
    · exact isAllowed name (containerSub inGroup)
    · exact isAllowed name (krunkitSub inGroup)
  apply (Confined.removeGroups ?_).bind
  · intro failed _
    cases failed <;> exact Confined.done trivial
  · intro group mem
    cases krunkitFirst with
    | false => exact groups group mem
    | true => exact groups group (by simpa [orderedGroups, or_comm] using mem)

/-- An environment in which every command succeeds, other than one that runs a new VM. -/
def Obliging (strategy : Op → Host → Choice) : Prop :=
  ∀ op host, (∀ backend opts, op ≠ .run backend opts) → (strategy op host).succeeds = true

def Serving (strategy : Op → Host → Choice) : Prop :=
  ∀ op host, (∀ backend opts, op ≠ .run backend opts) → op ≠ .krunkitGroupFirst →
    (strategy op host).succeeds = true

theorem Obliging.serving {strategy : Op → Host → Choice} (obliging : Obliging strategy) :
    Serving strategy := fun op host notRun _ => obliging op host notRun

def succeed : Op → Host → Choice := fun _ _ => ⟨true, fun _ => true, []⟩

theorem obliging_succeed : Obliging succeed := fun _ _ _ => rfl

def Host.owned (host : Host) (name : Str) : Bool :=
  host.vms.any fun info => info.backend == .krunkit && info.name == name

theorem owned_name {host : Host} {info : Info} (mem : info ∈ host.vms) :
    host.owned info.name = (info.backend == .krunkit) := by
  cases backend : info.backend with
  | krunkit => simpa [Host.owned] using ⟨info, mem, backend, rfl⟩
  | container =>
    have none : host.owned info.name = false := by
      rw [Bool.eq_false_iff]
      intro owned
      rcases List.any_eq_true.mp owned with ⟨other, otherMem, isOwner⟩
      simp only [Bool.and_eq_true, beq_iff_eq] at isOwner
      rw [eq_of_name_eq otherMem mem isOwner.2, backend] at isOwner
      exact Backend.noConfusion isOwner.1
    rw [none]
    rfl

section Serving

variable {strategy : Op → Host → Choice}

theorem follow_list (serving : Serving strategy) (host : Host) (start : Str) :
    (list start).run.follow machine strategy host =
      (host, .ok (host.rows .container start ++ host.rows .krunkit start)) := by
  have answers : ∀ backend, answered (strategy (.list backend start) host) host backend start =
      .ok (host.rows backend start) := by
    intro backend
    simp [answered, serving (.list backend start) host (by simp) (by simp)]
  change (host, mergeRows (answered (strategy (.list .container start) host) host .container start)
    (answered (strategy (.list .krunkit start) host) host .krunkit start)) = _
  rw [answers, answers, mergeRows_ok]

variable {host : Host} {info : Info}

theorem mem_listed {start : Str} :
    info ∈ host.rows .container start ++ host.rows .krunkit start ↔
      info ∈ host.vms ∧ info.name.hasPrefix start := by
  rw [List.mem_append, mem_rows, mem_rows]
  cases info.backend <;> simp

theorem follow_backendFor (serving : Serving strategy) (host : Host) (name : Str) :
    (backendFor name).follow machine strategy host =
      (host, if host.owned name then .krunkit else .container) := by
  have answer : (machine.step (.owns name) (strategy (.owns name) host) host).2 =
      host.owned name := by
    change ((strategy (.owns name) host).succeeds && host.owned name) = _
    rw [serving (.owns name) host (by simp) (by simp), Bool.true_and]
  simp only [backendFor, perform_bind, follow_call, answer]
  cases host.owned name <;> rfl

theorem follow_groupNames (serving : Serving strategy) (host : Host) (names : List Str) :
    (groupNames names).follow machine strategy host =
      (host, names.filter fun name => !host.owned name, names.filter host.owned) := by
  induction names with
  | nil => rfl
  | cons name names ih =>
    simp only [groupNames, follow_bind, follow_backendFor serving, ih]
    cases owner : host.owned name <;> simp [owner]

def remaining (groups : List (Backend × List Str)) (info : Info) : Bool :=
  groups.all fun group => !(info.backend == group.1 && group.2.contains info.name)

theorem follow_removeGroups (serving : Serving strategy) (host : Host)
    (groups : List (Backend × List Str)) :
    ((removeGroups groups).follow machine strategy host).2 = [] ∧
      ((removeGroups groups).follow machine strategy host).1.vms =
        host.vms.filter (remaining groups) := by
  induction groups generalizing host with
  | nil => exact ⟨rfl, (List.filter_eq_self.mpr fun _ _ => rfl).symm⟩
  | cons group groups ih =>
    rcases group with ⟨backend, names⟩
    unfold removeGroups
    split
    · rename_i empty
      rw [List.isEmpty_iff] at empty
      subst empty
      have same : remaining ((backend, []) :: groups) = remaining groups := by
        funext info
        simp [remaining]
      rw [same]
      exact ih host
    · have succeeds := serving (.remove backend names) host (by simp) (by simp)
      have stepped : machine.step (.remove backend names)
          (strategy (.remove backend names) host) host =
          (host.keep fun info => !(info.backend == backend && names.contains info.name),
            .ok ()) := by
        simp [machine, step, Choice.acts, Choice.result, succeeds]
      rcases ih (host.keep fun info => !(info.backend == backend && names.contains info.name))
        with ⟨none, kept⟩
      simp only [perform_bind, follow_call, stepped, follow_bind, none, pure_eq_done, follow_done]
      refine ⟨trivial, ?_⟩
      rw [kept]
      simp only [Host.keep, List.filter_filter]
      apply List.filter_congr
      simp [remaining, Bool.and_comm]

theorem remaining_orderedGroups (mem : info ∈ host.vms) (krunkitFirst : Bool) (names : List Str) :
    remaining (orderedGroups krunkitFirst
      (names.filter fun name => !host.owned name, names.filter host.owned)) info ↔
        info.name ∉ names := by
  have owner := owned_name mem
  cases krunkitFirst <;> cases backend : info.backend <;>
    simp [orderedGroups, remaining, backend, owner]

theorem follow_remove (serving : Serving strategy) (host : Host) (names : List Str) :
    ((remove names).run.follow machine strategy host).2 = .ok () ∧
      ∀ info, info ∈ ((remove names).run.follow machine strategy host).1.vms ↔
        info ∈ host.vms ∧ info.name ∉ names := by
  have unchanged : (machine.step .krunkitGroupFirst (strategy .krunkitGroupFirst host) host).1 =
      host := rfl
  simp only [remove, ExceptT.run_mk, follow_bind, follow_groupNames serving, follow_perform,
    unchanged]
  rcases follow_removeGroups serving host (orderedGroups
    (machine.step .krunkitGroupFirst (strategy .krunkitGroupFirst host) host).2
    (names.filter fun name => !host.owned name, names.filter host.owned)) with ⟨none, kept⟩
  simp only [none, List.isEmpty_nil, if_true, pure_eq_done, follow_done]
  refine ⟨trivial, ?_⟩
  intro info
  rw [kept, List.mem_filter]
  exact and_congr_right fun mem => remaining_orderedGroups mem _ names

end Serving

variable {host : Host} {vm : Str}

theorem mem_names_step {op : Op} {choice : Choice}
    (untouched : op.touches vm = false) (mem : vm ∈ host.names) :
    vm ∈ (step op choice host).1.names := by
  cases op with
  | list | owns | guest | host | krunkitGroupFirst => exact mem
  | run backend opts =>
    simp only [step]
    split
    · split
      · simp only [Host.names, Host.add, List.map_append, List.mem_append]
        exact Or.inl mem
      · exact mem
    · exact mem
  | start backend name =>
    simp only [step]
    split
    · rwa [Host.names_setStatus]
    · exact mem
  | stop backend name =>
    simp only [step]
    split
    · rwa [Host.names_setStatus]
    · exact mem
  | remove backend names =>
    rcases List.mem_map.mp mem with ⟨info, infoMem, rfl⟩
    apply List.mem_map_of_mem
    have absent : info.name ∉ names := by
      simpa [Op.touches] using untouched
    simp only [step, Host.keep, List.mem_filter]
    exact ⟨infoMem, by simp [absent]⟩

theorem mem_names_exec {program : Prog Op Op.Ans α} {choices : List Choice}
    (untouched : ∀ op ∈ (program.exec machine choices host).trace, op.touches vm = false)
    (mem : vm ∈ host.names) : vm ∈ (program.exec machine choices host).state.names := by
  induction program generalizing choices host with
  | done value => exact mem
  | call op next ih =>
    cases choices with
    | nil => exact mem
    | cons choice choices =>
      apply ih _ (fun other issued => untouched other (List.mem_cons_of_mem _ issued))
      exact mem_names_step (untouched op List.mem_cons_self) mem

end Kiac.Runtime
