import Kiac.Program.Strategy
import Kiac.Gpu.Vulkan

/-!
# What the probe leaves behind

The driver may answer anything. Whatever it does, the probe destroys what it has created, once, the
children before the device and the device before the instance, and nothing while submitted commands
may be running; it leaves something behind only if they still may when it returns.
-/

namespace Kiac.Gpu

abbrev Entry := (op : VkOp) × op.Ans

def vkMachine : Machine VkOp VkOp.Ans (List Entry) ((op : VkOp) → op.Ans) :=
  ⟨fun op answers log => (log ++ [⟨op, answers op⟩], answers op)⟩

inductive Kind where
  | vk
  | device
  | buffer
  | memory
  | pool
  | fence
deriving DecidableEq

def Kind.depth : Kind → ℕ
  | vk => 0
  | device => 1
  | _ => 2

abbrev Object := Kind × Handle

def made (kind : Kind) (answer : VkResult × Handle) : Option Object :=
  if answer.1 = vkSuccess ∧ answer.2 ≠ 0 then some (kind, answer.2) else none

def created : Entry → Option Object
  | ⟨.createInstance, answer⟩ => made .vk answer
  | ⟨.createDevice _ _, answer⟩ => made .device answer
  | ⟨.createBuffer _ _, answer⟩ => made .buffer answer
  | ⟨.allocateMemory _ _ _, answer⟩ => made .memory answer
  | ⟨.createCommandPool _ _, answer⟩ => made .pool answer
  | ⟨.createFence _, answer⟩ => made .fence answer
  | _ => none

def VkOp.destroys : VkOp → Option Object
  | destroyInstance vk => some (.vk, vk)
  | destroyDevice device => some (.device, device)
  | destroyBuffer _ buffer => some (.buffer, buffer)
  | freeMemory _ memory => some (.memory, memory)
  | destroyCommandPool _ pool => some (.pool, pool)
  | destroyFence _ fence => some (.fence, fence)
  | _ => none

def destroyed (entry : Entry) : Option Object := entry.1.destroys

def submits : Entry → Bool
  | ⟨.queueSubmit _ _ _, result⟩ => result = vkSuccess
  | _ => false

def completes : Entry → Bool
  | ⟨.waitForFences _ _ _, result⟩ => result = vkSuccess ∨ result = vkDeviceLost
  | ⟨.deviceWaitIdle _, result⟩ => result = vkSuccess ∨ result = vkDeviceLost
  | _ => false

/-- Whether commands have been submitted and no wait since has told that they are done. -/
def inFlight (log : List Entry) : Bool :=
  log.foldl (fun before entry => submits entry || before && !completes entry) false

/-- Whatever is destroyed has been created before, is destroyed once, after what hangs below it
and not while commands may be running. -/
structure Disciplined (log : List Entry) : Prop where
  once : (log.filterMap destroyed).Nodup
  inOrder : (log.filterMap destroyed).Pairwise fun first later => later.1.depth ≤ first.1.depth
  existing : ∀ before entry after object, log = before ++ entry :: after →
    destroyed entry = some object → object ∈ before.filterMap created
  idle : ∀ before entry after object, log = before ++ entry :: after →
    destroyed entry = some object → inFlight before = false

theorem filterMap_snoc {β : Type} (view : Entry → Option β) (log : List Entry) (entry : Entry) :
    (log ++ [entry]).filterMap view = log.filterMap view ++ (view entry).toList := by
  cases seen : view entry <;> simp [seen]

theorem inFlight_snoc (log : List Entry) (entry : Entry) :
    inFlight (log ++ [entry]) = (submits entry || inFlight log && !completes entry) := by
  simp [inFlight]

variable {log : List Entry} {entry : Entry}

theorem split_snoc {before after : List Entry} {last : Entry}
    (same : log ++ [last] = before ++ entry :: after) :
    before = log ∧ entry = last ∨ ∃ rest, log = before ++ entry :: rest := by
  rcases List.eq_nil_or_concat after with rfl | ⟨rest, final, rfl⟩
  · rcases List.append_inj' same rfl with ⟨rfl, single⟩
    exact Or.inl ⟨rfl, (List.singleton_inj.mp single).symm⟩
  · have regrouped : log ++ [last] = (before ++ entry :: rest) ++ [final] := by simpa using same
    exact Or.inr ⟨rest, (List.append_inj' regrouped rfl).1⟩

theorem Disciplined.snoc (disciplined : Disciplined log)
    (permitted : ∀ object, destroyed entry = some object →
      object ∈ log.filterMap created ∧ inFlight log = false ∧
        ∀ earlier ∈ log.filterMap destroyed, earlier ≠ object ∧
          object.1.depth ≤ earlier.1.depth) :
    Disciplined (log ++ [entry]) := by
  constructor
  · rw [filterMap_snoc, List.nodup_append]
    refine ⟨disciplined.once, by cases destroyed entry <;> simp, ?_⟩
    intro earlier before object now
    exact ((permitted object (by simpa using now)).2.2 earlier before).1
  · rw [filterMap_snoc, List.pairwise_append]
    refine ⟨disciplined.inOrder, by cases destroyed entry <;> simp, ?_⟩
    intro earlier before object now
    exact ((permitted object (by simpa using now)).2.2 earlier before).2
  · intro before other after object split destroys
    rcases split_snoc split with ⟨rfl, rfl⟩ | ⟨rest, earlier⟩
    · exact (permitted object destroys).1
    · exact disciplined.existing before other rest object earlier destroys
  · intro before other after object split destroys
    rcases split_snoc split with ⟨rfl, rfl⟩ | ⟨rest, earlier⟩
    · exact (permitted object destroys).2.1
    · exact disciplined.idle before other rest object earlier destroys

def anyDriver : Setting VkOp VkOp.Ans (List Entry) ((op : VkOp) → op.Ans) :=
  ⟨vkMachine, fun _ _ _ => True, fun _ _ => True⟩

theorem triple_perform {op : VkOp} {pre : List Entry → Prop} {post : op.Ans → List Entry → Prop}
    (step : ∀ log answer, pre log → post answer (log ++ [⟨op, answer⟩])) :
    Triple anyDriver pre (Prog.perform op) post := by
  apply Triple.perform
  · exact fun _ _ => trivial
  · exact fun log answers holds _ => step log (answers op) holds

/-- What is there, what has been destroyed of it, and whether commands may be running. -/
structure Holds (objects gone : List Object) (running : Bool) (log : List Entry) : Prop where
  created_eq : log.filterMap created = objects
  destroyed_eq : log.filterMap destroyed = gone
  inFlight_eq : inFlight log = running
  disciplined : Disciplined log

section Calls

variable {objects gone : List Object} {running : Bool} {op : VkOp}

theorem triple_call {makes : op.Ans → Option Object} {runs : op.Ans → Bool}
    (destroysNothing : op.destroys = none) (creates : ∀ answer, created ⟨op, answer⟩ = makes answer)
    (moves : ∀ answer, (submits ⟨op, answer⟩ || running && !completes ⟨op, answer⟩) = runs answer) :
    Triple anyDriver (Holds objects gone running) (Prog.perform op)
      fun answer => Holds (objects ++ (makes answer).toList) gone (runs answer) := by
  apply triple_perform
  intro log answer holds
  have nothing : destroyed ⟨op, answer⟩ = none := destroysNothing
  constructor
  · rw [filterMap_snoc, creates, holds.created_eq]
  · rw [filterMap_snoc, nothing, holds.destroyed_eq]
    simp
  · rw [inFlight_snoc, holds.inFlight_eq, moves]
  · apply holds.disciplined.snoc
    simp [nothing]

/-- A call that creates nothing, destroys nothing, submits nothing and does not wait. -/
def VkOp.Quiet (op : VkOp) : Prop :=
  op.destroys = none ∧ ∀ answer : op.Ans, created ⟨op, answer⟩ = none ∧
    submits ⟨op, answer⟩ = false ∧ completes ⟨op, answer⟩ = false

theorem triple_quiet (quiet : op.Quiet := by exact ⟨rfl, fun _ => ⟨rfl, rfl, rfl⟩⟩) :
    Triple anyDriver (Holds objects gone running) (Prog.perform op)
      fun _ => Holds objects gone running := by
  have call : Triple anyDriver (Holds objects gone running) (Prog.perform op)
      fun _ => Holds (objects ++ (none : Option Object).toList) gone running :=
    triple_call quiet.1 (fun answer => (quiet.2 answer).1) fun answer => by
      simp [(quiet.2 answer).2.1, (quiet.2 answer).2.2]
  simpa using call

theorem triple_destroy {object : Object} (destroys : op.destroys = some object)
    (creates : ∀ answer, created ⟨op, answer⟩ = none)
    (moves : ∀ answer, (submits ⟨op, answer⟩ || false && !completes ⟨op, answer⟩) = false)
    (there : object ∈ objects)
    (next : ∀ earlier ∈ gone, earlier ≠ object ∧ object.1.depth ≤ earlier.1.depth) :
    Triple anyDriver (Holds objects gone false) (Prog.perform op)
      fun _ => Holds objects (gone ++ [object]) false := by
  apply triple_perform
  intro log answer holds
  have something : destroyed ⟨op, answer⟩ = some object := destroys
  constructor
  · rw [filterMap_snoc, creates, holds.created_eq]
    simp
  · rw [filterMap_snoc, something, holds.destroyed_eq]
    simp
  · rw [inFlight_snoc, holds.inFlight_eq, moves]
  · apply holds.disciplined.snoc
    intro other same
    rw [something, Option.some.injEq] at same
    subst same
    rw [holds.created_eq, holds.destroyed_eq]
    exact ⟨there, holds.inFlight_eq, next⟩

variable {ε : Type} {fail : ProbeErr → ε} {failed : ε → List Entry → Prop}

variable {pre : List Entry → Prop} {holds : Prop} {err : ProbeErr}

theorem exits_require [Decidable holds] (left : ∀ log, pre log → ¬holds → failed (fail err) log) :
    Exits anyDriver pre (require fail holds err) (fun _ log => pre log ∧ holds) failed := by
  unfold require
  split
  · rename_i isTrue
    exact Exits.pure fun log start => ⟨start, isTrue⟩
  · rename_i isFalse
    exact Exits.throw fun log start => left log start isFalse

theorem exits_guard [Decidable holds] (left : ∀ log, pre log → failed (fail err) log) :
    Exits anyDriver pre (require fail holds err) (fun _ => pre) failed := by
  unfold require
  split
  · exact Exits.pure fun log start => start
  · exact Exits.throw left

theorem exits_quiet (quiet : op.Quiet := by exact ⟨rfl, fun _ => ⟨rfl, rfl, rfl⟩⟩) :
    Exits anyDriver (Holds objects gone running) (ExceptT.lift (Prog.perform op))
      (fun _ => Holds objects gone running) failed :=
  Exits.lift (triple_quiet quiet)

theorem exits_checkContext
    (left : ∀ err log, Holds objects gone running log → failed (fail err) log) :
    Exits anyDriver (Holds objects gone running) (checkContext fail)
      (fun _ => Holds objects gone running) failed := by
  refine Exits.bind exits_quiet fun err => ?_
  cases err with
  | none => exact Exits.pure fun _ => id
  | some err => exact Exits.throw fun log holds => left _ log holds

theorem exits_create {kind : Kind} {operation noun : Str}
    {program : Prog VkOp VkOp.Ans (VkResult × Handle)}
    (triple : Triple anyDriver (Holds objects gone running) program
      fun answer => Holds (objects ++ (made kind answer).toList) gone running)
    (left : ∀ err log, Holds objects gone running log → failed (fail err) log) :
    Exits anyDriver (Holds objects gone running) (create fail operation noun program)
      (fun handle log => Holds (objects ++ [(kind, handle)]) gone running log ∧ handle ≠ 0)
      failed := by
  refine (Exits.lift triple).bind fun ⟨result, handle⟩ => ?_
  refine (exits_require fun log holds unsuccessful => left _ log ?_).bind fun _ =>
    Exits.assume fun successful => ?_
  · simpa [made, unsuccessful] using holds
  refine (exits_require fun log holds isNull => left _ log ?_).bind fun _ =>
    Exits.assume fun nonNull => ?_
  · simpa [made, isNull] using holds
  exact Exits.pure fun log holds => ⟨by simpa [made, successful, nonNull] using holds, nonNull⟩

end Calls

def owned (kind : Kind) (handle : Handle) : List Object :=
  if handle = 0 then [] else [(kind, handle)]

/-- What there is when the deferred function of the device would find these variables. -/
def objectsOf (vk device : Handle) (locals : Locals) : List Object :=
  [(.vk, vk), (.device, device)] ++ owned .buffer locals.buffer ++ owned .memory locals.memory ++
    owned .pool locals.pool ++ owned .fence locals.fence

def Owns (vk device : Handle) (locals : Locals) : List Entry → Prop :=
  Holds (objectsOf vk device locals) [] (locals.submitted && !locals.completed)

section Body

variable {vk physical device queue command : Handle} {family : ℕ} {locals : Locals}

theorem exits_context :
    Exits anyDriver (Owns vk device locals) (checkContext locals.leave)
      (fun _ => Owns vk device locals) fun exit => Owns vk device exit.1 :=
  exits_checkContext fun _ _ => id

theorem exits_check {holds : Prop} [Decidable holds] {err : ProbeErr} :
    Exits anyDriver (Owns vk device locals) (require locals.leave holds err)
      (fun _ => Owns vk device locals) fun exit => Owns vk device exit.1 :=
  exits_guard fun _ => id

theorem exits_ask {op : VkOp}
    (quiet : op.Quiet := by exact ⟨rfl, fun _ => ⟨rfl, rfl, rfl⟩⟩) :
    Exits anyDriver (Owns vk device locals) (ExceptT.lift (Prog.perform op))
      (fun _ => Owns vk device locals) fun exit : Locals × ProbeErr => Owns vk device exit.1 :=
  exits_quiet quiet

theorem exits_own (filled : Handle → Locals) {kind : Kind} {operation noun : Str}
    {program : Prog VkOp VkOp.Ans (VkResult × Handle)}
    (triple : Triple anyDriver (Owns vk device locals) program fun answer =>
      Holds (objectsOf vk device locals ++ (made kind answer).toList) []
        (locals.submitted && !locals.completed))
    (records : ∀ handle,
      objectsOf vk device (filled handle) = objectsOf vk device locals ++ owned kind handle)
    (flags : ∀ handle, ((filled handle).submitted && !(filled handle).completed) =
      (locals.submitted && !locals.completed)) :
    Exits anyDriver (Owns vk device locals) (create locals.leave operation noun program)
      (fun handle => Owns vk device (filled handle)) fun exit => Owns vk device exit.1 := by
  have creates : Exits anyDriver (Owns vk device locals)
      (create locals.leave operation noun program)
      (fun handle log => Holds (objectsOf vk device locals ++ [(kind, handle)]) []
        (locals.submitted && !locals.completed) log ∧ handle ≠ 0)
      fun exit => Owns vk device exit.1 :=
    exits_create triple fun _ _ => id
  apply creates.weaken
  rintro handle log ⟨holds, nonNull⟩
  rw [Owns, records, flags]
  simpa [owned, nonNull] using holds

theorem exits_prepareBuffer :
    Exits anyDriver (Owns vk device ⟨0, 0, 0, 0, false, false, false⟩)
      (prepareBuffer physical device ⟨0, 0, 0, 0, false, false, false⟩)
      (fun locals log => Owns vk device locals log ∧ locals.pool = 0 ∧ locals.fence = 0 ∧
        locals.submitted = false ∧ locals.completed = false)
      fun exit => Owns vk device exit.1 := by
  refine Exits.bind (exits_own (fun buffer => ⟨buffer, 0, 0, 0, false, false, false⟩)
    (triple_call rfl (fun _ => rfl) fun _ => rfl) (fun _ => by simp [objectsOf, owned]) fun _ => rfl) fun buffer => ?_
  refine exits_context.bind fun _ => ?_
  refine Exits.bind exits_ask fun requirements => ?_
  refine exits_check.bind fun _ => ?_
  refine exits_context.bind fun _ => ?_
  refine Exits.bind exits_ask fun properties => ?_
  refine Exits.bind exits_check fun _ => ?_
  split
  · exact Exits.throw fun _ => id
  · rename_i memoryType _
    refine exits_context.bind fun _ => ?_
    refine Exits.bind (exits_own (fun memory => ⟨buffer, memory, 0, 0, false, false, false⟩)
      (triple_call rfl (fun _ => rfl) fun _ => rfl) (fun _ => by simp [objectsOf, owned])
      fun _ => rfl) fun memory => ?_
    refine exits_context.bind fun _ => ?_
    refine Exits.bind exits_ask fun result => ?_
    refine exits_check.bind fun _ => ?_
    refine exits_context.bind fun _ => ?_
    refine Exits.bind exits_ask fun ⟨result, mapped⟩ => ?_
    refine Exits.bind exits_check fun _ => ?_
    have mapping : Owns vk device ⟨buffer, memory, 0, 0, false, false, false⟩ =
        Owns vk device ⟨buffer, memory, 0, 0, true, false, false⟩ := rfl
    rw [mapping]
    refine exits_check.bind fun _ => ?_
    refine Exits.bind exits_ask fun _ => ?_
    exact Exits.pure fun _ owns => ⟨owns, rfl, rfl, rfl, rfl⟩

theorem exits_recordCommands (noPool : locals.pool = 0) (noFence : locals.fence = 0) :
    Exits anyDriver (Owns vk device locals) (recordCommands device family locals)
      (fun recorded log => Owns vk device recorded.1 log ∧ recorded.1.fence = 0 ∧
        recorded.1.submitted = locals.submitted ∧ recorded.1.completed = locals.completed)
      fun exit => Owns vk device exit.1 := by
  refine Exits.bind (exits_own (fun pool => { locals with pool := pool })
    (triple_call rfl (fun _ => rfl) fun _ => by simp [submits, completes]) (fun _ => by simp [objectsOf, owned, noPool, noFence]) fun _ => rfl) fun pool => ?_
  refine exits_context.bind fun _ => ?_
  -- The command buffer belongs to the pool and goes with it.
  have allocates : Exits anyDriver (Owns vk device { locals with pool := pool })
      (create ({ locals with pool := pool } : Locals).leave (str "vkAllocateCommandBuffers")
        (str "command buffer") (Prog.perform (VkOp.allocateCommands device pool)))
      (fun _ => Owns vk device { locals with pool := pool }) fun exit => Owns vk device exit.1 := by
    refine Exits.bind exits_ask fun answer => ?_
    refine exits_check.bind fun _ => ?_
    refine exits_check.bind fun _ => ?_
    exact Exits.pure fun _ => id
  refine allocates.bind fun command => ?_
  refine exits_context.bind fun _ => ?_
  refine Exits.bind exits_ask fun result => ?_
  refine Exits.bind exits_check fun _ => ?_
  refine Exits.bind exits_ask fun _ => ?_
  refine Exits.bind exits_ask fun _ => ?_
  refine Exits.bind exits_ask fun result => ?_
  refine Exits.bind exits_check fun _ => ?_
  exact Exits.pure fun _ owns => ⟨owns, noFence, rfl, rfl⟩

theorem exits_submitCommands (noFence : locals.fence = 0) (idle : locals.submitted = false)
    (notCompleted : locals.completed = false) :
    Exits anyDriver (Owns vk device locals) (submitCommands device queue command locals)
      (fun submitted => Owns vk device submitted) fun exit => Owns vk device exit.1 := by
  rcases locals with ⟨buffer, memory, pool, fence, mapping, submitted, completed⟩
  subst noFence idle notCompleted
  refine Exits.bind (exits_own (fun fence => ⟨buffer, memory, pool, fence, mapping, false, false⟩)
    (triple_call rfl (fun _ => rfl) fun _ => rfl) (fun _ => by simp [objectsOf, owned]) fun _ => rfl) fun fence => ?_
  refine exits_context.bind fun _ => ?_
  have submits : Triple anyDriver (Owns vk device ⟨buffer, memory, pool, fence, mapping, false, false⟩)
      (Prog.perform (VkOp.queueSubmit queue command fence)) fun result =>
        Holds (objectsOf vk device ⟨buffer, memory, pool, fence, mapping, false, false⟩ ++ [])
          [] (result = vkSuccess) :=
    triple_call rfl (fun _ => rfl) fun result => by simp [Gpu.submits]
  refine (Exits.lift submits).bind fun result => ?_
  rw [List.append_nil]
  refine (exits_require fun log holds refused => ?_).bind fun _ =>
    Exits.assume fun successful => ?_
  · rwa [decide_eq_false refused] at holds
  have running : Holds (objectsOf vk device ⟨buffer, memory, pool, fence, mapping, false, false⟩) []
      (result = vkSuccess) =
        Owns vk device ⟨buffer, memory, pool, fence, mapping, true, false⟩ := by
    rw [decide_eq_true successful]
    rfl
  rw [running]
  refine exits_context.bind fun _ => ?_
  refine Exits.bind exits_ask fun deadline => ?_
  refine Exits.bind exits_check fun _ => ?_
  have waits : Triple anyDriver (Owns vk device ⟨buffer, memory, pool, fence, mapping, true, false⟩)
      (Prog.perform (VkOp.waitForFences device fence
        (deadline.elim vulkanProbeFenceTimeout (min vulkanProbeFenceTimeout)))) fun result =>
        Holds (objectsOf vk device ⟨buffer, memory, pool, fence, mapping, true, false⟩ ++ [])
          [] (!decide (result = vkSuccess ∨ result = vkDeviceLost)) :=
    triple_call rfl (fun _ => rfl) fun result => by simp [Gpu.submits, completes]
  refine (Exits.lift waits).bind fun result => ?_
  have completed : Holds
      (objectsOf vk device ⟨buffer, memory, pool, fence, mapping, true, false⟩ ++ []) []
      (!decide (result = vkSuccess ∨ result = vkDeviceLost)) =
        Owns vk device ⟨buffer, memory, pool, fence, mapping, true,
          result = vkSuccess ∨ result = vkDeviceLost⟩ := by
    rw [List.append_nil]
    rfl
  rw [completed]
  refine exits_check.bind fun _ => ?_
  refine exits_check.bind fun _ => ?_
  exact Exits.pure fun _ => id

theorem exits_readBack (index count : ℕ) :
    Exits anyDriver (Owns vk device locals) (readBack locals index count)
      (fun _ => Owns vk device locals) fun exit => Owns vk device exit.1 := by
  induction count generalizing index with
  | zero => exact Exits.pure fun _ => id
  | succ count ih =>
    refine Exits.bind exits_ask fun value => ?_
    refine Exits.bind exits_check fun _ => ?_
    exact ih (index + 1)

theorem exits_useDevice :
    Exits anyDriver (Holds [(.vk, vk), (.device, device)] [] false)
      (useDevice physical device family) (fun locals => Owns vk device locals)
      fun exit => Owns vk device exit.1 := by
  have initially : Holds [(.vk, vk), (.device, device)] [] false =
      Owns vk device ⟨0, 0, 0, 0, false, false, false⟩ := rfl
  rw [initially]
  refine exits_context.bind fun _ => ?_
  refine Exits.bind exits_ask fun queue => ?_
  refine exits_check.bind fun _ => ?_
  refine exits_context.bind fun _ => ?_
  refine exits_prepareBuffer.bind fun locals => ?_
  apply Exits.assume
  rintro ⟨noPool, noFence, idle, notCompleted⟩
  refine exits_context.bind fun _ => ?_
  refine (exits_recordCommands noPool noFence).bind fun ⟨locals', command⟩ => ?_
  apply Exits.assume
  rintro ⟨noFence', idle', notCompleted'⟩
  refine exits_context.bind fun _ => ?_
  refine (exits_submitCommands noFence' (idle'.trans idle)
    (notCompleted'.trans notCompleted)).bind fun locals => ?_
  refine exits_context.bind fun _ => ?_
  refine (exits_readBack 0 _).bind fun _ => ?_
  exact Exits.pure fun _ => id

end Body

section Release

variable {vk device : Handle} {locals : Locals} {objects gone : List Object}

variable {kind : Kind} {handle : Handle}

theorem mem_owned {object : Object} :
    object ∈ owned kind handle ↔ handle ≠ 0 ∧ object = (kind, handle) := by
  unfold owned
  split <;> simp_all

theorem triple_destroyIf {program : Prog VkOp VkOp.Ans Unit}
    (triple : handle ≠ 0 → Triple anyDriver (Holds objects gone false) program
      fun _ => Holds objects (gone ++ [(kind, handle)]) false) :
    Triple anyDriver (Holds objects gone false) (destroyIf (handle ≠ 0) program)
      fun _ => Holds objects (gone ++ owned kind handle) false := by
  unfold destroyIf owned
  by_cases isNull : handle = 0
  · rw [if_neg (not_not.mpr isNull)]
    apply Triple.done
    intro log holds
    simpa [isNull] using holds
  · rw [if_pos isNull, if_neg isNull]
    exact triple isNull

theorem triple_destroyAll :
    Triple anyDriver (Holds (objectsOf vk device locals) [] false) (destroyAll device locals)
      fun _ => Holds (objectsOf vk device locals)
        (owned .fence locals.fence ++ owned .pool locals.pool ++ owned .buffer locals.buffer ++
          owned .memory locals.memory ++ [(.device, device)]) false := by
  have later : ∀ {gone : List Object} {kind : Kind} {handle : Handle},
      (∀ earlier ∈ gone, earlier.1 ≠ kind ∧ kind.depth ≤ earlier.1.depth) →
        ∀ earlier ∈ gone, earlier ≠ (kind, handle) ∧ kind.depth ≤ earlier.1.depth :=
    fun others earlier isGone =>
      ⟨fun same => (others earlier isGone).1 (congrArg Prod.fst same), (others earlier isGone).2⟩
  refine (triple_destroyIf fun nonNull =>
    triple_destroy rfl (fun _ => rfl) (fun _ => rfl) ?_ (later ?_)).bind fun _ => ?_
  · simp [objectsOf, mem_owned, nonNull]
  · simp
  refine (triple_destroyIf fun nonNull =>
    triple_destroy rfl (fun _ => rfl) (fun _ => rfl) ?_ (later ?_)).bind fun _ => ?_
  · simp [objectsOf, mem_owned, nonNull]
  · simp +contextual [mem_owned, Kind.depth]
  refine (triple_destroyIf fun nonNull =>
    triple_destroy rfl (fun _ => rfl) (fun _ => rfl) ?_ (later ?_)).bind fun _ => ?_
  · simp [objectsOf, mem_owned, nonNull]
  · simp +contextual [mem_owned, Kind.depth, or_imp]
  have unmap : ∀ {objects gone}, Triple anyDriver (Holds objects gone false)
      (destroyIf (locals.mapping = true) (Prog.perform (VkOp.unmapMemory device locals.memory)))
      fun _ => Holds objects gone false := by
    intro objects gone
    unfold destroyIf
    split
    · exact triple_quiet
    · exact Triple.done fun _ => id
  refine unmap.bind fun _ => ?_
  refine (triple_destroyIf fun nonNull =>
    triple_destroy rfl (fun _ => rfl) (fun _ => rfl) ?_ (later ?_)).bind fun _ => ?_
  · simp [objectsOf, mem_owned, nonNull]
  · simp +contextual [mem_owned, Kind.depth, or_imp]
  refine triple_destroy rfl (fun _ => rfl) (fun _ => rfl) ?_ (later ?_)
  · simp [objectsOf]
  · simp +contextual [mem_owned, Kind.depth, or_imp]

def AllBut (vk : Handle) (running : Bool) (log : List Entry) : Prop :=
  ∃ objects gone, Holds objects gone running log ∧ (.vk, vk) ∈ objects ∧ (.vk, vk) ∉ gone ∧
    (running = false → ∀ object ∈ objects, object ≠ (.vk, vk) → object ∈ gone)

theorem triple_releaseDevice :
    Triple anyDriver (Owns vk device locals) (releaseDevice device locals)
      fun running => AllBut vk running := by
  have destroys : Triple anyDriver (Holds (objectsOf vk device locals) [] false)
      (destroyAll device locals >>= fun _ => Prog.done false) fun running => AllBut vk running := by
    refine triple_destroyAll.bind fun _ => ?_
    apply Triple.done
    intro log holds
    refine ⟨_, _, holds, by simp [objectsOf], by simp [mem_owned], fun _ => ?_⟩
    simp only [objectsOf, List.mem_append, List.mem_cons, List.not_mem_nil, or_false, mem_owned]
    tauto
  unfold releaseDevice
  split
  · rename_i running
    have waits : Triple anyDriver (Owns vk device locals) (Prog.perform (VkOp.deviceWaitIdle device))
        fun result => Holds (objectsOf vk device locals ++ []) []
          (!decide (result = vkSuccess ∨ result = vkDeviceLost)) :=
      triple_call rfl (fun _ => rfl) fun result => by simp [submits, completes, running]
    refine waits.bind fun result => ?_
    rw [List.append_nil]
    split
    · rename_i unknown
      apply Triple.done
      intro log holds
      have stillRunning : (!decide (result = vkSuccess ∨ result = vkDeviceLost)) := by
        simp [unknown]
      rw [stillRunning] at holds
      exact ⟨_, _, holds, by simp [objectsOf], by simp, fun impossible => by cases impossible⟩
    · rename_i known
      have stopped : (!decide (result = vkSuccess ∨ result = vkDeviceLost)) = false := by
        simp only [Bool.not_eq_false', decide_eq_true_eq]
        tauto
      rw [stopped]
      exact destroys
  · rename_i stopped
    have idle : Owns vk device locals = Holds (objectsOf vk device locals) [] false := by
      rw [Owns, Bool.eq_false_iff.mpr stopped]
    rw [idle]
    exact destroys

end Release

section Instance

variable {vk physical : Handle}

theorem exits_findVenus (devices : List Handle) :
    Exits anyDriver (Holds [(.vk, vk)] [] false) (findVenus devices)
      (fun _ => Holds [(.vk, vk)] [] false) fun _ => Holds [(.vk, vk)] [] false := by
  induction devices with
  | nil => exact Exits.throw fun _ => id
  | cons device devices ih =>
    refine Exits.bind (exits_checkContext fun _ _ => id) fun _ => ?_
    split
    · exact ih
    · refine Exits.bind exits_quiet fun properties => ?_
      split
      · exact Exits.pure fun _ => id
      · exact ih

theorem exits_choosePhysical :
    Exits anyDriver (Holds [(.vk, vk)] [] false) (choosePhysical vk)
      (fun _ => Holds [(.vk, vk)] [] false) fun _ => Holds [(.vk, vk)] [] false := by
  refine Exits.bind exits_quiet fun ⟨result, count⟩ => ?_
  refine Exits.bind (exits_guard fun _ => id) fun _ => ?_
  refine Exits.bind (exits_guard fun _ => id) fun _ => ?_
  refine Exits.bind exits_quiet fun ⟨result, found, devices⟩ => ?_
  refine Exits.bind (exits_guard fun _ => id) fun _ => ?_
  refine Exits.bind (exits_guard fun _ => id) fun _ => ?_
  exact exits_findVenus _

theorem exits_chooseFamily :
    Exits anyDriver (Holds [(.vk, vk)] [] false) (chooseFamily physical)
      (fun _ => Holds [(.vk, vk)] [] false) fun _ => Holds [(.vk, vk)] [] false := by
  refine Exits.bind exits_quiet fun count => ?_
  refine Exits.bind (exits_guard fun _ => id) fun _ => ?_
  refine Exits.bind exits_quiet fun ⟨found, families⟩ => ?_
  refine Exits.bind (exits_guard fun _ => id) fun _ => ?_
  split
  · exact Exits.throw fun _ => id
  · exact Exits.pure fun _ => id

theorem triple_useInstance :
    Triple anyDriver (Holds [(.vk, vk)] [] false) (useInstance vk)
      fun result => AllBut vk result.2 := by
  have onlyInstance : ∀ log, Holds [(.vk, vk)] [] false log → AllBut vk false log := by
    intro log holds
    exact ⟨_, _, holds, by simp, by simp, fun _ => by simp⟩
  have creates : Exits anyDriver (Holds [(.vk, vk)] [] false)
      (do
        checkContext id
        let physical ← choosePhysical vk
        checkContext id
        let family ← chooseFamily physical
        checkContext id
        let device ← create id (str "vkCreateDevice") (str "device")
          (Prog.perform (VkOp.createDevice physical family))
        return (physical, family, device))
      (fun found => Holds [(.vk, vk), (.device, found.2.2)] [] false)
      fun _ => Holds [(.vk, vk)] [] false := by
    refine Exits.bind (exits_checkContext fun _ _ => id) fun _ => ?_
    refine exits_choosePhysical.bind fun physical => ?_
    refine Exits.bind (exits_checkContext fun _ _ => id) fun _ => ?_
    refine exits_chooseFamily.bind fun family => ?_
    refine Exits.bind (exits_checkContext fun _ _ => id) fun _ => ?_
    have device : Triple anyDriver (Holds [(.vk, vk)] [] false)
        (Prog.perform (VkOp.createDevice physical family)) fun answer =>
          Holds ([(.vk, vk)] ++ (made .device answer).toList) [] false :=
      triple_call rfl (fun _ => rfl) fun _ => rfl
    refine Exits.bind (exits_create device fun _ _ => id) fun device => ?_
    exact Exits.pure fun _ holds => holds.1
  refine Triple.bind creates fun created => ?_
  rcases created with err | ⟨physical, family, device⟩
  · exact Triple.done onlyInstance
  · refine Triple.bind exits_useDevice fun result => ?_
    rcases result with ⟨locals, err⟩ | locals
    · exact triple_releaseDevice.bind fun inFlight => Triple.done fun _ => id
    · exact triple_releaseDevice.bind fun inFlight => Triple.done fun _ => id

/-- The log is disciplined, and what has been created is gone unless commands may be running. -/
def Settled (log : List Entry) : Prop :=
  Disciplined log ∧ (inFlight log = false →
    ∀ object ∈ log.filterMap created, object ∈ log.filterMap destroyed)

theorem Holds.initially : Holds [] [] false [] :=
  ⟨rfl, rfl, rfl, ⟨List.nodup_nil, List.Pairwise.nil, by simp, by simp⟩⟩

theorem triple_destroyInstance {running : Bool} :
    Triple anyDriver (AllBut vk running)
      (destroyIf (running = false) (Prog.perform (VkOp.destroyInstance vk))) fun _ => Settled := by
  rintro log ⟨objects, gone, holds, there, stillThere, rest⟩
  unfold destroyIf
  split
  · rename_i stopped
    subst stopped
    have destroys : Triple anyDriver (Holds objects gone false)
        (Prog.perform (VkOp.destroyInstance vk)) fun _ =>
          Holds objects (gone ++ [(.vk, vk)]) false := by
      apply triple_destroy rfl (fun _ => rfl) (fun _ => rfl) there
      intro earlier isGone
      refine ⟨?_, Nat.zero_le _⟩
      rintro rfl
      exact stillThere isGone
    apply Prog.wp_mono (destroys log holds)
    intro _ after settled
    refine ⟨settled.disciplined, fun _ object existing => ?_⟩
    rw [settled.created_eq] at existing
    rw [settled.destroyed_eq, List.mem_append, List.mem_singleton]
    by_cases isInstance : object = (.vk, vk)
    · exact Or.inr isInstance
    · exact Or.inl (rest rfl object existing isInstance)
  · rename_i mayRun
    refine ⟨holds.disciplined, fun stopped => ?_⟩
    rw [holds.inFlight_eq] at stopped
    exact absurd stopped mayRun

theorem exits_probeVulkan :
    Exits anyDriver (Holds [] [] false) probeVulkan (fun _ => Settled) fun _ => Settled := by
  have nothing : ∀ log, Holds [] [] false log → Settled log := by
    intro log holds
    refine ⟨holds.disciplined, fun _ => ?_⟩
    rw [holds.created_eq]
    simp
  refine (exits_checkContext fun _ log holds => nothing log holds).bind fun _ => ?_
  have creates : Triple anyDriver (Holds [] [] false) (Prog.perform VkOp.createInstance)
      fun answer => Holds ([] ++ (made .vk answer).toList) [] false :=
    triple_call rfl (fun _ => rfl) fun _ => rfl
  refine (exits_create creates fun _ log holds => nothing log holds).bind fun vk => ?_
  apply Exits.assume
  intro _
  refine (Exits.lift triple_useInstance).bind fun ⟨result, running⟩ => ?_
  refine (Exits.lift triple_destroyInstance).bind fun _ => ?_
  cases result with
  | error err => exact fun _ => id
  | ok value => exact fun _ => id

end Instance

end Kiac.Gpu
