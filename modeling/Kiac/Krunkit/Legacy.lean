import Kiac.Krunkit.Inventory

/-!
# Processes of older states

For a state of an older version `processOwned` adopts the process of the recorded number if its
command line contains the directory of the VM or its socket. The directory of a VM is also contained
in the directory of every VM whose name continues its own, so the hypervisor of `web-2` passes for
that of `web`.
-/

namespace Kiac.Krunkit

structure Legacy (client : Client) (name : Str) (state : NodeState) : Prop where
  ofNode : OfNode name state
  noStart : state.processStart = []
  noHash : state.processCommandHash = []
  socket : state.restSocket = [] ∨ state.restSocket = client.shortSocketPath name

/-- The directory of a VM occurs in a text, and not where the directory of the other one does. -/
def NamedBeside (client : Client) (a b text : Str) : Prop :=
  ∃ before after, text = before ++ (client.nodeDir a ++ after) ∧
    ¬ client.nodeDir b ++ [byte '/'] <+: client.nodeDir a ++ after

def SocketNamed (state : NodeState) (text : Str) : Prop :=
  state.restSocket ≠ [] ∧ state.restSocket <:+: text

def Op.Quiet (op : Op) : Prop := ∀ pid, op ≠ .signal pid

/-- The process stays where it is, `processOwned` does not take it for the one of the VM, and
stopping the VM does not send a signal. -/
def LeftAlone (client : Client) (name : Str) (state : NodeState) (world : World) : Prop :=
  ∀ choices : List Choice, (∀ choice ∈ choices, choice.exits state.pid = false) →
    (∀ result, ((processOwned client state).exec machine choices world).value = some result →
      result.1 = false) ∧
    ∀ op ∈ ((stopLocked client name).run.exec machine choices world).trace, op.Quiet

section Text

variable {client : Client} {a b : Str}

theorem not_mem_slash_of_validVMName (valid : validVMName a) : byte '/' ∉ a := by
  intro mem
  simp only [validVMName, Bool.and_eq_true, List.all_eq_true] at valid
  exact absurd (valid.1.1.2 _ mem) (by decide)

theorem isPrefix_nodeDir (starts : a <+: b) : client.nodeDir a <+: client.nodeDir b := by
  rw [Client.nodeDir, Client.nodeDir, List.prefix_append_right_inj]
  exact starts

/-- A name in whose place the directory of the other VM starts is the beginning of that name. -/
theorem prefix_of_nodeDir (valid : validVMName a) {after : Str}
    (starts : client.nodeDir b ++ [byte '/'] <+: client.nodeDir a ++ after) : a <+: b := by
  rw [Client.nodeDir, Client.nodeDir, List.append_assoc, List.append_assoc _ a,
    List.prefix_append_right_inj] at starts
  rcases starts with ⟨rest, whole⟩
  rw [List.append_assoc] at whole
  rcases List.append_eq_append_iff.mp whole with ⟨more, rfl, rest'⟩ | ⟨more, rfl, _⟩
  · cases more with
    | nil => simp
    | cons slash more =>
      have isSlash := (List.cons.inj rest').1
      exact absurd (by simp [isSlash]) (not_mem_slash_of_validVMName valid)
  · exact List.prefix_append a more

theorem infix_commandText {arg : Str} {args : List Str} (mem : arg ∈ args) :
    arg <:+: commandText args := by
  induction args with
  | nil => cases mem
  | cons first args ih =>
    cases args with
    | nil =>
      obtain rfl := List.mem_singleton.mp mem
      simp [commandText]
    | cons second args =>
      rcases List.mem_cons.mp mem with rfl | later
      · exact (List.prefix_append arg _).isInfix
      · exact ((ih later).trans (List.suffix_append _ _).isInfix).trans
          (List.suffix_append _ _).isInfix

theorem nodeDir_infix_command (client : Client) (state : NodeState) (network : Network)
    (vmnetRun krunkit : Str) :
    client.nodeDir state.name <:+: commandText (launchArgs client state network vmnetRun krunkit) := by
  have pidfile : str "--pidfile=" ++ client.nodeDir state.name ++ str "/krunkit.pid" ∈
      launchArgs client state network vmnetRun krunkit := by simp [launchArgs]
  exact ((List.suffix_append _ _).isInfix.trans (List.prefix_append _ _).isInfix).trans
    (infix_commandText pidfile)

theorem nodeDir_infix_iff (valid : validVMName a) {state : NodeState} (named : state.name = b)
    (network : Network) (vmnetRun krunkit : Str) :
    client.nodeDir a <:+: commandText (launchArgs client state network vmnetRun krunkit) ↔
      a <+: b ∨
        NamedBeside client a b (commandText (launchArgs client state network vmnetRun krunkit)) := by
  constructor
  · rintro ⟨before, after, text⟩
    by_cases starts : client.nodeDir b ++ [byte '/'] <+: client.nodeDir a ++ after
    · exact .inl (prefix_of_nodeDir valid starts)
    · rw [List.append_assoc] at text
      exact .inr ⟨before, after, text.symm, starts⟩
  · rintro (starts | ⟨before, after, text, _⟩)
    · have own := nodeDir_infix_command client state network vmnetRun krunkit
      rw [named] at own
      exact (isPrefix_nodeDir starts).isInfix.trans own
    · rw [text]
      exact (List.prefix_append _ _).isInfix.trans (List.suffix_append _ _).isInfix

end Text

section Adoption

variable {client : Client} {a b : Str} {state other : NodeState} {network : Network}
  {vmnetRun krunkit : Str}

theorem Legacy.identify_eq_true_iff (legacy : Legacy client a state) (valid : validVMName a)
    (started command : Str) : (identify client state started command).1 ↔
      client.nodeDir a <:+: command ∨ SocketNamed state command := by
  simp only [identify, legacy.noStart, legacy.ofNode.2, valid, Bool.true_and, ne_eq,
    not_true_eq_false, false_and, if_false]
  rw [← Str.contains_iff, SocketNamed, ← Str.contains_iff, apply_ite Prod.fst]
  generalize Str.contains (client.nodeDir a) command = named
  generalize Str.contains state.restSocket command = socketNamed
  cases named <;> cases socketNamed <;> simp

def watching (pid : ℕ) : Setting Op Op.Ans World Choice :=
  ⟨machine, fun _ choice _ => choice.exits pid = false, fun op _ => op.Quiet⟩

variable {pid : ℕ} {proc : Proc} {world : World}

theorem procs_evolve {choice : Choice}
    (stays : choice.exits pid = false) (alive : world.procs pid = some proc) :
    (world.evolve choice).procs pid = some proc := by
  simp [World.evolve, alive, stays]

theorem triple_look {op : Op} (quiet : op.Quiet)
    (looks : ∀ choice world, (effect choice world op).1 = world) :
    Triple (watching pid) (fun world => world.procs pid = some proc) (Prog.perform op)
      fun answer world => world.procs pid = some proc ∧
        ∃ choice before, before.procs pid = some proc ∧ answer = (effect choice before op).2 := by
  refine Triple.perform (fun _ _ => quiet) fun world choice alive stays => ?_
  have evolved := procs_evolve stays alive
  refine ⟨?_, choice, world.evolve choice, evolved, rfl⟩
  change (effect choice (world.evolve choice) op).1.procs pid = some proc
  rw [looks]
  exact evolved

theorem triple_processOwned_of_not
    (differs : ∀ started, (identify client state started proc.command).1 = false) :
    Triple (watching state.pid) (fun world => world.procs state.pid = some proc)
      (processOwned client state) fun result _ => result.1 = false := by
  have alive : Triple (watching state.pid) (fun world => world.procs state.pid = some proc)
      (processAlive state.pid) fun _ world => world.procs state.pid = some proc := by
    unfold processAlive
    split
    · exact Triple.done fun _ => id
    · exact (triple_look (by simp [Op.Quiet]) fun _ _ => rfl).weaken (fun _ => id)
        fun _ _ holds => holds.1
  refine alive.bind fun isAlive => ?_
  split
  · refine ((triple_look (by simp [Op.Quiet]) fun _ _ => rfl).weaken (fun _ => id)
      fun _ _ holds => holds.1).bind fun started => ?_
    cases started with
    | none => exact Triple.done fun _ _ => rfl
    | some started =>
      simp only
      split
      · exact Triple.done fun _ _ => rfl
      · refine (triple_look (by simp [Op.Quiet]) fun _ _ => rfl).bind fun command => ?_
        rintro world ⟨_, choice, before, there, answer⟩
        have shown : command = if choice.works then some proc.command else none := by
          rw [answer]
          simp [effect, there]
        cases works : choice.works with
        | false =>
          rw [shown, works]
          exact rfl
        | true =>
          rw [shown, works]
          exact differs started
  · exact Triple.done fun _ _ => rfl

theorem acts_writeState_quiet (state : NodeState) :
    Does Op.Quiet (writeState state) := by
  refine acts_check.bind fun _ _ => ?_
  refine (acts_must (acts_ask (by simp [Op.Quiet]))).bind fun _ _ => ?_
  exact acts_writeJSONAtomic (by simp [Op.Quiet]) (by simp [Op.Quiet]) (by simp [Op.Quiet])
    (by simp [Op.Quiet])

theorem returns_stopLocked_of_not {name : Str}
    (differs : ∀ started, (identify client state started proc.command).1 = false) :
    Returns (watching state.pid)
      (fun world => world.procs state.pid = some proc ∧
        world.slot name = .stored (some (.node state)))
      (stopLocked client name) (fun _ _ => True) fun _ => True := by
  refine ((returns_readState name
    (fun world choice stays holds => ⟨procs_evolve stays holds.1, holds.2⟩) (by simp [Op.Quiet])).weaken
    (fun _ => id) (fun _ _ => id) fun _ _ => trivial).bind fun read => ?_
  rintro world ⟨⟨alive, stored⟩, readStored, _⟩
  obtain ⟨rfl⟩ := Slot.stored.inj (stored.symm.trans readStored)
  refine (Returns.lift (triple_processOwned_of_not differs)).bind ?_ world alive
  rintro ⟨owned, after⟩ world' (rfl : owned = false)
  have writes : Returns (watching state.pid) (fun _ => True) (writeState (stopped after))
      (fun _ _ => True ∧ True) fun _ => True :=
    Acts.returns (acts_writeState_quiet _) (fun _ _ quiet _ => quiet) fun _ _ _ _ _ _ => trivial
  exact Triple.weaken writes (fun _ (_ : True) => trivial) (fun result _ _ => by cases result <;> trivial)
    world' trivial

theorem exec_processOwned (isProcess : state.pid ≠ 0)
    (noStart : state.processStart = []) (alive : world.procs state.pid = some proc) :
    ((processOwned client state).exec machine (List.replicate 3 calm) world).value =
      some (identify client state proc.start proc.command) := by
  have works : calm.works := rfl
  have first : (world.evolve calm).procs state.pid = some proc := procs_evolve rfl alive
  have second : ((world.evolve calm).evolve calm).procs state.pid = some proc := procs_evolve rfl first
  have third : (((world.evolve calm).evolve calm).evolve calm).procs state.pid = some proc :=
    procs_evolve rfl second
  simp [processOwned, processAlive, isProcess, identifyAlive, List.replicate_succ,
    Prog.exec_call_cons, machine, step, effect, works, first, second, third, noStart]

/--
A process with the command line of VM `b` is left alone by a state of an older version of VM `a`
that has its number exactly if the name of `a` is not the beginning of that of `b` and nothing
else in the command line names the directory or the recorded socket of `a`.
-/
theorem leftAlone_iff (validA : validVMName a = true) (legacy : Legacy client a state)
    (named : other.name = b) {world : World} {proc : Proc}
    (stored : world.slot a = .stored (some (.node state))) (isProcess : state.pid ≠ 0)
    (alive : world.procs state.pid = some proc)
    (runs : proc.command = commandText (launchArgs client other network vmnetRun krunkit)) :
    LeftAlone client a state world ↔
      ¬ a <+: b ∧ ¬ NamedBeside client a b proc.command ∧ ¬ SocketNamed state proc.command := by
  have adopted : ∀ started, (identify client state started proc.command).1 = true ↔
      (a <+: b ∨ NamedBeside client a b proc.command) ∨ SocketNamed state proc.command := by
    intro started
    rw [legacy.identify_eq_true_iff validA, runs, nodeDir_infix_iff validA named]
  constructor
  · intro leftAlone
    have looks := (leftAlone (List.replicate 3 calm) (by simp [calm])).1 _
      (exec_processOwned isProcess legacy.noStart alive)
    have notAdopted := (adopted proc.start).not.mp (by rw [looks]; simp)
    rw [not_or, not_or] at notAdopted
    exact ⟨notAdopted.1.1, notAdopted.1.2, notAdopted.2⟩
  · rintro ⟨notStart, notBeside, notSocket⟩ choices stays
    have differs : ∀ started, (identify client state started proc.command).1 = false := by
      intro started
      rw [Bool.eq_false_iff, ne_eq, adopted]
      rintro ((starts | beside) | socket)
      · exact notStart starts
      · exact notBeside beside
      · exact notSocket socket
    have fair : ∀ choice ∈ choices, ∀ op world, (watching state.pid).fair op choice world :=
      fun choice mem _ _ => stays choice mem
    refine ⟨fun result returned => ?_, fun op issued => ?_⟩
    · exact Triple.returned (triple_processOwned_of_not differs) alive
        (Prog.fairRun_of_forall fair _ world) returned
    · rcases Prog.guard_of_mem_trace (returns_stopLocked_of_not differs world ⟨alive, stored⟩)
        (Prog.fairRun_of_forall fair _ world) issued with ⟨_, quiet⟩
      exact quiet

end Adoption

section Sample

def olderState (name : Str) : NodeState :=
  { newState gpuClient { gpuOpts with name := name } ⟨str "/fedora.raw", 4, 8192⟩
      ⟨1, str "a", str "192.168.105.0/24", str "192.168.105.1", str "192.168.105.254",
        str "255.255.255.0"⟩ (str "52:54:00:00:00:01") [] with
    pid := 7 }

def sampleCommand (name : Str) : Str :=
  commandText (launchArgs gpuClient (olderState name)
    ⟨1, str "a", str "192.168.105.0/24", str "192.168.105.1", str "192.168.105.254",
      str "255.255.255.0"⟩ (str "/opt/vmnet-run") (str "/opt/krunkit"))

/-- A VM with an older state, whose recorded process number now is that of another VM. -/
def reusedNumber (name other : Str) : World :=
  (World.empty.setFiles (.node name) (AList.singleton stateFile (some (.node (olderState name))))).setProc
    7 (some ⟨some other, str "Mon", sampleCommand other, by decide⟩)

theorem legacy_olderState (name : Str) : Legacy gpuClient name (olderState name) :=
  ⟨⟨rfl, rfl⟩, rfl, rfl, .inr rfl⟩

/-- The second GPU node is left alone by the state of the first one. -/
theorem leftAlone_second :
    LeftAlone gpuClient gpuNode (olderState gpuNode) (reusedNumber gpuNode (str "kiac-a-gpu-2")) := by
  have apart : ∀ text : Str, Str.contains (gpuClient.nodeDir gpuNode) text = false →
      ¬ NamedBeside gpuClient gpuNode (str "kiac-a-gpu-2") text := by
    rintro text notContained ⟨before, after, rfl, _⟩
    have found : gpuClient.nodeDir gpuNode <:+: before ++ (gpuClient.nodeDir gpuNode ++ after) :=
      (List.prefix_append _ _).isInfix.trans (List.suffix_append _ _).isInfix
    rw [Str.contains_iff.mpr found] at notContained
    cases notContained
  refine (leftAlone_iff (by decide) (legacy_olderState gpuNode)
    (rfl : (olderState (str "kiac-a-gpu-2")).name = _) (by decide) (by decide) rfl rfl).mpr
    ⟨by decide, apart _ (by decide +kernel), ?_⟩
  rintro ⟨_, found⟩
  exact absurd (Str.contains_iff.mpr found) (by decide +kernel)

set_option maxRecDepth 4000 in
/-- The tenth GPU node is taken for the first one, and stopping the first sends it a signal. -/
theorem tenth_signalled :
    validVMName gpuNode = true ∧ validVMName (str "kiac-a-gpu-10") = true ∧
    gpuClient.shortSocketPath gpuNode ≠ gpuClient.shortSocketPath (str "kiac-a-gpu-10") ∧
    Legacy gpuClient gpuNode (olderState gpuNode) ∧
    ((reusedNumber gpuNode (str "kiac-a-gpu-10")).procs 7).map Proc.command =
      some (sampleCommand (str "kiac-a-gpu-10")) ∧
    (((processOwned gpuClient (olderState gpuNode)).exec machine (List.replicate 3 calm)
      (reusedNumber gpuNode (str "kiac-a-gpu-10"))).value.map Prod.fst) = some true ∧
    Op.signal 7 ∈ ((stopLocked gpuClient gpuNode).run.exec machine (List.replicate 20 calm)
      (reusedNumber gpuNode (str "kiac-a-gpu-10"))).trace := by
  have issued : ((stopLocked gpuClient gpuNode).run.exec machine (List.replicate 20 calm)
      (reusedNumber gpuNode (str "kiac-a-gpu-10"))).trace[12]? = some (.signal 7) := rfl
  exact ⟨by decide, by decide, by decide +kernel, legacy_olderState gpuNode, rfl, by decide +kernel,
    List.mem_of_getElem? issued⟩

end Sample

end Kiac.Krunkit
