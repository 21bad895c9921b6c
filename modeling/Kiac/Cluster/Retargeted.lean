import Kiac.Cluster.ProxyServer

/-!
# When healed proxies have the wanted server

A call that returns without an error has put the server into the kubeconfig of every node that it
has found, except of those whose marker already named it. So it is right for every schedule and every
behaviour of the proxies exactly if the markers tell the truth about it, and so do the nodes whose
test may fail.
-/

namespace Kiac.Cluster.ProxyServer

open Step

def Node.files (node : Node) : Bool × Kubeconfig × Option Str :=
  (node.installed, node.kubeconfig, node.marker)

def Quiet (name : Str) (world after : World) : Prop := (after name).files = (world name).files

def Kept (name : Str) (world after : World) : Prop :=
  (after name).installed = (world name).installed ∧ (after name).kubeconfig = (world name).kubeconfig

variable {name : Str} {world : World} {target : Target} {flaky : Set Str}

theorem preserved_quiet (name : Str) : Preserved (Quiet name) :=
  ⟨fun _ => rfl, fun first second => second.trans first⟩

theorem preserved_kept (name : Str) : Preserved (Kept name) :=
  ⟨fun _ => ⟨rfl, rfl⟩, fun first second =>
    ⟨second.1.trans first.1, second.2.trans first.2⟩⟩

theorem Quiet.kept {after : World} (quiet : Quiet name world after) : Kept name world after :=
  ⟨congrArg Prod.fst quiet, congrArg (fun files => files.2.1) quiet⟩

theorem quiet_update {other : Str} {node : Node}
    (same : other = name → node.files = (world name).files) :
    Quiet name world (Function.update world other node) := by
  unfold Quiet
  by_cases isName : other = name
  · subst isName
    rw [Function.update_self]
    exact same rfl
  · rw [Function.update_of_ne fun same => isName same.symm]

theorem quiet_happen (name : Str) (world : World) (event : Event) :
    Quiet name world (happen world event) := by
  refine quiet_update fun isName => ?_
  rw [← isName]
  cases event <;> rfl

theorem quiet_events (name : Str) (world : World) (events : List Event) :
    Quiet name world (events.foldl happen world) := by
  induction events generalizing world with
  | nil => rfl
  | cons event events ih => exact (preserved_quiet name).trans (quiet_happen name world event) (ih _)

/-- Commands that leave the files of the node as they are, or belong to another one. -/
def Op.Harmless (name : Str) : Op → Prop
  | .exec node command => node ≠ name ∨
      ∀ choice state, (command.after choice state).files = state.files

/-- Commands that leave the files of their node as they are. -/
def Command.idle : Command → Bool
  | mv _ => false
  | printf _ => false
  | _ => true

def Op.Tame : Op → Prop
  | .exec _ command => ∀ choice state, (command.after choice state).installed = state.installed ∧
      (command.after choice state).kubeconfig = state.kubeconfig

variable {op : Op}

theorem quiet_step (harmless : op.Harmless name) (choice : Choice) (world : World) :
    Quiet name world (step op choice world).1 := by
  rcases op with ⟨node, command⟩
  refine (preserved_quiet name).trans (quiet_events name world choice.events) (quiet_update ?_)
  rintro rfl
  rcases harmless with differ | unchanged
  · exact absurd rfl differ
  · exact unchanged choice _

theorem kept_step (tame : op.Tame) (choice : Choice) (world : World) :
    Kept name world (step op choice world).1 := by
  rcases op with ⟨node, command⟩
  refine (preserved_kept name).trans (quiet_events name world choice.events).kept ?_
  by_cases isName : node = name
  · subst isName
    simp only [Kept, step, Function.update_self]
    exact tame choice _
  · exact (quiet_update fun same => absurd same isName).kept

def Fair (flaky : Set Str) : Op → Choice → World → Prop
  | .exec node .test, choice, _ => node ∉ flaky → choice.reports = true
  | _, _, _ => True

def watching (flaky : Set Str) : Scene Op Op.Ans World Choice := ⟨machine, Fair flaky, fun _ => True⟩

def Retargeted (target : Target) (name : Str) (world : World) : Prop :=
  (world name).installed = true ∧ (world name).kubeconfig.Serves target.url

/-- The proxy is installed, and the marker does not name the URL without reason. -/
def Honest (target : Target) (name : Str) (world : World) : Prop :=
  (world name).installed = true ∧ (markerText ((world name).marker.getD []) = target.url →
    (world name).kubeconfig.Serves target.url)

theorem stable_retargeted : StableUnder (Kept name) (Retargeted target name) := by
  intro world after kept retargeted
  rw [Retargeted, kept.1, kept.2]
  exact retargeted

theorem stable_retargeted' : StableUnder (Quiet name) (Retargeted target name) :=
  fun _ _ quiet => stable_retargeted _ _ quiet.kept

theorem stable_honest : StableUnder (Quiet name) (Honest target name) := by
  intro world after quiet honest
  have marker : (after name).marker = (world name).marker := congrArg (fun files => files.2.2) quiet
  rw [Honest, quiet.kept.1, quiet.kept.2, marker]
  exact honest

abbrev Own {α : Type} (flaky : Set Str) (name : Str) (pre : World → Prop) (action : Action α)
    (ok : α → World → Prop) : Prop :=
  Attempts (watching flaky) (Quiet name) (fun _ _ => True) pre action ok

section Thread

variable {α : Type} {pre : World → Prop} {post : α → Prop} {action : Action α}

theorem own_harmless (acts : Acts (Op.Harmless name) post action)
    (stable : StableUnder (Quiet name) pre) :
    Own flaky name pre action fun value world => pre world ∧ post value :=
  Attempts.quiet acts stable fun _ _ choice harmless holds _ _ =>
    ⟨trivial, trivial, stable _ _ (quiet_step harmless choice _) holds⟩

theorem own_keeps (acts : Acts (Op.Harmless name) post action)
    (stable : StableUnder (Quiet name) pre) : Own flaky name pre action fun _ => pre :=
  Attempts.weaken (own_harmless acts stable) (fun _ => id) fun _ _ holds => holds.1

variable {command : Command}

theorem Command.files_after (idle : command.idle) (choice : Choice) (state : Node) :
    (command.after choice state).files = state.files := by
  unfold Command.after
  split <;> cases command <;> first | rfl | cases idle

theorem harmless_idle {node : Str} (idle : command.idle) :
    Op.Harmless name (.exec node command) := Or.inr (command.files_after idle)

theorem acts_idle (node : Str) (idle : command.idle) :
    Does (Op.Harmless name) (exec node command) :=
  acts_ask (harmless_idle idle)

theorem own_catMarker :
    Own flaky name (Honest target name) (exec name .catMarker) fun marker world =>
      Honest target name world ∧
        (markerText marker = target.url → (world name).kubeconfig.Serves target.url) := by
  refine Attempts.ask stable_honest ?_ ?_
  · rintro marker world after quiet ⟨honest, named⟩
    refine ⟨stable_honest _ _ quiet honest, ?_⟩
    rw [quiet.kept.2]
    exact named
  · intro world choice honest _ _
    have idle : Op.Harmless name (.exec name .catMarker) :=
      harmless_idle rfl
    have honest' := stable_honest _ _ (quiet_step idle choice world) honest
    have quiet := quiet_events name world choice.events
    refine ⟨trivial, trivial, honest', fun named => ?_⟩
    change markerText (answer choice (choice.events.foldl happen world name) .catMarker name) = _
      at named
    change ((step (.exec name .catMarker) choice world).1 name).kubeconfig.Serves target.url
    rw [(quiet_step idle choice world).kept.2]
    simp only [answer] at named
    split at named
    · have same : (choice.events.foldl happen world name).marker = (world name).marker :=
        congrArg (fun files => files.2.2) quiet
      rw [same] at named
      exact honest.2 named
    · exact absurd named.symm target.nonempty

theorem acts_healthy (node : Str) : Does (Op.Harmless name) (healthy node) := by
  refine (acts_must (acts_idle node rfl)).bind fun _ _ => ?_
  refine acts_andThen (acts_idle node rfl) ?_
  exact acts_andThen (acts_idle node rfl)
    (acts_idle node rfl)

theorem own_skips :
    Own flaky name (Honest target name) (skips target name) fun skip world =>
      Honest target name world ∧ (skip → (world name).kubeconfig.Serves target.url) := by
  refine Attempts.bind (preserved_quiet name) own_catMarker fun marker => ?_
  have stable : StableUnder (Quiet name) fun world => Honest target name world ∧
      (markerText marker = target.url → (world name).kubeconfig.Serves target.url) := by
    rintro world after quiet ⟨honest, named⟩
    rw [quiet.kept.2]
    exact ⟨stable_honest _ _ quiet honest, named⟩
  by_cases named : markerText marker = target.url
  · rw [if_pos named]
    exact Attempts.weaken (own_keeps (acts_healthy name) stable) (fun _ => id)
      fun _ _ holds => ⟨holds.1, fun _ => holds.2 named⟩
  · rw [if_neg named]
    exact Attempts.pure stable fun _ holds => ⟨holds.1, Bool.noConfusion⟩

def Installed (name : Str) (world : World) : Prop := (world name).installed = true

theorem stable_installed : StableUnder (Quiet name) (Installed name) := by
  intro world after quiet isInstalled
  rw [Installed, quiet.kept.1]
  exact isInstalled

theorem own_sed :
    Own flaky name (Installed name) (exec name (.sed target)) fun tmp world =>
      Installed name world ∧ ∀ file, tmp = some file → file.Serves target.url := by
  refine Attempts.ask stable_installed (fun tmp => ?_) ?_
  · exact fun _ _ quiet holds => ⟨stable_installed _ _ quiet holds.1, holds.2⟩
  · intro world choice isInstalled _ _
    have idle : Op.Harmless name (.exec name (.sed target)) :=
      harmless_idle rfl
    refine ⟨trivial, trivial, stable_installed _ _ (quiet_step idle choice world) isInstalled, ?_⟩
    intro file printed
    change answer choice (choice.events.foldl happen world name) (.sed target) name = some file
      at printed
    simp only [answer] at printed
    split at printed
    · rw [← Option.some.inj printed]
      exact Kubeconfig.serves_retarget _ _
    · cases printed

theorem own_mv {file : Kubeconfig} (serves : file.Serves target.url) :
    Own flaky name (Installed name) (exec name (.mv file)) fun reported world =>
      reported → Retargeted target name world := by
  refine Attempts.ask stable_installed
    (fun _ _ _ quiet holds reported => stable_retargeted' _ _ quiet (holds reported)) ?_
  intro world choice isInstalled _ _
  refine ⟨trivial, trivial, fun reported => ?_⟩
  have acts := (Bool.and_eq_true_iff.mp reported).1
  have installed := stable_installed _ _ (quiet_events name world choice.events) isInstalled
  change Retargeted target name (step (.exec name (.mv file)) choice world).1
  simp only [Retargeted, step, Function.update_self, Command.after, acts, if_true, Command.effect]
  exact ⟨installed, serves⟩

theorem own_replace :
    Own flaky name (Installed name) (replace target name) fun _ => Retargeted target name := by
  refine Attempts.bind (preserved_quiet name)
    (own_keeps (acts_must (acts_idle name rfl)) stable_installed) fun _ => ?_
  refine Attempts.bind (preserved_quiet name) own_sed fun tmp => Attempts.assume fun isServer => ?_
  refine Attempts.bind (preserved_quiet name) (own_harmless (acts_given tmp) stable_installed)
    fun file => Attempts.assume fun isFile => ?_
  refine Attempts.bind (preserved_quiet name) (own_keeps acts_check stable_installed) fun _ => ?_
  refine Attempts.bind (preserved_quiet name)
    (own_keeps (acts_must (acts_idle name rfl)) stable_installed) fun _ => ?_
  exact Attempts.must (preserved_quiet name) stable_retargeted' (own_mv (isServer file isFile))

theorem acts_stopProxy (node : Str) : Does (Op.Harmless name) (stopProxy node) := by
  refine (acts_idle node rfl).bind fun _ _ => ?_
  refine (acts_must (acts_idle node rfl)).bind fun _ _ => ?_
  exact (acts_idle node rfl).bind fun _ _ => Acts.pure trivial

theorem acts_supervisor (node : Str) :
    Does (Op.Harmless name) (edgeProxySupervisorScript node) := by
  have started : Does (Op.Harmless name) (startLoop node) :=
    (acts_idle node rfl).bind fun _ _ =>
      acts_must (acts_idle node rfl)
  refine (acts_must (acts_idle node rfl)).bind fun _ _ => ?_
  refine (acts_idle node rfl).bind fun _ _ => ?_
  refine (acts_skipIf started).bind fun _ _ => ?_
  exact acts_must (acts_idle node rfl)

theorem own_healNode :
    Own flaky name (Honest target name) (healNode target name) fun _ => Retargeted target name := by
  have replaced : Own flaky name (Honest target name)
      (do replace target name; stopProxy name) fun _ => Retargeted target name :=
    Attempts.bind (preserved_quiet name)
      (Attempts.weaken own_replace (fun _ honest => honest.1) fun _ _ => id)
      fun _ => own_keeps (acts_stopProxy name) stable_retargeted'
  have changed : ∀ skip, Own flaky name (fun world => Honest target name world ∧
      (skip = true → (world name).kubeconfig.Serves target.url))
      (skipIf skip (do replace target name; stopProxy name)) fun _ => Retargeted target name := by
    intro skip
    cases skip with
    | false => exact Attempts.weaken replaced (fun _ holds => holds.1) fun _ _ => id
    | true =>
      intro world holds after quiet
      exact stable_retargeted' _ _ quiet ⟨holds.1.1, holds.2 rfl⟩
  refine Attempts.bind (preserved_quiet name) ?_ fun _ =>
    own_keeps (acts_supervisor name) stable_retargeted'
  refine Attempts.bind (preserved_quiet name) own_skips fun skip => ?_
  refine Attempts.bind (preserved_quiet name) (changed skip) fun _ => ?_
  exact own_keeps (acts_must (acts_idle name rfl)) stable_retargeted'

end Thread

section Call

theorem acts_healNode {other : Str} (differ : other ≠ name) :
    Does (Op.Harmless name) (healNode target other) := by
  have ask : ∀ command, Does (Op.Harmless name) (exec other command) :=
    fun _ => acts_ask (Or.inl differ)
  have replaced : Does (Op.Harmless name) (replace target other) := by
    refine (acts_must (ask .mktemp)).bind fun _ _ => ?_
    refine (ask (.sed target)).bind fun tmp _ => (acts_given tmp).bind fun file _ => ?_
    refine acts_check.bind fun _ _ => (acts_must (ask .chmod)).bind fun _ _ => ?_
    exact acts_must (ask (.mv file))
  have skipped : Does (Op.Harmless name) (skips target other) := by
    refine (ask .catMarker).bind fun marker _ => ?_
    split
    · exact acts_healthy other
    · exact Acts.pure trivial
  have healed : Does (Op.Harmless name) (healK3sEdgeProxyScript target other) := by
    refine skipped.bind fun skip _ => ?_
    refine (acts_skipIf (replaced.bind fun _ _ => acts_stopProxy other)).bind fun _ _ => ?_
    exact acts_must (ask .reply)
  exact healed.bind fun _ _ => acts_supervisor other

def Seen (flaky : Set Str) (target : Target) (name : Str) (world : World) : Prop :=
  Honest target name world ∧ (name ∈ flaky → Retargeted target name world)

theorem stable_seen : StableUnder (Quiet name) (Seen flaky target name) :=
  fun _ _ quiet seen => ⟨stable_honest _ _ quiet seen.1,
    fun isFlaky => stable_retargeted' _ _ quiet (seen.2 isFlaky)⟩

theorem attempts_test (node : Str) :
    Attempts (watching flaky) Eq (Quiet name) (Seen flaky target name) (exec node .test)
      fun found world => Seen flaky target name world ∧ (node = name → found ∨ name ∈ flaky) := by
  refine Attempts.ask stableUnder_eq (fun _ => stableUnder_eq) fun world choice seen _ isFair => ?_
  have harmless : Op.Harmless name (.exec node .test) :=
    harmless_idle rfl
  have quiet := quiet_step harmless choice world
  refine ⟨quiet, trivial, stable_seen _ _ quiet seen, ?_⟩
  rintro rfl
  by_cases isFlaky : node ∈ flaky
  · exact Or.inr isFlaky
  · left
    have reports := isFair isFlaky
    have installed := stable_installed _ _ (quiet_events node world choice.events) seen.1.1
    change (choice.reports && (choice.events.foldl happen world node).installed) = true
    rw [reports, installed]
    rfl

theorem attempts_installedNodes (nodes : List Str) :
    Attempts (watching flaky) Eq (Quiet name) (Seen flaky target name) (installedNodes nodes)
      fun installed world => Seen flaky target name world ∧ installed.Sublist nodes ∧
        (name ∈ nodes → name ∈ installed ∨ name ∈ flaky) := by
  induction nodes with
  | nil => exact Attempts.pure stableUnder_eq fun _ seen => ⟨seen, .slnil, by simp⟩
  | cons node nodes ih =>
    refine Attempts.bind preserved_eq (attempts_test node) fun found =>
      Attempts.assume fun isFound => ?_
    refine Attempts.bind preserved_eq ih fun rest => Attempts.assume fun ⟨sublist, all⟩ => ?_
    refine Attempts.pure stableUnder_eq fun world seen => ⟨seen, ?_⟩
    cases found with
    | true =>
      refine ⟨sublist.cons_cons node, fun mem => ?_⟩
      rcases List.mem_cons.mp mem with same | inNodes
      · exact Or.inl (List.mem_cons.mpr (Or.inl same))
      · exact (all inNodes).imp_left (List.mem_cons_of_mem node)
    | false =>
      refine ⟨sublist.cons node, fun mem => ?_⟩
      rcases List.mem_cons.mp mem with same | inNodes
      · exact Or.inr ((isFound same.symm).resolve_left Bool.noConfusion)
      · exact all inNodes

variable {installed : List Str}

theorem completes_healNodes (nodup : installed.Nodup) :
    Completes (watching flaky) (Seen flaky target name) (Job.inParallel (healNode target) installed)
      fun _ world => name ∈ installed → Retargeted target name world := by
  refine Completes.watched nodup (preserved_quiet name) (fun _ => ?_) (fun item => acts_healNode)
    fun _ _ choice harmless _ _ => ⟨quiet_step harmless choice _, trivial⟩
  exact Attempts.weaken own_healNode (fun _ seen => seen.1) fun _ _ => id

theorem completes_others (nodup : installed.Nodup) (absent : name ∉ installed) :
    Completes (watching flaky) (Retargeted target name) (Job.inParallel (healNode target) installed)
      fun _ world => installed ≠ [] → Retargeted target name world := by
  have each : ∀ item ∈ installed, Does (Op.Harmless name) (healNode target item) :=
    fun item mem => acts_healNode fun same => absent (same ▸ mem)
  exact Completes.uniform nodup (preserved_quiet name) stable_retargeted' each
    fun _ _ choice harmless _ _ => ⟨quiet_step harmless choice _, trivial⟩

theorem acts_tame {node : Str} {command : Command} (other : ∀ file, command ≠ .mv file) :
    Does Op.Tame (exec node command) := by
  have tame : Op.Tame (.exec node command) := by
    intro choice state
    unfold Command.after
    split <;> cases command <;> first | exact ⟨rfl, rfl⟩ | exact absurd rfl (other _)
  exact acts_ask tame

theorem completes_rest (nodup : installed.Nodup) (nonempty : installed ≠ []) :
    Completes (watching flaky) (Retargeted target name)
      (do waitEdgeProxyRules installed; Job.inParallel (writeMarker target) installed)
      fun _ => Retargeted target name := by
  have step : ∀ (op : Op) (world : World) (choice : Choice), op.Tame → True →
      Fair flaky op choice world → Kept name world (step op choice world).1 ∧ True :=
    fun _ _ choice tame _ _ => ⟨kept_step tame choice _, trivial⟩
  have waits : ∀ item ∈ installed, Does Op.Tame
      (must (exec item .rules) (.exec item)) :=
    fun _ _ => acts_must (acts_tame nofun)
  have writes : ∀ item ∈ installed, Does Op.Tame (writeMarker target item) :=
    fun _ _ => Acts.bind (acts_must (acts_tame nofun)) fun _ _ => acts_must (acts_tame nofun)
  have uniform : ∀ {body : Str → Action Unit},
      (∀ item ∈ installed, Does Op.Tame (body item)) →
      Completes (watching flaky) (Retargeted target name) (Job.inParallel body installed)
        fun _ => Retargeted target name :=
    fun each => Completes.weaken
      (Completes.uniform nodup (preserved_kept name) stable_retargeted each step)
      (fun _ => id) fun _ _ holds => holds nonempty
  exact (uniform waits).bind fun _ => uniform writes

theorem completes_heal {nodes : List Str} (nodup : nodes.Nodup) (mem : name ∈ nodes) :
    Completes (watching flaky) (Seen flaky target name) (healK3sEdgeProxy target nodes)
      fun _ => Retargeted target name := by
  refine (Completes.seq (attempts_installedNodes nodes)).bind fun installed => ?_
  rintro world ⟨seen, sublist, all⟩
  have distinct := nodup.sublist sublist
  cases installed with
  | nil => exact seen.2 ((all mem).resolve_left List.not_mem_nil)
  | cons node rest =>
    have nonempty := List.cons_ne_nil node rest
    by_cases found : name ∈ node :: rest
    · refine ((completes_healNodes distinct).weaken (fun _ => id)
        fun _ _ holds => holds found).bind (fun _ => completes_rest distinct nonempty) world seen
    · have retargeted := seen.2 ((all mem).resolve_left found)
      refine ((completes_others distinct found).weaken
        (fun _ => id) fun _ _ holds => holds nonempty).bind
        (fun _ => completes_rest distinct nonempty) world retargeted

end Call

section Escape

/-- A node keeps its kubeconfig, since it is not found or its marker names the URL. -/
structure Stays (flaky : Set Str) (target : Target) (name : Str) (file : Kubeconfig)
    (installed : List Str) (world : World) : Prop where
  kubeconfig : (world name).kubeconfig = file
  named : name ∉ flaky → markerText ((world name).marker.getD []) = target.url
  sure : name ∈ installed → name ∉ flaky
  all : ∀ item ∈ installed, (world item).installed = true

def smooth (events : List Event) : Choice := ⟨events, true, true, none⟩

instance : Nonempty Choice := ⟨smooth []⟩

theorem fair_smooth (flaky : Set Str) (op : Op) (events : List Event) (world : World) :
    Fair flaky op (smooth events) world := by
  rcases op with ⟨node, command⟩
  cases command <;> first | exact fun _ => rfl | trivial

variable {file : Kubeconfig} {installed : List Str}

theorem Stays.quiet {after : World} (stays : Stays flaky target name file installed world)
    (quiet : Quiet name world after)
    (same : ∀ item, (after item).installed = (world item).installed) :
    Stays flaky target name file installed after := by
  have marker : (after name).marker = (world name).marker := congrArg (fun files => files.2.2) quiet
  refine ⟨quiet.kept.2.trans stays.kubeconfig, ?_, stays.sure, ?_⟩
  · rw [marker]
    exact stays.named
  · exact fun item mem => (same item).trans (stays.all item mem)

theorem after_installed (command : Command) (choice : Choice) (state : Node) :
    (command.after choice state).installed = state.installed := by
  unfold Command.after
  split
  · cases command <;> rfl
  · cases command <;> rfl

theorem step_installed (op : Op) (choice : Choice) (world : World) (item : Str) :
    ((step op choice world).1 item).installed = (world item).installed := by
  rcases op with ⟨node, command⟩
  have before := (quiet_events item world choice.events).kept.1
  by_cases same : item = node
  · subst same
    simp only [step, Function.update_self]
    exact (after_installed command choice _).trans before
  · simp only [step, Function.update_of_ne same]
    exact before

variable {node : Str} {command : Command} {item : Str}

theorem achieves_exec {told : Op.Ans (.exec node command) → Prop}
    (events : List Event) (harmless : Op.Harmless name (.exec node command))
    (answers : ∀ before, Stays flaky target name file installed before →
      told (answer (smooth events) (events.foldl happen before node) command node)) :
    Achieves (watching flaky) (Stays flaky target name file installed) (exec node command)
      fun value after => told value ∧ Stays flaky target name file installed after := by
  refine Achieves.ask fun world stays => ⟨smooth events, fair_smooth flaky _ events world, ?_, ?_⟩
  · exact answers world stays
  · exact stays.quiet (quiet_step harmless _ world)
      (step_installed (.exec node command) (smooth events) world)

abbrev Passes {α : Type} (flaky : Set Str) (target : Target) (name : Str) (file : Kubeconfig)
    (installed : List Str) (action : Action α) : Prop :=
  Achieves (watching flaky) (Stays flaky target name file installed) action
    fun _ => Stays flaky target name file installed

def wake (node : Str) : List Event := [.boot node, .respawn node, .sync node]

theorem wake_spec (isInstalled : (world node).installed) :
    ((wake node).foldl happen world node).running ∧
      ((wake node).foldl happen world node).rules := by
  simp [wake, happen, Event.node, Event.change, isInstalled]

theorem passes_andThen {first second : Action Bool}
    (runs : Passes flaky target name file installed first)
    (runs' : Passes flaky target name file installed second) :
    Passes flaky target name file installed (andThen first second) := by
  refine runs.bind fun holds => ?_
  cases holds with
  | true => exact runs'
  | false => exact Achieves.pure fun _ => id

theorem Kubeconfig.grep_retarget (file : Kubeconfig) (target : Target) :
    (file.retarget target).grep target := by
  rcases List.any_eq_true.mp file.served with ⟨line, mem, isServer⟩
  refine List.any_eq_true.mpr ⟨substitute target line, List.mem_map_of_mem mem, ?_⟩
  unfold isServerLine at isServer
  cases split : splitServer line with
  | none =>
    rw [split] at isServer
    cases isServer
  | some parts =>
    rw [split] at isServer
    rcases Str.hasSuffix_iff.mp isServer with ⟨lead, heads⟩
    simp only [substitute, split]
    rw [← heads, List.append_assoc]
    exact Str.contains_iff.mpr (List.suffix_append lead (str "server: " ++ target.url)).isInfix

theorem markerText_url (target : Target) : markerText (target.url ++ [10]) = target.url := by
  have visible : ∀ b : UInt8, isPlain b = true → (b == 10) = false :=
    Str.forall_byte (by decide +kernel)
  have kept : ∀ s : Str, (∀ b ∈ s, isPlain b = true) → s.dropWhile (· == 10) = s := by
    intro s plain
    cases s with
    | nil => rfl
    | cons b rest => simp [visible b (plain b List.mem_cons_self)]
  have plain : ∀ b ∈ target.url.reverse, isPlain b :=
    fun b mem => List.all_eq_true.mp target.plain b (List.mem_reverse.mp mem)
  simp [markerText, Str.trimRightByte, kept _ plain]

theorem passes_idle (node : Str) (idle : command.idle) :
    Passes flaky target name file installed (exec node command) := by
  have runs : Achieves (watching flaky) (Stays flaky target name file installed)
      (exec node command) fun _ world => True ∧ Stays flaky target name file installed world :=
    achieves_exec [] (harmless_idle idle) fun _ _ => trivial
  exact runs.weaken (fun _ => id) fun _ _ holds => holds.2

theorem passes_iptables (node : Str) :
    Passes flaky target name file installed (must (exec node .iptables) (.exec node)) :=
  Achieves.must (achieves_exec [] (harmless_idle rfl) fun _ _ => rfl)

theorem passes_healthy (node : Str) : Passes flaky target name file installed (healthy node) := by
  refine (passes_iptables node).bind fun _ => ?_
  refine passes_andThen (passes_idle node rfl) ?_
  exact passes_andThen (passes_idle node rfl)
    (passes_idle node rfl)

abbrev Tells (flaky : Set Str) (target : Target) (name : Str) (file : Kubeconfig)
    (installed : List Str) (action : Action Bool) : Prop :=
  Achieves (watching flaky) (Stays flaky target name file installed) action
    fun found world => found = true ∧ Stays flaky target name file installed world

theorem tells_andThen {first second : Action Bool}
    (tells : Tells flaky target name file installed first)
    (tells' : Tells flaky target name file installed second) :
    Tells flaky target name file installed (andThen first second) := by
  refine tells.bind fun found world holds => ?_
  rw [if_pos holds.1]
  exact tells' world holds.2

theorem achieves_skips (mem : name ∈ installed) :
    Tells flaky target name file installed (skips target name) := by
  have read : Achieves (watching flaky) (Stays flaky target name file installed)
      (exec name .catMarker) fun marker world =>
        markerText marker = target.url ∧ Stays flaky target name file installed world :=
    achieves_exec [] (harmless_idle rfl) fun _ stays => stays.named (stays.sure mem)
  have awake : ∀ before, Stays flaky target name file installed before →
      ((wake name).foldl happen before name).running = true ∧
        ((wake name).foldl happen before name).rules = true :=
    fun before stays => wake_spec (stays.all name mem)
  have runs : Tells flaky target name file installed (exec name .scan) :=
    achieves_exec (wake name) (harmless_idle rfl) fun before stays => (awake before stays).1
  have prerouting : Tells flaky target name file installed (exec name .prerouting) :=
    achieves_exec (wake name) (harmless_idle rfl) fun before stays => (awake before stays).2
  have output : Tells flaky target name file installed (exec name .output) :=
    achieves_exec (wake name) (harmless_idle rfl) fun before stays => (awake before stays).2
  refine read.bind fun marker world holds => ?_
  rw [if_pos holds.1]
  exact (passes_iptables name).bind
    (fun _ => tells_andThen runs (tells_andThen prerouting output)) world holds.2

theorem passes_reply (node : Str) :
    Passes flaky target name file installed (must (exec node .reply) (.exec node)) :=
  Achieves.must (achieves_exec [] (harmless_idle rfl) fun _ _ => rfl)

theorem passes_skipIf {skip : Bool} {action : Action Unit}
    (passes : Passes flaky target name file installed action) :
    Passes flaky target name file installed (skipIf skip action) := by
  cases skip with
  | true => exact Achieves.pure fun _ => id
  | false => exact passes

theorem passes_supervisor (node : Str) :
    Passes flaky target name file installed (edgeProxySupervisorScript node) := by
  have made : Passes flaky target name file installed (must (exec node .mkdir) (.exec node)) :=
    Achieves.must (achieves_exec [] (harmless_idle rfl) fun _ _ => rfl)
  have written : Passes flaky target name file installed
      (must (exec node .writePID) (.exec node)) :=
    Achieves.must (achieves_exec [] (harmless_idle rfl) fun _ _ => rfl)
  have started : Passes flaky target name file installed (startLoop node) :=
    (passes_idle node rfl).bind fun _ => written
  refine made.bind fun _ => ?_
  refine (passes_idle node rfl).bind fun _ => ?_
  exact (passes_skipIf started).bind fun _ => passes_reply node

theorem passes_replace {other : Str} (differ : other ≠ name) :
    Passes flaky target name file installed (replace target other) := by
  have made : Passes flaky target name file installed (must (exec other .mktemp) (.exec other)) :=
    Achieves.must (achieves_exec [] (Or.inl differ) fun _ _ => rfl)
  have edited : Achieves (watching flaky) (Stays flaky target name file installed)
      (exec other (.sed target)) fun tmp world =>
        (∃ file : Kubeconfig, tmp = some (file.retarget target)) ∧
          Stays flaky target name file installed world :=
    achieves_exec [] (Or.inl differ) fun _ _ => ⟨_, rfl⟩
  have changed : Passes flaky target name file installed (must (exec other .chmod) (.exec other)) :=
    Achieves.must (achieves_exec [] (Or.inl differ) fun _ _ => rfl)
  have moved : ∀ new, Passes flaky target name file installed
      (must (exec other (.mv new)) (.exec other)) :=
    fun _ => Achieves.must (achieves_exec [] (Or.inl differ) fun _ _ => rfl)
  refine made.bind fun _ => edited.bind fun tmp => ?_
  rintro world ⟨⟨old, rfl⟩, stays⟩
  have checked : Passes flaky target name file installed
      (check ((old.retarget target).grep target) (.exec other)) := by
    rw [Kubeconfig.grep_retarget]
    exact Achieves.pure fun _ => id
  exact checked.bind (fun _ => changed.bind fun _ => moved _) world stays

theorem passes_stopProxy (node : Str) :
    Passes flaky target name file installed (stopProxy node) := by
  have removed : Passes flaky target name file installed (must (exec node .rm) (.exec node)) :=
    Achieves.must (achieves_exec [] (harmless_idle rfl) fun _ _ => rfl)
  refine (passes_idle node rfl).bind fun _ => ?_
  refine removed.bind fun _ => ?_
  refine (passes_idle node rfl).bind fun _ => ?_
  exact Achieves.pure fun _ => id

theorem passes_healNode (mem : item ∈ installed) :
    Passes flaky target name file installed (healNode target item) := by
  have healed : Passes flaky target name file installed (healK3sEdgeProxyScript target item) := by
    by_cases same : item = name
    · subst same
      refine (achieves_skips mem).bind fun skip world holds => ?_
      rw [holds.1]
      exact passes_reply item world holds.2
    · have skipped : Passes flaky target name file installed (skips target item) := by
        refine (passes_idle item rfl).bind fun marker => ?_
        split
        · exact passes_healthy item
        · exact Achieves.pure fun _ => id
      have replaced : Passes flaky target name file installed
          (do replace target item; stopProxy item) :=
        (passes_replace same).bind fun _ => passes_stopProxy item
      refine skipped.bind fun skip => ?_
      exact (passes_skipIf replaced).bind fun _ => passes_reply item
  exact healed.bind fun _ => passes_supervisor item

theorem passes_rules (mem : item ∈ installed) :
    Passes flaky target name file installed (must (exec item .rules) (.exec item)) :=
  Achieves.must (achieves_exec (wake item) (harmless_idle rfl)
    fun _ stays => (wake_spec (stays.all item mem)).2)

theorem passes_writeMarker (item : Str) :
    Passes flaky target name file installed (writeMarker target item) := by
  have written : Passes flaky target name file installed
      (must (exec item (.printf target)) (.exec item)) := by
    refine Achieves.must (Achieves.ask fun world stays =>
      ⟨smooth [], fair_smooth flaky (.exec item (.printf target)) [] world, rfl, ?_⟩)
    by_cases same : item = name
    · subst same
      refine ⟨?_, ?_, stays.sure, fun other mem => ?_⟩
      · change (Function.update world item _ item).kubeconfig = file
        rw [Function.update_self]
        exact stays.kubeconfig
      · intro _
        change markerText ((Function.update world item _ item).marker.getD []) = target.url
        rw [Function.update_self]
        exact markerText_url target
      · exact (step_installed (.exec item (.printf target)) (smooth []) world other).trans
          (stays.all other mem)
    · exact stays.quiet (quiet_step (Or.inl same) _ world)
        (step_installed (.exec item (.printf target)) (smooth []) world)
  exact written.bind fun _ => Achieves.must
    (achieves_exec [] (harmless_idle rfl) fun _ _ => rfl)

theorem achieves_test (node : Str) :
    Achieves (watching flaky) (Stays flaky target name file installed) (exec node .test)
      fun found world =>
        Stays flaky target name file (if found then node :: installed else installed) world := by
  refine Achieves.ask fun world stays => ?_
  have quiet : ∀ choice, Quiet name world (step (.exec node .test) choice world).1 :=
    fun choice => quiet_step (harmless_idle rfl) choice world
  have same : ∀ choice item, ((step (.exec node .test) choice world).1 item).installed =
      (world item).installed := fun choice => step_installed _ choice world
  by_cases missed : node = name ∧ name ∈ flaky
  · have isFair : Fair flaky (.exec node .test) ⟨[], true, false, none⟩ world :=
      fun reliable => absurd (missed.1 ▸ missed.2) reliable
    exact ⟨⟨[], true, false, none⟩, isFair, stays.quiet (quiet _) (same _)⟩
  · refine ⟨smooth [], fair_smooth flaky (.exec node .test) [] world, ?_⟩
    have stays' := stays.quiet (quiet (smooth [])) (same (smooth []))
    split
    · rename_i isInstalled
      refine ⟨stays'.kubeconfig, stays'.named, fun mem => ?_, fun item mem => ?_⟩
      · rcases List.mem_cons.mp mem with isNode | inRest
        · exact fun isFlaky => missed ⟨isNode.symm, isFlaky⟩
        · exact stays.sure inRest
      · rcases List.mem_cons.mp mem with rfl | inRest
        · exact (same (smooth []) item).trans isInstalled
        · exact stays'.all item inRest
    · exact stays'

theorem achieves_installedNodes (nodes : List Str) :
    Achieves (watching flaky) (Stays flaky target name file installed) (installedNodes nodes)
      fun found world => Stays flaky target name file (found ++ installed) world := by
  induction nodes generalizing installed with
  | nil => exact Achieves.pure fun _ => id
  | cons node nodes ih =>
    refine (achieves_test node).bind fun found => ?_
    refine ih.bind fun rest => Achieves.pure fun world stays => ?_
    cases found with
    | false => exact stays
    | true =>
      refine ⟨stays.kubeconfig, stays.named, fun mem => stays.sure ?_,
        fun item mem => stays.all item ?_⟩
      · exact List.perm_middle.mem_iff.mpr mem
      · exact List.perm_middle.mem_iff.mpr mem

theorem succeeds_heal (nodes : List Str) :
    Succeeds (watching flaky) (Stays flaky target name file []) (healK3sEdgeProxy target nodes)
      fun _ world => (world name).kubeconfig = file := by
  refine (Succeeds.seq (achieves_installedNodes nodes)).bind fun found => ?_
  rw [List.append_nil]
  split
  · exact fun world stays => stays.kubeconfig
  · refine (Succeeds.inParallel fun item mem => passes_healNode mem).bind fun _ => ?_
    refine (Succeeds.inParallel fun item mem => passes_rules mem).bind fun _ => ?_
    exact (Succeeds.inParallel fun item _ => passes_writeMarker item).weaken
      fun _ _ stays => stays.kubeconfig

end Escape

theorem heal_installed (target : Target) (nodes : List Str) (turns : List (ℕ × Choice))
    (world : World) (name : Str) :
    ((heal target nodes turns world).2 name).installed = (world name).installed := by
  have keeps : ∀ op choice (now : World), (now name).installed = (world name).installed →
      ((machine.step op choice now).1 name).installed = (world name).installed :=
    fun op choice now same => (step_installed op choice now name).trans same
  exact Job.run_of_invariant keeps _ turns rfl

/-- Whatever has happened before, a call that returns without an error leaves every installed proxy
with the wanted server, for every schedule and behaviour of the nodes, exactly if this is already the
server of the nodes whose marker names it and of the nodes whose test may fail. -/
theorem servers_healed_iff (flaky : Set Str) (target : Target) {nodes : List Str}
    (nodup : nodes.Nodup) (world : World) :
    (∀ turns, Job.FairTurns machine (Fair flaky) turns ((healK3sEdgeProxy target nodes).run, world) →
      (heal target nodes turns world).1 = .done (.ok ()) → ∀ name ∈ nodes,
        ((heal target nodes turns world).2 name).installed = true →
          ((heal target nodes turns world).2 name).kubeconfig.Serves target.url) ↔
    ∀ name ∈ nodes, (world name).installed = true →
      name ∈ flaky ∨ markerText ((world name).marker.getD []) = target.url →
        (world name).kubeconfig.Serves target.url := by
  constructor
  · intro healed name mem isInstalled escapes
    have named : name ∉ flaky → markerText ((world name).marker.getD []) = target.url :=
      fun reliable => escapes.resolve_left reliable
    have stays : Stays flaky target name (world name).kubeconfig [] world :=
      ⟨rfl, named, fun mem => absurd mem List.not_mem_nil, fun _ mem => absurd mem List.not_mem_nil⟩
    rcases (succeeds_heal nodes).exists_run stays with ⟨_, after, kept, turns, isFair, ends⟩
    have final : heal target nodes turns world = (.done (.ok ()), after) := ends
    have same := heal_installed target nodes turns world name
    have serves := healed turns isFair (by rw [final]) name mem (same.trans isInstalled)
    rw [final, kept] at serves
    exact serves
  · intro truthful turns isFair returned name mem isInstalled
    have before := (heal_installed target nodes turns world name).symm.trans isInstalled
    have seen : Seen flaky target name world :=
      ⟨⟨before, fun named => truthful name mem before (Or.inr named)⟩,
        fun isFlaky => ⟨before, truthful name mem before (Or.inl isFlaky)⟩⟩
    have holds := (Job.wp_run (completes_heal nodup mem world seen) trivial isFair).2
    change Job.wp _ _ (heal target nodes turns world).1 _ at holds
    rw [returned] at holds
    exact holds.2

section Sample

def firstTarget : Target := .ofServer (str "192.168.64.2") (by decide +kernel)

def secondTarget : Target := .ofServer (str "192.168.64.3") (by decide +kernel)

def sampleNode : Str := str "kiac-dev-control-plane"

def booted : World := fun _ =>
  ⟨true, ⟨[str "clusters:", str "    server: https://192.168.64.2:6443"], by decide +kernel⟩, none,
    true, true, true⟩

def steady (count : ℕ) : List (ℕ × Choice) :=
  List.replicate count (0, smooth [.respawn sampleNode, .sync sampleNode])

theorem fairTurns_steady (flaky : Set Str) (count : ℕ)
    (config : Job Op Op.Ans (Except Err Unit) (Except Err Unit) × World) :
    Job.FairTurns machine (Fair flaky) (steady count) config := by
  refine Job.fairTurns_of_mem fun who mem op world => ?_
  rw [(List.mem_replicate.mp mem).2]
  exact fair_smooth flaky op _ world

def afterFirst : World := (heal firstTarget [sampleNode] (steady 24) booted).2

def afterSecond : World := (heal secondTarget [sampleNode] (steady 6) afterFirst).2

set_option maxRecDepth 8000

/-- The marker of a node that has not been healed names no URL. -/
theorem servers_healed_booted :
    (heal secondTarget [sampleNode] (steady 24) booted).1 = .done (.ok ()) ∧
    ((heal secondTarget [sampleNode] (steady 24) booted).2 sampleNode).kubeconfig.Serves
      secondTarget.url := by
  have returned : (heal secondTarget [sampleNode] (steady 24) booted).1 = .done (.ok ()) := rfl
  refine ⟨returned, (servers_healed_iff ∅ secondTarget (List.nodup_singleton _) booted).mpr ?_
    (steady 24) (fairTurns_steady ∅ 24 _) returned sampleNode (List.mem_singleton_self _) ?_⟩
  · rintro name _ _ (isFlaky | named)
    · exact absurd isFlaky (Set.notMem_empty name)
    · exact absurd named.symm secondTarget.nonempty
  · exact heal_installed secondTarget [sampleNode] (steady 24) booted sampleNode

/-- A second call for the first URL returns although the second one is the server. -/
theorem marker_outlives_file :
    (heal firstTarget [sampleNode] (steady 24) booted).1 = .done (.ok ()) ∧
    Job.FairTurns machine (Fair ∅) (steady 24)
      ((healK3sEdgeProxy firstTarget [sampleNode]).run, afterSecond) ∧
    (heal firstTarget [sampleNode] (steady 24) afterSecond).1 = .done (.ok ()) ∧
    ((heal firstTarget [sampleNode] (steady 24) afterSecond).2 sampleNode).installed = true ∧
    ¬((heal firstTarget [sampleNode] (steady 24) afterSecond).2 sampleNode).kubeconfig.Serves
      firstTarget.url := by
  exact ⟨rfl, fairTurns_steady ∅ 24 _, rfl, by decide +kernel, by decide +kernel⟩

end Sample

end Kiac.Cluster.ProxyServer
