import Kiac.Cluster.Credentials
import Mathlib.Data.Set.Function

/-!
# Healed proxies have the wanted credentials

One node is watched while all of the nodes are healed. The other threads, and the events, leave its
files alone; a proxy that starts meanwhile is newer than the kubeconfig. Its own thread makes the
marker before it replaces the kubeconfig, so without a marker the running proxy is newer than the
kubeconfig.
-/

namespace Kiac.Cluster.Credentials

open Step

def Node.Fresh (node : Node) : Prop := ∀ started, node.proxy = some started → node.changed < started

structure Sound (known : Set Str) (name : Str) (world : World) : Prop where
  known : (world.nodes name).installed = true → (world.nodes name).kubeconfig ∈ known
  changed : (world.nodes name).installed = true → (world.nodes name).changed ≤ world.clock
  fresh : (world.nodes name).installed = true → (world.nodes name).restartRequired = false →
    (world.nodes name).Fresh

structure Quiet (name : Str) (world after : World) : Prop where
  clock : world.clock ≤ after.clock
  node : ∃ proxy, after.nodes name = { world.nodes name with proxy := proxy } ∧
    ∀ started, proxy = some started → (world.nodes name).proxy = some started ∨
      world.clock < started

theorem preserved_quiet (name : Str) : Preserved (Quiet name) := by
  constructor
  · intro world
    exact ⟨le_rfl, _, rfl, fun _ isProxy => Or.inl isProxy⟩
  · rintro first second third ⟨clock, proxy, same, starts⟩ ⟨clock', proxy', same', starts'⟩
    refine ⟨clock.trans clock', proxy', ?_, ?_⟩
    · rw [same', same]
    · intro started isProxy
      rcases starts' started isProxy with earlier | later
      · rw [same] at earlier
        exact starts started earlier
      · exact Or.inr (lt_of_le_of_lt clock later)

theorem quiet_tick (name : Str) (world : World) : Quiet name world world.tick :=
  ⟨Nat.le_succ _, _, rfl, fun _ isProxy => Or.inl isProxy⟩

theorem quiet_set {name other : Str} (differ : other ≠ name) (world : World) (node : Node) :
    Quiet name world (world.set other node) := by
  refine ⟨le_rfl, (world.nodes name).proxy, ?_, fun _ isProxy => Or.inl isProxy⟩
  simp [World.set, Function.update_of_ne differ.symm]

theorem quiet_happen (name : Str) (world : World) (event : Event) :
    Quiet name world (world.happen event) := by
  by_cases same : event.node = name
  · subst same
    refine ⟨Nat.le_succ _, event.proxy (world.clock + 1) (world.nodes event.node), ?_, ?_⟩
    · simp [World.happen, World.set, World.tick]
    · intro started isProxy
      have later : (world.nodes event.node).proxy = some started ∨ started = world.clock + 1 := by
        cases event with
        | crash node => cases isProxy
        | restart node =>
          simp only [Event.proxy] at isProxy
          split at isProxy
          · exact Or.inr (Option.some.inj isProxy).symm
          · exact Or.inl isProxy
        | reboot node =>
          simp only [Event.proxy] at isProxy
          split at isProxy
          · exact Or.inr (Option.some.inj isProxy).symm
          · cases isProxy
      rcases later with earlier | rfl
      · exact Or.inl earlier
      · exact Or.inr (Nat.lt_succ_self _)
  · exact (preserved_quiet name).trans (quiet_tick name world) (quiet_set same _ _)

theorem quiet_events (name : Str) (world : World) (events : List Event) :
    Quiet name world (events.foldl World.happen world) := by
  induction events generalizing world with
  | nil => exact (preserved_quiet name).refl world
  | cons event events ih =>
    exact (preserved_quiet name).trans (quiet_happen name world event) (ih _)

variable {sha : Sha256} {known : Set Str} {name kubeconfig : Str} {world : World}

def before (choice : Choice) (world : World) : World :=
  (choice.events.foldl World.happen world).tick

theorem quiet_before (name : Str) (choice : Choice) (world : World) :
    Quiet name world (before choice world) :=
  (preserved_quiet name).trans (quiet_events name world _) (quiet_tick name _)

theorem Sound.changed_lt (sound : Sound known name world) (choice : Choice)
    (isInstalled : ((before choice world).nodes name).installed) :
    ((before choice world).nodes name).changed < (before choice world).clock := by
  have quiet := quiet_events name world choice.events
  have clock := quiet.clock
  rcases quiet.node with ⟨proxy, same, _⟩
  change ((choice.events.foldl World.happen world).nodes name).installed = true at isInstalled
  change ((choice.events.foldl World.happen world).nodes name).changed <
    (choice.events.foldl World.happen world).clock + 1
  rw [same] at isInstalled ⊢
  have changed := sound.changed isInstalled
  simp only
  omega

theorem Sound.quiet {after : World} (sound : Sound known name world)
    (quiet : Quiet name world after) : Sound known name after := by
  rcases quiet with ⟨clock, proxy, same, starts⟩
  constructor
  · rw [same]
    exact sound.known
  · rw [same]
    exact fun isInstalled => (sound.changed isInstalled).trans clock
  · rw [same]
    intro isInstalled unmarked started isProxy
    rcases starts started isProxy with earlier | later
    · exact sound.fresh isInstalled unmarked started earlier
    · exact lt_of_le_of_lt (sound.changed isInstalled) later

def Op.Harmless (name : Str) : Op → Prop
  | .exec node command => node ≠ name ∨ ∀ clock state, command.effect clock state = state
  | .edgeProxyKubeconfig => True

theorem apply_unchanged {command : Command} {node : Str}
    (unchanged : ∀ clock state, command.effect clock state = state) (choice : Choice)
    (world : World) : world.apply choice (.exec node command) = world := by
  simp [World.apply, World.set, unchanged]

theorem quiet_step {op : Op} (harmless : op.Harmless name) (choice : Choice) (world : World) :
    Quiet name world (step sha op choice world).1 := by
  refine (preserved_quiet name).trans (quiet_before name choice world) ?_
  change Quiet name _ ((before choice world).apply choice op)
  cases op with
  | edgeProxyKubeconfig => exact (preserved_quiet name).refl _
  | exec node command =>
    rcases harmless with differ | unchanged
    · simp only [World.apply]
      split
      · exact quiet_set differ _ _
      · exact (preserved_quiet name).refl _
    · rw [apply_unchanged unchanged]
      exact (preserved_quiet name).refl _

theorem sound_step {op : Op} (harmless : op.Harmless name) (sound : Sound known name world)
    (choice : Choice) : Quiet name world (step sha op choice world).1 ∧
      Sound known name (step sha op choice world).1 :=
  ⟨quiet_step harmless choice world, sound.quiet (quiet_step harmless choice world)⟩

def watching (sha : Sha256) (known : Set Str) (name : Str) : Scene Op Op.Ans World Choice :=
  ⟨machine sha, fun _ _ _ => True, Sound known name⟩

structure Current (name kubeconfig : Str) (world : World) : Prop where
  installed : (world.nodes name).installed = true
  kubeconfig : (world.nodes name).kubeconfig = kubeconfig
  changed : (world.nodes name).changed ≤ world.clock

structure Marked (name kubeconfig : Str) (world : World) : Prop
    extends Current name kubeconfig world where
  marked : (world.nodes name).restartRequired = true

structure Renewed (name kubeconfig : Str) (world : World) : Prop
    extends Current name kubeconfig world where
  fresh : (world.nodes name).Fresh

theorem stable_current : StableUnder (Quiet name) (Current name kubeconfig) := by
  rintro world after ⟨clock, proxy, same, _⟩ current
  constructor
  · rw [same]
    exact current.installed
  · rw [same]
    exact current.kubeconfig
  · rw [same]
    exact current.changed.trans clock

theorem stable_marked : StableUnder (Quiet name) (Marked name kubeconfig) := by
  intro world after quiet marked
  refine ⟨stable_current world after quiet marked.toCurrent, ?_⟩
  rcases quiet with ⟨_, proxy, same, _⟩
  rw [same]
  exact marked.marked

theorem stable_renewed : StableUnder (Quiet name) (Renewed name kubeconfig) := by
  intro world after quiet renewed
  refine ⟨stable_current world after quiet renewed.toCurrent, ?_⟩
  rcases quiet with ⟨_, proxy, same, starts⟩
  rw [same]
  intro started isProxy
  rcases starts started isProxy with earlier | later
  · exact renewed.fresh started earlier
  · exact lt_of_le_of_lt renewed.changed later

/-- What the thread of the watched node does, while the others leave the node alone. -/
abbrev Own {α : Type} (sha : Sha256) (known : Set Str) (name : Str) (pre : World → Prop)
    (action : Action α) (ok : α → World → Prop) : Prop :=
  Attempts (watching sha known name) (Quiet name) (fun _ _ => True) pre action ok

section Thread

variable {α : Type} {post : α → Prop} {pre : World → Prop} {action : Action α}

theorem attempts_harmless {rely guar : World → World → Prop}
    (acts : Acts (Op.Harmless name) post action) (stable : StableUnder (Quiet name) pre)
    (stable' : StableUnder rely pre)
    (guarantee : ∀ world after, Quiet name world after → guar world after) :
    Attempts (watching sha known name) rely guar pre action
      fun value world => pre world ∧ post value := by
  refine Attempts.quiet acts stable' fun op world choice harmless holds sound _ => ?_
  have quiet : Quiet name world (step sha op choice world).1 := quiet_step harmless choice world
  exact ⟨guarantee _ _ quiet, sound.quiet quiet, stable _ _ quiet holds⟩

theorem own_harmless (acts : Acts (Op.Harmless name) post action)
    (stable : StableUnder (Quiet name) pre) :
    Own sha known name pre action fun value world => pre world ∧ post value :=
  attempts_harmless acts stable stable fun _ _ _ => trivial

variable {ok : World → Prop}

theorem own_effect {command : Command}
    {reported : Op.Ans (.exec name command) → Prop} (stable : StableUnder (Quiet name) pre)
    (stableAfter : StableUnder (Quiet name) ok)
    (idle : ∀ choice world, choice.acts = false →
      ¬reported (answer sha choice world (.exec name command)))
    (effect : ∀ world, pre world → Sound known name world →
      ((world.nodes name).installed → (world.nodes name).changed < world.clock) →
      Sound known name (world.set name (command.effect world.clock (world.nodes name))) ∧
        ok (world.set name (command.effect world.clock (world.nodes name)))) :
    Own sha known name pre (exec name command) fun value world => reported value → ok world := by
  refine Attempts.ask stable ?_ ?_
  · exact fun _ _ _ quiet holds isReported => stableAfter _ _ quiet (holds isReported)
  · intro world choice holds sound _
    have quiet := quiet_before name choice world
    have sound' := sound.quiet quiet
    have holds' := stable _ _ quiet holds
    refine ⟨trivial, ?_⟩
    change Sound known name ((before choice world).apply choice (.exec name command)) ∧
      (reported (answer sha choice (before choice world) (.exec name command)) →
        ok ((before choice world).apply choice (.exec name command)))
    cases acts : choice.acts with
    | true =>
      simp only [World.apply, acts, if_true]
      have after := effect _ holds' sound' (sound.changed_lt choice)
      exact ⟨after.1, fun _ => after.2⟩
    | false =>
      simp only [World.apply, acts]
      exact ⟨sound', fun isReported => absurd isReported (idle choice _ acts)⟩

theorem own_touch :
    Own sha known name (Current name kubeconfig) (exec name .touch)
      fun reported world => reported → Marked name kubeconfig world := by
  refine own_effect stable_current stable_marked ?_ ?_
  · intro choice world acts
    simp [answer, acts]
  · intro world current sound _
    refine ⟨⟨?_, ?_, ?_⟩, ⟨?_, ?_, ?_⟩, ?_⟩ <;>
      simp only [World.set, Function.update_self, Command.effect]
    · exact sound.known
    · exact sound.changed
    · exact fun _ unmarked => Bool.noConfusion unmarked
    · exact current.installed
    · exact current.kubeconfig
    · exact current.changed

variable {file : Str}

theorem own_mv (isKnown : kubeconfig ∈ known) :
    Own sha known name (Marked name file) (exec name (.mv kubeconfig))
      fun reported world => reported → Marked name kubeconfig world := by
  refine own_effect stable_marked stable_marked ?_ ?_
  · intro choice world acts
    simp [answer, acts]
  · intro world marked sound _
    refine ⟨⟨?_, ?_, ?_⟩, ⟨?_, ?_, ?_⟩, ?_⟩ <;>
      simp only [World.set, Function.update_self, Command.effect]
    · exact fun _ => isKnown
    · exact fun _ => le_rfl
    · exact fun _ unmarked => absurd unmarked (by rw [marked.marked]; simp)
    · exact marked.installed
    · exact le_rfl
    · exact marked.marked

theorem own_restart :
    Own sha known name (Current name kubeconfig) (exec name .restart)
      fun reported world => reported → Renewed name kubeconfig world := by
  refine own_effect stable_current stable_renewed ?_ ?_
  · intro choice world acts
    simp [answer, acts]
  · intro world current sound earlier
    refine ⟨⟨?_, ?_, ?_⟩, ⟨?_, ?_, ?_⟩, ?_⟩ <;>
      simp [World.set, Command.effect]
    · exact sound.known
    · exact sound.changed
    · intro isInstalled _ started isProxy
      obtain rfl := Option.some.inj isProxy
      exact earlier isInstalled
    · exact current.installed
    · exact current.kubeconfig
    · exact current.changed
    · intro started isProxy
      obtain rfl := Option.some.inj isProxy
      exact earlier current.installed

theorem own_unlink :
    Own sha known name (Renewed name kubeconfig) (exec name .unlink)
      fun reported world => reported → Renewed name kubeconfig world := by
  refine own_effect stable_renewed stable_renewed ?_ ?_
  · intro choice world acts
    simp [answer, acts]
  · intro world renewed sound _
    refine ⟨⟨?_, ?_, ?_⟩, ⟨?_, ?_, ?_⟩, ?_⟩ <;>
      simp only [World.set, Function.update_self, Command.effect]
    · exact sound.known
    · exact sound.changed
    · exact fun _ _ => renewed.fresh
    · exact renewed.installed
    · exact renewed.kubeconfig
    · exact renewed.changed
    · exact renewed.fresh

theorem own_replace (isKnown : kubeconfig ∈ known) :
    Own sha known name (Current name file) (replace name kubeconfig)
      fun _ => Current name kubeconfig := by
  have harmless : ∀ {α : Type} {post : α → Prop} {action : Action α},
      Acts (Op.Harmless name) post action →
      Own sha known name (Current name file) action fun _ => Current name file :=
    fun acts => Attempts.weaken (own_harmless acts stable_current) (fun _ => id)
      fun _ _ holds => holds.1
  refine Attempts.bind (preserved_quiet name)
    (harmless (acts_must (acts_ask (Or.inr fun _ _ => rfl)))) fun _ => ?_
  refine Attempts.bind (preserved_quiet name)
    (harmless (acts_must (acts_ask (Or.inr fun _ _ => rfl)))) fun _ => ?_
  refine Attempts.bind (preserved_quiet name)
    (harmless (acts_must (acts_ask (Or.inr fun _ _ => rfl)))) fun _ => ?_
  refine Attempts.bind (preserved_quiet name) (Attempts.must (preserved_quiet name) stable_marked own_touch) fun _ => ?_
  exact Attempts.weaken (Attempts.must (preserved_quiet name) stable_marked (own_mv isKnown)) (fun _ => id)
    fun _ _ marked => marked.toCurrent

theorem own_restartScript :
    Own sha known name (Current name kubeconfig) (restart name)
      fun _ => Renewed name kubeconfig :=
  Attempts.bind (preserved_quiet name) (Attempts.must (preserved_quiet name) stable_renewed own_restart)
    fun _ => Attempts.must (preserved_quiet name) stable_renewed own_unlink

def stateText (sha : Sha256) (file : Str) (healthy : Bool) : Str :=
  Str.encodeHex (sha.sum file) ++ byte '\n' ::
    (if healthy then str "healthy\n" else str "restart\n")

theorem isGraphic_encodeHex (bytes : List UInt8) :
    ∀ b ∈ Str.encodeHex bytes, Str.isGraphic b := by
  intro b mem
  rcases Str.hexByte_of_mem_encodeHex mem with ⟨d, small, rfl⟩
  interval_cases d <;> decide

theorem parseState_stateText (file : Str) (healthy : Bool) :
    parseState name (stateText sha file healthy) =
      .ok (Str.encodeHex (sha.sum file), healthy) := by
  have length : (Str.encodeHex (sha.sum file)).length = 64 := by
    rw [Str.length_encodeHex, sha.length_sum]
  have hex : (Str.encodeHex (sha.sum file)).all Str.isHex := by
    rw [List.all_eq_true]
    intro b mem
    rcases Str.hexByte_of_mem_encodeHex mem with ⟨d, small, rfl⟩
    exact Str.isHex_hexByte small
  have nonempty : Str.encodeHex (sha.sum file) ≠ [] := by
    rw [← List.length_pos_iff, length]
    omega
  have words : ∀ healthy : Bool, Str.fields (if healthy then str "healthy\n" else str "restart\n") =
      [if healthy then str "healthy" else str "restart"] := by decide
  rw [parseState, stateText, Str.fields_append (isGraphic_encodeHex _) nonempty (Or.inr rfl), words]
  simp only [length, hex, and_self, if_true]
  cases healthy with
  | true => rfl
  | false => rfl

theorem equalFold_encodeHex {left right : List UInt8} :
    Str.equalFold (Str.encodeHex left) (Str.encodeHex right) ↔ left = right := by
  have lower : ∀ bytes, Str.toLower (Str.encodeHex bytes) = Str.encodeHex bytes := by
    intro bytes
    have each : ∀ b ∈ Str.encodeHex bytes, Str.lowerByte b = b := by
      intro b mem
      rcases Str.hexByte_of_mem_encodeHex mem with ⟨d, small, rfl⟩
      exact Str.lowerByte_hexByte small
    rw [Str.toLower, List.map_congr_left each, List.map_id']
  rw [Str.equalFold, lower, lower, beq_iff_eq, Str.encodeHex_injective.eq_iff]

def Checked (name file : Str) (healthy : Bool) (world : World) : Prop :=
  Current name file world ∧ (healthy = true → Renewed name file world)

theorem stable_checked {healthy : Bool} :
    StableUnder (Quiet name) (Checked name file healthy) :=
  fun _ _ quiet checked => ⟨stable_current _ _ quiet checked.1,
    fun isHealthy => stable_renewed _ _ quiet (checked.2 isHealthy)⟩

theorem own_noMarker :
    Own sha known name (Current name file) (exec name .noMarker)
      fun unmarked => Checked name file unmarked := by
  refine Attempts.ask stable_current (fun _ => stable_checked) fun world choice current sound _ => ?_
  have same : (step sha (.exec name .noMarker) choice world).1 = before choice world :=
    apply_unchanged (fun _ _ => rfl) choice _
  have quiet := quiet_before name choice world
  have current' := stable_current _ _ quiet current
  have sound' := sound.quiet quiet
  rw [← same] at current' sound'
  refine ⟨trivial, sound', current', fun unmarked => ⟨current', ?_⟩⟩
  refine sound'.fresh current'.installed ?_
  rw [same]
  exact Bool.not_eq_true' _ ▸ unmarked

theorem own_sha256sum :
    Own sha known name (Current name file) (exec name .sha256sum)
      fun printed world => Current name file world ∧
        ∀ text, printed = some text →
          text.takeWhile (· != byte ' ') = Str.encodeHex (sha.sum file) := by
  refine Attempts.ask stable_current (fun _ _ _ quiet holds =>
    ⟨stable_current _ _ quiet holds.1, holds.2⟩) fun world choice current sound _ => ?_
  have same : (step sha (.exec name .sha256sum) choice world).1 = before choice world :=
    apply_unchanged (fun _ _ => rfl) choice _
  have quiet := quiet_before name choice world
  have current' := stable_current _ _ quiet current
  refine ⟨trivial, same ▸ sound.quiet quiet, same ▸ current', ?_⟩
  intro text printed
  change answer sha choice (before choice world) (.exec name .sha256sum) = some text at printed
  simp only [answer] at printed
  split at printed
  · obtain rfl := Option.some.inj printed
    have noBlank : ∀ b ∈ Str.encodeHex (sha.sum file), (b != byte ' ') := by
      intro b mem
      have graphic := isGraphic_encodeHex _ b mem
      simp only [bne_iff_ne, ne_eq]
      rintro rfl
      exact absurd graphic (by decide)
    rw [current'.kubeconfig, List.takeWhile_append_of_pos noBlank]
    exact List.append_nil _
  · cases printed

theorem own_healthy :
    Own sha known name (Current name file)
      (andThen (exec name .noMarker) (andThen (exec name .isActive)
        (andThen (exec name .prerouting) (exec name .output))))
      fun healthy => Checked name file healthy := by
  refine Attempts.bind (preserved_quiet name) own_noMarker fun unmarked => ?_
  cases unmarked with
  | false => exact Attempts.pure stable_checked fun _ => id
  | true =>
    have acts : Does (Op.Harmless name) (andThen (exec name .isActive)
        (andThen (exec name .prerouting) (exec name .output))) := by
      refine acts_andThen (acts_ask (Or.inr fun _ _ => rfl)) ?_
      exact acts_andThen (acts_ask (Or.inr fun _ _ => rfl)) (acts_ask (Or.inr fun _ _ => rfl))
    exact Attempts.weaken (own_harmless acts stable_checked) (fun _ => id)
      fun _ _ holds => ⟨holds.1.1, fun _ => holds.1.2 rfl⟩

theorem own_nodeState :
    Own sha known name (Current name file) (nodeState name)
      fun out world => ∃ healthy, Checked name file healthy world ∧
        out = stateText sha file healthy := by
  refine Attempts.bind (preserved_quiet name)
    (own_harmless (acts_must (acts_ask (Or.inr fun _ _ => rfl))) stable_current) fun _ =>
    Attempts.assume fun _ => ?_
  refine Attempts.bind (preserved_quiet name) own_sha256sum fun printed =>
    Attempts.assume fun isDigest => ?_
  refine Attempts.bind (preserved_quiet name) (own_harmless (acts_given printed) stable_current)
    fun digest => Attempts.assume fun isPrinted => ?_
  refine Attempts.bind (preserved_quiet name) own_healthy fun healthy => ?_
  refine Attempts.bind (preserved_quiet name)
    (own_harmless (acts_must (acts_ask (Or.inr fun _ _ => rfl))) stable_checked) fun _ =>
    Attempts.assume fun _ => ?_
  refine Attempts.pure stable_checked fun world checked => ⟨healthy, checked, ?_⟩
  rw [isDigest digest isPrinted]
  rfl

def Installed (known : Set Str) (name : Str) (world : World) : Prop :=
  ∃ file ∈ known, Current name file world

theorem stable_installed : StableUnder (Quiet name) (Installed known name) := by
  rintro world after quiet ⟨file, isKnown, current⟩
  exact ⟨file, isKnown, stable_current _ _ quiet current⟩

theorem own_healNode (distinct : Set.InjOn sha.sum known) (isKnown : kubeconfig ∈ known) :
    Own sha known name (Installed known name) (healNode sha kubeconfig name)
      fun _ => Renewed name kubeconfig := by
  rintro world ⟨file, fileKnown, current⟩
  refine Attempts.bind (preserved_quiet name) own_nodeState (fun out => ?_) world current
  rintro world ⟨healthy, checked, rfl⟩
  refine Attempts.bind (preserved_quiet name) (own_harmless (acts_settle _) stable_checked)
    (fun state => Attempts.assume fun parsed => ?_) world checked
  rw [parseState_stateText] at parsed
  obtain rfl := Except.ok.inj parsed
  have unchanged : Str.equalFold (Str.encodeHex (sha.sum file))
      (Str.encodeHex (sha.sum kubeconfig)) = true → file = kubeconfig :=
    fun same => distinct fileKnown isKnown (equalFold_encodeHex.mp same)
  cases same : Str.equalFold (Str.encodeHex (sha.sum file))
      (Str.encodeHex (sha.sum kubeconfig)) with
  | false =>
    have replaced : Own sha known name (Checked name file healthy) (replace name kubeconfig)
        fun _ => Current name kubeconfig :=
      Attempts.weaken (own_replace isKnown) (fun _ checked => checked.1) fun _ _ => id
    exact Attempts.bind (preserved_quiet name) replaced fun _ => own_restartScript
  | true =>
    obtain rfl := unchanged same
    cases healthy with
    | true => exact Attempts.pure stable_checked fun _ checked => checked.2 rfl
    | false =>
      exact Attempts.weaken own_restartScript (fun _ checked => checked.1) fun _ _ => id

end Thread

section Call

theorem acts_healNode {other : Str} (differ : other ≠ name) :
    Does (Op.Harmless name) (healNode sha kubeconfig other) := by
  have ask : ∀ command, Does (Op.Harmless name) (exec other command) :=
    fun _ => acts_ask (Or.inl differ)
  have looked : Does (Op.Harmless name) (nodeState other) := by
    refine (acts_must (ask .iptables)).bind fun _ _ => (ask .sha256sum).bind fun _ _ => ?_
    refine (acts_given _).bind fun _ _ => ?_
    refine (acts_andThen (ask .noMarker) (acts_andThen (ask .isActive)
      (acts_andThen (ask .prerouting) (ask .output)))).bind fun _ _ => ?_
    exact (acts_must (ask .reply)).bind fun _ _ => Acts.pure trivial
  have replaced : ∀ changed, Does (Op.Harmless name)
      (replaceIf changed other kubeconfig) := by
    intro changed
    cases changed with
    | false => exact Acts.pure trivial
    | true =>
      refine (acts_must (ask .mktemp)).bind fun _ _ => ?_
      refine (acts_must (ask .cat)).bind fun _ _ => ?_
      refine (acts_must (ask .chmod)).bind fun _ _ => ?_
      exact (acts_must (ask .touch)).bind fun _ _ => acts_must (ask (.mv kubeconfig))
  refine looked.bind fun out _ => (acts_settle _).bind fun state _ => ?_
  simp only
  split
  · exact Acts.pure trivial
  · refine (replaced _).bind fun _ _ => ?_
    exact (acts_must (ask .restart)).bind fun _ _ => acts_must (ask .unlink)

def Seen (known : Set Str) (name : Str) (flag : Bool) (world : World) : Prop :=
  (world.nodes name).installed = flag ∧ (flag = true → Installed known name world)

variable {flag : Bool} {installed : List Str}

theorem stable_seen : StableUnder (Quiet name) (Seen known name flag) := by
  rintro world after quiet ⟨isFlag, isInstalled⟩
  refine ⟨?_, fun isTrue => stable_installed _ _ quiet (isInstalled isTrue)⟩
  rcases quiet.node with ⟨_, same, _⟩
  rw [same]
  exact isFlag

theorem attempts_installation (node : Str) :
    Attempts (watching sha known name) Eq (Quiet name) (Seen known name flag)
      (exec node .installation) fun printed world => Seen known name flag world ∧
        (node = name → ∀ out, printed = some out → parseInstallation node out = .ok flag) := by
  refine Attempts.ask stableUnder_eq (fun _ => stableUnder_eq) fun world choice seen sound _ => ?_
  have same : (step sha (.exec node .installation) choice world).1 = before choice world :=
    apply_unchanged (fun _ _ => rfl) choice _
  have quiet := quiet_before name choice world
  have seen' := stable_seen _ _ quiet seen
  refine ⟨same ▸ quiet, same ▸ sound.quiet quiet, same ▸ seen', ?_⟩
  rintro rfl out printed
  change answer sha choice (before choice world) (.exec node .installation) = some out at printed
  simp only [answer] at printed
  split at printed
  · obtain rfl := Option.some.inj printed
    rw [seen'.1]
    cases flag with
    | true => rfl
    | false => rfl
  · cases printed

theorem attempts_installedNodes (nodes : List Str) :
    Attempts (watching sha known name) Eq (Quiet name) (Seen known name flag)
      (installedNodes nodes) fun installed world => Seen known name flag world ∧
        installed.Sublist nodes ∧ (name ∈ installed → flag) ∧
          (name ∈ nodes → flag → name ∈ installed) := by
  have harmless : ∀ {α : Type} {post : α → Prop} {action : Action α},
      Acts (Op.Harmless name) post action →
      Attempts (watching sha known name) Eq (Quiet name) (Seen known name flag) action
        fun value world => Seen known name flag world ∧ post value :=
    fun acts => attempts_harmless acts stable_seen stableUnder_eq fun _ _ => id
  induction nodes with
  | nil => exact Attempts.pure stableUnder_eq fun _ seen => ⟨seen, .slnil, by simp, by simp⟩
  | cons node nodes ih =>
    refine Attempts.bind preserved_eq (attempts_installation node) fun printed =>
      Attempts.assume fun isFlag => ?_
    refine Attempts.bind preserved_eq (harmless (acts_given printed)) fun out =>
      Attempts.assume fun isOut => ?_
    refine Attempts.bind preserved_eq (harmless (acts_settle _)) fun installed =>
      Attempts.assume fun parsed => ?_
    refine Attempts.bind preserved_eq ih fun rest => Attempts.assume fun found => ?_
    rcases found with ⟨sublist, only, all⟩
    have isInstalled : node = name → installed = flag := fun same =>
      Except.ok.inj (parsed.symm.trans (isFlag same out isOut))
    refine Attempts.pure stableUnder_eq fun world seen => ⟨seen, ?_⟩
    cases installed with
    | true =>
      refine ⟨sublist.cons_cons node, ?_, ?_⟩
      · intro mem
        rcases List.mem_cons.mp mem with same | inRest
        · exact (isInstalled same.symm).symm
        · exact only inRest
      · intro mem isTrue
        rcases List.mem_cons.mp mem with same | inNodes
        · exact List.mem_cons.mpr (Or.inl same)
        · exact List.mem_cons_of_mem node (all inNodes isTrue)
    | false =>
      refine ⟨sublist.cons node, only, ?_⟩
      intro mem isTrue
      rcases List.mem_cons.mp mem with same | inNodes
      · have absent := isInstalled same.symm
        rw [isTrue] at absent
        cases absent
      · exact all inNodes isTrue

theorem completes_healNodes (distinct : Set.InjOn sha.sum known) (isKnown : kubeconfig ∈ known)
    (nodup : installed.Nodup)
    (only : name ∈ installed → flag) :
    Completes (watching sha known name) (Seen known name flag)
      (Job.inParallel (healNode sha kubeconfig) installed)
      fun _ world => name ∈ installed → Renewed name kubeconfig world := by
  refine Completes.watched nodup (preserved_quiet name) (fun mem => ?_)
    (fun item => acts_healNode) fun _ _ choice harmless sound _ => sound_step harmless sound choice
  exact Attempts.weaken (own_healNode distinct isKnown) (fun _ seen => seen.2 (only mem))
    fun _ _ => id

theorem completes_wait {pre : World → Prop} (stable : StableUnder (Quiet name) pre)
    (nodup : installed.Nodup) :
    Completes (watching sha known name) pre (waitEdgeProxyRules installed)
      fun _ world => installed ≠ [] → pre world := by
  have each : ∀ item ∈ installed, Does (Op.Harmless name)
      (must (exec item .rules) (.exec item)) :=
    fun _ _ => acts_must (acts_ask (Or.inr fun _ _ => rfl))
  exact Completes.uniform nodup (preserved_quiet name) stable each
    fun _ _ choice harmless sound _ => sound_step harmless sound choice

theorem completes_healInstalled (distinct : Set.InjOn sha.sum known) (isKnown : kubeconfig ∈ known)
    (nodup : installed.Nodup)
    (only : name ∈ installed → flag) :
    Completes (watching sha known name) (Seen known name flag)
      (healInstalled sha kubeconfig installed)
      fun _ world => name ∈ installed → Renewed name kubeconfig world := by
  have asked : Does (Op.Harmless name)
      (Step.ask Op.edgeProxyKubeconfig : Action (Op.Ans .edgeProxyKubeconfig)) :=
    acts_ask trivial
  have acts : Does (Op.Harmless name)
      (must (Step.ask Op.edgeProxyKubeconfig) Err.kubeconfig : Action Unit) := acts_must asked
  have made : Completes (watching sha known name) (Seen known name flag)
      (Job.seq (must (Step.ask Op.edgeProxyKubeconfig) Err.kubeconfig))
      fun _ world => Seen known name flag world ∧ True :=
    Completes.seq (attempts_harmless acts stable_seen stableUnder_eq fun _ _ => id)
  have stable : StableUnder (Quiet name) fun world =>
      name ∈ installed → Renewed name kubeconfig world :=
    fun _ _ quiet renewed mem => stable_renewed _ _ quiet (renewed mem)
  refine (made.weaken (fun _ => id) fun _ _ seen => seen.1).bind
    fun _ => ?_
  refine (completes_healNodes distinct isKnown nodup only).bind fun _ => ?_
  exact (completes_wait stable nodup).weaken (fun _ => id)
    fun _ _ renewed mem => renewed (List.ne_nil_of_mem mem) mem

variable {nodes : List Str}

theorem completes_heal (distinct : Set.InjOn sha.sum known) (isKnown : kubeconfig ∈ known)
    (nodup : nodes.Nodup) :
    Completes (watching sha known name) (Seen known name flag)
      (healEdgeProxySystemd sha kubeconfig nodes)
      fun _ world => name ∈ nodes → flag → Renewed name kubeconfig world := by
  refine (Completes.seq (attempts_installedNodes nodes)).bind fun installed => ?_
  rintro world ⟨seen, sublist, only, all⟩
  cases installed with
  | nil => exact fun mem isTrue => absurd (all mem isTrue) List.not_mem_nil
  | cons node rest =>
    have healed := completes_healInstalled distinct isKnown (nodup.sublist sublist) only
    exact healed.weaken (fun _ => id)
      (fun _ _ renewed mem isTrue => renewed (all mem isTrue)) world seen

theorem seen_of_sound (sound : Sound known name world) :
    Seen known name (world.nodes name).installed world :=
  ⟨rfl, fun isInstalled => ⟨_, sound.known isInstalled, isInstalled, rfl, sound.changed isInstalled⟩⟩

theorem heal_spec (distinct : Set.InjOn sha.sum known) (isKnown : kubeconfig ∈ known)
    (nodup : nodes.Nodup) (sound : Sound known name world)
    (turns : List (ℕ × Choice)) :
    Sound known name (heal sha kubeconfig nodes turns world).2 ∧
      ((heal sha kubeconfig nodes turns world).1 = .done (.ok ()) → name ∈ nodes →
        (world.nodes name).installed →
          Renewed name kubeconfig (heal sha kubeconfig nodes turns world).2) := by
  have completes := completes_heal distinct isKnown nodup world (seen_of_sound sound)
  have fair : Job.FairTurns (machine sha) (fun _ _ _ => True) turns
      ((healEdgeProxySystemd sha kubeconfig nodes).run, world) :=
    Job.fairTurns_of_mem fun _ _ _ _ => trivial
  rcases Job.wp_run completes sound fair with ⟨kept, holds⟩
  refine ⟨kept, fun returned => ?_⟩
  change Job.wp _ _ (heal sha kubeconfig nodes turns world).1 _ at holds
  rw [returned] at holds
  exact holds

end Call

theorem sound_of_visited (distinct : Set.InjOn sha.sum known) (visited : Visited sha known world)
    (name : Str) : Sound known name world := by
  induction visited with
  | initial initial =>
    exact ⟨fun isInstalled => (initial name isInstalled).1,
      fun isInstalled => (initial name isInstalled).2.1,
      fun isInstalled _ => (initial name isInstalled).2.2⟩
  | event event _ sound => exact sound.quiet (quiet_happen name _ event)
  | call turns _ isKnown nodup sound => exact (heal_spec distinct isKnown nodup sound turns).1

theorem step_unchanged (op : Op) (choice : Choice) (world : World) (name : Str) :
    ((step sha op choice world).1.nodes name).token = (world.nodes name).token ∧
      ((step sha op choice world).1.nodes name).installed = (world.nodes name).installed := by
  have unchanged : ((before choice world).nodes name).token = (world.nodes name).token ∧
      ((before choice world).nodes name).installed = (world.nodes name).installed := by
    rcases (quiet_before name choice world).node with ⟨proxy, same, _⟩
    rw [same]
    exact ⟨rfl, rfl⟩
  change (((before choice world).apply choice op).nodes name).token = _ ∧
    (((before choice world).apply choice op).nodes name).installed = _
  rw [← unchanged.1, ← unchanged.2]
  cases op with
  | edgeProxyKubeconfig => exact ⟨rfl, rfl⟩
  | exec node command =>
    simp only [World.apply]
    split
    · by_cases same : name = node
      · subst same
        simp only [World.set, Function.update_self]
        cases command <;> exact ⟨rfl, rfl⟩
      · simp only [World.set, Function.update_of_ne same, and_self]
    · exact ⟨rfl, rfl⟩

theorem heal_unchanged (nodes : List Str) (turns : List (ℕ × Choice)) (world : World) (name : Str) :
    ((heal sha kubeconfig nodes turns world).2.nodes name).token = (world.nodes name).token ∧
      ((heal sha kubeconfig nodes turns world).2.nodes name).installed =
        (world.nodes name).installed := by
  have keeps : ∀ op choice (now : World),
      (now.nodes name).token = (world.nodes name).token ∧
        (now.nodes name).installed = (world.nodes name).installed →
      (((machine sha).step op choice now).1.nodes name).token = (world.nodes name).token ∧
        (((machine sha).step op choice now).1.nodes name).installed =
          (world.nodes name).installed := by
    intro op choice now same
    have unchanged : ((step sha op choice now).1.nodes name).token = (now.nodes name).token ∧
      ((step sha op choice now).1.nodes name).installed = (now.nodes name).installed :=
      step_unchanged op choice now name
    exact ⟨unchanged.1.trans same.1, unchanged.2.trans same.2⟩
  exact Job.run_of_invariant keeps _ turns ⟨rfl, rfl⟩

/-- Whatever calls, kills and events came before, a call that returns without an error leaves every
installed proxy with the wanted kubeconfig, and running since after it was written. -/
theorem credentials_healed (distinct : Set.InjOn sha.sum known) (visited : Visited sha known world)
    (isKnown : kubeconfig ∈ known) {nodes : List Str} (nodup : nodes.Nodup)
    (turns : List (ℕ × Choice)) :
    (∀ name, ((heal sha kubeconfig nodes turns world).2.nodes name).token =
      (world.nodes name).token) ∧
    ((heal sha kubeconfig nodes turns world).1 = .done (.ok ()) → ∀ name ∈ nodes,
      ((heal sha kubeconfig nodes turns world).2.nodes name).installed = true →
        ((heal sha kubeconfig nodes turns world).2.nodes name).kubeconfig = kubeconfig ∧
        ((heal sha kubeconfig nodes turns world).2.nodes name).Fresh) := by
  refine ⟨fun name => (heal_unchanged nodes turns world name).1, ?_⟩
  intro returned name mem isInstalled
  rw [(heal_unchanged nodes turns world name).2] at isInstalled
  have sound := sound_of_visited distinct visited name
  have renewed := (heal_spec distinct isKnown nodup sound turns).2 returned mem isInstalled
  exact ⟨renewed.kubeconfig, renewed.fresh⟩

def padded : Sha256 where
  sum s := (s ++ List.replicate 32 0).take 32
  length_sum s := by simp

def oneProxy : World where
  clock := 3
  nodes _ := ⟨true, str "first", 1, str "token", false, some 2⟩

def smooth (count : ℕ) : List (ℕ × Choice) := List.replicate count (0, ⟨[], true, true⟩)

set_option maxRecDepth 4000

/-- A call is killed after the kubeconfig has been replaced, and the next one returns. -/
theorem credentials_healed_sample :
    (heal padded (str "second") [str "node"] (smooth 24)
      (heal padded (str "second") [str "node"] (smooth 14) oneProxy).2).1 = .done (.ok ()) ∧
    ((heal padded (str "second") [str "node"] (smooth 14) oneProxy).2.nodes
      (str "node")).restartRequired = true ∧
    ((heal padded (str "second") [str "node"] (smooth 24)
      (heal padded (str "second") [str "node"] (smooth 14) oneProxy).2).2.nodes
        (str "node")).kubeconfig = str "second" ∧
    ((heal padded (str "second") [str "node"] (smooth 24)
      (heal padded (str "second") [str "node"] (smooth 14) oneProxy).2).2.nodes
        (str "node")).Fresh := by
  have returned : (heal padded (str "second") [str "node"] (smooth 24)
      (heal padded (str "second") [str "node"] (smooth 14) oneProxy).2).1 = .done (.ok ()) := rfl
  have distinct : Set.InjOn padded.sum {str "first", str "second"} := by
    rintro left (rfl | rfl) right (rfl | rfl) same
    · rfl
    · exact absurd same (by decide)
    · exact absurd same (by decide)
    · rfl
  have initial : Initial {str "first", str "second"} oneProxy := by
    intro name _
    refine ⟨Or.inl rfl, ?_, ?_⟩
    · change 1 ≤ 3
      omega
    · intro started isProxy
      obtain rfl := Option.some.inj isProxy
      change 1 < 2
      omega
  have isKnown : str "second" ∈ ({str "first", str "second"} : Set Str) := Or.inr rfl
  have visited : Visited padded {str "first", str "second"}
      (heal padded (str "second") [str "node"] (smooth 14) oneProxy).2 :=
    Visited.call (smooth 14) (.initial initial) isKnown (List.nodup_singleton _)
  have healed := (credentials_healed distinct visited isKnown (List.nodup_singleton _)
    (smooth 24)).2 returned (str "node") (List.mem_singleton_self _)
  exact ⟨returned, by decide +kernel, healed rfl⟩

end Kiac.Cluster.Credentials
