import Kiac.Krunkit.Calls
import Kiac.Text.AddressFormat

/-!
# The networks of the store

Each recorded network has a subnet of its own, and every recorded VM has its network, with the
address range that it was told. A network is recorded before the first VM that is in it, and its
file is deleted only when no recorded VM is in it any more.
-/

namespace Kiac.Krunkit

open Prog

section Numbers

theorem networkFile_injective : Function.Injective networkFile :=
  fun _ _ same => List.append_cancel_right same

variable {id : Str} {number : ℕ}

theorem tempFile_ne_networkFile (valid : validKrunkitNetworkID id)
    (suffix : Str) : tempFile suffix ≠ networkFile id := by
  intro same
  cases id with
  | nil => simp [validKrunkitNetworkID] at valid
  | cons b id =>
    have first : byte '.' = b := by
      have heads := congrArg List.head? same
      have dot : (tempFile suffix).head? = some (byte '.') := by
        rw [tempFile, List.head?_append_of_ne_nil _ (by decide)]
        decide
      rw [dot] at heads
      simpa [networkFile] using heads
    subst first
    revert valid
    simp only [validKrunkitNetworkID, List.all_cons, Bool.and_eq_true]
    rintro ⟨_, isDot, _⟩
    revert isDot
    decide

theorem networkNumber_newNetwork (id : Str) (small : number < 256) :
    networkNumber (newNetwork id number) = some number := by
  have address : (newNetwork id number).cidr.takeWhile (· != byte '/') =
      Net.formatIPv4 (192 * 256 + 168) (number * 256) := by
    have cidr : (newNetwork id number).cidr =
        str "192.168." ++ Str.formatNat number ++ str ".0" ++ str "/24" := by
      have ending : str ".0/24" = str ".0" ++ str "/24" := by decide
      simp [newNetwork, subnetText, ending]
    have plain : ∀ b ∈ str "192.168." ++ Str.formatNat number ++ str ".0",
        (b != byte '/') = true := by
      have beginning : ∀ b ∈ str "192.168.", (b != byte '/') := by decide +kernel
      have ending : ∀ b ∈ str ".0", (b != byte '/') := by decide +kernel
      intro b mem
      rw [List.mem_append, List.mem_append] at mem
      rcases mem with (mem | mem) | mem
      · exact beginning b mem
      · have isDigit := Str.isDigit_of_mem_formatNat mem
        rw [bne_iff_ne]
        rintro rfl
        revert isDigit
        decide
      · exact ending b mem
    have stops : (str "/24").takeWhile (· != byte '/') = [] := by decide
    have beginning : str "192.168." = Str.formatNat 192 ++ byte '.' ::
        (Str.formatNat 168 ++ [byte '.']) := by decide
    have ending : str ".0" = byte '.' :: Str.formatNat 0 := by decide
    rw [cidr, List.takeWhile_append_of_pos plain, stops, Net.formatIPv4_eq, beginning, ending,
      Nat.mul_div_cancel _ (by decide), Nat.mul_mod_left]
    simp
  rw [networkNumber, address, Net.parseIP_formatIPv4 (by decide) (by omega)]
  simp [Net.isV4, Net.mapped]

theorem newNetwork_inj {other : ℕ}
    (same : newNetwork id number = newNetwork id other) : number = other := by
  have starts : subnetText number ".1" = subnetText other ".1" := congrArg Network.startAddress same
  simp only [subnetText, List.append_assoc] at starts
  exact Str.formatNat_injective (List.append_cancel_right (List.append_cancel_left starts))

theorem mem_candidates (start : ℕ) (above : 105 ≤ number) (below : number ≤ 249) :
    number ∈ (List.range 145).map fun offset => 105 + (start + offset) % 145 := by
  rw [List.mem_map]
  refine ⟨(number - 105 + 145 - start % 145) % 145, ?_, ?_⟩
  · rw [List.mem_range]
    omega
  · omega

variable {used : List ℕ}

theorem chooseSubnet_eq_some (chosen : chooseSubnet id used = some number) :
    105 ≤ number ∧ number ≤ 249 ∧ number ∉ used := by
  have isFree := List.find?_some chosen
  have mem := List.mem_of_find?_eq_some chosen
  rw [List.mem_map] at mem
  rcases mem with ⟨offset, _, rfl⟩
  refine ⟨by omega, by omega, ?_⟩
  simpa using isFree

theorem chooseSubnet_eq_none (refused : chooseSubnet id used = none)
    (above : 105 ≤ number) (below : number ≤ 249) : number ∈ used := by
  have notFree := List.find?_eq_none.mp refused number (mem_candidates _ above below)
  simpa using notFree

end Numbers

def World.network (world : World) (id : Str) : Option (Option Doc) :=
  if validKrunkitNetworkID id then world.networks.lookup (networkFile id) else none

/-- The network of a VM is recorded with the address range that the VM was told. -/
def Linked (network : Str → Option (Option Doc)) (state : NodeState) : Prop :=
  ∃ recorded, network state.networkID = some (some (.network recorded)) ∧
    recorded.cidr = state.networkCIDR

structure Consistent (network : Str → Option (Option Doc)) (slots : Str → Slot) : Prop where
  numbered : ∀ id content, network id = some content → ∃ number, 105 ≤ number ∧ number ≤ 249 ∧
    content = some (.network (newNetwork id number))
  distinct : ∀ id other number, network id = some (some (.network (newNetwork id number))) →
    network other = some (some (.network (newNetwork other number))) → id = other
  stored : ∀ n content, slots n = .stored content → ∃ state, content = some (.node state) ∧
    validVMName n = true ∧ OfNode n state ∧ Linked network state

section Steps

variable {op : Op} {choice : Choice} {world : World} {n : Str}

def Op.OffNetworks : Op → Prop
  | .createTemp loc => loc ≠ .networks
  | .writeFile loc _ _ => loc ≠ .networks
  | .rename loc _ _ _ => loc ≠ .networks
  | .unlink loc _ => loc ≠ .networks
  | _ => True

theorem setFiles_networks_of_ne {loc : Loc} {files : Files} (other : loc ≠ .networks) :
    (world.setFiles loc files).networks = world.networks := by
  cases loc with
  | networks => exact absurd rfl other
  | node name => rfl

theorem step_networks_of_off (off : op.OffNetworks) :
    (step op choice world).1.networks = world.networks := by
  change (effect choice (world.evolve choice) op).1.networks = (world.evolve choice).networks
  generalize world.evolve choice = world
  cases op with
  | mkdirAll loc =>
    cases loc with
    | networks => rfl
    | node name =>
      simp only [effect]
      split
      · split <;> rfl
      · rfl
  | createTemp loc =>
    simp only [effect]
    split
    · split
      · exact setFiles_networks_of_ne off
      · rfl
    · rfl
  | writeFile loc file content =>
    simp only [effect]
    split
    · split
      · exact setFiles_networks_of_ne off
      · split
        · exact setFiles_networks_of_ne off
        · rfl
    · rfl
  | rename loc temp file doc =>
    simp only [effect]
    split
    · split
      · exact setFiles_networks_of_ne off
      · rfl
    · rfl
  | unlink loc file =>
    simp only [effect]
    split
    · split
      · exact setFiles_networks_of_ne off
      · rfl
    · rfl
  | entries loc =>
    simp only [effect]
    split <;> rfl
  | rmdir name =>
    simp only [effect]
    split
    · split <;> rfl
    · rfl
  | launch name args =>
    simp only [effect]
    split <;> rfl
  | terminate pid =>
    simp only [effect]
    split <;> rfl
  | _ => rfl

theorem step_network_of_off (off : op.OffNetworks) :
    (step op choice world).1.network = world.network := by
  funext id
  rw [World.network, step_networks_of_off off]
  rfl

theorem Op.Own.offNetworks (own : op.Own n) : op.OffNetworks := by
  cases op with
  | createTemp loc =>
    subst own
    exact Loc.noConfusion
  | writeFile loc file content =>
    rcases own with ⟨rfl, _⟩
    exact Loc.noConfusion
  | unlink loc file =>
    rcases own with ⟨rfl, _⟩
    exact Loc.noConfusion
  | rename loc temp file doc => exact own.elim
  | _ => trivial

theorem Op.Removes.offNetworks (removes : op.Removes n) : op.OffNetworks := by
  rcases removes with rfl | ⟨file, rfl⟩ | rfl
  · trivial
  · exact Loc.noConfusion
  · trivial

theorem Op.Replaces.offNetworks {original : NodeState} (replaces : op.Replaces original) :
    op.OffNetworks := by
  rcases replaces with own | ⟨args, rfl⟩ | ⟨suffix, state, rfl, _⟩
  · exact own.offNetworks
  · trivial
  · exact Loc.noConfusion

variable {content : Option Doc} {file : Str}

theorem stored_of_removes (removes : op.Removes n) {name : Str}
    (stored : (step op choice world).1.slot name = .stored content) :
    world.slot name = .stored content := by
  rcases removes with rfl | ⟨file, rfl⟩ | rfl
  · simp only [step, effect] at stored
    split at stored <;> exact stored
  · simp only [step, effect] at stored
    split at stored
    · rename_i files found
      split at stored
      · rw [World.slot_setFiles_node] at stored
        by_cases same : name = n
        · subst same
          rw [Function.update_self, filesSlot] at stored
          by_cases isState : file = stateFile
          · simp [isState] at stored
          · rw [AList.lookup_erase_ne (Ne.symm isState)] at stored
            rw [World.slot_of_files (show world.files (.node name) = some files from found)]
            exact stored
        · rwa [Function.update_of_ne same] at stored
      · exact stored
    · exact stored
  · simp only [step, effect] at stored
    split at stored
    · split at stored
      · rw [World.slot_erase] at stored
        by_cases same : name = n
        · rw [same, Function.update_self] at stored
          cases stored
        · rwa [Function.update_of_ne same] at stored
      · exact stored
    · exact stored

theorem network_setFiles_insert
    (other : ∀ id, validKrunkitNetworkID id → file ≠ networkFile id) :
    (world.setFiles .networks (world.networks.insert file content)).network = world.network := by
  funext id
  unfold World.network
  split
  · rename_i valid
    exact AList.lookup_insert_ne (Ne.symm (other id valid))
  · rfl

theorem network_setFiles_erase
    (other : ∀ id, validKrunkitNetworkID id → file ≠ networkFile id) :
    (world.setFiles .networks (world.networks.erase file)).network = world.network := by
  funext id
  unfold World.network
  split
  · rename_i valid
    exact AList.lookup_erase_ne (Ne.symm (other id valid))
  · rfl

def Op.Temp (op : Op) : Prop :=
  op = .createTemp .networks ∨
    (∃ suffix content, op = .writeFile .networks (tempFile suffix) content) ∨
    ∃ suffix, op = .unlink .networks (tempFile suffix)

theorem step_network_of_temp (isTemp : op.Temp) (choice : Choice) (world : World) :
    (step op choice world).1.network = world.network := by
  have other : ∀ suffix id, validKrunkitNetworkID id = true → tempFile suffix ≠ networkFile id :=
    fun suffix _ valid => tempFile_ne_networkFile valid suffix
  have inserted : ∀ suffix content, ((world.evolve choice).setFiles .networks
      (world.networks.insert (tempFile suffix) content)).network = world.network :=
    fun suffix content => network_setFiles_insert (other suffix)
  rcases isTemp with rfl | ⟨suffix, content, rfl⟩ | ⟨suffix, rfl⟩
  · simp only [step, effect, World.files]
    split
    · exact inserted _ _
    · rfl
  · simp only [step, effect, World.files]
    split
    · exact inserted _ _
    · split
      · exact inserted _ _
      · rfl
  · simp only [step, effect, World.files]
    split
    · exact network_setFiles_erase (other suffix)
    · rfl

theorem step_network_rename {id : Str} (valid : validKrunkitNetworkID id) (suffix : Str)
    (doc : Doc) (choice : Choice) (world : World) :
    ((step (.rename .networks (tempFile suffix) (networkFile id) doc) choice world).2 = false ∧
        (step (.rename .networks (tempFile suffix) (networkFile id) doc) choice world).1.network =
          world.network) ∨
      ((step (.rename .networks (tempFile suffix) (networkFile id) doc) choice world).2 ∧
        (step (.rename .networks (tempFile suffix) (networkFile id) doc) choice world).1.network =
          Function.update world.network id (some (some doc))) := by
  simp only [step, effect, World.files]
  split
  · refine Or.inr ⟨rfl, ?_⟩
    funext other
    by_cases same : other = id
    · subst same
      rw [Function.update_self, World.network, if_pos valid]
      exact AList.lookup_insert _
    · rw [Function.update_of_ne same]
      unfold World.network
      split
      · rename_i validOther
        have differs : networkFile other ≠ networkFile id :=
          fun equal => same (networkFile_injective equal)
        refine (AList.lookup_insert_ne differs).trans ?_
        exact AList.lookup_erase_ne (Ne.symm (tempFile_ne_networkFile validOther suffix))
      · rfl
  · exact Or.inl ⟨rfl, rfl⟩

theorem step_network_unlink (id : Str) (choice : Choice) (world : World) :
    (step (.unlink .networks (networkFile id)) choice world).1.network = world.network ∨
      (step (.unlink .networks (networkFile id)) choice world).1.network =
        Function.update world.network id none := by
  simp only [step, effect, World.files]
  split
  · right
    funext other
    by_cases same : other = id
    · subst same
      rw [Function.update_self]
      unfold World.network
      split
      · exact AList.lookup_erase _ _
      · rfl
    · rw [Function.update_of_ne same]
      unfold World.network
      split
      · exact AList.lookup_erase_ne fun equal => same (networkFile_injective equal)
      · rfl
  · exact Or.inl rfl

end Steps

section Invariant

variable {network : Str → Option (Option Doc)} {slots : Str → Slot}

theorem Consistent.fewer {slots' : Str → Slot} (consistent : Consistent network slots)
    (fewer : ∀ n content, slots' n = .stored content → slots n = .stored content) :
    Consistent network slots' :=
  ⟨consistent.numbered, consistent.distinct,
    fun n content stored => consistent.stored n content (fewer n content stored)⟩

variable {n id : Str} {op : Op} {choice : Choice} {world : World}

theorem Consistent.written {state : NodeState} (consistent : Consistent network slots)
    (valid : validVMName n) (ofNode : OfNode n state) (linked : Linked network state) :
    Consistent network (Function.update slots n (.stored (some (.node state)))) := by
  refine ⟨consistent.numbered, consistent.distinct, ?_⟩
  intro name content stored
  by_cases same : name = n
  · subst same
    rw [Function.update_self] at stored
    cases stored
    exact ⟨state, rfl, valid, ofNode, linked⟩
  · rw [Function.update_of_ne same] at stored
    exact consistent.stored name content stored

theorem Consistent.recorded {number : ℕ} (consistent : Consistent network slots)
    (missing : network id = none) (above : 105 ≤ number) (below : number ≤ 249)
    (free : ∀ other, network other ≠ some (some (.network (newNetwork other number)))) :
    Consistent (Function.update network id (some (some (.network (newNetwork id number))))) slots := by
  have either : ∀ {other : Str} {k : ℕ}, Function.update network id
      (some (some (.network (newNetwork id number)))) other =
        some (some (.network (newNetwork other k))) →
      (other = id ∧ k = number) ∨
        other ≠ id ∧ network other = some (some (.network (newNetwork other k))) := by
    intro other k isRecorded
    by_cases same : other = id
    · subst same
      rw [Function.update_self, Option.some.injEq, Option.some.injEq, Doc.network.injEq] at isRecorded
      exact Or.inl ⟨rfl, (newNetwork_inj isRecorded).symm⟩
    · rw [Function.update_of_ne same] at isRecorded
      exact Or.inr ⟨same, isRecorded⟩
  refine ⟨?_, ?_, ?_⟩
  · intro other content isRecorded
    by_cases same : other = id
    · subst same
      rw [Function.update_self, Option.some.injEq] at isRecorded
      exact ⟨number, above, below, isRecorded.symm⟩
    · rw [Function.update_of_ne same] at isRecorded
      exact consistent.numbered other content isRecorded
  · intro first second k isFirst isSecond
    rcases either isFirst with ⟨rfl, rfl⟩ | ⟨_, old⟩
    · rcases either isSecond with ⟨rfl, _⟩ | ⟨_, oldSecond⟩
      · rfl
      · exact absurd oldSecond (free second)
    · rcases either isSecond with ⟨rfl, rfl⟩ | ⟨_, oldSecond⟩
      · exact absurd old (free first)
      · exact consistent.distinct first second k old oldSecond
  · intro n content stored
    rcases consistent.stored n content stored with ⟨state, isState, valid, ofNode, recorded, found, cidr⟩
    refine ⟨state, isState, valid, ofNode, recorded, ?_, cidr⟩
    have other : state.networkID ≠ id := by
      intro same
      rw [same, missing] at found
      cases found
    rwa [Function.update_of_ne other]

theorem Consistent.forgotten (consistent : Consistent network slots)
    (unused : ∀ n state, slots n = .stored (some (.node state)) → state.networkID ≠ id) :
    Consistent (Function.update network id none) slots := by
  have old : ∀ {other : Str} {content : Option Doc},
      Function.update network id none other = some content → network other = some content := by
    intro other content isRecorded
    by_cases same : other = id
    · rw [same, Function.update_self] at isRecorded
      cases isRecorded
    · rwa [Function.update_of_ne same] at isRecorded
  refine ⟨fun other content isRecorded => consistent.numbered other content (old isRecorded),
    fun first second k isFirst isSecond =>
      consistent.distinct first second k (old isFirst) (old isSecond), ?_⟩
  intro n content stored
  rcases consistent.stored n content stored with ⟨state, rfl, valid, ofNode, recorded, found, cidr⟩
  refine ⟨state, rfl, valid, ofNode, recorded, ?_, cidr⟩
  rwa [Function.update_of_ne (unused n state stored)]

theorem Consistent.step_own (own : op.Own n) (consistent : Consistent world.network world.slot) :
    Consistent (step op choice world).1.network (step op choice world).1.slot := by
  rw [step_network_of_off own.offNetworks]
  rcases step_slot_of_plain own.plain choice world with same | ⟨_, _, made⟩
  · rwa [same]
  · rw [made]
    apply consistent.fewer
    intro name content stored
    by_cases isNode : name = n
    · rw [isNode, Function.update_self] at stored
      cases stored
    · rwa [Function.update_of_ne isNode] at stored

theorem Consistent.step_replaces {original : NodeState}
    (replaces : op.Replaces original) (consistent : Consistent world.network world.slot)
    (linked : Linked world.network original) :
    Consistent (step op choice world).1.network (step op choice world).1.slot := by
  rcases replaces with own | ⟨args, rfl⟩ | ⟨suffix, state, rfl, agrees, valid⟩
  · exact consistent.step_own own
  · simp only [step, effect]
    split <;> exact consistent
  · rw [step_network_of_off Loc.noConfusion]
    rcases step_rename original.name (tempFile suffix) (.node state) choice world with
      ⟨_, same⟩ | ⟨_, _, stored⟩
    · rwa [same]
    · rw [stored]
      apply consistent.written valid agrees.1
      rcases linked with ⟨recorded, found, cidr⟩
      exact ⟨recorded, by rw [agrees.2.1, found], cidr.trans agrees.2.2.symm⟩

end Invariant

def World.Consistent (world : World) : Prop := Krunkit.Consistent world.network world.slot

section Programs

variable {fair : Op → Choice → World → Prop} {guard : Op → World → Prop} {inv : World → Prop}

def numbersOf (networks : Files) (files : List Str) : List ℕ :=
  files.flatMap fun file =>
    match networks.lookup file with
    | some (some (.network network)) => (networkNumber network).toList
    | _ => []

variable {number : ℕ} {id : Str} {op : Op}

variable {files : List Str} {world : World} {content : Option Doc}

theorem mem_numbersOf {networks : Files} :
    number ∈ numbersOf networks files ↔ ∃ file ∈ files, ∃ network,
      networks.lookup file = some (some (.network network)) ∧
        networkNumber network = some number := by
  rw [numbersOf, List.mem_flatMap]
  apply exists_congr
  intro file
  apply and_congr_right
  rcases networks.lookup file with _ | _ | ⟨_ | network⟩ <;> simp

theorem returns_networkNumbers (evolves : ∀ world choice, inv world → inv (world.evolve choice))
    (guarded : ∀ op world, inv world → guard op world) (networks : Files) (files : List Str) :
    Returns ⟨machine, fair, guard⟩ (fun world => inv world ∧ world.networks = networks)
      (networkNumbers files)
      (fun numbers world => (inv world ∧ world.networks = networks) ∧
        numbers = numbersOf networks files) (fun _ => False) := by
  induction files with
  | nil => exact Returns.pure fun _ holds => ⟨holds, rfl⟩
  | cons file files ih =>
    have read : Returns ⟨machine, fair, guard⟩ (fun world => inv world ∧ world.networks = networks)
        (ask (.readFile .networks file))
        (fun found world => (inv world ∧ world.networks = networks) ∧
          found = networks.lookup file) (fun _ => False) := by
      refine Returns.lift (Triple.perform (fun world holds => guarded _ world holds.1) ?_)
      rintro world choice ⟨holds, rfl⟩ _
      exact ⟨⟨evolves world choice holds, rfl⟩, rfl⟩
    refine read.bind fun content => Returns.assume fun isContent => ?_
    refine ih.bind fun others => Returns.assume fun isOthers => ?_
    subst isContent isOthers
    rcases found : networks.lookup file with _ | _ | ⟨_ | network⟩
    all_goals exact Returns.pure fun _ holds => ⟨holds, by simp [numbersOf, found]⟩

def consistency : Setting Op Op.Ans World Choice :=
  ⟨machine, fun _ _ _ => True, fun _ world => world.Consistent⟩

structure Fresh (id : Str) (number : ℕ) (world : World) : Prop where
  consistent : world.Consistent
  missing : world.network id = none
  free : ∀ other, world.network other ≠ some (some (.network (newNetwork other number)))

theorem Fresh.step_temp (fresh : Fresh id number world) (isTemp : op.Temp) (choice : Choice) :
    Fresh id number (step op choice world).1 := by
  have network := step_network_of_temp isTemp choice world
  have plain : op.Plain [] := by
    rcases isTemp with rfl | ⟨suffix, content, rfl⟩ | ⟨suffix, rfl⟩ <;> trivial
  have slot := step_slot_of_plain_nil plain choice world
  refine ⟨?_, ?_, ?_⟩
  · rw [World.Consistent, network, slot]
    exact fresh.consistent
  · rw [network]
    exact fresh.missing
  · rw [network]
    exact fresh.free

theorem triple_temp (isTemp : op.Temp) :
    Triple consistency (Fresh id number) (perform op) fun _ => Fresh id number :=
  Triple.perform (fun _ fresh => fresh.consistent) fun _ choice fresh _ =>
    fresh.step_temp isTemp choice

def Recorded (id : Str) (network : Network) (world : World) : Prop :=
  world.Consistent ∧ world.network id = some (some (.network network))

theorem triple_temp_recorded {network : Network} (isTemp : op.Temp) :
    Triple consistency (Recorded id network) (perform op) fun _ => Recorded id network := by
  refine Triple.perform (fun _ recorded => recorded.1) ?_
  rintro world choice ⟨consistent, found⟩ _
  have plain : op.Plain [] := by
    rcases isTemp with rfl | ⟨suffix, content, rfl⟩ | ⟨suffix, rfl⟩ <;> trivial
  have same := step_network_of_temp isTemp choice world
  refine ⟨?_, ?_⟩
  · change Krunkit.Consistent (step op choice world).1.network (step op choice world).1.slot
    rw [same, step_slot_of_plain_nil plain choice world]
    exact consistent
  · exact (congrFun same id).trans found

theorem returns_writeNetwork (valid : validKrunkitNetworkID id)
    (above : 105 ≤ number) (below : number ≤ 249) :
    Returns consistency (Fresh id number)
      (writeJSONAtomic .networks (networkFile id) (.network (newNetwork id number)))
      (fun _ => Recorded id (newNetwork id number)) World.Consistent := by
  have unlink : ∀ suffix, (Op.unlink .networks (tempFile suffix)).Temp :=
    fun suffix => Or.inr (Or.inr ⟨suffix, rfl⟩)
  refine returns_writeJSONAtomic (fun _ => Fresh id number)
    (fun _ => Recorded id (newNetwork id number)) ?_ ?_ ?_ ?_ ?_
  · exact (triple_temp (Or.inl rfl)).weaken (fun _ fresh => fresh)
      fun _ _ fresh => ⟨fun _ => fresh.consistent, fun _ _ => fresh⟩
  · exact fun suffix => triple_temp (Or.inr (Or.inl ⟨suffix, _, rfl⟩))
  · intro suffix
    refine Triple.perform (fun _ fresh => fresh.consistent) ?_
    intro world choice fresh _
    let op := Op.rename .networks (tempFile suffix) (networkFile id) (.network (newNetwork id number))
    change if (step op choice world).2 then Recorded id (newNetwork id number) (step op choice world).1
      else Fresh id number (step op choice world).1
    have plain : op.Plain [] := trivial
    have slot := step_slot_of_plain_nil plain choice world
    rcases step_network_rename valid suffix (.network (newNetwork id number)) choice world with
      ⟨failed, same⟩ | ⟨renamed, updated⟩
    · rw [show (step op choice world).2 = false from failed]
      refine ⟨?_, ?_, ?_⟩
      · rw [World.Consistent, show (step op choice world).1.network = _ from same, slot]
        exact fresh.consistent
      · rw [show (step op choice world).1.network = _ from same]
        exact fresh.missing
      · rw [show (step op choice world).1.network = _ from same]
        exact fresh.free
    · rw [show (step op choice world).2 = true from renamed]
      refine ⟨?_, ?_⟩
      · rw [World.Consistent, show (step op choice world).1.network = _ from updated, slot]
        exact fresh.consistent.recorded fresh.missing above below fresh.free
      · rw [show (step op choice world).1.network = _ from updated, Function.update_self]
  · exact fun suffix => (triple_temp (unlink suffix)).weaken (fun _ fresh => fresh)
      fun _ _ fresh => fresh.consistent
  · exact fun suffix => triple_temp_recorded (unlink suffix)

theorem returns_fixing {α : Type} {action : Action α} {setting : Setting Op Op.Ans World Choice}
    {pre failed : World → Prop} {ok : α → World → Prop}
    (fixed : ∀ networks, Returns setting (fun world => pre world ∧ world.networks = networks) action
      ok failed) : Returns setting pre action ok failed :=
  fun world holds => fixed world.networks world ⟨holds, rfl⟩

theorem mem_step_entries (choice : Choice) (world : World) (file : Str) :
    file ∈ (step (.entries .networks) choice world).2 ↔ file ∈ world.networks.keys := by
  simp only [step, effect, World.files]
  split
  · rename_i perm
    exact perm.mem_iff
  · rfl

theorem fresh_of_chooseSubnet {interfaces : List ℕ}
    (consistent : world.Consistent) (valid : validKrunkitNetworkID id)
    (missing : world.networks.lookup (networkFile id) = none)
    (isFiles : ∀ file, file ∈ files ↔ file ∈ world.networks.keys)
    (chosen : chooseSubnet id (interfaces ++ numbersOf world.networks files) = some number) :
    Fresh id number world ∧ 105 ≤ number ∧ number ≤ 249 := by
  rcases chooseSubnet_eq_some chosen with ⟨above, below, free⟩
  refine ⟨⟨consistent, ?_, ?_⟩, above, below⟩
  · rw [World.network, if_pos valid, missing]
  · intro other recorded
    unfold World.network at recorded
    split at recorded
    · refine free (List.mem_append_right _ (mem_numbersOf.mpr ⟨networkFile other, ?_, _, recorded,
        networkNumber_newNetwork other (by omega)⟩))
      rw [isFiles, ← AList.mem_keys, ← AList.lookup_isSome, recorded]
      rfl
    · cases recorded

theorem returns_recordedNetwork :
    Returns consistency
      (fun world => world.Consistent ∧ world.network id = some content) (recordedNetwork id content)
      (fun network => Recorded id network) World.Consistent := by
  unfold recordedNetwork
  split
  · refine (returns_check fun _ holds => holds.1).bind fun _ => ?_
    exact Returns.pure fun _ holds => holds.1
  · exact Returns.throw fun _ holds => holds.1

theorem returns_newNetwork (valid : validKrunkitNetworkID id)
    (networks : Files) (missing : networks.lookup (networkFile id) = none) :
    Returns consistency
      (fun world => world.Consistent ∧ world.networks = networks)
      (do
        let interfaces ← ask .interfaces
        let files ← ask (.entries .networks)
        let recorded ← networkNumbers files
        let number ← given .noFreeSubnet (chooseSubnet id (interfaces ++ recorded))
        writeJSONAtomic .networks (networkFile id) (.network (newNetwork id number))
        pure (newNetwork id number))
      (fun network => Recorded id network) World.Consistent := by
  have looked : Returns consistency (fun world => world.Consistent ∧ world.networks = networks)
      (ask .interfaces) (fun _ world => world.Consistent ∧ world.networks = networks)
      World.Consistent :=
    Returns.lift (Triple.perform (fun _ holds => holds.1) fun _ _ holds _ => holds)
  refine looked.bind fun interfaces => ?_
  have read : Returns consistency (fun world => world.Consistent ∧ world.networks = networks)
      (ask (.entries .networks)) (fun files world => (world.Consistent ∧ world.networks = networks) ∧
        ∀ file, file ∈ files ↔ file ∈ networks.keys) World.Consistent := by
    refine Returns.lift (Triple.perform (fun _ holds => holds.1) ?_)
    rintro world choice ⟨consistent, rfl⟩ _
    exact ⟨⟨consistent.step_own (show (Op.entries .networks).Own [] from trivial),
      step_networks_of_off trivial⟩, mem_step_entries choice world⟩
  refine read.bind fun files => Returns.assume fun isFiles => ?_
  refine ((returns_networkNumbers (fun _ _ holds => holds)
    (fun _ _ holds => holds) networks files).weaken (fun _ holds => holds) (fun _ _ holds => holds)
    fun _ impossible => impossible.elim).bind fun numbers => Returns.assume fun isNumbers => ?_
  refine (returns_given _ fun _ holds => holds.1).bind fun number => ?_
  refine Returns.assume fun chosen => ?_
  subst isNumbers
  rcases chooseSubnet_eq_some chosen with ⟨above, below, _⟩
  refine ((returns_writeNetwork valid above below).weaken ?_
    (fun _ _ recorded => recorded) fun _ holds => holds).bind fun _ => Returns.pure fun _ holds => holds
  rintro world ⟨consistent, rfl⟩
  exact (fresh_of_chooseSubnet consistent valid missing isFiles chosen).1

theorem returns_ensureNetwork (id : Str) :
    Returns consistency World.Consistent (ensureNetwork id) (fun network => Recorded id network)
      World.Consistent := by
  refine (returns_check fun _ holds => holds).bind fun _ => Returns.assume fun valid => ?_
  have made : Returns consistency World.Consistent (must (ask (.mkdirAll .networks)) .io)
      (fun _ => World.Consistent) World.Consistent := by
    have asked : Triple consistency World.Consistent (perform (Op.mkdirAll .networks))
        fun _ => World.Consistent :=
      Triple.perform (fun _ holds => holds) fun _ _ holds _ => holds
    refine (Returns.lift asked).bind fun _ => ?_
    exact (returns_check fun _ holds => holds).weaken (fun _ holds => holds)
      (fun _ _ holds => holds.1) fun _ holds => holds
  refine made.bind fun _ => returns_fixing fun networks => ?_
  have read : Returns consistency (fun world => world.Consistent ∧ world.networks = networks)
      (ask (.readFile .networks (networkFile id)))
      (fun existing world => (world.Consistent ∧ world.networks = networks) ∧
        existing = networks.lookup (networkFile id)) World.Consistent := by
    refine Returns.lift (Triple.perform (fun _ holds => holds.1) ?_)
    rintro world choice ⟨consistent, rfl⟩ _
    exact ⟨⟨consistent, rfl⟩, rfl⟩
  refine read.bind fun existing => Returns.assume fun isExisting => ?_
  cases existing with
  | none => exact returns_newNetwork valid networks isExisting.symm
  | some content =>
    refine returns_recordedNetwork.weaken ?_ (fun _ _ holds => holds) fun _ holds => holds
    rintro world ⟨consistent, rfl⟩
    exact ⟨consistent, by rw [World.network, if_pos valid, isExisting]⟩

theorem exits_readState (slots : Str → Slot) (name : Str) :
    Exits consistency (fun world => world.Consistent ∧ world.slot = slots) (readState name)
      (fun read world => (world.Consistent ∧ world.slot = slots) ∧
        slots name = .stored (some (.node read)))
      (fun _ world => (world.Consistent ∧ world.slot = slots) ∧
        ∀ content, slots name ≠ .stored content) := by
  unfold readState check
  split
  · have read : Triple consistency (fun world => world.Consistent ∧ world.slot = slots)
        (perform (Op.readFile (.node name) stateFile)) (fun found world =>
          (world.Consistent ∧ world.slot = slots) ∧
            ∀ content, found = some content ↔ slots name = .stored content) := by
      refine Triple.perform (fun _ holds => holds.1) ?_
      rintro world choice ⟨consistent, rfl⟩ _
      exact ⟨⟨consistent, rfl⟩, fun content => readFile_slot⟩
    refine (Exits.lift read).bind fun found => ?_
    cases found with
    | none =>
      refine Exits.throw fun _ holds => ⟨holds.1, fun content stored => ?_⟩
      cases (holds.2 content).mpr stored
    | some content =>
      rintro world ⟨holds, isFound⟩
      have stored := (isFound content).mp rfl
      have inWorld := holds.2 ▸ stored
      rcases holds.1.stored name content inWorld with ⟨state, rfl, _, ofNode, _⟩
      have parsed : parseState name (some (.node state)) = .ok state := if_pos ofNode
      change Prog.wp _ _ _ (done (parseState name (some (.node state)))) _ world
      rw [parsed]
      exact ⟨holds, stored⟩
  · rename_i invalid
    refine Exits.throw fun _ holds => ⟨holds, fun content stored => ?_⟩
    rw [← holds.2] at stored
    rcases holds.1.stored name content stored with ⟨_, _, valid, _⟩
    exact invalid valid

theorem triple_usesNetwork (slots : Str → Slot) (id : Str) (names : List Str) :
    Triple consistency (fun world => world.Consistent ∧ world.slot = slots) (usesNetwork id names)
      (fun used world => (world.Consistent ∧ world.slot = slots) ∧ (used = false →
        ∀ n ∈ names, ∀ state, slots n = .stored (some (.node state)) → state.networkID ≠ id)) := by
  induction names with
  | nil => exact Triple.done fun _ holds => ⟨holds, fun _ _ mem => absurd mem List.not_mem_nil⟩
  | cons name names ih =>
    refine Triple.bind (exits_readState slots name) fun result => ?_
    have others : (∀ state, slots name = .stored (some (.node state)) → state.networkID ≠ id) →
        Triple consistency (fun world => world.Consistent ∧ world.slot = slots)
          (usesNetwork id names) (fun used world => (world.Consistent ∧ world.slot = slots) ∧
            (used = false → ∀ n ∈ name :: names, ∀ state,
              slots n = .stored (some (.node state)) → state.networkID ≠ id)) := by
      intro first
      apply ih.weaken (fun _ holds => holds)
      rintro used world ⟨holds, unused⟩
      refine ⟨holds, fun isUnused n mem => ?_⟩
      rcases List.mem_cons.mp mem with rfl | mem
      · exact first
      · exact unused isUnused n mem
    cases result with
    | error err =>
      refine fun world holds => others ?_ world holds.1
      exact fun state stored => absurd stored (holds.2 _)
    | ok read =>
      change Triple consistency _ (if read.networkID = id then done true else usesNetwork id names) _
      by_cases used : read.networkID = id
      · rw [if_pos used]
        exact Triple.done fun _ holds => ⟨holds.1, Bool.noConfusion⟩
      · rw [if_neg used]
        refine fun world holds => others ?_ world holds.1
        intro state stored
        have same := holds.2.symm.trans stored
        simp only [Slot.stored.injEq, Option.some.injEq, Doc.node.injEq] at same
        rwa [← same]

theorem mem_step_readNodes (choice : Choice) (world : World) {n : Str}
    (stored : world.slot n = .stored content) : n ∈ (step .readNodes choice world).2 := by
  change n ∈ world.nodes.keys.insertionSort fun a b => a ≤ b
  rw [List.mem_insertionSort, ← AList.mem_keys, ← AList.lookup_isSome]
  unfold World.slot at stored
  split at stored
  · cases stored
  · rename_i found
    rw [found]
    rfl

theorem triple_removeUnusedNetwork (id : Str) :
    Triple consistency World.Consistent (removeUnusedNetwork id) fun _ => World.Consistent := by
  unfold removeUnusedNetwork
  split
  · have read : Triple consistency World.Consistent (perform Op.readNodes) (fun names world =>
        world.Consistent ∧ ∀ n content, world.slot n = .stored content → n ∈ names) :=
      Triple.perform (fun _ holds => holds) fun world choice holds _ =>
        ⟨holds, fun n content stored => mem_step_readNodes choice world stored⟩
    refine read.bind fun names world holds => ?_
    refine ((triple_usesNetwork world.slot id names).bind fun used => ?_) world
      ⟨holds.1, rfl⟩
    split
    · exact Triple.done fun _ after => after.1.1
    · rename_i unused
      rw [Bool.not_eq_true] at unused
      have unlink : Triple consistency (fun later => (later.Consistent ∧ later.slot = world.slot) ∧
          (used = false → ∀ n ∈ names, ∀ state, world.slot n = .stored (some (.node state)) →
            state.networkID ≠ id)) (perform (Op.unlink .networks (networkFile id)))
          fun _ => World.Consistent := by
        refine Triple.perform (fun _ after => after.1.1) ?_
        rintro later choice ⟨⟨consistent, slots⟩, none⟩ _
        have plain : (Op.unlink .networks (networkFile id)).Plain [] := trivial
        have slot := step_slot_of_plain_nil plain choice later
        change Krunkit.Consistent (step (.unlink .networks (networkFile id)) choice later).1.network
          (step (.unlink .networks (networkFile id)) choice later).1.slot
        rw [slot]
        rcases step_network_unlink id choice later with same | forgotten
        · rw [same]
          exact consistent
        · rw [forgotten]
          apply consistent.forgotten
          intro n state stored
          rw [slots] at stored
          exact none unused n (holds.2 n _ stored) state stored
      exact unlink.bind fun _ => Triple.done fun _ after => after
  · exact Triple.done fun _ holds => holds

theorem kept_consistent : Kept consistency.fair consistency.guard World.Consistent
    fun state world => Linked world.network state where
  guarded _ _ consistent := consistent
  evolves _ _ consistent := consistent
  own _ _ _ _ own _ consistent := consistent.step_own own
  replaces original op choice world replaces _ holds := by
    refine ⟨holds.1.step_replaces replaces holds.2, ?_⟩
    rw [step_network_of_off replaces.offNetworks]
    exact holds.2
  removes n op choice world removes _ consistent := by
    rw [World.Consistent, step_network_of_off removes.offNetworks]
    exact Consistent.fewer consistent fun _ _ stored => stored_of_removes removes stored
  linked n state world consistent stored _ := by
    rcases consistent.stored n _ stored with ⟨_, same, _, _, linked⟩
    cases same
    exact linked
  ensures id := by
    refine (returns_ensureNetwork id).weaken (fun _ holds => holds) ?_ fun _ holds => holds
    rintro network world ⟨consistent, recorded⟩
    refine ⟨consistent, fun state isID isCIDR => ⟨network, ?_, isCIDR.symm⟩⟩
    rw [isID, recorded]
  unused := triple_removeUnusedNetwork

end Programs

/-- The stores that calls lead to, each of which returns or is killed at one of its steps. -/
inductive Visited (client : Client) : World → Prop
  | empty : Visited client .empty
  | call {world : World} (call : Call) (choices : List Choice) (visited : Visited client world) :
      Visited client ((call.program client).run.exec machine choices world).state

theorem consistent_empty : World.empty.Consistent := by
  have missing : ∀ id, World.empty.network id = none := by
    intro id
    unfold World.network
    split <;> rfl
  refine ⟨?_, ?_, ?_⟩
  · intro id content recorded
    rw [missing] at recorded
    cases recorded
  · intro id other number recorded
    rw [missing] at recorded
    cases recorded
  · intro n content stored
    cases stored

theorem Visited.consistent {client : Client} {world : World} (visited : Visited client world) :
    world.Consistent := by
  induction visited with
  | empty => exact consistent_empty
  | @call world call choices _ ih =>
    have kept : Returns consistency World.Consistent (call.program client)
        (fun _ => World.Consistent) World.Consistent := kept_consistent.returns_call call
    have isFair : (call.program client).run.FairRun machine consistency.fair choices world :=
      fairRun_of_forall (fun _ _ _ _ => trivial) _ world
    cases returned : ((call.program client).run.exec machine choices world).value with
    | none =>
      rcases Triple.interrupted kept ih isFair returned with ⟨_, consistent⟩
      exact consistent
    | some result =>
      have after := Triple.returned kept ih isFair returned
      cases result <;> exact after

end Kiac.Krunkit
