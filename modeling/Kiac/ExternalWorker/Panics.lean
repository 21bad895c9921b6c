import Kiac.ExternalWorker.Manager

/-!
# Inputs of an external worker that panic

`externalWorkerSize` divides by the multiplier of a unit, which is zero for a unit that is not in
the table. The regular expression ignores case and so accepts a Kelvin sign for a `K`. The slices of
the token and of the owner are guarded by the checks before them.
-/

namespace Kiac.Worker

def kelvinSign : Str := [0xE2, 0x84, 0xAA]

def KelvinSize (value : Str) : Prop :=
  ∃ digits rest count, value = digits ++ kelvinSign ++ rest ∧ Str.parseDigits digits = some count ∧
    count ≤ Str.maxInt ∧ digits.head? ≠ some (byte '0') ∧ Str.toLower rest ∈ [[], str "b", str "ib"]

def ReachesSizes (cfg : ExternalWorkerConfig) : Prop :=
  validWorkerName cfg.name = true ∧
    (∃ server node, parseServer cfg.server = .ok server ∧
      Netip.parseUnicast4 cfg.nodeIP = some node ∧ node ≠ server.2) ∧
    cfg.k8sVersion ≠ [] ∧ (resolveGPUVersion cfg.k8sVersion).isSome = true ∧
    ∃ cpus, Str.atoi (orDefault cfg.cpus (str "2")) = some cpus ∧ 1 ≤ cpus ∧ cpus ≤ 32

def memoryValid (cfg : ExternalWorkerConfig) : Prop :=
  checkSize .memory (orDefault cfg.memory (str "2G")) (2 ^ 30) (60 * 2 ^ 30) (2 ^ 20) = .ok ()

/-- Every release has a dot, before which `ResolveGPUVersion` slices it. -/
def ReleasesSliced : Prop :=
  ∀ release ∈ k3sReleases, (Str.lastIndex (str ".") (release.trimPrefix (str "v"))).isSome = true

/-- The conditions of `read` on the owner, in their order; the name of the VM has a slice of the
owner in it. -/
def checkOwnership (name : Str) (state : ExternalWorkerState) : Except Fault Bool :=
  if state.schema == 1 && state.name == name && hexBytes state.ownerID == some 16 &&
      state.ownerID == Str.toLower state.ownerID then do
    let owner ← slice state.ownerID 0 12
    pure (state.vmName == str "kiacx-worker-" ++ name ++ str "-" ++ owner &&
      ownershipMatches name state)
  else pure false

/-- `read`, where the slice may panic. -/
def Codec.readSliced (codec : Codec) (name raw : Str) :
    Except Fault (Except InventoryErr ExternalWorkerState) :=
  if !validWorkerName name then pure (.error .name)
  else if 64 * 1024 < raw.length then pure (.error .tooLong)
  else
    match codec.unmarshal raw with
    | none => pure (.error .parse)
    | some state => do
        let isOwn ← checkOwnership name state
        pure (if !isOwn then .error .ownership
          else if !validMetadata state then .error .metadata
          else .ok state)

theorem sizeUnit_eq_zero_iff {s rest : Str} :
    sizeUnit s = some (0, rest) ↔ s = kelvinSign ++ rest := by
  constructor
  · intro unit
    unfold sizeUnit at unit
    split at unit
    · cases unit
      rfl
    · split_ifs at unit <;> simp at unit
    · cases unit
  · rintro rfl
    rfl

theorem externalWorkerSize_eq_panic_iff {value : Str} :
    externalWorkerSize value = .error .panic ↔ KelvinSize value := by
  constructor
  · intro panics
    simp only [externalWorkerSize] at panics
    split at panics
    · rename_i first multiplier rest isFirst isUnit
      split at panics
      · cases panics
      · rename_i accepted
        rw [not_or, not_not] at accepted
        split at panics
        · cases panics
        · rename_i count isCount
          split_ifs at panics with large isZero
          · cases panics
          · subst isZero
            refine ⟨_, rest, count, ?_, isCount, not_lt.mp large, ?_, accepted.2⟩
            · rw [List.append_assoc, ← sizeUnit_eq_zero_iff.mp isUnit]
              exact (List.prefix_iff_eq_append.mp (List.takeWhile_prefix _)).symm
            · simpa [isFirst] using accepted.1
          · cases panics
    · cases panics
  · rintro ⟨digits, rest, count, rfl, isCount, fits, first, ending⟩
    have digit : ∀ b ∈ digits, Str.isDigit b := fun b mem =>
      Str.isDigit_of_mem_parseDigits isCount mem
    have digits_eq : (digits ++ kelvinSign ++ rest).takeWhile Str.isDigit = digits := by
      rw [List.append_assoc, List.takeWhile_append_of_pos digit]
      exact List.append_nil _
    rcases digits with _ | ⟨b, digits⟩
    · cases isCount
    · have unit : sizeUnit ((b :: digits ++ kelvinSign ++ rest).drop (b :: digits).length) =
          some (0, rest) := by
        rw [List.append_assoc, List.drop_left, sizeUnit_eq_zero_iff]
      simp only [externalWorkerSize, digits_eq, unit, isCount, List.head?_cons, if_true]
      simp only [List.head?_cons, ne_eq, Option.some.injEq] at first
      rw [if_neg (not_or.mpr ⟨first, not_not.mpr ending⟩), if_neg (not_lt.mpr fits)]

@[simp]
theorem bind_eq_panic {α β : Type} {result : Except Fault α} {next : α → Except Fault β} :
    result >>= next = .error .panic ↔
      result = .error .panic ∨ ∃ value, result = .ok value ∧ next value = .error .panic := by
  cases result <;> simp [bind, Except.bind]

@[simp]
theorem demand_ne_panic (holds : Bool) (err : ConfigErr) : demand holds err ≠ .error .panic := by
  cases holds <;> simp [demand]

@[simp]
theorem provided_ne_panic {α : Type} (err : ConfigErr) (value : Option α) :
    provided err value ≠ .error .panic := by
  cases value <;> simp [provided]

@[simp]
theorem parseServer_ne_panic (server : Str) : parseServer server ≠ .error .panic := by
  unfold parseServer
  split
  · simp
  · split_ifs
    · simp
    · split
      · split_ifs <;> simp
      · simp

@[simp]
theorem slice_eq_panic_iff {s : Str} {start stop : ℕ} :
    slice s start stop = .error .panic ↔ ¬ (start ≤ stop ∧ stop ≤ s.length) := by
  unfold slice
  split <;> simp_all

@[simp]
theorem parseToken_ne_panic (raw : Str) : parseToken raw ≠ .error .panic := by
  intro panics
  simp only [parseToken, bind_eq_panic, demand_ne_panic, demand_eq_ok, slice_eq_panic_iff, false_or,
    Bool.and_eq_true, decide_eq_true_eq] at panics
  rcases panics with ⟨_, ⟨long, _⟩, short | ⟨_, _, _, _, short | ⟨_, _, _, _, short | ⟨_, _, _, _, impossible⟩⟩⟩⟩
  · omega
  · omega
  · omega
  · cases impossible

@[simp]
theorem parsePeer_ne_panic (raw : Str) (serverIP nodeIP : BitVec 32) (pod service : Netip.Range) :
    parsePeer raw serverIP nodeIP pod service ≠ .error .panic := by
  cases parsed : parseWorkerWireGuard raw <;>
    simp [parsePeer, parsed, Except.mapError, pure, Except.pure]

theorem checkSize_eq_panic_iff {err : ConfigErr} {value : Str} {least most unit : ℕ} :
    checkSize err value least most unit = .error .panic ↔ KelvinSize value := by
  rw [← externalWorkerSize_eq_panic_iff, checkSize]
  split <;> simp_all

theorem checkOwnership_eq (name : Str) (state : ExternalWorkerState) :
    checkOwnership name state = .ok (ownershipMatches name state) := by
  unfold checkOwnership
  split
  · rename_i before
    have isOwner : hexBytes state.ownerID = some 16 := by
      simp only [Bool.and_eq_true, beq_iff_eq] at before
      exact before.1.2
    have long : state.ownerID.length = 32 := by
      unfold hexBytes at isOwner
      split_ifs at isOwner
      rw [Option.some.injEq] at isOwner
      omega
    have sliced : slice state.ownerID 0 12 = .ok (state.ownerID.take 12) := by
      simp [slice, long]
    rw [sliced]
    cases own : ownershipMatches name state with
    | false => exact congrArg Except.ok (Bool.and_false _)
    | true =>
      simp only [ownershipMatches, externalVMName, Bool.and_eq_true] at own
      exact congrArg Except.ok ((Bool.and_true _).trans own.1.1.2)
  · rename_i other
    simp only [ownershipMatches, other, Bool.false_and]
    rfl

theorem readSliced_eq (codec : Codec) (name raw : Str) :
    codec.readSliced name raw = .ok (codec.readFile name raw) := by
  unfold Codec.readSliced Codec.readFile
  split_ifs
  · rfl
  · rfl
  · cases codec.unmarshal raw with
    | none => rfl
    | some state =>
      simp only [checkOwnership_eq]
      rfl

/-- Whatever the files hold, neither call panics, unless the sizes are reached and one has a Kelvin
sign for its unit. -/
theorem input_neverPanics_iff (cfg : ExternalWorkerConfig) :
    ((∀ files, prepareExternalWorker files cfg ≠ .error .panic) ∧
      (∀ (codec : Codec) name raw, codec.readSliced name raw ≠ .error .panic) ∧ ReleasesSliced) ↔
      (ReachesSizes cfg → ¬ KelvinSize (orDefault cfg.memory (str "2G")) ∧
        (memoryValid cfg → ¬ KelvinSize (orDefault cfg.diskSize (str "20G")))) := by
  have panics : ∀ files, prepareExternalWorker files cfg = .error .panic ↔ ReachesSizes cfg ∧
      (KelvinSize (orDefault cfg.memory (str "2G")) ∨
        memoryValid cfg ∧ KelvinSize (orDefault cfg.diskSize (str "20G"))) := by
    intro files
    simp only [prepareExternalWorker, parseRanges, checkSize_eq_panic_iff, demand_eq_ok,
      provided_eq_ok, bind_eq_panic, demand_ne_panic, provided_ne_panic, parseServer_ne_panic,
      parseToken_ne_panic, parsePeer_ne_panic, pure, Except.pure, reduceCtorEq, and_false, or_false,
      false_or, exists_false, exists_and_left, bne_iff_ne, Bool.and_eq_true, decide_eq_true_eq,
      Option.isSome_iff_exists, Unique.exists_iff, ReachesSizes, memoryValid]
    constructor
    · rintro ⟨isName, server, isServer, node, isNode, apart, given, version, resolved, cpus, isCPUs,
        inRange, kelvin⟩
      exact ⟨⟨isName, ⟨server, isServer, node, isNode, apart⟩, given, ⟨version, resolved⟩, cpus,
        isCPUs, inRange⟩, kelvin⟩
    · rintro ⟨⟨isName, ⟨server, isServer, node, isNode, apart⟩, given, ⟨version, resolved⟩, cpus,
        isCPUs, inRange⟩, kelvin⟩
      exact ⟨isName, server, isServer, node, isNode, apart, given, version, resolved, cpus, isCPUs,
        inRange, kelvin⟩
  have sliced : ReleasesSliced := by
    unfold ReleasesSliced
    decide +kernel
  simp only [readSliced_eq, panics, sliced, ne_eq, reduceCtorEq, not_false_eq_true, implies_true, and_true,
    forall_const]
  tauto

theorem panics_kelvin :
    prepareExternalWorker sampleFiles { sampleConfig with memory := str "1" ++ kelvinSign } =
      .error .panic := by
  decide +kernel

end Kiac.Worker
