import Kiac.Text.HttpsUrl
import Kiac.ExternalWorker.Ownership

/-!
# When the file of a worker is read back

A configuration is checked when a worker is joined, and the state that is made of it is checked
again when its file is read. The two checks differ in three points: the path of the server, the
length of the node's UID and the length of the file.
-/

namespace Kiac.Worker

theorem isPlain_of_isHostByte {b : UInt8} (isHost : Url.isHostByte b) :
    Str.isPlain b := by
  have each : ∀ b : UInt8, Url.isHostByte b → Str.isPlain b :=
    Str.forall_byte (by decide +kernel)
  exact each b isHost

section Server

/-- The server of an accepted configuration, as it is given and as it is recorded. -/
structure IsServer (given recorded : Str) where
  name : Str
  address : Str
  port : Str
  slash : Bool
  force : Bool
  dotted : ∀ b ∈ address, Url.isDotted b = true
  digits : ∀ b ∈ port, Str.isDigit b = true
  length_name : name.length = 5
  isGiven : (given.cut (byte '#')).1 =
    name ++ str "://" ++ (address ++ byte ':' :: port) ++ Url.tail slash force
  isRecorded : recorded =
    str "https://" ++ (address ++ byte ':' :: port) ++ Url.tail (slash && force) force

variable {address port before : Str}

theorem endpoint_eq_concat (dotted : ∀ b ∈ address, Url.isDotted b)
    (digits : ∀ b ∈ port, Str.isDigit b) :
    ∃ init last, address ++ byte ':' :: port = init ++ [last] ∧ last ≠ byte '/' ∧
      last ≠ byte '?' := by
  rcases List.eq_nil_or_concat (address ++ byte ':' :: port) with empty | ⟨init, last, isHost⟩
  · simp at empty
  · have inHost : last ∈ address ++ byte ':' :: port := by
      rw [isHost, List.concat_eq_append]
      simp
    have spec := Url.isHostByte_spec (Url.isHostByte_endpoint dotted digits last inHost)
    rw [List.concat_eq_append] at isHost
    exact ⟨init, last, isHost, spec.2.2.2.1, spec.2.2.2.2.1⟩

theorem trimSuffix_endpoint
    (dotted : ∀ b ∈ address, Url.isDotted b) (digits : ∀ b ∈ port, Str.isDigit b)
    (slash force : Bool) :
    Str.trimSuffix (before ++ (address ++ byte ':' :: port) ++ Url.tail slash force) (str "/") =
      before ++ (address ++ byte ':' :: port) ++ Url.tail (slash && force) force := by
  rcases endpoint_eq_concat dotted digits with ⟨init, last, isHost, notSlash, _⟩
  rw [isHost]
  cases force with
  | true =>
    have kept : Str.hasSuffix (before ++ (init ++ [last]) ++ Url.tail slash true) (str "/") =
        false := by
      rw [Url.tail, ← List.append_assoc]
      exact (Str.hasSuffix_concat _ [] (byte '?') (byte '/')).trans rfl
    rw [Str.trimSuffix, kept, Bool.and_true]
    rfl
  | false =>
    cases slash with
    | true => exact (Str.trimSuffix_append _ (str "/")).trans (List.append_nil _).symm
    | false =>
      have kept : Str.hasSuffix (before ++ (init ++ [last]) ++ Url.tail false false)
          (str "/") = false := by
        have ends : before ++ (init ++ [last]) ++ Url.tail false false =
            before ++ init ++ [last] := by simp [Url.tail]
        rw [ends]
        refine (Str.hasSuffix_concat _ [] last (byte '/')).trans ?_
        simp [notSlash.symm]
      rw [Str.trimSuffix, kept]
      rfl

theorem hasSuffix_endpoint
    (dotted : ∀ b ∈ address, Url.isDotted b) (digits : ∀ b ∈ port, Str.isDigit b)
    (slash force : Bool) :
    Str.hasSuffix (before ++ (address ++ byte ':' :: port) ++ Url.tail slash force) (str "/?") =
      (slash && force) := by
  rcases endpoint_eq_concat dotted digits with ⟨init, last, isHost, notSlash, notQuery⟩
  rw [isHost]
  cases force with
  | true =>
    cases slash with
    | true => exact Str.hasSuffix_iff.mpr (List.suffix_append _ _)
    | false =>
      have ends : before ++ (init ++ [last]) ++ Url.tail false true =
          before ++ init ++ [last] ++ [byte '?'] := by
        simp [Url.tail]
        rfl
      rw [ends]
      refine (Str.hasSuffix_concat _ [byte '/'] (byte '?') (byte '?')).trans ?_
      rw [show [byte '/'] = [] ++ [byte '/'] from rfl, Str.hasSuffix_concat]
      simp [notSlash.symm]
  | false =>
    have ends : ∃ front final, before ++ (init ++ [last]) ++ Url.tail slash false =
        front ++ [final] ∧ final ≠ byte '?' := by
      cases slash with
      | true => exact ⟨before ++ (init ++ [last]), byte '/', by simp [Url.tail]; rfl, by decide⟩
      | false => exact ⟨before ++ init, last, by simp [Url.tail], notQuery⟩
    rcases ends with ⟨front, final, ends, other⟩
    rw [ends, Bool.and_false]
    refine (Str.hasSuffix_concat _ [byte '/'] final (byte '?')).trans ?_
    simp [other.symm]

theorem isServer_of_parseServer {given recorded : Str} {ip : BitVec 32}
    (ok : parseServer given = .ok (recorded, ip)) : Nonempty (IsServer given recorded) := by
  unfold parseServer at ok
  split at ok
  · cases ok
  · rename_i url parsed
    split_ifs at ok with invalid
    split at ok
    · rename_i ip' port isAddress isPort
      split_ifs at ok
      push Not at invalid
      have hasPort : url.port ≠ [] := by
        intro empty
        rw [empty] at isPort
        cases isPort
      have short : url.path = [] ∨ url.path = str "/" := by
        by_cases empty : url.path = []
        · exact Or.inl empty
        · exact Or.inr (invalid.2.2.2.2 empty)
      rcases Url.endpoint_of_parse parsed invalid.1 invalid.2.1 invalid.2.2.1 invalid.2.2.2.1 short
        isAddress hasPort with
        ⟨name, address, digits, slash, force, isDotted, isDigits, length, isText, rfl⟩
      refine ⟨⟨name, address, digits, slash, force, isDotted, isDigits, length, isText, ?_⟩⟩
      simp only [Except.ok.injEq, Prod.mk.injEq] at ok
      rw [← ok.1, Url.text_ofEndpoint isDotted isDigits, trimSuffix_endpoint isDotted isDigits]
    · cases ok

variable {given recorded : Str}

namespace IsServer

variable (server : IsServer given recorded)

include server

theorem hasSuffix_given :
    Str.hasSuffix (given.cut (byte '#')).1 (str "/?") = (server.slash && server.force) := by
  rw [server.isGiven, hasSuffix_endpoint server.dotted server.digits]

theorem validServer_recorded :
    validServer recorded = !Str.hasSuffix (given.cut (byte '#')).1 (str "/?") := by
  have parsed := Url.parse_endpoint server.dotted server.digits (server.slash && server.force)
    server.force
  rw [← server.isRecorded] at parsed
  rw [server.hasSuffix_given, validServer, parsed]
  cases server.slash && server.force with
  | true =>
    have rooted : str "/" ≠ [] := by decide
    simp [Url.ofEndpoint, rooted]
  | false => simp [Url.ofEndpoint]

theorem length_recorded :
    recorded.length = ((given.cut (byte '#')).1.trimSuffix (str "/")).length := by
  have lengths := congrArg List.length server.isRecorded
  rw [server.isGiven, trimSuffix_endpoint server.dotted server.digits, lengths]
  simp only [List.length_append, server.length_name]
  rfl

theorem isPlain_recorded : ∀ b ∈ recorded, Str.isPlain b := by
  rw [server.isRecorded]
  intro b mem
  rcases List.mem_append.mp mem with mem | mem
  · rcases List.mem_append.mp mem with mem | mem
    · exact (by decide +kernel : ∀ b ∈ str "https://", Str.isPlain b = true) b mem
    · exact isPlain_of_isHostByte (Url.isHostByte_endpoint server.dotted server.digits b mem)
  · have each : ∀ slash force : Bool, ∀ b ∈ Url.tail slash force, Str.isPlain b = true := by
      decide +kernel
    exact each _ _ b mem

end IsServer

end Server

section Texts

theorem isPlain_of_validWorkerName {name : Str} (valid : validWorkerName name) :
    ∀ b ∈ name, Str.isPlain b := by
  have each : ∀ b : UInt8, (isLowerAlnum b || b == byte '-') → Str.isPlain b :=
    Str.forall_byte (by decide +kernel)
  simp only [validWorkerName, Bool.and_eq_true, List.all_eq_true] at valid
  exact fun b mem => each b (valid.1.1.2 b mem)

variable {text s : Str}

theorem isPlain_of_parseUnicast4 {ip : BitVec 32}
    (parsed : Netip.parseUnicast4 text = some ip) : ∀ b ∈ text, Str.isPlain b :=
  fun b mem => isPlain_of_isHostByte
    (Url.isHostByte_of_isDotted (Url.isDotted_of_parseUnicast4 parsed b mem))

theorem isDigit_of_parseDigits {value : ℕ} (parsed : Str.parseDigits s = some value) :
    ∀ b ∈ s, Str.isDigit b := by
  unfold Str.parseDigits at parsed
  split_ifs at parsed with invalid
  simp only [Bool.or_eq_true, not_or, Bool.not_eq_true', Bool.not_eq_false] at invalid
  exact List.all_eq_true.mp invalid.2

theorem isPlain_of_workerPrefix {range : Netip.Range}
    (parsed : workerPrefix text = some range) : ∀ b ∈ text, Str.isPlain b := by
  unfold workerPrefix at parsed
  split at parsed
  · rename_i addr bits isRange
    unfold Netip.parseRange at isRange
    split at isRange
    · cases isRange
    · rename_i i found
      simp only at isRange
      split at isRange
      · cases isRange
      · rename_i isAddr isBits
        split_ifs at isRange
        cases isRange
        intro b mem
        rw [Str.eq_of_lastIndex found] at mem
        simp only [List.mem_append, List.mem_singleton, List.length_singleton] at mem
        rcases mem with (inAddress | rfl) | inBits
        · have dotted := Url.isDotted_of_parseAddr isAddr b inAddress
          exact isPlain_of_isHostByte (Url.isHostByte_of_isDotted dotted)
        · decide
        · have digit := isDigit_of_parseDigits isBits b inBits
          exact isPlain_of_isHostByte (Url.isHostByte_of_isDotted (Url.isDotted_of_isDigit digit))
      · cases isRange
  · cases parsed

theorem hexByte_spec {d : ℕ} (small : d < 16) :
    Str.isHex (Str.hexByte d) ∧ Str.lowerByte (Str.hexByte d) = Str.hexByte d ∧
      Str.isPlain (Str.hexByte d) := by
  interval_cases d <;> decide

theorem ownerText_spec (id : OwnerBytes) :
    ∀ b ∈ ownerText id, Str.isHex b ∧ Str.lowerByte b = b ∧ Str.isPlain b := by
  intro b mem
  rcases List.mem_flatMap.mp mem with ⟨value, _, isDigit⟩
  have bound := value.toNat_lt
  simp only [List.mem_cons, List.not_mem_nil, or_false] at isDigit
  rcases isDigit with rfl | rfl
  · exact hexByte_spec (by omega)
  · exact hexByte_spec (by omega)

theorem lowerByte_spec {b : UInt8} (hex : Str.isHex b) :
    Str.isHex (Str.lowerByte b) ∧ Str.lowerByte (Str.lowerByte b) = Str.lowerByte b ∧
      Str.isPlain (Str.lowerByte b) := by
  have each : ∀ b : UInt8, Str.isHex b = true → Str.isHex (Str.lowerByte b) = true ∧
      Str.lowerByte (Str.lowerByte b) = Str.lowerByte b ∧
      Str.isPlain (Str.lowerByte b) = true := Str.forall_byte (by decide +kernel)
  exact each b hex

theorem toLower_eq_self (lower : ∀ b ∈ s, Str.lowerByte b = b) : s.toLower = s := by
  rw [Str.toLower, List.map_congr_left lower, List.map_id']

theorem release_spec {version : Str} (release : version ∈ k3sReleases) :
    normalizeK3sStateVersion version = version ∧ ∀ b ∈ version, Str.isPlain b := by
  revert version
  decide +kernel

end Texts

def Progress (phase : Phase) (uid : Str) : Prop :=
  ((phase = .creating ∨ phase = .joining) ∧ uid = []) ∨
    (phase = .ready ∧ uid ≠ [] ∧ Str.IsText uid)

def stateOf (p : Prepared) (id : OwnerBytes) (now : ℕ) (phase : Phase) (uid : Str) :
    ExternalWorkerState :=
  { newExternalWorkerState p id now with nodeUID := uid, phase := phase }

def inventorySize (cfg : ExternalWorkerConfig) (phase : Phase) (created uid : Str) : ℕ :=
  378 + 2 * cfg.name.length + ((cfg.server.cut (byte '#')).1.trimSuffix (str "/")).length +
    cfg.nodeIP.length + ((resolveGPUVersion cfg.k8sVersion).getD []).length +
    cfg.podCIDR.length + cfg.serviceCIDR.length + phase.text.length +
    (Str.quote created).length + (if uid = [] then 0 else 15 + (Str.quote uid).length)

/-- The check of a configuration and the check of a file agree: the server does not end in a slash
and an empty query, the UID has at most 128 bytes and the file at most 64 KiB. -/
def Fits (cfg : ExternalWorkerConfig) (phase : Phase) (created uid : Str) : Prop :=
  Str.hasSuffix (cfg.server.cut (byte '#')).1 (str "/?") = false ∧ uid.length ≤ 128 ∧
    inventorySize cfg phase created uid ≤ 64 * 1024

theorem release_of_prepare {files : Str → Option Str} {cfg : ExternalWorkerConfig} {p : Prepared}
    (ok : prepareExternalWorker files cfg = .ok p) :
    resolveGPUVersion cfg.k8sVersion = some p.config.k8sVersion ∧
      p.config.k8sVersion ∈ k3sReleases := by
  simp only [prepareExternalWorker, bind_eq_ok, provided_eq_ok] at ok
  rcases ok with ⟨_, _, _, _, _, _, _, _, _, _, version, resolved, _, _, _, _, _, _, _, _, _, _, _,
    _, _, _, _, _, _, _, _, _, same⟩
  cases same
  have release := mem_of_resolveGPUVersion resolved
  have normal := (release_spec release).1
  simp only [normal]
  exact ⟨resolved, release⟩

section Files

variable {codec : Codec} {files : Str → Option Str} {cfg : ExternalWorkerConfig} {p : Prepared}
variable (id : OwnerBytes) (now : ℕ) {phase : Phase} {created uid : Str}

theorem isPlain_phase (progress : Progress phase uid) :
    ∀ b ∈ phase.text, Str.isPlain b := by
  rcases progress with ⟨rfl | rfl, _⟩ | ⟨rfl, _⟩
  · decide +kernel
  · decide +kernel
  · decide +kernel

theorem isPlain_texts (ok : prepareExternalWorker files cfg = .ok p)
    (progress : Progress phase uid) :
    ∀ text ∈ (stateOf p id now phase []).texts, ∀ b ∈ text, Str.isPlain b := by
  have accepted := accepted_of_prepare ok
  rcases accepted.server with ⟨_, isServer⟩
  rcases isServer_of_parseServer isServer with ⟨server⟩
  rcases accepted.ranges with ⟨node, pod, service, isNode, isPod, isService, _⟩
  rcases accepted.caHash with ⟨hash, isHash, _, hex⟩
  have name := isPlain_of_validWorkerName accepted.validName
  have owner : ∀ b ∈ ownerText id, Str.isPlain b := fun b mem => (ownerText_spec id b mem).2.2
  simp only [ExternalWorkerState.texts, stateOf, newExternalWorkerState, List.forall_mem_cons, and_true, accepted.name, accepted.nodeIP, accepted.podCIDR,
    accepted.serviceCIDR, List.not_mem_nil, IsEmpty.forall_iff, implies_true, true_and]
  refine ⟨name, owner, ?_, ?_, server.isPlain_recorded, isPlain_of_parseUnicast4 isNode,
    (release_spec (release_of_prepare ok).2).2, isPlain_of_workerPrefix isPod,
    isPlain_of_workerPrefix isService, ?_, isPlain_phase progress⟩
  · intro b mem
    simp only [externalVMName, List.mem_append] at mem
    rcases mem with ((inStart | inName) | isDash) | inOwner
    · exact (by decide +kernel : ∀ b ∈ str "kiacx-worker-", Str.isPlain b = true) b inStart
    · exact name b inName
    · exact (by decide +kernel : ∀ b ∈ str "-", Str.isPlain b = true) b isDash
    · exact owner b (List.mem_of_mem_take inOwner)
  · intro b mem
    rcases List.mem_append.mp mem with inStart | inOwner
    · exact (by decide +kernel : ∀ b ∈ str "ext-", Str.isPlain b = true) b inStart
    · exact owner b inOwner
  · rw [isHash]
    intro b mem
    rcases List.mem_map.mp mem with ⟨digit, inHash, rfl⟩
    exact (lowerByte_spec (List.all_eq_true.mp hex digit inHash)).2.2

theorem isText_texts (ok : prepareExternalWorker files cfg = .ok p)
    (progress : Progress phase uid) :
    ∀ text ∈ (stateOf p id now phase uid).texts, Str.IsText text := by
  have isText : Str.IsText uid := by
    rcases progress with ⟨_, rfl⟩ | ⟨_, _, isText⟩
    · exact ⟨[], rfl⟩
    · exact isText
  have plain := isPlain_texts id now ok progress
  have ascii : ∀ text ∈ (stateOf p id now phase []).texts, Str.IsText text :=
    fun text mem => Str.isText_of_lt fun b inText => Str.lt_of_isPlain (plain text mem b inText)
  simp only [ExternalWorkerState.texts, stateOf, List.forall_mem_cons] at ascii ⊢
  tauto

theorem ownershipMatches_stateOf (progress : Progress phase uid) :
    ownershipMatches p.config.name (stateOf p id now phase uid) := by
  have owner := ownerText_spec id
  have isHex : hexBytes (ownerText id) = some 16 := by
    rw [hexBytes, length_ownerText, if_pos ⟨rfl, List.all_eq_true.mpr fun b mem => (owner b mem).1⟩]
  have lower := toLower_eq_self fun b mem => (owner b mem).2.1
  simp only [ownershipMatches, stateOf, newExternalWorkerState, isHex, lower, beq_self_eq_true,
    Bool.true_and]
  rcases progress with ⟨rfl | rfl, _⟩ | ⟨rfl, recorded, _⟩
  · rfl
  · rfl
  · simpa using recorded

theorem validMetadata_stateOf (ok : prepareExternalWorker files cfg = .ok p) (phase : Phase)
    (uid : Str) :
    validMetadata (stateOf p id now phase uid) ↔
      Str.hasSuffix (cfg.server.cut (byte '#')).1 (str "/?") = false ∧ uid.length ≤ 128 := by
  have accepted := accepted_of_prepare ok
  rcases accepted.server with ⟨_, isServer⟩
  rcases isServer_of_parseServer isServer with ⟨server⟩
  rcases accepted.ranges with ⟨node, pod, service, isNode, isPod, isService, apart⟩
  rcases accepted.caHash with ⟨hash, isHash, length, hex⟩
  have digits := List.all_eq_true.mp hex
  have isHex : hexBytes p.caHash = some 32 := by
    have all : (hash.toLower).all Str.isHex := by
      rw [List.all_eq_true]
      intro b mem
      rcases List.mem_map.mp mem with ⟨digit, inHash, rfl⟩
      exact (lowerByte_spec (digits digit inHash)).1
    rw [isHash, hexBytes, if_pos ⟨by rw [Str.toLower, List.length_map, length], all⟩, Str.toLower,
      List.length_map, length]
  have lower : p.caHash.toLower = p.caHash := by
    rw [isHash]
    apply toLower_eq_self
    intro b mem
    rcases List.mem_map.mp mem with ⟨digit, inHash, rfl⟩
    exact (lowerByte_spec (digits digit inHash)).2.1
  have ranges : validRanges p.config.nodeIP p.config.podCIDR p.config.serviceCIDR := by
    rw [accepted.nodeIP, accepted.podCIDR, accepted.serviceCIDR, validRanges, isNode, isPod,
      isService]
    simp only [apart, Bool.not_false]
  have release := List.contains_iff_mem.mpr (release_of_prepare ok).2
  simp only [validMetadata, stateOf, newExternalWorkerState, server.validServer_recorded, isHex,
    lower, ranges, release, beq_self_eq_true, Option.isSome_some, Bool.and_true, Bool.and_eq_true,
    Bool.not_eq_true']
  exact and_congr_right fun _ => decide_eq_true_iff

theorem length_fieldText (field : Str × Str) :
    (fieldText field).length = 6 + field.1.length + field.2.length := by
  have marks : (str "  \"").length = 3 ∧ (str "\": ").length = 3 := by decide
  simp only [fieldText, List.length_append]
  omega

theorem length_lines (first : Str × Str) (rest : List (Str × Str)) :
    (List.intercalate (str ",\n") ((first :: rest).map fieldText)).length + 2 =
      ((first :: rest).map fun field => 8 + field.1.length + field.2.length).sum := by
  have comma : (str ",\n").length = 2 := by decide
  induction rest generalizing first with
  | nil =>
    simp [List.intercalate, length_fieldText]
    omega
  | cons second rest ih =>
    have later := ih second
    simp only [List.map_cons, List.intercalate, List.intersperse_cons_cons, List.flatten_cons,
      List.length_append, List.sum_cons, length_fieldText] at later ⊢
    omega

theorem length_fileText (ok : prepareExternalWorker files cfg = .ok p)
    (progress : Progress phase uid) :
    (fileText (stateOf p id now phase uid) created).length =
      inventorySize cfg phase created uid := by
  have accepted := accepted_of_prepare ok
  rcases accepted.server with ⟨_, isServer⟩
  rcases isServer_of_parseServer isServer with ⟨server⟩
  rcases accepted.caHash with ⟨hash, isHash, length, _⟩
  have lengths : ∀ text ∈ (stateOf p id now phase []).texts,
      (Str.quote text).length = text.length + 2 :=
    fun text mem => Str.length_quote_of_isPlain (isPlain_texts id now ok progress text mem)
  simp only [ExternalWorkerState.texts, stateOf, newExternalWorkerState, List.forall_mem_cons,
    externalVMName, externalNetworkID] at lengths
  rcases lengths with ⟨name, owner, vm, network, address, node, version, pod, service, hash', _,
    isPhase, _⟩
  have keys : (str "schema").length = 6 ∧ (str "name").length = 4 ∧ (str "ownerID").length = 7 ∧
      (str "vmName").length = 6 ∧ (str "networkID").length = 9 ∧ (str "server").length = 6 ∧
      (str "nodeIP").length = 6 ∧ (str "k8sVersion").length = 10 ∧ (str "podCIDR").length = 7 ∧
      (str "serviceCIDR").length = 11 ∧ (str "caHash").length = 6 ∧ (str "nodeUID").length = 7 ∧
      (str "phase").length = 5 ∧ (str "created").length = 7 := by decide
  have braces : (str "\x7b\n").length = 2 ∧ (str "\n\x7d\n").length = 3 ∧
      (Str.formatNat 1).length = 1 := by decide
  have starts : (str "kiacx-worker-").length = 13 ∧ (str "-").length = 1 ∧
      (str "ext-").length = 4 := by decide
  have isOwner := length_ownerText id
  have release : (resolveGPUVersion cfg.k8sVersion).getD [] = p.config.k8sVersion := by
    rw [(release_of_prepare ok).1]
    rfl
  have isLength : p.caHash.length = 64 := by rw [isHash, Str.toLower, List.length_map, length]
  have lines := length_lines (str "schema", Str.formatNat (stateOf p id now phase uid).schema)
    (fields (stateOf p id now phase uid) created).tail
  rw [inventorySize, ← server.length_recorded, release, ← accepted.name, ← accepted.nodeIP,
    ← accepted.podCIDR, ← accepted.serviceCIDR, fileText, List.length_append, List.length_append]
  simp only [List.length_append, List.length_take, isOwner] at vm network
  have uidField : ∃ field : List (Str × Str),
      (if (stateOf p id now phase uid).nodeUID = [] then []
        else [(str "nodeUID", Str.quote (stateOf p id now phase uid).nodeUID)]) = field ∧
      (field.map fun field => 8 + field.1.length + field.2.length).sum =
        if uid = [] then 0 else 15 + (Str.quote uid).length := by
    refine ⟨_, rfl, ?_⟩
    by_cases empty : uid = []
    · rw [if_pos empty, if_pos (show (stateOf p id now phase uid).nodeUID = [] from empty)]
      rfl
    · rw [if_neg empty, if_neg (show (stateOf p id now phase uid).nodeUID ≠ [] from empty)]
      simp [keys, stateOf]
  rcases uidField with ⟨field, isField, size⟩
  simp only [fields, isField] at lines ⊢
  simp only [stateOf, newExternalWorkerState, externalVMName, externalNetworkID, List.cons_append,
    List.nil_append, List.tail_cons, List.map_cons, List.map_append, List.sum_cons,
    List.sum_append, List.map_nil, List.sum_nil] at lines ⊢
  omega

theorem readBack_stateOf (ok : prepareExternalWorker files cfg = .ok p)
    (progress : Progress phase uid) (isTime : codec.timeText now = some created)
    (reads : codec.Reads (stateOf p id now phase uid)) :
    codec.readBack p.config.name (stateOf p id now phase uid) = .ok (stateOf p id now phase uid) ↔
      Fits cfg phase created uid := by
  have accepted := accepted_of_prepare ok
  have parsed := reads now created rfl isTime (isText_texts id now ok progress)
  have marshalled : codec.marshal (stateOf p id now phase uid) =
      some (fileText (stateOf p id now phase uid) created) := by
    change (codec.timeText now).map _ = _
    rw [isTime]
    rfl
  have named : validWorkerName p.config.name := by
    rw [accepted.name]
    exact accepted.validName
  have metadata := validMetadata_stateOf id now ok phase uid
  rw [Codec.readBack, marshalled]
  simp only [Codec.readFile, named, parsed, length_fileText id now ok progress, Fits,
    ownershipMatches_stateOf id now progress, Bool.not_true, Bool.false_eq_true, if_false]
  rw [← and_assoc, ← metadata]
  by_cases long : 64 * 1024 < inventorySize cfg phase created uid
  · rw [if_pos long]
    exact ⟨nofun, fun fits => absurd fits.2 (by omega)⟩
  · rw [if_neg long]
    cases validMetadata (stateOf p id now phase uid) with
    | false => simp
    | true => simpa using Nat.not_lt.mp long

end Files

end Kiac.Worker
