import Kiac.Text.Url
import Kiac.ExternalWorker.WireGuard

/-!
# The configuration of an external worker

`prepareExternalWorker` checks a configuration and the private files that it names, before
anything is created.
-/

namespace Kiac.Worker

structure ExternalWorkerConfig where
  name : Str
  server : Str
  tokenFile : Str
  wireGuardFile : Str
  nodeIP : Str
  k8sVersion : Str
  podCIDR : Str
  serviceCIDR : Str
  cpus : Str
  memory : Str
  diskSize : Str
  /-- In nanoseconds. -/
  waitTimeout : ℤ
deriving DecidableEq

/-- `preparedExternalWorker`. -/
structure Prepared where
  config : ExternalWorkerConfig
  token : Str
  caHash : Str
  wg : WireGuard
deriving DecidableEq

inductive ConfigErr where
  | name
  | server
  | serverAddress
  | nodeIP
  | versionRequired
  | version
  | cpus
  | size
  | memory
  | disk
  | wait
  | podCIDR
  | ranges
  | tokenFile
  | token
  | tokenHash
  | tokenCredentials
  | wireGuardFile
  | wireGuard (err : WireGuardErr)
  | wireGuardAddress
  | routes
deriving DecidableEq

inductive Fault where
  | panic
  | refused (err : ConfigErr)
deriving DecidableEq

def demand (holds : Bool) (err : ConfigErr) : Except Fault Unit :=
  if holds then .ok () else .error (.refused err)

def provided {α : Type} (err : ConfigErr) : Option α → Except Fault α
  | some value => .ok value
  | none => .error (.refused err)

def isLowerAlnum (b : UInt8) : Bool := (byte 'a' ≤ b && b ≤ byte 'z') || Str.isDigit b

/-- `externalWorkerNameRE`. -/
def validWorkerName (name : Str) : Bool :=
  0 < name.length && name.length ≤ 32 && (name.all fun b => isLowerAlnum b || b == byte '-') &&
    name.head?.any isLowerAlnum && name.getLast?.any isLowerAlnum

def parseServer (server : Str) : Except Fault (Str × BitVec 32) :=
  match Url.parse server with
  | none => .error (.refused .server)
  | some url =>
    if url.scheme ≠ str "https" ∨ url.user ≠ none ∨ url.rawQuery ≠ [] ∨ url.fragment ≠ [] ∨
        (url.path ≠ [] ∧ url.path ≠ str "/") then .error (.refused .server)
    else
      match Netip.parseUnicast4 url.hostname, Str.atoi url.port with
      | some ip, some port =>
        if 1 ≤ port ∧ port ≤ 65535 then .ok (url.text.trimSuffix (str "/"), ip)
        else .error (.refused .serverAddress)
      | _, _ => .error (.refused .serverAddress)

/-- The keys of `k3sARM64Assets`, the newest release first. -/
def k3sReleases : List Str :=
  [str "v1.37.0-k3s1", str "v1.36.4-k3s1", str "v1.35.8-k3s1", str "v1.34.11-k3s1",
    str "v1.33.13-k3s1", str "v1.32.13-k3s1"]

/-- `ResolveGPUVersion` for K3s and the device plugin: an exact release, or a minor one. -/
def resolveGPUVersion (version : Str) : Option Str :=
  let requested := (Str.trimSpace version).trimPrefix (str "v")
  let requested :=
    if requested.count (byte '.') = 2 then
      let release := requested.replaceFirst (str "+k3s") (str "-k3s")
      if Str.contains (str "-k3s") release then release else release ++ str "-k3s1"
    else requested
  k3sReleases.find? fun release =>
    let canonical := release.trimPrefix (str "v")
    requested == canonical ||
      requested == canonical.take ((Str.lastIndex (str ".") canonical).getD 0)

def normalizeK3sStateVersion (version : Str) : Str :=
  (Str.trimSpace version).replaceFirst (str "+k3s") (str "-k3s")

/-- The multiplier of a unit and what follows the unit. A Kelvin sign is a `K` for a regular
expression that ignores case, but not a key of the table of multipliers. -/
def sizeUnit : Str → Option (ℕ × Str)
  | 0xE2 :: 0x84 :: 0xAA :: rest => some (0, rest)
  | b :: rest =>
    if Str.lowerByte b = byte 'k' then some (2 ^ 10, rest)
    else if Str.lowerByte b = byte 'm' then some (2 ^ 20, rest)
    else if Str.lowerByte b = byte 'g' then some (2 ^ 30, rest)
    else if Str.lowerByte b = byte 't' then some (2 ^ 40, rest)
    else none
  | [] => none

/-- `externalWorkerSize`. -/
def externalWorkerSize (value : Str) : Except Fault ℕ :=
  let digits := value.takeWhile Str.isDigit
  match digits.head?, sizeUnit (value.drop digits.length) with
  | some first, some (multiplier, rest) =>
    if first = byte '0' ∨ Str.toLower rest ∉ [[], str "b", str "ib"] then
      .error (.refused .size)
    else
      match Str.parseDigits digits with
      | none => .error (.refused .size)
      | some count =>
        if Str.maxInt < count then .error (.refused .size)
        else if multiplier = 0 then .error .panic
        else if Str.maxInt / multiplier < count then .error (.refused .size)
        else .ok (count * multiplier)
  | _, _ => .error (.refused .size)

def checkSize (err : ConfigErr) (value : Str) (least most unit : ℕ) : Except Fault Unit :=
  match externalWorkerSize value with
  | .error .panic => .error .panic
  | .error (.refused _) => .error (.refused err)
  | .ok bytes => demand (least ≤ bytes && bytes ≤ most && bytes % unit == 0) err

def orDefault (value default' : Str) : Str := if value = [] then default' else value

def hasPassword (start creds : Str) : Bool :=
  creds.hasPrefix start && creds.drop start.length != [] &&
    (creds.drop start.length).all (· != byte ':')

def validCredentials (creds : Str) : Bool :=
  hasPassword (str "server:") creds || hasPassword (str "node:") creds ||
    (creds.length == 23 && (creds.take 6).all isLowerAlnum &&
      (creds.drop 6).take 1 == str "." && (creds.drop 7).all isLowerAlnum)

/-- `hex.DecodeString`: how many bytes the text stands for. -/
def hexBytes (s : Str) : Option ℕ :=
  if s.length % 2 = 0 ∧ s.all Str.isHex then some (s.length / 2) else none

/-- `s[start:stop]`, which panics out of range. -/
def slice (s : Str) (start stop : ℕ) : Except Fault Str :=
  if start ≤ stop ∧ stop ≤ s.length then .ok ((s.drop start).take (stop - start))
  else .error .panic

def parseToken (raw : Str) : Except Fault (Str × Str) := do
  let token := Str.trimSpace raw
  demand (70 ≤ token.length && token.hasPrefix (str "K10")) .token
  let separator ← slice token 67 69
  demand (separator == str "::" && !(token.any fun b => [13, 10, 0, 9, 32].contains b)) .token
  let hash ← slice token 3 67
  demand (hexBytes hash).isSome .tokenHash
  let creds ← slice token 69 token.length
  demand (validCredentials creds) .tokenCredentials
  pure (token, Str.toLower hash)

/-- `readWorkerSecret`, given what the private files hold. -/
def readWorkerSecret (files : Str → Option Str) (path : Str) (limit : ℕ) : Option Str :=
  if path = [] then none else (files path).filter fun raw => raw.length ≤ limit

def parseRanges (cfg : ExternalWorkerConfig) (serverIP nodeIP : BitVec 32) :
    Except Fault (Netip.Range × Netip.Range) := do
  let pod ← provided .podCIDR (workerPrefix cfg.podCIDR)
  let service ← provided .ranges (workerPrefix cfg.serviceCIDR)
  demand (!(pod.overlaps service || pod.contains nodeIP || service.contains nodeIP ||
    pod.contains serverIP || service.contains serverIP)) .ranges
  pure (pod, service)

def parsePeer (raw : Str) (serverIP nodeIP : BitVec 32) (pod service : Netip.Range) :
    Except Fault WireGuard := do
  let wg ← (parseWorkerWireGuard raw).mapError fun err => .refused (.wireGuard err)
  demand (match Netip.parseRange wg.address with
    | some (.v4 addr, _) => addr == nodeIP
    | _ => false) .wireGuardAddress
  demand ([⟨serverIP, 32, le_rfl⟩, pod, service].all fun want =>
    workerRouteCovered want wg.allowedIPs) .routes
  pure wg

def prepareExternalWorker (files : Str → Option Str) (cfg : ExternalWorkerConfig) :
    Except Fault Prepared := do
  demand (validWorkerName cfg.name) .name
  let (server, serverIP) ← parseServer cfg.server
  let nodeIP ← provided .nodeIP (Netip.parseUnicast4 cfg.nodeIP)
  demand (nodeIP != serverIP) .nodeIP
  demand (cfg.k8sVersion != []) .versionRequired
  let version ← provided .version (resolveGPUVersion cfg.k8sVersion)
  let cpus ← provided .cpus (Str.atoi (orDefault cfg.cpus (str "2")))
  demand (1 ≤ cpus && cpus ≤ 32) .cpus
  checkSize .memory (orDefault cfg.memory (str "2G")) (2 ^ 30) (60 * 2 ^ 30) (2 ^ 20)
  checkSize .disk (orDefault cfg.diskSize (str "20G")) (8 * 2 ^ 30) (2 ^ 40) 1
  let wait := if cfg.waitTimeout ≤ 0 then 600 * 10 ^ 9 else cfg.waitTimeout
  demand (wait ≤ 3600 * 10 ^ 9) .wait
  let (pod, service) ← parseRanges cfg serverIP nodeIP
  let rawToken ← provided .tokenFile (readWorkerSecret files cfg.tokenFile 4096)
  let (token, caHash) ← parseToken rawToken
  let rawPeer ← provided .wireGuardFile (readWorkerSecret files cfg.wireGuardFile (64 * 1024))
  let wg ← parsePeer rawPeer serverIP nodeIP pod service
  pure
    { config :=
        { cfg with
          server := server
          k8sVersion := normalizeK3sStateVersion version
          cpus := orDefault cfg.cpus (str "2")
          memory := orDefault cfg.memory (str "2G")
          diskSize := orDefault cfg.diskSize (str "20G")
          waitTimeout := wait }
      token := token
      caHash := caHash
      wg := wg }

theorem mapError_eq_ok {ε ε' α : Type} {fault : ε → ε'} {result : Except ε α} {value : α} :
    result.mapError fault = .ok value ↔ result = .ok value := by
  cases result <;> simp [Except.mapError]

theorem demand_eq_ok {holds : Bool} {err : ConfigErr} {value : Unit} :
    demand holds err = .ok value ↔ holds := by
  cases holds <;> simp [demand]

theorem provided_eq_ok {α : Type} {err : ConfigErr} {value : Option α} {inner : α} :
    provided err value = .ok inner ↔ value = some inner := by
  cases value <;> simp [provided]

structure Accepted (cfg : ExternalWorkerConfig) (p : Prepared) : Prop where
  name : p.config.name = cfg.name
  validName : validWorkerName cfg.name = true
  server : ∃ serverIP, parseServer cfg.server = .ok (p.config.server, serverIP)
  nodeIP : p.config.nodeIP = cfg.nodeIP
  release : ∃ version ∈ k3sReleases, p.config.k8sVersion = normalizeK3sStateVersion version
  podCIDR : p.config.podCIDR = cfg.podCIDR
  serviceCIDR : p.config.serviceCIDR = cfg.serviceCIDR
  ranges : ∃ node pod service, Netip.parseUnicast4 cfg.nodeIP = some node ∧
    workerPrefix cfg.podCIDR = some pod ∧ workerPrefix cfg.serviceCIDR = some service ∧
    (pod.overlaps service || pod.contains node || service.contains node) = false
  caHash : ∃ hash : Str, p.caHash = hash.toLower ∧ hash.length = 64 ∧ hash.all Str.isHex = true

theorem slice_eq_ok {s part : Str} {start stop : ℕ} :
    slice s start stop = .ok part ↔
      start ≤ stop ∧ stop ≤ s.length ∧ (s.drop start).take (stop - start) = part := by
  unfold slice
  split <;> simp_all

theorem parseToken_eq_ok {raw token caHash : Str} (ok : parseToken raw = .ok (token, caHash)) :
    ∃ hash : Str, caHash = hash.toLower ∧ hash.length = 64 ∧ hash.all Str.isHex := by
  simp only [parseToken, bind_eq_ok, demand_eq_ok, slice_eq_ok] at ok
  rcases ok with ⟨_, _, _, _, _, _, hash, ⟨_, long, isHash⟩, _, isHex, _, _, _, _, same⟩
  cases same
  refine ⟨hash, rfl, ?_, ?_⟩
  · rw [← isHash, List.length_take, List.length_drop]
    omega
  · unfold hexBytes at isHex
    split at isHex
    · rename_i hex
      exact hex.2
    · cases isHex

theorem mem_of_resolveGPUVersion {version release : Str}
    (resolved : resolveGPUVersion version = some release) : release ∈ k3sReleases := by
  unfold resolveGPUVersion at resolved
  exact List.mem_of_find?_eq_some resolved

theorem accepted_of_prepare {files : Str → Option Str} {cfg : ExternalWorkerConfig} {p : Prepared}
    (ok : prepareExternalWorker files cfg = .ok p) : Accepted cfg p := by
  simp only [prepareExternalWorker, parseRanges, bind_eq_ok, demand_eq_ok, provided_eq_ok]
    at ok
  rcases ok with ⟨_, validName, ⟨server, serverIP⟩, isServer, node, isNode, _, _, _, _, version,
    resolved, _, _, _, _, _, _, _, _, _, _, _, ⟨pod, isPod, service, isService, _, apart, _⟩, _, _,
    ⟨token, caHash⟩, isToken, _, _, wg, _, same⟩
  cases same
  refine ⟨rfl, validName, ⟨serverIP, isServer⟩, rfl, ⟨version, ?_, rfl⟩, rfl, rfl,
    ⟨node, pod, service, isNode, isPod, isService, ?_⟩, parseToken_eq_ok isToken⟩
  · exact mem_of_resolveGPUVersion resolved
  · simp only [Bool.not_eq_true', Bool.or_eq_false_iff] at apart ⊢
    exact apart.1.1

end Kiac.Worker
