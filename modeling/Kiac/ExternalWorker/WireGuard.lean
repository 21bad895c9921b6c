import Kiac.Text.Base64
import Kiac.Text.Netip
import Kiac.Text.Space

/-!
# The WireGuard file

`parseWorkerWireGuard` reads a file with one interface and one peer. Only the keys that it knows
are allowed, each of them once.
-/

namespace Kiac.Worker

/-- `workerPrefix`: a canonical IPv4 range. -/
def workerPrefix (value : Str) : Option Netip.Range :=
  match Netip.parseRange value with
  | some (.v4 addr, bits) =>
    if fits : 1 ≤ bits ∧ bits ≤ 32 then
      let range : Netip.Range := ⟨addr, bits, fits.2⟩
      if range = range.masked ∧ Netip.isGlobalUnicast addr then some range else none
    else none
  | _ => none

def workerRouteCovered (want : Netip.Range) (routes : List Netip.Range) : Bool :=
  routes.any fun route => route.bits ≤ want.bits && route.contains want.value

/-- `workerWireGuard`. -/
structure WireGuard where
  address : Str
  privateKey : Str
  publicKey : Str
  presharedKey : Str
  endpoint : Str
  allowedIPs : List Netip.Range
  mtu : ℤ
  keepalive : ℤ
deriving DecidableEq

inductive WireGuardErr where
  | sections
  | field
  | lineTooLong
  | address
  | key (name : Str)
  | endpoint
  | allowedIPs
  | duplicateRoute
  | outOfRange (key : Str)
deriving DecidableEq

/-- What has been read: the section that lines belong to, the sections that have begun, and the
values by section and key. -/
structure Scan where
  current : Str
  begun : List Str
  values : Str → Str

def Scan.empty : Scan := ⟨[], [], fun _ => []⟩

def isInterface (current : Str) : Bool := current == str "[Interface]"

def isPeer (current : Str) : Bool := current == str "[Peer]"

def allowedKey (current key : Str) : Bool :=
  (isInterface current && [str "PrivateKey", str "Address", str "MTU"].contains key) ||
    (isPeer current && [str "PublicKey", str "PresharedKey", str "Endpoint", str "AllowedIPs",
      str "PersistentKeepalive"].contains key)

def content (line : Str) : Str := Str.trimSpace ((Str.dropCR line).cut (byte '#')).1

def scanContent (scan : Scan) (line : Str) : Except WireGuardErr Scan :=
  if line.hasPrefix [byte '['] then
    if (!isInterface line && !isPeer line) || scan.begun.contains line then .error .sections
    else .ok { scan with current := line, begun := line :: scan.begun }
  else
    match line.cut (byte '=') with
    | (_, none) => .error .field
    | (key, some value) =>
      let key := Str.trimSpace key
      let value := Str.trimSpace value
      if !allowedKey scan.current key || value == [] || scan.values (scan.current ++ key) != [] then
        .error .field
      else .ok { scan with values := Function.update scan.values (scan.current ++ key) value }

/-- The lines of the file; the scanner stops at one that does not fit into its buffer. -/
def scanLines (scan : Scan) : List Str → Except WireGuardErr Scan
  | [] => .ok scan
  | line :: lines =>
    if 64 * 1024 ≤ line.length then .error .lineTooLong
    else if content line = [] then scanLines scan lines
    else scanContent scan (content line) >>= fun scan => scanLines scan lines

def isKey (text : Str) : Bool :=
  match Base64.decode text with
  | some key => key.length == 32 && Base64.encode key == text
  | none => false

/-- `[]` stands for no preshared key. -/
def checkKeys (privateKey publicKey presharedKey : Str) : Except WireGuardErr Unit :=
  if !isKey privateKey then .error (.key (str "PrivateKey"))
  else if !isKey publicKey then .error (.key (str "PublicKey"))
  else if presharedKey != [] && !isKey presharedKey then .error (.key (str "PresharedKey"))
  else .ok ()

def parseEndpoint (endpoint : Str) : Option (BitVec 32) :=
  match Net.splitHostPort endpoint with
  | none => none
  | some (host, port) =>
    match Netip.parseUnicast4 host, Str.atoi port with
    | some ip, some number => if 1 ≤ number ∧ number ≤ 65535 then some ip else none
    | _, _ => none

/-- The routes, none of which leads to the endpoint and none of which stands twice. -/
def parseRoutes (endpoint : BitVec 32) (routes : List Netip.Range) :
    List Str → Except WireGuardErr (List Netip.Range)
  | [] => .ok routes
  | entry :: entries =>
    match workerPrefix (Str.trimSpace entry) with
    | none => .error .allowedIPs
    | some route =>
      if route.contains endpoint then .error .allowedIPs
      else if routes.contains route then .error .duplicateRoute
      else parseRoutes endpoint (routes ++ [route]) entries

def parseLimit (key value : Str) (default' least most : ℤ) : Except WireGuardErr ℤ :=
  if value = [] then .ok default'
  else
    match Str.atoi value with
    | some number => if number < least ∨ most < number then .error (.outOfRange key) else .ok number
    | none => .error (.outOfRange key)

def isAddress (address : Str) : Bool :=
  match Netip.parseRange address with
  | some (.v4 addr, bits) => bits == 32 && Netip.isGlobalUnicast addr
  | _ => false

def parseWorkerWireGuard (raw : Str) : Except WireGuardErr WireGuard := do
  let scan ← scanLines .empty (Str.rawLines raw)
  let address := scan.values (str "[Interface]Address")
  let privateKey := scan.values (str "[Interface]PrivateKey")
  let publicKey := scan.values (str "[Peer]PublicKey")
  let presharedKey := scan.values (str "[Peer]PresharedKey")
  let endpoint := scan.values (str "[Peer]Endpoint")
  if !isAddress address then throw .address
  checkKeys privateKey publicKey presharedKey
  match parseEndpoint endpoint with
  | none => throw .endpoint
  | some ip => do
      let allowedIPs ← parseRoutes ip [] ((scan.values (str "[Peer]AllowedIPs")).splitOn (byte ','))
      let mtu ← parseLimit (str "[Interface]MTU") (scan.values (str "[Interface]MTU")) 1420 1280 1420
      let keepalive ← parseLimit (str "PersistentKeepalive")
        (scan.values (str "[Peer]PersistentKeepalive")) 25 1 120
      pure ⟨address, privateKey, publicKey, presharedKey, endpoint, allowedIPs, mtu, keepalive⟩

theorem parseWorkerWireGuard_eq_ok_iff {raw : Str} {wg : WireGuard} :
    parseWorkerWireGuard raw = .ok wg ↔ ∃ scan ip, scanLines .empty (Str.rawLines raw) = .ok scan ∧
      scan.values (str "[Interface]Address") = wg.address ∧
      scan.values (str "[Interface]PrivateKey") = wg.privateKey ∧
      scan.values (str "[Peer]PublicKey") = wg.publicKey ∧
      scan.values (str "[Peer]PresharedKey") = wg.presharedKey ∧
      scan.values (str "[Peer]Endpoint") = wg.endpoint ∧
      isAddress wg.address ∧ checkKeys wg.privateKey wg.publicKey wg.presharedKey = .ok () ∧
      parseEndpoint wg.endpoint = some ip ∧
      parseRoutes ip [] ((scan.values (str "[Peer]AllowedIPs")).splitOn (byte ',')) =
        .ok wg.allowedIPs ∧
      parseLimit (str "[Interface]MTU") (scan.values (str "[Interface]MTU")) 1420 1280 1420 =
        .ok wg.mtu ∧
      parseLimit (str "PersistentKeepalive") (scan.values (str "[Peer]PersistentKeepalive")) 25 1 120 =
        .ok wg.keepalive := by
  constructor
  · intro parsed
    simp only [parseWorkerWireGuard, bind_eq_ok] at parsed
    rcases parsed with ⟨scan, scanned, rest⟩
    by_cases valid : isAddress (scan.values (str "[Interface]Address")) = true
    · simp only [valid, Bool.not_true, Bool.false_eq_true, if_false, bind_eq_ok] at rest
      rcases rest with ⟨_, keys, rest⟩
      split at rest
      · cases rest
      · rename_i ip isEndpoint
        simp only [bind_eq_ok] at rest
        rcases rest with ⟨routes, isRoutes, mtu, isMTU, keepalive, isKeepalive, same⟩
        cases same
        exact ⟨scan, ip, scanned, rfl, rfl, rfl, rfl, rfl, valid, keys, isEndpoint, isRoutes,
          isMTU, isKeepalive⟩
    · rw [if_pos (by simpa using valid)] at rest
      cases rest
  · rintro ⟨scan, ip, scanned, isAddress, isPrivate, isPublic, isShared, isEndpoint, valid, keys,
      endpoint, routes, mtu, keepalive⟩
    simp only [parseWorkerWireGuard, scanned, isAddress, isPrivate, isPublic, isShared, isEndpoint, valid,
      keys, endpoint, routes, mtu, keepalive, Bind.bind, Except.bind, Pure.pure, Except.pure,
      Bool.not_true, Bool.false_eq_true, if_false]

theorem endpoint_not_mem {ip : BitVec 32} {entries : List Str} {routes found : List Netip.Range}
    (parsed : parseRoutes ip routes entries = .ok found)
    (apart : ∀ route ∈ routes, route.contains ip = false) :
    ∀ route ∈ found, route.contains ip = false := by
  induction entries generalizing routes with
  | nil =>
    cases parsed
    exact apart
  | cons entry entries ih =>
    simp only [parseRoutes] at parsed
    split at parsed
    · cases parsed
    · rename_i route isRoute
      split_ifs at parsed with captures
      refine ih parsed fun other mem => ?_
      rcases List.mem_append.mp mem with old | new
      · exact apart other old
      · rw [List.mem_singleton.mp new]
        simpa using captures

end Kiac.Worker
