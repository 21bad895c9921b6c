import Kiac.Json.Value
import Kiac.Krunkit.Network
import Kiac.Text.Netip

/-!
# The address that a guest reports

A VM of krunkit writes its own address into a file that it shares with the host, and the guest is not
trusted. `nodeAddress` accepts a report if it is a single JSON object with the name, the MAC address
and the boot generation of the VM, and if the address is one that the VM can have in its own subnet.
For older VMs the address is looked up in the ARP table, or the saved one is taken.
-/

namespace Kiac

inductive Scan where
  | eof
  | malformed
  | value (json : Json) (rest : Str)

/-- The JSON package: the next value of a stream, and whether a name of an object stands for a
field of a structure. -/
structure JsonDecoder where
  next : Str → Scan
  names : (key field : Str) → Bool

namespace Net

def xtoi2 (separator : UInt8) : Str → Option ℕ
  | high :: low :: rest =>
    if rest.head?.any (· != separator) then none
    else if Str.isHex high && Str.isHex low then some (Str.hexValue [high, low])
    else none
  | _ => none

def macBytes (separator : UInt8) : ℕ → Str → Option (List ℕ)
  | 0, _ => some []
  | n + 1, s => (xtoi2 separator s).bind fun b => (macBytes separator n (s.drop 3)).map (b :: ·)

def macWords : ℕ → Str → Option (List ℕ)
  | 0, _ => some []
  | n + 1, s =>
    (xtoi2 0 (s.take 2)).bind fun high => (xtoi2 (byte '.') (s.drop 2)).bind fun low =>
      (macWords n (s.drop 5)).map fun others => high :: low :: others

def isMacLength (n : ℕ) : Bool := n == 6 || n == 8 || n == 20

/-- `net.ParseMAC`. -/
def parseMAC (s : Str) : Option (List ℕ) :=
  if s.length < 14 then none
  else if s[2]? = some (byte ':') ∨ s[2]? = some (byte '-') then
    if (s.length + 1) % 3 = 0 ∧ isMacLength ((s.length + 1) / 3) = true then
      macBytes (s.getD 2 0) ((s.length + 1) / 3) s
    else none
  else if s[4]? = some (byte '.') then
    if (s.length + 1) % 5 = 0 ∧ isMacLength (2 * (s.length + 1) / 5) = true then
      macWords ((s.length + 1) / 5) s
    else none
  else none

end Net

namespace Krunkit

def normalizeMAC (value : Str) : Str :=
  List.intercalate [byte ':'] ((value.toLower.splitOn (byte ':')).map fun part =>
    if part.length = 1 then byte '0' :: part else part)

/-- `guestAddressReport`. -/
structure Report where
  schema : ℤ
  name : Str
  mac : Str
  generation : Str
  ipv4 : Str
deriving DecidableEq

namespace Report

def zero : Report := ⟨0, [], [], [], []⟩

inductive Field where
  | schema
  | name
  | mac
  | generation
  | ipv4
deriving DecidableEq

def Field.key : Field → Str
  | schema => str "schema"
  | name => str "name"
  | mac => str "mac"
  | generation => str "generation"
  | ipv4 => str "ipv4"

def fields : List Field := [.schema, .name, .mac, .generation, .ipv4]

def setText (report : Report) (text : Str) : Field → Option Report
  | .schema => none
  | .name => some { report with name := text }
  | .mac => some { report with mac := text }
  | .generation => some { report with generation := text }
  | .ipv4 => some { report with ipv4 := text }

/-- A value for a field; `null` leaves the field as it is. -/
def set (report : Report) (field : Field) : Json → Option Report
  | .null => some report
  | .num text =>
    if field = .schema then (Str.atoi text).map fun n => { report with schema := n } else none
  | .str text => report.setText text field
  | _ => none

def ofJson (decoder : JsonDecoder) : Json → Option Report
  | .null => some zero
  | .obj keys _ vals =>
    keys.attach.foldlM (fun report key =>
      (fields.find? fun field => decoder.names key.1 field.key).bind fun field =>
        report.set field (vals key)) zero
  | _ => none

end Report

/-- What is in the place of the report: nothing, something that is not a regular file in a
regular directory, or a file. -/
inductive ReportFile where
  | absent
  | irregular
  | regular (bytes : Str)

def maxGuestAddressReport : ℕ := 4096

def readGuestReportFile : ReportFile → Option Str
  | .absent => none
  | .irregular => none
  | .regular bytes => if bytes.length ≤ maxGuestAddressReport then some bytes else none

def networkOf (id : Str) (content : Option (Option Doc)) : Option Network :=
  match content with
  | some (some (.network network)) =>
    if validKrunkitNetworkID id && validateKrunkitNetwork network id then some network else none
  | _ => none

def validateNodeIPv4 (state : NodeState) (content : Option (Option Doc)) (value : Str) : Bool :=
  match Netip.parseAddr value >>= Netip.Addr.as4, networkOf state.networkID content with
  | some ip, some network =>
    decide (state.networkCIDR = network.cidr) &&
      match Netip.parseRange network.cidr with
      | some (.v4 base, bits) =>
        Netip.Range.fixed bits ip == Netip.Range.fixed bits base &&
          decide (2 ≤ ip.toNat % 256) && decide (ip.toNat % 256 ≤ 200)
      | _ => false
  | _, _ => false

def decodeReport (decoder : JsonDecoder) (raw : Str) : Option Report :=
  match decoder.next raw with
  | .value json rest =>
    (Report.ofJson decoder json).bind fun report =>
      match decoder.next rest with
      | .eof => some report
      | _ => none
  | _ => none

def Report.matches (report : Report) (state : NodeState) : Bool :=
  report.schema == 1 && report.name == state.name &&
    (Net.parseMAC report.mac).any (fun mac => mac.length == 6) &&
    normalizeMAC report.mac == normalizeMAC state.mac &&
    state.addressGeneration != [] && report.generation == state.addressGeneration

def readGuestAddressReport (decoder : JsonDecoder) (state : NodeState) (file : ReportFile)
    (content : Option (Option Doc)) : Option Str := do
  let raw ← readGuestReportFile file
  let report ← decodeReport decoder raw
  if report.matches state && validateNodeIPv4 state content report.ipv4 then some report.ipv4
  else none

/-- The address of a VM; `arp` is the address that the ARP table has for its MAC address. -/
def nodeAddress (decoder : JsonDecoder) (state : NodeState) (file : ReportFile)
    (content : Option (Option Doc)) (arp : Str) : Option Str :=
  if state.guestAddressReport then readGuestAddressReport decoder state file content
  else [arp, state.ip].find? fun ip => decide (ip ≠ []) && validateNodeIPv4 state content ip

/-- The address `192.168.N.M`. -/
def subnetAddr (third last : ℕ) : BitVec 32 :=
  BitVec.ofNat 32 (65536 * (192 * 256 + 168) + (256 * third + last))

/-- The text is an address that DHCP gives out in the subnet that the state records. -/
def InSubnet (state : NodeState) (ip : Str) : Prop :=
  ∃ third last, third < 256 ∧ 2 ≤ last ∧ last ≤ 200 ∧
    Netip.parseAddr ip = some (.v4 (subnetAddr third last)) ∧
    Netip.parseRange state.networkCIDR = some (.v4 (subnetAddr third 0), 24)

variable {network : Network} {id : Str} {state : NodeState} {ip : Str} {report : Report}

theorem parseRange_network {base : BitVec 32} {bits : ℕ}
    (valid : validateKrunkitNetwork network id)
    (read : Netip.parseRange network.cidr = some (.v4 base, bits)) :
    bits = 24 ∧ ∃ third, third < 256 ∧ base = subnetAddr third 0 := by
  simp only [validateKrunkitNetwork, Bool.and_eq_true] at valid
  cases parsed : Net.parseCIDR network.cidr with
  | none =>
    rw [parsed] at valid
    exact absurd valid.2 (by simp)
  | some parts =>
    rcases parts with ⟨ip, ones, size⟩
    rw [parsed] at valid
    simp only [Bool.and_eq_true, beq_iff_eq] at valid
    rcases valid.2 with ⟨⟨⟨⟨⟨⟨⟨_, _⟩, rfl⟩, isHigh⟩, isLow⟩, _⟩, _⟩, _⟩
    rcases Net.eq_of_parseCIDR parsed with ⟨head, tail, text, absent, isAddr, isMask⟩
    rw [text] at read
    rcases Netip.parseRange_append absent read with ⟨isAddr', isMask'⟩
    rcases Netip.parseAddr_v4 isAddr' with ⟨high, low, fields, isIP, rfl⟩
    obtain rfl := Option.some.inj (isAddr.symm.trans isIP)
    have bound := (Net.parseIPv4_spec fields).2.2.2 low (by simp)
    simp only [Net.mapped, List.cons_append, List.nil_append, List.getD_cons_succ,
      List.getD_cons_zero] at isHigh isLow
    refine ⟨Option.some.inj (isMask'.symm.trans isMask), low / 256, by omega, ?_⟩
    congr 1
    omega

variable {content : Option (Option Doc)} {decoder : JsonDecoder}

theorem valid_of_networkOf
    (found : networkOf id content = some network) : validateKrunkitNetwork network id := by
  unfold networkOf at found
  split at found
  · split_ifs at found with valid
    cases found
    exact (Bool.and_eq_true _ _ ▸ valid).2
  · cases found

theorem parseAddr_of_as4 {s : Str} {value : BitVec 32}
    (read : (Netip.parseAddr s >>= Netip.Addr.as4) = some value) :
    Netip.parseAddr s = some (.v4 value) := by
  cases parsed : Netip.parseAddr s with
  | none => simp [parsed] at read
  | some addr =>
    rw [parsed] at read
    cases addr with
    | v4 other => exact congrArg (some ∘ Netip.Addr.v4) (Option.some.inj read)
    | v6 groups zone => cases read

theorem inSubnet_of_validateNodeIPv4
    (valid : validateNodeIPv4 state content ip) : InSubnet state ip := by
  unfold validateNodeIPv4 at valid
  split at valid
  · rename_i value network isV4 isNetwork
    rw [Bool.and_eq_true, decide_eq_true_eq] at valid
    rcases valid with ⟨sameCIDR, inRange⟩
    split at inRange
    · rename_i base bits isRange
      simp only [Bool.and_eq_true, beq_iff_eq, decide_eq_true_eq] at inRange
      rcases inRange with ⟨⟨shares, atLeast⟩, atMost⟩
      rcases parseRange_network (valid_of_networkOf isNetwork) isRange with ⟨rfl, third, small, rfl⟩
      refine ⟨third, value.toNat % 256, small, atLeast, atMost, ?_, sameCIDR ▸ isRange⟩
      rw [parseAddr_of_as4 isV4]
      congr 2
      apply BitVec.eq_of_toNat_eq
      have whole := congrArg BitVec.toNat shares
      simp only [Netip.Range.fixed, BitVec.toNat_ushiftRight, Nat.shiftRight_eq_div_pow, subnetAddr,
        BitVec.toNat_ofNat] at whole ⊢
      omega
    · cases inRange
  · cases valid

structure Report.Genuine (decoder : JsonDecoder) (state : NodeState) (file : ReportFile) (ip : Str)
    (report : Report) : Prop where
  /-- The file holds a single JSON object, and the object is the report. -/
  single : ∃ bytes json rest, file = .regular bytes ∧ decoder.next bytes = .value json rest ∧
    decoder.next rest = .eof ∧ json.shape = .obj ∧ Report.ofJson decoder json = some report
  named : report.name = state.name
  sameMAC : normalizeMAC report.mac = normalizeMAC state.mac
  sameGeneration : report.generation = state.addressGeneration
  hasGeneration : state.addressGeneration ≠ []
  address : report.ipv4 = ip
  inSubnet : InSubnet state ip

theorem Report.shape_of_schema {json : Json}
    (read : Report.ofJson decoder json = some report) (schema : report.schema = 1) :
    json.shape = .obj := by
  cases json with
  | obj keys unique vals => rfl
  | null =>
    cases read
    cases schema
  | bool value => cases read
  | num text => cases read
  | str text => cases read
  | arr items => cases read

theorem decodeReport_eq_some {raw : Str} (decoded : decodeReport decoder raw = some report) :
    ∃ json rest, decoder.next raw = .value json rest ∧ decoder.next rest = .eof ∧
      Report.ofJson decoder json = some report := by
  unfold decodeReport at decoded
  split at decoded
  · rename_i json rest isNext
    rcases Option.bind_eq_some_iff.mp decoded with ⟨found, isReport, single⟩
    split at single
    · rename_i isEnd
      cases single
      exact ⟨json, rest, isNext, isEnd, isReport⟩
    · cases single
  · cases decoded

/-- The address of a VM that reports it comes from a genuine report; neither the ARP table nor the
saved address is looked at. -/
theorem genuine_of_nodeAddress {file : ReportFile}
    {arp : Str} (reports : state.guestAddressReport)
    (returned : nodeAddress decoder state file content arp = some ip) :
    ∃ report : Report, report.Genuine decoder state file ip := by
  simp only [nodeAddress, reports, if_true, readGuestAddressReport, Option.bind_eq_bind,
    Option.bind_eq_some_iff] at returned
  rcases returned with ⟨raw, isRaw, report, decoded, accepted⟩
  split at accepted
  · rename_i valid
    cases accepted
    simp only [Report.matches, Bool.and_eq_true, beq_iff_eq, bne_iff_ne] at valid
    rcases valid with ⟨⟨⟨⟨⟨⟨schema, named⟩, _⟩, sameMAC⟩, hasGeneration⟩, sameGeneration⟩, inSubnet⟩
    rcases decodeReport_eq_some decoded with ⟨json, rest, isNext, isEnd, isReport⟩
    have isFile : file = .regular raw := by
      cases file with
      | absent => cases isRaw
      | irregular => cases isRaw
      | regular bytes =>
        simp only [readGuestReportFile] at isRaw
        split at isRaw
        · cases isRaw
          rfl
        · cases isRaw
    exact ⟨report, ⟨raw, json, rest, isFile, isNext, isEnd, report.shape_of_schema isReport schema,
      isReport⟩, named, sameMAC, sameGeneration, hasGeneration, rfl,
      inSubnet_of_validateNodeIPv4 inSubnet⟩
  · cases accepted

end Krunkit

end Kiac
