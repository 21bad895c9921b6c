import Kiac.Krunkit.Store
import Kiac.Text.Address

/-!
# Files and networks of the store

JSON files are written under a temporary name, which is removed when the file has got its
own name or the write has failed. Each network of krunkit VMs is a file of its own; a new
network gets the first free subnet `192.168.x.0/24` from a number on that depends on its
ID.
-/

namespace Kiac.Krunkit

open Prog

inductive Err where
  | lock
  | io
  | invalidVMName (name : Str)
  | needsImage (name : Str)
  | invalidOptions (name : Str)
  | nestedUnsupported
  | alreadyExists (name : Str)
  | noState (name : Str)
  | unparsableState (name : Str)
  | invalidState (name : Str)
  | invalidNetworkID (id : Str)
  | noNetwork (id : Str)
  | invalidNetwork (id : Str)
  | noFreeSubnet
  | random
  | notFound (tool : Str)
  | unsafeDisk (name : Str)
  | unsafeSocket (name : Str)
  | reservedMount
  | guestStatusPath
  | launch
  | processIdentity (name : Str)
  | signal (pid : ℕ)
  | stillRunning (name : Str) (pid : ℕ)
deriving DecidableEq

abbrev Action (α : Type) := ExceptT Err (Prog Op Op.Ans) α

def ask (op : Op) : Action op.Ans := ExceptT.lift (perform op)

def check (holds : Bool) (err : Err) : Action Unit := if holds then pure () else throw err

def must (action : Action Bool) (err : Err) : Action Unit := action >>= fun holds => check holds err

def given {α : Type} (err : Err) : Option α → Action α
  | some value => pure value
  | none => throw err

def onlyIf (holds : Bool) (action : Action Unit) : Action Unit := if holds then action else pure ()

def attempt (action : Action Unit) : Action Unit :=
  ExceptT.mk (action.run >>= fun _ => done (.ok ()))

def renameIf (written : Bool) (loc : Loc) (temp file : Str) (doc : Doc) : Action Bool :=
  if written then ask (.rename loc temp file doc) else pure false

def writeJSONAtomic (loc : Loc) (file : Str) (doc : Doc) : Action Unit := do
  let created ← ask (.createTemp loc)
  let suffix ← given .io created
  let written ← ask (.writeFile loc (tempFile suffix) (some doc))
  let renamed ← renameIf written loc (tempFile suffix) file doc
  let _ ← ask (.unlink loc (tempFile suffix))
  check renamed .io

def stateSchema : ℕ := 1

def validKrunkitNetworkID (id : Str) : Bool :=
  0 < id.length && id.length ≤ 63 &&
    id.all fun b => b == byte '-' || (byte 'a' ≤ b && b ≤ byte 'z') || (byte '0' ≤ b && b ≤ byte '9')

/-- The text `192.168.N` followed by an end. -/
def subnetText (number : ℕ) (rest : String) : Str :=
  str "192.168." ++ Str.formatNat number ++ str rest

def validateKrunkitNetwork (network : Network) (id : Str) : Bool :=
  network.schema == stateSchema && network.id == id &&
    match Net.parseCIDR network.cidr with
    | none => false
    | some (ip, ones, bits) =>
      let high := ip.getD 6 0
      let low := ip.getD 7 0
      Net.isV4 ip && bits == 32 && ones == 24 && high == 192 * 256 + 168 && low % 256 == 0 &&
        network.netmask == str "255.255.255.0" &&
        network.startAddress == subnetText (low / 256) ".1" &&
        network.endAddress == subnetText (low / 256) ".200"

def fnv32 (s : Str) : UInt32 :=
  s.foldl (fun hash b => (hash ^^^ b.toUInt32) * 16777619) 2166136261

def networkNumber (network : Network) : Option ℕ :=
  match Net.parseIP (network.cidr.takeWhile (· != byte '/')) with
  | some ip => if Net.isV4 ip then some (ip.getD 7 0 / 256) else none
  | none => none

def chooseSubnet (id : Str) (used : List ℕ) : Option ℕ :=
  let start := (fnv32 id).toNat % 145
  ((List.range 145).map fun offset => 105 + (start + offset) % 145).find? fun candidate =>
    !used.contains candidate

def newNetwork (id : Str) (number : ℕ) : Network where
  schema := stateSchema
  id := id
  cidr := subnetText number ".0/24"
  startAddress := subnetText number ".1"
  endAddress := subnetText number ".200"
  netmask := str "255.255.255.0"

def networkFile (id : Str) : Str := id ++ str ".json"

def networkNumbers : List Str → Action (List ℕ)
  | [] => pure []
  | file :: files => do
      let content ← ask (.readFile .networks file)
      let others ← networkNumbers files
      match content with
      | some (some (.network network)) => pure ((networkNumber network).toList ++ others)
      | _ => pure others

def recordedNetwork (id : Str) : Option Doc → Action Network
  | some (.network network) => do
      check (validateKrunkitNetwork network id) (.invalidNetwork id)
      pure network
  | _ => throw (.invalidNetwork id)

def ensureNetwork (id : Str) : Action Network := do
  check (validKrunkitNetworkID id) (.invalidNetworkID id)
  must (ask (.mkdirAll .networks)) .io
  let existing ← ask (.readFile .networks (networkFile id))
  match existing with
  | some content => recordedNetwork id content
  | none => do
      let interfaces ← ask .interfaces
      let files ← ask (.entries .networks)
      let recorded ← networkNumbers files
      let number ← given .noFreeSubnet (chooseSubnet id (interfaces ++ recorded))
      writeJSONAtomic .networks (networkFile id) (.network (newNetwork id number))
      pure (newNetwork id number)

def loadNetwork (id : Str) : Action Network := do
  check (validKrunkitNetworkID id) (.invalidNetworkID id)
  let existing ← ask (.readFile .networks (networkFile id))
  let content ← given (.noNetwork id) existing
  recordedNetwork id content

end Kiac.Krunkit
