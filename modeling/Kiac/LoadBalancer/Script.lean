import Kiac.Text.Basic
import Mathlib.Data.List.Nodup

/-!
# The kiac-lb controller

Each pass of the loop reads the nodes and the Services of type LoadBalancer once, claims the address
and port pairs of all statuses that are still good, and then looks for addresses whose pairs are not
claimed. What a pass reads besides the Services is a `View`. It changes from pass to pass, commands
of it may fail, and so may the patches.
-/

namespace Kiac.LoadBalancer

inductive Family where
  | v4
  | v6
deriving DecidableEq, Repr

/-- `fam_of`: a colon means IPv6. -/
def famOf (ip : Str) : Family := if byte ':' ∈ ip then .v6 else .v4

/-- A line of the nodes file; a dash stands for an address that the node does not have. -/
structure NodeRow where
  name : Str
  v4 : Str
  v6 : Str
deriving DecidableEq, Repr

def NodeRow.addr (row : NodeRow) : Family → Str
  | .v4 => row.v4
  | .v6 => row.v6

/-- The awk program of `eligible_nodes`, on the fields of one line: the name, the
addresses and the Ready status. -/
def eligibleRow : List Str → Option NodeRow
  | [] => none
  | name :: fields =>
    if 2 ≤ fields.length ∧ fields.getLast? = some (str "True") then
      let addresses := fields.dropLast
      -- A later address of a family overwrites an earlier one.
      let last := fun family => ((addresses.filter fun ip => famOf ip == family).getLast?).getD
        (str "-")
      some ⟨name, last .v4, last .v6⟩
    else none

/-- `eligible_nodes`: the workers, or all nodes when there is no worker. -/
def eligibleNodes (workers all : Option (List (List Str))) : Option (List NodeRow) := do
  let listed ← workers
  let out ← if listed.isEmpty then all else some listed
  return out.filterMap eligibleRow

/-- `node_addr`; nothing is printed for a node that is not eligible. -/
def nodeAddr (nodes : List NodeRow) (name : Str) (family : Family) : Str :=
  match nodes.find? fun row => row.name == name with
  | some row => if row.addr family = str "-" then [] else row.addr family
  | none => []

def isEligibleIP (nodes : List NodeRow) (ip : Str) : Bool :=
  nodes.any fun row => row.v4 == ip || row.v6 == ip

abbrev Used := List (Str × Str)

def claim (ip : Str) (ports : List Str) (used : Used) : Used :=
  used ++ ports.map fun port => (ip, port)

def conflicts (ip : Str) (ports : List Str) (used : Used) : Bool :=
  ports.any fun port => used.contains (ip, port)

/-- A Service of type LoadBalancer; `ingress` are the addresses in its status. -/
structure Service where
  ns : Str
  name : Str
  ports : List Str
  families : List Str
  ingress : List Str
  namespaced : ns ≠ []

namespace Service

def key (svc : Service) : Str × Str := (svc.ns, svc.name)

def Holds (svc : Service) (ip port : Str) : Prop := ip ∈ svc.ingress ∧ port ∈ svc.ports

/-- `svc_families`. -/
def svcFamilies (svc : Service) : List Family :=
  let got := svc.families.filterMap fun family =>
    if family = str "IPv4" then some .v4 else if family = str "IPv6" then some .v6 else none
  if got.isEmpty then [.v4] else got

end Service

inductive Patch where
  | applied
  | failed
  | failedAfterEffect
deriving DecidableEq

def Patch.takesEffect : Patch → Bool
  | applied => true
  | failed => false
  | failedAfterEffect => true

structure View where
  workers : Option (List (List Str))
  nodes : Option (List (List Str))
  servicesRead : Bool
  primary : List Str
  endpoints : Str × Str → List Str
  patch : Str × Str → Patch

/-- `choose_addr`: nodes with an endpoint, then the primary one, then any. -/
def chooseAddr (view : View) (nodes : List NodeRow) (svc : Service) (family : Family)
    (used : Used) : Option Str :=
  (view.endpoints svc.key ++ view.primary.take 1 ++ nodes.map NodeRow.name).findSome? fun cand =>
    let ip := nodeAddr nodes cand family
    if ip.isEmpty then none
    else if conflicts ip svc.ports used then none
    else some ip

/-- The variables of the second sweep while it goes through the families of a Service. -/
structure Assignment where
  wantIPs : List Str
  changed : Bool
  used : Used

def assignFamily (view : View) (nodes : List NodeRow) (svc : Service) (acc : Assignment)
    (family : Family) : Assignment :=
  match svc.ingress.find? fun cur => famOf cur == family && isEligibleIP nodes cur with
  | some keep => ⟨acc.wantIPs ++ [keep], acc.changed, claim keep svc.ports acc.used⟩
  | none =>
    match chooseAddr view nodes svc family acc.used with
    | some keep => ⟨acc.wantIPs ++ [keep], true, claim keep svc.ports acc.used⟩
    | none => acc

def assign (view : View) (nodes : List NodeRow) (svc : Service) (used : Used) : Assignment :=
  svc.svcFamilies.foldl (assignFamily view nodes svc) ⟨[], false, used⟩

/-- Whether the Service is patched: there is an address, and the set is not the old one. -/
def Assignment.patches (assignment : Assignment) (svc : Service) : Bool :=
  !assignment.wantIPs.isEmpty &&
    (assignment.changed || svc.ingress.any fun cur => !assignment.wantIPs.contains cur)

structure Services where
  all : List Service
  distinct : (all.map Service.key).Nodup

namespace Services

def modify (services : Services) (key : Str × Str) (f : Service → Service)
    (keeps : ∀ svc, (f svc).key = svc.key) : Services where
  all := services.all.map fun svc => if svc.key = key then f svc else svc
  distinct := by
    have same : (services.all.map fun svc => if svc.key = key then f svc else svc).map Service.key =
        services.all.map Service.key := by
      rw [List.map_map]
      apply List.map_congr_left
      intro svc _
      simp only [Function.comp_apply]
      split
      · exact keeps svc
      · rfl
    rw [same]
    exact services.distinct

def setIngress (services : Services) (key : Str × Str) (ips : List Str) : Services :=
  services.modify key (fun svc => { svc with ingress := ips }) fun _ => rfl

def create (services : Services) (svc : Service) (fresh : svc.key ∉ services.all.map Service.key) :
    Services where
  all := services.all ++ [{ svc with ingress := [] }]
  distinct := by
    rw [List.map_append]
    exact List.nodup_append'.mpr ⟨services.distinct, List.nodup_singleton _, by
      simpa [Service.key] using fresh⟩

def delete (services : Services) (key : Str × Str) : Services where
  all := services.all.filter fun svc => svc.key != key
  distinct := services.distinct.sublist (List.filter_sublist.map Service.key)

end Services

def firstSweep (nodes : List NodeRow) : List Service → Used → Used
  | [], used => used
  | svc :: rows, used =>
    if svc.ns = [] then firstSweep nodes rows used
    else firstSweep nodes rows ((svc.ingress.filter (isEligibleIP nodes)).foldl
      (fun used cur => claim cur svc.ports used) used)

def secondSweep (view : View) (nodes : List NodeRow) : List Service → Used → Services → Services
  | [], _, services => services
  | svc :: rows, used, services =>
    if svc.ns = [] then secondSweep view nodes rows used services
    else
      let assignment := assign view nodes svc used
      secondSweep view nodes rows assignment.used
        (if assignment.patches svc && (view.patch svc.key).takesEffect then
          services.setIngress svc.key assignment.wantIPs
        else services)

def pass (view : View) (services : Services) : Services :=
  match eligibleNodes view.workers view.nodes with
  | none => services
  | some nodes =>
    if nodes.isEmpty || !view.servicesRead then services
    else secondSweep view nodes services.all (firstSweep nodes services.all []) services

end Kiac.LoadBalancer
