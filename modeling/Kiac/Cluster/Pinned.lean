import Kiac.Cluster.Guarded

/-!
# Pinning kubelet to the current addresses

`repinNodeIPIfNeeded` takes a file as current if the text that it would write occurs somewhere in
it. A longer address that begins with the current one then passes for the current one.
-/

namespace Kiac.Cluster.Guarded

/-- The addresses that a file pins, as `pinnedFamily` reads them. -/
def pinnedValue (kubeletDefault : Str) : Option Str :=
  (afterFirst (str "--node-ip=") kubeletDefault).map fun rest => rest.takeWhile fun b =>
    !(b == byte ' ' || b == byte '\t' || b == byte '\r' || b == byte '\n')

def GuestNode.currentIPs (node : GuestNode) : IPFamily → Str
  | .ipv6 => node.ipv6
  | .dualStack => node.ipv4 ++ str "," ++ node.ipv6

/-- What `repinNodeIPIfNeeded` leaves in the file. -/
def repinned (before : GuestNode) (family : IPFamily) : Str :=
  if Str.contains (HealStep.pinText before family) (before.files .defaultKubelet) then
    before.files .defaultKubelet
  else HealStep.pinText before family ++ str "\n"

def TellsApart (before : GuestNode) (family : IPFamily) : Prop :=
  Str.contains (HealStep.pinText before family) (before.files .defaultKubelet) = true →
    pinnedValue (before.files .defaultKubelet) = some (before.currentIPs family)

section Pins

variable {before : GuestNode} {family : IPFamily}

theorem pinText_eq : HealStep.pinText before family =
    str "KUBELET_EXTRA_ARGS=--node-ip=" ++ before.currentIPs family := by
  cases family <;> rfl

theorem returns_repinned (pinned : pinnedFamily (before.files .defaultKubelet) = some family) :
    Returns faulty (fun node => node = before) repinNodeIPIfNeeded
      (fun _ node => node.files .defaultKubelet = repinned before family) fun _ => True := by
  have prepares : Returns faulty (fun node => node = before) (run .ipv6BootPrep)
      (fun _ node => node = before) fun _ => True := returns_run fun _ _ same _ => same
  refine (returns_cat .defaultKubelet).bind fun out => Returns.assume ?_
  rintro rfl
  rw [pinned]
  refine prepares.bind fun _ => ?_
  refine (returns_nodeIPArg family).bind fun nodeIP => Returns.assume ?_
  rintro ⟨_, desired⟩
  rw [desired]
  unfold repinned
  dsimp only
  split
  · refine Returns.pure ?_
    rintro node rfl
    rfl
  · have writes : Returns faulty (fun node => node = before)
        (run (.printf .defaultKubelet (HealStep.pinText before family ++ str "\n")))
        (fun _ node => node.files .defaultKubelet = HealStep.pinText before family ++ str "\n")
        fun _ => True := returns_run fun _ _ _ _ => by simp [NodeOp.effect, GuestNode.write]
    have restarts : Returns faulty
        (fun node => node.files .defaultKubelet = HealStep.pinText before family ++ str "\n")
        (run (.restart .kubelet))
        (fun _ node => node.files .defaultKubelet = HealStep.pinText before family ++ str "\n")
        fun _ => True := returns_run fun _ _ same _ => same
    refine writes.bind fun _ => restarts.bind fun _ => Returns.pure ?_
    exact fun _ => id

theorem pinnedValue_written {value : Str}
    (plain : ∀ b ∈ value, Net.isAddressByte b ∨ b = byte ',') :
    pinnedValue (str "KUBELET_EXTRA_ARGS=--node-ip=" ++ value ++ str "\n") = some value := by
  have found : afterFirst (str "--node-ip=")
      (str "KUBELET_EXTRA_ARGS=--node-ip=" ++ value ++ str "\n") = some (value ++ str "\n") := rfl
  have visible : ∀ b, Net.isAddressByte b = true ∨ b = byte ',' →
      (!(b == byte ' ' || b == byte '\t' || b == byte '\r' || b == byte '\n')) = true :=
    Str.forall_byte (by decide +kernel)
  rw [pinnedValue, found, Option.map_some,
    List.takeWhile_append_of_pos fun b mem => visible b (plain b mem)]
  exact congrArg some (List.append_nil value)

theorem plain_currentIPs {groups groups' : Net.Groups} (v4 : Net.parseIP before.ipv4 = some groups)
    (v6 : Net.parseIP before.ipv6 = some groups') :
    ∀ b ∈ before.currentIPs family, Net.isAddressByte b ∨ b = byte ',' := by
  intro b mem
  cases family with
  | ipv6 => exact .inl ((Net.parseIP_spec v6).1 b mem)
  | dualStack =>
    simp only [GuestNode.currentIPs, List.mem_append] at mem
    rcases mem with (inV4 | comma) | inV6
    · exact .inl ((Net.parseIP_spec v4).1 b inV4)
    · exact .inr (List.mem_singleton.mp comma)
    · exact .inl ((Net.parseIP_spec v6).1 b inV6)

end Pins

/-- A node that was pinned to `fd00::12` and has come up with `fd00::1`. -/
def renumberedNode : GuestNode :=
  { movedNode with
    files := Function.update movedNode.files .defaultKubelet
      (str "KUBELET_EXTRA_ARGS=--node-ip=fd00::12\n")
    ipv6 := str "fd00::1" }

end Kiac.Cluster.Guarded
