import Kiac.Krunkit.Store
import Kiac.Text.Space

/-!
# Mounts over the reporting files

A mount whose target overlaps one of the reserved paths of the guest's address reports is refused.
The comparison is on texts, and it decides whether the elements of one path begin with those of the
other.
-/

namespace Kiac.Krunkit

/-- One element of `path.Clean`; the elements kept stand last first. -/
def cleanPart (rooted : Bool) (kept : List Str) (part : Str) : List Str :=
  if part = [] ∨ part = str "." then kept
  else if part = str ".." then
    match kept with
    | [] => if rooted then [] else [part]
    | last :: before => if last = str ".." then part :: kept else before
  else part :: kept

def cleanParts (rooted : Bool) (path : Str) : List Str :=
  ((path.splitOn (byte '/')).foldl (cleanPart rooted) []).reverse

def joinParts (parts : List Str) : Str := parts.flatMap (byte '/' :: ·)

def rootedText (parts : List Str) : Str := if parts = [] then str "/" else joinParts parts

/-- `path.Clean`. -/
def cleanPath (path : Str) : Str :=
  if path.hasPrefix (str "/") then rootedText (cleanParts true path)
  else if cleanParts false path = [] then str "."
  else (joinParts (cleanParts false path)).tail

def protectedPaths : List Str :=
  let units := [str "/etc/systemd/system/run-kiac-status.mount",
    str "/etc/systemd/system/kiac-network-report.service",
    str "/etc/systemd/system/kiac-network-report.timer"]
  [str "/run/kiac/status", str "/usr/local/libexec/kiac-network-report"] ++ units ++
    units.map (· ++ str ".d")

def guestTarget (target : Str) : Str :=
  if target == str "/var/run" || target.hasPrefix (str "/var/run/") then
    str "/run" ++ target.trimPrefix (str "/var/run")
  else target

def overlaps (target reserved : Str) : Bool :=
  target == reserved || target.hasPrefix (reserved ++ str "/") || target == str "/" ||
    reserved.hasPrefix (target ++ str "/")

/-- The error names the target of the first mount that overlaps a reserved path. -/
def validateGuestAddressMounts (mounts : List Mount) : Except Str Unit :=
  match mounts.find? fun mount =>
    protectedPaths.any (overlaps (guestTarget (cleanPath mount.target))) with
  | some mount => .error mount.target
  | none => .ok ()

/-- The elements of an absolute target in the guest, where `/var/run` is a link to `/run`. -/
def guestParts (target : Str) : List Str :=
  let parts := cleanParts true target
  if [str "var", str "run"] <+: parts then parts.tail else parts

def Plain (parts : List Str) : Prop := ∀ part ∈ parts, part ≠ [] ∧ byte '/' ∉ part

instance : DecidablePred Plain := fun parts =>
  inferInstanceAs (Decidable (∀ part ∈ parts, part ≠ [] ∧ byte '/' ∉ part))

variable {parts others : List Str}

theorem slash_notMem_splitOn {path part : Str} (mem : part ∈ path.splitOn (byte '/')) :
    byte '/' ∉ part := by
  intro slash
  have joined := List.mem_flatten_of_mem mem slash
  rw [List.splitOn, Str.flatten_splitOnP] at joined
  simp at joined

theorem plain_cleanPart (rooted : Bool) (kept : Plain parts) {part : Str}
    (slashless : byte '/' ∉ part) : Plain (cleanPart rooted parts part) := by
  fun_cases cleanPart rooted parts part <;> simp_all [Plain]

theorem plain_cleanParts (rooted : Bool) (path : Str) : Plain (cleanParts rooted path) := by
  have kept : ∀ slashless ⊆ path.splitOn (byte '/'), ∀ parts, Plain parts →
      Plain (slashless.foldl (cleanPart rooted) parts) := by
    intro slashless
    induction slashless with
    | nil => exact fun _ _ plain => plain
    | cons part rest ih =>
      intro within parts plain
      obtain ⟨mem, within⟩ := List.cons_subset.mp within
      exact ih within _ (plain_cleanPart rooted plain (slash_notMem_splitOn mem))
  intro part mem
  exact kept _ (List.Subset.refl _) [] nofun part (List.mem_reverse.mp mem)

theorem splitOn_joinParts {first : Str} (slashless : byte '/' ∉ first) (plain : Plain parts) :
    (first ++ joinParts parts).splitOn (byte '/') = first :: parts := by
  induction parts generalizing first with
  | nil => simpa [joinParts] using List.splitOn_eq_singleton slashless
  | cons part parts ih =>
    rw [joinParts, List.flatMap_cons, List.cons_append,
      List.splitOn_append_cons_self_of_not_mem slashless]
    exact congrArg _ (ih (plain part List.mem_cons_self).2 fun _ mem =>
      plain _ (List.mem_cons_of_mem _ mem))

theorem joinParts_inj (plain : Plain parts) (plain' : Plain others) :
    joinParts parts = joinParts others ↔ parts = others := by
  constructor
  · intro same
    have split := splitOn_joinParts List.not_mem_nil plain
    rw [same, splitOn_joinParts List.not_mem_nil plain'] at split
    exact (List.cons.inj split).2.symm
  · exact congrArg joinParts

theorem joinParts_slash_iff (plain : Plain parts) (plain' : Plain others) :
    joinParts parts ++ str "/" <+: joinParts others ↔ parts <+: others ∧ parts ≠ others := by
  constructor
  · rintro ⟨rest, joined⟩
    have split := splitOn_joinParts List.not_mem_nil plain'
    rw [List.nil_append, ← joined, List.append_assoc,
      show str "/" ++ rest = byte '/' :: rest from rfl, List.splitOn_append_cons_self,
      ← List.nil_append (joinParts parts), splitOn_joinParts List.not_mem_nil plain] at split
    have split := (List.cons.inj split).2
    refine ⟨⟨_, split⟩, fun same => ?_⟩
    simp [same] at split
  · rintro ⟨⟨rest, rfl⟩, longer⟩
    cases rest with
    | nil => simp at longer
    | cons part rest =>
      refine ⟨part ++ joinParts rest, ?_⟩
      simp only [joinParts, List.flatMap_append, List.append_assoc]
      rfl

theorem slash_iff_isPrefix (plain : Plain parts) (plain' : Plain others) :
    (joinParts others = joinParts parts ∨ joinParts parts ++ str "/" <+: joinParts others) ↔
      parts <+: others := by
  rw [joinParts_inj plain' plain, joinParts_slash_iff plain plain']
  grind

theorem guestTarget_joinParts (plain : Plain parts) :
    guestTarget (joinParts parts) =
      joinParts (if [str "var", str "run"] <+: parts then parts.tail else parts) := by
  have run := slash_iff_isPrefix (by decide : Plain [str "var", str "run"]) plain
  have guard : (joinParts parts == str "/var/run" ||
      (joinParts parts).hasPrefix (str "/var/run/")) ↔ [str "var", str "run"] <+: parts := by
    rw [Bool.or_eq_true, beq_iff_eq, Str.hasPrefix_iff]
    exact run
  rw [guestTarget, if_congr guard rfl rfl]
  split
  · next leads =>
    obtain ⟨rest, rfl⟩ := leads
    exact congrArg (str "/run" ++ ·) (Str.trimPrefix_append (str "/var/run") (joinParts rest))
  · rfl

theorem guestTarget_cleanPath {target : Str} (absolute : target.hasPrefix (str "/")) :
    guestTarget (cleanPath target) = rootedText (guestParts target) := by
  rw [cleanPath, if_pos absolute, guestParts]
  have text := guestTarget_joinParts (plain_cleanParts true target)
  generalize cleanParts true target = parts at text
  by_cases root : parts = []
  · subst root
    decide
  · rw [rootedText, if_neg root, text]
    refine (if_neg ?_).symm
    split
    · next leads =>
      obtain ⟨rest, rfl⟩ := leads
      exact List.cons_ne_nil _ _
    · exact root

theorem plain_guestParts (target : Str) : Plain (guestParts target) := by
  have plain := plain_cleanParts true target
  rw [guestParts]
  split
  · exact fun part mem => plain part (List.mem_of_mem_tail mem)
  · exact plain

theorem overlaps_rootedText (plain : Plain parts) (plain' : Plain others) :
    overlaps (rootedText parts) (joinParts others) ↔ parts <+: others ∨ others <+: parts := by
  cases parts with
  | nil => simp [overlaps, rootedText]
  | cons part rest =>
    have below : joinParts (part :: rest) ≠ str "/" := by
      intro root
      have empty : part ++ joinParts rest = [] := (List.cons.inj root).2
      exact (plain part List.mem_cons_self).1 (List.append_eq_nil_iff.mp empty).1
    have inside := slash_iff_isPrefix plain' plain
    have around := joinParts_slash_iff plain plain'
    simp only [overlaps, rootedText, Bool.or_eq_true, beq_iff_eq, Str.hasPrefix_iff, below,
      reduceCtorEq, if_false, or_false, inside, around]
    grind

theorem protectedPaths_eq : ∀ reserved ∈ protectedPaths,
    reserved = joinParts (cleanParts true reserved) := by
  decide +kernel

theorem validateGuestAddressMounts_ok_iff (mounts : List Mount)
    (absolute : ∀ mount ∈ mounts, mount.target.hasPrefix (str "/")) :
    validateGuestAddressMounts mounts = .ok () ↔
      ∀ mount ∈ mounts, ∀ reserved ∈ protectedPaths,
        ¬(guestParts mount.target <+: cleanParts true reserved ∨
          cleanParts true reserved <+: guestParts mount.target) := by
  have decides : ∀ mount ∈ mounts, ∀ reserved ∈ protectedPaths,
      (overlaps (guestTarget (cleanPath mount.target)) reserved ↔
        guestParts mount.target <+: cleanParts true reserved ∨
          cleanParts true reserved <+: guestParts mount.target) := by
    intro mount mem reserved isReserved
    rw [guestTarget_cleanPath (absolute mount mem)]
    nth_rewrite 1 [protectedPaths_eq reserved isReserved]
    exact overlaps_rootedText (plain_guestParts _) (plain_cleanParts true reserved)
  have accepted : validateGuestAddressMounts mounts = .ok () ↔ ∀ mount ∈ mounts,
      ∀ reserved ∈ protectedPaths,
        ¬overlaps (guestTarget (cleanPath mount.target)) reserved := by
    rw [validateGuestAddressMounts]
    split
    · next mount found =>
      have refused := List.find?_some found
      have mem := List.mem_of_find?_eq_some found
      simp only [List.any_eq_true] at refused
      grind
    · next none =>
      simpa using none
  rw [accepted]
  exact forall₂_congr fun mount mem => forall₂_congr fun reserved isReserved =>
    not_congr (decides mount mem reserved isReserved)

theorem validateGuestAddressMounts_run_work :
    validateGuestAddressMounts [⟨str "/srv", str "/var/run/kiac/statusd", false⟩] = .ok () :=
  (validateGuestAddressMounts_ok_iff _ (by decide)).mpr (by decide +kernel)

end Kiac.Krunkit
