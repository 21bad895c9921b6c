import Kiac.Cluster.Guarded
import Kiac.Text.Occurrence

/-!
# Pointing a worker at the control plane

`healWorkerScript` looks for the address of the control plane with an expression whose dots stand
for any byte. In a `kubelet.conf` with one server line this makes no difference: an address has
three dots, so an expression that matches another address of the same length has a digit where
that address has a dot, and one of another length meets the colon before the port.
-/

namespace Kiac.Cluster.Guarded

open Kiac.Str

abbrev serverKey : Str := str "server: https://"

/-- A `kubelet.conf` with one server line, which ends after the port. -/
structure OneServer (content start address rest : Str) : Prop where
  text : content = start ++ (serverKey ++ (address ++ (str ":6443" ++ rest)))
  quad : dottedQuad address = true
  ends : rest = [] ∨ ∃ below, rest = byte '\n' :: below
  notAbove : ¬ serverKey <:+: start
  notBelow : ¬ serverKey <:+: rest

section Quads

variable {address : Str}

theorem isQuadByte_of_dottedQuad (quad : dottedQuad address) :
    ∀ b ∈ address, isQuadByte b := by
  simp only [dottedQuad, Bool.and_eq_true, List.all_eq_true] at quad
  intro b mem
  by_cases dot : b = byte '.'
  · simp [isQuadByte, dot]
  · have inParts : b ∈ (address.splitOnP (· == byte '.')).flatten := by
      rw [flatten_splitOnP]
      simpa [dot] using mem
    rcases List.mem_flatten.mp inParts with ⟨part, isPart, inPart⟩
    simp [isQuadByte, (quad.2 part isPart).2 b inPart]

theorem count_of_dottedQuad (quad : dottedQuad address) : address.count (byte '.') = 3 := by
  simp only [dottedQuad, Bool.and_eq_true, beq_iff_eq, length_splitOnP] at quad
  exact Nat.succ.inj quad.1

theorem not_mem_of_dottedQuad (quad : dottedQuad address) {b : UInt8}
    (other : isQuadByte b = false) : b ∉ address := by
  intro mem
  rw [isQuadByte_of_dottedQuad quad b mem] at other
  cases other

end Quads

section Matches

variable {pattern pattern' s : Str}

theorem matchesAt_append : matchesAt (pattern ++ pattern') s =
    (matchesAt pattern s && matchesAt pattern' (s.drop pattern.length)) := by
  induction pattern generalizing s with
  | nil => rfl
  | cons p pattern ih =>
    cases s with
    | nil => rfl
    | cons b s => simp only [List.cons_append, matchesAt, ih, Bool.and_assoc, List.length_cons,
        List.drop_succ_cons]

theorem matchesAt_self (rest : Str) : matchesAt pattern (pattern ++ rest) := by
  induction pattern with
  | nil => rfl
  | cons p pattern ih => simp [matchesAt, ih]

theorem isPrefix_of_matchesAt (plain : byte '.' ∉ pattern) (found : matchesAt pattern s) :
    pattern <+: s := by
  induction pattern generalizing s with
  | nil => exact List.nil_prefix
  | cons p pattern ih =>
    cases s with
    | nil => cases found
    | cons b s =>
      have noDot : (p == byte '.') = false := beq_false_of_ne fun dot => plain (dot ▸ .head _)
      simp only [matchesAt, noDot, Bool.false_and, Bool.or_false, Bool.and_eq_true,
        beq_iff_eq] at found
      rcases found with ⟨rfl, more⟩
      exact List.cons_prefix_cons.mpr ⟨rfl, ih (fun mem => plain (.tail _ mem)) more⟩

theorem length_le_of_matchesAt (found : matchesAt pattern s) :
    pattern.length ≤ s.length := by
  induction pattern generalizing s with
  | nil => exact Nat.zero_le _
  | cons p pattern ih =>
    cases s with
    | nil => cases found
    | cons b s =>
      simp only [matchesAt, Bool.and_eq_true] at found
      exact Nat.succ_le_succ (ih found.2)

theorem matchesAt_line (plain : byte '\n' ∉ pattern) (rest : Str) :
    matchesAt pattern (s ++ byte '\n' :: rest) = matchesAt pattern s := by
  induction pattern generalizing s with
  | nil => rfl
  | cons p pattern ih =>
    cases s with
    | nil =>
      have other : (p == byte '\n') = false :=
        beq_false_of_ne fun same => plain (same ▸ .head _)
      simp [matchesAt, other]
    | cons b s =>
      simp [matchesAt, ih fun mem => plain (.tail _ mem)]

theorem count_le_of_matchesAt {rest : Str} (found : matchesAt pattern (s ++ rest))
    (same : pattern.length = s.length) : s.count (byte '.') ≤ pattern.count (byte '.') ∧
      (pattern.count (byte '.') = s.count (byte '.') → pattern = s) := by
  induction pattern generalizing s with
  | nil =>
    obtain rfl := List.eq_nil_of_length_eq_zero same.symm
    exact ⟨le_rfl, fun _ => rfl⟩
  | cons p pattern ih =>
    cases s with
    | nil => cases same
    | cons b s =>
      simp only [List.cons_append, matchesAt, Bool.and_eq_true, Bool.or_eq_true,
        beq_iff_eq] at found
      rcases found with ⟨here, more⟩
      rcases ih more (Nat.succ.inj same) with ⟨fewer, equal⟩
      by_cases eq : p = b
      · subst eq
        simp only [List.count_cons]
        refine ⟨by omega, fun counts => ?_⟩
        rw [equal (by omega)]
      · have dot : p = byte '.' := by
          rcases here with here | ⟨dot, _⟩
          · exact absurd here eq
          · exact dot
        have noDot : b ≠ byte '.' := fun dot' => eq (dot.trans dot'.symm)
        simp only [List.count_cons, dot, beq_self_eq_true, if_true, beq_iff_eq, noDot, if_false]
        omega

theorem matchesAt_address_iff {cpIP address rest : Str} (quad : dottedQuad cpIP)
    (quad' : dottedQuad address) (ends : rest = [] ∨ ∃ below, rest = byte '\n' :: below) :
    matchesAt (cpIP ++ str ":6443") (address ++ (str ":6443" ++ rest)) ↔ address = cpIP := by
  constructor
  · intro found
    have plain : byte '\n' ∉ cpIP ++ str ":6443" := by
      rw [List.mem_append, not_or]
      exact ⟨not_mem_of_dottedQuad quad (by decide), by decide⟩
    -- The match lies within the line.
    have inLine : matchesAt (cpIP ++ str ":6443") (address ++ str ":6443") := by
      rcases ends with rfl | ⟨below, rfl⟩
      · simpa using found
      · rwa [← List.append_assoc, matchesAt_line plain] at found
    have short : cpIP.length ≤ address.length := by
      have length := length_le_of_matchesAt inLine
      simpa using length
    rw [matchesAt_append, Bool.and_eq_true, List.drop_append_of_le_length short] at inLine
    -- If the expression's address were shorter, its colon would meet a byte of the other address.
    have rest' : address.drop cpIP.length = [] := by
      cases left : address.drop cpIP.length with
      | nil => rfl
      | cons b left' =>
        have inAddress := List.mem_of_mem_drop (left ▸ List.mem_cons_self)
        rw [left] at inLine
        have colon := (List.cons_prefix_cons.mp (isPrefix_of_matchesAt (by decide) inLine.2)).1
        exact absurd (colon ▸ inAddress) (not_mem_of_dottedQuad quad' (by decide))
    have same := le_antisymm short (List.drop_eq_nil_iff.mp rest')
    refine ((count_le_of_matchesAt inLine.1 same).2 ?_).symm
    rw [count_of_dottedQuad quad, count_of_dottedQuad quad']
  · rintro rfl
    rw [← List.append_assoc]
    exact matchesAt_self rest

theorem grep_iff : grep pattern s ↔
    ∃ start rest, s = start ++ rest ∧ matchesAt pattern rest := by
  induction s with
  | nil =>
    constructor
    · exact fun found => ⟨[], [], rfl, found⟩
    · rintro ⟨start, rest, whole, found⟩
      rw [(List.append_eq_nil_iff.mp whole.symm).2] at found
      exact found
  | cons b s ih =>
    rw [grep, Bool.or_eq_true, ih]
    constructor
    · rintro (here | ⟨start, rest, rfl, found⟩)
      · exact ⟨[], b :: s, rfl, here⟩
      · exact ⟨b :: start, rest, rfl, found⟩
    · rintro ⟨start, rest, whole, found⟩
      cases start with
      | nil => exact .inl (whole ▸ found)
      | cons c start => exact .inr ⟨start, rest, (List.cons.inj whole).2, found⟩

end Matches

theorem unbordered_serverKey : Unbordered serverKey := by
  unfold Unbordered
  decide

section Lines

variable {cpIP start address rest : Str}

theorem not_isInfix_address (quad : dottedQuad address) (notBelow : ¬ serverKey <:+: rest) :
    ¬ serverKey <:+: address ++ (str ":6443" ++ rest) := by
  have noLetter : byte 's' ∉ address ++ str ":6443" := by
    rw [List.mem_append, not_or]
    exact ⟨not_mem_of_dottedQuad quad (by decide), by decide⟩
  rw [← List.append_assoc]
  exact fun occurs => notBelow (isInfix_of_append noLetter occurs)

theorem grep_server_iff {content : Str} (quad : dottedQuad cpIP)
    (one : OneServer content start address rest) :
    grep (serverKey ++ cpIP ++ str ":6443") content ↔ address = cpIP := by
  rw [← matchesAt_address_iff quad one.quad one.ends, grep_iff]
  constructor
  · rintro ⟨start', rest', whole, found⟩
    rw [List.append_assoc, matchesAt_append, Bool.and_eq_true] at found
    rcases isPrefix_of_matchesAt (by decide) found.1 with ⟨tail, rfl⟩
    rw [one.text] at whole
    obtain rfl := unbordered_serverKey.eq_of_append one.notAbove
      (not_isInfix_address one.quad one.notBelow) whole.symm
    have same := List.append_cancel_left (List.append_cancel_left whole)
    rw [List.drop_left, ← same] at found
    exact found.2
  · intro found
    refine ⟨start, _, one.text, ?_⟩
    rw [List.append_assoc, matchesAt_append, matchesAt_self, List.drop_left, found, Bool.and_self]

theorem serverAt_eq_none {line : Str} (absent : ¬ serverKey <+: line) : serverAt line = none := by
  have missing : skipExact serverKey line = none :=
    if_neg fun found => absent (hasPrefix_iff.mp found)
  rw [serverAt, missing]
  rfl

theorem serverAt_address (quad : dottedQuad address) :
    serverAt (serverKey ++ (address ++ str ":6443")) = some (str ":6443") := by
  have found : skipExact serverKey (serverKey ++ (address ++ str ":6443")) =
      some (address ++ str ":6443") := by
    rw [skipExact, if_pos (hasPrefix_append _ _), List.drop_left]
  have digits : (address ++ str ":6443").takeWhile isQuadByte = address := by
    rw [List.takeWhile_append_of_pos (isQuadByte_of_dottedQuad quad)]
    exact List.append_nil address
  have nonempty : address.isEmpty = false := by
    cases address with
    | nil => exact absurd quad (by decide)
    | cons b rest => rfl
  simp only [serverAt, found, Option.bind_eq_bind, Option.bind_some, digits, List.drop_left,
    nonempty]
  rfl

theorem sedLine_of_serverAt {line port : Str} (found : serverAt line = some port) :
    sedLine cpIP line = serverKey ++ (cpIP ++ port) := by
  cases line with
  | nil => cases found
  | cons b line =>
    rw [sedLine, found]
    exact List.append_assoc _ _ _

theorem sedLine_of_not_isInfix {line : Str} (absent : ¬ serverKey <:+: line) :
    sedLine cpIP line = line := by
  induction line with
  | nil => rfl
  | cons b line ih =>
    have notHere : ¬ serverKey <+: b :: line := fun here => absent here.isInfix
    have notLater : ¬ serverKey <:+: line := fun later =>
      absent (later.trans (List.suffix_cons b line).isInfix)
    rw [sedLine, serverAt_eq_none notHere]
    exact congrArg (b :: ·) (ih notLater)

theorem sedLine_address (quad : dottedQuad address) (notAbove : ¬ serverKey <:+: start) :
    sedLine cpIP (start ++ (serverKey ++ (address ++ str ":6443"))) =
      start ++ (serverKey ++ (cpIP ++ str ":6443")) := by
  induction start with
  | nil => exact sedLine_of_serverAt (serverAt_address quad)
  | cons b start ih =>
    have notLater : ¬ serverKey <:+: start := fun later =>
      notAbove (later.trans (List.suffix_cons b start).isInfix)
    have notHere : ¬ serverKey <+: b :: start ++ (serverKey ++ (address ++ str ":6443")) := by
      intro here
      rcases unbordered_serverKey.eq_nil_or_isPrefix here with empty | within
      · cases empty
      · exact notAbove within.isInfix
    rw [List.cons_append] at notHere ⊢
    rw [sedLine, serverAt_eq_none notHere]
    exact congrArg (b :: ·) (ih notLater)

theorem sedServer_line {line : Str} (single : byte '\n' ∉ line) :
    sedServer cpIP line = sedLine cpIP line := by
  have other : ∀ b ∈ line, (b == byte '\n') = false :=
    fun b mem => beq_false_of_ne (ne_of_mem_of_not_mem mem single)
  simp [sedServer, List.splitOnP_eq_singleton other, List.intercalate]

theorem sedServer_append (above below : Str) : sedServer cpIP (above ++ byte '\n' :: below) =
    sedServer cpIP above ++ byte '\n' :: sedServer cpIP below := by
  have split : (above ++ byte '\n' :: below).splitOnP (· == byte '\n') = _ :=
    List.splitOnP_append_cons above below (beq_self_eq_true _)
  rw [sedServer, split, List.map_append, intercalate_append]
  · rfl
  · simp [List.splitOnP_ne_nil]
  · simp [List.splitOnP_ne_nil]

theorem sedServer_of_not_isInfix {text : Str} (absent : ¬ serverKey <:+: text) :
    sedServer cpIP text = text := by
  induction text using lines_induction (byte '\n') with
  | last line single => rw [sedServer_line single, sedLine_of_not_isInfix absent]
  | more line below single ih =>
    have notHere : ¬ serverKey <:+: line := fun here =>
      absent (here.trans (List.prefix_append _ _).isInfix)
    have notBelow : ¬ serverKey <:+: below := fun later =>
      absent (later.trans ((List.suffix_cons _ _).trans (List.suffix_append _ _)).isInfix)
    rw [sedServer_append, sedServer_line single, sedLine_of_not_isInfix notHere, ih notBelow]

theorem sedServer_address (quad : dottedQuad address)
    (ends : rest = [] ∨ ∃ below, rest = byte '\n' :: below) (notAbove : ¬ serverKey <:+: start)
    (notBelow : ¬ serverKey <:+: rest) :
    sedServer cpIP (start ++ (serverKey ++ (address ++ (str ":6443" ++ rest)))) =
      start ++ (serverKey ++ (cpIP ++ (str ":6443" ++ rest))) := by
  induction start using lines_induction (byte '\n') with
  | last line single =>
    have single' : byte '\n' ∉ line ++ (serverKey ++ (address ++ str ":6443")) := by
      simp only [List.mem_append, not_or]
      exact ⟨single, by decide, not_mem_of_dottedQuad quad (by decide), by decide⟩
    rcases ends with rfl | ⟨below, rfl⟩
    · rw [List.append_nil, sedServer_line single', sedLine_address quad notAbove]
    · have notBelow' : ¬ serverKey <:+: below := fun later =>
        notBelow (later.trans (List.suffix_cons _ _).isInfix)
      have whole : line ++ (serverKey ++ (address ++ (str ":6443" ++ byte '\n' :: below))) =
          line ++ (serverKey ++ (address ++ str ":6443")) ++ byte '\n' :: below := by simp
      rw [whole, sedServer_append, sedServer_line single', sedLine_address quad notAbove,
        sedServer_of_not_isInfix notBelow']
      simp
  | more line below single ih =>
    have notHere : ¬ serverKey <:+: line := fun here =>
      notAbove (here.trans (List.prefix_append _ _).isInfix)
    have notAbove' : ¬ serverKey <:+: below := fun later =>
      notAbove (later.trans ((List.suffix_cons _ _).trans (List.suffix_append _ _)).isInfix)
    rw [List.append_assoc, List.cons_append, sedServer_append, sedServer_line single,
      sedLine_of_not_isInfix notHere, ih notAbove', List.append_assoc, List.cons_append]

end Lines

theorem returns_repointed {before : GuestNode} (cpIP : Str) :
    Returns faulty (fun node => node = before) (healWorkerScript cpIP)
      (fun _ node => node.files .kubeletConf =
        if grep (serverKey ++ cpIP ++ str ":6443") (before.files .kubeletConf) then
          before.files .kubeletConf
        else sedServer cpIP (before.files .kubeletConf)) fun _ => True := by
  refine Returns.bind (returns_read rfl fun _ answer => (Except.ok.inj answer).symm)
    fun status => Returns.assume fun isStatus => ?_
  subst isStatus
  cases found : grep (serverKey ++ cpIP ++ str ":6443") (before.files .kubeletConf) with
  | true =>
    refine Returns.pure ?_
    rintro node rfl
    rfl
  | false =>
    have rewrites : Returns faulty (fun node => node = before) (run (.sedServer cpIP))
        (fun _ node => node.files .kubeletConf = sedServer cpIP (before.files .kubeletConf))
        fun _ => True := by
      refine returns_run ?_
      rintro node _ rfl _
      simp [NodeOp.effect, GuestNode.write]
    have restarts : Returns faulty
        (fun node => node.files .kubeletConf = sedServer cpIP (before.files .kubeletConf))
        (run (.restart .kubelet))
        (fun _ node => node.files .kubeletConf = sedServer cpIP (before.files .kubeletConf))
        fun _ => True := returns_run fun _ _ same _ => same
    refine Returns.bind rewrites fun _ => Returns.bind restarts fun _ => Returns.pure ?_
    exact fun _ => id

theorem follow_healWorkerScript (cpIP : Str) (before : GuestNode) :
    ((healWorkerScript cpIP).run.follow nodeMachine succeed before).2 = .ok () := by
  cases found : grep (serverKey ++ cpIP ++ str ":6443") (before.files .kubeletConf) <;>
    simp only [healWorkerScript, Prog.follow_run_bind, follow_run, NodeOp.answer, found] <;> rfl

/-- For a `kubelet.conf` with one server line, the guard of the script is exact, and the script
leaves the line with the address of the control plane and everything else as it was. -/
theorem worker_repointed {before : GuestNode} {cpIP start address rest : Str}
    (quad : dottedQuad cpIP = true)
    (one : OneServer (before.files .kubeletConf) start address rest) :
    (grep (serverKey ++ cpIP ++ str ":6443") (before.files .kubeletConf) = true ↔
        address = cpIP) ∧
      ((healWorkerScript cpIP).run.follow nodeMachine succeed before).2 = .ok () ∧
      ∀ choices, ((healWorkerScript cpIP).run.exec nodeMachine choices before).value =
          some (.ok ()) →
        OneServer (((healWorkerScript cpIP).run.exec nodeMachine choices before).state.files
          .kubeletConf) start cpIP rest := by
  have guard := grep_server_iff quad one
  refine ⟨guard, follow_healWorkerScript cpIP before, fun choices succeeds => ?_⟩
  have fair : (healWorkerScript cpIP).run.FairRun faulty.machine faulty.fair choices before :=
    Prog.fairRun_of_forall (fun _ _ _ _ => trivial) _ _
  have ends := (returns_repointed cpIP).returned rfl fair succeeds
  refine ⟨Eq.trans ends ?_, quad, one.ends, one.notAbove, one.notBelow⟩
  split
  · rename_i found
    rw [← guard.mp found]
    exact one.text
  · rw [one.text]
    exact sedServer_address one.quad one.ends one.notAbove one.notBelow

theorem worker_repointed_moved :
    OneServer (movedNode.files .kubeletConf) (str "    ") (str "192.168.64.2") (str "\n") ∧
      ∀ choices, ((healWorkerScript (str "192.168.64.20")).run.exec nodeMachine choices
          movedNode).value = some (.ok ()) →
        OneServer (((healWorkerScript (str "192.168.64.20")).run.exec nodeMachine choices
          movedNode).state.files .kubeletConf) (str "    ") (str "192.168.64.20") (str "\n") := by
  have one : OneServer (movedNode.files .kubeletConf) (str "    ") (str "192.168.64.2")
      (str "\n") :=
    ⟨rfl, by decide +kernel, .inr ⟨[], rfl⟩, by decide, by decide⟩
  exact ⟨one, (worker_repointed (by decide +kernel) one).2.2⟩

end Kiac.Cluster.Guarded
