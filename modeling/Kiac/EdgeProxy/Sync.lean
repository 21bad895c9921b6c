import Kiac.EdgeProxy.Tunnel

/-!
# Convergence of the rules

`syncRules` skips its work when the snapshot is the one of the last successful call and the base
rules are in place. Two kinds of failure break this. An error while the rules of the Services are
appended is only logged, so the snapshot is remembered although its rules are incomplete. And when
the flush of the second family's first chain fails, the first family has base rules without Service
rules. In runs without such a failure, every call that returns without an error has brought chains
and routes in line with its snapshot.
-/

namespace Kiac.EdgeProxy

open Prog

/-- The failures that do no lasting harm: neither a Service rule nor the flush of
`KIAC-EDGE` in the IPv6 table fails. -/
def Reliable : Ipt → Bool → Prop
  | ⟨_, .append _ (.redirectTo _ _ _)⟩, works => works = true
  | ⟨true, .flush .edge⟩, works => works = true
  | _, _ => True

def Ensures {α : Type} (program : Prog Ipt Ipt.Ans α) (post : α → Tables → Prop)
    (tables : Tables) : Prop :=
  program.wp machine (fun op works _ => Reliable op works) (fun _ _ => True) post tables

def Missing (app : App) (tables : Tables) : Prop :=
  ∃ v6 ∈ app.families, ∃ chain, ∃ rule ∈ app.base chain, rule ∉ tables.rules v6 chain

def Present (tables : Tables) (v6 : Bool) : Prop := ∀ chain, (tables v6 chain).isSome = true

def setRules (rules : Bool → Chain → List Rule) (v6 : Bool) (chain : Chain) (new : List Rule) :
    Bool → Chain → List Rule :=
  Function.update rules v6 (Function.update (rules v6) chain new)

@[simp]
theorem setRules_self (rules : Bool → Chain → List Rule) (v6 : Bool) (chain : Chain)
    (new : List Rule) : setRules rules v6 chain new v6 chain = new := by
  simp [setRules]

variable {rules : Bool → Chain → List Rule} {v6 : Bool} {chain : Chain} {tables : Tables} {α : Type}
  {command : Command} {post : Except Unit Unit → Tables → Prop} {app : App}

theorem setRules_family {v6' : Bool} (chain chain' : Chain) (new : List Rule) (other : v6' ≠ v6) :
    setRules rules v6 chain new v6' chain' = rules v6' chain' := by
  simp [setRules, other]

theorem setRules_chain (v6 : Bool) {chain' : Chain} (new : List Rule) (other : chain' ≠ chain) :
    setRules rules v6 chain new v6 chain' = rules v6 chain' := by
  simp [setRules, other]

theorem rules_set (tables : Tables) (v6 : Bool) (chain : Chain) (state : ChainState) :
    (tables.set v6 chain state).rules = setRules tables.rules v6 chain state.rules := by
  funext v6' chain'
  by_cases family : v6' = v6
  · subst family
    by_cases same : chain' = chain
    · subst same
      simp [Tables.rules, Tables.set]
    · simp [Tables.rules, Tables.set, setRules_chain, same]
  · simp [Tables.rules, Tables.set, setRules_family, family]

structure Becomes (tables next : Tables) (rules : Bool → Chain → List Rule) : Prop where
  keeps : ∀ v6 chain, (tables v6 chain).isSome = true → (next v6 chain).isSome = true
  rules_eq : next.rules = rules

theorem Becomes.present {next : Tables}
    (becomes : Becomes tables next rules) (v6 : Bool) (before : Present tables v6) :
    Present next v6 := fun chain => becomes.keeps v6 chain (before chain)

theorem Becomes.refl (tables : Tables) : Becomes tables tables tables.rules :=
  ⟨fun _ _ => id, rfl⟩

theorem Becomes.trans {middle next : Tables} {rules' : Bool → Chain → List Rule}
    (first : Becomes tables middle rules) (second : Becomes middle next rules') :
    Becomes tables next rules' :=
  ⟨fun v6 chain present => second.keeps v6 chain (first.keeps v6 chain present), second.rules_eq⟩

theorem becomes_set (tables : Tables) (v6 : Bool) (chain : Chain) (state : ChainState) :
    Becomes tables (tables.set v6 chain state) (setRules tables.rules v6 chain state.rules) where
  keeps := by
    intro v6' chain' present
    by_cases family : v6' = v6
    · subst family
      by_cases same : chain' = chain
      · simp [Tables.set, same]
      · simpa [Tables.set, same] using present
    · simpa [Tables.set, family] using present
  rules_eq := rules_set tables v6 chain state

theorem setRules_eq_self (rules : Bool → Chain → List Rule) (v6 : Bool) (chain : Chain) :
    setRules rules v6 chain (rules v6 chain) = rules := by
  simp [setRules]

theorem ensures_run_bind {β : Type} {program : Commands α} {next : α → Commands β}
    {post : Except Unit β → Tables → Prop} :
    Ensures (program >>= next).run post tables ↔
      Ensures program.run (fun result after =>
        match result with
        | .ok value => Ensures (next value).run post after
        | .error err => post (.error err) after) tables := by
  constructor
  · intro holds
    refine wp_mono (wp_run_bind.mp holds) ?_
    intro result after next
    cases result <;> exact next
  · intro holds
    refine wp_run_bind.mpr (wp_mono holds ?_)
    intro result after next
    cases result <;> exact next

theorem ensures_mono {program : Prog Ipt Ipt.Ans α} {post post' : α → Tables → Prop}
    (holds : Ensures program post tables)
    (weaken : ∀ value after, post value after → post' value after) :
    Ensures program post' tables := wp_mono holds weaken

theorem ensures_ipt
    (ok : (command.effect v6 tables).2 → post (.ok ()) (command.effect v6 tables).1)
    (error : (command.effect v6 tables).2 = false → post (.error ()) (command.effect v6 tables).1)
    (fails : Reliable ⟨v6, command⟩ false → post (.error ()) tables) :
    Ensures (ipt v6 command).run post tables := by
  refine ⟨trivial, ?_⟩
  intro works reliable
  cases works with
  | false => exact fails reliable
  | true =>
    change (Prog.done (if (command.effect v6 tables).2 = true then _ else _)).wp _ _ _ _
      (command.effect v6 tables).1
    cases succeeded : (command.effect v6 tables).2 with
    | true => exact ok succeeded
    | false => exact error succeeded

theorem ensures_iptOK {post : Except Unit Bool → Tables → Prop}
    (works : post (.ok (command.effect v6 tables).2) (command.effect v6 tables).1)
    (fails : post (.ok false) tables) : Ensures (iptOK v6 command).run post tables := by
  refine ⟨trivial, ?_⟩
  intro choice _
  cases choice with
  | false => exact fails
  | true => exact works

theorem ensures_write {new : List Rule} (writes : ∀ state, tables v6 chain = some state →
      command.effect v6 tables = (tables.set v6 chain { state with rules := new }, true))
    (present : Present tables v6)
    (ok : ∀ next, Becomes tables next (setRules tables.rules v6 chain new) → post (.ok ()) next)
    (fails : Reliable ⟨v6, command⟩ false → post (.error ()) tables) :
    Ensures (ipt v6 command).run post tables := by
  rcases Option.isSome_iff_exists.mp (present chain) with ⟨state, exists'⟩
  have effect := writes state exists'
  refine ensures_ipt ?_ ?_ fails
  · intro _
    rw [effect]
    exact ok _ (becomes_set tables v6 chain _)
  · intro failed
    rw [effect] at failed
    cases failed

theorem ensures_flush (present : Present tables v6)
    (ok : ∀ next, Becomes tables next (setRules tables.rules v6 chain []) → post (.ok ()) next)
    (fails : Reliable ⟨v6, .flush chain⟩ false → post (.error ()) tables) :
    Ensures (ipt v6 (.flush chain)).run post tables := by
  refine ensures_write ?_ present ok fails
  intro state exists'
  simp [Command.effect, exists']

theorem rules_of_some {state : ChainState}
    (exists' : tables v6 chain = some state) : tables.rules v6 chain = state.rules := by
  simp [Tables.rules, exists']

theorem ensures_append {rule : Rule} (present : Present tables v6) (ok : ∀ next, Becomes tables next
      (setRules tables.rules v6 chain (tables.rules v6 chain ++ [rule])) → post (.ok ()) next)
    (fails : Reliable ⟨v6, .append chain rule⟩ false → post (.error ()) tables) :
    Ensures (ipt v6 (.append chain rule)).run post tables := by
  refine ensures_write ?_ present ok fails
  intro state exists'
  simp [Command.effect, exists', rules_of_some exists']

/-- The base rules of one family are written, or one of them is missing afterwards. Only a
failure of the first flush leaves everything as it was, and only in the first family. -/
theorem ensures_baseRules (isFamily : v6 ∈ app.families) (present : Present tables v6) :
    Ensures (app.baseRules v6).run (fun result next =>
      match result with
      | .ok _ => Becomes tables next (Function.update tables.rules v6 app.base)
      | .error _ => Missing app next ∨ v6 = false ∧ next = tables) tables := by
  have missing : ∀ {next : Tables} (chain : Chain) (rule : Rule), rule ∈ app.base chain →
      rule ∉ next.rules v6 chain → Missing app next :=
    fun chain rule isBase absent => ⟨v6, isFamily, chain, rule, isBase, absent⟩
  have distinct : app.nodePortRule ≠ app.returnRule := by simp [App.nodePortRule, App.returnRule]
  unfold App.baseRules
  rw [ensures_run_bind]
  refine ensures_flush present ?_ ?_
  swap
  · intro reliable
    refine Or.inr ⟨?_, rfl⟩
    cases v6 with
    | false => rfl
    | true => cases reliable
  intro flushed1 becomes1
  rw [ensures_run_bind]
  refine ensures_flush (becomes1.present v6 present) ?_ ?_
  swap
  · intro _
    exact Or.inl (missing .edge app.returnRule (by simp [App.base]) (by simp [becomes1.rules_eq]))
  intro flushed2 becomes2
  rw [ensures_run_bind]
  refine ensures_append (becomes2.present v6 (becomes1.present v6 present)) ?_ ?_
  swap
  · intro _
    exact Or.inl (missing .output app.returnRule (by simp [App.base]) (by simp [becomes2.rules_eq]))
  intro appended1 becomes3
  rw [ensures_run_bind]
  refine ensures_append ?_ ?_ ?_
  · exact becomes3.present v6 (becomes2.present v6 (becomes1.present v6 present))
  swap
  · intro _
    refine Or.inl (missing .output app.returnRule (by simp [App.base]) ?_)
    rw [becomes3.rules_eq, setRules_chain v6 _ (by decide), becomes2.rules_eq]
    simp
  intro appended2 becomes4
  have edge : appended2.rules v6 .edge = [app.returnRule] := by
    rw [becomes4.rules_eq, setRules_chain v6 _ (by decide), becomes3.rules_eq, setRules_self,
      becomes2.rules_eq, setRules_chain v6 _ (by decide), becomes1.rules_eq, setRules_self,
      List.nil_append]
  have output : appended2.rules v6 .output = [app.returnRule] := by
    rw [becomes4.rules_eq, setRules_self, becomes3.rules_eq, setRules_chain v6 _ (by decide),
      becomes2.rules_eq, setRules_self, List.nil_append]
  have others : ∀ family, family ≠ v6 → appended2.rules family = tables.rules family := by
    intro family other
    funext chain
    rw [becomes4.rules_eq, setRules_family _ _ _ other, becomes3.rules_eq,
      setRules_family _ _ _ other, becomes2.rules_eq, setRules_family _ _ _ other,
      becomes1.rules_eq, setRules_family _ _ _ other]
  have kept := becomes1.trans (becomes2.trans (becomes3.trans becomes4))
  refine ensures_append (kept.present v6 present) ?_ ?_
  · intro next becomes5
    refine ⟨(kept.trans becomes5).keeps, ?_⟩
    rw [becomes5.rules_eq, edge]
    funext family chain
    by_cases other : family = v6
    · subst other
      cases chain with
      | edge => simp [App.base]
      | output => simp [setRules_chain, output, App.base]
    · simp [setRules_family, other, others]
  · intro _
    exact Or.inl (missing .edge app.nodePortRule (by simp [App.base]) (by simp [edge, distinct]))

theorem ensures_pure {value : α} {post : Except Unit α → Tables → Prop}
    (holds : post (.ok value) tables) :
    Ensures (pure value : Commands α).run post tables := holds

theorem ensures_allBaseRules (present : ∀ v6 ∈ app.families, Present tables v6) :
    Ensures (app.families.forM app.baseRules).run (fun result next =>
      match result with
      | .ok _ => (∀ v6 ∈ app.families, Present next v6) ∧
          ∀ v6 ∈ app.families, next.rules v6 = app.base
      | .error _ => Missing app next ∨ next = tables) tables := by
  have firstFamily : false ∈ app.families := mem_families.mpr fun wrong => Bool.noConfusion wrong
  have first := ensures_baseRules firstFamily (present false firstFamily)
  cases hasIPv6 : app.hasIPv6 with
  | false =>
    have families : app.families = [false] := by simp [App.families, hasIPv6]
    simp only [families, List.mem_singleton, forall_eq] at present ⊢
    change Ensures (app.baseRules false >>= fun _ => pure PUnit.unit).run _ tables
    rw [ensures_run_bind]
    refine ensures_mono first ?_
    intro result next holds
    cases result with
    | error err => exact holds.imp_right And.right
    | ok _ =>
      refine ensures_pure ⟨holds.present false present, ?_⟩
      rw [holds.rules_eq]
      simp
  | true =>
    have families : app.families = [false, true] := by simp [App.families, hasIPv6]
    have secondFamily : true ∈ app.families := by simp [families]
    have loop : app.families.forM app.baseRules = app.baseRules false >>= fun _ =>
        app.baseRules true >>= fun _ => pure PUnit.unit := by
      rw [families]
      rfl
    rw [loop, ensures_run_bind]
    refine ensures_mono first ?_
    intro result middle holds
    cases result with
    | error err => exact holds.imp_right And.right
    | ok _ =>
      rw [ensures_run_bind]
      refine ensures_mono (ensures_baseRules secondFamily
        (holds.present true (present true secondFamily))) ?_
      intro result next after
      cases result with
      | error err => exact Or.inl (after.resolve_right fun wrong => Bool.noConfusion wrong.1)
      | ok _ =>
        refine ensures_pure ⟨?_, ?_⟩
        · intro v6 isFamily
          exact after.present v6 (holds.present v6 (present v6 isFamily))
        · intro v6 _
          rw [after.rules_eq, holds.rules_eq]
          cases v6 <;> simp

theorem ensures_runSteps {steps : List RuleStep} {routes : RouteTable}
    (works : ∀ v6 chain rule, .append v6 chain rule ∈ steps →
      Present tables v6 ∧ ¬ Reliable ⟨v6, .append chain rule⟩ false) :
    Ensures (runSteps steps routes) (fun result next =>
      result = (steps.foldl RuleStep.record routes, true) ∧
        Becomes tables next fun v6 chain =>
          tables.rules v6 chain ++ steps.filterMap (RuleStep.appendedTo v6 chain)) tables := by
  induction steps generalizing routes tables with
  | nil => exact ⟨rfl, by simpa using Becomes.refl tables⟩
  | cons step steps ih =>
    have others : ∀ v6 chain rule, .append v6 chain rule ∈ steps →
        Present tables v6 ∧ ¬ Reliable ⟨v6, .append chain rule⟩ false :=
      fun v6 chain rule mem => works v6 chain rule (List.mem_cons_of_mem _ mem)
    cases step with
    | append v6 chain rule =>
      rcases works v6 chain rule List.mem_cons_self with ⟨present, reliable⟩
      rcases Option.isSome_iff_exists.mp (present chain) with ⟨state, exists'⟩
      refine ⟨trivial, ?_⟩
      intro choice isReliable
      cases choice with
      | false => exact absurd isReliable reliable
      | true =>
        have effect : EdgeProxy.step ⟨v6, .append chain rule⟩ true tables =
            (tables.set v6 chain { state with rules := state.rules ++ [rule] }, true) := by
          simp [EdgeProxy.step, Command.effect, exists']
        have becomes := becomes_set tables v6 chain { state with rules := state.rules ++ [rule] }
        change Ensures (if (EdgeProxy.step ⟨v6, .append chain rule⟩ true tables).2 = true then
          runSteps steps routes else _) _ (EdgeProxy.step ⟨v6, .append chain rule⟩ true tables).1
        rw [effect]
        refine ensures_mono (ih fun v6' chain' rule' mem =>
          ⟨becomes.present v6' (others v6' chain' rule' mem).1,
            (others v6' chain' rule' mem).2⟩) ?_
        rintro result next ⟨returned, after⟩
        refine ⟨returned, (becomes.trans after).keeps, ?_⟩
        rw [after.rules_eq, becomes.rules_eq]
        funext v6' chain'
        by_cases here : v6' = v6 ∧ chain' = chain
        · rcases here with ⟨rfl, rfl⟩
          simp [RuleStep.appendedTo, rules_of_some exists']
        · have elsewhere : setRules tables.rules v6 chain (state.rules ++ [rule]) v6' chain' =
              tables.rules v6' chain' := by
            by_cases family : v6' = v6
            · subst family
              exact setRules_chain v6' _ fun same => here ⟨rfl, same⟩
            · exact setRules_family _ _ _ family
          have skipped : RuleStep.appendedTo v6' chain' (.append v6 chain rule) = none :=
            if_neg fun same => here ⟨same.1.symm, same.2.symm⟩
          rw [elsewhere, List.filterMap_cons_none skipped]
    | allow target => exact ih others
    | nodePort key route => exact ih others
    | loadBalancer key route => exact ih others

theorem append_mem_steps {state : ClusterState}
    {rule : Rule} (mem : RuleStep.append v6 chain rule ∈ app.steps state) :
    v6 ∈ app.families ∧ ∃ dst dport toPorts, rule = .redirectTo dst dport toPorts := by
  rcases List.mem_flatMap.mp mem with ⟨svc, _, inService⟩
  rcases mem_serviceSteps.mp inService with ⟨port, _, inPort⟩ | ⟨_, ingress, _, inIngress⟩
  · rcases mem_portSteps.mp inPort with ⟨_, _, allowed⟩ | ⟨_, _, _, eq⟩
    · simp [App.allowLocalTargets] at allowed
    · cases eq
  · rcases mem_ingressSteps.mp inIngress with ⟨ip, _, isFamily, port, _, inPort⟩
    rcases (mem_ingressPortSteps.mp inPort).2 with eq | eq | eq
    · cases eq
      exact ⟨isFamily, _, _, _, rfl⟩
    · cases eq
      exact ⟨isFamily, _, _, _, rfl⟩
    · cases eq

section Calls

variable {Raw : Type} {app : App} {decoder : Decoder Raw}

variable {tables : Tables}

theorem ensures_addServiceRules {raw : Str} (present : ∀ v6 ∈ app.families, Present tables v6)
    (based : ∀ v6 ∈ app.families, tables.rules v6 = app.base) :
    Ensures (app.addServiceRules decoder raw .empty) (fun result next =>
      ∀ state, parseClusterState decoder raw = some state →
        app.Synced state next result.1) tables := by
  unfold App.addServiceRules
  cases parsed : parseClusterState decoder raw with
  | none =>
    intro state impossible
    cases impossible
  | some state =>
    refine ensures_mono (ensures_runSteps ?_) ?_
    · intro v6 chain rule mem
      rcases append_mem_steps mem with ⟨isFamily, dst, dport, toPorts, rfl⟩
      exact ⟨present v6 isFamily, fun fails => Bool.noConfusion fails⟩
    · rintro result next ⟨rfl, becomes⟩ other same
      obtain rfl := Option.some.inj same
      refine ⟨?_, rfl⟩
      intro v6 isFamily chain
      rw [becomes.rules_eq]
      change tables.rules v6 chain ++ _ = _
      rw [based v6 isFamily]
      rfl

theorem ensures_rewrite {snapshot : Str} (present : ∀ v6 ∈ app.families, Present tables v6) :
    Ensures (app.rewrite decoder snapshot).run (fun result next =>
      match result with
      | .ok memory => memory.lastSnapshot = snapshot ∧
          ∀ state, parseClusterState decoder snapshot = some state →
            app.Synced state next memory.routes
      | .error _ => Missing app next ∨ next = tables) tables := by
  unfold App.rewrite
  rw [ensures_run_bind]
  refine ensures_mono (ensures_allBaseRules present) ?_
  intro result based holds
  cases result with
  | error err => exact holds
  | ok _ =>
    simp only
    split
    · rename_i empty
      refine ensures_pure ⟨rfl, ?_⟩
      intro state parsed
      rw [empty] at parsed
      simp [parseClusterState, decoder.rejectsEmpty] at parsed
    · rw [ensures_run_bind]
      refine wp_bind.mpr (ensures_mono (ensures_addServiceRules holds.1 holds.2) ?_)
      rintro ⟨routes, succeeded⟩ next synced
      exact ⟨rfl, synced⟩

theorem ensures_anyMissing (checks : List (Bool × Chain × Rule)) (tables : Tables) :
    Ensures (anyMissing checks).run (fun result next =>
      next = tables ∧ (result = .ok false →
        ∀ check ∈ checks, check.2.2 ∈ tables.rules check.1 check.2.1)) tables := by
  induction checks with
  | nil => exact ensures_pure ⟨rfl, fun _ _ mem => absurd mem List.not_mem_nil⟩
  | cons check checks ih =>
    rcases check with ⟨v6, chain, rule⟩
    rw [anyMissing, ensures_run_bind]
    have stops : Ensures (pure true : Commands Bool).run (fun result next =>
        next = tables ∧ (result = .ok false →
          ∀ check ∈ (v6, chain, rule) :: checks, check.2.2 ∈ tables.rules check.1 check.2.1))
        tables := ensures_pure ⟨rfl, fun wrong => absurd wrong (by simp)⟩
    refine ensures_iptOK ?_ stops
    change Ensures (if (tables.rules v6 chain).contains rule = true then anyMissing checks
      else pure true).run _ tables
    by_cases found : (tables.rules v6 chain).contains rule = true
    · rw [if_pos found]
      refine ensures_mono ih ?_
      rintro result next ⟨rfl, all⟩
      refine ⟨rfl, fun none check mem => ?_⟩
      rcases List.mem_cons.mp mem with rfl | later
      · exact List.contains_iff_mem.mp found
      · exact all none check later
    · rw [if_neg found]
      exact stops

theorem not_missing_of_checks (checked : ∀ check ∈ app.families.flatMap app.baseChecks,
      check.2.2 ∈ tables.rules check.1 check.2.1) : ¬ Missing app tables := by
  rintro ⟨v6, isFamily, chain, rule, isBase, absent⟩
  refine absent (checked (v6, chain, rule) (List.mem_flatMap.mpr ⟨v6, isFamily, ?_⟩))
  cases chain with
  | edge =>
    rcases List.mem_pair.mp isBase with rfl | rfl <;> simp [App.baseChecks]
  | output =>
    obtain rfl := List.mem_singleton.mp isBase
    simp [App.baseChecks]

theorem ensures_upToDate (memory : Memory) (snapshot : Str) (tables : Tables) :
    Ensures (app.upToDate memory snapshot).run (fun result next =>
      next = tables ∧ (result = .ok true →
        snapshot = memory.lastSnapshot ∧ ¬ Missing app tables)) tables := by
  unfold App.upToDate
  split
  · rename_i same
    rw [ensures_run_bind]
    refine ensures_mono (ensures_anyMissing _ tables) ?_
    rintro result next ⟨rfl, checked⟩
    cases result with
    | error err => exact ⟨rfl, fun wrong => by cases wrong⟩
    | ok missing =>
      refine ensures_pure ⟨rfl, fun none => ⟨same, not_missing_of_checks (checked ?_)⟩⟩
      cases missing
      · rfl
      · cases none
  · exact ensures_pure ⟨rfl, fun wrong => by cases wrong⟩

theorem ensures_ensureJump (v6 : Bool) (chain : Chain) (tables : Tables) :
    Ensures (App.ensureJump v6 chain).run (fun result next =>
      Becomes tables next tables.rules ∧
        (result = .ok () → (next v6 chain).isSome)) tables := by
  have inserts : Ensures (ipt v6 (.insertJump chain)).run (fun result next =>
      Becomes tables next tables.rules ∧
        (result = .ok () → (next v6 chain).isSome = true)) tables := by
    cases exists' : tables v6 chain with
    | none =>
      have effect : (Command.insertJump chain).effect v6 tables = (tables, false) := by
        simp [Command.effect, exists']
      refine ensures_ipt ?_ ?_ ?_
      · intro succeeded
        rw [effect] at succeeded
        cases succeeded
      · intro _
        rw [effect]
        exact ⟨Becomes.refl tables, fun wrong => by cases wrong⟩
      · intro _
        exact ⟨Becomes.refl tables, fun wrong => by cases wrong⟩
    | some state =>
      have effect : (Command.insertJump chain).effect v6 tables =
          (tables.set v6 chain { state with jumps := state.jumps + 1 }, true) := by
        simp [Command.effect, exists']
      refine ensures_ipt ?_ ?_ ?_
      · intro _
        rw [effect]
        have becomes := becomes_set tables v6 chain { state with jumps := state.jumps + 1 }
        have same : setRules tables.rules v6 chain state.rules = tables.rules := by
          rw [← rules_of_some exists', setRules_eq_self]
        exact ⟨same ▸ becomes, fun _ => by simp [Tables.set]⟩
      · intro failed
        rw [effect] at failed
        cases failed
      · intro _
        exact ⟨Becomes.refl tables, fun wrong => by cases wrong⟩
  unfold App.ensureJump
  rw [ensures_run_bind]
  refine ensures_iptOK ?_ inserts
  cases exists' : tables v6 chain with
  | none =>
    simp only [Command.effect, exists']
    exact inserts
  | some state =>
    simp only [Command.effect, exists']
    cases state.jumps != 0 with
    | true => exact ensures_pure ⟨Becomes.refl tables, fun _ => by rw [exists']; rfl⟩
    | false => exact inserts

theorem becomes_newChain (v6 : Bool) (chain : Chain) (tables : Tables) :
    Becomes tables ((Command.newChain chain).effect v6 tables).1 tables.rules := by
  simp only [Command.effect]
  split
  · exact Becomes.refl tables
  · rename_i absent
    have becomes := becomes_set tables v6 chain ⟨[], 0⟩
    have same : setRules tables.rules v6 chain [] = tables.rules := by
      have empty : tables.rules v6 chain = [] := by simp [Tables.rules, absent]
      rw [← empty, setRules_eq_self]
    exact same ▸ becomes

theorem ensures_ensureHookFor (v6 : Bool) (tables : Tables) :
    Ensures (App.ensureHookFor v6).run (fun result next =>
      Becomes tables next tables.rules ∧ (result = .ok () → Present next v6)) tables := by
  have jumps : ∀ middle, Becomes tables middle tables.rules →
      Ensures (App.ensureJump v6 .edge >>= fun _ => App.ensureJump v6 .output).run
        (fun result next => Becomes tables next tables.rules ∧
          (result = .ok () → Present next v6)) middle := by
    intro middle before
    rw [ensures_run_bind]
    refine ensures_mono (ensures_ensureJump v6 .edge middle) ?_
    rintro result after ⟨becomes, edge⟩
    rw [before.rules_eq] at becomes
    cases result with
    | error err => exact ⟨before.trans becomes, fun wrong => by cases wrong⟩
    | ok _ =>
      refine ensures_mono (ensures_ensureJump v6 .output after) ?_
      rintro result next ⟨becomes', output⟩
      rw [becomes.rules_eq] at becomes'
      refine ⟨before.trans (becomes.trans becomes'), ?_⟩
      rintro ok chain
      cases chain with
      | edge => exact becomes'.keeps v6 .edge (edge rfl)
      | output => exact output ok
  have output : ∀ middle, Becomes tables middle tables.rules →
      Ensures (iptOK v6 (.newChain .output) >>= fun _ => App.ensureJump v6 .edge >>= fun _ =>
        App.ensureJump v6 .output).run (fun result next => Becomes tables next tables.rules ∧
          (result = .ok () → Present next v6)) middle := by
    intro middle before
    rw [ensures_run_bind]
    have becomes := becomes_newChain v6 .output middle
    rw [before.rules_eq] at becomes
    exact ensures_iptOK (jumps _ (before.trans becomes)) (jumps _ before)
  unfold App.ensureHookFor
  rw [ensures_run_bind]
  exact ensures_iptOK (output _ (becomes_newChain v6 .edge tables)) (output _ (Becomes.refl tables))

theorem ensures_ensureHook (tables : Tables) :
    Ensures app.ensureHook.run (fun result next =>
      Becomes tables next tables.rules ∧
        (result = .ok () → ∀ v6 ∈ app.families, Present next v6)) tables := by
  unfold App.ensureHook
  generalize app.families = families
  induction families generalizing tables with
  | nil => exact ensures_pure ⟨Becomes.refl tables, fun _ _ mem => absurd mem List.not_mem_nil⟩
  | cons v6 families ih =>
    rw [List.forM, ensures_run_bind]
    refine ensures_mono (ensures_ensureHookFor v6 tables) ?_
    rintro result middle ⟨becomes, first⟩
    cases result with
    | error err => exact ⟨becomes, fun wrong => by cases wrong⟩
    | ok _ =>
      refine ensures_mono (ih middle) ?_
      rintro result next ⟨becomes', others⟩
      rw [becomes.rules_eq] at becomes'
      refine ⟨becomes.trans becomes', fun ok family mem => ?_⟩
      rcases List.mem_cons.mp mem with rfl | later
      · exact becomes'.present family (first rfl)
      · exact others ok family later

/-- The invariant between calls: the chains and the routes are those of the remembered
snapshot, unless a base rule is missing. -/
def Converged (app : App) (decoder : Decoder Raw) (tables : Tables) (memory : Memory) : Prop :=
  ∀ state, parseClusterState decoder memory.lastSnapshot = some state →
    Missing app tables ∨ app.Synced state tables memory.routes

theorem Converged.of_becomes {next : Tables} {memory : Memory}
    (converged : Converged app decoder tables memory) (becomes : Becomes tables next tables.rules) :
    Converged app decoder next memory := by
  intro state parsed
  rcases converged state parsed with ⟨v6, isFamily, chain, rule, isBase, absent⟩ | synced
  · exact Or.inl ⟨v6, isFamily, chain, rule, isBase, by rwa [becomes.rules_eq]⟩
  · exact Or.inr ⟨by rw [becomes.rules_eq]; exact synced.chains, synced.routes_eq⟩

theorem ensures_syncRules {memory : Memory} (kubectl : Option Str)
    (converged : Converged app decoder tables memory) :
    Ensures (app.syncRules decoder memory kubectl).run (fun result next =>
      match result with
      | .ok after => after.lastSnapshot = clusterSnapshot kubectl ∧
          ∀ state, parseClusterState decoder (clusterSnapshot kubectl) = some state →
            app.Synced state next after.routes
      | .error _ => Converged app decoder next memory) tables := by
  unfold App.syncRules
  rw [ensures_run_bind]
  refine ensures_mono (ensures_ensureHook tables) ?_
  rintro result hooked ⟨becomes, present⟩
  have stillConverged := converged.of_becomes becomes
  cases result with
  | error err => exact stillConverged
  | ok _ =>
    rw [ensures_run_bind]
    refine ensures_mono (ensures_upToDate memory _ hooked) ?_
    rintro result next ⟨rfl, current⟩
    cases result with
    | error err => exact stillConverged
    | ok skip =>
      cases skip with
      | true =>
        rcases current rfl with ⟨same, complete⟩
        refine ensures_pure ⟨same.symm, ?_⟩
        intro state parsed
        rw [same] at parsed
        exact (stillConverged state parsed).resolve_left complete
      | false =>
        refine ensures_mono (ensures_rewrite (present rfl)) ?_
        intro result after holds
        cases result with
        | ok memory => exact holds
        | error err =>
          rcases holds with missing | rfl
          · exact fun _ _ => Or.inl missing
          · exact stillConverged

end Calls

structure Proxy where
  tables : Tables
  memory : Memory

/-- A proxy that starts, on a node whose tables may have chains of an earlier one. -/
def Proxy.start (tables : Tables) : Proxy := ⟨tables, ⟨unsetSnapshot, .empty⟩⟩

/-- What the environment does in one call: the result of `kubectl`, and which iptables
commands work. -/
structure Call where
  kubectl : Option Str
  works : List Bool

section Runs

variable {Raw : Type} (app : App) (decoder : Decoder Raw)

def App.call (proxy : Proxy) (call : Call) : Option (Proxy × Bool) :=
  let outcome := (app.syncRules decoder proxy.memory call.kubectl).run.exec machine call.works
    proxy.tables
  match outcome.value with
  | none => none
  | some (.ok memory) => some (⟨outcome.state, memory⟩, true)
  | some (.error _) => some (⟨outcome.state, proxy.memory⟩, false)

def ReliableCall (proxy : Proxy) (call : Call) : Prop :=
  (app.syncRules decoder proxy.memory call.kubectl).run.FairRun machine
    (fun op works _ => Reliable op works) call.works proxy.tables

inductive Reachable : Proxy → Prop
  | start (tables : Tables) : Reachable (.start tables)
  | call {proxy next : Proxy} {call : Call} {succeeded : Bool} (reachable : Reachable proxy)
      (reliable : ReliableCall app decoder proxy call)
      (returned : app.call decoder proxy call = some (next, succeeded)) : Reachable next

variable {app decoder}

theorem converged_call {proxy next : Proxy} {call : Call} {succeeded : Bool}
    (converged : Converged app decoder proxy.tables proxy.memory)
    (reliable : ReliableCall app decoder proxy call)
    (returned : app.call decoder proxy call = some (next, succeeded)) :
    Converged app decoder next.tables next.memory ∧
      (succeeded → ∀ state, parseClusterState decoder (clusterSnapshot call.kubectl) =
        some state → app.Synced state next.tables next.memory.routes) := by
  have holds := wp_sound (ensures_syncRules call.kubectl converged) reliable
  simp only [App.call] at returned
  cases value : ((app.syncRules decoder proxy.memory call.kubectl).run.exec machine call.works
      proxy.tables).value with
  | none => simp [value] at returned
  | some result =>
    rw [value] at holds
    cases result with
    | error err =>
      simp only [value, Option.some.injEq, Prod.mk.injEq] at returned
      rcases returned with ⟨rfl, rfl⟩
      exact ⟨holds, fun wrong => by cases wrong⟩
    | ok memory =>
      simp only [value, Option.some.injEq, Prod.mk.injEq] at returned
      rcases returned with ⟨rfl, rfl⟩
      rcases holds with ⟨remembered, synced⟩
      refine ⟨?_, fun _ => synced⟩
      intro state parsed
      rw [remembered] at parsed
      exact Or.inr (synced state parsed)

theorem Reachable.converged {proxy : Proxy} (reachable : Reachable app decoder proxy) :
    Converged app decoder proxy.tables proxy.memory := by
  induction reachable with
  | start tables =>
    intro state parsed
    simp [Proxy.start, parseClusterState, decoder.rejectsUnset] at parsed
  | call _ reliable returned ih => exact (converged_call ih reliable returned).1

/--
The rules converge in every run in which no Service rule and no IPv6 flush of `KIAC-EDGE`
fails: whenever a call reads a snapshot that can be parsed and returns without an error,
chains and routes are those of the snapshot.
-/
theorem syncRules_converges {proxy next : Proxy} {call : Call} {raw : Str} {state : ClusterState}
    (reachable : Reachable app decoder proxy) (reliable : ReliableCall app decoder proxy call)
    (returned : app.call decoder proxy call = some (next, true)) (read : call.kubectl = some raw)
    (parsed : parseClusterState decoder raw = some state) :
    app.Synced state next.tables next.memory.routes := by
  apply (converged_call reachable.converged reliable returned).2 rfl state
  rw [read]
  exact parsed

end Runs

def balancedItems : List Item :=
  [.service ⟨str "web", str "default", str "LoadBalancer", [⟨80, 30080, ⟨8080, [], true⟩⟩],
    [str "192.168.64.3"]⟩]

def balancedState : ClusterState :=
  (parseClusterState (Decoder.ofItems balancedItems) (str "snapshot")).getD
    ⟨[], [], fun _ => NodeAddrs.empty⟩

def balancedProxy : Proxy :=
  (((proxyOn (str "n1")).call (Decoder.ofItems balancedItems) (.start fun _ _ => none)
    ⟨some (str "snapshot"), List.replicate 13 true⟩).map Prod.fst).getD (.start fun _ _ => none)

theorem syncRules_converges_balanced :
    (proxyOn (str "n1")).Synced balancedState balancedProxy.tables balancedProxy.memory.routes := by
  have reliable : ReliableCall (proxyOn (str "n1")) (Decoder.ofItems balancedItems)
      (.start fun _ _ => none) ⟨some (str "snapshot"), List.replicate 13 true⟩ := by
    refine fairRun_of_forall ?_ _ _
    intro works mem op _
    obtain rfl := List.eq_of_mem_replicate mem
    unfold Reliable
    split <;> trivial
  exact syncRules_converges (.start _) reliable rfl rfl rfl

def dualProxy : App := { proxyOn (str "n1") with hasIPv6 := true }

/--
A Service rule that cannot be appended is not noticed: the call returns without an error,
and so does the next one, in which everything works, while the rule is missing. Neither is
a flush that fails after the IPv4 chains have been rewritten for another snapshot: the call
fails, but the next one finds the old snapshot and all base rules.
-/
theorem failed_commands_stay :
    (∃ first second : Proxy,
      (proxyOn (str "n1")).call (Decoder.ofItems balancedItems) (.start fun _ _ => none)
        ⟨some (str "snapshot"), List.replicate 11 true ++ [false]⟩ = some (first, true) ∧
      (proxyOn (str "n1")).call (Decoder.ofItems balancedItems) first
        ⟨some (str "snapshot"), List.replicate 10 true⟩ = some (second, true) ∧
      second.tables.rules false .edge ≠ (proxyOn (str "n1")).rules balancedState false .edge) ∧
    ∃ first second third : Proxy,
      dualProxy.call (Decoder.ofItems balancedItems) (.start fun _ _ => none)
        ⟨some (str "snapshot"), List.replicate 24 true⟩ = some (first, true) ∧
      dualProxy.call (Decoder.ofItems balancedItems) first
        ⟨some (str "nothing"), List.replicate 13 true ++ [false]⟩ = some (second, false) ∧
      dualProxy.call (Decoder.ofItems balancedItems) second
        ⟨some (str "snapshot"), List.replicate 14 true⟩ = some (third, true) ∧
      third.tables.rules false .edge ≠ dualProxy.rules balancedState false .edge :=
  ⟨⟨_, _, rfl, rfl, by decide⟩, _, _, _, rfl, rfl, rfl, by decide⟩

end Kiac.EdgeProxy
