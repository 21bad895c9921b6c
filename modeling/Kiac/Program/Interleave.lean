import Mathlib.Data.Bool.Basic
import Mathlib.Logic.Function.Basic
import Kiac.Program.Basic

/-!
# Programs that take turns

Programs that share the state of a machine run in turns. A program updates a part of the state
if it reads that part once and then writes it at most once, and what it writes and returns
depends on what it has read alone. Two such programs have both taken effect unless one of them
has read before the other wrote and has written after it, which undoes the other's effect.
-/

namespace Kiac

universe u v w

/-- Programs at work on one state, with the operations that they have issued, latest first. -/
structure Joint (ι : Type) (Op : Type u) (Ans : Op → Type u) (State : Type v) (α : Type u) where
  programs : ι → Prog Op Ans α
  state : State
  trace : List (ι × Op)

variable {ι : Type} [DecidableEq ι] {Op : Type u} {Ans : Op → Type u} {State : Type v}
  {Choice : Type w} {α : Type u} {View : Type v}

namespace Joint

/-- One program issues its next operation. -/
def turn (machine : Machine Op Ans State Choice) (joint : Joint ι Op Ans State α)
    (who : ι × Choice) : Joint ι Op Ans State α :=
  match joint.programs who.1 with
  | .done _ => joint
  | .call op next =>
    let stepped := machine.step op who.2 joint.state
    ⟨Function.update joint.programs who.1 (next stepped.2), stepped.1,
      (who.1, op) :: joint.trace⟩

def run (machine : Machine Op Ans State Choice) (joint : Joint ι Op Ans State α)
    (turns : List (ι × Choice)) : Joint ι Op Ans State α :=
  turns.foldl (turn machine) joint

theorem run_of_invariant {machine : Machine Op Ans State Choice}
    {invariant : Joint ι Op Ans State α → Prop}
    (keeps : ∀ joint who, invariant joint → invariant (joint.turn machine who))
    {joint : Joint ι Op Ans State α} (holds : invariant joint) (turns : List (ι × Choice)) :
    invariant (joint.run machine turns) := by
  induction turns generalizing joint with
  | nil => exact holds
  | cons who turns ih => exact ih (keeps joint who holds)

end Joint

inductive Access where
  | read
  | write
deriving DecidableEq

/-- A part of the state, the operations that read and write it, and that no other operation
changes it. -/
structure Shared (machine : Machine Op Ans State Choice) (View : Type v) where
  view : State → View
  access : Op → Option Access
  frame : ∀ op choice state, access op ≠ some .write →
    view (machine.step op choice state).1 = view state

/-- What a program does once it has read: what it writes, if it does, and what it returns. -/
abbrev Plan (View : Type v) (α : Type u) := View → Option View × α

namespace Shared

variable {machine : Machine Op Ans State Choice} (shared : Shared machine View)

/-- The reads and writes of a run, latest first. -/
def accesses (trace : List (ι × Op)) : List (ι × Access) :=
  trace.filterMap fun (who, op) => (shared.access op).map (who, ·)

/-- The program still has to write, if there is something to write, and returns. -/
def Ends (planned : Option View × α) : Prog Op Ans α → Prop
  | .done value => planned = (none, value)
  | .call op next =>
    match shared.access op with
    | none => ∀ choice state, Ends planned (next (machine.step op choice state).2)
    | some .read => False
    | some .write => ∀ choice state,
        planned.1 = some (shared.view (machine.step op choice state).1) ∧
          Ends (none, planned.2) (next (machine.step op choice state).2)

/-- The program still has to read, or has nothing to do whatever it would read. -/
def Updates (plan : Plan View α) : Prog Op Ans α → Prop
  | .done value => ∀ view, plan view = (none, value)
  | .call op next =>
    match shared.access op with
    | none => ∀ choice state, Updates plan (next (machine.step op choice state).2)
    | some .read => ∀ choice state,
        shared.Ends (plan (shared.view state)) (next (machine.step op choice state).2)
    | some .write => False

end Shared

/-- How far a program has come. -/
inductive Phase (View : Type v) where
  | start
  | seen (view : View)
  | wrote (view : View)

/-- The program behaves as its phase says. -/
def Shared.Follows {machine : Machine Op Ans State Choice} (shared : Shared machine View)
    (plan : Plan View α) : Phase View → Prog Op Ans α → Prop
  | .start => shared.Updates plan
  | .seen view => shared.Ends (plan view)
  | .wrote view => shared.Ends (none, (plan view).2)

/-- One program has read before the other wrote, and has written after it. -/
def Overwritten (who : Bool) (events : List (Bool × Access)) : Prop :=
  [(!who, Access.write), (who, Access.write), (!who, Access.read)].Sublist events

/-- Two plans have effects on what they write that the other plan does not touch. -/
structure Effects (plan : Bool → Plan View α) (ok : α → Prop) where
  effect : Bool → View → Prop
  own : ∀ who view out, (plan who view).1 = some out → effect who out
  idle : ∀ who view, (plan who view).1 = none → ok (plan who view).2 → effect who view
  frame : ∀ who view out, (plan who view).1 = some out →
    (effect (!who) out ↔ effect (!who) view)

namespace Effects

variable {plan : Bool → Plan View α} {ok : α → Prop}

/-- What the reads and writes so far tell about the effects: of what is there now, and of what
the programs have read. -/
structure Consistent (effects : Effects plan ok) (initial : View) (phases : Bool → Phase View)
    (view : View) (events : List (Bool × Access)) : Prop where
  fresh : ∀ who access, phases who = .start → (who, access) ∉ events
  hasRead : ∀ who seen, phases who = .seen seen →
    (who, Access.read) ∈ events ∧ (who, Access.write) ∉ events ∧
      (effects.effect who seen ↔ effects.effect who initial)
  hasWritten : ∀ who seen, phases who = .wrote seen → (who, Access.write) ∈ events
  now : ∀ who, effects.effect who view ↔
    ((who, Access.write) ∉ events ∨ Overwritten who events → effects.effect who initial)
  stale : ∀ who seen, phases (!who) = .seen seen →
    (effects.effect who seen ↔
      ((who, Access.write) ∉ events ∨
        [(who, Access.write), (!who, Access.read)].Sublist events → effects.effect who initial))

variable {effects : Effects plan ok} {initial view : View} {phases : Bool → Phase View}
  {events : List (Bool × Access)}

theorem Consistent.initially :
    effects.Consistent initial (fun _ => .start) initial [] where
  fresh := by simp
  hasRead := by simp
  hasWritten := by simp
  now := by simp
  stale := by simp

theorem overwritten_cons_read {who reader : Bool} :
    Overwritten who ((reader, .read) :: events) ↔ Overwritten who events := by
  simp [Overwritten, List.cons_sublist_cons']

theorem overwritten_cons_write {who writer : Bool} :
    Overwritten who ((writer, .write) :: events) ↔
      Overwritten who events ∨ writer = !who ∧
        [(who, Access.write), (!who, Access.read)].Sublist events := by
  simp [Overwritten, List.cons_sublist_cons', eq_comm]

theorem mem_of_overwritten {who : Bool} (overwritten : Overwritten who events) :
    (who, Access.write) ∈ events ∧ (!who, Access.write) ∈ events :=
  ⟨overwritten.subset (by simp), overwritten.subset (by simp)⟩

theorem update_not {who : Bool} {phase : Phase View} :
    Function.update phases who phase (!who) = phases (!who) := by
  simp [Function.update_of_ne]

theorem Consistent.reads (consistent : effects.Consistent initial phases view events) {who : Bool}
    (starts : phases who = .start) :
    effects.Consistent initial (Function.update phases who (.seen view)) view
      ((who, .read) :: events) := by
  have unread := consistent.fresh who .read starts
  have unwritten := consistent.fresh who .write starts
  have unchanged : effects.effect who view ↔ effects.effect who initial := by
    simpa [unwritten] using consistent.now who
  constructor
  · intro other access phase
    rcases Bool.eq_or_eq_not other who with rfl | rfl
    · simp at phase
    · rw [update_not] at phase
      simpa using consistent.fresh _ access phase
  · intro other seen phase
    rcases Bool.eq_or_eq_not other who with rfl | rfl
    · rw [Function.update_self, Phase.seen.injEq] at phase
      subst phase
      simpa [unwritten] using unchanged
    · rw [update_not] at phase
      simpa using consistent.hasRead _ seen phase
  · intro other seen phase
    rcases Bool.eq_or_eq_not other who with rfl | rfl
    · simp at phase
    · rw [update_not] at phase
      simpa using consistent.hasWritten _ seen phase
  · intro other
    rw [overwritten_cons_read]
    simpa using consistent.now other
  · intro other seen phase
    rcases Bool.eq_or_eq_not other who with rfl | rfl
    · rw [update_not] at phase
      simpa [List.cons_sublist_cons'] using consistent.stale other seen phase
    · rw [Bool.not_not, Function.update_self, Phase.seen.injEq] at phase
      subst phase
      have notOverwritten : ¬Overwritten (!who) events := by
        intro overwritten
        exact unwritten (by simpa using (mem_of_overwritten overwritten).2)
      have notStale : ¬[(!who, Access.write), (who, Access.read)].Sublist events := by
        intro sublist
        exact unread (sublist.subset (by simp))
      simpa [List.cons_sublist_cons', notOverwritten, notStale] using consistent.now (!who)

theorem Consistent.writes (consistent : effects.Consistent initial phases view events)
    {who : Bool} {seen out : View} (hasSeen : phases who = .seen seen)
    (planned : (plan who seen).1 = some out) :
    effects.Consistent initial (Function.update phases who (.wrote seen)) out
      ((who, .write) :: events) := by
  rcases consistent.hasRead who seen hasSeen with ⟨read, unwritten, _⟩
  constructor
  · intro other access phase
    rcases Bool.eq_or_eq_not other who with rfl | rfl
    · simp at phase
    · rw [update_not] at phase
      simpa using consistent.fresh _ access phase
  · intro other seen phase
    rcases Bool.eq_or_eq_not other who with rfl | rfl
    · simp at phase
    · rw [update_not] at phase
      simpa using consistent.hasRead _ seen phase
  · intro other seen phase
    rcases Bool.eq_or_eq_not other who with rfl | rfl
    · exact List.mem_cons_self
    · rw [update_not] at phase
      exact List.mem_cons_of_mem _ (consistent.hasWritten _ seen phase)
  · intro other
    rcases Bool.eq_or_eq_not other who with rfl | rfl
    · have notOverwritten : ¬Overwritten other events :=
        fun overwritten => unwritten (mem_of_overwritten overwritten).1
      simpa [overwritten_cons_write, notOverwritten] using effects.own other seen out planned
    · have notOverwritten : ¬Overwritten (!who) events := by
        intro overwritten
        exact unwritten (by simpa using (mem_of_overwritten overwritten).2)
      rw [effects.frame who seen out planned]
      have stale := consistent.stale (!who) seen (by simpa using hasSeen)
      simpa [overwritten_cons_write, notOverwritten] using stale
  · intro other later phase
    rcases Bool.eq_or_eq_not other who with rfl | rfl
    · rw [update_not] at phase
      rcases consistent.hasRead _ later phase with ⟨otherRead, _⟩
      have stale := consistent.stale other later phase
      simpa [List.cons_sublist_cons', unwritten, otherRead] using stale
    · rw [Bool.not_not, Function.update_self] at phase
      cases phase

theorem Consistent.effect_iff (consistent : effects.Consistent initial phases view events)
    {who : Bool} (finished : effects.effect who initial ∨ ∃ seen, phases who = .wrote seen) :
    effects.effect who view ↔ (Overwritten who events → effects.effect who initial) := by
  rw [consistent.now]
  rcases finished with already | ⟨seen, phase⟩
  · simp [already]
  · simp [consistent.hasWritten who seen phase]

end Effects

section Runs

variable {machine : Machine Op Ans State Choice} {shared : Shared machine View}
  {plan : Bool → Plan View α} {ok : α → Prop} {effects : Effects plan ok} {initial : View}

/-- The programs have come as far as a consistent history says. -/
def Tracks (effects : Effects plan ok) (shared : Shared machine View) (initial : View)
    (joint : Joint Bool Op Ans State α) : Prop :=
  ∃ phases : Bool → Phase View,
    (∀ who, shared.Follows (plan who) (phases who) (joint.programs who)) ∧
    effects.Consistent initial phases (shared.view joint.state) (shared.accesses joint.trace)

theorem follows_update {phases : Bool → Phase View} {programs : Bool → Prog Op Ans α} {who : Bool}
    {phase : Phase View} {program : Prog Op Ans α}
    (follows : ∀ who, shared.Follows (plan who) (phases who) (programs who))
    (now : shared.Follows (plan who) phase program) (other : Bool) :
    shared.Follows (plan other) (Function.update phases who phase other)
      (Function.update programs who program other) := by
  rcases eq_or_ne other who with rfl | differs
  · simpa using now
  · simpa [Function.update_of_ne differs] using follows other

theorem follows_quiet {phase : Phase View} {plan : Plan View α} {op : Op}
    {next : Ans op → Prog Op Ans α} (quiet : shared.access op = none)
    (follows : shared.Follows plan phase (.call op next)) (choice : Choice) (state : State) :
    shared.Follows plan phase (next (machine.step op choice state).2) := by
  cases phase <;> simp only [Shared.Follows, Shared.Updates, Shared.Ends, quiet] at follows ⊢ <;>
    exact follows choice state

theorem follows_read {phase : Phase View} {plan : Plan View α} {op : Op}
    {next : Ans op → Prog Op Ans α} (reads : shared.access op = some .read)
    (follows : shared.Follows plan phase (.call op next)) (choice : Choice) (state : State) :
    phase = .start ∧ shared.Follows plan (.seen (shared.view state))
      (next (machine.step op choice state).2) := by
  cases phase with
  | start =>
    simp only [Shared.Follows, Shared.Updates, reads] at follows
    exact ⟨rfl, follows choice state⟩
  | seen view => simp only [Shared.Follows, Shared.Ends, reads] at follows
  | wrote view => simp only [Shared.Follows, Shared.Ends, reads] at follows

theorem follows_write {phase : Phase View} {plan : Plan View α} {op : Op}
    {next : Ans op → Prog Op Ans α} (writes : shared.access op = some .write)
    (follows : shared.Follows plan phase (.call op next)) (choice : Choice) (state : State) :
    ∃ seen, phase = .seen seen ∧
      (plan seen).1 = some (shared.view (machine.step op choice state).1) ∧
      shared.Follows plan (.wrote seen) (next (machine.step op choice state).2) := by
  cases phase with
  | start => simp only [Shared.Follows, Shared.Updates, writes] at follows
  | seen view =>
    simp only [Shared.Follows, Shared.Ends, writes] at follows
    exact ⟨view, rfl, follows choice state⟩
  | wrote view =>
    simp only [Shared.Follows, Shared.Ends, writes] at follows
    cases (follows choice state).1

theorem Tracks.turn {joint : Joint Bool Op Ans State α}
    (tracks : Tracks effects shared initial joint) (who : Bool × Choice) : Tracks effects shared initial (joint.turn machine who) := by
  rcases tracks with ⟨phases, follows, consistent⟩
  have mine := follows who.1
  unfold Joint.turn
  split
  · exact ⟨phases, follows, consistent⟩
  · rename_i op next program
    rw [program] at mine
    cases access : shared.access op with
    | none =>
      have sameView := shared.frame op who.2 joint.state (by simp [access])
      have sameEvents : shared.accesses ((who.1, op) :: joint.trace) =
          shared.accesses joint.trace := by
        simp [Shared.accesses, access]
      refine ⟨phases, ?_, ?_⟩
      · intro other
        have now := follows_quiet access mine who.2 joint.state
        simpa only [Function.update_eq_self] using follows_update follows now other
      · rw [sameView, sameEvents]
        exact consistent
    | some kind =>
      have moreEvents : shared.accesses ((who.1, op) :: joint.trace) =
          (who.1, kind) :: shared.accesses joint.trace := by
        simp [Shared.accesses, access]
      cases kind with
      | read =>
        have sameView := shared.frame op who.2 joint.state (by simp [access])
        rcases follows_read access mine who.2 joint.state with ⟨starts, now⟩
        refine ⟨_, follows_update follows now, ?_⟩
        rw [sameView, moreEvents]
        exact consistent.reads starts
      | write =>
        rcases follows_write access mine who.2 joint.state with ⟨seen, hasSeen, out, now⟩
        refine ⟨_, follows_update follows now, ?_⟩
        rw [moreEvents]
        exact consistent.writes hasSeen out

/-- When both programs have returned well, an effect is missing only if it was missing before
and the other program has overwritten it. -/
theorem effect_iff_of_run {programs : Bool → Prog Op Ans α} {state : State}
    (effects : Effects plan ok) (updates : ∀ who, shared.Updates (plan who) (programs who))
    (turns : List (Bool × Choice))
    (returned : ∀ who, ∃ value, ok value ∧
      ((⟨programs, state, []⟩ : Joint Bool Op Ans State α).run machine turns).programs who =
        .done value) (who : Bool) :
    let final := (⟨programs, state, []⟩ : Joint Bool Op Ans State α).run machine turns
    effects.effect who (shared.view final.state) ↔
      (Overwritten who (shared.accesses final.trace) →
        effects.effect who (shared.view state)) := by
  intro final
  have tracks : Tracks effects shared (shared.view state) final :=
    Joint.run_of_invariant (fun _ who tracks => tracks.turn who)
      ⟨fun _ => .start, updates, Effects.Consistent.initially⟩ turns
  rcases tracks with ⟨phases, follows, consistent⟩
  rcases returned who with ⟨value, isOk, done⟩
  have mine := follows who
  rw [done] at mine
  apply consistent.effect_iff
  cases phase : phases who with
  | start =>
    rw [phase] at mine
    have planned : plan who (shared.view state) = (none, value) := mine (shared.view state)
    exact Or.inl (effects.idle who _ (by rw [planned]) (by rwa [planned]))
  | seen seen =>
    rw [phase] at mine
    have planned : plan who seen = (none, value) := mine
    rcases consistent.hasRead who seen phase with ⟨_, _, same⟩
    exact Or.inl (same.mp (effects.idle who _ (by rw [planned]) (by rwa [planned])))
  | wrote seen => exact Or.inr ⟨seen, rfl⟩

end Runs

end Kiac
