import Kiac.Json.Pointer
import Kiac.Json.Value

/-!
# Changes along paths

A value is changed at a path by changing what is found there. Everything off the path stays as it
is, and what lies on the path keeps its form. Changes at paths none of which leads to another do
not disturb each other: after all of them, each is in place.
-/

namespace Kiac.Json

/-- Puts a value in the place of the child that a token stands for. -/
def replaceChild (json : Json) (token : Str) (value : Json) : Option Json :=
  match json with
  | obj keys unique _ =>
    if token ∈ keys then
      some (object keys unique fun key =>
        if key = token then value else (json.child key).getD null)
    else none
  | arr items =>
    (index token).bind fun i => if i < items.length then some (arr (items.set i value)) else none
  | _ => none

/-- Changes what is found at a path. -/
def modify : List Str → (Json → Option Json) → Json → Option Json
  | [], change, json => change json
  | token :: path, change, json =>
    (json.child token).bind fun value =>
      (modify path change value).bind fun changed => json.replaceChild token changed

/-- Gives a member of an object a value. -/
def setMember (json : Json) (key : Str) (value : Json) : Option Json :=
  match json with
  | obj keys unique _ =>
    some (object (keys.insert key) unique.insert fun other =>
      if other = key then value else (json.child other).getD null)
  | _ => none

/-- Takes a member out of an object. -/
def eraseMember (json : Json) (key : Str) : Option Json :=
  match json with
  | obj keys unique _ =>
    if key ∈ keys then
      some (object (keys.erase key) (unique.erase key) fun other =>
        (json.child other).getD null)
    else none
  | _ => none

/-- One child is the given one, the others are the same, and the form is. -/
structure Puts (token : Str) (new : Option Json) (before after : Json) : Prop where
  shape_eq : after.shape = before.shape
  child_eq : ∀ other, after.child other = if other = token then new else before.child other

section Children

variable {token key : Str} {value json : Json}

theorem replaceChild_puts (found : json.child token = some value) (new : Json) :
    ∃ changed, json.replaceChild token new = some changed ∧ Puts token (some new) json changed := by
  cases json with
  | obj keys unique vals =>
    have member : token ∈ keys := by
      by_contra absent
      simp [child, absent] at found
    refine ⟨_, if_pos member, rfl, ?_⟩
    intro other
    rw [child_object]
    by_cases same : other = token
    · simp [same, member]
    · by_cases there : other ∈ keys <;> simp [same, there, child]
  | arr items =>
    cases isIndex : index token with
    | none => simp [child, isIndex] at found
    | some i =>
      have inRange : i < items.length := by
        by_contra outside
        simp [child, isIndex, not_lt.mp outside] at found
      refine ⟨arr (items.set i new), by simp [replaceChild, isIndex, inRange], by simp [shape], ?_⟩
      intro other
      by_cases same : other = token
      · simp [same, child, isIndex, inRange]
      · cases isOther : index other with
        | none => simp [same, child, isOther]
        | some j =>
          have distinct : i ≠ j := by
            rintro rfl
            exact same ((eq_formatNat_of_index isOther).trans
              (eq_formatNat_of_index isIndex).symm)
          simp [same, child, isOther, List.getElem?_set_ne distinct]
  | null => simp [child] at found
  | bool b => simp [child] at found
  | num text => simp [child] at found
  | str text => simp [child] at found

theorem setMember_puts (isObject : json.shape = .obj) (key : Str) (new : Json) :
    ∃ changed, json.setMember key new = some changed ∧ Puts key (some new) json changed := by
  rcases exists_of_shape_obj isObject with ⟨keys, unique, vals, rfl⟩
  refine ⟨_, rfl, rfl, ?_⟩
  intro other
  rw [child_object]
  by_cases same : other = key
  · simp [same]
  · by_cases there : other ∈ keys <;> simp [same, there, child]

theorem eraseMember_puts (isObject : json.shape = .obj) (found : json.child key = some value) :
    ∃ changed, json.eraseMember key = some changed ∧ Puts key none json changed := by
  rcases exists_of_shape_obj isObject with ⟨keys, unique, vals, rfl⟩
  have member : key ∈ keys := by
    by_contra absent
    simp [child, absent] at found
  refine ⟨_, if_pos member, rfl, ?_⟩
  intro other
  rw [child_object]
  by_cases same : other = key
  · simp [same, unique.mem_erase_iff]
  · by_cases there : other ∈ keys <;> simp [same, there, unique.mem_erase_iff, child]

end Children

/-- What a change at a path does: the new value is in place, or nothing is, what is off the path is
the same, and what is on it has the same form. -/
structure Effect (path : List Str) (new : Option Json) (before after : Json) : Prop where
  under : ∀ rest, after.get (path ++ rest) = new.bind (get rest)
  apart : ∀ other, ¬path <+: other → ¬other <+: path → after.get other = before.get other
  above : ∀ other, ¬path <+: other → other <+: path →
    (after.get other).map shape = (before.get other).map shape

variable {json : Json} {change : Change} {changes : List Change}

theorem effect_of_modify {path : List Str} {key : Str} {change : Json → Option Json}
    {new : Option Json} {value changed : Json} (found : json.get path = some value)
    (changes : change value = some changed) (puts : Puts key new value changed) :
    ∃ after, json.modify path change = some after ∧ Effect (path ++ [key]) new json after := by
  induction path generalizing json with
  | nil =>
    cases found
    refine ⟨changed, changes, ?_, ?_, ?_⟩
    · intro rest
      simp [puts.child_eq]
    · intro other notUnder notAbove
      cases other with
      | nil => exact absurd List.nil_prefix notAbove
      | cons token rest =>
        have differs : token ≠ key := by
          rintro rfl
          exact notUnder ⟨rest, rfl⟩
        simp [puts.child_eq, differs]
    · intro other notUnder above
      cases other with
      | nil => simp [puts.shape_eq]
      | cons token rest =>
        have same : token :: rest = [key] := by
          rw [List.nil_append, List.prefix_cons_iff] at above
          simpa using above
        exact absurd (same ▸ List.prefix_rfl) notUnder
  | cons token path ih =>
    rw [get_cons, Option.bind_eq_some_iff] at found
    rcases found with ⟨inner, isChild, foundInner⟩
    rcases ih foundInner with ⟨afterInner, modified, effect⟩
    rcases replaceChild_puts isChild afterInner with ⟨after, replaced, putsChild⟩
    refine ⟨after, by simp [modify, isChild, modified, replaced], ?_, ?_, ?_⟩
    · intro rest
      simp [putsChild.child_eq, ← effect.under rest]
    · intro other notUnder notAbove
      cases other with
      | nil => exact absurd List.nil_prefix notAbove
      | cons head rest =>
        by_cases same : head = token
        · subst same
          simp only [get_cons, putsChild.child_eq, if_true, Option.bind_some, isChild]
          exact effect.apart rest (by simpa using notUnder) (by simpa using notAbove)
        · simp [putsChild.child_eq, same]
    · intro other notUnder above
      cases other with
      | nil => simp [putsChild.shape_eq]
      | cons head rest =>
        rw [List.cons_append, List.cons_prefix_cons] at above notUnder
        rcases above with ⟨rfl, above⟩
        simp only [get_cons, putsChild.child_eq, if_true, Option.bind_some, isChild]
        exact effect.above rest (by simpa using notUnder) above

theorem modify_append (path rest : List Str) (change : Json → Option Json) (json : Json) :
    json.modify (path ++ rest) change = json.modify path (modify rest change) := by
  induction path generalizing json with
  | nil => rfl
  | cons token path ih => simp [modify, ih]

theorem effect_of_modify_at {path : List Str} {key : Str} {change : Json → Option Json}
    {value changed : Json} (found : json.get (path ++ [key]) = some value)
    (changes : change value = some changed) :
    ∃ after, json.modify (path ++ [key]) change = some after ∧
      Effect (path ++ [key]) (some changed) json after := by
  rw [get_append, Option.bind_eq_some_iff] at found
  rcases found with ⟨parent, foundParent, isChild⟩
  rw [get_cons, bind_get_nil] at isChild
  rcases replaceChild_puts isChild changed with ⟨after, replaced, puts⟩
  have changesChild : modify [key] change parent = some after := by
    simp [modify, isChild, changes, replaced]
  rw [modify_append]
  exact effect_of_modify foundParent changesChild puts

/-- The operations that a patch may have; the paths are texts. -/
inductive Operation where
  | add (path : Str) (value : Json)
  | remove (path : Str)

/-- What an addition does where the value is added. -/
def addAt (key : Str) (value json : Json) : Option Json :=
  match json with
  | arr items =>
    if key = [byte '-'] then some (arr (items ++ [value]))
    else (index key).bind fun i =>
      if i ≤ items.length then some (arr (items.insertIdx i value)) else none
  | _ => json.setMember key value

def removeAt (key : Str) (json : Json) : Option Json :=
  match json with
  | arr items =>
    (index key).bind fun i => if i < items.length then some (arr (items.eraseIdx i)) else none
  | _ => json.eraseMember key

/-- An operation as RFC 6902 describes it. -/
def Operation.apply (json : Json) : Operation → Option Json
  | add path value =>
    match (parsePointer path).map List.reverse with
    | none => none
    | some [] => some value
    | some (key :: parents) => json.modify parents.reverse (addAt key value)
  | remove path =>
    match (parsePointer path).map List.reverse with
    | none => none
    | some [] => none
    | some (key :: parents) => json.modify parents.reverse (removeAt key)

/-- The operations of a patch, one after the other. -/
def applyPatch (patch : List Operation) (json : Json) : Option Json :=
  patch.foldlM Operation.apply json

/-- A member that gets a value, or is taken out. -/
structure Change where
  path : List Str
  new : Option Json

def Change.operation (change : Change) : Operation :=
  match change.new with
  | some value => .add (pointer change.path) value
  | none => .remove (pointer change.path)

/-- The change is one of a member of an object, which exists if it is to be taken out. -/
def Change.Ready (change : Change) (json : Json) : Prop :=
  ∃ parents key, change.path = parents ++ [key] ∧
    (json.get parents).map shape = some .obj ∧
    (change.new = none → (json.get change.path).isSome)

theorem Change.effect (ready : change.Ready json) :
    ∃ after, change.operation.apply json = some after ∧
      Effect change.path change.new json after := by
  rcases change with ⟨path, new⟩
  rcases ready with ⟨parents, key, rfl, isObject, present⟩
  rw [Option.map_eq_some_iff] at isObject
  rcases isObject with ⟨value, found, isObject⟩
  cases new with
  | some new =>
    rcases setMember_puts isObject key new with ⟨changed, set, puts⟩
    have added : addAt key new value = some changed := by
      rcases exists_of_shape_obj isObject with ⟨keys, unique, vals, rfl⟩
      exact set
    rcases effect_of_modify found added puts with ⟨after, modified, effect⟩
    refine ⟨after, ?_, effect⟩
    simpa [operation, Operation.apply, parsePointer_pointer] using modified
  | none =>
    have there := present rfl
    rw [get_append, found, Option.bind_some, Option.isSome_iff_exists] at there
    rcases there with ⟨old, there⟩
    rw [get_cons, bind_get_nil] at there
    rcases eraseMember_puts isObject there with ⟨changed, erased, puts⟩
    have removed : removeAt key value = some changed := by
      rcases exists_of_shape_obj isObject with ⟨keys, unique, vals, rfl⟩
      exact erased
    rcases effect_of_modify found removed puts with ⟨after, modified, effect⟩
    refine ⟨after, ?_, effect⟩
    simpa [operation, Operation.apply, parsePointer_pointer] using modified

/-- Neither of two paths leads to the other. -/
def Apart (path other : List Str) : Prop := ¬path <+: other ∧ ¬other <+: path

/-- What changes at paths that are apart do together. -/
structure Effects (changes : List Change) (before after : Json) : Prop where
  under : ∀ change ∈ changes, ∀ rest, after.get (change.path ++ rest) = change.new.bind (get rest)
  apart : ∀ other, (∀ change ∈ changes, Apart change.path other) → after.get other = before.get other
  above : ∀ other, (∀ change ∈ changes, ¬change.path <+: other) →
    (after.get other).map shape = (before.get other).map shape

theorem Effects.nil (json : Json) : Effects [] json json :=
  ⟨by simp, fun _ _ => rfl, fun _ _ => rfl⟩

theorem Effects.snoc {before middle after : Json}
    (effects : Effects changes before middle) (effect : Effect change.path change.new middle after)
    (separate : ∀ earlier ∈ changes, Apart earlier.path change.path) :
    Effects (changes ++ [change]) before after := by
  constructor
  · intro one mem rest
    rw [List.mem_append, List.mem_singleton] at mem
    rcases mem with earlier | rfl
    · rw [← effects.under one earlier rest]
      rcases separate one earlier with ⟨notUnder, notAbove⟩
      apply effect.apart
      · intro under
        rcases List.prefix_or_prefix_of_prefix under (List.prefix_append one.path rest) with
          last | first
        · exact notAbove last
        · exact notUnder first
      · intro above
        exact notUnder ((List.prefix_append one.path rest).trans above)
    · exact effect.under rest
  · intro other isApart
    have fromLast := isApart change (by simp)
    rw [effect.apart other fromLast.1 fromLast.2]
    exact effects.apart other fun earlier mem => isApart earlier (by simp [mem])
  · intro other notUnder
    have fromLast := notUnder change (by simp)
    have earlier := effects.above other fun earlier mem => notUnder earlier (by simp [mem])
    by_cases above : other <+: change.path
    · exact (effect.above other fromLast above).trans earlier
    · rw [effect.apart other fromLast above]
      exact earlier

theorem Change.ready_of_effects {before after : Json}
    (effects : Effects changes before after) (ready : change.Ready before)
    (separate : ∀ earlier ∈ changes, Apart earlier.path change.path) : change.Ready after := by
  rcases ready with ⟨parents, key, isPath, isObject, present⟩
  refine ⟨parents, key, isPath, ?_, fun isNone => ?_⟩
  · rw [effects.above parents, isObject]
    intro earlier mem under
    apply (separate earlier mem).1
    rw [isPath]
    exact under.trans (List.prefix_append parents [key])
  · rw [effects.apart change.path separate]
    exact present isNone

/-- Changes that are apart from each other, each of them possible to begin with, are all possible
and do what each of them does. -/
theorem applyPatch_changes (ready : ∀ change ∈ changes, change.Ready json)
    (separate : changes.Pairwise fun first later => Apart first.path later.path) :
    ∃ after, applyPatch (changes.map Change.operation) json = some after ∧
      Effects changes json after := by
  induction changes using List.reverseRecOn with
  | nil => exact ⟨json, rfl, Effects.nil json⟩
  | append_singleton changes change ih =>
    rw [List.pairwise_append] at separate
    rcases separate with ⟨earlier, _, fromLast⟩
    rcases ih (fun one mem => ready one (List.mem_append_left _ mem)) earlier with
      ⟨middle, applied, effects⟩
    have apartFromLast : ∀ one ∈ changes, Apart one.path change.path :=
      fun one mem => fromLast one mem change (List.mem_singleton_self change)
    have readyNow := Change.ready_of_effects effects (ready change (by simp)) apartFromLast
    rcases Change.effect readyNow with ⟨after, last, effect⟩
    refine ⟨after, ?_, effects.snoc effect apartFromLast⟩
    rw [applyPatch] at applied ⊢
    rw [List.map_append, List.foldlM_append, applied]
    simpa using last

end Kiac.Json
