import Kiac.Gpu.Decoded

/-!
# What the patch says

The patch is a list of changes at paths: for each list with an NVIDIA name, the Venus GPU gets its
quantity and the name is taken out. A patch is only made if no list has two such names, or another
quantity of the Venus GPU.
-/

namespace Kiac.Gpu

open Json (Change)

section Paths

theorem jsonPointerToken_eq (value : Str) : jsonPointerToken value = Json.escape value := by
  induction value with
  | nil => rfl
  | cons b value ih =>
    rw [Json.escape_cons, ← ih]
    by_cases isTilde : b = byte '~'
    · have tilde : replaceAll (byte '/') (str "~1") (str "~0") = str "~0" := by decide
      simp [jsonPointerToken, replaceAll, isTilde] at tilde ⊢
      exact tilde
    · simp [jsonPointerToken, replaceAll, isTilde]

theorem escape_of_plain {token : Str} (plain : ∀ b ∈ token, b ≠ byte '~' ∧ b ≠ byte '/') :
    Json.escape token = token := by
  induction token with
  | nil => rfl
  | cons b token ih =>
    rw [List.forall_mem_cons] at plain
    rw [Json.escape_cons, if_neg plain.1.1, if_neg plain.1.2, ih plain.2]
    rfl

theorem escape_formatNat (n : ℕ) : Json.escape (Str.formatNat n) = Str.formatNat n := by
  apply escape_of_plain
  intro b mem
  have isDigit := Str.isDigit_of_mem_formatNat mem
  constructor
  · rintro rfl
    revert isDigit
    decide
  · rintro rfl
    revert isDigit
    decide

def ContainerKind.start (kind : ContainerKind) : Str := str "/spec/" ++ kind.key ++ str "/"

theorem pointer_site (site : Site) (name : Str) :
    site.kind.start ++ Str.formatNat site.index ++ str "/resources" ++ str "/" ++ site.list.key ++
      str "/" ++ jsonPointerToken name = Json.pointer (site.path ++ [name]) := by
  have spec : byte '/' :: Json.escape (str "spec") = str "/spec" := by decide
  have kind : str "/spec/" ++ site.kind.key ++ str "/" =
      str "/spec" ++ byte '/' :: Json.escape site.kind.key ++ str "/" := by
    cases site.kind <;> decide
  have list : byte '/' :: Json.escape site.list.key = str "/" ++ site.list.key := by
    cases site.list <;> decide
  have resources : byte '/' :: Json.escape (str "resources") = str "/resources" := by decide
  have slash : str "/" = [byte '/'] := by decide
  simp only [Site.path, containerPath, List.cons_append, List.nil_append, Json.pointer_cons, spec,
    ContainerKind.start, kind, list, resources, escape_formatNat, jsonPointerToken_eq]
  simp [Json.pointer, slash]

end Paths

variable {quantities : Quantities}

def aliases (list : ResourceList quantities) : ResourceList quantities :=
  list.filter fun entry => isAlias entry.1

def siteChanges (site : Site) (list : ResourceList quantities) : List Change :=
  (aliases list).flatMap fun entry =>
    [⟨site.path ++ [resourceName], some (.str (quantities.format entry.2))⟩,
      ⟨site.path ++ [entry.1], none⟩]

/-- The list has at most one NVIDIA name, and no other quantity of the Venus GPU beside it. -/
structure Acceptable (list : ResourceList quantities) : Prop where
  single : (aliases list).length ≤ 1
  agrees : ∀ name quantity existing, isAlias name → (name, quantity) ∈ list →
    (resourceName, existing) ∈ list → quantities.value existing = quantities.value quantity

variable {path name : Str} {before after : Rewriting} {list : ResourceList quantities}
  {kind : ContainerKind} {index : ℕ} {containers : List (Container quantities)}

theorem rewriteName_of_not_isAlias (plain : isAlias name = false)
    (state : ResourceList quantities × Rewriting) :
    rewriteName quantities path state name = .ok state := by
  unfold rewriteName
  cases found : state.1.lookup name <;> simp [found, plain]

theorem foldlM_rewriteName_of_plain {names : List Str}
    (plain : ∀ name ∈ names, isAlias name = false) (state : ResourceList quantities × Rewriting) :
    names.foldlM (rewriteName quantities path) state = .ok state := by
  induction names with
  | nil => rfl
  | cons name names ih =>
    rw [List.forall_mem_cons] at plain
    rw [List.foldlM_cons, rewriteName_of_not_isAlias plain.1]
    exact ih plain.2

structure Rewriting.Adds (before : Rewriting) (changes : List Change) (names : Str → Prop)
    (after : Rewriting) : Prop where
  patches_eq : after.patches = before.patches ++ changes.map Change.operation
  mem_rewritten : ∀ name, name ∈ after.rewritten ↔ name ∈ before.rewritten ∨ names name

theorem Rewriting.Adds.trans {middle : Rewriting} {changes later : List Change}
    {names others : Str → Prop} (first : before.Adds changes names middle)
    (second : middle.Adds later others after) :
    before.Adds (changes ++ later) (fun name => names name ∨ others name) after := by
  constructor
  · rw [second.patches_eq, first.patches_eq, List.map_append, List.append_assoc]
  · intro name
    rw [second.mem_rewritten, first.mem_rewritten, or_assoc]

theorem lookup_eq_some_iff_mem (unique : (list.map Prod.fst).Nodup)
    {quantity : quantities.Quantity} :
    list.lookup name = some quantity ↔ (name, quantity) ∈ list := by
  induction list with
  | nil => simp
  | cons entry list ih =>
    rw [List.map_cons, List.nodup_cons] at unique
    rcases entry with ⟨key, value⟩
    by_cases same : name = key
    · subst same
      have absent : (name, quantity) ∉ list := fun mem =>
        unique.1 (List.mem_map.mpr ⟨_, mem, rfl⟩)
      simp [absent, eq_comm]
    · simp [List.lookup_cons, beq_eq_false_iff_ne.mpr same, same, ih unique.2]

theorem not_isAlias_resourceName : isAlias resourceName = false := by decide

theorem adds_of_rewriteName {after : ResourceList quantities × Rewriting}
    (unique : (list.map Prod.fst).Nodup) {quantity : quantities.Quantity}
    (mem : (name, quantity) ∈ list) (isNvidia : isAlias name)
    (ok : rewriteName quantities path (list, before) name = .ok after) :
    (∀ existing, (resourceName, existing) ∈ list →
      quantities.value existing = quantities.value quantity) ∧
    after.2.patches = before.patches ++
      [.add (path ++ str "/" ++ jsonPointerToken resourceName) (.str (quantities.format quantity)),
        .remove (path ++ str "/" ++ jsonPointerToken name)] ∧
    after.2.rewritten = before.rewritten.insert name := by
  have found := (lookup_eq_some_iff_mem unique).mpr mem
  simp only [rewriteName, found, isNvidia, Bool.not_true, Bool.false_eq_true, if_false] at ok
  cases clash : (list.lookup resourceName).filter fun existing =>
      quantities.value existing ≠ quantities.value quantity with
  | some existing =>
    rw [clash] at ok
    cases ok
  | none =>
    rw [clash] at ok
    cases ok
    refine ⟨?_, rfl, rfl⟩
    intro existing isThere
    rw [(lookup_eq_some_iff_mem unique).mpr isThere] at clash
    simpa using clash

theorem foldlM_rewriteName_of_single {names : List Str}
    (single : names.filter (fun key => isAlias key) = [name])
    (state : ResourceList quantities × Rewriting) :
    names.foldlM (rewriteName quantities path) state = rewriteName quantities path state name := by
  rcases List.filter_eq_cons_iff.mp single with ⟨pre, post, rfl, plainPre, _, plainPost⟩
  rw [List.foldlM_append, foldlM_rewriteName_of_plain (by simpa using plainPre)]
  change (name :: post).foldlM (rewriteName quantities path) state = _
  rw [List.foldlM_cons]
  cases rewriteName quantities path state name with
  | error message => rfl
  | ok next =>
    exact foldlM_rewriteName_of_plain (by simpa using List.filter_eq_nil_iff.mp plainPost) next

theorem filter_map_fst (list : ResourceList quantities) :
    (list.map Prod.fst).filter (fun key => isAlias key) = (aliases list).map Prod.fst := by
  rw [List.filter_map]
  rfl

theorem mem_aliases {entry : Str × quantities.Quantity} :
    entry ∈ aliases list ↔ entry ∈ list ∧ isAlias entry.1 := by
  simp [aliases]

theorem adds_of_rewriteList (site : Site) {list : Option (ResourceList quantities)}
    (unique : ((list.getD []).map Prod.fst).Nodup)
    (ok : rewriteList quantities (site.kind.start ++ Str.formatNat site.index ++ str "/resources")
      site.list.key list before = .ok after) :
    Acceptable (list.getD []) ∧ before.Adds (siteChanges site (list.getD []))
      (fun name => ∃ quantity, (name, quantity) ∈ aliases (list.getD [])) after := by
  simp only [rewriteList] at ok
  generalize list.getD [] = entries at *
  split_ifs at ok with many
  have sorted := (List.perm_insertionSort (· ≤ ·) (entries.map Prod.fst)).filter
    fun key => isAlias key
  rw [filter_map_fst] at many sorted
  have single : (aliases entries).length ≤ 1 := by simpa using many
  rcases rewritten : aliases entries with _ | ⟨⟨name, quantity⟩, rest⟩
  · rw [rewritten, List.map_nil, List.perm_nil, List.filter_eq_nil_iff] at sorted
    rw [foldlM_rewriteName_of_plain (by simpa using sorted)] at ok
    cases ok
    refine ⟨⟨single, ?_⟩, by simp [siteChanges, rewritten], by simp⟩
    intro name quantity _ isNvidia mem
    have impossible := mem_aliases.mpr ⟨mem, isNvidia⟩
    rw [rewritten] at impossible
    cases impossible
  · have noMore : rest = [] := by
      rw [rewritten] at single
      simpa using single
    subst noMore
    have isEntry := mem_aliases.mp (rewritten ▸ List.mem_singleton_self (name, quantity))
    rw [rewritten, List.map_singleton, List.perm_singleton] at sorted
    rw [foldlM_rewriteName_of_single sorted] at ok
    cases stepped : rewriteName quantities (site.kind.start ++ Str.formatNat site.index ++
        str "/resources" ++ str "/" ++ site.list.key) (entries, before) name with
    | error message =>
      rw [stepped] at ok
      cases ok
    | ok next =>
      rw [stepped] at ok
      cases ok
      rcases adds_of_rewriteName unique isEntry.1 isEntry.2 stepped with ⟨agrees, patches, names⟩
      refine ⟨⟨single, ?_⟩, ?_, ?_⟩
      · intro other otherQuantity existing isNvidia mem isThere
        have isOnly := mem_aliases.mpr ⟨mem, isNvidia⟩
        rw [rewritten, List.mem_singleton] at isOnly
        cases isOnly
        exact agrees existing isThere
      · rw [patches, pointer_site, pointer_site]
        simp [siteChanges, rewritten, Change.operation]
      · intro other
        rw [names, List.mem_insert_iff, or_comm]
        simp

theorem rewriteList_of_plain {base : Str} {list : Option (ResourceList quantities)}
    (plain : ∀ entry ∈ list.getD [], isAlias entry.1 = false) (before : Rewriting) :
    rewriteList quantities base name list before = .ok before := by
  have noNames : ∀ key ∈ (list.getD []).map Prod.fst, isAlias key = false := by simpa using plain
  have noAliases : ((list.getD []).map Prod.fst).filter (fun key => isAlias key) = [] := by
    rw [List.filter_eq_nil_iff]
    intro key mem
    simp [noNames key mem]
  simp only [rewriteList, noAliases]
  rw [foldlM_rewriteName_of_plain]
  · rfl
  · intro key mem
    exact noNames key ((List.mem_insertionSort _).mp mem)

/-- The changes of the containers of a kind, from the one with the given index on. -/
def kindChanges (kind : ContainerKind) : ℕ → List (Container quantities) → List Change
  | _, [] => []
  | index, container :: containers =>
    siteChanges ⟨kind, index, .limits⟩ (container.limits.getD []) ++
      siteChanges ⟨kind, index, .requests⟩ (container.requests.getD []) ++
      kindChanges kind (index + 1) containers

def Container.Names (container : Container quantities) (name : Str) : Prop :=
  ∃ list quantity, (name, quantity) ∈ aliases ((container.listOf list).getD [])

theorem adds_of_rewriteRequirements {container : Container quantities}
    (unique : ∀ list, (((container.listOf list).getD []).map Prod.fst).Nodup)
    (ok : rewriteRequirements quantities container
      (kind.start ++ Str.formatNat index ++ str "/resources") before = .ok after) :
    (∀ list, Acceptable ((container.listOf list).getD [])) ∧
      before.Adds (siteChanges ⟨kind, index, .limits⟩ (container.limits.getD []) ++
        siteChanges ⟨kind, index, .requests⟩ (container.requests.getD [])) container.Names after := by
  rw [rewriteRequirements] at ok
  cases limited : rewriteList quantities (kind.start ++ Str.formatNat index ++ str "/resources")
      (str "limits") container.limits before with
  | error message =>
    rw [limited] at ok
    cases ok
  | ok middle =>
    rw [limited] at ok
    have limits := adds_of_rewriteList ⟨kind, index, .limits⟩ (unique .limits) limited
    have requests := adds_of_rewriteList ⟨kind, index, .requests⟩ (unique .requests) ok
    have adds := limits.2.trans requests.2
    refine ⟨fun list => ?_, adds.patches_eq, fun name => ?_⟩
    · cases list with
      | limits => exact limits.1
      | requests => exact requests.1
    · rw [adds.mem_rewritten]
      apply or_congr_right
      constructor
      · rintro (⟨quantity, mem⟩ | ⟨quantity, mem⟩)
        · exact ⟨.limits, quantity, mem⟩
        · exact ⟨.requests, quantity, mem⟩
      · rintro ⟨list, quantity, mem⟩
        cases list with
        | limits => exact Or.inl ⟨quantity, mem⟩
        | requests => exact Or.inr ⟨quantity, mem⟩

theorem adds_of_rewriteContainers {noun : Str} (unique : ∀ container ∈ containers, ∀ list,
      (((container.listOf list).getD []).map Prod.fst).Nodup)
    (ok : rewriteContainers quantities kind.start noun index before containers = .ok after) :
    (∀ container ∈ containers, ∀ list, Acceptable ((container.listOf list).getD [])) ∧
      before.Adds (kindChanges kind index containers)
        (fun name => ∃ container ∈ containers, container.Names name) after := by
  induction containers generalizing index before with
  | nil =>
    cases ok
    exact ⟨by simp, by simp [kindChanges], by simp⟩
  | cons container containers ih =>
    rw [List.forall_mem_cons] at unique
    rw [rewriteContainers] at ok
    cases rewritten : rewriteRequirements quantities container
        (kind.start ++ Str.formatNat index ++ str "/resources") before with
    | error message =>
      rw [rewritten] at ok
      cases ok
    | ok middle =>
      rw [rewritten] at ok
      rcases adds_of_rewriteRequirements unique.1 rewritten with ⟨acceptable, first⟩
      rcases ih unique.2 ok with ⟨acceptableRest, rest⟩
      have adds := first.trans rest
      refine ⟨List.forall_mem_cons.mpr ⟨acceptable, acceptableRest⟩, adds.patches_eq, ?_⟩
      intro name
      rw [adds.mem_rewritten]
      simp

theorem rewriteContainers_of_plain {start noun : Str}
    (plain : ∀ container ∈ containers, ∀ list, ∀ entry ∈ (container.listOf list).getD [],
      isAlias entry.1 = false) (before : Rewriting) :
    rewriteContainers quantities start noun index before containers = .ok before := by
  induction containers generalizing index with
  | nil => rfl
  | cons container containers ih =>
    rw [List.forall_mem_cons] at plain
    have requirements : rewriteRequirements quantities container
        (start ++ Str.formatNat index ++ str "/resources") before = .ok before := by
      have limits : rewriteList quantities (start ++ Str.formatNat index ++ str "/resources")
          (str "limits") container.limits before = .ok before :=
        rewriteList_of_plain (plain.1 .limits) before
      rw [rewriteRequirements, limits]
      exact rewriteList_of_plain (plain.1 .requests) before
    rw [rewriteContainers, requirements]
    exact ih plain.2

theorem mem_kindChanges {change : Change} :
    change ∈ kindChanges kind index containers ↔ ∃ i list,
      change ∈ siteChanges ⟨kind, index + i, list⟩
        ((containers[i]?.bind (·.listOf list)).getD []) := by
  induction containers generalizing index with
  | nil => simp [kindChanges, siteChanges, aliases]
  | cons container containers ih =>
    rw [kindChanges, List.mem_append, List.mem_append, ih]
    constructor
    · rintro ((limits | requests) | ⟨i, list, mem⟩)
      · exact ⟨0, .limits, limits⟩
      · exact ⟨0, .requests, requests⟩
      · refine ⟨i + 1, list, ?_⟩
        rwa [List.getElem?_cons_succ, ← Nat.add_assoc, Nat.add_right_comm]
    · rintro ⟨i, list, mem⟩
      cases i with
      | zero =>
        cases list with
        | limits => exact Or.inl (Or.inl mem)
        | requests => exact Or.inl (Or.inr mem)
      | succ i =>
        refine Or.inr ⟨i, list, ?_⟩
        rwa [List.getElem?_cons_succ, ← Nat.add_assoc, Nat.add_right_comm] at mem

theorem mem_kindChanges_listAt {pod : Pod quantities} {change : Change} :
    change ∈ kindChanges kind 0 (pod.containersOf kind) ↔
      ∃ site : Site, site.kind = kind ∧ change ∈ siteChanges site (pod.listAt site) := by
  rw [mem_kindChanges]
  constructor
  · rintro ⟨i, list, mem⟩
    rw [Nat.zero_add] at mem
    exact ⟨⟨kind, i, list⟩, rfl, mem⟩
  · rintro ⟨⟨_, i, list⟩, rfl, mem⟩
    refine ⟨i, list, ?_⟩
    rw [Nat.zero_add]
    exact mem

section Separate

theorem apart_of_length_eq {path other : List Str} (same : path.length = other.length)
    (distinct : path ≠ other) : Json.Apart path other :=
  ⟨fun leads => distinct (leads.eq_of_length same),
    fun leads => distinct (leads.eq_of_length same.symm).symm⟩

theorem ContainerKind.key_injective : Function.Injective ContainerKind.key := by
  intro kind other same
  cases kind <;> cases other <;> first | rfl | exact absurd same (by decide)

theorem ListKind.key_injective : Function.Injective ListKind.key := by
  intro list other same
  cases list <;> cases other <;> first | rfl | exact absurd same (by decide)

variable {site other : Site} {list : ResourceList quantities}

theorem Site.path_append_inj {name otherName : Str}
    (same : site.path ++ [name] = other.path ++ [otherName]) : site = other ∧ name = otherName := by
  rcases site with ⟨kind, index, list⟩
  rcases other with ⟨otherKind, otherIndex, otherList⟩
  simp only [path, containerPath, List.cons_append, List.nil_append, List.cons.injEq, true_and,
    and_true] at same
  rcases same with ⟨sameKind, sameIndex, sameList, sameName⟩
  refine ⟨?_, sameName⟩
  rw [ContainerKind.key_injective sameKind, Str.formatNat_injective sameIndex,
    ListKind.key_injective sameList]

theorem apart_of_site_ne {name otherName : Str} (distinct : site ≠ other ∨ name ≠ otherName) :
    Json.Apart (site.path ++ [name]) (other.path ++ [otherName]) := by
  apply apart_of_length_eq
  · simp [Site.path, containerPath]
  · intro same
    have equal := Site.path_append_inj same
    exact distinct.elim (fun differ => differ equal.1) fun differ => differ equal.2

theorem exists_path_of_mem_siteChanges {change : Change} (mem : change ∈ siteChanges site list) :
    ∃ name, change.path = site.path ++ [name] := by
  simp only [siteChanges, List.mem_flatMap, List.mem_cons, List.not_mem_nil, or_false] at mem
  rcases mem with ⟨entry, _, rfl | rfl⟩
  · exact ⟨resourceName, rfl⟩
  · exact ⟨entry.1, rfl⟩

theorem apart_of_mem_siteChanges {otherList : ResourceList quantities}
    {change otherChange : Change} (distinct : site ≠ other) (mem : change ∈ siteChanges site list)
    (memOther : otherChange ∈ siteChanges other otherList) :
    Json.Apart change.path otherChange.path := by
  rcases exists_path_of_mem_siteChanges mem with ⟨name, path⟩
  rcases exists_path_of_mem_siteChanges memOther with ⟨otherName, otherPath⟩
  rw [path, otherPath]
  exact apart_of_site_ne (Or.inl distinct)

theorem pairwise_siteChanges (site : Site) (acceptable : Acceptable list) :
    (siteChanges site list).Pairwise fun first later => Json.Apart first.path later.path := by
  rcases rewritten : aliases list with _ | ⟨entry, rest⟩
  · simp [siteChanges, rewritten]
  · have noMore : rest = [] := by
      have single := acceptable.single
      rw [rewritten] at single
      simpa using single
    have isNvidia := (mem_aliases.mp (rewritten ▸ List.mem_cons_self)).2
    have distinct : resourceName ≠ entry.1 := by
      intro same
      rw [← same, not_isAlias_resourceName] at isNvidia
      cases isNvidia
    simp only [siteChanges, rewritten, noMore, List.flatMap_singleton, List.pairwise_cons,
      List.mem_singleton, forall_eq, List.not_mem_nil, false_implies, implies_true, and_true,
      List.Pairwise.nil]
    exact apart_of_site_ne (Or.inr distinct)

theorem pairwise_kindChanges {kind : ContainerKind} {index : ℕ}
    {containers : List (Container quantities)}
    (acceptable : ∀ container ∈ containers, ∀ list, Acceptable ((container.listOf list).getD [])) :
    (kindChanges kind index containers).Pairwise
      fun first later => Json.Apart first.path later.path := by
  induction containers generalizing index with
  | nil => exact List.Pairwise.nil
  | cons container containers ih =>
    rw [List.forall_mem_cons] at acceptable
    rw [kindChanges, List.pairwise_append, List.pairwise_append]
    refine ⟨⟨pairwise_siteChanges _ (acceptable.1 .limits),
      pairwise_siteChanges _ (acceptable.1 .requests), ?_⟩, ih acceptable.2, ?_⟩
    · intro first memFirst later memLater
      exact apart_of_mem_siteChanges (by simp) memFirst memLater
    · intro first memFirst later memLater
      rcases mem_kindChanges.mp memLater with ⟨i, list, memLater⟩
      rcases List.mem_append.mp memFirst with memFirst | memFirst
      · exact apart_of_mem_siteChanges (by simp; omega) memFirst memLater
      · exact apart_of_mem_siteChanges (by simp; omega) memFirst memLater

end Separate

end Kiac.Gpu
