import Kiac.Cluster.Resume
import Kiac.Text.Word

/-!
# The recorded endpoint

`admin.conf` records the address of the control plane in its `server` line, which
`apiServerIP` reads. When every bounded occurrence of that address is replaced by another
one, `apiServerIP` reads the other one: the replacement does not touch the text that leads
to the address, and it turns no text into a `server` line that was not one before.
-/

namespace Kiac.Cluster

open Str

def isQuadByte (b : UInt8) : Bool := isDigit b || b == byte '.'

def Group (group : Str) : Prop :=
  group ≠ [] ∧ group.length ≤ 3 ∧ ∀ b ∈ group, isDigit b = true

def Quad (address : Str) : Prop :=
  ∃ first second third fourth, Group first ∧ Group second ∧ Group third ∧ Group fourth ∧
    address = first ++ byte '.' :: (second ++ byte '.' :: (third ++ byte '.' :: fourth))

/-- Reads four groups of digits, of which `dots` have ended, and returns the rest. -/
def readQuad : (dots : ℕ) → (inGroup : Bool) → Str → Option Str
  | dots, inGroup, [] => if dots = 3 ∧ inGroup = true then some [] else none
  | dots, inGroup, b :: rest =>
    if isDigit b then readQuad dots true rest
    else if b = byte '.' then if inGroup then readQuad (dots + 1) false rest else none
    else if dots = 3 ∧ inGroup = true then some (b :: rest) else none

def groupsFrom (dots : ℕ) (inGroup : Bool) : List Str → Bool
  | [] => false
  | head :: tail =>
    dots + tail.length == 3 && (inGroup || !head.isEmpty) && head.all isDigit &&
      tail.all fun part => !part.isEmpty && part.all isDigit

theorem groupsFrom_dot (dots : ℕ) (inGroup : Bool) {parts : List Str} (nonempty : parts ≠ []) :
    groupsFrom dots inGroup ([] :: parts) = (inGroup && groupsFrom (dots + 1) false parts) := by
  rcases List.exists_cons_of_ne_nil nonempty with ⟨head, tail, rfl⟩
  have counts : dots + (tail.length + 1) = dots + 1 + tail.length := by omega
  simp only [groupsFrom, List.length_cons, counts, List.isEmpty_nil, Bool.not_true, Bool.or_false,
    List.all_nil, Bool.and_true, List.all_cons, Bool.false_or]
  cases inGroup <;> simp [Bool.and_assoc]

theorem groupsFrom_digit (dots : ℕ) (inGroup : Bool) {parts : List Str} (nonempty : parts ≠ [])
    {b : UInt8} (digit : isDigit b) :
    groupsFrom dots inGroup (parts.modifyHead (b :: ·)) = groupsFrom dots true parts := by
  rcases List.exists_cons_of_ne_nil nonempty with ⟨head, tail, rfl⟩
  simp [groupsFrom, digit]

theorem readQuad_eq (dots : ℕ) (inGroup : Bool) (s : Str) :
    readQuad dots inGroup s =
      if groupsFrom dots inGroup ((s.takeWhile isQuadByte).splitOnP (· == byte '.')) then
        some (s.drop (s.takeWhile isQuadByte).length)
      else none := by
  induction s generalizing dots inGroup with
  | nil => simp [readQuad, groupsFrom]
  | cons b rest ih =>
    have nonempty := List.splitOnP_ne_nil (· == byte '.') (rest.takeWhile isQuadByte)
    by_cases digit : isDigit b = true
    · have quadByte : isQuadByte b = true := by simp [isQuadByte, digit]
      have noDot : (b == byte '.') = false := by
        rw [beq_eq_false_iff_ne]
        rintro rfl
        exact absurd digit (by decide)
      rw [readQuad, if_pos digit, ih, List.takeWhile_cons_of_pos quadByte,
        List.splitOnP_cons_eq_if_modifyHead, noDot, if_neg Bool.false_ne_true,
        groupsFrom_digit dots inGroup nonempty digit, List.length_cons, List.drop_succ_cons]
    · by_cases dot : b = byte '.'
      · subst dot
        have quadByte : isQuadByte (byte '.') := by decide
        rw [readQuad, if_neg digit, if_pos rfl, List.takeWhile_cons_of_pos quadByte,
          List.splitOnP_cons_eq_if_modifyHead, if_pos (beq_self_eq_true _),
          groupsFrom_dot dots inGroup nonempty, List.length_cons, List.drop_succ_cons, ih]
        cases inGroup <;> simp
      · have quadByte : ¬ isQuadByte b = true := by simp [isQuadByte, digit, dot]
        rw [readQuad, if_neg digit, if_neg dot, List.takeWhile_cons_of_neg quadByte]
        simp [groupsFrom]

theorem groupsFrom_zero (parts : List Str) :
    groupsFrom 0 false parts =
      (parts.length == 4 && parts.all fun part => !part.isEmpty && part.all isDigit) := by
  cases parts with
  | nil => rfl
  | cons head tail =>
    have counts : (tail.length + 1 == 4) = (tail.length == 3) := by
      rw [Bool.eq_iff_iff]
      simp
    simp only [groupsFrom, List.length_cons, counts, List.all_cons, Nat.zero_add, Bool.false_or,
      Bool.and_assoc]

/-- The end of `apiServerAt`, after the scheme. -/
def addressAt (s : Str) : Option Str := do
  let address := s.takeWhile fun b => Str.isDigit b || b == byte '.'
  let _ ← skipExact (str ":6443") (s.drop address.length)
  if dottedQuad address then some address else none

theorem isSome_addressAt (s : Str) :
    (addressAt s).isSome = ((readQuad 0 false s).bind (skipExact (str ":6443"))).isSome := by
  have quad : dottedQuad (s.takeWhile isQuadByte) =
      groupsFrom 0 false ((s.takeWhile isQuadByte).splitOnP (· == byte '.')) :=
    (groupsFrom_zero _).symm
  rw [readQuad_eq, ← quad]
  change ((skipExact (str ":6443") (s.drop (s.takeWhile isQuadByte).length)).bind fun _ =>
    if dottedQuad (s.takeWhile isQuadByte) then some (s.takeWhile isQuadByte) else none).isSome = _
  cases dottedQuad (s.takeWhile isQuadByte) with
  | false => simp
  | true => cases port : skipExact (str ":6443") (s.drop (s.takeWhile isQuadByte).length) <;> simp [port]

theorem skipExact_nil (s : Str) : skipExact [] s = some s := by simp [skipExact, hasPrefix]

theorem skipExact_cons_nil (c : UInt8) (start : Str) : skipExact (c :: start) [] = none := rfl

theorem skipExact_cons_cons (c b : UInt8) (start s : Str) :
    skipExact (c :: start) (b :: s) = if b = c then skipExact start s else none := by
  by_cases same : b = c
  · subst same
    simp [skipExact, hasPrefix, List.isPrefixOf]
  · have differs : (c == b) = false := by
      rw [beq_eq_false_iff_ne]
      exact Ne.symm same
    simp [skipExact, hasPrefix, List.isPrefixOf, differs, same]

def StartsDigit (s : Str) : Prop := ∃ b rest, s = b :: rest ∧ isDigit b = true

theorem Quad.startsDigit {address : Str} (quad : Quad address) : StartsDigit address := by
  rcases quad with ⟨first, second, third, fourth, ⟨nonempty, _, digits⟩, _, _, _, rfl⟩
  rcases List.exists_cons_of_ne_nil nonempty with ⟨b, rest, rfl⟩
  exact ⟨b, _, rfl, digits b List.mem_cons_self⟩

section Rewriting

variable {word new : Str} {prev : Option UInt8} {s t : Str}

/-- A text and its rewriting end together, have the same byte that is not a digit, or both go
on with a digit. -/
theorem rewritten_head (wordDigit : StartsDigit word) (newDigit : StartsDigit new)
    (rewritten : Rewritten word new prev s t) :
    (s = [] ∧ t = []) ∨
      (∃ b s' t', isDigit b = false ∧ s = b :: s' ∧ t = b :: t' ∧
        Rewritten word new (some b) s' t') ∨
      StartsDigit s ∧ StartsDigit t := by
  cases rewritten with
  | nil => exact Or.inl ⟨rfl, rfl⟩
  | @keep _ b s t _ rest =>
    cases digit : isDigit b with
    | false => exact Or.inr (Or.inl ⟨b, s, t, digit, rfl, rfl, rest⟩)
    | true => exact Or.inr (Or.inr ⟨⟨b, s, rfl, digit⟩, ⟨b, t, rfl, digit⟩⟩)
  | swap =>
    rcases wordDigit with ⟨b, word, rfl, digit⟩
    rcases newDigit with ⟨b', new, rfl, digit'⟩
    exact Or.inr (Or.inr ⟨⟨b, _, rfl, digit⟩, ⟨b', _, rfl, digit'⟩⟩)

theorem rewritten_skipExact (wordDigit : StartsDigit word) (newDigit : StartsDigit new)
    (rewritten : Rewritten word new prev s t) {start : Str}
    (noDigit : ∀ b ∈ start, isDigit b = false) :
    (skipExact start s = none ∧ skipExact start t = none) ∨
      ∃ s' t', skipExact start s = some s' ∧ skipExact start t = some t' ∧
        Rewritten word new (start.getLast?.or prev) s' t' := by
  induction start generalizing prev s t with
  | nil =>
    refine Or.inr ⟨s, t, skipExact_nil s, skipExact_nil t, ?_⟩
    simpa using rewritten
  | cons c start ih =>
    have notDigit := noDigit c List.mem_cons_self
    have missing : ∀ {text : Str}, StartsDigit text → skipExact (c :: start) text = none := by
      rintro _ ⟨b, rest, rfl, digit⟩
      rw [skipExact_cons_cons, if_neg]
      rintro rfl
      exact Bool.false_ne_true (notDigit.symm.trans digit)
    rcases rewritten_head wordDigit newDigit rewritten with
      ⟨rfl, rfl⟩ | ⟨b, s, t, _, rfl, rfl, rest⟩ | ⟨digits, digits'⟩
    · exact Or.inl ⟨rfl, rfl⟩
    · simp only [skipExact_cons_cons]
      by_cases same : b = c
      · subst same
        have last : ∀ prev' : Option UInt8,
            (b :: start).getLast?.or prev' = start.getLast?.or (some b) := by
          intro prev'
          rw [List.getLast?_cons]
          cases start.getLast? <;> rfl
        simp only [if_pos, last]
        exact ih rest fun other mem => noDigit other (List.mem_cons_of_mem b mem)
      · exact Or.inl ⟨if_neg same, if_neg same⟩
    · exact Or.inl ⟨missing digits, missing digits'⟩

theorem rewritten_skipOptional (wordDigit : StartsDigit word) (newDigit : StartsDigit new)
    (rewritten : Rewritten word new prev s t) {c : UInt8} (notDigit : isDigit c = false) :
    ∃ prev', Rewritten word new prev' (skipOptional c s) (skipOptional c t) := by
  have kept : ∀ {text : Str}, StartsDigit text → skipOptional c text = text := by
    rintro _ ⟨b, rest, rfl, digit⟩
    rw [skipOptional, if_neg]
    rintro rfl
    exact Bool.false_ne_true (notDigit.symm.trans digit)
  rcases rewritten_head wordDigit newDigit rewritten with
    ⟨rfl, rfl⟩ | ⟨b, s, t, _, rfl, rfl, rest⟩ | ⟨digits, digits'⟩
  · exact ⟨prev, rewritten⟩
  · by_cases same : b = c
    · simp only [skipOptional, if_pos same]
      exact ⟨some b, rest⟩
    · simp only [skipOptional, if_neg same]
      exact ⟨prev, rewritten⟩
  · rw [kept digits, kept digits']
    exact ⟨prev, rewritten⟩

theorem rewritten_dropWhile (wordDigit : StartsDigit word) (newDigit : StartsDigit new)
    {skips : UInt8 → Bool} (notDigit : ∀ b, isDigit b → skips b = false)
    (rewritten : Rewritten word new prev s t) :
    ∃ prev', Rewritten word new prev' (s.dropWhile skips) (t.dropWhile skips) := by
  have kept : ∀ {text : Str}, StartsDigit text → text.dropWhile skips = text := by
    rintro _ ⟨b, rest, rfl, digit⟩
    exact List.dropWhile_cons_of_neg (by simp [notDigit b digit])
  induction s generalizing prev t with
  | nil =>
    rcases rewritten_head wordDigit newDigit rewritten with
      ⟨_, rfl⟩ | ⟨_, _, _, _, impossible, _⟩ | ⟨⟨_, _, impossible, _⟩, _⟩
    · exact ⟨prev, rewritten⟩
    · cases impossible
    · cases impossible
  | cons c s ih =>
    rcases rewritten_head wordDigit newDigit rewritten with
      ⟨impossible, _⟩ | ⟨b, _, t, _, same, rfl, rest⟩ | ⟨digits, digits'⟩
    · cases impossible
    · obtain ⟨rfl, rfl⟩ := List.cons.inj same
      cases skipped : skips c with
      | true =>
        rw [List.dropWhile_cons_of_pos skipped, List.dropWhile_cons_of_pos skipped]
        exact ih rest
      | false =>
        have stays : ¬ skips c := by simp [skipped]
        rw [List.dropWhile_cons_of_neg stays, List.dropWhile_cons_of_neg stays]
        exact ⟨prev, rewritten⟩
    · rw [kept digits, kept digits']
      exact ⟨prev, rewritten⟩

theorem readQuad_digits (dots : ℕ) (inGroup : Bool) {digits : Str}
    (areDigits : ∀ b ∈ digits, isDigit b) (nonempty : digits ≠ []) (rest : Str) :
    readQuad dots inGroup (digits ++ rest) = readQuad dots true rest := by
  induction digits generalizing inGroup with
  | nil => exact absurd rfl nonempty
  | cons b digits ih =>
    rw [List.cons_append, readQuad, if_pos (areDigits b List.mem_cons_self)]
    cases digits with
    | nil => rfl
    | cons c digits =>
      exact ih true (fun other mem => areDigits other (List.mem_cons_of_mem b mem))
        (List.cons_ne_nil c digits)

theorem readQuad_dot (dots : ℕ) (rest : Str) :
    readQuad dots true (byte '.' :: rest) = readQuad (dots + 1) false rest := by
  rw [readQuad, if_neg (by decide), if_pos rfl, if_pos rfl]

variable {address : Str}

theorem Quad.readQuad (quad : Quad address) (dots : ℕ) (rest : Str) :
    Cluster.readQuad dots false (address ++ rest) = Cluster.readQuad (dots + 3) true rest := by
  rcases quad with ⟨first, second, third, fourth, isFirst, isSecond, isThird, isFourth, rfl⟩
  simp only [List.append_assoc, List.cons_append]
  rw [readQuad_digits _ _ isFirst.2.2 isFirst.1, readQuad_dot,
    readQuad_digits _ _ isSecond.2.2 isSecond.1, readQuad_dot,
    readQuad_digits _ _ isThird.2.2 isThird.1, readQuad_dot,
    readQuad_digits _ _ isFourth.2.2 isFourth.1]

theorem Quad.bounds_getLast (quad : Quad address) :
    bounds address.getLast? = false := by
  rcases quad with ⟨first, second, third, fourth, _, _, _, isFourth, rfl⟩
  rcases List.eq_nil_or_concat fourth with rfl | ⟨digits, last, rfl⟩
  · exact absurd rfl isFourth.1
  · have digit := isFourth.2.2 last (by simp)
    have same : (first ++ byte '.' :: (second ++ byte '.' :: (third ++ byte '.' ::
        (digits ++ [last])))).getLast? = some last := by
      simp [List.getLast?_append, List.getLast?_cons]
    simp only [List.concat_eq_append] at *
    rw [same]
    simp [bounds, isWordByte, digit]

theorem rewritten_readQuad (wordQuad : Quad word) (newQuad : Quad new)
    (rewritten : Rewritten word new prev s t) (dots : ℕ) (inGroup : Bool)
    (beside : bounds prev = !inGroup) :
    (readQuad dots inGroup s = none ∧ readQuad dots inGroup t = none) ∨
      ∃ prev' s' t', readQuad dots inGroup s = some s' ∧ readQuad dots inGroup t = some t' ∧
        Rewritten word new prev' s' t' := by
  induction rewritten generalizing dots inGroup with
  | nil prev =>
    rw [readQuad]
    split
    · exact Or.inr ⟨prev, [], [], rfl, rfl, .nil prev⟩
    · exact Or.inl ⟨rfl, rfl⟩
  | @keep prev b s t noWord rest ih =>
    rw [readQuad, readQuad]
    by_cases digit : isDigit b = true
    · rw [if_pos digit, if_pos digit]
      exact ih dots true (by simp [bounds, isWordByte, digit])
    · rw [if_neg digit, if_neg digit]
      by_cases dot : b = byte '.'
      · rw [if_pos dot, if_pos dot]
        cases inGroup with
        | true => exact ih (dots + 1) false (dot ▸ by decide)
        | false => exact Or.inl ⟨rfl, rfl⟩
      · rw [if_neg dot, if_neg dot]
        split
        · exact Or.inr ⟨prev, b :: s, b :: t, rfl, rfl, .keep noWord rest⟩
        · exact Or.inl ⟨rfl, rfl⟩
  | swap before _ _ ih =>
    have outside : inGroup = false := by simpa [before] using beside
    subst outside
    rw [wordQuad.readQuad, newQuad.readQuad]
    exact ih (dots + 3) true wordQuad.bounds_getLast

theorem rewritten_skipDigits (rewritten : Rewritten word new prev s t)
    (inside : bounds prev = false) {digits : Str} (areDigits : ∀ b ∈ digits, isDigit b) :
    (skipExact digits s).isSome = (skipExact digits t).isSome := by
  induction digits generalizing prev s t with
  | nil => simp [skipExact_nil]
  | cons c digits ih =>
    cases rewritten with
    | nil => rfl
    | @keep _ b s t _ rest =>
      rw [skipExact_cons_cons, skipExact_cons_cons]
      split
      · rename_i same
        subst same
        have digit := areDigits b List.mem_cons_self
        refine ih rest (by simp [bounds, isWordByte, digit]) ?_
        exact fun other mem => areDigits other (List.mem_cons_of_mem b mem)
      · rfl
    | swap before => exact absurd (before.symm.trans inside) Bool.true_eq_false.mp

theorem Quad.skipExact_port (quad : Quad address) (rest : Str) :
    skipExact (str "6443") (address ++ rest) = none := by
  rcases quad with ⟨first, second, third, fourth, isFirst, _, _, _, rfl⟩
  rw [skipExact, if_neg]
  intro starts
  rcases hasPrefix_iff.mp starts with ⟨rest', same⟩
  have short := isFirst.2.1
  have atDot := congrArg (·[first.length]?) same
  simp only [List.append_assoc, List.cons_append, List.getElem?_append_right (Nat.le_refl _),
    Nat.sub_self, List.getElem?_cons_zero] at atDot
  rw [List.getElem?_append_left (by rw [show (str "6443").length = 4 by decide]; omega)] at atDot
  have impossible : ∀ i ≤ 3, (str "6443")[i]? ≠ some (byte '.') := by decide
  exact impossible _ short atDot

theorem rewritten_port (wordQuad : Quad word) (newQuad : Quad new)
    (rewritten : Rewritten word new prev s t) :
    (skipExact (str ":6443") s).isSome = (skipExact (str ":6443") t).isSome := by
  have split : ∀ text, skipExact (str ":6443") text =
      (skipExact [byte ':'] text).bind (skipExact (str "6443")) := by
    intro text
    rw [show str ":6443" = byte ':' :: str "6443" by decide]
    cases text with
    | nil => rfl
    | cons b text =>
      rw [skipExact_cons_cons, skipExact_cons_cons]
      split
      · simp [skipExact_nil]
      · rfl
  rw [split, split]
  have colon : ∀ b ∈ [byte ':'], isDigit b = false := by decide +kernel
  rcases rewritten_skipExact wordQuad.startsDigit newQuad.startsDigit rewritten colon with
    ⟨missing, missing'⟩ | ⟨s', t', found, found', rest⟩
  · rw [missing, missing']
  · rw [found, found', Option.bind_some, Option.bind_some]
    cases rest with
    | nil => rfl
    | @keep _ b s t noWord rest =>
      rw [show str "6443" = byte '6' :: str "443" by decide, skipExact_cons_cons,
        skipExact_cons_cons]
      split
      · rename_i same
        subst same
        exact rewritten_skipDigits rest (by decide +kernel) (by decide +kernel)
      · rfl
    | swap => rw [wordQuad.skipExact_port, newQuad.skipExact_port]

theorem rewritten_isSome_addressAt (wordQuad : Quad word) (newQuad : Quad new)
    (rewritten : Rewritten word new prev s t) (bounded : bounds prev) :
    (addressAt s).isSome = (addressAt t).isSome := by
  rw [isSome_addressAt, isSome_addressAt]
  rcases rewritten_readQuad wordQuad newQuad rewritten 0 false bounded with
    ⟨missing, missing'⟩ | ⟨_, s', t', found, found', rest⟩
  · rw [missing, missing']
  · rw [found, found']
    exact rewritten_port wordQuad newQuad rest

theorem Quad.isQuadByte_of_mem (quad : Quad address) :
    ∀ b ∈ address, isQuadByte b := by
  rcases quad with ⟨first, second, third, fourth, isFirst, isSecond, isThird, isFourth, rfl⟩
  have digit : ∀ {group : Str}, Group group → ∀ b ∈ group, isQuadByte b := by
    intro group isGroup b mem
    simp [isQuadByte, isGroup.2.2 b mem]
  intro b mem
  simp only [List.mem_append, List.mem_cons] at mem
  rcases mem with mem | rfl | mem | rfl | mem | rfl | mem
  · exact digit isFirst b mem
  · decide
  · exact digit isSecond b mem
  · decide
  · exact digit isThird b mem
  · decide
  · exact digit isFourth b mem

theorem Quad.dottedQuad (quad : Quad address) :
    Cluster.dottedQuad address := by
  have whole := List.takeWhile_eq_self_iff.mpr quad.isQuadByte_of_mem
  have read := quad.readQuad 0 []
  rw [List.append_nil, readQuad_eq, whole, groupsFrom_zero] at read
  by_contra notQuad
  change (if Cluster.dottedQuad address then _ else _) = _ at read
  rw [if_neg notQuad] at read
  cases read

theorem Quad.addressAt (quad : Quad address) {rest : Str}
    (port : (skipExact (str ":6443") rest).isSome) :
    Cluster.addressAt (address ++ rest) = some address := by
  have taken : (address ++ rest).takeWhile isQuadByte = address := by
    rw [List.takeWhile_append_of_pos quad.isQuadByte_of_mem]
    cases rest with
    | nil => simp
    | cons b rest =>
      rw [show str ":6443" = byte ':' :: str "6443" by decide, skipExact_cons_cons] at port
      split at port
      · rename_i same
        rw [same, List.takeWhile_cons_of_neg (by decide), List.append_nil]
      · cases port
  rcases Option.isSome_iff_exists.mp port with ⟨after, found⟩
  change (skipExact (str ":6443")
    ((address ++ rest).drop ((address ++ rest).takeWhile isQuadByte).length)).bind (fun _ =>
      if Cluster.dottedQuad ((address ++ rest).takeWhile isQuadByte) then
        some ((address ++ rest).takeWhile isQuadByte) else none) = _
  rw [taken, List.drop_left, found, Option.bind_some, if_pos quad.dottedQuad]

theorem addressAt_eq_some (read : addressAt s = some address) :
    ∃ rest, s = address ++ rest ∧ (skipExact (str ":6443") rest).isSome := by
  rcases Option.bind_eq_some_iff.mp read with ⟨after, found, taken⟩
  split at taken
  · obtain rfl := Option.some.inj taken
    refine ⟨s.drop (s.takeWhile isQuadByte).length, ?_, Option.isSome_iff_exists.mpr ⟨_, found⟩⟩
    have start := List.takeWhile_prefix (l := s) isQuadByte
    exact (List.prefix_iff_eq_append.mp start).symm
  · cases taken

theorem rewritten_addressAt (wordQuad : Quad word) (newQuad : Quad new)
    (rewritten : Rewritten word new prev s t) (bounded : bounds prev)
    (read : addressAt s = some word) : addressAt t = some new := by
  rcases addressAt_eq_some read with ⟨rest, rfl, port⟩
  have after : bounds rest.head? := by
    cases rest with
    | nil => rfl
    | cons b rest =>
      rw [show str ":6443" = byte ':' :: str "6443" by decide, skipExact_cons_cons] at port
      split at port
      · rename_i same
        rw [same, List.head?_cons]
        decide
      · cases port
  have isWord : wordAt word prev (word ++ rest) := by simp [wordAt, bounded, after]
  generalize whole : word ++ rest = text at rewritten isWord
  cases rewritten with
  | nil =>
    rcases wordQuad.startsDigit with ⟨b, tail, rfl, _⟩
    cases whole
  | keep noWord => exact absurd (noWord.symm.trans isWord) Bool.false_ne_true
  | swap _ _ later =>
    obtain rfl := List.append_cancel_left whole
    exact newQuad.addressAt (rewritten_port wordQuad newQuad later ▸ port)

/-- The part of `apiServerAt` before the address. -/
def schemeAt (s : Str) : Option Str := do
  let afterKey ← skipExact (str "server") s
  let afterColon ← skipExact (str ":") (skipOptional (byte '"') afterKey)
  skipExact (str "https://") (skipOptional (byte '"') (afterColon.dropWhile isRegexSpace))

theorem apiServerAt_eq (s : Str) : apiServerAt s = (schemeAt s).bind addressAt := by
  simp only [apiServerAt, schemeAt, Option.bind_eq_bind, Option.bind_assoc]
  rfl

theorem not_isRegexSpace (b : UInt8) (digit : isDigit b) : isRegexSpace b = false := by
  by_contra isSpace
  simp only [isRegexSpace, Bool.not_eq_false, Bool.or_eq_true, beq_iff_eq] at isSpace
  rcases isSpace with (((rfl | rfl) | rfl) | rfl) | rfl <;> exact absurd digit (by decide)

theorem rewritten_schemeAt (wordDigit : StartsDigit word) (newDigit : StartsDigit new)
    (rewritten : Rewritten word new prev s t) :
    (schemeAt s = none ∧ schemeAt t = none) ∨
      ∃ s' t', schemeAt s = some s' ∧ schemeAt t = some t' ∧
        Rewritten word new (some (byte '/')) s' t' := by
  have literal : ∀ (start : Str), (∀ b ∈ start, isDigit b = false) → ∀ {prev : Option UInt8}
      {s t : Str}, Rewritten word new prev s t →
        (skipExact start s = none ∧ skipExact start t = none) ∨
          ∃ s' t', skipExact start s = some s' ∧ skipExact start t = some t' ∧
            Rewritten word new (start.getLast?.or prev) s' t' :=
    fun _ noDigit _ _ _ rewritten => rewritten_skipExact wordDigit newDigit rewritten noDigit
  simp only [schemeAt, Option.bind_eq_bind]
  rcases literal (str "server") (by decide +kernel) rewritten with
    ⟨missing, missing'⟩ | ⟨s₁, t₁, found, found', afterKey⟩
  · exact Or.inl (by simp [missing, missing'])
  rw [found, found', Option.bind_some, Option.bind_some]
  rcases rewritten_skipOptional wordDigit newDigit afterKey (c := byte '"') (by decide) with
    ⟨_, afterQuote⟩
  rcases literal (str ":") (by decide +kernel) afterQuote with
    ⟨missing, missing'⟩ | ⟨s₂, t₂, found, found', afterColon⟩
  · exact Or.inl (by simp [missing, missing'])
  rw [found, found', Option.bind_some, Option.bind_some]
  rcases rewritten_dropWhile wordDigit newDigit not_isRegexSpace afterColon with ⟨_, afterSpace⟩
  rcases rewritten_skipOptional wordDigit newDigit afterSpace (c := byte '"') (by decide) with
    ⟨_, value⟩
  exact literal (str "https://") (by decide +kernel) value

theorem apiServerIP_append (quad : Quad address) (rest : Str) :
    apiServerIP (address ++ rest) = apiServerIP rest := by
  have skips : ∀ bytes : Str, (∀ b ∈ bytes, isQuadByte b = true) →
      apiServerIP (bytes ++ rest) = apiServerIP rest := by
    intro bytes areQuad
    induction bytes with
    | nil => rfl
    | cons b bytes ih =>
      have noServer : schemeAt (b :: (bytes ++ rest)) = none := by
        have differs : b ≠ byte 's' := by
          rintro rfl
          exact absurd (areQuad _ List.mem_cons_self) (by decide)
        simp only [schemeAt]
        rw [show str "server" = byte 's' :: str "erver" by decide, skipExact_cons_cons,
          if_neg differs]
        rfl
      rw [List.cons_append, apiServerIP, apiServerAt_eq, noServer]
      exact ih fun other mem => areQuad other (List.mem_cons_of_mem b mem)
  exact skips address quad.isQuadByte_of_mem

theorem rewritten_apiServerIP (wordQuad : Quad word) (newQuad : Quad new)
    (rewritten : Rewritten word new prev s t) (read : apiServerIP s = some word) :
    apiServerIP t = some new := by
  have slash : bounds (some (byte '/')) := by decide
  induction rewritten with
  | nil => cases read
  | @keep _ b s t noWord rest ih =>
    rw [apiServerIP, apiServerAt_eq] at read ⊢
    rcases rewritten_schemeAt wordQuad.startsDigit newQuad.startsDigit (.keep noWord rest) with
      ⟨missing, missing'⟩ | ⟨s', t', found, found', later⟩
    · rw [missing, Option.bind_none] at read
      rw [missing', Option.bind_none]
      exact ih read
    · rw [found, Option.bind_some] at read
      rw [found', Option.bind_some]
      have both := rewritten_isSome_addressAt wordQuad newQuad later slash
      cases address : addressAt s' with
      | none =>
        rw [address] at read both
        rw [Option.isSome_eq_false_iff.mp both.symm |> Option.isNone_iff_eq_none.mp]
        exact ih read
      | some found =>
        rw [address] at read
        obtain rfl := Option.some.inj read
        rw [rewritten_addressAt wordQuad newQuad later slash address]
  | swap _ _ _ ih =>
    rw [apiServerIP_append wordQuad] at read
    rw [apiServerIP_append newQuad]
    exact ih read

end Rewriting

theorem apiServerIP_replaceWord {old new content : Str} (oldQuad : Quad old) (newQuad : Quad new)
    (recorded : apiServerIP content = some old) :
    apiServerIP (replaceWord old new content) = some new := by
  rcases oldQuad.startsDigit with ⟨b, rest, cons, _⟩
  have nonempty := cons ▸ List.cons_ne_nil b rest
  exact rewritten_apiServerIP oldQuad newQuad (rewritten_replaceWord nonempty new content) recorded

end Kiac.Cluster
