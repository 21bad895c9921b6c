import Kiac.Text.Basic

/-!
# Host-port texts

`net.JoinHostPort` and `net.SplitHostPort`. A host with a colon is an IPv6 address
and stands in brackets.
-/

namespace Kiac

namespace Net

/-- `net.JoinHostPort`. -/
def joinHostPort (host port : Str) : Str :=
  if byte ':' ∈ host then byte '[' :: host ++ byte ']' :: byte ':' :: port
  else host ++ byte ':' :: port

/-- The index of the first occurrence of a byte. -/
def indexByte (b : UInt8) (s : Str) : Option ℕ := s.findIdx? (· == b)

/-- The index of the last occurrence of a byte. -/
def lastIndexByte (b : UInt8) (s : Str) : Option ℕ := Str.lastIndex [b] s

/-- `net.SplitHostPort`; `none` for an error. -/
def splitHostPort (hostport : Str) : Option (Str × Str) :=
  match lastIndexByte (byte ':') hostport with
  | none => none
  | some i =>
    let found : Option (Str × ℕ × ℕ) :=
      if hostport.head? = some (byte '[') then
        match indexByte (byte ']') hostport with
        | none => none
        | some close =>
          if close + 1 = hostport.length then none
          else if close + 1 = i then some ((hostport.take close).drop 1, 1, close + 1)
          else none
      else if byte ':' ∈ hostport.take i then none
      else some (hostport.take i, 0, 0)
    match found with
    | none => none
    | some (host, j, k) =>
      if byte '[' ∈ hostport.drop j ∨ byte ']' ∈ hostport.drop k then none
      else some (host, hostport.drop (i + 1))

theorem joinHostPort_ne_nil (host port : Str) : joinHostPort host port ≠ [] := by
  unfold joinHostPort
  split <;> simp

variable {b : UInt8} {s : Str}

theorem lastIndexByte_append {tail : Str} (head : Str) (absent : b ∉ tail) :
    lastIndexByte b (head ++ b :: tail) = some head.length :=
  Str.lastIndex_byte head absent

theorem take_of_indexByte {i : ℕ} (found : indexByte b s = some i) :
    s.take (i + 1) = s.take i ++ [b] := by
  rcases List.findIdx?_eq_some_iff_getElem.mp found with ⟨inside, here, _⟩
  rw [List.take_succ_eq_append_getElem inside, beq_iff_eq.mp here]

theorem not_mem_take_of_indexByte {i : ℕ} (found : indexByte b s = some i) :
    b ∉ s.take i := by
  intro earlier
  rcases List.findIdx?_eq_some_iff_getElem.mp found with ⟨_, _, before⟩
  rcases List.mem_iff_getElem.mp earlier with ⟨j, inTake, eq⟩
  rw [List.length_take] at inTake
  have absent := before j (by omega)
  rw [List.getElem_take] at eq
  simp [eq] at absent

theorem indexByte_eq_none_iff : indexByte b s = none ↔ b ∉ s := by
  rw [indexByte, List.findIdx?_eq_none_iff]
  constructor
  · intro absent mem
    simpa using absent b mem
  · intro absent c mem
    rw [beq_eq_false_iff_ne]
    rintro rfl
    exact absent mem

theorem indexByte_append {head : Str} (absent : b ∉ head) (tail : Str) :
    indexByte b (head ++ b :: tail) = some head.length := by
  have noneBefore : List.findIdx? (· == b) head = none := indexByte_eq_none_iff.mpr absent
  simp [indexByte, List.findIdx?_append, noneBefore, List.findIdx?_cons]

theorem eq_of_splitHostPort {host port : Str} (split : splitHostPort s = some (host, port)) :
    s = host ++ byte ':' :: port ∨ s = byte '[' :: host ++ byte ']' :: byte ':' :: port := by
  unfold splitHostPort at split
  cases colon : lastIndexByte (byte ':') s with
  | none => simp [colon] at split
  | some i =>
    have shape : s = s.take i ++ byte ':' :: s.drop (i + 1) := by
      simpa using Str.eq_of_lastIndex colon
    simp only [colon] at split
    by_cases bracket : s.head? = some (byte '[')
    · obtain ⟨rest, rfl⟩ := List.head?_eq_some_iff.mp bracket
      cases bracketEnd : indexByte (byte ']') (byte '[' :: rest) with
      | none => simp [bracketEnd] at split
      | some close =>
        simp only [bracket, if_true, bracketEnd] at split
        split_ifs at split with atEnd before
        simp only [Option.ite_none_left_eq_some] at split
        rcases Prod.mk.inj (Option.some.inj split.2) with ⟨rfl, rfl⟩
        cases close with
        | zero =>
          rcases List.findIdx?_eq_some_iff_getElem.mp bracketEnd with ⟨_, here, _⟩
          rw [List.getElem_cons_zero] at here
          exact absurd here (by decide)
        | succ close =>
          right
          subst before
          rw [take_of_indexByte bracketEnd] at shape
          simpa using shape
    · simp only [bracket, if_false] at split
      split_ifs at split with inside
      simp only [Option.ite_none_left_eq_some] at split
      rcases Prod.mk.inj (Option.some.inj split.2) with ⟨rfl, rfl⟩
      exact Or.inl shape

theorem splitHostPort_joinHostPort {host port : Str} (noOpen : byte '[' ∉ host)
    (noClose : byte ']' ∉ host) (portColon : byte ':' ∉ port) (portOpen : byte '[' ∉ port)
    (portClose : byte ']' ∉ port) :
    splitHostPort (joinHostPort host port) = some (host, port) := by
  have openColon : byte '[' ≠ byte ':' := by decide
  have openClose : byte '[' ≠ byte ']' := by decide
  have closeColon : byte ']' ≠ byte ':' := by decide
  unfold joinHostPort
  split
  · have shape : byte '[' :: host ++ byte ']' :: byte ':' :: port =
        (byte '[' :: host ++ [byte ']']) ++ byte ':' :: port := by simp
    have colon : lastIndexByte (byte ':') (byte '[' :: host ++ byte ']' :: byte ':' :: port) =
        some (host.length + 2) := by
      rw [shape, lastIndexByte_append _ portColon]
      simp
    have close : indexByte (byte ']') (byte '[' :: host ++ byte ']' :: byte ':' :: port) =
        some (host.length + 1) := by
      rw [indexByte_append (by simp [openClose.symm, noClose])]
      simp
    have hostText : ((byte '[' :: host ++ byte ']' :: byte ':' :: port).take
        (host.length + 1)).drop 1 = host := by simp
    have afterOpen : (byte '[' :: host ++ byte ']' :: byte ':' :: port).drop 1 =
        host ++ byte ']' :: byte ':' :: port := by simp
    have afterClose : (byte '[' :: host ++ byte ']' :: byte ':' :: port).drop
        (host.length + 1 + 1) = byte ':' :: port := by
      rw [shape]
      exact List.drop_left' (by simp)
    have afterColon : (byte '[' :: host ++ byte ']' :: byte ':' :: port).drop
        (host.length + 2 + 1) = port := by
      have whole : byte '[' :: host ++ byte ']' :: byte ':' :: port =
          (byte '[' :: host ++ [byte ']', byte ':']) ++ port := by simp
      rw [whole]
      exact List.drop_left' (by simp)
    have inside : host.length + 1 + 1 ≠
        (byte '[' :: host ++ byte ']' :: byte ':' :: port).length := by
      simp
    have first : (byte '[' :: host ++ byte ']' :: byte ':' :: port).head? = some (byte '[') := rfl
    simp only [splitHostPort, colon, close, hostText, afterOpen, afterClose, afterColon, inside,
      first, if_true, if_false]
    rw [if_neg]
    rintro (mem | mem)
    · simp [noOpen, portOpen, openColon, openClose] at mem
    · simp [portClose, closeColon] at mem
  · rename_i noColon
    have colon := lastIndexByte_append host portColon
    have first : (host ++ byte ':' :: port).head? ≠ some (byte '[') := by
      intro bracket
      have mem := List.mem_of_mem_head? bracket
      simp [noOpen, portOpen, openColon] at mem
    have afterColon : (host ++ byte ':' :: port).drop (host.length + 1) = port := by
      have whole : host ++ byte ':' :: port = (host ++ [byte ':']) ++ port := by simp
      rw [whole]
      exact List.drop_left' (by simp)
    simp only [splitHostPort, colon, first, if_false, List.take_left, noColon, List.drop_zero,
      afterColon]
    simp [noOpen, portOpen, openColon, noClose, portClose, closeColon]

end Net

end Kiac
