import Kiac.Text.HostPort

/-!
# Buffered readers

`bufio.Reader` over a stream that arrives in parts. A read of the stream returns at least one
byte of the next part and no more than there is room for; the rest of the part is left for the
next read. `ReadSlice` fills the buffer until it holds the delimiter, or is full.
-/

namespace Kiac

/-- What one read of a stream can return at most. -/
abbrev Segment := {bytes : Str // bytes ≠ []}

namespace Segment

/-- All bytes of a stream. -/
def join (segments : List Segment) : Str := (segments.map Subtype.val).flatten

/-- The stream after a read of some bytes of its first part. -/
def leave (segment : Segment) (room : ℕ) (rest : List Segment) : List Segment :=
  if left : segment.1.drop room = [] then rest else ⟨segment.1.drop room, left⟩ :: rest

@[simp]
theorem join_nil : join [] = [] := rfl

@[simp]
theorem join_cons (segment : Segment) (rest : List Segment) :
    join (segment :: rest) = segment.1 ++ join rest := by
  simp [join]

@[simp]
theorem join_leave (segment : Segment) (room : ℕ) (rest : List Segment) :
    join (segment.leave room rest) = segment.1.drop room ++ join rest := by
  unfold leave
  split
  · rename_i left
    rw [left, List.nil_append]
  · rw [join_cons]

end Segment

namespace Bufio

inductive ReadError where
  | eof
  | bufferFull
deriving DecidableEq, Repr

/-- A line with its delimiter, what is still in the buffer, and what is still to be read. -/
structure Line where
  line : Str
  buffered : Str
  segments : List Segment

/-- `ReadSlice`, with a buffer of some size. -/
def readSlice (size : ℕ) (delim : UInt8) (buffered : Str) (segments : List Segment) :
    Except ReadError Line :=
  match Net.indexByte delim buffered with
  | some i => .ok ⟨buffered.take (i + 1), buffered.drop (i + 1), segments⟩
  | none =>
    if size ≤ buffered.length then .error .bufferFull
    else
      match segments with
      | [] => .error .eof
      | segment :: rest =>
        let room := size - buffered.length
        readSlice size delim (buffered ++ segment.1.take room) (segment.leave room rest)
termination_by size - buffered.length
decreasing_by
  have positive := List.length_pos_iff.mpr segment.2
  rw [List.length_append, List.length_take]
  omega

variable {size : ℕ} {delim : UInt8} {buffered : Str} {segments : List Segment}

/-- A first line that fits the buffer is read as it was sent, however the stream is split, and
what comes after it is still in the buffer or to be read. -/
theorem readSlice_line {words rest : Str} (noDelim : delim ∉ words) (short : words.length < size)
    (fits : buffered.length ≤ size)
    (stream : buffered ++ Segment.join segments = words ++ delim :: rest) :
    ∃ left later, readSlice size delim buffered segments = .ok ⟨words ++ [delim], left, later⟩ ∧
      left ++ Segment.join later = rest := by
  fun_induction readSlice size delim buffered segments with
  | case1 buffered segments i found =>
    have shape : buffered = buffered.take i ++ delim :: buffered.drop (i + 1) := by
      rw [← List.singleton_append, ← List.append_assoc, ← Net.take_of_indexByte found,
        List.take_append_drop]
    rw [shape, List.append_assoc, List.cons_append] at stream
    have sameLength : (buffered.take i).length = words.length := by
      have position := Net.indexByte_append (Net.not_mem_take_of_indexByte found)
        (buffered.drop (i + 1) ++ Segment.join segments)
      rw [stream, Net.indexByte_append noDelim] at position
      exact (Option.some.inj position).symm
    rcases List.append_inj stream sameLength with ⟨same, after⟩
    refine ⟨_, _, ?_, (List.cons.inj after).2⟩
    rw [Net.take_of_indexByte found, same]
  | case2 buffered segments absent full =>
    rw [Net.indexByte_eq_none_iff] at absent
    rcases List.append_eq_append_iff.mp stream with ⟨more, rfl, _⟩ | ⟨more, rfl, rest'⟩
    · rw [List.length_append] at short
      omega
    · cases more with
      | nil =>
        rw [List.append_nil] at full
        omega
      | cons b more =>
        obtain rfl := (List.cons.inj rest').1
        exact absurd (List.mem_append_right words List.mem_cons_self) absent
  | case3 buffered absent roomy =>
    rw [Net.indexByte_eq_none_iff] at absent
    rw [Segment.join_nil, List.append_nil] at stream
    rw [stream] at absent
    exact absurd (List.mem_append_right words List.mem_cons_self) absent
  | case4 buffered absent roomy segment more room ih =>
    apply ih
    · rw [List.length_append, List.length_take]
      omega
    · rw [← stream, Segment.join_leave, Segment.join_cons, List.append_assoc,
        ← List.append_assoc (segment.1.take room), List.take_append_drop]

theorem readSlice_ok {line : Line} (fits : buffered.length ≤ size)
    (read : readSlice size delim buffered segments = .ok line) :
    ∃ words, line.line = words ++ [delim] ∧ delim ∉ words ∧ words.length < size ∧
      line.line ++ line.buffered ++ Segment.join line.segments = buffered ++ Segment.join segments := by
  fun_induction readSlice size delim buffered segments with
  | case1 buffered segments i found =>
    obtain rfl := Except.ok.inj read
    have inside := (List.findIdx?_eq_some_iff_getElem.mp found).1
    refine ⟨buffered.take i, Net.take_of_indexByte found, Net.not_mem_take_of_indexByte found, ?_, ?_⟩
    · rw [List.length_take]
      omega
    · rw [List.take_append_drop]
  | case2 buffered segments absent full => cases read
  | case3 buffered absent roomy => cases read
  | case4 buffered absent roomy segment more room ih =>
    have fits' : (buffered ++ segment.1.take room).length ≤ size := by
      rw [List.length_append, List.length_take]
      omega
    rcases ih fits' read with ⟨words, eq, noDelim, short, stream⟩
    refine ⟨words, eq, noDelim, short, ?_⟩
    rw [stream, Segment.join_leave, Segment.join_cons, List.append_assoc,
      ← List.append_assoc (segment.1.take room), List.take_append_drop]

end Bufio

end Kiac
