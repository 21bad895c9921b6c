import Kiac.Text.Hex
import Mathlib.Data.List.TakeWhile

/-!
# IP addresses

`net.ParseIP` over byte strings. An address is a list of eight 16-bit groups, with the IPv4-mapped
form for an IPv4 address. An accepted text is short and has only hexadecimal digits, dots and colons,
which is what makes it safe as a word of a larger text.
-/

namespace Kiac

namespace Net

/-- The sixteen bytes of a `net.IP` as eight 16-bit groups. -/
abbrev Groups := List ℕ

/-- The first six groups of an IPv4-mapped address. -/
def mapped : Groups := [0, 0, 0, 0, 0, 65535]

/-- `To4() != nil`. -/
def isV4 (groups : Groups) : Bool := groups.take 6 == mapped

/-- The four dot-separated fields of an IPv4 text; `value` is the field being read. -/
def ipv4Fields : Str → (value digits : ℕ) → (fields : List ℕ) → Option (List ℕ)
  | [], value, _, fields => if fields.length < 3 then none else some (fields ++ [value])
  | b :: rest, value, digits, fields =>
    if Str.isDigit b then
      if digits = 1 ∧ value = 0 then none
      else if 255 < 10 * value + (b.toNat - 48) then none
      else ipv4Fields rest (10 * value + (b.toNat - 48)) (digits + 1) fields
    else if b = byte '.' then
      if digits = 0 ∨ rest = [] then none
      else if fields.length = 3 then none
      else ipv4Fields rest 0 0 (fields ++ [value])
    else none

/-- The two 16-bit groups of an IPv4 text. -/
def parseIPv4 (s : Str) : Option Groups :=
  match ipv4Fields s 0 0 [] with
  | some [a, b, c, d] => some [256 * a + b, 256 * c + d]
  | _ => none

/-- A field of one to four hexadecimal digits and the text after it. -/
def hexField (s : Str) : Option (ℕ × Str) :=
  let digits := s.takeWhile Str.isHex
  if digits = [] ∨ 4 < digits.length then none
  else some (Str.hexValue digits, s.drop digits.length)

/-- What stands between two groups: whether it is a `::`, and the text after it. -/
def groupSeparator : Str → Option (Bool × Str)
  | b :: c :: tail =>
    if b ≠ byte ':' then none
    else if c = byte ':' then some (true, tail)
    else some (false, c :: tail)
  | _ => none

/--
The groups of an IPv6 text. `room` is the number of groups that still fit and
`ellipsis` the place of the `::`, if it has been read. The result has the text left
over.
-/
def ipv6Groups : (room : ℕ) → Str → Groups → (ellipsis : Option ℕ) →
    Option (Str × Groups × Option ℕ)
  | 0, s, groups, ellipsis => some (s, groups, ellipsis)
  | room + 1, s, groups, ellipsis =>
    match hexField s with
    | none => none
    | some (value, rest) =>
      if rest.head? = some (byte '.') then
        -- An IPv4 text may take the place of the last two groups.
        if ellipsis = none ∧ groups.length ≠ 6 then none
        else if 8 < groups.length + 2 then none
        else (parseIPv4 s).map fun last => ([], groups ++ last, ellipsis)
      else if rest = [] then some ([], groups ++ [value], ellipsis)
      else
        match groupSeparator rest with
        | none => none
        | some (false, tail) => ipv6Groups room tail (groups ++ [value]) ellipsis
        | some (true, tail) =>
          if ellipsis.isSome then none
          else if tail = [] then
            some ([], groups ++ [value], some (groups.length + 1))
          else ipv6Groups room tail (groups ++ [value]) (some (groups.length + 1))

/-- The `::` stands for the groups that are missing, at least one of them. -/
def expandEllipsis (groups : Groups) : Option ℕ → Option Groups
  | none => if groups.length < 8 then none else some groups
  | some place =>
    if groups.length < 8 then
      some (groups.take place ++ List.replicate (8 - groups.length) 0 ++ groups.drop place)
    else none

/-- The groups of an IPv6 text, before the `::` is expanded. -/
def ipv6Parts (s : Str) : Option (Str × Groups × Option ℕ) :=
  if Str.hasPrefix s (str "::") then
    if s.drop 2 = [] then some ([], [], some 0) else ipv6Groups 8 (s.drop 2) [] (some 0)
  else ipv6Groups 8 s [] none

/-- An IPv6 text without a zone; `net.ParseIP` refuses zones. -/
def parseIPv6 (s : Str) : Option Groups :=
  if byte '%' ∈ s then none
  else
    match ipv6Parts s with
    | some ([], groups, ellipsis) => expandEllipsis groups ellipsis
    | _ => none

/-- `net.ParseIP`: the first dot or colon decides which form is read. -/
def parseIP (s : Str) : Option Groups :=
  match s.find? fun b => b == byte '.' || b == byte ':' || b == byte '%' with
  | some b =>
    if b = byte '.' then (parseIPv4 s).map (mapped ++ ·)
    else if b = byte ':' then parseIPv6 s
    else none
  | none => none

/-- `net.ParseCIDR`: the address, the length of the mask and the length of an address. -/
def parseCIDR (s : Str) : Option (Groups × ℕ × ℕ) :=
  match s.findIdx? (· == byte '/') with
  | none => none
  | some i =>
    let bits := if (parseIPv4 (s.take i)).isSome then 32 else 128
    match parseIP (s.take i), Str.parseDigits (s.drop (i + 1)) with
    | some ip, some ones => if ones ≤ bits then some (ip, ones, bits) else none
    | _, _ => none

/-- A byte of an address text. -/
def isAddressByte (b : UInt8) : Bool := Str.isHex b || b == byte '.' || b == byte ':'

variable {s : Str} {value : ℕ} {groups : Groups}

/-- What an accepted IPv4 text is: digits and dots, at most three digits a field, four
fields of one byte each. -/
theorem ipv4Fields_spec {digits : ℕ} {fields out : List ℕ}
    (read : ipv4Fields s value digits fields = some out)
    (started : (digits = 0 ∧ value = 0) ∨ digits = 1 ∨ (digits = 2 ∧ 10 ≤ value) ∨
      (digits = 3 ∧ 100 ≤ value))
    (small : value ≤ 255) (few : fields.length ≤ 3) (bounded : ∀ f ∈ fields, f ≤ 255) :
    (∀ b ∈ s, Str.isDigit b ∨ b = byte '.') ∧
      s.length + digits ≤ 3 + 4 * (3 - fields.length) ∧
      out.length = 4 ∧ ∀ f ∈ out, f ≤ 255 := by
  induction s generalizing value digits fields with
  | nil =>
    simp only [ipv4Fields] at read
    split at read
    · simp at read
    · rename_i enough
      simp only [Option.some.injEq] at read
      subst read
      refine ⟨by simp, by simp; omega, by simp; omega, ?_⟩
      intro f mem
      rcases List.mem_append.mp mem with old | last
      · exact bounded f old
      · rw [List.mem_singleton.mp last]
        exact small
  | cons b rest ih =>
    simp only [ipv4Fields] at read
    split at read
    · rename_i isDecimal
      split at read
      · simp at read
      · rename_i noLeadingZero
        split at read
        · simp at read
        · rename_i fits
          have spec := ih read (by omega) (by omega) few bounded
          refine ⟨?_, by simp only [List.length_cons]; omega, spec.2.2⟩
          intro c mem
          rcases List.mem_cons.mp mem with rfl | later
          · exact Or.inl isDecimal
          · exact spec.1 c later
    · split at read
      · rename_i isDot
        split at read
        · simp at read
        · rename_i nonempty
          split at read
          · simp at read
          · rename_i room
            have spec := ih read (Or.inl ⟨rfl, rfl⟩) (by omega)
              (by simp only [List.length_append, List.length_singleton]; omega)
              (by
                intro f mem
                rcases List.mem_append.mp mem with old | last
                · exact bounded f old
                · rw [List.mem_singleton.mp last]
                  exact small)
            simp only [List.length_append, List.length_singleton] at spec
            refine ⟨?_, by simp only [List.length_cons]; omega, spec.2.2⟩
            intro c mem
            rcases List.mem_cons.mp mem with rfl | later
            · exact Or.inr isDot
            · exact spec.1 c later
      · simp at read

theorem isAddressByte_of_isDigit {b : UInt8} (digit : Str.isDigit b) :
    isAddressByte b := by
  simp [isAddressByte, Str.isHex_of_isDigit digit]

theorem isDigit_or_dot_of_parseIPv4
    (read : parseIPv4 s = some groups) : ∀ b ∈ s, Str.isDigit b ∨ b = byte '.' := by
  unfold parseIPv4 at read
  split at read
  · rename_i fields
    exact (ipv4Fields_spec fields (Or.inl ⟨rfl, rfl⟩) (by omega) (by simp) (by simp)).1
  · cases read

theorem parseIPv4_spec (read : parseIPv4 s = some groups) :
    (∀ b ∈ s, isAddressByte b) ∧ s.length ≤ 15 ∧ groups.length = 2 ∧
      ∀ g ∈ groups, g < 65536 := by
  unfold parseIPv4 at read
  split at read
  · rename_i a b c d fields
    simp only [Option.some.injEq] at read
    subst read
    have spec := ipv4Fields_spec fields (Or.inl ⟨rfl, rfl⟩) (by omega) (by simp) (by simp)
    refine ⟨?_, by simpa using spec.2.1, rfl, ?_⟩
    · intro byte' mem
      rcases spec.1 byte' mem with digit | rfl
      · exact isAddressByte_of_isDigit digit
      · decide
    · have bounds := spec.2.2.2
      simp only [List.mem_cons, List.not_mem_nil, or_false, forall_eq_or_imp, forall_eq] at bounds ⊢
      omega
  · simp at read

theorem hexField_spec {rest : Str} (read : hexField s = some (value, rest)) :
    ∃ digits : Str, s = digits ++ rest ∧ (∀ b ∈ digits, isAddressByte b) ∧
      digits.length ≤ 4 ∧ value < 65536 := by
  unfold hexField at read
  simp only at read
  split at read
  · simp at read
  · rename_i accepted
    simp only [Option.some.injEq, Prod.mk.injEq] at read
    have short : (s.takeWhile Str.isHex).length ≤ 4 := by omega
    have whole : s.takeWhile Str.isHex ++ s.dropWhile Str.isHex = s :=
      List.takeWhile_append_dropWhile
    have after : (s.takeWhile Str.isHex ++ s.dropWhile Str.isHex).drop
        (s.takeWhile Str.isHex).length = s.dropWhile Str.isHex := List.drop_left
    rw [whole] at after
    refine ⟨s.takeWhile Str.isHex, ?_, ?_, short, ?_⟩
    · rw [← read.2, after, whole]
    · intro b mem
      simp [isAddressByte, List.mem_takeWhile_imp mem]
    · rw [← read.1]
      exact Str.hexValue_lt short

theorem groupSeparator_spec {rest tail : Str} {double : Bool}
    (read : groupSeparator rest = some (double, tail)) :
    ∃ colons : Str, rest = colons ++ tail ∧ (∀ b ∈ colons, isAddressByte b) ∧
      colons.length ≤ 2 := by
  unfold groupSeparator at read
  split at read
  · rename_i b c tail
    split at read
    · simp at read
    · rename_i isColon
      rw [not_not] at isColon
      subst isColon
      split at read
      · rename_i isColon
        simp only [Option.some.injEq, Prod.mk.injEq] at read
        exact ⟨[byte ':', byte ':'], by simp [isColon, read.2], by decide +kernel, by decide +kernel⟩
      · simp only [Option.some.injEq, Prod.mk.injEq] at read
        exact ⟨[byte ':'], by simp [read.2], by decide +kernel, by decide +kernel⟩
  · simp at read

/-- The ways in which groups are read. -/
inductive ReadsGroups : ℕ → Str → Groups → Option ℕ → Str × Groups × Option ℕ → Prop where
  | full {s groups ellipsis} : ReadsGroups 0 s groups ellipsis (s, groups, ellipsis)
  | embedded {room s groups ellipsis last} (fits : groups.length + 2 ≤ 8)
      (read : parseIPv4 s = some last) :
      ReadsGroups (room + 1) s groups ellipsis ([], groups ++ last, ellipsis)
  | last {room s groups ellipsis value} (read : hexField s = some (value, [])) :
      ReadsGroups (room + 1) s groups ellipsis ([], groups ++ [value], ellipsis)
  | next {room s rest tail groups ellipsis value result}
      (read : hexField s = some (value, rest)) (separated : groupSeparator rest = some (false, tail))
      (others : ReadsGroups room tail (groups ++ [value]) ellipsis result) :
      ReadsGroups (room + 1) s groups ellipsis result
  | endEllipsis {room s rest groups value} (read : hexField s = some (value, rest))
      (separated : groupSeparator rest = some (true, [])) :
      ReadsGroups (room + 1) s groups none ([], groups ++ [value], some (groups.length + 1))
  | nextEllipsis {room s rest tail groups value result} (read : hexField s = some (value, rest))
      (separated : groupSeparator rest = some (true, tail))
      (others : ReadsGroups room tail (groups ++ [value]) (some (groups.length + 1)) result) :
      ReadsGroups (room + 1) s groups none result

theorem readsGroups_of_ipv6Groups {room : ℕ} {s : Str} {groups : Groups} {ellipsis : Option ℕ}
    {result : Str × Groups × Option ℕ}
    (read : ipv6Groups room s groups ellipsis = some result) :
    ReadsGroups room s groups ellipsis result := by
  induction room generalizing s groups ellipsis with
  | zero =>
    simp only [ipv6Groups, Option.some.injEq] at read
    subst read
    exact ReadsGroups.full
  | succ room ih =>
    simp only [ipv6Groups] at read
    split at read
    · simp at read
    · rename_i value rest field
      split at read
      · split at read
        · simp at read
        · split at read
          · simp at read
          · rename_i fits
            rcases Option.map_eq_some_iff.mp read with ⟨last, embedded, rfl⟩
            exact ReadsGroups.embedded (by omega) embedded
      · split at read
        · rename_i atEnd
          simp only [Option.some.injEq] at read
          subst atEnd read
          exact ReadsGroups.last field
        · split at read
          · simp at read
          · rename_i tail separated
            exact ReadsGroups.next field separated (ih read)
          · rename_i tail separated
            split at read
            · simp at read
            · rename_i noEllipsis
              rw [Option.not_isSome_iff_eq_none] at noEllipsis
              subst noEllipsis
              split at read
              · rename_i atEnd
                simp only [Option.some.injEq] at read
                subst atEnd read
                exact ReadsGroups.endEllipsis field separated
              · exact ReadsGroups.nextEllipsis field separated (ih read)

/-- A text of address bytes of limited length, up to what is left over. -/
def Consumes (s left : Str) (limit : ℕ) : Prop :=
  ∃ used : Str, s = used ++ left ∧ (∀ b ∈ used, isAddressByte b = true) ∧ used.length ≤ limit

theorem Consumes.append {start left : Str} {limit more : ℕ}
    (bytes : ∀ b ∈ start, isAddressByte b) (short : start.length ≤ more)
    (consumes : Consumes s left limit) : Consumes (start ++ s) left (limit + more) := by
  rcases consumes with ⟨used, rfl, usedBytes, usedShort⟩
  refine ⟨start ++ used, by simp, ?_, by simp only [List.length_append]; omega⟩
  intro b mem
  rcases List.mem_append.mp mem with inStart | inUsed
  · exact bytes b inStart
  · exact usedBytes b inUsed

theorem consumes_group {rest tail left : Str} {limit : ℕ} {double : Bool}
    (read : hexField s = some (value, rest)) (separated : groupSeparator rest = some (double, tail))
    (consumes : Consumes tail left limit) : Consumes s left (limit + 6) := by
  rcases hexField_spec read with ⟨digits, rfl, digitBytes, digitsShort, _⟩
  rcases groupSeparator_spec separated with ⟨colons, rfl, colonBytes, colonsShort⟩
  have both :=
      Consumes.append digitBytes digitsShort (Consumes.append colonBytes colonsShort consumes)
  exact both

theorem ReadsGroups.consumes {room : ℕ} {s : Str} {groups : Groups} {ellipsis : Option ℕ}
    {result : Str × Groups × Option ℕ} (reads : ReadsGroups room s groups ellipsis result) :
    Consumes s result.1 (6 * room + 15) := by
  have nothing : ∀ limit, Consumes [] [] limit := fun _ => ⟨[], by simp⟩
  induction reads with
  | full => exact ⟨[], by simp⟩
  | embedded fits read =>
    rcases parseIPv4_spec read with ⟨bytes, short, _⟩
    exact ⟨_, (List.append_nil _).symm, bytes, by omega⟩
  | last read =>
    rcases hexField_spec read with ⟨digits, rfl, bytes, short, _⟩
    exact ⟨digits, rfl, bytes, by omega⟩
  | next read separated others ih => exact consumes_group read separated ih
  | endEllipsis read separated => exact consumes_group read separated (nothing _)
  | nextEllipsis read separated others ih => exact consumes_group read separated ih

theorem ReadsGroups.wellFormed {room : ℕ} {s : Str} {groups : Groups} {ellipsis : Option ℕ}
    {result : Str × Groups × Option ℕ} (reads : ReadsGroups room s groups ellipsis result)
    (count : groups.length + room = 8) (bounded : ∀ g ∈ groups, g < 65536)
    (inside : ∀ i ∈ ellipsis, i ≤ groups.length) :
    result.2.1.length ≤ 8 ∧ (∀ g ∈ result.2.1, g < 65536) ∧
      ∀ i ∈ result.2.2, i ≤ result.2.1.length := by
  have extended : ∀ {groups : Groups} {s rest : Str} {value : ℕ},
      hexField s = some (value, rest) → (∀ g ∈ groups, g < 65536) →
        ∀ g ∈ groups ++ [value], g < 65536 := by
    intro groups s rest value read bounded g mem
    rcases hexField_spec read with ⟨_, _, _, _, small⟩
    rcases List.mem_append.mp mem with old | last
    · exact bounded g old
    · rw [List.mem_singleton.mp last]
      exact small
  induction reads with
  | full => exact ⟨by simp only; omega, bounded, inside⟩
  | embedded fits read =>
    rcases parseIPv4_spec read with ⟨_, _, two, lastBounded⟩
    refine ⟨by simp only [List.length_append]; omega, ?_, ?_⟩
    · intro g mem
      rcases List.mem_append.mp mem with old | new
      · exact bounded g old
      · exact lastBounded g new
    · intro i at'
      have le := inside i at'
      simp only [List.length_append]
      omega
  | last read =>
    refine ⟨by simp; omega, extended read bounded, ?_⟩
    intro i at'
    have le := inside i at'
    simp only [List.length_append]
    omega
  | next read separated others ih =>
    apply ih (by simp; omega) (extended read bounded)
    intro i at'
    have le := inside i at'
    simp only [List.length_append]
    omega
  | endEllipsis read separated =>
    exact ⟨by simp; omega, extended read bounded, by simp⟩
  | nextEllipsis read separated others ih =>
    exact ih (by simp; omega) (extended read bounded) (by simp)

theorem expandEllipsis_spec {out : Groups} {ellipsis : Option ℕ}
    (expanded : expandEllipsis groups ellipsis = some out) (count : groups.length ≤ 8)
    (bounded : ∀ g ∈ groups, g < 65536) (inside : ∀ i ∈ ellipsis, i ≤ groups.length) :
    out.length = 8 ∧ ∀ g ∈ out, g < 65536 := by
  unfold expandEllipsis at expanded
  split at expanded
  · split at expanded
    · simp at expanded
    · simp only [Option.some.injEq] at expanded
      subst expanded
      exact ⟨by omega, bounded⟩
  · rename_i place
    split at expanded
    · simp only [Option.some.injEq] at expanded
      subst expanded
      constructor
      · simp only [List.length_append, List.length_take, List.length_replicate, List.length_drop]
        omega
      · intro g mem
        simp only [List.mem_append, List.mem_replicate] at mem
        rcases mem with (before | ⟨_, rfl⟩) | after
        · exact bounded g (List.mem_of_mem_take before)
        · omega
        · exact bounded g (List.mem_of_mem_drop after)
    · simp at expanded

theorem ipv6Parts_spec {s left : Str} {groups : Groups} {ellipsis : Option ℕ}
    (read : ipv6Parts s = some (left, groups, ellipsis)) :
    Consumes s left 65 ∧ groups.length ≤ 8 ∧ (∀ g ∈ groups, g < 65536) ∧
      ∀ i ∈ ellipsis, i ≤ groups.length := by
  unfold ipv6Parts at read
  split at read
  · rename_i leading
    rcases Str.hasPrefix_iff.mp leading with ⟨rest, rfl⟩
    have colons : ∀ b ∈ str "::", isAddressByte b := by decide +kernel
    split at read
    · rename_i empty
      rcases read with ⟨rfl, rfl, rfl⟩
      subst empty
      exact ⟨⟨str "::", rfl, colons, by decide⟩, by simp⟩
    · have reads := readsGroups_of_ipv6Groups read
      have consumed : Consumes (str "::" ++ rest) left (63 + 2) :=
        Consumes.append colons (by decide) reads.consumes
      exact ⟨consumed, reads.wellFormed (by simp) (by simp) (by simp)⟩
  · have reads := readsGroups_of_ipv6Groups read
    rcases reads.consumes with ⟨used, eq, bytes, short⟩
    exact ⟨⟨used, eq, bytes, by omega⟩, reads.wellFormed (by simp) (by simp) (by simp)⟩

theorem parseIPv6_spec (read : parseIPv6 s = some groups) :
    (∀ b ∈ s, isAddressByte b) ∧ s.length ≤ 65 ∧ groups.length = 8 ∧
      ∀ g ∈ groups, g < 65536 := by
  unfold parseIPv6 at read
  split at read
  · simp at read
  · split at read
    · rename_i parsed ellipsis parts
      rcases ipv6Parts_spec parts with ⟨⟨used, rfl, bytes, short⟩, count, bounded, inside⟩
      rw [List.append_nil]
      exact ⟨bytes, short, expandEllipsis_spec read count bounded inside⟩
    · simp at read

theorem parseIP_spec (read : parseIP s = some groups) :
    (∀ b ∈ s, isAddressByte b) ∧ s.length ≤ 65 ∧ groups.length = 8 ∧
      ∀ g ∈ groups, g < 65536 := by
  unfold parseIP at read
  split at read
  · split at read
    · rcases Option.map_eq_some_iff.mp read with ⟨last, four, rfl⟩
      rcases parseIPv4_spec four with ⟨bytes, short, two, bounded⟩
      refine ⟨bytes, by omega, by simp [mapped, two], ?_⟩
      intro g mem
      have mappedBounded : ∀ g ∈ mapped, g < 65536 := by decide
      rcases List.mem_append.mp mem with old | new
      · exact mappedBounded g old
      · exact bounded g new
    · split at read
      · exact parseIPv6_spec read
      · simp at read
  · simp at read

end Net

end Kiac
