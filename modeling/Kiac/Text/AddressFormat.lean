import Kiac.Text.Address

/-!
# Printed IP addresses

`IP.String` prints an IPv4 address in dotted form and any other address as
hexadecimal groups, with the first longest run of zero groups written as `::`. The
printed form is read back as the same address.
-/

namespace Kiac

namespace Net

/-- An address that the kernel reports: eight groups of sixteen bits. -/
@[ext]
structure IP where
  groups : Groups
  length_eq : groups.length = 8
  bounded : ∀ group ∈ groups, group < 65536

/-- The number of zero groups from a position on. -/
def zerosFrom (groups : Groups) (i : ℕ) : ℕ := ((groups.drop i).takeWhile (· == 0)).length

/-- The better one of the best run so far and the run at a position. -/
def longerRun (groups : Groups) (best : Option (ℕ × ℕ)) (i : ℕ) : Option (ℕ × ℕ) :=
  match best with
  | none => if 2 ≤ zerosFrom groups i then some (i, zerosFrom groups i) else none
  | some (_, longest) => if longest < zerosFrom groups i then some (i, zerosFrom groups i) else best

/-- The start and length of the first longest run of at least two zero groups. -/
def zeroRun (groups : Groups) : Option (ℕ × ℕ) := (List.range 8).foldl (longerRun groups) none

/-- Groups in hexadecimal, separated by colons. -/
def formatGroups (groups : Groups) : Str :=
  [byte ':'].intercalate (groups.map Str.formatHex)

/-- The dotted form of two groups. -/
def formatIPv4 (high low : ℕ) : Str :=
  [byte '.'].intercalate ([high / 256, high % 256, low / 256, low % 256].map Str.formatNat)

/-- `IP.String`. -/
def IP.format (ip : IP) : Str :=
  if isV4 ip.groups then formatIPv4 (ip.groups.getD 6 0) (ip.groups.getD 7 0)
  else
    match zeroRun ip.groups with
    | none => formatGroups ip.groups
    | some (start, length) =>
      formatGroups (ip.groups.take start) ++ str "::" ++
        formatGroups (ip.groups.drop (start + length))

theorem formatGroups_singleton (g : ℕ) : formatGroups [g] = Str.formatHex g := by
  simp [formatGroups, List.intercalate]

theorem formatGroups_cons_cons (g h : ℕ) (groups : Groups) :
    formatGroups (g :: h :: groups) =
      Str.formatHex g ++ byte ':' :: formatGroups (h :: groups) := by
  simp [formatGroups, List.intercalate]

theorem formatGroups_cons (g : ℕ) (groups : Groups) :
    ∃ b rest, formatGroups (g :: groups) = b :: rest ∧ Str.isHex b := by
  cases form : Str.formatHex g with
  | nil => exact absurd form (Str.formatHex_ne_nil g)
  | cons b rest =>
    have hex : Str.isHex b := Str.isHex_of_mem_formatHex (n := g) (by simp [form])
    cases groups with
    | nil => exact ⟨b, rest, by rw [formatGroups_singleton, form], hex⟩
    | cons h groups =>
      exact ⟨b, rest ++ byte ':' :: formatGroups (h :: groups),
        by rw [formatGroups_cons_cons, form, List.cons_append], hex⟩

variable {groups : Groups} {b : UInt8} {room value : ℕ} {s : Str} {before after : Groups} {n : ℕ}

theorem mem_formatGroups (mem : b ∈ formatGroups groups) :
    Str.isHex b ∨ b = byte ':' := by
  induction groups with
  | nil => simp [formatGroups, List.intercalate] at mem
  | cons g groups ih =>
    cases groups with
    | nil =>
      rw [formatGroups_singleton] at mem
      exact Or.inl (Str.isHex_of_mem_formatHex mem)
    | cons h groups =>
      rw [formatGroups_cons_cons, List.mem_append, List.mem_cons] at mem
      rcases mem with digit | rfl | later
      · exact Or.inl (Str.isHex_of_mem_formatHex digit)
      · exact Or.inr rfl
      · exact ih later

theorem hexField_formatHex {g : ℕ} (small : g < 65536) (rest : Str)
    (stops : ∀ b ∈ rest.head?, Str.isHex b = false) :
    hexField (Str.formatHex g ++ rest) = some (g, rest) := by
  have all : ∀ b ∈ Str.formatHex g, Str.isHex b := fun b mem =>
    Str.isHex_of_mem_formatHex mem
  have none : rest.takeWhile Str.isHex = [] := by
    cases rest with
    | nil => rfl
    | cons b tail => simp [stops b rfl]
  have digits : (Str.formatHex g ++ rest).takeWhile Str.isHex = Str.formatHex g := by
    rw [List.takeWhile_append_of_pos all, none, List.append_nil]
  have short := Str.length_formatHex_le small
  simp only [hexField, digits, Str.formatHex_ne_nil, false_or, Str.hexValue_formatHex,
    List.drop_left]
  rw [if_neg (by omega)]

theorem not_isHex_colon : Str.isHex (byte ':') = false := by decide

variable {rest tail : Str} {digits high low : ℕ}

theorem ipv6Groups_succ {double : Bool} (read : Groups)
    (ellipsis : Option ℕ) (field : hexField s = some (value, rest))
    (separated : groupSeparator rest = some (double, tail)) :
    ipv6Groups (room + 1) s read ellipsis =
      if double then
        if ellipsis.isSome then none
        else if tail = [] then some ([], read ++ [value], some (read.length + 1))
        else ipv6Groups room tail (read ++ [value]) (some (read.length + 1))
      else ipv6Groups room tail (read ++ [value]) ellipsis := by
  have notDot : (some (byte ':') : Option UInt8) ≠ some (byte '.') := by decide
  cases rest with
  | nil => simp [groupSeparator] at separated
  | cons b more =>
    have colon : b = byte ':' := by
      cases more with
      | nil => simp [groupSeparator] at separated
      | cons c tail =>
        by_contra other
        simp [groupSeparator, other] at separated
    subst colon
    cases double <;> simp [ipv6Groups, field, separated, notDot]

theorem groupSeparator_colon (hex : Str.isHex b) (tail : Str) :
    groupSeparator (byte ':' :: b :: tail) = some (false, b :: tail) := by
  have notColon : b ≠ byte ':' := by
    rintro rfl
    rw [not_isHex_colon] at hex
    exact absurd hex (by decide)
  simp [groupSeparator, notColon]

theorem groupSeparator_colons (tail : Str) :
    groupSeparator (str "::" ++ tail) = some (true, tail) := by
  have colons : str "::" ++ tail = byte ':' :: byte ':' :: tail := rfl
  simp [colons, groupSeparator]

theorem ipv6Groups_formatGroups (bounded : ∀ g ∈ groups, g < 65536)
    (nonempty : groups ≠ []) (fits : groups.length ≤ room) (read : Groups)
    (ellipsis : Option ℕ) :
    ipv6Groups room (formatGroups groups) read ellipsis =
      some ([], read ++ groups, ellipsis) := by
  induction groups generalizing room read with
  | nil => exact absurd rfl nonempty
  | cons g groups ih =>
    obtain ⟨room, rfl⟩ : ∃ less, room = less + 1 := ⟨room - 1, by simp at fits; omega⟩
    have small := bounded g List.mem_cons_self
    cases groups with
    | nil =>
      have field := hexField_formatHex small [] (by simp)
      rw [List.append_nil] at field
      simp [formatGroups_singleton, ipv6Groups, field]
    | cons h groups =>
      have field := hexField_formatHex small (byte ':' :: formatGroups (h :: groups))
        (by simp [not_isHex_colon])
      rcases formatGroups_cons h groups with ⟨b, tail, form, hex⟩
      have separated := groupSeparator_colon hex tail
      rw [← form] at separated
      have rest := ih (fun other mem => bounded other (List.mem_cons_of_mem _ mem))
        (by simp) (show (h :: groups).length ≤ room by simpa using fits) (read ++ [g])
      rw [formatGroups_cons_cons, ipv6Groups_succ read ellipsis field separated, rest]
      simp

theorem ipv6Groups_ellipsis (bounded : ∀ g ∈ before, g < 65536)
    (afterBounded : ∀ g ∈ after, g < 65536) (nonempty : before ≠ [])
    (fits : before.length + after.length ≤ room) (read : Groups) :
    ipv6Groups room (formatGroups before ++ (str "::" ++ formatGroups after)) read none =
      some ([], read ++ before ++ after, some (read.length + before.length)) := by
  induction before generalizing room read with
  | nil => exact absurd rfl nonempty
  | cons g before ih =>
    obtain ⟨room, rfl⟩ : ∃ less, room = less + 1 := ⟨room - 1, by simp at fits; omega⟩
    have small := bounded g List.mem_cons_self
    cases before with
    | nil =>
      have stops : ∀ b ∈ (str "::" ++ formatGroups after).head?, Str.isHex b = false := by
        intro b first
        have colon := first
        rw [← Option.some.inj colon]
        exact not_isHex_colon
      have field := hexField_formatHex small (str "::" ++ formatGroups after) stops
      rw [formatGroups_singleton,
        ipv6Groups_succ read none field (groupSeparator_colons _)]
      cases after with
      | nil => simp [formatGroups, List.intercalate]
      | cons h after =>
        rcases formatGroups_cons h after with ⟨b, tail, form, _⟩
        have rest := ipv6Groups_formatGroups afterBounded (by simp)
          (show (h :: after).length ≤ room by simp at fits ⊢; omega) (read ++ [g])
          (some (read.length + 1))
        rw [rest]
        simp [form]
    | cons h before =>
      have field := hexField_formatHex small
        (byte ':' :: (formatGroups (h :: before) ++ (str "::" ++ formatGroups after)))
        (by simp [not_isHex_colon])
      rcases formatGroups_cons h before with ⟨b, tail, form, hex⟩
      have separated := groupSeparator_colon hex
        (tail ++ (str "::" ++ formatGroups after))
      rw [← List.cons_append, ← form] at separated
      have rest := ih (fun other mem => bounded other (List.mem_cons_of_mem _ mem))
        (by simp) (show (h :: before).length + after.length ≤ room by simp at fits ⊢; omega)
        (read ++ [g])
      rw [formatGroups_cons_cons, List.append_assoc, List.cons_append,
        ipv6Groups_succ read none field separated, rest]
      simp
      omega

/-- A run of at least two zeros, as long as possible from its start. -/
def IsRun (groups : Groups) (run : ℕ × ℕ) : Prop := 2 ≤ run.2 ∧ run.2 = zerosFrom groups run.1

theorem isRun_longerRun {best : Option (ℕ × ℕ)} (isRun : ∀ run ∈ best, IsRun groups run) (i : ℕ) :
    ∀ run ∈ longerRun groups best i, IsRun groups run := by
  intro run mem
  unfold longerRun at mem
  split at mem
  · split at mem
    · rename_i long
      rw [Option.mem_some_iff] at mem
      subst mem
      exact ⟨long, rfl⟩
    · simp at mem
  · rename_i start longest
    split at mem
    · rename_i longer
      have long := (isRun (start, longest) rfl).1
      rw [Option.mem_some_iff] at mem
      subst mem
      exact ⟨by simp only at long ⊢; omega, rfl⟩
    · exact isRun run mem

theorem isRun_zeroRun (groups : Groups) : ∀ run ∈ zeroRun groups, IsRun groups run := by
  have fold : ∀ (indices : List ℕ) (best : Option (ℕ × ℕ)), (∀ run ∈ best, IsRun groups run) →
      ∀ run ∈ indices.foldl (longerRun groups) best, IsRun groups run := by
    intro indices
    induction indices with
    | nil => exact fun best isRun => isRun
    | cons i indices ih => exact fun best isRun => ih _ (isRun_longerRun isRun i)
  exact fold _ none (by simp)

theorem eq_of_zeroRun {start length : ℕ} (count : groups.length = 8)
    (found : zeroRun groups = some (start, length)) :
    2 ≤ length ∧ start + length ≤ 8 ∧
      groups = groups.take start ++ List.replicate length 0 ++ groups.drop (start + length) := by
  rcases isRun_zeroRun groups (start, length) found with ⟨long, run⟩
  simp only [zerosFrom] at long run
  have zeros : (groups.drop start).takeWhile (· == 0) = List.replicate length 0 := by
    rw [run]
    apply List.eq_replicate_of_mem
    intro g mem
    simpa using List.mem_takeWhile_imp mem
  have split : List.replicate length 0 ++ (groups.drop start).dropWhile (· == 0) =
      groups.drop start := by
    rw [← zeros]
    exact List.takeWhile_append_dropWhile
  have after : groups.drop (start + length) = (groups.drop start).dropWhile (· == 0) := by
    have dropped := congrArg (List.drop length) split
    rw [List.drop_left' (by simp), List.drop_drop] at dropped
    exact dropped.symm
  have total := congrArg List.length split
  simp only [List.length_append, List.length_replicate, List.length_drop, count] at total
  refine ⟨long, by omega, ?_⟩
  rw [after, List.append_assoc, split, List.take_append_drop]

theorem parseIP_eq_parseIPv6 (bytes : ∀ b ∈ s, Str.isHex b ∨ b = byte ':')
    (colon : byte ':' ∈ s) : parseIP s = parseIPv6 s := by
  have dot : Str.isHex (byte '.') = false := by decide
  have percent : Str.isHex (byte '%') = false := by decide
  cases first : s.find? fun b => b == byte '.' || b == byte ':' || b == byte '%' with
  | none =>
    have missing := List.find?_eq_none.mp first (byte ':') colon
    simp at missing
  | some b =>
    have isSpecial := List.find?_some first
    have isColon : b = byte ':' := by
      rcases bytes b (List.mem_of_find?_eq_some first) with hex | isColon
      · simp only [Bool.or_eq_true, beq_iff_eq] at isSpecial
        rcases isSpecial with (rfl | isColon) | rfl
        · simp [dot] at hex
        · exact isColon
        · simp [percent] at hex
      · exact isColon
    have notDot : byte ':' ≠ byte '.' := by decide
    simp [parseIP, first, isColon, notDot]

theorem parseIPv6_of_parts {ellipsis : Option ℕ}
    (bytes : ∀ b ∈ s, Str.isHex b ∨ b = byte ':')
    (parts : ipv6Parts s = some ([], groups, ellipsis)) :
    parseIPv6 s = expandEllipsis groups ellipsis := by
  have noZone : byte '%' ∉ s := by
    intro mem
    exact absurd (bytes _ mem) (by decide)
  simp [parseIPv6, noZone, parts]

theorem ipv6Parts_of_hex (hex : Str.isHex b) :
    ipv6Parts (b :: tail) = ipv6Groups 8 (b :: tail) [] none := by
  have starts : Str.hasPrefix (b :: tail) (str "::") = false := by
    rw [Bool.eq_false_iff]
    intro isPrefix
    rcases Str.hasPrefix_iff.mp isPrefix with ⟨rest, eq⟩
    have first := congrArg List.head? eq
    have colon : some (byte ':') = some b := first
    rw [← Option.some.inj colon, not_isHex_colon] at hex
    exact absurd hex (by decide)
  simp [ipv6Parts, starts]

theorem formatNat_byte (small : n < 256) :
    (n < 10 ∧ Str.formatNat n = [Str.digitByte n]) ∨
      (10 ≤ n ∧ n < 100 ∧ Str.formatNat n = [Str.digitByte (n / 10), Str.digitByte (n % 10)]) ∨
      (100 ≤ n ∧ Str.formatNat n =
        [Str.digitByte (n / 100), Str.digitByte (n / 10 % 10), Str.digitByte (n % 10)]) := by
  by_cases one : n < 10
  · left
    refine ⟨one, ?_⟩
    interval_cases n <;> decide
  · right
    have positive : 0 < n := by omega
    have tens : 0 < n / 10 := by omega
    by_cases two : n < 100
    · left
      refine ⟨by omega, two, ?_⟩
      have last : n / 10 / 10 = 0 := by omega
      have rest : n / 10 % 10 = n / 10 := by omega
      simp only [Str.formatNat, positive.ne', if_false, Nat.digits_def' (by omega : 1 < 10) positive,
        Nat.digits_def' (by omega : 1 < 10) tens, last, Nat.digits_zero, rest, List.reverse_cons,
        List.reverse_nil, List.nil_append, List.cons_append, List.map_cons, List.map_nil]
    · right
      have hundreds : 0 < n / 10 / 10 := by omega
      have last : n / 10 / 10 / 10 = 0 := by omega
      have rest : n / 10 / 10 % 10 = n / 100 := by omega
      refine ⟨by omega, ?_⟩
      simp only [Str.formatNat, positive.ne', if_false, Nat.digits_def' (by omega : 1 < 10) positive,
        Nat.digits_def' (by omega : 1 < 10) tens, Nat.digits_def' (by omega : 1 < 10) hundreds, last,
        Nat.digits_zero, rest, List.reverse_cons, List.reverse_nil, List.nil_append,
        List.cons_append, List.map_cons, List.map_nil]

theorem ipv4Fields_digit {d : ℕ} (decimal : d < 10) (rest : Str) (fields : List ℕ)
    (noLeadingZero : ¬(digits = 1 ∧ value = 0)) (small : 10 * value + d ≤ 255) :
    ipv4Fields (Str.digitByte d :: rest) value digits fields =
      ipv4Fields rest (10 * value + d) (digits + 1) fields := by
  have back : (Str.digitByte d).toNat - 48 = d := by
    rw [Str.digitByte_toNat decimal]
    omega
  have fits : ¬ 255 < 10 * value + d := by omega
  simp [ipv4Fields, Str.isDigit_digitByte decimal, noLeadingZero, back, fits]

theorem ipv4Fields_formatNat (small : n < 256) :
    ∃ digits, 0 < digits ∧ ∀ rest fields,
      ipv4Fields (Str.formatNat n ++ rest) 0 0 fields = ipv4Fields rest n digits fields := by
  rcases formatNat_byte small with ⟨one, form⟩ | ⟨two, short, form⟩ | ⟨three, form⟩
  · refine ⟨1, by omega, ?_⟩
    intro rest fields
    simp only [form, List.cons_append, List.nil_append]
    rw [ipv4Fields_digit one _ _ (by omega) (by omega)]
    simp
  · refine ⟨2, by omega, ?_⟩
    intro rest fields
    have value : 10 * (10 * 0 + n / 10) + n % 10 = n := by omega
    simp only [form, List.cons_append, List.nil_append]
    rw [ipv4Fields_digit (by omega) _ _ (by omega) (by omega),
      ipv4Fields_digit (by omega) _ _ (by omega) (by omega), value]
  · refine ⟨3, by omega, ?_⟩
    intro rest fields
    have value : 10 * (10 * (10 * 0 + n / 100) + n / 10 % 10) + n % 10 = n := by omega
    simp only [form, List.cons_append, List.nil_append]
    rw [ipv4Fields_digit (by omega) _ _ (by omega) (by omega),
      ipv4Fields_digit (by omega) _ _ (by omega) (by omega),
      ipv4Fields_digit (by omega) _ _ (by omega) (by omega), value]

theorem ipv4Fields_dot {fields : List ℕ} (started : 0 < digits) (room : fields.length < 3) :
    ipv4Fields (byte '.' :: b :: rest) value digits fields =
      ipv4Fields (b :: rest) 0 0 (fields ++ [value]) := by
  have notDigit : Str.isDigit (byte '.') = false := by decide
  simp [ipv4Fields, notDigit, started.ne', room.ne]

theorem ipv4Fields_next {m : ℕ} (small : n < 256) (rest : Str) (fields : List ℕ)
    (room : fields.length < 3) :
    ipv4Fields (Str.formatNat n ++ byte '.' :: (Str.formatNat m ++ rest)) 0 0 fields =
      ipv4Fields (Str.formatNat m ++ rest) 0 0 (fields ++ [n]) := by
  rcases ipv4Fields_formatNat small with ⟨digits, started, read⟩
  rw [read]
  cases form : Str.formatNat m ++ rest with
  | nil => exact absurd (List.append_eq_nil_iff.mp form).1 (Str.formatNat_ne_nil m)
  | cons b tail => exact ipv4Fields_dot started room

theorem formatIPv4_eq (high low : ℕ) :
    formatIPv4 high low = Str.formatNat (high / 256) ++ byte '.' ::
      (Str.formatNat (high % 256) ++ byte '.' ::
        (Str.formatNat (low / 256) ++ byte '.' :: (Str.formatNat (low % 256) ++ []))) := by
  simp [formatIPv4, List.intercalate]

theorem parseIPv4_formatIPv4 (highSmall : high < 65536) (lowSmall : low < 65536) :
    parseIPv4 (formatIPv4 high low) = some [high, low] := by
  rcases ipv4Fields_formatNat (show low % 256 < 256 by omega) with ⟨digits, _, last⟩
  have fields : ipv4Fields (formatIPv4 high low) 0 0 [] =
      some [high / 256, high % 256, low / 256, low % 256] := by
    rw [formatIPv4_eq, ipv4Fields_next (by omega) _ _ (by simp),
      ipv4Fields_next (by omega) _ _ (by simp), ipv4Fields_next (by omega) _ _ (by simp), last]
    rfl
  have highBack : 256 * (high / 256) + high % 256 = high := by omega
  have lowBack : 256 * (low / 256) + low % 256 = low := by omega
  simp [parseIPv4, fields, highBack, lowBack]

theorem parseIP_formatIPv4 (highSmall : high < 65536) (lowSmall : low < 65536) :
    parseIP (formatIPv4 high low) = some (mapped ++ [high, low]) := by
  have bytes : ∀ b ∈ formatIPv4 high low, Str.isDigit b = true ∨ b = byte '.' := by
    intro b mem
    rw [formatIPv4_eq] at mem
    simp only [List.mem_append, List.mem_cons, List.not_mem_nil, or_false] at mem
    rcases mem with digit | dot | digit | dot | digit | dot | digit
    · exact Or.inl (Str.isDigit_of_mem_formatNat digit)
    · exact Or.inr dot
    · exact Or.inl (Str.isDigit_of_mem_formatNat digit)
    · exact Or.inr dot
    · exact Or.inl (Str.isDigit_of_mem_formatNat digit)
    · exact Or.inr dot
    · exact Or.inl (Str.isDigit_of_mem_formatNat digit)
  have hasDot : byte '.' ∈ formatIPv4 high low := by
    rw [formatIPv4_eq]
    simp
  have first : (formatIPv4 high low).find?
      (fun b => b == byte '.' || b == byte ':' || b == byte '%') = some (byte '.') := by
    cases found : (formatIPv4 high low).find?
        fun b => b == byte '.' || b == byte ':' || b == byte '%' with
    | none =>
      have missing := List.find?_eq_none.mp found (byte '.') hasDot
      simp at missing
    | some b =>
      rcases bytes b (List.mem_of_find?_eq_some found) with digit | rfl
      · have isSpecial := List.find?_some found
        simp only [Bool.or_eq_true, beq_iff_eq] at isSpecial
        rcases isSpecial with (rfl | rfl) | rfl <;> exact absurd digit (by decide)
      · rfl
  simp [parseIP, first, parseIPv4_formatIPv4 highSmall lowSmall]

theorem mem_formatEllipsis (mem : b ∈ formatGroups before ++ (str "::" ++ formatGroups after)) :
    Str.isHex b ∨ b = byte ':' := by
  have colons : ∀ b ∈ str "::", b = byte ':' := by decide +kernel
  rcases List.mem_append.mp mem with inBefore | later
  · exact mem_formatGroups inBefore
  · rcases List.mem_append.mp later with colon | inAfter
    · exact Or.inr (colons b colon)
    · exact mem_formatGroups inAfter

theorem parseIP_formatGroups (count : groups.length = 8)
    (bounded : ∀ g ∈ groups, g < 65536) : parseIP (formatGroups groups) = some groups := by
  have bytes : ∀ b ∈ formatGroups groups, Str.isHex b = true ∨ b = byte ':' :=
    fun b mem => mem_formatGroups mem
  obtain ⟨g, h, rest, rfl⟩ : ∃ g h rest, groups = g :: h :: rest := by
    match groups, count with
    | g :: h :: rest, _ => exact ⟨g, h, rest, rfl⟩
  have colon : byte ':' ∈ formatGroups (g :: h :: rest) := by
    rw [formatGroups_cons_cons]
    simp
  rcases formatGroups_cons g (h :: rest) with ⟨b, tail, form, hex⟩
  have parts : ipv6Parts (formatGroups (g :: h :: rest)) = some ([], g :: h :: rest, none) := by
    have read := ipv6Groups_formatGroups bounded (by simp) (le_of_eq count) [] none
    rw [form] at read ⊢
    rw [ipv6Parts_of_hex hex, read]
    rfl
  rw [parseIP_eq_parseIPv6 bytes colon, parseIPv6_of_parts bytes parts]
  simp only [expandEllipsis, count, lt_irrefl, if_false]

theorem parseIP_formatEllipsis (bounded : ∀ g ∈ before, g < 65536)
    (afterBounded : ∀ g ∈ after, g < 65536) (room : before.length + after.length < 8) :
    parseIP (formatGroups before ++ (str "::" ++ formatGroups after)) =
      some (before ++ List.replicate (8 - (before.length + after.length)) 0 ++ after) := by
  have bytes : ∀ b ∈ formatGroups before ++ (str "::" ++ formatGroups after),
      Str.isHex b = true ∨ b = byte ':' := fun b mem => mem_formatEllipsis mem
  have colon : byte ':' ∈ formatGroups before ++ (str "::" ++ formatGroups after) := by
    have inColons : byte ':' ∈ str "::" := by decide
    simp [inColons]
  have parts : ipv6Parts (formatGroups before ++ (str "::" ++ formatGroups after)) =
      some ([], before ++ after, some before.length) := by
    cases before with
    | nil =>
      have dropped : (str "::" ++ formatGroups after).drop 2 = formatGroups after := rfl
      have empty : formatGroups [] = [] := by simp [formatGroups, List.intercalate]
      rw [empty, List.nil_append]
      simp only [ipv6Parts, Str.hasPrefix_append, if_true, dropped]
      cases after with
      | nil => simp [empty]
      | cons h after =>
        rcases formatGroups_cons h after with ⟨b, tail, form, _⟩
        have read := ipv6Groups_formatGroups afterBounded (by simp)
          (show (h :: after).length ≤ 8 by simp at room ⊢; omega) [] (some 0)
        rw [if_neg (by simp [form]), read]
        rfl
    | cons g before =>
      rcases formatGroups_cons g before with ⟨b, tail, form, hex⟩
      have read := ipv6Groups_ellipsis bounded afterBounded (by simp) (le_of_lt room) []
      rw [form, List.cons_append] at read ⊢
      rw [ipv6Parts_of_hex hex, read]
      simp
  rw [parseIP_eq_parseIPv6 bytes colon, parseIPv6_of_parts bytes parts]
  simp [expandEllipsis, room]

theorem parseIP_format (ip : IP) : parseIP ip.format = some ip.groups := by
  rcases ip with ⟨groups, count, bounded⟩
  simp only [IP.format]
  split
  · rename_i four
    match groups, count with
    | [a, b, c, d, e, f, high, low], _ =>
      have high16 := bounded high (by simp)
      have low16 := bounded low (by simp)
      have isMapped : [a, b, c, d, e, f] = mapped := by simpa [isV4] using four
      have read := parseIP_formatIPv4 high16 low16
      rw [← isMapped] at read
      simpa using read
  · split
    · exact parseIP_formatGroups count bounded
    · rename_i start length run
      rcases eq_of_zeroRun count run with ⟨long, inside, split⟩
      have taken : (groups.take start).length = start := by
        rw [List.length_take]
        omega
      have dropped : (groups.drop (start + length)).length = 8 - (start + length) := by
        rw [List.length_drop, count]
      rw [List.append_assoc, parseIP_formatEllipsis
        (fun g mem => bounded g (List.mem_of_mem_take mem))
        (fun g mem => bounded g (List.mem_of_mem_drop mem)) (by omega), taken, dropped]
      have zeros : 8 - (start + (8 - (start + length))) = length := by omega
      rw [zeros, ← split]

end Net

end Kiac
