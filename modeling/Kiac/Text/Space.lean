import Kiac.Text.Basic

/-!
# White space

`strings.Fields` and `strings.TrimSpace`. White space is what `unicode.IsSpace`
accepts, in its UTF-8 encoding. The first byte of each encoding is never inside the
encoding of another character, so a scan over bytes finds the same places as one
over characters, also in a text that is not valid UTF-8.
-/

namespace Kiac

namespace Str

/-- The length of the white-space character at the start of a text, or zero. -/
def spaceWidth : Str → ℕ
  | 0x20 :: _ => 1
  | 0x09 :: _ => 1
  | 0x0a :: _ => 1
  | 0x0b :: _ => 1
  | 0x0c :: _ => 1
  | 0x0d :: _ => 1
  | 0xc2 :: 0x85 :: _ => 2
  | 0xc2 :: 0xa0 :: _ => 2
  | 0xe1 :: 0x9a :: 0x80 :: _ => 3
  | 0xe2 :: 0x80 :: b :: _ =>
    if (0x80 ≤ b ∧ b ≤ 0x8a) ∨ b = 0xa8 ∨ b = 0xa9 ∨ b = 0xaf then 3 else 0
  | 0xe2 :: 0x81 :: 0x9f :: _ => 3
  | 0xe3 :: 0x80 :: 0x80 :: _ => 3
  | _ => 0

/-- Each byte with whether it belongs to white space; `pending` bytes still do. -/
def markSpace (pending : ℕ) : Str → List (UInt8 × Bool)
  | [] => []
  | b :: rest =>
    let width := if pending = 0 then spaceWidth (b :: rest) else pending
    (b, width != 0) :: markSpace (width - 1) rest

/-- `strings.Fields`. -/
def fields (s : Str) : List Str :=
  (((markSpace 0 s).splitOnP Prod.snd).filter fun part => !part.isEmpty).map (·.map Prod.fst)

/-- `strings.TrimSpace`. -/
def trimSpace (s : Str) : Str :=
  ((((markSpace 0 s).dropWhile Prod.snd).reverse.dropWhile Prod.snd).reverse).map Prod.fst

/-- `strings.TrimRight` with one byte to trim. -/
def trimRightByte (b : UInt8) (s : Str) : Str := (s.reverse.dropWhile (· == b)).reverse

/-- A byte that is a whole visible ASCII character. -/
def isGraphic (b : UInt8) : Bool := 33 ≤ b && b ≤ 126

variable {b : UInt8} {word : Str} {sep : UInt8}

theorem isGraphic_iff : isGraphic b ↔ 33 ≤ b.toNat ∧ b.toNat ≤ 126 := by
  simp [isGraphic, UInt8.le_iff_toNat_le]

/-- The first bytes of the white-space characters. -/
def startsSpace (b : UInt8) : Bool :=
  b == 0x20 || b == 0x09 || b == 0x0a || b == 0x0b || b == 0x0c || b == 0x0d || b == 0xc2 ||
    b == 0xe1 || b == 0xe2 || b == 0xe3

theorem spaceWidth_of_not_startsSpace (other : startsSpace b = false) (rest : Str) :
    spaceWidth (b :: rest) = 0 := by
  simp only [startsSpace, Bool.or_eq_false_iff, beq_eq_false_iff_ne] at other
  simp [spaceWidth, other]

theorem spaceWidth_of_isGraphic {rest : Str} (graphic : isGraphic b) :
    spaceWidth (b :: rest) = 0 := by
  have other : ∀ b : UInt8, isGraphic b = true → startsSpace b = false :=
    forall_byte (by decide +kernel)
  exact spaceWidth_of_not_startsSpace (other b graphic) rest

theorem markSpace_append (graphic : ∀ b ∈ word, isGraphic b) (rest : Str) :
    markSpace 0 (word ++ rest) = word.map (fun b => (b, false)) ++ markSpace 0 rest := by
  induction word with
  | nil => rfl
  | cons b word ih =>
    have width : spaceWidth (b :: (word ++ rest)) = 0 :=
      spaceWidth_of_isGraphic (graphic b List.mem_cons_self)
    simp [markSpace, width, ih fun other mem => graphic other (List.mem_cons_of_mem _ mem)]

theorem trimSpace_of_isGraphic (graphic : ∀ b ∈ word, isGraphic b) :
    trimSpace word = word := by
  have marked : markSpace 0 word = word.map fun b => (b, false) := by
    simpa [markSpace] using markSpace_append graphic []
  have keepsAll : ∀ rest : Str, (rest.map fun b => (b, false)).dropWhile Prod.snd =
      rest.map fun b => (b, false) := by
    intro rest
    cases rest <;> rfl
  rw [trimSpace, marked, keepsAll, ← List.map_reverse, keepsAll, ← List.map_reverse,
    List.reverse_reverse, List.map_map]
  exact List.map_id word

@[simp]
theorem fields_nil : fields [] = [] := by
  simp [fields, markSpace]

theorem spaceWidth_c2 (c : UInt8) (rest : Str) :
    spaceWidth (0xc2 :: c :: rest) = if c = 0x85 ∨ c = 0xa0 then 2 else 0 := by
  by_cases nel : c = 0x85
  · subst nel
    rfl
  · by_cases nbsp : c = 0xa0
    · subst nbsp
      rfl
    · simp [spaceWidth, nel, nbsp]

theorem spaceWidth_e1 (c d : UInt8) (rest : Str) :
    spaceWidth (0xe1 :: c :: d :: rest) = if c = 0x9a ∧ d = 0x80 then 3 else 0 := by
  by_cases lead : c = 0x9a
  · subst lead
    by_cases last : d = 0x80
    · subst last
      rfl
    · simp [spaceWidth, last]
  · simp [spaceWidth, lead]

theorem spaceWidth_e2 (c d : UInt8) (rest : Str) :
    spaceWidth (0xe2 :: c :: d :: rest) =
      if c = 0x80 ∧ ((0x80 ≤ d ∧ d ≤ 0x8a) ∨ d = 0xa8 ∨ d = 0xa9 ∨ d = 0xaf) ∨ c = 0x81 ∧ d = 0x9f
        then 3 else 0 := by
  by_cases general : c = 0x80
  · subst general
    simp [spaceWidth]
  · by_cases mathematical : c = 0x81
    · subst mathematical
      by_cases last : d = 0x9f
      · subst last
        rfl
      · simp [spaceWidth, last]
    · simp [spaceWidth, general, mathematical]

theorem spaceWidth_e3 (c d : UInt8) (rest : Str) :
    spaceWidth (0xe3 :: c :: d :: rest) = if c = 0x80 ∧ d = 0x80 then 3 else 0 := by
  by_cases lead : c = 0x80
  · subst lead
    by_cases last : d = 0x80
    · subst last
      rfl
    · simp [spaceWidth, last]
  · simp [spaceWidth, lead]

theorem spaceWidth_append_of_lead {lead : UInt8} {trails : UInt8 → UInt8 → Prop}
    [DecidableRel trails] (alone : spaceWidth [lead] = 0) (two : ∀ c, spaceWidth [lead, c] = 0)
    (three : ∀ c d rest, spaceWidth (lead :: c :: d :: rest) = if trails c d then 3 else 0)
    (high : ∀ c d, trails c d → 128 ≤ c.toNat ∧ 128 ≤ d.toNat)
    (ascii : sep.toNat < 128) (word rest : Str) :
    spaceWidth (lead :: (word ++ sep :: rest)) = spaceWidth (lead :: word) := by
  rcases word with _ | ⟨c, _ | ⟨d, word⟩⟩
  · rw [List.nil_append, alone]
    cases rest with
    | nil => exact two sep
    | cons d rest =>
      rw [three, if_neg]
      intro trail
      have := (high _ _ trail).1
      omega
  · rw [List.cons_append, List.nil_append, two, three, if_neg]
    intro trail
    have := (high _ _ trail).2
    omega
  · rw [List.cons_append, List.cons_append, three, three]

theorem spaceWidth_append (ascii : sep.toNat < 128) (b : UInt8) (word rest : Str) :
    spaceWidth (b :: (word ++ sep :: rest)) = spaceWidth (b :: word) := by
  cases starts : startsSpace b with
  | false => rw [spaceWidth_of_not_startsSpace starts, spaceWidth_of_not_startsSpace starts]
  | true =>
    simp only [startsSpace, Bool.or_eq_true, beq_iff_eq] at starts
    rcases starts with (((oneByte | rfl) | rfl) | rfl) | rfl
    · rcases oneByte with ((((rfl | rfl) | rfl) | rfl) | rfl) | rfl <;> rfl
    · cases word with
      | nil =>
        rw [List.nil_append, spaceWidth_c2, if_neg]
        · rfl
        · rintro (rfl | rfl) <;> exact absurd ascii (by decide)
      | cons c word => rw [List.cons_append, spaceWidth_c2, spaceWidth_c2]
    · refine spaceWidth_append_of_lead rfl (by simp [spaceWidth]) spaceWidth_e1 ?_ ascii word rest
      rintro c d ⟨rfl, rfl⟩
      decide
    · refine spaceWidth_append_of_lead rfl (by simp [spaceWidth]) spaceWidth_e2 ?_ ascii word rest
      have trailing : ∀ d : UInt8, (0x80 ≤ d ∧ d ≤ 0x8a) ∨ d = 0xa8 ∨ d = 0xa9 ∨ d = 0xaf →
          128 ≤ d.toNat := forall_byte (by decide +kernel)
      rintro c d (⟨rfl, last⟩ | ⟨rfl, rfl⟩)
      · exact ⟨by decide, trailing d last⟩
      · decide
    · refine spaceWidth_append_of_lead rfl (by simp [spaceWidth]) spaceWidth_e3 ?_ ascii word rest
      rintro c d ⟨rfl, rfl⟩
      decide

theorem spaceWidth_le (s : Str) : spaceWidth s ≤ s.length := by
  unfold spaceWidth
  split
  case h_10 => split <;> simp
  all_goals simp

theorem markSpace_append_ascii (ascii : sep.toNat < 128) (rest : Str) (pending : ℕ)
    (word : Str) (inside : pending ≤ word.length) :
    markSpace pending (word ++ sep :: rest) =
      markSpace pending word ++ markSpace 0 (sep :: rest) := by
  induction word generalizing pending with
  | nil =>
    obtain rfl := Nat.le_zero.mp inside
    rfl
  | cons b word ih =>
    have width := spaceWidth_append ascii b word rest
    have short := spaceWidth_le (b :: word)
    rw [List.length_cons] at inside short
    have scan : ∀ tail, markSpace pending (b :: tail) =
        (b, (if pending = 0 then spaceWidth (b :: tail) else pending) != 0) ::
          markSpace ((if pending = 0 then spaceWidth (b :: tail) else pending) - 1) tail :=
      fun _ => rfl
    rw [List.cons_append, scan, scan, width, ih _ (by split <;> omega), List.cons_append]

theorem fields_append_space (word rest : Str) {separator : UInt8}
    (isSpace : separator = byte ' ' ∨ separator = byte '\n') :
    fields (word ++ separator :: rest) = fields word ++ fields rest := by
  have marked : markSpace 0 (separator :: rest) = (separator, true) :: markSpace 0 rest := by
    have width : spaceWidth (separator :: rest) = 1 := by
      rcases isSpace with rfl | rfl <;> rfl
    simp [markSpace, width]
  have ascii : separator.toNat < 128 := by
    rcases isSpace with rfl | rfl <;> decide
  unfold fields
  rw [markSpace_append_ascii ascii rest 0 word (Nat.zero_le _), marked,
    List.splitOnP_append_cons _ _ rfl, List.filter_append, List.map_append]

/-- Whether a text has a white-space character. -/
def containsSpace (s : Str) : Bool := (markSpace 0 s).any Prod.snd

theorem map_fst_markSpace (pending : ℕ) (s : Str) : (markSpace pending s).map Prod.fst = s := by
  induction s generalizing pending with
  | nil => rfl
  | cons b rest ih => simp [markSpace, ih]

theorem flatten_splitOnP {α : Type} (p : α → Bool) (l : List α) :
    (l.splitOnP p).flatten = l.filter fun a => !p a := by
  induction l with
  | nil => simp
  | cons a l ih =>
    rw [List.splitOnP_cons_eq_if_modifyHead]
    cases isSep : p a with
    | true => simp [isSep, ih]
    | false =>
      cases parts : l.splitOnP p with
      | nil => simp at parts
      | cons part parts' =>
        rw [parts] at ih
        simp [isSep, ← ih]

theorem flatten_fields (s : Str) :
    (fields s).flatten = ((markSpace 0 s).filter fun mark => !mark.2).map Prod.fst := by
  rw [fields, ← List.map_flatten, List.flatten_filter_not_isEmpty, flatten_splitOnP]

theorem fields_eq_self_iff {s : Str} (nonempty : s ≠ []) :
    fields s = [s] ↔ containsSpace s = false := by
  unfold containsSpace
  constructor
  · intro whole
    have kept := flatten_fields s
    rw [whole, List.flatten_singleton] at kept
    have all : ((markSpace 0 s).filter fun mark => !mark.2).length = (markSpace 0 s).length := by
      have lengths := congrArg List.length kept
      rw [List.length_map] at lengths
      rw [← lengths, ← List.length_map (f := Prod.fst), map_fst_markSpace]
    simpa using List.length_filter_eq_length_iff.mp all
  · intro unmarked
    have unspaced : ∀ mark ∈ markSpace 0 s, mark.2 = false := by simpa using unmarked
    have present : markSpace 0 s ≠ [] := by
      cases s with
      | nil => exact absurd rfl nonempty
      | cons b rest => simp [markSpace]
    unfold fields
    rw [List.splitOnP_eq_singleton unspaced]
    simp [present, map_fst_markSpace]

theorem fields_append (graphic : ∀ b ∈ word, isGraphic b)
    (nonempty : word ≠ []) {separator : UInt8}
    (isSpace : separator = byte ' ' ∨ separator = byte '\n') (rest : Str) :
    fields (word ++ separator :: rest) = word :: fields rest := by
  have spaceless : containsSpace word = false := by
    have marked := markSpace_append graphic []
    rw [List.append_nil] at marked
    simp [containsSpace, marked, markSpace]
  rw [fields_append_space word rest isSpace, (fields_eq_self_iff nonempty).mpr spaceless]
  rfl

end Str

end Kiac
