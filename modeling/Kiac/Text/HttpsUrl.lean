import Kiac.Text.Url

/-!
# URLs of an address and a port

A text of the form `https://address:port`, perhaps with a slash and a question mark after it, is
what a URL with an IPv4 address and neither a user nor a query nor a fragment is parsed from. Such a
URL is written as it is parsed.
-/

namespace Kiac

namespace Url

/-- The bytes of an IPv4 address. -/
def isDotted (b : UInt8) : Bool := Str.isDigit b || b == byte '.'

/-- The bytes of an IPv4 address and a port. -/
def isHostByte (b : UInt8) : Bool := isDotted b || b == byte ':'

variable {b : UInt8} {s : Str}

theorem isHostByte_spec (isHost : isHostByte b) :
    32 ≤ b ∧ b < 127 ∧ b ≠ byte '%' ∧ b ≠ byte '/' ∧ b ≠ byte '?' ∧ b ≠ byte '#' ∧ b ≠ byte '[' ∧
      b ≠ byte '@' ∧ shouldEscape .host b = false := by
  have each : ∀ b : UInt8, isHostByte b = true → 32 ≤ b ∧ b < 127 ∧ b ≠ byte '%' ∧
      b ≠ byte '/' ∧ b ≠ byte '?' ∧ b ≠ byte '#' ∧ b ≠ byte '[' ∧ b ≠ byte '@' ∧
      shouldEscape .host b = false := Str.forall_byte (by decide +kernel)
  exact each b isHost

theorem plain_of_isHostByte (isHost : isHostByte b) :
    b < 128 ∧ b ≠ byte '%' := by
  have spec := isHostByte_spec isHost
  exact ⟨UInt8.lt_trans spec.2.1 (by decide), spec.2.2.1⟩

theorem isHostByte_of_isDotted (dotted : isDotted b) : isHostByte b := by
  simp [isHostByte, dotted]

theorem isDotted_of_isDigit (digit : Str.isDigit b) : isDotted b := by
  simp [isDotted, digit]

theorem ne_colon_of_isDotted (dotted : isDotted b) : b ≠ byte ':' := by
  rintro rfl
  exact absurd dotted (by decide)

variable {mode : Encoding} {rest : Str}

theorem unescape_cons (plain : b ≠ byte '%') :
    unescape mode (b :: rest) =
      if (mode = .host ∨ mode = .zone) ∧ b < 128 ∧ shouldEscape mode b then none
      else (unescape mode rest).map (b :: ·) := by
  cases rest with
  | nil => simp [unescape, plain]
  | cons x rest =>
    cases rest with
    | nil => simp [unescape, plain]
    | cons y rest => simp [unescape, plain]

theorem unescape_host (host : ∀ b ∈ s, isHostByte b) :
    unescape .host s = some s := by
  induction s with
  | nil => rfl
  | cons b rest ih =>
    have first := isHostByte_spec (host b List.mem_cons_self)
    have later := ih fun c mem => host c (List.mem_cons_of_mem b mem)
    rw [unescape_cons first.2.2.1, later]
    simp [first]

theorem hexDigit?_lt {digit : ℕ} (read : Str.hexDigit? b = some digit) :
    digit < 16 := by
  have each : ∀ b : UInt8, ∀ digit ∈ Str.hexDigit? b, digit < 16 :=
    Str.forall_byte (by decide +kernel)
  exact each b digit read

theorem eq_of_unescape_host {host : Str} (decoded : unescape .host s = some host)
    (plain : ∀ b ∈ host, b < 128 ∧ b ≠ byte '%') : s = host := by
  fun_induction unescape .host s generalizing host with
  | case1 => simpa using decoded
  | case2 x y rest high low isLow isHigh valid ih =>
    rcases Option.map_eq_some_iff.mp decoded with ⟨tail, _, rfl⟩
    have first := plain _ List.mem_cons_self
    have small := hexDigit?_lt isHigh
    have small' := hexDigit?_lt isLow
    simp only [validEscape, Bool.or_eq_true, decide_eq_true_eq, beq_iff_eq] at valid
    rcases valid with large | isPercent
    · exfalso
      have bound := UInt8.lt_iff_toNat_lt.mp first.1
      rw [UInt8.toNat_ofNat'] at bound
      have limit : (128 : UInt8).toNat = 128 := rfl
      omega
    · exact absurd isPercent first.2
  | case3 => cases decoded
  | case4 => cases decoded
  | case5 => cases decoded
  | case6 => cases decoded
  | case7 b rest _ _ ih =>
    rcases Option.map_eq_some_iff.mp decoded with ⟨tail, isTail, rfl⟩
    rw [ih isTail fun c mem => plain c (List.mem_cons_of_mem b mem)]

theorem eq_nil_of_unescape (decoded : unescape mode s = some []) :
    s = [] := by
  fun_induction unescape mode s with
  | case1 => rfl
  | case2 x y rest high low isLow isHigh valid ih => simp at decoded
  | case3 => cases decoded
  | case4 => cases decoded
  | case5 => cases decoded
  | case6 => cases decoded
  | case7 b rest _ _ ih => simp at decoded

theorem escape_host (host : ∀ b ∈ s, isHostByte b) : escape .host s = s := by
  induction s with
  | nil => rfl
  | cons b rest ih =>
    have first := isHostByte_spec (host b List.mem_cons_self)
    have later := ih fun c mem => host c (List.mem_cons_of_mem b mem)
    rw [escape, List.flatMap_cons, ← escape, later]
    simp [first]

/-- What may stand after the port. -/
def tail (slash force : Bool) : Str :=
  (if slash then str "/" else []) ++ if force then str "?" else []

/-- The URL of an address and a port, perhaps with an empty path and an empty query. -/
def ofEndpoint (address port : Str) (slash force : Bool) : Url where
  scheme := str "https"
  host := address ++ byte ':' :: port
  path := if slash then str "/" else []
  forceQuery := force

theorem getScheme_https (rest : Str) :
    getScheme (str "https" ++ byte ':' :: rest) = some (str "https", rest) := by
  rfl

theorem drop_length_takeWhile (p : UInt8 → Bool) (s : Str) :
    s.drop (s.takeWhile p).length = s.dropWhile p := by
  calc
    _ = (s.takeWhile p ++ s.dropWhile p).drop (s.takeWhile p).length := by
        rw [List.takeWhile_append_dropWhile]
    _ = s.dropWhile p := List.drop_left

theorem parseUnfragmented_of_authority {name after rawQuery : Str} {force : Bool}
    {authority : Option Str × Str} (plain : ∀ b ∈ s, 32 ≤ b ∧ b < 127)
    (isScheme : getScheme s = some (name, after)) (named : name ≠ [])
    (isQuery : cutQuery after = (force, str "//" ++ rest, rawQuery))
    (isAuthority : parseAuthority (rest.takeWhile (· != byte '/')) = some authority) :
    parseUnfragmented s =
      setPath
        { scheme := name.toLower, forceQuery := force, rawQuery := rawQuery,
          user := authority.1, host := authority.2 }
        (rest.dropWhile (· != byte '/')) := by
  have visible : s.any (fun b => b < 32 || b == 127) = false := by
    rw [List.any_eq_false]
    intro b mem
    have bounds := plain b mem
    simp only [Bool.or_eq_true, decide_eq_true_eq, beq_iff_eq, not_or, UInt8.not_lt]
    exact ⟨bounds.1, UInt8.ne_of_lt bounds.2⟩
  have notStar : s ≠ str "*" := by
    rintro rfl
    rw [show getScheme (str "*") = some ([], str "*") from rfl] at isScheme
    exact named (congrArg Prod.fst (Option.some.inj isScheme)).symm
  have lower : name.toLower ≠ [] := by simpa [Str.toLower] using named
  have path : (str "//" ++ rest).drop (2 + (rest.takeWhile (· != byte '/')).length) =
      rest.dropWhile (· != byte '/') := by
    rw [← List.drop_drop]
    exact drop_length_takeWhile (· != byte '/') rest
  rw [parseUnfragmented, visible, if_neg notStar, isScheme]
  have starts : Str.hasPrefix (str "//" ++ rest) (str "/") := rfl
  have authority' : (str "//" ++ rest).drop 2 = rest := rfl
  simp only [isQuery, starts, authority', isAuthority, path, Str.hasPrefix_append]
  simp [lower]

section Endpoint

variable {address port : Str} (dotted : ∀ b ∈ address, isDotted b = true)
  (digits : ∀ b ∈ port, Str.isDigit b = true)

include dotted digits

theorem isHostByte_endpoint : ∀ b ∈ address ++ byte ':' :: port, isHostByte b := by
  intro b mem
  rcases List.mem_append.mp mem with inAddress | mem
  · exact isHostByte_of_isDotted (dotted b inAddress)
  · rcases List.mem_cons.mp mem with rfl | inPort
    · decide
    · exact isHostByte_of_isDotted (isDotted_of_isDigit (digits b inPort))

theorem parseAuthority_endpoint :
    parseAuthority (address ++ byte ':' :: port) = some (none, address ++ byte ':' :: port) := by
  have host := isHostByte_endpoint dotted digits
  have noBracket : byte '[' ∉ address ++ byte ':' :: port :=
    fun mem => (isHostByte_spec (host _ mem)).2.2.2.2.2.2.1 rfl
  have noUser : byte '@' ∉ address ++ byte ':' :: port :=
    fun mem => (isHostByte_spec (host _ mem)).2.2.2.2.2.2.2.1 rfl
  have noColon : byte ':' ∉ address := fun mem => ne_colon_of_isDotted (dotted _ mem) rfl
  have parsed : parseHost (address ++ byte ':' :: port) = some (address ++ byte ':' :: port) := by
    rw [parseHost, Str.lastIndex_eq_none.mpr noBracket, Str.cut_append noColon]
    simp only [List.all_eq_true.mpr digits, if_true]
    exact unescape_host host
  rw [parseAuthority, Str.lastIndex_eq_none.mpr noUser, parsed]
  rfl

theorem cutQuery_endpoint (slash force : Bool) :
    cutQuery (str "//" ++ (address ++ byte ':' :: port) ++ tail slash force) =
      (force, str "//" ++ (address ++ byte ':' :: port) ++ (if slash then str "/" else []), []) := by
  have host := isHostByte_endpoint dotted digits
  have noQuery : byte '?' ∉ str "//" ++ (address ++ byte ':' :: port) ++
      (if slash then str "/" else []) := by
    intro mem
    rcases List.mem_append.mp mem with mem | mem
    · rcases List.mem_append.mp mem with mem | mem
      · exact absurd mem (by decide)
      · exact (isHostByte_spec (host _ mem)).2.2.2.2.1 rfl
    · cases slash <;> exact absurd mem (by decide)
  cases force with
  | true =>
    have ends : str "//" ++ (address ++ byte ':' :: port) ++ tail slash true =
        str "//" ++ (address ++ byte ':' :: port) ++ (if slash then str "/" else []) ++
          [byte '?'] := by
      rw [tail, ← List.append_assoc]
      rfl
    rw [ends, cutQuery, Str.hasSuffix_iff.mpr (List.suffix_append _ _), List.count_append,
      List.count_eq_zero.mpr noQuery, List.dropLast_concat]
    rfl
  | false =>
    have same : str "//" ++ (address ++ byte ':' :: port) ++ tail slash false =
        str "//" ++ (address ++ byte ':' :: port) ++ (if slash then str "/" else []) := by
      rw [tail]
      simp
    rw [same, cutQuery, List.count_eq_zero.mpr noQuery, Str.cut_of_not_mem noQuery]
    simp

theorem takeWhile_endpoint (slash : Bool) :
    ((address ++ byte ':' :: port) ++ (if slash then str "/" else [])).takeWhile (· != byte '/') =
      address ++ byte ':' :: port := by
  have host := isHostByte_endpoint dotted digits
  have other : ∀ b ∈ address ++ byte ':' :: port, (b != byte '/') := by
    intro b mem
    simpa using (isHostByte_spec (host b mem)).2.2.2.1
  rw [List.takeWhile_append_of_pos other]
  cases slash with
  | true => exact List.append_nil _
  | false => exact List.append_nil _

theorem dropWhile_endpoint (slash : Bool) :
    ((address ++ byte ':' :: port) ++ (if slash then str "/" else [])).dropWhile (· != byte '/') =
      if slash then str "/" else [] := by
  have split := List.takeWhile_append_dropWhile (p := (· != byte '/'))
    (l := (address ++ byte ':' :: port) ++ (if slash then str "/" else []))
  rw [takeWhile_endpoint dotted digits slash] at split
  exact List.append_cancel_left split

theorem parse_endpoint (slash force : Bool) :
    parse (str "https://" ++ (address ++ byte ':' :: port) ++ tail slash force) =
      some (ofEndpoint address port slash force) := by
  have host := isHostByte_endpoint dotted digits
  have inText : ∀ b ∈ str "https://" ++ (address ++ byte ':' :: port) ++ tail slash force,
      32 ≤ b ∧ b < 127 ∧ b ≠ byte '#' := by
    intro b mem
    rcases List.mem_append.mp mem with mem | mem
    · rcases List.mem_append.mp mem with mem | mem
      · exact (by decide +kernel : ∀ b ∈ str "https://", 32 ≤ b ∧ b < 127 ∧ b ≠ byte '#') b mem
      · have spec := isHostByte_spec (host b mem)
        exact ⟨spec.1, spec.2.1, spec.2.2.2.2.2.1⟩
    · have each : ∀ slash force : Bool, ∀ b ∈ tail slash force,
          32 ≤ b ∧ b < 127 ∧ b ≠ byte '#' := by decide +kernel
      exact each slash force b mem
  have noFragment := Str.cut_of_not_mem fun mem => (inText (byte '#') mem).2.2 rfl
  rw [parse, noFragment]
  simp only
  have isQuery := cutQuery_endpoint dotted digits slash force
  rw [List.append_assoc (str "//") _ (if slash then str "/" else [])] at isQuery
  have isAuthority := (congrArg parseAuthority (takeWhile_endpoint dotted digits slash)).trans
    (parseAuthority_endpoint dotted digits)
  rw [parseUnfragmented_of_authority (fun b mem => ⟨(inText b mem).1, (inText b mem).2.1⟩)
    (getScheme_https _) (by decide) isQuery isAuthority, dropWhile_endpoint dotted digits slash]
  cases slash with
  | true => rfl
  | false => rfl

theorem text_ofEndpoint (slash force : Bool) :
    (ofEndpoint address port slash force).text =
      str "https://" ++ (address ++ byte ':' :: port) ++ tail slash force := by
  have host := isHostByte_endpoint dotted digits
  have path : (ofEndpoint address port slash force).escapedPath =
      if slash then str "/" else [] := by
    cases slash with
    | true => rfl
    | false => rfl
  have authority : (ofEndpoint address port slash force).authorityText =
      str "//" ++ (address ++ byte ':' :: port) := by
    rw [authorityText]
    simp [ofEndpoint, escape_host host]
  have beginning : str "https://" = str "https" ++ byte ':' :: str "//" := by decide
  have named : str "https" ≠ [] := by decide
  have slashText : str "/" = [byte '/'] := by decide
  have queryText : str "?" = [byte '?'] := by decide
  rw [text, path, authority, beginning]
  cases slash with
  | true => simp [ofEndpoint, tail, named, slashText, queryText]
  | false => simp [ofEndpoint, tail, named, queryText]

end Endpoint

variable {s : Str} {ip : BitVec 32} {url : Url}

theorem isDotted_of_parseAddr {value : BitVec 32}
    (parsed : Netip.parseAddr s = some (.v4 value)) : ∀ b ∈ s, isDotted b := by
  unfold Netip.parseAddr at parsed
  split at parsed
  · split_ifs at parsed
    · split at parsed
      · rename_i isV4
        intro b mem
        have byte' := (Net.isDigit_or_dot_of_parseIPv4 isV4) b mem
        simpa [isDotted] using byte'
      · cases parsed
    · unfold Netip.parseV6 at parsed
      split at parsed
      · cases parsed
      · rcases Option.map_eq_some_iff.mp parsed with ⟨_, _, impossible⟩
        cases impossible
  · cases parsed

theorem isDotted_of_parseUnicast4
    (parsed : Netip.parseUnicast4 s = some ip) : ∀ b ∈ s, isDotted b := by
  rcases Option.filter_eq_some_iff.mp parsed with ⟨found, _⟩
  rcases Option.bind_eq_some_iff.mp found with ⟨addr, isAddr, isV4⟩
  cases addr with
  | v6 groups zone => cases isV4
  | v4 value => exact isDotted_of_parseAddr isAddr

theorem splitHost_of_port {head digits : Str} (isHost : url.host = head ++ byte ':' :: digits)
    (isPort : ∀ b ∈ digits, Str.isDigit b) :
    url.splitHost =
      if Str.hasPrefix head [byte '['] && Str.hasSuffix head [byte ']'] then
        ((head.drop 1).dropLast, digits)
      else (head, digits) := by
  have noColon : byte ':' ∉ digits := by
    intro mem
    exact absurd (isPort _ mem) (by decide)
  have valid : validOptionalPort (byte ':' :: digits) := by
    simpa [validOptionalPort] using isPort
  unfold splitHost
  rw [isHost, Str.lastIndex_byte head noColon]
  simp only [List.drop_left, List.take_left, valid, if_true]
  rw [← List.drop_drop, List.drop_left]
  rfl

variable {name rest authority : Str}

theorem hostname_literal {after : Str} (isHost : url.host = byte '[' :: name ++ byte ']' :: after)
    (valid : validOptionalPort after) : url.hostname = name := by
  have starts : Str.hasPrefix (byte '[' :: name ++ [byte ']']) [byte '['] :=
    Str.hasPrefix_append [byte '['] (name ++ [byte ']'])
  have ends : Str.hasSuffix (byte '[' :: name ++ [byte ']']) [byte ']'] :=
    Str.hasSuffix_iff.mpr (List.suffix_append _ _)
  have inner : ((byte '[' :: name ++ [byte ']']).drop 1).dropLast = name := by simp
  cases after with
  | nil =>
    -- The last colon is inside the brackets, so what follows it is not a port.
    have noPort : ∀ i, Str.lastIndex [byte ':'] url.host = some i →
        validOptionalPort (url.host.drop i) = false := by
      intro i found
      rw [← Bool.not_eq_true]
      intro isPort
      rcases Str.prefix_drop_of_lastIndex found with ⟨digits, isRest⟩
      have split : url.host = url.host.take i ++ byte ':' :: digits := by
        calc
          url.host = url.host.take i ++ url.host.drop i := (List.take_append_drop i _).symm
          _ = url.host.take i ++ byte ':' :: digits := by rw [← isRest]; rfl
      have last : (byte ':' :: digits).getLast? = some (byte ']') := by
        have whole := congrArg List.getLast? (isHost.symm.trans split)
        rw [List.getLast?_append, List.getLast?_append] at whole
        simpa using whole.symm
      rw [← isRest] at isPort
      have isLast := List.mem_of_getLast? last
      simp only [List.singleton_append, validOptionalPort, Bool.and_eq_true,
        List.all_eq_true] at isPort
      rcases List.mem_cons.mp isLast with isColon | isDigit
      · exact absurd isColon (by decide)
      · exact absurd (isPort.2 _ isDigit) (by decide)
    unfold hostname splitHost
    cases found : Str.lastIndex [byte ':'] url.host with
    | none => simp only [isHost, starts, ends, inner, Bool.and_self, if_true]
    | some i =>
      have invalid := noPort i found
      simp only [isHost] at invalid ⊢
      simp only [invalid, starts, ends, inner, Bool.and_self, if_true, Bool.false_eq_true,
        if_false]
  | cons b digits =>
    simp only [validOptionalPort, Bool.and_eq_true, beq_iff_eq, List.all_eq_true] at valid
    rcases valid with ⟨rfl, isPort⟩
    have isHost' : url.host = (byte '[' :: name ++ [byte ']']) ++ byte ':' :: digits := by
      rw [isHost]
      simp
    rw [hostname, splitHost_of_port isHost' isPort, starts, ends, inner]
    rfl

theorem host_of_port (hasPort : url.port ≠ []) :
    ∃ head, url.host = head ++ byte ':' :: url.port ∧ (∀ b ∈ url.port, Str.isDigit b) ∧
      (url.hostname = head ∨
        byte '[' ∈ head ∧ ∀ b ∈ head, b = byte '[' ∨ b = byte ']' ∨ b ∈ url.hostname) := by
  have isPort : ∃ i, Str.lastIndex [byte ':'] url.host = some i ∧
      validOptionalPort (url.host.drop i) = true := by
    by_contra missing
    push Not at missing
    refine hasPort ?_
    unfold port splitHost
    cases found : Str.lastIndex [byte ':'] url.host with
    | none =>
      simp only
      split_ifs <;> rfl
    | some i =>
      simp only [missing i found, Bool.false_eq_true, if_false]
      split_ifs <;> rfl
  rcases isPort with ⟨i, found, valid⟩
  rcases Str.prefix_drop_of_lastIndex found with ⟨digits, isRest⟩
  rw [← isRest] at valid
  simp only [List.singleton_append, validOptionalPort, Bool.and_eq_true, List.all_eq_true] at valid
  have isHost : url.host = url.host.take i ++ byte ':' :: digits := by
    calc
      url.host = url.host.take i ++ url.host.drop i := (List.take_append_drop i _).symm
      _ = url.host.take i ++ byte ':' :: digits := by rw [← isRest]; rfl
  have split := splitHost_of_port isHost valid.2
  refine ⟨url.host.take i, ?_⟩
  split_ifs at split with brackets
  · have isName : url.hostname = ((url.host.take i).drop 1).dropLast := congrArg Prod.fst split
    have isDigits : url.port = digits := congrArg Prod.snd split
    rw [isName, isDigits]
    simp only [Bool.and_eq_true, Str.hasPrefix_iff, Str.hasSuffix_iff] at brackets
    rcases brackets with ⟨⟨inner, starts⟩, ends⟩
    rw [← starts, List.singleton_append] at ends ⊢
    refine ⟨isHost.trans (by rw [← starts]; rfl), valid.2, Or.inr ⟨List.mem_cons_self, ?_⟩⟩
    rcases List.suffix_cons_iff.mp ends with impossible | ⟨name, isInner⟩
    · exact absurd (List.head_eq_of_cons_eq impossible) (by decide)
    · intro b mem
      rw [← isInner] at mem ⊢
      simp only [List.drop_succ_cons, List.drop_zero, List.dropLast_concat]
      simp only [List.mem_cons, List.mem_append, List.not_mem_nil, or_false] at mem
      tauto
  · have isName := congrArg Prod.fst split
    have isDigits : url.port = digits := congrArg Prod.snd split
    rw [isDigits]
    exact ⟨isHost, valid.2, Or.inl isName⟩

theorem eq_of_getScheme (isScheme : getScheme s = some (name, rest))
    (named : name ≠ []) : s = name ++ byte ':' :: rest := by
  unfold getScheme at isScheme
  simp only at isScheme
  split at isScheme
  · rename_i b after afterName
    split_ifs at isScheme with colon
    · split at isScheme
      · cases isScheme
      · split_ifs at isScheme
        · simp only [Option.some.injEq, Prod.mk.injEq] at isScheme
          rcases isScheme with ⟨rfl, rfl⟩
          have split := List.takeWhile_append_dropWhile
            (p := fun b => isLetter b || Str.isDigit b || b ∈ str "+-.") (l := s)
          have rest' : s.dropWhile (fun b => isLetter b || Str.isDigit b || b ∈ str "+-.") =
              byte ':' :: after := by
            rw [← colon, ← afterName]
            nth_rewrite 3 [← split]
            exact List.drop_left.symm
          rw [← rest', split]
        · exact absurd (congrArg Prod.fst (Option.some.inj isScheme)).symm named
    · exact absurd (congrArg Prod.fst (Option.some.inj isScheme)).symm named
  · exact absurd (congrArg Prod.fst (Option.some.inj isScheme)).symm named

theorem eq_of_cutQuery {force : Bool} (isQuery : cutQuery s = (force, rest, [])) :
    s = rest ++ if force then str "?" else [] := by
  unfold cutQuery at isQuery
  split_ifs at isQuery with only
  · simp only [Bool.and_eq_true] at only
    rcases Str.hasSuffix_iff.mp only.1 with ⟨before, rfl⟩
    simp only [List.dropLast_concat, Prod.mk.injEq, and_true] at isQuery
    rcases isQuery with ⟨rfl, rfl⟩
    rfl
  · simp only [Prod.mk.injEq] at isQuery
    rcases isQuery with ⟨rfl, isRest, noQuery⟩
    rcases Str.cut_cases (byte '?') s with ⟨_, isCut⟩ | ⟨head, after, absent, rfl, isCut⟩
    · rw [isCut] at isRest
      simp [← isRest]
    · rw [isCut] at noQuery
      obtain rfl : after = [] := noQuery
      refine absurd ?_ only
      rw [Str.hasSuffix_iff.mpr (List.suffix_append head [byte '?']), List.count_append,
        List.count_eq_zero.mpr absent]
      rfl

theorem endpoint_of_parseHost (parsed : parseHost authority = some url.host)
    (isAddress : Netip.parseUnicast4 url.hostname = some ip) (hasPort : url.port ≠ []) :
    ∃ address port, (∀ b ∈ address, isDotted b) ∧ (∀ b ∈ port, Str.isDigit b) ∧
      authority = address ++ byte ':' :: port ∧ url.host = authority := by
  unfold parseHost at parsed
  split at parsed
  · cases parsed
  · split at parsed
    · cases parsed
    · split_ifs at parsed with valid
      split at parsed
      · cases parsed
      · split at parsed
        · rename_i isV6
          have isName := hostname_literal (Option.some.inj parsed).symm valid
          rw [isName, Netip.parseUnicast4, isV6] at isAddress
          cases isAddress
        · cases parsed
  · rename_i noBracket
    have decoded : unescape .host authority = some url.host := by
      split at parsed
      · exact parsed
      · split_ifs at parsed
        exact parsed
    -- Without an escape the host is the authority, which has no bracket.
    have noLiteral : (∀ b ∈ url.host, b < 128 ∧ b ≠ byte '%') → byte '[' ∉ url.host := by
      intro plain mem
      rw [← eq_of_unescape_host decoded plain] at mem
      exact Str.lastIndex_eq_none.mp noBracket mem
    have dotted := isDotted_of_parseUnicast4 isAddress
    rcases host_of_port hasPort with ⟨head, isHost, digits, isName | ⟨bracket, inHead⟩⟩
    · subst isName
      have host := isHostByte_endpoint dotted digits
      rw [← isHost] at host
      have same := eq_of_unescape_host decoded fun b mem => plain_of_isHostByte (host b mem)
      exact ⟨_, _, dotted, digits, same.trans isHost, same.symm⟩
    · exfalso
      refine noLiteral ?_ ?_
      · intro b mem
        rw [isHost] at mem
        rcases List.mem_append.mp mem with mem | mem
        · rcases inHead b mem with rfl | rfl | inName
          · decide
          · decide
          · exact plain_of_isHostByte (isHostByte_of_isDotted (dotted b inName))
        · rcases List.mem_cons.mp mem with rfl | inPort
          · decide
          · exact plain_of_isHostByte
              (isHostByte_of_isDotted (isDotted_of_isDigit (digits b inPort)))
      · rw [isHost]
        exact List.mem_append_left _ bracket

theorem parseUnfragmented_of_parse (parsed : parse s = some url)
    (noFragment : url.fragment = []) : parseUnfragmented (s.cut (byte '#')).1 = some url := by
  unfold parse at parsed
  split at parsed
  · rename_i text isCut
    rw [isCut]
    exact parsed
  · rename_i text isCut
    rw [isCut]
    exact parsed
  · rename_i text fragment nonempty isCut
    rcases Option.bind_eq_some_iff.mp parsed with ⟨before, _, isSet⟩
    rcases Option.map_eq_some_iff.mp isSet with ⟨decoded, isDecoded, rfl⟩
    obtain rfl : decoded = [] := noFragment
    exact absurd (eq_nil_of_unescape isDecoded) (by simpa using nonempty)

theorem parseHost_of_parseAuthority {host : Str}
    (parsed : parseAuthority authority = some (none, host)) : parseHost authority = some host := by
  unfold parseAuthority at parsed
  split at parsed
  · rcases Option.map_eq_some_iff.mp parsed with ⟨host', isHost, same⟩
    cases same
    exact isHost
  · rcases Option.bind_eq_some_iff.mp parsed with ⟨host', _, checked⟩
    simp only at checked
    split_ifs at checked
    cases checked

theorem authority_of_parseUnfragmented {text : Str}
    (parsed : parseUnfragmented text = some url) (named : url.scheme ≠ []) (hosted : url.host ≠ [])
    (noUser : url.user = none) (noQuery : url.rawQuery = []) :
    ∃ name authority path, text = name ++ str "://" ++ authority ++ path ++
        (if url.forceQuery then str "?" else []) ∧
      name.toLower = url.scheme ∧ parseHost authority = some url.host ∧
      (path = [] ∨ path.head? = some (byte '/')) ∧ unescape .path path = some url.path ∧
      url =
        { scheme := url.scheme, host := url.host, path := url.path, forceQuery := url.forceQuery,
          rawPath := if path = escape .path url.path then [] else path } := by
  unfold parseUnfragmented at parsed
  split_ifs at parsed
  · obtain rfl := Option.some.inj parsed
    exact absurd rfl hosted
  · split at parsed
    · cases parsed
    · rename_i name after isScheme
      rcases isQuery : cutQuery after with ⟨force, rest, rawQuery⟩
      simp only [isQuery] at parsed
      split_ifs at parsed with rootless relative absolute
      · obtain rfl := Option.some.inj parsed
        exact absurd rfl hosted
      · split at parsed
        · cases parsed
        · rename_i user host isAuthority
          rcases Option.map_eq_some_iff.mp parsed with ⟨path, isPath, rfl⟩
          subst noUser noQuery
          simp only [Bool.and_eq_true, Str.hasPrefix_iff] at absolute
          rcases absolute.2 with ⟨rest', rfl⟩
          have hosts : (str "//" ++ rest').drop 2 = rest' := rfl
          have pathText : (str "//" ++ rest').drop
              (2 + (((str "//" ++ rest').drop 2).takeWhile (· != byte '/')).length) =
              rest'.dropWhile (· != byte '/') := by
            rw [← List.drop_drop, hosts, drop_length_takeWhile]
          rw [pathText] at isPath
          refine ⟨name, rest'.takeWhile (· != byte '/'), rest'.dropWhile (· != byte '/'), ?_, rfl,
            parseHost_of_parseAuthority isAuthority, ?_, isPath, ?_⟩
          · have isText := eq_of_getScheme isScheme fun empty => named (by rw [empty]; rfl)
            rw [isText, eq_of_cutQuery isQuery]
            have slashes : str "://" = byte ':' :: str "//" := by decide
            have split := List.takeWhile_append_dropWhile (p := (· != byte '/')) (l := rest')
            rw [slashes]
            nth_rewrite 1 [← split]
            simp
          · have stops := List.head?_dropWhile_not (· != byte '/') rest'
            cases after : rest'.dropWhile (· != byte '/') with
            | nil => exact Or.inl rfl
            | cons b tail =>
              rw [after] at stops
              right
              simpa using stops
          · simp [pathText]
      · rcases Option.map_eq_some_iff.mp parsed with ⟨path, isPath, rfl⟩
        exact absurd rfl hosted

theorem endpoint_of_parse (parsed : parse s = some url)
    (https : url.scheme = str "https") (noUser : url.user = none) (noQuery : url.rawQuery = [])
    (noFragment : url.fragment = []) (short : url.path = [] ∨ url.path = str "/")
    (isAddress : Netip.parseUnicast4 url.hostname = some ip) (hasPort : url.port ≠ []) :
    ∃ name address port slash force, (∀ b ∈ address, isDotted b) ∧
      (∀ b ∈ port, Str.isDigit b) ∧ name.length = 5 ∧
      (s.cut (byte '#')).1 =
        name ++ str "://" ++ (address ++ byte ':' :: port) ++ tail slash force ∧
      url = ofEndpoint address port slash force := by
  rcases host_of_port hasPort with ⟨head, isHost, _⟩
  rcases authority_of_parseUnfragmented (parseUnfragmented_of_parse parsed noFragment)
    (by rw [https]; decide) (by rw [isHost]; simp) noUser noQuery with
    ⟨name, authority, path, isText, isName, isAuthority, rooted, isPath, isUrl⟩
  rcases endpoint_of_parseHost isAuthority isAddress hasPort with
    ⟨address, port, dotted, digits, rfl, same⟩
  have length : name.length = 5 := by
    have lengths := congrArg List.length (isName.trans https)
    rw [Str.toLower, List.length_map] at lengths
    exact lengths
  rcases short with empty | isSlash
  · rw [empty] at isPath isUrl
    obtain rfl := eq_nil_of_unescape isPath
    refine ⟨name, address, port, false, url.forceQuery, dotted, digits, length, ?_, ?_⟩
    · rw [isText]
      simp [tail]
    · rw [isUrl, https, same]
      rfl
  · rw [isSlash] at isPath isUrl
    have isPath' : path = str "/" := by
      rcases rooted with rfl | starts
      · cases isPath
      · cases path with
        | nil => cases starts
        | cons b after =>
          obtain rfl : b = byte '/' := Option.some.inj starts
          rw [unescape_cons (by decide), if_neg (by decide)] at isPath
          rcases Option.map_eq_some_iff.mp isPath with ⟨decoded, isDecoded, isSame⟩
          obtain rfl : decoded = [] := List.tail_eq_of_cons_eq isSame
          rw [eq_nil_of_unescape isDecoded]
          rfl
    subst isPath'
    refine ⟨name, address, port, true, url.forceQuery, dotted, digits, length, ?_, ?_⟩
    · rw [isText]
      simp [tail]
    · rw [isUrl, https, same]
      rfl

end Url

end Kiac
