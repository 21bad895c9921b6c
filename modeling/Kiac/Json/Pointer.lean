import Kiac.Text.Basic

/-!
# The text of a path

RFC 6901 writes a path as its reference tokens with a slash before each. In a token, `~1` stands
for a slash and `~0` for a tilde. A path is read back from its text.
-/

namespace Kiac.Json

/-- A token in a text. -/
def escape (token : Str) : Str :=
  token.flatMap fun b =>
    if b = byte '~' then str "~0" else if b = byte '/' then str "~1" else [b]

def unescape : Str → Str
  | [] => []
  | [b] => [b]
  | b :: c :: rest =>
    if b = byte '~' ∧ c = byte '1' then byte '/' :: unescape rest
    else if b = byte '~' ∧ c = byte '0' then byte '~' :: unescape rest
    else b :: unescape (c :: rest)

/-- The text of a path. -/
def pointer (path : List Str) : Str := path.flatMap fun token => byte '/' :: escape token

/-- The path that a text stands for. -/
def parsePointer : Str → Option (List Str)
  | [] => some []
  | b :: rest =>
    if b = byte '/' then some ((rest.splitOn (byte '/')).map unescape) else none

@[simp]
theorem escape_cons (b : UInt8) (token : Str) :
    escape (b :: token) = (if b = byte '~' then str "~0" else if b = byte '/' then str "~1" else [b]) ++
      escape token := by
  simp [escape]

@[simp]
theorem pointer_cons (token : Str) (path : List Str) :
    pointer (token :: path) = byte '/' :: escape token ++ pointer path := by
  simp [pointer]

theorem unescape_cons {b : UInt8} {rest : Str} (plain : b ≠ byte '~') :
    unescape (b :: rest) = b :: unescape rest := by
  cases rest with
  | nil => rfl
  | cons c rest => simp [unescape, plain]

theorem unescape_escape (token : Str) : unescape (escape token) = token := by
  induction token with
  | nil => rfl
  | cons b token ih =>
    rw [escape_cons]
    split_ifs with isTilde isSlash
    · have tilde : str "~0" = [byte '~', byte '0'] := by decide
      rw [tilde, isTilde]
      simp [unescape, ih]
      decide
    · have slash : str "~1" = [byte '~', byte '1'] := by decide
      rw [slash, isSlash]
      simp [unescape, ih]
    · rw [List.singleton_append, unescape_cons isTilde, ih]

theorem slash_notMem_escape (token : Str) : byte '/' ∉ escape token := by
  induction token with
  | nil => simp [escape]
  | cons b token ih =>
    rw [escape_cons, List.mem_append, not_or]
    refine ⟨?_, ih⟩
    split_ifs with isTilde isSlash
    · decide
    · decide
    · simpa using Ne.symm isSlash

theorem splitOn_pointer (token : Str) (path : List Str) :
    (escape token ++ pointer path).splitOn (byte '/') = escape token :: path.map escape := by
  induction path generalizing token with
  | nil =>
    rw [pointer, List.flatMap_nil, List.append_nil]
    exact List.splitOn_eq_singleton (slash_notMem_escape token)
  | cons next path ih =>
    rw [pointer_cons, List.cons_append,
      List.splitOn_append_cons_self_of_not_mem (slash_notMem_escape token), ih]
    rfl

theorem parsePointer_pointer (path : List Str) : parsePointer (pointer path) = some path := by
  cases path with
  | nil => rfl
  | cons token path =>
    rw [pointer_cons, List.cons_append, parsePointer, if_pos rfl, splitOn_pointer]
    simp [unescape_escape, Function.comp_def]

end Kiac.Json
