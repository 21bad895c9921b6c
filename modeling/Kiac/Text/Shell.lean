import Kiac.Text.Basic

/-!
# Commands and words of the shell

How a POSIX shell splits a command string into commands and words, by its quotes, backslashes,
operators and substitutions. Here-documents, comments, backquotes and braced parameters are refused,
and so is the NUL byte, which no command string can contain.
-/

namespace Kiac.Shell

inductive Context where
  | single
  | double
  | paren
deriving DecidableEq

/-- What the last byte means for the next one. -/
inductive Pending where
  | nothing
  | backslash
  | dollar
  | redirection
deriving DecidableEq

/-- Where a scan stands, with the innermost open context first. -/
structure Position where
  inside : List Context
  pending : Pending
  inWord : Bool
deriving DecidableEq

/-- What a byte adds to the tokens; a special byte belongs to an expansion or a pattern. -/
inductive Action where
  | skip
  | quoted (bytes : Str)
  | special
  | blank
  | operator (b : UInt8)
  | control
deriving DecidableEq

inductive Token where
  | word (text : Str) (literal : Bool)
  | operator (b : UInt8)
deriving DecidableEq

structure Tokens where
  word : Option (Str × Bool)
  tokens : List Token
  commands : List (List Token)

/-- The position at the start of a text, or after a blank. -/
def start : Position := ⟨[], .nothing, false⟩

namespace Position

def readDouble (p : Position) (b : UInt8) : Option (Action × Position) :=
  let next := { p with pending := .nothing }
  if p.pending = .backslash then
    some (.quoted (if b ∈ str "$`\"\\" then [b] else if b = byte '\n' then [] else [byte '\\', b]),
      next)
  else if b = byte '"' then some (.quoted [], { next with inside := p.inside.tail })
  else if b = byte '\\' then some (.quoted [], { p with pending := .backslash })
  else if b = byte '$' then some (.special, { p with pending := .dollar })
  else if p.pending = .dollar ∧ b = byte '(' then
    some (.special, ⟨.paren :: p.inside, .nothing, false⟩)
  else if b = byte '`' ∨ p.pending = .dollar ∧ b = byte '\x7b' then none
  else some (.quoted [b], next)

def readUnquoted (p : Position) (b : UInt8) : Option (Action × Position) :=
  let next := { p with pending := .nothing, inWord := true }
  let apart := { p with pending := .nothing, inWord := false }
  if p.pending = .backslash then
    if b = byte '\n' then some (.skip, { p with pending := .nothing }) else some (.quoted [b], next)
  else if b = byte '\'' then some (.quoted [], { next with inside := .single :: p.inside })
  else if b = byte '"' then some (.quoted [], { next with inside := .double :: p.inside })
  else if b = byte '\\' then some (.skip, { p with pending := .backslash })
  else if b = byte '$' then some (.special, { next with pending := .dollar })
  else if b = byte '(' then
    some (if p.pending = .dollar then .special else .operator b,
      { apart with inside := .paren :: p.inside })
  else if b = byte ')' then
    if p.inside = [] then none else some (.special, { next with inside := p.inside.tail })
  else if b = byte '`' ∨ p.pending = .dollar ∧ b = byte '\x7b' ∨
      p.inWord = false ∧ b = byte '#' ∨ p.pending = .redirection ∧ b = byte '<' then none
  else if b ∈ str "<>" then some (.operator b, { apart with pending := .redirection })
  else if p.pending = .redirection ∧ b = byte '&' then some (.operator b, apart)
  else if b ∈ str ";&|\n" then some (.control, apart)
  else if b ∈ str " \t" then some (.blank, apart)
  else if b ∈ str "*?[~" then some (.special, next)
  else some (.quoted [b], next)

/-- What a byte means at a position, and the position after it. -/
def read (p : Position) (b : UInt8) : Option (Action × Position) :=
  if b = 0 then none
  else match p.inside with
    | .single :: outer =>
      if b = byte '\'' then some (.quoted [], { p with inside := outer }) else some (.quoted [b], p)
    | .double :: _ => p.readDouble b
    | _ => p.readUnquoted b

/-- The position after a text. -/
def travel : Str → Position → Option Position
  | [], p => some p
  | b :: rest, p => (p.read b).bind fun result => travel rest result.2

end Position

namespace Tokens

def endWord (t : Tokens) : Tokens :=
  match t.word with
  | some (text, literal) => { t with word := none, tokens := t.tokens ++ [.word text literal] }
  | none => t

def endCommand (t : Tokens) : Tokens :=
  let ended := t.endWord
  if ended.tokens = [] then ended
  else { ended with tokens := [], commands := ended.commands ++ [ended.tokens] }

def add (t : Tokens) : Action → Tokens
  | .skip => t
  | .quoted bytes => { t with word := some (((t.word.getD ([], true)).1 ++ bytes),
      (t.word.getD ([], true)).2) }
  | .special => { t with word := some ((t.word.getD ([], true)).1, false) }
  | .blank => t.endWord
  | .operator b => { t.endWord with tokens := t.endWord.tokens ++ [.operator b] }
  | .control => t.endCommand

end Tokens

/-- The text inside parentheses belongs to the word around them. -/
def scan : Str → Position × Tokens → Option (Position × Tokens)
  | [], state => some state
  | b :: rest, (p, tokens) =>
    (p.read b).bind fun (action, next) =>
      scan rest (next, tokens.add (if .paren ∈ p.inside then .special else action))

/-- The commands of a text, each as its tokens. -/
def commands (s : Str) : Option (List (List Token)) :=
  (scan s (start, ⟨none, [], []⟩)).bind fun (p, tokens) =>
    if p.inside = [] ∧ p.pending ≠ .backslash then some tokens.endCommand.commands else none

/-- The text of a word that nothing is expanded in. -/
def Token.value : Token → Option Str
  | .word text true => some text
  | _ => none

/-- The words of a text that is one command. -/
def words (s : Str) : Option (List Str) :=
  match commands s with
  | some [] => some []
  | some [tokens] => tokens.mapM Token.value
  | _ => none

/-- A text in single quotes, with its own quotes outside of them. -/
def quote (s : Str) : Str :=
  byte '\'' :: s.flatMap (fun b => if b = byte '\'' then str "'\\''" else [b]) ++ [byte '\'']

variable {s t : Str} {state : Position × Tokens} {p q : Position}

theorem scan_append : scan (s ++ t) state = (scan s state).bind (scan t) := by
  induction s generalizing state with
  | nil => rfl
  | cons b rest ih => simp [scan, ih, Option.bind_assoc]

theorem exists_scan (travels : p.travel s = some q) (tokens : Tokens) :
    ∃ after, scan s (p, tokens) = some (q, after) := by
  induction s generalizing p tokens with
  | nil => exact ⟨tokens, congrArg (fun q => some (q, tokens)) (Option.some.inj travels)⟩
  | cons b rest ih =>
    rcases Option.bind_eq_some_iff.mp travels with ⟨result, isRead, travels⟩
    rcases ih travels _ with ⟨after, scanned⟩
    exact ⟨after, by simpa [scan, isRead] using scanned⟩

theorem travel_append : p.travel (s ++ t) = (p.travel s).bind (Position.travel t) := by
  induction s generalizing p with
  | nil => rfl
  | cons b rest ih => simp [Position.travel, ih, Option.bind_assoc]

theorem Tokens.endCommand_eq (tokens : Tokens) :
    tokens.endCommand = ⟨none, [], tokens.endCommand.commands⟩ := by
  rcases tokens with ⟨word, tokens, commands⟩
  cases word with
  | none => by_cases isEmpty : tokens = [] <;> simp [endCommand, endWord, isEmpty]
  | some word => simp [endCommand, endWord]

/-- The position at the end of a word. -/
def wordEnd : Position := ⟨[], .nothing, true⟩

theorem scan_quoted (noNul : 0 ∉ s) (text : Str) (tokens : List Token)
    (commands : List (List Token)) :
    scan (s.flatMap (fun b => if b = byte '\'' then str "'\\''" else [b]) ++ [byte '\''])
      (⟨[.single], .nothing, true⟩, ⟨some (text, true), tokens, commands⟩) =
      some (wordEnd, ⟨some (text ++ s, true), tokens, commands⟩) := by
  induction s generalizing text with
  | nil => rfl
  | cons b rest ih =>
    have after := ih (List.not_mem_of_not_mem_cons noNul) (text ++ [b])
    rw [List.append_assoc] at after
    rw [List.flatMap_cons, List.append_assoc]
    by_cases isQuote : b = byte '\''
    · subst isQuote
      have escaped : scan (str "'\\''")
          (⟨[.single], .nothing, true⟩, ⟨some (text, true), tokens, commands⟩) =
          some (⟨[.single], .nothing, true⟩,
            ⟨some (text ++ [] ++ [byte '\''] ++ [], true), tokens, commands⟩) := rfl
      rw [List.append_nil, List.append_nil] at escaped
      rw [if_pos rfl, scan_append, escaped]
      exact after
    · have isByte : b ≠ 0 := fun same => noNul (same ▸ List.mem_cons_self)
      simpa [scan, Position.read, isByte, isQuote, Tokens.add] using after

theorem scan_quote (noNul : 0 ∉ s) (tokens : List Token) (commands : List (List Token)) :
    scan (quote s) (start, ⟨none, tokens, commands⟩) =
      some (wordEnd, ⟨some (s, true), tokens, commands⟩) :=
  scan_quoted noNul [] tokens commands

theorem scan_quotes {args : List Str} (noNul : ∀ arg ∈ args, 0 ∉ arg) (text : Str)
    (tokens : List Token) (commands : List (List Token)) :
    ∃ after, scan (args.flatMap fun arg => byte ' ' :: quote arg)
        (wordEnd, ⟨some (text, true), tokens, commands⟩) = some (wordEnd, after) ∧
      after.endWord = ⟨none, tokens ++ (text :: args).map (.word · true), commands⟩ := by
  induction args generalizing text tokens with
  | nil => exact ⟨_, rfl, rfl⟩
  | cons arg args ih =>
    rcases List.forall_mem_cons.mp noNul with ⟨here, rest⟩
    rcases ih rest arg (tokens ++ [.word text true]) with ⟨after, scanned, ends⟩
    refine ⟨after, ?_, by simpa using ends⟩
    have blank : scan [byte ' '] (wordEnd, ⟨some (text, true), tokens, commands⟩) =
        some (start, ⟨none, tokens ++ [.word text true], commands⟩) := rfl
    rw [List.flatMap_cons, ← List.singleton_append, List.append_assoc, scan_append, blank,
      Option.bind_some, scan_append, scan_quote here]
    exact scanned

end Kiac.Shell
