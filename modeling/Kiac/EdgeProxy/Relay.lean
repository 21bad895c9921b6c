import Kiac.EdgeProxy.Tunnel
import Kiac.Program.Fair
import Kiac.Text.Reader

/-!
# Relayed streams

`proxyTCP` copies the bytes of two connections to each other in two goroutines, each of which
reports on a channel when it ends. A copy that reads the end of its stream closes its direction
alone. When the first report is an error, the deadlines of both connections are set to the past, so
that the other copy fails as well. The steps of the goroutines are interleaved with each other and
with what the peers do.
-/

namespace Kiac.EdgeProxy

inductive Side where
  | client
  | backend
deriving DecidableEq, Repr

def Side.other : Side → Side
  | client => backend
  | backend => client

structure Conn where
  sent : Str
  incoming : Str
  ended : Bool
  received : Str
  readFails : Bool
  writeFails : Bool
  readClosed : Bool
  writeClosed : Bool
  expired : Bool

/-- Where a goroutine is in `copyTCP`, and whether `io.Copy` returned without an error. -/
inductive Phase where
  | copying
  | closingWrite (clean : Bool)
  | closingRead (clean : Bool)
  | reporting (clean : Bool)
  | ended (clean : Bool)
deriving DecidableEq, Repr

/-- How `io.Copy` has ended. -/
def Phase.outcome : Phase → Option Bool
  | copying => none
  | closingWrite clean => some clean
  | closingRead clean => some clean
  | reporting clean => some clean
  | ended clean => some clean

def Phase.reports : Phase → ℕ
  | ended _ => 1
  | _ => 0

/-- A copy, with what the buffered reader holds and what has been read and not yet written. -/
structure Copy where
  buffered : Str
  chunk : Str
  phase : Phase

/-- Where `proxyTCP` is. -/
inductive Main where
  | first
  | deadlineClient
  | deadlineBackend
  | second
  | returned
deriving DecidableEq, Repr

def Main.taken : Main → ℕ
  | first => 0
  | deadlineClient => 1
  | deadlineBackend => 1
  | second => 1
  | returned => 2

/-- Two connections with their copies; a report on the channel is whether there was no error. -/
structure Relay where
  conns : Side → Conn
  copies : Side → Copy
  errc : List Bool
  main : Main

namespace Relay

variable (relay : Relay)

def setConn (side : Side) (conn : Conn) : Relay :=
  { relay with conns := Function.update relay.conns side conn }

def setCopy (side : Side) (copy : Copy) : Relay :=
  { relay with copies := Function.update relay.copies side copy }

def setPhase (side : Side) (phase : Phase) : Relay :=
  relay.setCopy side { relay.copies side with phase := phase }

def ReadFails (side : Side) : Prop :=
  (relay.conns side).readFails = true ∨ (relay.conns side).expired = true

def WriteFails (side : Side) : Prop :=
  (relay.conns side).writeFails = true ∨ (relay.conns side).expired = true ∨
    (relay.conns side).writeClosed = true

end Relay

inductive Actor where
  | main
  | copy (source : Side)
  | peer (side : Side)
deriving DecidableEq

/-- The steps of the peers, of the two copies and of `proxyTCP`. -/
inductive Move : Moves Relay Actor
  | send {relay : Relay} (side : Side) (bytes : Str) (isOpen : (relay.conns side).ended = false) :
      Move (.peer side) relay (relay.setConn side { relay.conns side with
        sent := (relay.conns side).sent ++ bytes, incoming := (relay.conns side).incoming ++ bytes })
  | finish {relay : Relay} (side : Side) :
      Move (.peer side) relay (relay.setConn side { relay.conns side with ended := true })
  | breakRead {relay : Relay} (side : Side) :
      Move (.peer side) relay (relay.setConn side { relay.conns side with readFails := true })
  | breakWrite {relay : Relay} (side : Side) :
      Move (.peer side) relay (relay.setConn side { relay.conns side with writeFails := true })
  /-- The bytes in the buffer are written first. -/
  | flush {relay : Relay} (side : Side) (phase : (relay.copies side).phase = .copying)
      (written : (relay.copies side).chunk = []) (held : (relay.copies side).buffered ≠ []) :
      Move (.copy side) relay (relay.setCopy side
        { relay.copies side with chunk := (relay.copies side).buffered, buffered := [] })
  /-- A read returns some of the bytes that have arrived. -/
  | read {relay : Relay} (side : Side) {bytes rest : Str}
      (phase : (relay.copies side).phase = .copying) (written : (relay.copies side).chunk = [])
      (flushed : (relay.copies side).buffered = []) (works : ¬ relay.ReadFails side)
      (arrived : (relay.conns side).incoming = bytes ++ rest) (some' : bytes ≠ []) :
      Move (.copy side) relay ((relay.setConn side { relay.conns side with incoming := rest }).setCopy
        side { relay.copies side with chunk := bytes })
  | readEnd {relay : Relay} (side : Side) (phase : (relay.copies side).phase = .copying)
      (written : (relay.copies side).chunk = []) (flushed : (relay.copies side).buffered = [])
      (works : ¬ relay.ReadFails side) (nothing : (relay.conns side).incoming = [])
      (ended : (relay.conns side).ended = true) :
      Move (.copy side) relay (relay.setPhase side (.closingWrite true))
  | readError {relay : Relay} (side : Side) (phase : (relay.copies side).phase = .copying)
      (written : (relay.copies side).chunk = []) (flushed : (relay.copies side).buffered = [])
      (fails : relay.ReadFails side) :
      Move (.copy side) relay (relay.setPhase side (.closingWrite false))
  /-- A write may take several steps. -/
  | write {relay : Relay} (side : Side) {bytes rest : Str}
      (phase : (relay.copies side).phase = .copying)
      (pending : (relay.copies side).chunk = bytes ++ rest) (some' : bytes ≠ [])
      (works : ¬ relay.WriteFails side.other) :
      Move (.copy side) relay ((relay.setConn side.other { relay.conns side.other with
        received := (relay.conns side.other).received ++ bytes }).setCopy side
          { relay.copies side with chunk := rest })
  | writeError {relay : Relay} (side : Side) (phase : (relay.copies side).phase = .copying)
      (pending : (relay.copies side).chunk ≠ []) (fails : relay.WriteFails side.other) :
      Move (.copy side) relay (relay.setPhase side (.closingWrite false))
  /-- `dst.CloseWrite`. -/
  | closeWrite {relay : Relay} (side : Side) {clean : Bool}
      (phase : (relay.copies side).phase = .closingWrite clean) :
      Move (.copy side) relay ((relay.setConn side.other { relay.conns side.other with
        writeClosed := true }).setPhase side (.closingRead clean))
  /-- `src.CloseRead`. -/
  | closeRead {relay : Relay} (side : Side) {clean : Bool}
      (phase : (relay.copies side).phase = .closingRead clean) :
      Move (.copy side) relay ((relay.setConn side { relay.conns side with
        readClosed := true }).setPhase side (.reporting clean))
  /-- The channel holds two reports. -/
  | report {relay : Relay} (side : Side) {clean : Bool}
      (phase : (relay.copies side).phase = .reporting clean) (room : relay.errc.length < 2) :
      Move (.copy side) relay { relay.setPhase side (.ended clean) with errc := relay.errc ++ [clean] }
  | takeFirst {relay : Relay} {clean : Bool} {rest : List Bool} (at' : relay.main = .first)
      (reported : relay.errc = clean :: rest) :
      Move .main relay { relay with errc := rest, main := if clean then .second else .deadlineClient }
  | expireClient {relay : Relay} (at' : relay.main = .deadlineClient) :
      Move .main relay { relay.setConn .client { relay.conns .client with expired := true } with
        main := .deadlineBackend }
  | expireBackend {relay : Relay} (at' : relay.main = .deadlineBackend) :
      Move .main relay { relay.setConn .backend { relay.conns .backend with expired := true } with
        main := .second }
  | takeSecond {relay : Relay} {clean : Bool} {rest : List Bool} (at' : relay.main = .second)
      (reported : relay.errc = clean :: rest) :
      Move .main relay { relay with errc := rest, main := .returned }

@[simp]
theorem Side.other_other (side : Side) : side.other.other = side := by cases side <;> rfl

namespace Relay

variable (relay : Relay)

@[simp]
theorem setConn_conns (side side' : Side) (conn : Conn) :
    (relay.setConn side conn).conns side' = if side' = side then conn else relay.conns side' := by
  simp [setConn, Function.update_apply]

@[simp]
theorem setConn_copies (side : Side) (conn : Conn) : (relay.setConn side conn).copies = relay.copies := rfl

@[simp]
theorem setConn_errc (side : Side) (conn : Conn) : (relay.setConn side conn).errc = relay.errc := rfl

@[simp]
theorem setConn_main (side : Side) (conn : Conn) : (relay.setConn side conn).main = relay.main := rfl

@[simp]
theorem setCopy_copies (side side' : Side) (copy : Copy) :
    (relay.setCopy side copy).copies side' = if side' = side then copy else relay.copies side' := by
  simp [setCopy, Function.update_apply]

@[simp]
theorem setCopy_conns (side : Side) (copy : Copy) : (relay.setCopy side copy).conns = relay.conns := rfl

@[simp]
theorem setCopy_errc (side : Side) (copy : Copy) : (relay.setCopy side copy).errc = relay.errc := rfl

@[simp]
theorem setCopy_main (side : Side) (copy : Copy) : (relay.setCopy side copy).main = relay.main := rfl

@[simp]
theorem setPhase_copies (side side' : Side) (phase : Phase) :
    (relay.setPhase side phase).copies side' =
      if side' = side then { relay.copies side with phase := phase } else relay.copies side' := by
  simp [setPhase]

@[simp]
theorem setPhase_conns (side : Side) (phase : Phase) : (relay.setPhase side phase).conns = relay.conns := rfl

@[simp]
theorem setPhase_errc (side : Side) (phase : Phase) : (relay.setPhase side phase).errc = relay.errc := rfl

@[simp]
theorem setPhase_main (side : Side) (phase : Phase) : (relay.setPhase side phase).main = relay.main := rfl

def Flows (side : Side) : Prop :=
  (relay.conns side.other).received ++ (relay.copies side).chunk ++ (relay.copies side).buffered ++
    (relay.conns side).incoming = (relay.conns side).sent

def Drained (side : Side) : Prop :=
  (relay.copies side).phase.outcome = some true → (relay.copies side).chunk = [] ∧
    (relay.copies side).buffered = [] ∧ (relay.conns side).incoming = [] ∧
    (relay.conns side).ended = true

def Opened (side : Side) : Prop :=
  (relay.copies side).phase = .copying →
    (relay.conns side.other).writeClosed = false ∧ (relay.conns side).readClosed = false

def Failed : Prop := ∃ side, (relay.copies side).phase = .ended false

structure Reported : Prop where
  channel : ∀ clean ∈ relay.errc, ∃ side, (relay.copies side).phase = .ended clean
  expiring : relay.main = .deadlineClient ∨ relay.main = .deadlineBackend → relay.Failed
  expired : ∀ side, (relay.conns side).expired = true → relay.Failed

def reports : ℕ := (relay.copies .client).phase.reports + (relay.copies .backend).phase.reports

def Counted : Prop := relay.errc.length + relay.main.taken = relay.reports

end Relay

section Invariants

variable {actor : Actor} {relay next : Relay}

theorem Move.flows (move : Move actor relay next) (flows : ∀ side, relay.Flows side) (side' : Side) :
    next.Flows side' := by
  have here := flows side'
  unfold Relay.Flows at here ⊢
  cases move with
  | send side bytes isOpen => cases side <;> cases side' <;> simp_all [Side.other, ← here]
  | flush side | read side | write side => cases side <;> cases side' <;> simp_all [Side.other]
  | finish side | breakRead side | breakWrite side | readEnd side | readError side | writeError side
  | closeWrite side | closeRead side | report side =>
    cases side <;> cases side' <;> simp_all [Side.other]
  | expireClient | expireBackend => cases side' <;> simp_all [Side.other]
  | takeFirst | takeSecond => exact here

theorem Move.drained (move : Move actor relay next) (drained : ∀ side, relay.Drained side)
    (side' : Side) : next.Drained side' := by
  have here := drained side'
  unfold Relay.Drained at here ⊢
  cases move with
  | readEnd side | readError side | writeError side =>
    cases side <;> cases side' <;> simp_all [Phase.outcome]
  | send side | finish side | breakRead side | breakWrite side =>
    cases side <;> cases side' <;> simp_all
  | flush side | read side | write side =>
    cases side <;> cases side' <;> simp_all [Side.other, Phase.outcome]
  | closeWrite side | closeRead side | report side =>
    cases side <;> cases side' <;> simp_all [Side.other, Phase.outcome]
  | expireClient | expireBackend => cases side' <;> simp_all
  | takeFirst | takeSecond => exact here

theorem Move.opened (move : Move actor relay next) (opened : ∀ side, relay.Opened side)
    (side' : Side) : next.Opened side' := by
  have here := opened side'
  unfold Relay.Opened at here ⊢
  cases move with
  | send side | finish side | breakRead side | breakWrite side | flush side | read side | write side
  | readEnd side | readError side | writeError side | closeWrite side | closeRead side
  | report side => cases side <;> cases side' <;> simp_all [Side.other]
  | expireClient | expireBackend => cases side' <;> simp_all [Side.other]
  | takeFirst | takeSecond => exact here

theorem Move.ended (move : Move actor relay next) {side' : Side} {clean : Bool}
    (ended : (relay.copies side').phase = .ended clean) : (next.copies side').phase = .ended clean := by
  cases move with
  | flush side | read side | write side | readEnd side | readError side | writeError side
  | closeWrite side | closeRead side | report side => cases side <;> cases side' <;> simp_all
  | send | finish | breakRead | breakWrite | takeFirst | takeSecond | expireClient
  | expireBackend => exact ended

theorem Move.counted (move : Move actor relay next) (counted : relay.Counted) : next.Counted := by
  unfold Relay.Counted Relay.reports at counted ⊢
  cases move with
  | flush side | read side | write side | readEnd side | readError side | writeError side
  | closeWrite side | closeRead side =>
    cases side <;> simp_all [Phase.reports]
  | report side => cases side <;> simp_all [Phase.reports] <;> omega
  | takeFirst at' reported =>
    rename_i clean rest
    cases clean <;> simp_all [Main.taken]
  | takeSecond at' reported => simp_all [Main.taken]
  | send | finish | breakRead | breakWrite => exact counted
  | expireClient at' | expireBackend at' => simp_all [Main.taken]

theorem Move.failed (move : Move actor relay next) (failed : relay.Failed) : next.Failed := by
  rcases failed with ⟨side, ended⟩
  exact ⟨side, move.ended ended⟩

theorem Move.reported (move : Move actor relay next) (reported : relay.Reported) : next.Reported := by
  have later : ∀ clean ∈ relay.errc, ∃ side, (next.copies side).phase = .ended clean := by
    intro clean mem
    rcases reported.channel clean mem with ⟨side, ended⟩
    exact ⟨side, move.ended ended⟩
  have expiring : relay.main = .deadlineClient ∨ relay.main = .deadlineBackend → next.Failed :=
    fun at' => move.failed (reported.expiring at')
  have expired : ∀ side, (relay.conns side).expired = true → next.Failed :=
    fun side at' => move.failed (reported.expired side at')
  cases move with
  | flush side | readEnd side | readError side | writeError side =>
    exact ⟨later, expiring, expired⟩
  | send side | finish side | breakRead side | breakWrite side | read side | write side
  | closeWrite side | closeRead side =>
    refine ⟨later, expiring, fun side' => ?_⟩
    cases side <;> cases side' <;> simpa [Side.other] using expired _
  | report side phase =>
    refine ⟨fun clean mem => ?_, expiring, expired⟩
    rcases List.mem_append.mp mem with before | new
    · exact later clean before
    · obtain rfl := List.mem_singleton.mp new
      exact ⟨side, by simp⟩
  | takeFirst at' first =>
    rename_i clean rest
    refine ⟨fun other mem => later other (first ▸ List.mem_cons_of_mem _ mem), fun at'' => ?_, expired⟩
    cases clean with
    | true => rcases at'' with impossible | impossible <;> cases impossible
    | false => exact later false (first ▸ List.mem_cons_self)
  | expireClient at' | expireBackend at' =>
    have failedNow := expiring (by simp [at'])
    exact ⟨later, fun _ => failedNow, fun _ _ => failedNow⟩
  | takeSecond at' second =>
    refine ⟨fun other mem => later other (second ▸ List.mem_cons_of_mem _ mem), fun at'' => ?_, expired⟩
    rcases at'' with impossible | impossible <;> cases impossible

structure Relay.Sound (relay : Relay) : Prop where
  flows : ∀ side, relay.Flows side
  drained : ∀ side, relay.Drained side
  opened : ∀ side, relay.Opened side
  reported : relay.Reported
  counted : relay.Counted

theorem Relay.Sound.move (sound : relay.Sound) (move : Move actor relay next) : next.Sound :=
  ⟨move.flows sound.flows, move.drained sound.drained, move.opened sound.opened,
    move.reported sound.reported, move.counted sound.counted⟩

namespace Relay.Sound

variable (sound : relay.Sound)

include sound

theorem received_le (side : Side) :
    (relay.conns side.other).received <+: (relay.conns side).sent := by
  have flows := sound.flows side
  unfold Relay.Flows at flows
  rw [List.append_assoc, List.append_assoc] at flows
  exact ⟨_, flows⟩

theorem received_eq {side : Side} (clean : (relay.copies side).phase.outcome = some true) :
    (relay.conns side.other).received = (relay.conns side).sent := by
  rcases sound.drained side clean with ⟨chunk, buffered, incoming, _⟩
  simpa [Relay.Flows, chunk, buffered, incoming] using sound.flows side

theorem other_open {side : Side} (copying : (relay.copies side).phase = .copying)
    (clean : (relay.copies side.other).phase.outcome = some true) :
    ((relay.conns side.other).writeClosed = false ∧ (relay.conns side).readClosed = false) ∧
      ∀ conn, (relay.conns conn).expired = false := by
  refine ⟨sound.opened side copying, fun conn => ?_⟩
  rw [Bool.eq_false_iff]
  intro expired
  rcases sound.reported.expired conn expired with ⟨failed, ended⟩
  cases failed <;> cases side <;> simp_all [Side.other, Phase.outcome]

theorem over_of_returned (returned : relay.main = .returned) (side : Side) :
    ∃ clean, (relay.copies side).phase = .ended clean := by
  have counted := sound.counted
  simp only [Relay.Counted, Relay.reports, returned, Main.taken] at counted
  have most : ∀ phase : Phase, phase.reports ≤ 1 := by
    intro phase
    cases phase <;> simp [Phase.reports]
  have both := most (relay.copies .client).phase
  have both' := most (relay.copies .backend).phase
  have reports : (relay.copies side).phase.reports = 1 := by
    cases side <;> omega
  cases phase : (relay.copies side).phase with
  | ended clean => exact ⟨clean, rfl⟩
  | _ => simp [phase, Phase.reports] at reports

end Relay.Sound

end Invariants

def Conn.opened (sent incoming : Str) : Conn :=
  ⟨sent, incoming, false, [], false, false, false, false, false⟩

/-- The start of `proxyTCP`: the reader of the client holds some bytes, and others have arrived. -/
def Relay.start (buffered incoming : Str) : Relay where
  conns
    | .client => .opened (buffered ++ incoming) incoming
    | .backend => .opened [] []
  copies
    | .client => ⟨buffered, [], .copying⟩
    | .backend => ⟨[], [], .copying⟩
  errc := []
  main := .first

theorem Relay.sound_start (buffered incoming : Str) : (Relay.start buffered incoming).Sound where
  flows side := by cases side <;> simp [Relay.Flows, Relay.start, Conn.opened, Side.other]
  drained side clean := by cases side <;> cases clean
  opened side _ := by cases side <;> exact ⟨rfl, rfl⟩
  reported := by
    refine ⟨fun _ mem => absurd mem List.not_mem_nil, ?_, fun side expired => ?_⟩
    · rintro (impossible | impossible) <;> cases impossible
    · cases side <;> cases expired
  counted := rfl

/-- `handleTunnel` on a stream that arrives in parts: the target that is dialled, and the
connections when the copies start. -/
def openTunnel (app : App) (routes : RouteTable) (segments : List Segment) : Option (Str × Relay) :=
  match Bufio.readSlice 512 (byte '\n') [] segments with
  | .error _ => none
  | .ok read =>
    match authenticateTunnelHeader read.line app.tunnelToken with
    | none => none
    | some target =>
      if routes.allowedTargets target then
        some (target, .start read.buffered (Segment.join read.segments))
      else none

theorem readSlice_line_eq (segments : List Segment) :
    (Bufio.readSlice 512 (byte '\n') [] segments).toOption.map Bufio.Line.line =
      readLine (Segment.join segments) := by
  cases read : Bufio.readSlice 512 (byte '\n') [] segments with
  | ok line =>
    rcases Bufio.readSlice_ok (Nat.zero_le _) read with ⟨words, eq, noNewline, short, stream⟩
    rw [List.nil_append] at stream
    rw [← stream, eq, List.append_assoc, List.append_assoc, List.singleton_append,
      readLine_append noNewline short]
    exact congrArg some eq
  | error reason =>
    cases line : readLine (Segment.join segments) with
    | none => rfl
    | some line =>
      rcases readLine_eq_some line with ⟨words, rest, stream, rfl, noNewline, short⟩
      rw [List.append_assoc, List.singleton_append, ← List.nil_append (Segment.join _)] at stream
      rcases Bufio.readSlice_line noNewline short (Nat.zero_le _) stream with ⟨_, _, ok, _⟩
      cases read.symm.trans ok

theorem openTunnel_target (app : App) (routes : RouteTable) (segments : List Segment) :
    (openTunnel app routes segments).map Prod.fst =
      handleTunnel app routes (Segment.join segments) := by
  rw [handleTunnel, ← readSlice_line_eq]
  unfold openTunnel
  cases Bufio.readSlice 512 (byte '\n') [] segments with
  | error reason => rfl
  | ok read =>
    simp only [Except.toOption, Option.map_some, Option.bind_eq_bind, Option.bind_some]
    cases authenticateTunnelHeader read.line app.tunnelToken with
    | none => rfl
    | some target => cases allowed : routes.allowedTargets target <;> simp [allowed]

end Kiac.EdgeProxy
