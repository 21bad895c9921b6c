import Kiac.EdgeProxy.Relay

/-!
# Relayed streams in fair runs

What `proxyTCP` reaches when the scheduler lets every goroutine move that can. Two ranks show it.
After an error report each step of a copy brings it closer to its end, because its reads and
writes fail; without a broken connection each step of a copy brings it closer to what had been
sent.
-/

namespace Kiac.EdgeProxy

variable {actor : Actor} {relay next : Relay} {run : Moves.Run Move}

theorem sound_of_reachable {start : Relay} (sound : start.Sound)
    (reached : Moves.Reachable Move start relay) : relay.Sound :=
  reached.invariant Relay.Sound (fun _ _ _ sound move => sound.move move) sound

section Returning

/-- The first report was an error, and the deadlines passed so far have expired. -/
def Relay.Failing (relay : Relay) : Prop :=
  match relay.main with
  | .first => relay.errc.head? = some false
  | .deadlineClient => True
  | .deadlineBackend => (relay.conns .client).expired = true
  | .second => ∀ side, (relay.conns side).expired = true
  | .returned => True

def Copy.steps (copy : Copy) : ℕ :=
  match copy.phase with
  | .copying => if copy.chunk = [] ∧ copy.buffered ≠ [] then 7 else 6
  | .closingWrite _ => 5
  | .closingRead _ => 4
  | .reporting _ => 3
  | .ended _ => 0

/-- A bound for the steps until `proxyTCP` returns. -/
def Relay.remaining (relay : Relay) : ℕ :=
  match relay.main with
  | .first => 18
  | .deadlineClient => 17
  | .deadlineBackend => 16
  | .second => (relay.copies .client).steps + (relay.copies .backend).steps
  | .returned => 0

def Relay.awaited (relay : Relay) : Actor :=
  if relay.main = .second ∧ relay.errc = [] then
    if (relay.copies .client).phase.reports = 1 then .copy .backend else .copy .client
  else .main

theorem Copy.steps_le (copy : Copy) : copy.steps ≤ 7 := by
  unfold Copy.steps
  split
  · split <;> simp
  all_goals simp

theorem Move.failing (move : Move actor relay next) (failing : relay.Failing) : next.Failing := by
  unfold Relay.Failing at failing ⊢
  cases move with
  | flush side | readEnd side | readError side | writeError side => exact failing
  | send side | finish side | breakRead side | breakWrite side | read side | write side
  | closeWrite side | closeRead side =>
    cases at' : relay.main <;> simp only [at'] at failing <;>
      simp only [Relay.setCopy_main, Relay.setPhase_main, Relay.setConn_main, at']
    · exact failing
    · cases side <;> simp [failing, Side.other]
    · intro side'
      have expired := failing side'
      cases side <;> cases side' <;> simp [expired, failing, Side.other]
  | report side =>
    cases at' : relay.main <;> simp only [at'] at failing <;>
      simp only [Relay.setPhase_main, at']
    · simp [List.head?_append, failing]
    · exact failing
    · exact failing
  | takeFirst at' reported => simp_all
  | expireClient at' => simp
  | expireBackend at' =>
    intro side
    cases side <;> simp_all
  | takeSecond at' reported => trivial

theorem Move.steps_lt {source : Side} (move : Move (.copy source) relay next)
    (expired : ∀ side, (relay.conns side).expired) :
    (next.copies source).steps < (relay.copies source).steps ∧
      next.copies source.other = relay.copies source.other ∧ next.main = relay.main := by
  cases move with
  | flush side phase written held =>
    refine ⟨?_, ?_, rfl⟩
    · simp [Copy.steps, phase, written, held]
    · cases source <;> simp [Side.other]
  | read side phase written flushed works => exact absurd (.inr (expired source)) works
  | readEnd side phase written flushed works => exact absurd (.inr (expired source)) works
  | readError side phase | writeError side phase =>
    refine ⟨?_, ?_, rfl⟩
    · simp only [Copy.steps, phase, Relay.setPhase_copies, if_true]
      split <;> omega
    · cases source <;> simp [Side.other]
  | write side phase pending some' works => exact absurd (.inr (.inl (expired _))) works
  | closeWrite side phase | closeRead side phase | report side phase =>
    refine ⟨by simp [Copy.steps, phase], ?_, rfl⟩
    cases source <;> simp [Side.other]

theorem enabled_copy {side : Side} (expired : ∀ side, (relay.conns side).expired)
    (running : (relay.copies side).phase.reports = 0) (room : relay.errc.length < 2) :
    Moves.Enabled Move (.copy side) relay := by
  cases phase : (relay.copies side).phase with
  | copying =>
    by_cases written : (relay.copies side).chunk = []
    · by_cases flushed : (relay.copies side).buffered = []
      · exact ⟨_, .readError side phase written flushed (.inr (expired side))⟩
      · exact ⟨_, .flush side phase written flushed⟩
    · exact ⟨_, .writeError side phase written (.inr (.inl (expired _)))⟩
  | closingWrite clean => exact ⟨_, .closeWrite side phase⟩
  | closingRead clean => exact ⟨_, .closeRead side phase⟩
  | reporting clean => exact ⟨_, .report side phase room⟩
  | ended clean => simp [phase, Phase.reports] at running

theorem enabled_awaited (sound : relay.Sound) (failing : relay.Failing)
    (running : relay.main ≠ .returned) : Moves.Enabled Move relay.awaited relay := by
  unfold Relay.Failing at failing
  unfold Relay.awaited
  cases at' : relay.main with
  | first =>
    simp only [at'] at failing
    rcases List.head?_eq_some_iff.mp failing with ⟨rest, reported⟩
    simpa using ⟨_, Move.takeFirst at' reported⟩
  | deadlineClient => simpa using ⟨_, Move.expireClient at'⟩
  | deadlineBackend => simpa using ⟨_, Move.expireBackend at'⟩
  | second =>
    simp only [at'] at failing
    cases reported : relay.errc with
    | cons clean rest => simpa using ⟨_, Move.takeSecond at' reported⟩
    | nil =>
      -- One report has been received, so one of the copies is not ended.
      have counted := sound.counted
      simp only [Relay.Counted, Relay.reports, at', reported, Main.taken, List.length_nil] at counted
      simp only [true_and, if_true]
      split
      · rename_i clientOver
        exact enabled_copy failing (by omega) (by simp [reported])
      · rename_i clientRuns
        exact enabled_copy failing (by omega) (by simp [reported])
  | returned => exact absurd at' running

theorem awaited_ne_peer (relay : Relay) (side : Side) : Actor.peer side ≠ relay.awaited := by
  unfold Relay.awaited
  split
  · split <;> simp
  · simp

theorem awaited_of_main_ne (other : relay.main ≠ .second) : relay.awaited = .main := by
  simp [Relay.awaited, other]

theorem Move.remaining (move : Move actor relay next) (failing : relay.Failing) :
    next.main = .returned ∨ next.remaining < relay.remaining ∨
      next.remaining = relay.remaining ∧ next.awaited = relay.awaited ∧ actor ≠ relay.awaited := by
  cases actor with
  | peer side =>
    refine .inr (.inr ⟨?_, ?_, awaited_ne_peer relay side⟩)
    · cases move <;> rfl
    · cases move <;> rfl
  | main =>
    cases move with
    | takeFirst at' reported =>
      simp only [Relay.Failing, at', reported, List.head?_cons, Option.some.injEq] at failing
      simp [Relay.remaining, at', failing]
    | expireClient at' => simp [Relay.remaining, at']
    | expireBackend at' =>
      have client := (relay.copies .client).steps_le
      have backend := (relay.copies .backend).steps_le
      refine .inr (.inl ?_)
      simp only [Relay.remaining, at', Relay.setConn_copies]
      omega
    | takeSecond at' reported => exact .inl rfl
  | copy source =>
    by_cases second : relay.main = .second
    · have expired : ∀ side, (relay.conns side).expired = true := by
        simpa [Relay.Failing, second] using failing
      rcases move.steps_lt expired with ⟨lower, others, main⟩
      refine .inr (.inl ?_)
      simp only [Relay.remaining, main, second]
      cases source with
      | client =>
        simp only [Side.other] at others
        rw [others]
        omega
      | backend =>
        simp only [Side.other] at others
        rw [others]
        omega
    · have main : next.main = relay.main := by cases move <;> rfl
      have waits := awaited_of_main_ne second
      refine .inr (.inr ⟨?_, ?_, by rw [waits]; simp⟩)
      · unfold Relay.remaining
        rw [main]
        cases at' : relay.main with
        | second => exact absurd at' second
        | _ => rfl
      · rw [waits, awaited_of_main_ne (main ▸ second)]

theorem eventually_returned (main : run.Fair .main) (copies : ∀ side, run.Fair (.copy side)) {n : ℕ}
    (sound : (run.state n).Sound) (failing : (run.state n).Failing) :
    ∃ m, n ≤ m ∧ (run.state m).main = .returned := by
  have fair : ∀ relay : Relay, run.Fair relay.awaited := by
    intro relay
    unfold Relay.awaited
    split
    · split
      · exact copies .backend
      · exact copies .client
    · exact main
  refine run.eventually_of_rank (fun relay => relay.Sound ∧ relay.Failing)
    (fun relay => relay.main = .returned) Relay.remaining Relay.awaited fair
    (fun m inv running => enabled_awaited inv.1 inv.2 running) (fun m actor inv _ acts => ?_)
    ⟨sound, failing⟩
  have move := run.moved m actor acts
  exact ⟨⟨inv.1.move move, move.failing inv.2⟩, move.remaining inv.2⟩

end Returning

section Delivering

def Relay.Intact (relay : Relay) : Prop :=
  ∀ side, (relay.conns side).readFails = false ∧ (relay.conns side).writeFails = false

def Relay.Errorless (relay : Relay) : Prop :=
  ∀ side, (relay.copies side).phase.outcome ≠ some false

theorem not_expired (sound : relay.Sound) (errorless : relay.Errorless) (side : Side) :
    (relay.conns side).expired = false := by
  rw [Bool.eq_false_iff]
  intro expired
  rcases sound.reported.expired side expired with ⟨failed, ended⟩
  exact errorless failed (by rw [ended]; rfl)

theorem not_readFails (sound : relay.Sound) (errorless : relay.Errorless) (intact : relay.Intact)
    (side : Side) : ¬ relay.ReadFails side := by
  simp [Relay.ReadFails, intact side, not_expired sound errorless side]

theorem not_writeFails (sound : relay.Sound) (errorless : relay.Errorless) (intact : relay.Intact)
    {side : Side} (copying : (relay.copies side).phase = .copying) :
    ¬ relay.WriteFails side.other := by
  simp [Relay.WriteFails, intact side.other, not_expired sound errorless side.other,
    (sound.opened side copying).1]

theorem Move.errorless (move : Move actor relay next) (sound : relay.Sound)
    (errorless : relay.Errorless) (intact : relay.Intact) : next.Errorless := by
  intro side'
  have here := errorless side'
  cases move with
  | send | finish | breakRead | breakWrite | takeFirst | takeSecond | expireClient
  | expireBackend => exact here
  | flush side | read side | write side => cases side <;> cases side' <;> simpa using here
  | readEnd side => cases side <;> cases side' <;> simp [Phase.outcome] <;> exact here
  | readError side phase written flushed fails =>
    exact absurd fails (not_readFails sound errorless intact side)
  | writeError side phase pending fails =>
    exact absurd fails (not_writeFails sound errorless intact phase)
  | closeWrite side phase | closeRead side phase | report side phase =>
    cases side <;> cases side' <;> simp_all [Phase.outcome]

theorem Move.sent_le (move : Move actor relay next) (side' : Side) :
    (relay.conns side').sent <+: (next.conns side').sent := by
  cases move with
  | send side => cases side <;> cases side' <;> simp
  | finish side | breakRead side | breakWrite side | flush side | read side | readEnd side
  | readError side | write side | writeError side | closeWrite side | closeRead side | report side =>
    cases side <;> cases side' <;> simp [Side.other]
  | takeFirst | takeSecond => exact List.prefix_rfl
  | expireClient | expireBackend => cases side' <;> simp

def Relay.missing (side : Side) (length : ℕ) (relay : Relay) : ℕ :=
  (length - (relay.conns side.other).received.length) +
    (length - ((relay.conns side.other).received ++ (relay.copies side).chunk).length)

theorem copying_of_missing (sound : relay.Sound) (errorless : relay.Errorless) {side : Side}
    (lags : (relay.conns side.other).received.length < (relay.conns side).sent.length) :
    (relay.copies side).phase = .copying := by
  cases phase : (relay.copies side).phase with
  | copying => rfl
  | closingWrite clean | closingRead clean | reporting clean | ended clean =>
    have here := errorless side
    rw [phase] at here
    cases clean with
    | false => exact absurd rfl here
    | true =>
      have clean : (relay.copies side).phase.outcome = some true := by
        rw [phase]
        rfl
      rw [sound.received_eq clean] at lags
      omega

structure Relay.Delivers (side : Side) (sent : Str) (relay : Relay) : Prop where
  sound : relay.Sound
  errorless : relay.Errorless
  grown : sent <+: (relay.conns side).sent

namespace Relay.Delivers

variable {side : Side} {sent : Str}

theorem move (delivers : relay.Delivers side sent) (intact : relay.Intact)
    (move : Move actor relay next) : next.Delivers side sent :=
  ⟨delivers.sound.move move, move.errorless delivers.sound delivers.errorless intact,
    delivers.grown.trans (move.sent_le side)⟩

theorem arrived (delivers : relay.Delivers side sent)
    (enough : sent.length ≤ (relay.conns side.other).received.length) :
    sent <+: (relay.conns side.other).received :=
  List.prefix_of_prefix_length_le delivers.grown (delivers.sound.received_le side) enough

section Lagging

variable (delivers : relay.Delivers side sent)
  (lags : (relay.conns side.other).received.length < sent.length)

include delivers lags

theorem copying : (relay.copies side).phase = .copying :=
  copying_of_missing delivers.sound delivers.errorless (lags.trans_le delivers.grown.length_le)

theorem enabled (intact : relay.Intact) : Moves.Enabled Move (.copy side) relay := by
  have phase := delivers.copying lags
  have reads := not_readFails delivers.sound delivers.errorless intact side
  by_cases written : (relay.copies side).chunk = []
  · by_cases flushed : (relay.copies side).buffered = []
    · have arrived : (relay.conns side).incoming ≠ [] := by
        intro nothing
        have flows := delivers.sound.flows side
        simp only [Relay.Flows, written, flushed, nothing, List.append_nil] at flows
        have grown := delivers.grown.length_le
        rw [← flows] at grown
        omega
      exact ⟨_, .read side phase written flushed reads (List.append_nil _).symm arrived⟩
    · exact ⟨_, .flush side phase written flushed⟩
  · exact ⟨_, .write side phase (List.append_nil _).symm written
      (not_writeFails delivers.sound delivers.errorless intact phase)⟩

theorem missing_lt (intact : relay.Intact) (move : Move (.copy side) relay next) :
    next.missing side sent.length < relay.missing side sent.length := by
  have phase' := delivers.copying lags
  unfold Relay.missing
  cases move with
  | flush side phase written held =>
    have some' := List.length_pos_iff.mpr held
    simp only [Relay.setCopy_conns, Relay.setCopy_copies, if_true, written, List.length_append,
      List.length_nil]
    omega
  | read side phase written flushed works arrived some' =>
    have some'' := List.length_pos_iff.mpr some'
    cases side <;> simp [Side.other, written] at lags ⊢ <;> omega
  | readEnd side phase written flushed works nothing ended =>
    have flows := delivers.sound.flows side
    simp only [Relay.Flows, written, flushed, nothing, List.append_nil] at flows
    have grown := delivers.grown.length_le
    rw [← flows] at grown
    omega
  | readError side phase written flushed fails =>
    exact absurd fails (not_readFails delivers.sound delivers.errorless intact side)
  | write side phase pending some' works =>
    have some'' := List.length_pos_iff.mpr some'
    cases side <;> simp [Side.other, pending] at lags ⊢ <;> omega
  | writeError side phase pending fails =>
    exact absurd fails (not_writeFails delivers.sound delivers.errorless intact phase)
  | closeWrite side phase | closeRead side phase | report side phase =>
    cases phase'.symm.trans phase

end Lagging

theorem missing_eq {length : ℕ} (move : Move actor relay next) (other : actor ≠ .copy side) :
    next.missing side length = relay.missing side length := by
  unfold Relay.missing
  cases move with
  | flush side' | read side' | readEnd side' | readError side' | write side' | writeError side'
  | closeWrite side' | closeRead side' | report side' =>
    cases side <;> cases side' <;> simp_all [Side.other]
  | send side' | finish side' | breakRead side' | breakWrite side' =>
    cases side <;> cases side' <;> simp [Side.other]
  | expireClient | expireBackend => cases side <;> simp [Side.other]
  | takeFirst | takeSecond => rfl

end Relay.Delivers

theorem eventually_received {side : Side} (fair : run.Fair (.copy side))
    (intact : ∀ n, (run.state n).Intact) {n : ℕ} (sound : (run.state n).Sound)
    (errorless : (run.state n).Errorless) :
    ∃ m, n ≤ m ∧ ((run.state n).conns side).sent <+: ((run.state m).conns side.other).received := by
  let sent := ((run.state n).conns side).sent
  refine run.eventually_of_rank (Relay.Delivers side sent)
    (fun relay => sent <+: (relay.conns side.other).received) (Relay.missing side sent.length)
    (fun _ => .copy side) (fun _ => fair) ?_ ?_ ⟨sound, errorless, List.prefix_rfl⟩
  · intro m delivers missing
    exact delivers.enabled (not_le.mp fun enough => missing (delivers.arrived enough)) (intact m)
  · intro m actor delivers missing acts
    have move := run.moved m actor acts
    have lags := not_le.mp fun enough => missing (delivers.arrived enough)
    refine ⟨delivers.move (intact m) move, .inr ?_⟩
    by_cases mine : actor = .copy side
    · subst mine
      exact .inl (delivers.missing_lt lags (intact m) move)
    · exact .inr ⟨Relay.Delivers.missing_eq move mine, rfl, mine⟩

theorem errorless_of_intact (intact : ∀ n, (run.state n).Intact) (sound : (run.state 0).Sound)
    (errorless : (run.state 0).Errorless) (n : ℕ) : (run.state n).Sound ∧ (run.state n).Errorless := by
  induction n with
  | zero => exact ⟨sound, errorless⟩
  | succ n ih =>
    cases acts : run.actor n with
    | none => rw [run.idle n acts]; exact ih
    | some actor =>
      have move := run.moved n actor acts
      exact ⟨ih.1.move move, move.errorless ih.1 ih.2 (intact n)⟩

end Delivering

section Tunnels

structure Relay.Transparent (relay : Relay) : Prop where
  /-- What a peer has received are the first bytes that the other one has sent. -/
  ordered : ∀ side, (relay.conns side.other).received <+: (relay.conns side).sent
  /-- After a clean end these are all of them. -/
  complete : ∀ side, (relay.copies side).phase.outcome = some true →
    (relay.conns side.other).received = (relay.conns side).sent
  /-- After a clean end of one direction the other one is open. -/
  halfClosed : ∀ side, (relay.copies side).phase = .copying →
    (relay.copies side.other).phase.outcome = some true →
      ((relay.conns side.other).writeClosed = false ∧ (relay.conns side).readClosed = false) ∧
        ∀ conn, (relay.conns conn).expired = false
  /-- `proxyTCP` does not return before both directions have ended. -/
  ended : relay.main = .returned → ∀ side, ∃ clean, (relay.copies side).phase = .ended clean

theorem Relay.Sound.transparent (sound : relay.Sound) : relay.Transparent :=
  ⟨sound.received_le, fun _ => sound.received_eq, fun _ => sound.other_open, sound.over_of_returned⟩

theorem errorless_start (buffered incoming : Str) : (Relay.start buffered incoming).Errorless := by
  intro side
  cases side <;> simp [Relay.start, Phase.outcome]

theorem openTunnel_line {app : App} {routes : RouteTable} {segments : List Segment}
    {words payload target : Str} (stream : Segment.join segments = words ++ byte '\n' :: payload)
    (noNewline : byte '\n' ∉ words) (short : words.length < 512)
    (accepted : authenticateTunnelHeader (words ++ [byte '\n']) app.tunnelToken = some target)
    (allowed : routes.allowedTargets target) :
    ∃ buffered incoming, openTunnel app routes segments = some (target, .start buffered incoming) ∧
      buffered ++ incoming = payload := by
  rw [← List.nil_append (Segment.join _)] at stream
  rcases Bufio.readSlice_line noNewline short (Nat.zero_le _) stream with ⟨left, later, read, rest⟩
  refine ⟨left, Segment.join later, ?_, rest⟩
  simp [openTunnel, read, accepted, allowed]

/--
A tunnel whose header line is accepted carries the client's bytes after that line, however the
network splits the stream. In every state that can be reached the backend has received the first
of these bytes and nothing else, the end of one direction does not touch the other, and `proxyTCP`
returns after both. In a fair run everything arrives if no connection is broken, and `proxyTCP`
returns if the first report is an error.
-/
theorem tunnel_transparent {app : App} {routes : RouteTable} {segments : List Segment}
    {words payload target : Str} (stream : Segment.join segments = words ++ byte '\n' :: payload)
    (noNewline : byte '\n' ∉ words) (short : words.length + 1 ≤ 512)
    (accepted : authenticateTunnelHeader (words ++ [byte '\n']) app.tunnelToken = some target)
    (allowed : routes.allowedTargets target = true) :
    ∃ relay, openTunnel app routes segments = some (target, relay) ∧
      handleTunnel app routes (Segment.join segments) = some target ∧
      (relay.conns .client).sent = payload ∧
      (∀ state, Moves.Reachable Move relay state →
        state.Transparent ∧ payload <+: (state.conns .client).sent) ∧
      ∀ run : Moves.Run Move, run.state 0 = relay → run.Fair .main →
        (∀ side, run.Fair (.copy side)) →
        ((∀ n, (run.state n).Intact) → ∀ side n, ∃ m, n ≤ m ∧
          ((run.state n).conns side).sent <+: ((run.state m).conns side.other).received) ∧
        ∀ n, (run.state n).main = .first → (run.state n).errc.head? = some false →
          ∃ m, n ≤ m ∧ (run.state m).main = .returned := by
  rcases openTunnel_line stream noNewline short accepted allowed with
    ⟨buffered, incoming, opened, rfl⟩
  have sound := Relay.sound_start buffered incoming
  have dialled := openTunnel_target app routes segments
  rw [opened] at dialled
  refine ⟨_, opened, dialled.symm, rfl, fun state reached => ?_, fun run starts main copies => ?_⟩
  · refine ⟨(sound_of_reachable sound reached).transparent, ?_⟩
    exact reached.invariant (fun relay => buffered ++ incoming <+: (relay.conns .client).sent)
      (fun _ _ _ grown move => grown.trans (move.sent_le .client)) List.prefix_rfl
  · rw [← starts] at sound
    refine ⟨fun intact side n => ?_, fun n first failed => ?_⟩
    · have errorless := starts ▸ errorless_start buffered incoming
      rcases errorless_of_intact intact sound errorless n with ⟨soundHere, errorlessHere⟩
      exact eventually_received (copies side) intact soundHere errorlessHere
    · have failing : (run.state n).Failing := by
        simp only [Relay.Failing, first]
        exact failed
      exact eventually_returned main copies (sound_of_reachable sound (run.reachable n)) failing

/-- A header that arrives in two parts, the second with the first bytes of the request. -/
def splitRequest : List Segment :=
  [⟨tunnelProtocol ++ str " ", by decide⟩,
    ⟨List.replicate 64 (byte 'a') ++ str " 10.244.2.7:8080\nGET /", by decide⟩,
    ⟨str " HTTP/1.1", by decide⟩]

/-- The request goes to the endpoint, and nothing of it is lost in the buffer. -/
theorem tunnel_transparent_web :
    ∃ relay, openTunnel (proxyOn (str "n2")) ((proxyOn (str "n2")).routes webState) splitRequest =
        some (str "10.244.2.7:8080", relay) ∧
      (relay.conns .client).sent = str "GET / HTTP/1.1" := by
  have stream : Segment.join splitRequest = (tunnelProtocol ++ str " " ++
      List.replicate 64 (byte 'a') ++ str " 10.244.2.7:8080") ++
        byte '\n' :: str "GET / HTTP/1.1" := by decide
  have accepted : authenticateTunnelHeader (tunnelProtocol ++ str " " ++
      List.replicate 64 (byte 'a') ++ str " 10.244.2.7:8080" ++ [byte '\n'])
        (proxyOn (str "n2")).tunnelToken = some (str "10.244.2.7:8080") := by decide +kernel
  have allowed : ((proxyOn (str "n2")).routes webState).allowedTargets (str "10.244.2.7:8080") =
      true := by decide
  rcases tunnel_transparent stream (by decide) (by decide) accepted allowed with
    ⟨relay, opened, _, sent, _⟩
  exact ⟨relay, opened, sent⟩

end Tunnels

end Kiac.EdgeProxy
