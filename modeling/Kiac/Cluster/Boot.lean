import Kiac.Cluster.Config
import Kiac.Text.Shell

/-!
# Command lines for the shell of a node

The arguments of a command reach the shell of a node inside single quotes: those of every command
over SSH, and those of K3s inside the boot command, behind a preamble of fixed text.
-/

namespace Kiac.Cluster.Boot

open Shell

def shellJoin (args : List Str) : Str := List.intercalate (str " ") (args.map quote)

/-- The command that `execContext` gives to the remote shell. -/
def remote (command : List Str) : Str := str "sudo -- " ++ shellJoin command

def shQuote (s : Str) : Str := quote s

def registryReadyPath : Str := str "/etc/rancher/k3s/.kiac-registry-ready"

def registryBootGate (registryCAs : List Str) (seconds : ℤ) : Str :=
  if registryCAs = [] then []
  else str "KIAC_REGISTRY_I=0; while [ ! -f " ++ registryReadyPath ++
    str " ]; do if [ \"$KIAC_REGISTRY_I\" -ge " ++ Str.itoa seconds ++
    str (" ]; then echo 'timed out waiting for Kiac registry trust' >&2; exit 1; fi; sleep 1; " ++
      "KIAC_REGISTRY_I=$((KIAC_REGISTRY_I+1)); done; ")

def k3sCgroupPrep : Str := str <|
  "if [ -f /sys/fs/cgroup/cgroup.controllers ]; then\n" ++
  "  mkdir -p /sys/fs/cgroup/init || exit 1\n" ++
  "  while read -r p; do\n" ++
  "    [ \"$p\" = 0 ] || \x7b echo \"$p\" > /sys/fs/cgroup/init/cgroup.procs 2>/dev/null " ++
  "|| true; \x7d\n" ++
  "  done < /sys/fs/cgroup/cgroup.procs\n" ++
  "  for c in $(cat /sys/fs/cgroup/cgroup.controllers); do\n" ++
  "    echo \"+$c\" > /sys/fs/cgroup/cgroup.subtree_control || exit 1\n" ++
  "  done\nfi\n"

def defaultInterface : String :=
  "KIAC_IF=\"$(ip -4 route show default 2>/dev/null | awk '\x7bprint $5; exit\x7d')\"; "

def senderOffloadFix : Str := str <| defaultInterface ++
  "[ -n \"$KIAC_IF\" ] && command -v ethtool >/dev/null 2>&1 && " ++
  "ethtool -K \"$KIAC_IF\" tso off gso off || true"

def ipv6BootPrep : Str := str <| defaultInterface ++
  "[ -n \"$KIAC_IF\" ] && sysctl -w \"net.ipv6.conf.$KIAC_IF.accept_ra=2\" >/dev/null 2>&1; " ++
  "sysctl -w net.ipv6.conf.all.forwarding=1 >/dev/null 2>&1 || true; "

def helperLoop (pid body log : String) : Str := str <|
  "if ! kill -0 \"$(cat " ++ pid ++ " 2>/dev/null)\" 2>/dev/null; then " ++
  "nohup sh -c 'while :; do " ++ body ++ " >>" ++ log ++
  " 2>&1; sleep 1; done' >/dev/null 2>&1 & echo $! > " ++ pid ++ "; fi; fi"

def helpers : Str :=
  str ("for t in iptables iptables-save iptables-restore ip6tables ip6tables-save " ++
    "ip6tables-restore; do ln -sf xtables-legacy-multi /bin/aux/$t; done; " ++
    "if [ -x /usr/local/bin/kiac-lb.sh ]; then mkdir -p /var/log /var/run; ") ++
  helperLoop "/var/run/kiac-lb-supervisor.pid"
    "KUBECONFIG=/etc/rancher/k3s/k3s.yaml /usr/local/bin/kiac-lb.sh" "/var/log/kiac-lb.log" ++
  str ("; if [ -x /usr/local/bin/kiac-edge-proxy ] && [ -f /etc/kiac/kubeconfig ] && " ++
    "[ -f /etc/kiac/tunnel.token ]; then ") ++
  helperLoop "/var/run/kiac-edge-proxy-supervisor.pid"
    ("/usr/local/bin/kiac-edge-proxy --kubeconfig /etc/kiac/kubeconfig " ++
      "--token-file /etc/kiac/tunnel.token") "/var/log/kiac-edge-proxy.log"

def nodeAddresses : Str := ipv6BootPrep ++ str (
  "KIAC_V4=\"$(ip -4 route get 1.1.1.1 2>/dev/null | " ++
  "awk '\x7bfor(i=1;i<NF;i++) if ($i==\"src\") print $(i+1)\x7d' | head -n1)\"; " ++
  "KIAC_V6=\"\"; KIAC_I=0; while [ \"$KIAC_I\" -lt 45 ]; do " ++
  "KIAC_V6=\"$(ip -6 -o addr show scope global 2>/dev/null | awk '\x7bprint $4\x7d' | " ++
  "cut -d/ -f1 | grep -v '^fe80' | grep -v '^::1$' | head -n1)\"; " ++
  "[ -n \"$KIAC_V6\" ] && break; sleep 1; KIAC_I=$((KIAC_I+1)); done; ")

def k3sSupervisor : Str := str <|
  "mkdir -p /var/run\npid=\nstopping=\n" ++
  "trap 'stopping=1; [ -z \"$pid\" ] || kill -TERM \"$pid\" 2>/dev/null || true' TERM INT\n" ++
  "trap 'rm -f /var/run/kiac-k3s.pid' EXIT\n" ++
  "while [ -z \"$stopping\" ]; do\n  k3s \"$@\" &\n  pid=$!\n" ++
  "  printf '%s\\n' \"$pid\" > /var/run/kiac-k3s.pid\n" ++
  "  [ -z \"$stopping\" ] || kill -TERM \"$pid\" 2>/dev/null || true\n" ++
  "  wait \"$pid\"\n  status=$?\n  if [ -n \"$stopping\" ]; then\n" ++
  "    wait \"$pid\" 2>/dev/null || true\n    exit 0\n  fi\n" ++
  "  [ \"$status\" -eq 0 ] && exit 0\n" ++
  "  printf 'kiac: K3s exited with status %s; restarting in the same VM\\n' \"$status\" >&2\n" ++
  "  pid=\n  sleep 1\ndone\n"

def preamble (registryCAs : List Str) (seconds : ℤ) : Str :=
  registryBootGate registryCAs seconds ++ k3sCgroupPrep ++ senderOffloadFix ++ str "; " ++ helpers

def k3sBoot (cfg : Config) (registryCAs : List Str) (seconds : ℤ) (k3sArgs : List Str) :
    Str × List Str :=
  let dual := cfg.family = str "dual"
  let cmd := preamble registryCAs seconds ++ str "; " ++ (if dual then nodeAddresses else []) ++
    str "exec sh -c " ++ shQuote k3sSupervisor ++ str " sh" ++
    (k3sArgs.flatMap fun a => str " " ++ shQuote a) ++
    (if dual then str " --node-ip=\"$KIAC_V4,$KIAC_V6\"" else [])
  (str "/bin/sh", [str "-c", cmd])

/-- The script, the `$0` and the positional parameters that a command gives to a new shell. -/
def shellCall (tokens : List Token) : Option (Str × Str × List Str) :=
  match tokens.mapM Token.value with
  | some (exec :: sh :: flag :: script :: zero :: params) =>
    if exec = str "exec" ∧ sh = str "sh" ∧ flag = str "-c" then some (script, zero, params) else none
  | _ => none

theorem mapM_value (args : List Str) : (args.map (Token.word · true)).mapM Token.value = some args := by
  induction args with
  | nil => rfl
  | cons arg args ih => simp [Token.value, ih]

theorem shellJoin_cons (arg : Str) (args : List Str) :
    shellJoin (arg :: args) = quote arg ++ args.flatMap fun a => byte ' ' :: quote a := by
  induction args generalizing arg with
  | nil => simp [shellJoin, List.intercalate]
  | cons next args ih =>
    have joined : shellJoin (arg :: next :: args) = quote arg ++ (str " " ++ shellJoin (next :: args)) := by
      simp [shellJoin, List.intercalate]
    rw [joined, ih next]
    rfl

variable {args : List Str}

theorem commands_of_scan {s : Str} {after : Tokens} {tokens : List Token}
    {before : List (List Token)} (scanned : scan s (start, ⟨none, [], []⟩) = some (wordEnd, after))
    (ends : after.endWord = ⟨none, tokens, before⟩) (nonempty : tokens ≠ []) :
    commands s = some (before ++ [tokens]) := by
  simp [commands, scanned, wordEnd, Tokens.endCommand, ends, nonempty]

theorem words_join (front : Str) (heads : List Str) (arg : Str)
    (noNul : ∀ a ∈ arg :: args, 0 ∉ a)
    (opens : scan front (start, ⟨none, [], []⟩) =
      some (start, ⟨none, heads.map (.word · true), []⟩)) :
    words (front ++ shellJoin (arg :: args)) = some (heads ++ arg :: args) := by
  rcases List.forall_mem_cons.mp noNul with ⟨here, rest⟩
  rcases scan_quotes rest arg (heads.map (.word · true)) [] with ⟨after, scanned, ends⟩
  have whole : scan (front ++ shellJoin (arg :: args)) (start, ⟨none, [], []⟩) =
      some (wordEnd, after) := by
    rw [shellJoin_cons, scan_append, opens, Option.bind_some, scan_append, scan_quote here]
    exact scanned
  rw [words, commands_of_scan whole ends (by simp), ← List.map_append]
  exact mapM_value (heads ++ arg :: args)

theorem travel_digits {s : Str} (digits : ∀ b ∈ s, b = byte '-' ∨ Str.isDigit b)
    (inWord : Bool) : ∃ inWord', Position.travel s ⟨[], .nothing, inWord⟩ =
      some ⟨[], .nothing, inWord'⟩ := by
  have ordinary : ∀ b : UInt8, b = byte '-' ∨ Str.isDigit b = true → ∀ inWord,
      Position.read ⟨[], .nothing, inWord⟩ b = some (.quoted [b], wordEnd) :=
    Str.forall_byte (by decide +kernel)
  induction s generalizing inWord with
  | nil => exact ⟨inWord, rfl⟩
  | cons b rest ih =>
    rcases List.forall_mem_cons.mp digits with ⟨here, later⟩
    simpa [Position.travel, ordinary b here, wordEnd] using ih later true

theorem travel_gate (registryCAs : List Str) (seconds : ℤ) :
    start.travel (registryBootGate registryCAs seconds) = some start := by
  unfold registryBootGate
  split
  · rfl
  · rcases travel_digits (fun b mem => (Str.isDigit_of_mem_itoa mem).symm) false with ⟨inWord, digits⟩
    have front : start.travel (str "KIAC_REGISTRY_I=0; while [ ! -f " ++ registryReadyPath ++
        str " ]; do if [ \"$KIAC_REGISTRY_I\" -ge ") = some start := by decide +kernel
    rw [travel_append, travel_append, front, Option.bind_some, start, digits]
    cases inWord <;> decide +kernel

/-- A long text is evaluated in parts, since the memory that this takes grows with the length. -/
theorem travel_trans {position last : Position} {front back : Str} (middle : Position)
    (first : position.travel front = some middle) (second : middle.travel back = some last) :
    position.travel (front ++ back) = some last := by
  rw [travel_append, first]
  exact second

theorem travel_preamble (registryCAs : List Str) (seconds : ℤ) :
    start.travel (preamble registryCAs seconds) = some wordEnd := by
  have helping : start.travel helpers = some wordEnd := by
    refine travel_trans start (travel_trans wordEnd (travel_trans start ?_ ?_) ?_) ?_
    all_goals decide +kernel
  refine travel_trans start (travel_trans wordEnd (travel_trans start
    (travel_trans start (travel_gate registryCAs seconds) ?_) ?_) ?_) helping
  all_goals decide +kernel

theorem commands_boot {front : Str} {opened : Tokens}
    (scanned : scan front (start, ⟨none, [], []⟩) = some (wordEnd, opened))
    (noNul : ∀ arg ∈ args, 0 ∉ arg) :
    commands (front ++ str "; " ++ str "exec sh -c " ++ shQuote k3sSupervisor ++ str " sh" ++
      args.flatMap fun a => str " " ++ shQuote a) = some (opened.endCommand.commands ++
        [([str "exec", str "sh", str "-c", k3sSupervisor, str "sh"] ++ args).map (.word · true)]) := by
  have separated : scan (str "; ") (wordEnd, opened) =
      some (start, ⟨none, [], opened.endCommand.commands⟩) := by
    change some (start, opened.endCommand.endWord) = _
    rw [Tokens.endCommand_eq]
    rfl
  have heads : ∀ before, scan (str "exec sh -c ") (start, ⟨none, [], before⟩) =
      some (start, ⟨none, [str "exec", str "sh", str "-c"].map (.word · true), before⟩) := fun _ => rfl
  have zero : ∀ tokens before, scan (str " sh")
      (wordEnd, ⟨some (k3sSupervisor, true), tokens, before⟩) =
      some (wordEnd, ⟨some (str "sh", true), tokens ++ [.word k3sSupervisor true], before⟩) :=
    fun _ _ => rfl
  rcases scan_quotes noNul (str "sh") _ opened.endCommand.commands with ⟨after, quoted, ends⟩
  refine (commands_of_scan ?_ ends (by simp)).trans ?_
  · rw [scan_append, scan_append, scan_append, scan_append, scan_append, scanned, Option.bind_some,
      separated, Option.bind_some, heads, Option.bind_some, shQuote,
      scan_quote (by decide +kernel), Option.bind_some, zero]
    exact quoted
  · simp

/-- The words of a joined list are its members, and the command that boots K3s calls the supervisor
with the arguments of K3s as they are, behind commands that do not depend on them. -/
theorem quoting_round_trip (cfg : Config) (single : cfg.family ≠ str "dual")
    (registryCAs : List Str) (seconds : ℤ) :
    (∀ args : List Str, (∀ arg ∈ args, 0 ∉ arg) → words (shellJoin args) = some args ∧
      (args ≠ [] → words (remote args) = some (str "sudo" :: str "--" :: args))) ∧
    ∃ before, ∀ args : List Str, (∀ arg ∈ args, 0 ∉ arg) → ∃ cmd call,
      k3sBoot cfg registryCAs seconds args = (str "/bin/sh", [str "-c", cmd]) ∧
      commands cmd = some (before ++ [call]) ∧
      shellCall call = some (k3sSupervisor, str "sh", args) := by
  refine ⟨fun args noNul => ?_, ?_⟩
  · cases args with
    | nil => exact ⟨rfl, fun nonempty => absurd rfl nonempty⟩
    | cons arg args =>
      exact ⟨words_join [] [] arg noNul rfl,
        fun _ => words_join (str "sudo -- ") [str "sudo", str "--"] arg noNul rfl⟩
  · rcases exists_scan (travel_preamble registryCAs seconds) ⟨none, [], []⟩ with ⟨opened, scanned⟩
    refine ⟨opened.endCommand.commands, fun args noNul => ⟨_, _, ?_, commands_boot scanned noNul, ?_⟩⟩
    · simp [k3sBoot, single]
    · rw [shellCall, mapM_value]
      rfl

def plainConfig : Config :=
  ⟨str "dev", [], 0, [], [], [], [], [], [], false, false, false, false, false, false⟩

theorem quoting_round_trip_hostile : plainConfig.family ≠ str "dual" ∧
    words (shellJoin [str "it's", str "$(reboot)\n; '"]) = some [str "it's", str "$(reboot)\n; '"] := by
  have single : plainConfig.family ≠ str "dual" := by decide +kernel
  refine ⟨single, ((quoting_round_trip plainConfig single [] 75).1 _ ?_).1⟩
  decide +kernel

end Kiac.Cluster.Boot
