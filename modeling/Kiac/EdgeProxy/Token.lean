import Kiac.EdgeProxy.Tunnel

/-!
# Tokens that open a tunnel

The token of the tunnels is read from a file. It has to be long enough, and the four common
white-space characters are refused. The other side splits the header at every character that
Unicode counts as white space, and reads no more than its buffer holds, so it does not
recognise every token that was accepted.
-/

namespace Kiac.EdgeProxy

open Net

/-- `readTunnelToken`, for the path and what `os.ReadFile` returns for it. -/
def readTunnelToken (path : Str) (readFile : Except Str Str) : Except Str Str :=
  if path = [] then .error (str "--token-file is required")
  else
    match readFile with
    | .error reason => .error (str "reading tunnel token: " ++ reason)
    | .ok raw =>
      let token := raw.trimSpace
      if token.length < 32 ∨ ∃ b ∈ token, b ∈ str " \t\r\n" then
        .error (str "tunnel token must contain at least 32 non-whitespace characters")
      else .ok token

/-- The header of a tunnel is read whole, whatever follows it, and authenticated for its target by
a proxy with the same token. -/
def Authenticates (token target : Str) : Prop :=
  (∀ rest, readLine (tunnelHeader token target ++ rest) = some (tunnelHeader token target)) ∧
    authenticateTunnelHeader (tunnelHeader token target) token = some target

theorem readTunnelToken_spec {path content token : Str}
    (accepted : readTunnelToken path (.ok content) = .ok token) :
    32 ≤ token.length ∧ byte '\n' ∉ token := by
  unfold readTunnelToken at accepted
  split at accepted
  · cases accepted
  · simp only at accepted
    split at accepted
    · cases accepted
    · rename_i kept
      obtain rfl := Except.ok.inj accepted
      rw [not_or, not_lt] at kept
      exact ⟨kept.1, fun newline => kept.2 ⟨_, newline, by decide⟩⟩

theorem isGraphic_of_validBackendTarget {target : Str} (valid : validBackendTarget target) :
    target ≠ [] ∧ ∀ b ∈ target, Str.isGraphic b := by
  unfold validBackendTarget at valid
  cases split : splitHostPort target with
  | none => simp [split] at valid
  | some parts =>
    rcases parts with ⟨host, port⟩
    simp only [split, Bool.and_eq_true, Option.isSome_iff_exists] at valid
    rcases valid with ⟨⟨ip, parsed⟩, numbered⟩
    rcases (Option.any_eq_true _ _).mp numbered with ⟨value, number, _⟩
    have inHost : ∀ b ∈ host, Str.isGraphic b := fun b here =>
      isGraphic_of_isAddressByte ((parseIP_spec parsed).1 b here)
    have inPort : ∀ b ∈ port, Str.isGraphic b := by
      intro b here
      rcases Str.isDigit_of_mem_atoi number here with digit | rfl | rfl
      · exact isGraphic_of_isHex (Str.isHex_of_isDigit digit)
      · decide
      · decide
    have marks : ∀ b ∈ [byte '[', byte ']', byte ':'], Str.isGraphic b := by decide +kernel
    rcases eq_of_splitHostPort split with rfl | rfl
    · refine ⟨by simp, fun b mem => ?_⟩
      simp only [List.mem_append, List.mem_cons] at mem
      rcases mem with here | rfl | here
      · exact inHost b here
      · exact marks _ (by simp)
      · exact inPort b here
    · refine ⟨by simp, fun b mem => ?_⟩
      simp only [List.cons_append, List.mem_cons, List.mem_append] at mem
      rcases mem with rfl | here | rfl | rfl | here
      · exact marks _ (by simp)
      · exact inHost b here
      · exact marks _ (by simp)
      · exact marks _ (by simp)
      · exact inPort b here

section Header

variable {token target : Str}

theorem fields_header (graphic : ∀ b ∈ target, Str.isGraphic b) (nonempty : target ≠ []) :
    (tunnelHeader token target).fields = tunnelProtocol :: (token.fields ++ [target]) := by
  have protocolGraphic : ∀ b ∈ tunnelProtocol, Str.isGraphic b := by decide +kernel
  unfold tunnelHeader
  rw [Str.fields_append protocolGraphic (by decide) (Or.inl rfl),
    Str.fields_append_space token _ (Or.inl rfl),
    Str.fields_append graphic nonempty (Or.inr rfl), Str.fields_nil]

theorem authenticateTunnelHeader_iff (hasToken : token ≠ []) (valid : validBackendTarget target) :
    authenticateTunnelHeader (tunnelHeader token target) token = some target ↔
      token.containsSpace = false := by
  rcases isGraphic_of_validBackendTarget valid with ⟨nonempty, graphic⟩
  have words : (tunnelHeader token target).fields = tunnelProtocol :: (token.fields ++ [target]) :=
    fields_header graphic nonempty
  rw [← Str.fields_eq_self_iff hasToken]
  constructor
  · intro accepted
    have three := authenticateTunnelHeader_eq_some accepted
    rw [words, List.cons_inj_right] at three
    exact List.append_cancel_right three
  · intro oneWord
    rw [oneWord] at words
    simp [authenticateTunnelHeader, words, valid]

theorem readLine_header_iff (noNewline : byte '\n' ∉ token) (valid : validBackendTarget target) :
    (∀ rest, readLine (tunnelHeader token target ++ rest) = some (tunnelHeader token target)) ↔
      13 + token.length + target.length ≤ 512 := by
  have protocolLength : tunnelProtocol.length = 10 := by decide
  have shape : ∀ rest, tunnelHeader token target ++ rest =
      (tunnelProtocol ++ byte ' ' :: (token ++ byte ' ' :: target)) ++ byte '\n' :: rest := by
    simp [tunnelHeader]
  have oneLine : byte '\n' ∉ tunnelProtocol ++ byte ' ' :: (token ++ byte ' ' :: target) := by
    have inTarget : byte '\n' ∉ target := by
      intro mem
      exact absurd ((isGraphic_of_validBackendTarget valid).2 _ mem) (by decide)
    simp only [List.mem_append, List.mem_cons, not_or]
    exact ⟨by decide, by decide, noNewline, by decide, inTarget⟩
  constructor
  · intro whole
    have read := whole []
    rw [shape] at read
    unfold readLine at read
    rw [indexByte_append oneLine] at read
    simp only [Option.ite_none_right_eq_some, List.length_append, List.length_cons] at read
    omega
  · intro fits rest
    have header := shape []
    rw [List.append_nil] at header
    rw [shape rest, header]
    apply readLine_append oneLine
    simp only [List.length_append, List.length_cons]
    omega

end Header

/--
A tunnel with an accepted token is authenticated for an accepted target exactly when the token
has no character that Unicode counts as white space, and the header fits the buffer of 512 bytes.
-/
theorem token_authenticates_iff {path content token target : Str}
    (accepted : readTunnelToken path (.ok content) = .ok token)
    (valid : validBackendTarget target = true) :
    Authenticates token target ↔
      token.containsSpace = false ∧ 13 + token.length + target.length ≤ 512 := by
  rcases readTunnelToken_spec accepted with ⟨long, noNewline⟩
  have hasToken : token ≠ [] := by
    rintro rfl
    exact absurd long (by decide)
  unfold Authenticates
  rw [readLine_header_iff noNewline valid, authenticateTunnelHeader_iff hasToken valid, and_comm]

/-- A token of 64 hexadecimal digits and a newline after it. -/
theorem token_authenticates_hex :
    readTunnelToken (str "/etc/kiac-edge-token") (.ok (List.replicate 64 (byte 'a') ++ [byte '\n'])) =
        .ok (List.replicate 64 (byte 'a')) ∧
      Authenticates (List.replicate 64 (byte 'a')) (str "10.244.2.7:8080") := by
  have accepted : readTunnelToken (str "/etc/kiac-edge-token")
      (.ok (List.replicate 64 (byte 'a') ++ [byte '\n'])) = .ok (List.replicate 64 (byte 'a')) := by
    decide +kernel
  exact ⟨accepted, (token_authenticates_iff accepted (by decide)).mpr (by decide +kernel)⟩

def spacedToken : Str := List.replicate 20 (byte 'a') ++ [0xc2, 0xa0] ++ List.replicate 20 (byte 'a')

/-- A token with a no-break space and one of 500 characters are accepted. The header with the
first is read and refused, and the one with the second is not read. -/
theorem accepted_tokens_refused :
    (readTunnelToken (str "/etc/kiac-edge-token") (.ok spacedToken) = .ok spacedToken ∧
      readLine (tunnelHeader spacedToken (str "10.244.2.7:8080")) =
        some (tunnelHeader spacedToken (str "10.244.2.7:8080")) ∧
      authenticateTunnelHeader (tunnelHeader spacedToken (str "10.244.2.7:8080")) spacedToken = none) ∧
    readTunnelToken (str "/etc/kiac-edge-token") (.ok (List.replicate 500 (byte 'a'))) =
        .ok (List.replicate 500 (byte 'a')) ∧
      readLine (tunnelHeader (List.replicate 500 (byte 'a')) (str "10.244.2.7:8080")) = none := by
  refine ⟨⟨?_, ?_, ?_⟩, ?_, ?_⟩ <;> decide +kernel

end Kiac.EdgeProxy
