import Kiac.Text.Address
import Kiac.Text.HostPort
import Kiac.Text.Space

/-!
# Texts of an address and a port

The host of such a text is an address and the port is a number. Both can be read back,
and the text has visible ASCII characters only.
-/

namespace Kiac

namespace Net

variable {ip : Groups} {b : UInt8} {port : ℤ} {host : Str}

theorem not_mem_of_parseIP {s : Str} (parsed : parseIP s = some ip)
    (other : isAddressByte b = false) : b ∉ s := by
  intro mem
  rw [(parseIP_spec parsed).1 b mem] at other
  exact absurd other (by decide)

theorem not_mem_itoa (notDigit : Str.isDigit b = false)
    (notMinus : b ≠ byte '-') : b ∉ Str.itoa port := by
  intro mem
  rcases Str.isDigit_of_mem_itoa mem with digit | minus
  · rw [digit] at notDigit
    exact absurd notDigit (by decide)
  · exact notMinus minus

theorem splitHostPort_itoa (noOpen : byte '[' ∉ host) (noClose : byte ']' ∉ host) (port : ℤ) :
    splitHostPort (joinHostPort host (Str.itoa port)) = some (host, Str.itoa port) :=
  splitHostPort_joinHostPort noOpen noClose (not_mem_itoa (by decide) (by decide))
    (not_mem_itoa (by decide) (by decide)) (not_mem_itoa (by decide) (by decide))

/-- The host of a text is an address, or is missing. -/
def IsHost (host : Str) : Prop := host ≠ [] → ∃ ip, parseIP host = some ip

theorem isHost_of_parseIP (parsed : parseIP host = some ip) :
    IsHost host := fun _ => ⟨ip, parsed⟩

theorem IsHost.splitHostPort_joinHostPort (isHost : IsHost host) (port : ℤ) :
    splitHostPort (joinHostPort host (Str.itoa port)) = some (host, Str.itoa port) := by
  have absent : ∀ b, isAddressByte b = false → b ∉ host := by
    intro b other mem
    rcases isHost (List.ne_nil_of_mem mem) with ⟨ip, parsed⟩
    exact not_mem_of_parseIP parsed other mem
  exact splitHostPort_itoa (absent _ (by decide)) (absent _ (by decide)) port

theorem joinHostPort_inj {host' : Str} {port' : ℤ} (isHost : IsHost host) (isHost' : IsHost host')
    (eq : joinHostPort host (Str.itoa port) = joinHostPort host' (Str.itoa port')) :
    host = host' ∧ port = port' := by
  have read := isHost.splitHostPort_joinHostPort port
  rw [eq, isHost'.splitHostPort_joinHostPort] at read
  rcases Prod.mk.inj (Option.some.inj read) with ⟨hosts, ports⟩
  exact ⟨hosts.symm, (Str.itoa_injective ports).symm⟩

theorem isGraphic_of_isHex (hex : Str.isHex b) : Str.isGraphic b := by
  rw [Str.isGraphic_iff]
  simp only [Str.isHex, Str.hexDigit?] at hex
  split_ifs at hex with digit lower upper
  · have range := Str.isDigit_iff.mp digit
    omega
  · simp only [UInt8.le_iff_toNat_le] at lower
    have bounds : 97 ≤ b.toNat ∧ b.toNat ≤ 102 := lower
    omega
  · simp only [UInt8.le_iff_toNat_le] at upper
    have bounds : 65 ≤ b.toNat ∧ b.toNat ≤ 70 := upper
    omega
  · cases hex

theorem isGraphic_of_isAddressByte (address : isAddressByte b) :
    Str.isGraphic b := by
  simp only [isAddressByte, Bool.or_eq_true, beq_iff_eq] at address
  rcases address with (hex | rfl) | rfl
  · exact isGraphic_of_isHex hex
  · decide
  · decide

theorem isGraphic_of_mem_itoa (mem : b ∈ Str.itoa port) : Str.isGraphic b := by
  rcases Str.isDigit_of_mem_itoa mem with digit | rfl
  · exact isGraphic_of_isHex (Str.isHex_of_isDigit digit)
  · decide

theorem isGraphic_of_mem_joinHostPort (parsed : parseIP host = some ip)
    (mem : b ∈ joinHostPort host (Str.itoa port)) : Str.isGraphic b := by
  have inHost : b ∈ host → Str.isGraphic b := fun here =>
    isGraphic_of_isAddressByte ((parseIP_spec parsed).1 b here)
  unfold joinHostPort at mem
  split at mem
  · simp only [List.cons_append, List.mem_cons, List.mem_append] at mem
    rcases mem with rfl | here | rfl | rfl | here
    · decide
    · exact inHost here
    · decide
    · decide
    · exact isGraphic_of_mem_itoa here
  · simp only [List.mem_append, List.mem_cons] at mem
    rcases mem with here | rfl | here
    · exact inHost here
    · decide
    · exact isGraphic_of_mem_itoa here

theorem length_joinHostPort_le {port : ℕ} (parsed : parseIP host = some ip) (small : port < 65536) :
    (joinHostPort host (Str.itoa port)).length ≤ 73 := by
  have hostShort := (parseIP_spec parsed).2.1
  have portShort : (Str.itoa port).length ≤ 5 := Str.length_formatNat_le small
  unfold joinHostPort
  split
  · simp only [List.length_append, List.length_cons]
    omega
  · simp only [List.length_append, List.length_cons]
    omega

end Net

end Kiac
