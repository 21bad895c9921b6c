import Kiac.Krunkit.Client

/-!
# Control sockets

The socket of a VM has a hash of 32 bits in its name. From one state on, different last bytes give
different hashes, but longer names can have the same one.
-/

namespace Kiac.Krunkit

variable {client : Client} {a b : Str}

theorem fnv32_concat_inj {s : Str} {c d : UInt8} (same : fnv32 (s ++ [c]) = fnv32 (s ++ [d])) :
    c = d := by
  simp only [fnv32, List.foldl_append, List.foldl_cons, List.foldl_nil] at same
  -- The prime is odd, so that it has an inverse.
  have inverse : (16777619 : UInt32) * 899433627 = 1 := by decide
  have states := congrArg (· * (899433627 : UInt32)) same
  simp only [UInt32.mul_assoc, inverse, UInt32.mul_one, UInt32.xor_right_inj] at states
  exact UInt8.toUInt32_inj.mp states

theorem hexValue_replicate (count : ℕ) (s : Str) :
    Str.hexValue (List.replicate count (byte '0') ++ s) = Str.hexValue s := by
  have zeros : (List.replicate count (byte '0')).foldl
      (fun value b => 16 * value + (Str.hexDigit? b).getD 0) 0 = 0 := by
    induction count with
    | zero => rfl
    | succ count ih => exact ih
  rw [Str.hexValue, List.foldl_append, zeros, Str.hexValue]

theorem shortSocketPath_eq_iff : client.shortSocketPath a = client.shortSocketPath b ↔
    fnv32 (client.root ++ 0 :: a) = fnv32 (client.root ++ 0 :: b) := by
  constructor
  · intro same
    have digits := List.append_cancel_left (List.append_cancel_right same)
    have values := congrArg Str.hexValue digits
    simp only [Client.hex8, hexValue_replicate, Str.hexValue_formatHex] at values
    exact UInt32.toNat_inj.mp values
  · intro same
    rw [Client.shortSocketPath, Client.shortSocketPath, same]

end Kiac.Krunkit
