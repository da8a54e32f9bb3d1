import Mathlib.Algebra.Order.Ring.Nat
import Mathlib.Data.List.Basic

/-!
This module contains encryption with a keystream, of data that comes in pieces.
-/

namespace StreamCipher

variable (keystream : Nat → UInt8)

def encryptAt (pos : Nat) (data : List UInt8) : List UInt8 := data.mapIdx fun i b => b ^^^ keystream (pos + i)

@[simp]
theorem length_encryptAt (pos : Nat) (data : List UInt8) : (encryptAt keystream pos data).length = data.length :=
  List.length_mapIdx

@[simp]
theorem encryptAt_nil (pos : Nat) : encryptAt keystream pos [] = [] := rfl

theorem encryptAt_append (pos : Nat) (data data' : List UInt8) : encryptAt keystream pos (data ++ data') =
      encryptAt keystream pos data ++ encryptAt keystream (pos + data.length) data' := by
  unfold encryptAt
  rw [List.mapIdx_append]
  simp only [Nat.add_assoc, Nat.add_comm data.length]

end StreamCipher
