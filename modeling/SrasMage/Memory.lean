import SrasMage.Bytes
import Mathlib.Tactic.Common

/-!
This module contains a memory of bytes.
-/

namespace Memory

open Bytes Nat

abbrev Mem := Nat → UInt8

def load (m : Mem) (a n : Nat) : List UInt8 := tabulate (fun k => m (a + k)) n

def store (m : Mem) (a : Nat) (bytes : List UInt8) : Mem :=
  splice m a bytes.length fun k => bytes.getD k 0

def Apart (a n b m : Nat) : Prop := a + n ≤ b ∨ b + m ≤ a

def Within (a n b m : Nat) : Prop := b ≤ a ∧ a + n ≤ b + m

variable {m m' : Mem} {a n b k : Nat} {bytes : List UInt8}

@[simp]
theorem length_load (m : Mem) (a n : Nat) : (load m a n).length = n := length_tabulate _ _

theorem getElem_load (m : Mem) (a n : Nat) (h : k < (load m a n).length) : (load m a n)[k] = m (a + k) :=
  getElem_tabulate _ _ _ h

theorem load_congr (h : ∀ c, a ≤ c → c < a + n → m c = m' c) : load m a n = load m' a n :=
  tabulate_congr fun k hk => h (a + k) (by omega) (by omega)

theorem store_of_not (h : ¬(a ≤ b ∧ b < a + bytes.length)) : store m a bytes b = m b := by
  unfold store splice
  rw [if_neg h]

theorem load_store_apart (h : Apart a n b bytes.length) : load (store m b bytes) a n = load m a n := by
  refine load_congr fun c hc hc' => store_of_not ?_
  unfold Apart at h
  omega

theorem store_getElem (hk : k < bytes.length) : store m a bytes (a + k) = bytes.get ⟨k, hk⟩ := by
  unfold store splice
  rw [if_pos ⟨by omega, by omega⟩, show a + k - a = k by omega]
  simp [List.getD, List.getElem?_eq_getElem hk]

theorem load_store_same (m : Mem) (a : Nat) (bytes : List UInt8) : load (store m a bytes) a bytes.length = bytes := by
  apply List.ext_getElem
  . exact length_load _ _ _
  intro k hk hk'
  rw [getElem_load, store_getElem hk']
  rfl

theorem load_add (m : Mem) (a n k : Nat) : load m a (n + k) = load m a n ++ load m (a + n) k := by
  unfold load
  rw [tabulate_add]
  congr 1
  exact tabulate_congr fun i _ => by rw [add_assoc]

theorem load_store_append (m : Mem) (a n : Nat) (bytes : List UInt8) :
    load (store m (a + n) bytes) a (n + bytes.length) = load m a n ++ bytes := by
  rw [load_add, load_store_apart (.inl (le_refl _)), load_store_same]

theorem load_store_part (m : Mem) (a : Nat) (bytes : List UInt8) {k n : Nat} (h : k + n ≤ bytes.length) :
    load (store m a bytes) (a + k) n = (bytes.drop k).take n := by
  have hpart : load (store m a bytes) (a + k) n = ((load (store m a bytes) a bytes.length).drop k).take n := by
    unfold load
    rw [take_drop_tabulate _ h]
    exact tabulate_congr fun i _ => by rw [add_assoc]
  rw [hpart, load_store_same]

theorem load_load (m : Mem) (a : Nat) {k n size : Nat} (h : k + n ≤ size) :
    ((load m a size).drop k).take n = load m (a + k) n := by
  unfold load
  rw [take_drop_tabulate _ h]
  exact tabulate_congr fun i _ => by rw [add_assoc]

def ofBytes : List UInt8 → Nat
  | [] => 0
  | b :: rest => b.toNat + 256 * ofBytes rest

def toBytes : Nat → Nat → List UInt8
  | 0, _ => []
  | n + 1, v => UInt8.ofNat v :: toBytes n (v / 256)

@[simp]
theorem length_toBytes (n v : Nat) : (toBytes n v).length = n := by
  induction n generalizing v with
  | zero => rfl
  | succ n ih => simp [toBytes, ih]

theorem toBytes_congr {n v w : Nat} (h : v % 256 ^ n = w % 256 ^ n) : toBytes n v = toBytes n w := by
  induction n generalizing v w with
  | zero => rfl
  | succ n ih =>
    rw [pow_succ'] at h
    have hbyte : v % 256 = w % 256 := by rw [← mod_mul_right_mod v 256 (256 ^ n), h, mod_mul_right_mod]
    have hrest : v / 256 % 256 ^ n = w / 256 % 256 ^ n := by rw [← mod_mul_right_div_self, h, mod_mul_right_div_self]
    have hlow : UInt8.ofNat v = UInt8.ofNat w := by
      apply UInt8.toNat_inj.1
      rw [UInt8.toNat_ofNat', UInt8.toNat_ofNat']
      exact hbyte
    rw [toBytes, toBytes, hlow, ih hrest]

theorem ofBytes_lt (bytes : List UInt8) : ofBytes bytes < 256 ^ bytes.length := by
  induction bytes with
  | nil => decide
  | cons b rest ih =>
    have hb := b.toNat_lt
    rw [ofBytes, List.length_cons, pow_succ]
    omega

def ntoh (bytes : List UInt8) : Nat := ofBytes bytes.reverse

theorem ntoh_lt (bytes : List UInt8) : ntoh bytes < 256 ^ bytes.length := by
  have := ofBytes_lt bytes.reverse
  rwa [List.length_reverse] at this

theorem ofBytes_toBytes {n v : Nat} (h : v < 256 ^ n) : ofBytes (toBytes n v) = v := by
  induction n generalizing v with
  | zero =>
    rw [pow_zero] at h
    rw [toBytes, ofBytes]
    omega
  | succ n ih =>
    rw [pow_succ] at h
    rw [toBytes, ofBytes, ih (by omega), UInt8.toNat_ofNat']
    omega

end Memory
