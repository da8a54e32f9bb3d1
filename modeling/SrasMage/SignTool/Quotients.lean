import Mathlib.Algebra.Order.Ring.Nat
import Mathlib.Data.Nat.Digits.Lemmas

/-!
This module contains the quotients that are stored beside an RSA signature (`calc_RSAq1q2` of
`sdk/sign_tool/SignTool/sign_tool.cpp`).
-/

namespace SignTool

open List

abbrev seKeySize : Nat := 384

inductive BnCall where
  | new (k : Nat)
  | bin2bn (k : Nat)
  | ctxNew
  | mul (k : Nat)
  | div (k : Nat)
  | malloc (size : Nat)

/-- The big numbers of OpenSSL, with the calls that fail. -/
structure BnLibrary (B : Type) where
  fails : BnCall → Bool
  bin2bn : List UInt8 → B
  mul : B → B → B
  div : B → B → Option (B × B)
  numBytes : B → Nat
  bn2bin : B → List UInt8

def bigEndian (data : List UInt8) : Nat := Nat.ofDigits 256 (data.reverse.map UInt8.toNat)

def toBigEndian (n : Nat) : List UInt8 := ((Nat.digits 256 n).map UInt8.ofNat).reverse

variable {B : Type}

structure BnLibrary.Exact (lib : BnLibrary B) (value : B → Nat) : Prop where
  succeeds : ∀ c, lib.fails c = false
  value_bin2bn : ∀ data, value (lib.bin2bn data) = bigEndian data
  value_mul : ∀ a b, value (lib.mul a b) = value a * value b
  div_eq : ∀ a b, value b ≠ 0 →
    ∃ q r, lib.div a b = some (q, r) ∧ value q = value a / value b ∧ value r = value a % value b
  numBytes_eq : ∀ a, lib.numBytes a = (toBigEndian (value a)).length
  bn2bin_eq : ∀ a, lib.bn2bin a = toBigEndian (value a)

section

variable (lib : BnLibrary B)

def bnCall (c : BnCall) : Option Unit := if lib.fails c then none else some ()

def quotients (dataS dataM : List UInt8) : Option (List UInt8 × List UInt8) := do
  [0, 1, 2, 3, 4, 5].forM fun k => bnCall lib (.new k)
  bnCall lib (.bin2bn 0)
  let m := lib.bin2bn dataM
  bnCall lib (.bin2bn 1)
  let s := lib.bin2bn dataS
  bnCall lib .ctxNew
  bnCall lib (.mul 0)
  bnCall lib (.div 0)
  let (q1, temp2) ← lib.div (lib.mul s s) m
  bnCall lib (.mul 1)
  bnCall lib (.div 1)
  let (q2, _) ← lib.div (lib.mul s temp2) m
  bnCall lib (.malloc (lib.numBytes q1))
  bnCall lib (.malloc (lib.numBytes q2))
  if lib.numBytes q1 ≠ (lib.bn2bin q1).length then none
  else if lib.numBytes q2 ≠ (lib.bn2bin q2).length then none
  else some (lib.bn2bin q1, lib.bn2bin q2)

def copyReversed (data q : List UInt8) : List UInt8 :=
  let size := if q.length < seKeySize then q.length else seKeySize
  (range size).foldl (fun data i => data.set i (q.getD (size - i - 1) 0)) data

def calcRSAq1q2 (dataS dataM dataQ1 dataQ2 : List UInt8) : Bool × List UInt8 × List UInt8 :=
  match quotients lib dataS dataM with
  | none => (false, dataQ1, dataQ2)
  | some (q1, q2) => (true, copyReversed dataQ1 q1, copyReversed dataQ2 q2)

end

def leBytes (width n : Nat) : List UInt8 := (Nat.digitsAppend 256 width n).map UInt8.ofNat

theorem foldl_set (g : Nat → UInt8) (data : List UInt8) {n : Nat} (h : n ≤ data.length) :
    (range n).foldl (fun data i => data.set i (g i)) data = (range n).map g ++ data.drop n := by
  induction n with
  | zero => rfl
  | succ n ih =>
    rw [range_succ, foldl_append, ih (by omega), drop_eq_getElem_cons (show n < data.length by omega)]
    simp [-getElem_cons_drop]

theorem map_getD_range (q : List UInt8) : (range q.length).map (fun i => q.getD (q.length - i - 1) 0) = q.reverse := by
  apply ext_getElem
  . simp
  intro i hi hi'
  rw [length_reverse] at hi'
  rw [getElem_map, getElem_range, getElem_reverse, getD_eq_getElem?_getD,
    getElem?_eq_getElem (show q.length - i - 1 < q.length by omega), Option.getD_some]
  congr 1
  omega

theorem copyReversed_toBigEndian {n : Nat} (h : n < 256 ^ seKeySize) :
    copyReversed (replicate seKeySize 0) (toBigEndian n) = leBytes seKeySize n := by
  have hlen : (toBigEndian n).length ≤ seKeySize := by
    rw [toBigEndian, length_reverse, length_map]
    exact (Nat.digits_length_le_iff (by decide) n).2 h
  have hmin : (if (toBigEndian n).length < seKeySize then (toBigEndian n).length else seKeySize) =
      (toBigEndian n).length := by
    split <;> omega
  rw [copyReversed, hmin, foldl_set _ _ (by rwa [length_replicate]), map_getD_range, drop_replicate]
  simp [toBigEndian, leBytes, Nat.digitsAppend]

theorem bigEndian_lt (data : List UInt8) : bigEndian data < 256 ^ data.length := by
  have h := Nat.ofDigits_lt_base_pow_length (b := 256) (l := data.reverse.map UInt8.toNat) (by decide)
    (by simpa using fun b _ => UInt8.toNat_lt b)
  rwa [length_map, length_reverse] at h

theorem mul_div_lt {a b m : Nat} (ha : a < m) (hb : b < m) : a * b / m < m :=
  Nat.div_lt_of_lt_mul (Nat.mul_lt_mul'' ha hb)

theorem calcRSAq1q2_exact (lib : BnLibrary B) {value : B → Nat} (hlib : lib.Exact value) (s m : List UInt8)
    (hm : m.length = seKeySize) (hlt : bigEndian s < bigEndian m) :
    calcRSAq1q2 lib s m (replicate seKeySize 0) (replicate seKeySize 0)
      = (true, leBytes seKeySize (bigEndian s ^ 2 / bigEndian m),
          leBytes seKeySize (bigEndian s * (bigEndian s ^ 2 % bigEndian m) / bigEndian m)) := by
  have hM : bigEndian m < 256 ^ seKeySize := hm ▸ bigEndian_lt m
  have hpos : value (lib.bin2bn m) ≠ 0 := by
    rw [hlib.value_bin2bn]
    omega
  obtain ⟨q1, temp2, hdiv1, hq1, htemp2⟩ := hlib.div_eq (lib.mul (lib.bin2bn s) (lib.bin2bn s)) _ hpos
  obtain ⟨q2, r, hdiv2, hq2, -⟩ := hlib.div_eq (lib.mul (lib.bin2bn s) temp2) _ hpos
  rw [hlib.value_mul, hlib.value_bin2bn, hlib.value_bin2bn] at hq1 htemp2
  rw [hlib.value_mul, hlib.value_bin2bn, hlib.value_bin2bn, htemp2] at hq2
  have hquotients : quotients lib s m = some (toBigEndian (value q1), toBigEndian (value q2)) := by
    simp [quotients, bnCall, hlib.succeeds, hdiv1, hdiv2, hlib.numBytes_eq, hlib.bn2bin_eq]
  have hlt1 := (mul_div_lt hlt hlt).trans hM
  have hlt2 := (mul_div_lt hlt (Nat.mod_lt (bigEndian s * bigEndian s) (by omega))).trans hM
  rw [calcRSAq1q2, hquotients, hq1, hq2, pow_two]
  simp only [copyReversed_toBigEndian hlt1, copyReversed_toBigEndian hlt2]

def natLibrary : BnLibrary Nat where
  fails _ := false
  bin2bn := bigEndian
  mul a b := a * b
  div a b := if b = 0 then none else some (a / b, a % b)
  numBytes n := (toBigEndian n).length
  bn2bin := toBigEndian

theorem exact_natLibrary : natLibrary.Exact id where
  succeeds _ := rfl
  value_bin2bn _ := rfl
  value_mul _ _ := rfl
  div_eq _ _ h := ⟨_, _, if_neg h, rfl, rfl⟩
  numBytes_eq _ := rfl
  bn2bin_eq _ := rfl

/-- `M = 2 ^ 3071` and `S = 2 ^ 1536 + 1`. -/
theorem calcRSAq1q2_exact_short :
    calcRSAq1q2 natLibrary (replicate 191 0 ++ 1 :: replicate 191 0 ++ [1]) (128 :: replicate 383 0)
      (replicate seKeySize 0) (replicate seKeySize 0) = (true, 2 :: replicate 383 0, 4 :: replicate 383 0) := by
  rw [calcRSAq1q2_exact _ exact_natLibrary _ _ (by decide +kernel) (by decide +kernel)]
  decide +kernel

def palindrome : List UInt8 := 128 :: replicate 382 0 ++ [128]

def signature64 : List UInt8 := replicate 383 0 ++ [64]

theorem calcRSAq1q2_little_endian :
    bigEndian signature64.reverse < bigEndian palindrome.reverse
    ∧ 2 ^ 3071 ≤ bigEndian palindrome.reverse
    ∧ (calcRSAq1q2 natLibrary signature64 palindrome (replicate seKeySize 0)
        (replicate seKeySize 0)).2.1
      ≠ leBytes seKeySize (bigEndian signature64.reverse ^ 2 / bigEndian palindrome.reverse) := by
  decide +kernel

end SignTool
