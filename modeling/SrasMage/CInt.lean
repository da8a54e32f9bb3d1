import Mathlib.Algebra.Order.Ring.Nat
import Mathlib.Data.Int.Basic
import Mathlib.Tactic.Linarith

/-!
This module contains integer expressions of C on a platform with 32 bit `int` and 64 bit `long`.
-/

namespace CInt

structure IntType where
  bits : Nat
  signed : Bool
deriving DecidableEq

namespace IntType

def int : IntType := ⟨32, true⟩
def long : IntType := ⟨64, true⟩
def sizeT : IntType := ⟨64, false⟩

def min (t : IntType) : Int := if t.signed then -(2 ^ (t.bits - 1)) else 0
def max (t : IntType) : Int := if t.signed then 2 ^ (t.bits - 1) - 1 else 2 ^ t.bits - 1

def Holds (t : IntType) (v : Int) : Prop := t.min ≤ v ∧ v ≤ t.max

instance (t : IntType) (v : Int) : Decidable (t.Holds v) := inferInstanceAs (Decidable (_ ∧ _))

def promote (t : IntType) : IntType := if t.bits < 32 then int else t

def join (a b : IntType) : IntType :=
  if a.bits < b.bits then b
  else if b.bits < a.bits then a
  else ⟨a.bits, a.signed && b.signed⟩

def common (a b : IntType) : IntType := join a.promote b.promote

def convert (t : IntType) (v : Int) : Int :=
  if t.signed then Int.bmod v (2 ^ t.bits) else v % 2 ^ t.bits

end IntType

structure Value where
  type : IntType
  val : Int
deriving DecidableEq

def Value.mul (a b : Value) : Option Value :=
  let t := a.type.common b.type
  let v := t.convert a.val * t.convert b.val
  if t.signed then
    if t.Holds v then some ⟨t, v⟩ else none
  else some ⟨t, v % 2 ^ t.bits⟩

def Value.div (a b : Value) : Option Value :=
  let t := a.type.common b.type
  let v := (t.convert a.val).tdiv (t.convert b.val)
  if t.convert b.val = 0 then none
  else if t.Holds v then some ⟨t, v⟩ else none

def Value.gt (a b : Value) : Bool :=
  let t := a.type.common b.type
  t.convert b.val < t.convert a.val

def Value.cast (t : IntType) (a : Value) : Value := ⟨t, t.convert a.val⟩

inductive Expr (V T : Type) where
  | lit (n : Nat)
  | sizeMax
  | sizeof (type : T)
  | var (x : V)
  | castSizeT (e : Expr V T)
  | mul (a b : Expr V T)
  | div (a b : Expr V T)
deriving DecidableEq

structure Env (V T : Type) where
  value : V → Option Value
  size : T → Nat

def literalType (n : Nat) : IntType := if (n : Int) ≤ IntType.int.max then .int else .long

namespace Expr

variable {V T : Type}

def eval (env : Env V T) : Expr V T → Option Value
  | lit n => some ⟨literalType n, n⟩
  | sizeMax => some ⟨.sizeT, IntType.sizeT.max⟩
  | sizeof type => some ⟨.sizeT, env.size type⟩
  | var x => env.value x
  | castSizeT e => (e.eval env).map (Value.cast .sizeT)
  | mul a b => do (← a.eval env).mul (← b.eval env)
  | div a b => do (← a.eval env).div (← b.eval env)

end Expr

structure Cond (V T : Type) where
  nonzero : Expr V T
  greater : Expr V T
  limit : Expr V T

def Cond.eval {V T : Type} (env : Env V T) (c : Cond V T) : Option Bool := do
  if (← c.nonzero.eval env).val = 0 then return false
  return (← c.greater.eval env).gt (← c.limit.eval env)

def IntType.Valid (t : IntType) : Prop := t.bits = 8 ∨ t.bits = 16 ∨ t.bits = 32 ∨ t.bits = 64

section Lemmas

variable {t a b : IntType} {v : Int}

namespace IntType

theorem Valid.pos (h : t.Valid) : 0 < t.bits := by
  rcases h with h | h | h | h <;> omega

theorem Valid.le (h : t.Valid) : t.bits ≤ 64 := by
  rcases h with h | h | h | h <;> omega

theorem two_pow_le {m n : Nat} (h : m ≤ n) : (2 : Int) ^ m ≤ 2 ^ n :=
  pow_le_pow_right₀ (by decide) h

theorem convert_of_holds (ht : t.Valid) (h : t.Holds v) : t.convert v = v := by
  rcases h with ⟨hmin, hmax⟩
  have hpow : (2 : Int) ^ t.bits = 2 * 2 ^ (t.bits - 1) := by rw [← pow_succ', Nat.sub_add_cancel ht.pos]
  unfold convert
  split
  . next hsigned =>
    rw [IntType.min, if_pos hsigned] at hmin
    rw [IntType.max, if_pos hsigned] at hmax
    apply Int.bmod_eq_of_le_mul_two
    . push_cast
      omega
    push_cast
    omega
  . next hunsigned =>
    rw [IntType.min, if_neg hunsigned] at hmin
    rw [IntType.max, if_neg hunsigned] at hmax
    exact Int.emod_eq_of_lt hmin (by omega)

theorem max_le (t : IntType) : t.max ≤ 2 ^ t.bits - 1 := by
  unfold IntType.max
  split
  . have := two_pow_le (Nat.sub_le t.bits 1)
    omega
  . exact le_rfl

theorem le_max (t : IntType) : 2 ^ (t.bits - 1) - 1 ≤ t.max := by
  unfold IntType.max
  split
  . exact le_rfl
  have := two_pow_le (Nat.sub_le t.bits 1)
  omega

theorem max_le_of_bits_lt (h : a.bits < b.bits) : a.max ≤ b.max := by
  have h1 := max_le a
  have h2 := le_max b
  have h3 := two_pow_le (show a.bits ≤ b.bits - 1 by omega)
  omega

theorem max_le_promote (t : IntType) : t.max ≤ t.promote.max := by
  unfold promote
  split
  . next h => exact max_le_of_bits_lt h
  . exact le_rfl

theorem max_le_join (a b : IntType) : a.max ≤ (join a b).max ∧ b.max ≤ (join a b).max := by
  unfold join
  split
  . next h => exact ⟨max_le_of_bits_lt h, le_rfl⟩
  split
  . next h => exact ⟨le_rfl, max_le_of_bits_lt h⟩
  next h1 h2 =>
  have hbits : a.bits = b.bits := by omega
  by_cases hsigned : a.signed = true ∧ b.signed = true
  . simp [IntType.max, hsigned, hbits]
  have hmax : (⟨a.bits, a.signed && b.signed⟩ : IntType).max = 2 ^ a.bits - 1 := by
    rw [IntType.max, if_neg (by simpa using hsigned)]
  rw [hmax]
  refine ⟨max_le a, ?_⟩
  rw [hbits]
  exact max_le b

theorem holds_common (hv : 0 ≤ v) (h : v ≤ a.max ∨ v ≤ b.max) : (a.common b).Holds v := by
  have hpos : (a.common b).min ≤ 0 := by
    unfold IntType.min
    split
    . have : (0 : Int) < 2 ^ ((a.common b).bits - 1) := by positivity
      omega
    . exact le_rfl
  have ha := max_le_promote a
  have hb := max_le_promote b
  have hjoin := max_le_join a.promote b.promote
  refine ⟨by omega, ?_⟩
  rw [common]
  omega

theorem Valid.promote (h : t.Valid) : t.promote.Valid := by
  unfold IntType.promote
  split
  . exact .inr (.inr (.inl rfl))
  . exact h

theorem Valid.common (ha : a.Valid) (hb : b.Valid) : (a.common b).Valid := by
  unfold IntType.common join
  split
  . exact hb.promote
  split
  . exact ha.promote
  . exact ha.promote

theorem bits_common (ha : a.Valid) (hb : b.Valid) : (a.common b).bits = 32 ∨ (a.common b).bits = 64 := by
  have hvalid := ha.common hb
  have hpromote : ∀ t : IntType, 32 ≤ t.promote.bits := by
    intro t
    unfold IntType.promote
    split
    . exact le_rfl
    . omega
  have hwide : 32 ≤ (a.common b).bits := by
    unfold IntType.common join
    split
    . exact hpromote b
    split
    . exact hpromote a
    . exact hpromote a
  rcases hvalid with h | h | h | h <;> omega

theorem common_comm (a b : IntType) : a.common b = b.common a := by
  unfold IntType.common join
  split
  . rw [if_neg (by omega)]
  split
  . rfl
  . next h1 h2 => rw [Bool.and_comm, show a.promote.bits = b.promote.bits by omega]

theorem common_sizeT (h : t.Valid) : t.common sizeT = sizeT := by
  have hbits := h.promote.le
  have hpromote : sizeT.promote = sizeT := rfl
  unfold IntType.common join
  rw [hpromote]
  split
  . rfl
  next hle =>
  have h64 : t.promote.bits = 64 := by
    change ¬ t.promote.bits < 64 at hle
    omega
  rw [if_neg (by change ¬ 64 < t.promote.bits; omega), h64]
  simp [sizeT]

theorem valid_sizeT : sizeT.Valid := Or.inr (.inr (.inr rfl))

theorem max_le_sizeT (h : t.Valid) : t.max ≤ sizeT.max := by
  have h1 := max_le t
  have h2 := two_pow_le h.le
  have h3 : sizeT.max = 2 ^ 64 - 1 := rfl
  omega

end IntType

structure Value.Natural (a : Value) : Prop where
  type : a.type.Valid
  nonneg : 0 ≤ a.val
  le : a.val ≤ a.type.max

variable {x y : Value}

section

variable (hx : x.Natural)
include hx

theorem Value.Natural.convert_common (hy : y.Natural) : (x.type.common y.type).convert x.val = x.val
      ∧ (x.type.common y.type).convert y.val = y.val :=
  ⟨IntType.convert_of_holds (hx.type.common hy.type) (IntType.holds_common hx.nonneg (.inl hx.le)),
    IntType.convert_of_holds (hx.type.common hy.type) (IntType.holds_common hy.nonneg (.inr hy.le))⟩

theorem Value.Natural.convert_sizeT : IntType.sizeT.convert x.val = x.val := by
  have hle := IntType.max_le_sizeT hx.type
  have h := hx.le
  exact IntType.convert_of_holds IntType.valid_sizeT ⟨hx.nonneg, by omega⟩

theorem Value.Natural.mul_of_le (hy : y.Natural) (h : x.val * y.val ≤ (x.type.common y.type).max) :
    x.mul y = some ⟨x.type.common y.type, x.val * y.val⟩ := by
  have hpos := mul_nonneg hx.nonneg hy.nonneg
  rcases hx.convert_common hy with ⟨hcx, hcy⟩
  unfold Value.mul
  simp only [hcx, hcy]
  split
  . next hsigned =>
    have hmin : (x.type.common y.type).min ≤ x.val * y.val := by
      rw [IntType.min, if_pos hsigned]
      have : (0 : Int) < 2 ^ ((x.type.common y.type).bits - 1) := by positivity
      omega
    rw [if_pos ⟨hmin, h⟩]
  . next hunsigned =>
    rw [IntType.max, if_neg hunsigned] at h
    rw [Int.emod_eq_of_lt hpos (by omega)]

theorem Value.Natural.mul_of_signed (hy : y.Natural) (hsigned : (x.type.common y.type).signed = true)
    (h : (x.type.common y.type).max < x.val * y.val) : x.mul y = none := by
  rcases hx.convert_common hy with ⟨hcx, hcy⟩
  unfold Value.mul
  simp only [hcx, hcy, if_pos hsigned]
  rw [if_neg]
  rintro ⟨-, hle⟩
  omega

theorem Value.Natural.mul_of_unsigned (hy : y.Natural) (hunsigned : (x.type.common y.type).signed = false) :
    x.mul y = some ⟨x.type.common y.type, x.val * y.val % 2 ^ (x.type.common y.type).bits⟩ := by
  rcases hx.convert_common hy with ⟨hcx, hcy⟩
  unfold Value.mul
  simp [hcx, hcy, hunsigned]

theorem Value.Natural.div_sizeMax (h : x.val ≠ 0) :
    Value.div ⟨.sizeT, IntType.sizeT.max⟩ x = some ⟨.sizeT, IntType.sizeT.max / x.val⟩ := by
  have hmax : Value.Natural ⟨.sizeT, IntType.sizeT.max⟩ :=
    ⟨IntType.valid_sizeT, by decide, le_rfl⟩
  have hcommon : IntType.sizeT.common x.type = .sizeT := by rw [IntType.common_comm, IntType.common_sizeT hx.type]
  have hpos := hx.nonneg
  have hdiv : 0 ≤ IntType.sizeT.max / x.val ∧ IntType.sizeT.max / x.val ≤ IntType.sizeT.max :=
    ⟨Int.ediv_nonneg (by decide) hpos, Int.ediv_le_self _ (by decide)⟩
  unfold Value.div
  simp only [hcommon, hmax.convert_sizeT, hx.convert_sizeT]
  rw [if_neg h, Int.tdiv_eq_ediv_of_nonneg (by decide), if_pos ⟨hdiv.1, hdiv.2⟩]

theorem Value.Natural.gt_sizeT {v : Int}
    (hv : 0 ≤ v ∧ v ≤ IntType.sizeT.max) : x.gt ⟨.sizeT, v⟩ = decide (v < x.val) := by
  have hy : Value.Natural ⟨.sizeT, v⟩ := ⟨IntType.valid_sizeT, hv.1, hv.2⟩
  rcases hx.convert_common hy with ⟨hcx, hcv⟩
  unfold Value.gt
  simp only [hcx, hcv]

theorem Value.Natural.cast_sizeT : (x.cast .sizeT).Natural where
  type := IntType.valid_sizeT
  nonneg := by
    rw [Value.cast, hx.convert_sizeT]
    exact hx.nonneg
  le := by
    rw [Value.cast, hx.convert_sizeT]
    exact le_trans hx.le (IntType.max_le_sizeT hx.type)

end

end Lemmas

end CInt
