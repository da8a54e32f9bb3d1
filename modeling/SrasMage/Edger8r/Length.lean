import SrasMage.CInt
import SrasMage.Edger8r.Ast

/-!
This module contains the length of a pointer parameter in an ECALL bridge.
-/

namespace Edger8r

open CInt Option

inductive Var where
  | tmp (name : String)
  | len (name : String)
deriving DecidableEq

inductive SizeofArg where
  | type (ty : AType)
  | deref (x : Var)
deriving DecidableEq

abbrev CExpr := Expr Var SizeofArg

def intType? : AType → Option IntType
  | .char .signed => some ⟨8, true⟩
  | .char .unsigned => some ⟨8, false⟩
  | .long .signed | .lLong .signed => some ⟨64, true⟩
  | .long .unsigned | .lLong .unsigned => some ⟨64, false⟩
  | .int ⟨s, .iShort⟩ => some ⟨16, s = .signed⟩
  | .int ⟨s, .iLong⟩ => some ⟨64, s = .signed⟩
  | .int ⟨s, .iNone⟩ => some ⟨32, s = .signed⟩
  | .int8 => some ⟨8, true⟩
  | .int16 => some ⟨16, true⟩
  | .int32 => some ⟨32, true⟩
  | .int64 => some ⟨64, true⟩
  | .uInt8 => some ⟨8, false⟩
  | .uInt16 => some ⟨16, false⟩
  | .uInt32 => some ⟨32, false⟩
  | .uInt64 => some ⟨64, false⟩
  | .wChar => some ⟨32, true⟩
  | .sizeT => some ⟨64, false⟩
  | _ => none

def mkLenSize : AttrValue → CExpr
  | .aString s => .var (.tmp s)
  | .aNumber n => .lit n

def doPsAttribute (ty : AType) (pattr : PtrAttr) (name : String) : CExpr :=
  let size : CExpr :=
    match pattr.paSize.psSize with
    | some a => mkLenSize a
    | none =>
      match ty with
      | .ptr ty => .sizeof (.type ty)
      | _ => if pattr.paIsPtr then .sizeof (.deref (.tmp name)) else .sizeof (.type ty)
  match pattr.paSize.psCount with
  | none => size
  | some a => .mul (mkLenSize a) size

def genCheckLength (attr : PtrAttr) (name : String) : Option (Cond Var SizeofArg) :=
  let size : CExpr :=
    match attr.paSize.psSize with
    | some a => mkLenSize a
    | none => .sizeof (.deref (.tmp name))
  match attr.paSize.psCount with
  | none => none
  | some (.aString s) => some ⟨size, .castSizeT (.var (.tmp s)), .div .sizeMax size⟩
  | some (.aNumber n) => some ⟨size, .lit n, .div .sizeMax size⟩

inductive Outcome where
  | past (len : Nat)
  | invalidParameter
  | unexpected
  | undefined
deriving DecidableEq

def checkSize (isDeepCopy : String → Bool) (ty : AType) (attr : PtrAttr) (name : String) : Option SizeofArg :=
  if attr.paDirection = .ptrNoDirection then none
  else if attr.paIsStr then none
  else if attr.paIsWstr then some (.type .wChar)
  else
    match ty with
    | .ptr .void | .ptr (.foreign _) | .foreign _ => none
    | .ptr (.struct s) => if isDeepCopy s then some (.deref (.tmp name)) else none
    | _ => some (.deref (.tmp name))

def checkLength (env : Env Var SizeofArg) (attr : PtrAttr) (check : Option SizeofArg) (ptr len : Nat) : Outcome :=
  match check with
  | none => .past len
  | some x =>
    if ptr ≠ 0 ∧ len ≠ 0 ∧ len % env.size x ≠ 0 then
      if attr.paIsWstr then .unexpected else .invalidParameter
    else .past len

def bindLength (env : Env Var SizeofArg) (isOutside : Nat → Nat → Bool) (isDeepCopy : String → Bool) (ty : AType)
    (attr : PtrAttr) (name : String) (ptr : Nat) : Outcome :=
  match (doPsAttribute ty attr name).eval env with
  | none => .undefined
  | some v =>
    let len := (IntType.sizeT.convert v.val).toNat
    match ((genCheckLength attr name).map (·.eval env)).getD (some false) with
    | none => .undefined
    | some true => .invalidParameter
    | some false =>
      if ptr ≠ 0 ∧ !isOutside ptr len then .invalidParameter
      else checkLength env attr (checkSize isDeepCopy ty attr name) ptr len

def AttrValue.value? (plist : List PDecl) (value : String → Int) : AttrValue → Option Value
  | .aNumber n => some ⟨literalType n, n⟩
  | .aString s => do
    let (pt, _) ← plist.find? (fun pd => pd.2.identifier = s)
    return ⟨← intType? (getParamAType pt), value s⟩

structure Sizes where
  sizeof : AType → Nat
  pointee : String → Nat

def Sizes.elem (sizes : Sizes) : AType → Nat
  | .ptr ty => sizes.sizeof ty
  | .foreign s => sizes.pointee s
  | _ => 0

def bridgeEnv (plist : List PDecl) (value : String → Int) (sizes : Sizes) : Env Var SizeofArg where
  value
    | .tmp s => (AttrValue.aString s).value? plist value
    | .len _ => none
  size
    | .type ty => sizes.sizeof ty
    | .deref (.tmp s) =>
      ((plist.find? (fun pd => pd.2.identifier = s)).map (fun pd => sizes.elem (getParamAType pd.1))).getD 0
    | .deref (.len _) => 0

structure Attributes (plist : List PDecl) (value : String → Int) (sizes : Sizes) (ty : AType)
    (attr : PtrAttr) (size : Value) (count : Option Value) : Prop where
  sizeAttr : (attr.paSize.psSize.map (·.value? plist value)).getD (some ⟨.sizeT, sizes.elem ty⟩)
    = some size
  countAttr : attr.paSize.psCount.map (·.value? plist value) = count.map some
  naturalSize : size.Natural
  naturalCount : ∀ c, count = some c → c.Natural

def product (size : Value) (count : Option Value) : Nat := ((count.map (·.val)).getD 1 * size.val).toNat

def Outcome.Exact (o : Outcome) (len : Nat) : Prop := o ≠ .undefined ∧ ∀ n, o = .past n → n = len

def ExactLength (env : Env Var SizeofArg) (isDeepCopy : String → Bool) (ty : AType) (attr : PtrAttr) (name : String)
    (len : Nat) : Prop :=
  ∀ isOutside ptr, ptr ≠ 0 → (bindLength env isOutside isDeepCopy ty attr name ptr).Exact len

def ProductFits (size : Value) (count : Option Value) : Prop :=
  ∀ c, count = some c → c.type.common size.type = .sizeT ∨ c.val * size.val ≤ (c.type.common size.type).max

/--
The product wraps to a length that is refused because it is no multiple of the size of an element.
-/
def WrapIsRefused (env : Env Var SizeofArg) (check : Option SizeofArg) (size : Value) (count : Option Value) : Prop :=
  ∃ x c, check = some x ∧ count = some c ∧ (c.type.common size.type).signed = false ∧
    let len := (c.val * size.val % 2 ^ (c.type.common size.type).bits).toNat
    len ≠ 0 ∧ len % env.size x ≠ 0

section

variable {plist : List PDecl} {value : String → Int} {sizes : Sizes} {ty : AType} {attr : PtrAttr}
  {declr : Declarator} {size : Value} {count : Option Value} {isDeepCopy : String → Bool}

theorem eval_mkLenSize (a : AttrValue) : (mkLenSize a).eval (bridgeEnv plist value sizes) = a.value? plist value := by
  cases a <;> rfl

def IsPointer (ty : AType) (attr : PtrAttr) : Prop :=
  (∃ t, ty = .ptr t) ∨ ∃ s, ty = .foreign s ∧ attr.paIsPtr = true

theorem eval_cond {greater sizeExpr : CExpr} {env : Env Var SizeofArg} {c g : Value}
    (hsize : size.Natural) (hg : g.Natural) (hgc : g.val = c.val)
    (hsizeEval : sizeExpr.eval env = some size) (hgreater : greater.eval env = some g) :
    Cond.eval env ⟨sizeExpr, greater, .div .sizeMax sizeExpr⟩
      = some (decide (IntType.sizeT.max < c.val * size.val)) := by
  simp only [Cond.eval, Expr.eval, hsizeEval, hgreater, bind_eq_bind, bind_some]
  by_cases hzero : size.val = 0
  . simp only [hzero, if_true, mul_zero]
    rfl
  have hpos : 0 < size.val := lt_of_le_of_ne hsize.nonneg (Ne.symm hzero)
  have hdiv : 0 ≤ IntType.sizeT.max / size.val ∧ IntType.sizeT.max / size.val ≤ IntType.sizeT.max :=
    ⟨Int.ediv_nonneg (by decide) hsize.nonneg, Int.ediv_le_self _ (by decide)⟩
  simp only [if_neg hzero, hsize.div_sizeMax hzero, bind_some, hg.gt_sizeT hdiv, hgc]
  congr 2
  rw [eq_iff_iff]
  exact Int.ediv_lt_iff_lt_mul hpos

theorem exact_ite {p : Prop} [Decidable p] {o : Outcome} {len : Nat} (h : ¬ p → o.Exact len) :
    (if p then .invalidParameter else o).Exact len := by
  split
  . exact ⟨by decide, fun _ h => by cases h⟩
  . next hp => exact h hp

theorem exact_checkLength {env : Env Var SizeofArg} {check : Option SizeofArg} {ptr len : Nat} :
    (checkLength env attr check ptr len).Exact len := by
  have hpast : (Outcome.past len).Exact len := ⟨fun h => (by cases h), fun _ h => (Outcome.past.inj h).symm⟩
  unfold checkLength
  split
  . exact hpast
  split
  . split <;> exact ⟨by decide, fun _ h => by cases h⟩
  . exact hpast

theorem toNat_convert {v : Int} (hpos : 0 ≤ v) (hle : v ≤ IntType.sizeT.max) :
    (IntType.sizeT.convert v).toNat = v.toNat := by rw [IntType.convert_of_holds IntType.valid_sizeT ⟨hpos, hle⟩]

section

variable (hptr : IsPointer ty attr)
  (hfind : plist.find? (fun pd => pd.2.identifier = declr.identifier) = some (.ptPtr ty attr, declr))

include hfind

theorem size_deref (value : String → Int) (sizes : Sizes) :
    (bridgeEnv plist value sizes).size (.deref (.tmp declr.identifier)) = sizes.elem ty := by
  simp only [bridgeEnv, hfind]
  rfl

theorem eval_genCheckLength (h : Attributes plist value sizes ty attr size count) :
    ((genCheckLength attr declr.identifier).map (·.eval (bridgeEnv plist value sizes))).getD (some false)
      = some (decide (∃ c, count = some c ∧ IntType.sizeT.max < c.val * size.val)) := by
  have hderef := size_deref hfind value sizes
  have hsize := h.sizeAttr
  have hcount := h.countAttr
  unfold genCheckLength
  generalize hexpr : (match attr.paSize.psSize with
    | some a => mkLenSize a
    | none => _) = expr
  have heval : expr.eval (bridgeEnv plist value sizes) = some size := by
    rw [← hexpr]
    cases hps : attr.paSize.psSize with
    | some a =>
      rw [hps] at hsize
      exact (eval_mkLenSize a).trans hsize
    | none =>
      rw [hps] at hsize
      simp only [Expr.eval, hderef]
      exact hsize
  cases hpc : attr.paSize.psCount with
  | none =>
    rw [hpc] at hcount
    rw [map_eq_none_iff.1 hcount.symm]
    simp
  | some a =>
    rw [hpc] at hcount
    rcases count with _ | c
    . cases hcount
    have hc : a.value? plist value = some c := some.inj hcount
    have hnatural := h.naturalCount c rfl
    simp only [some.injEq, exists_eq_left']
    cases a with
    | aString s =>
      have hvar : (Expr.var (Var.tmp s) : CExpr).eval (bridgeEnv plist value sizes) = some c := hc
      apply eval_cond h.naturalSize hnatural.cast_sizeT hnatural.convert_sizeT heval
      simp only [Expr.eval] at hvar ⊢
      rw [hvar]
      rfl
    | aNumber n => exact eval_cond h.naturalSize hnatural rfl heval hc

include hptr

theorem eval_doPsAttribute (h : Attributes plist value sizes ty attr size count) :
    (doPsAttribute ty attr declr.identifier).eval (bridgeEnv plist value sizes)
      = (count.map (·.mul size)).getD (some size) := by
  have hderef := size_deref hfind value sizes
  have hsize := h.sizeAttr
  have hcount := h.countAttr
  unfold doPsAttribute
  generalize hexpr : (match attr.paSize.psSize with
    | some a => mkLenSize a
    | none => _) = expr
  have heval : expr.eval (bridgeEnv plist value sizes) = some size := by
    rw [← hexpr]
    cases hps : attr.paSize.psSize with
    | some a =>
      rw [hps] at hsize
      exact (eval_mkLenSize a).trans hsize
    | none =>
      rw [hps] at hsize
      rcases hptr with ⟨t, rfl⟩ | ⟨s, rfl, hisptr⟩
      . exact hsize
      simp only [hisptr, if_true, Expr.eval, hderef]
      exact hsize
  cases hpc : attr.paSize.psCount with
  | none =>
    rw [hpc] at hcount
    rw [map_eq_none_iff.1 hcount.symm]
    exact heval
  | some a =>
    rw [hpc] at hcount
    rcases count with _ | c
    . cases hcount
    have hc : a.value? plist value = some c := some.inj hcount
    simp only [Expr.eval, eval_mkLenSize, hc, heval]
    rfl

theorem bindLength_eq (h : Attributes plist value sizes ty attr size count) (isOutside : Nat → Nat → Bool) (ptr : Nat) :
    bindLength (bridgeEnv plist value sizes) isOutside isDeepCopy ty attr declr.identifier ptr
      = match (count.map (·.mul size)).getD (some size) with
        | none => .undefined
        | some v =>
          if (∃ c, count = some c ∧ IntType.sizeT.max < c.val * size.val)
            ∨ ptr ≠ 0 ∧ !isOutside ptr (IntType.sizeT.convert v.val).toNat then .invalidParameter
          else checkLength (bridgeEnv plist value sizes) attr (checkSize isDeepCopy ty attr declr.identifier) ptr
            (IntType.sizeT.convert v.val).toNat := by
  rw [bindLength, eval_doPsAttribute hptr hfind h]
  cases (count.map (·.mul size)).getD (some size) with
  | none => rfl
  | some v =>
    simp only [eval_genCheckLength hfind h]
    by_cases hover : ∃ c, count = some c ∧ IntType.sizeT.max < c.val * size.val
    . simp only [hover, decide_true, true_or, if_true]
    . simp only [hover, decide_false, false_or]

theorem exactLength_of_value {v : Value} (h : Attributes plist value sizes ty attr size count)
    (hv : (count.map (·.mul size)).getD (some size) = some v) (hnatural : v.Natural) :
    ExactLength (bridgeEnv plist value sizes) isDeepCopy ty attr declr.identifier v.val.toNat := by
  intro isOutside ptr _
  rw [bindLength_eq hptr hfind h, hv]
  simp only [hnatural.convert_sizeT]
  exact exact_ite fun _ => exact_checkLength

section

variable {c : Value} (h : Attributes plist value sizes ty attr size (some c))
include h

omit hptr hfind in
theorem bits_of_unsigned (hcommon : c.type.common size.type ≠ .sizeT)
    (hsigned : (c.type.common size.type).signed = false) : (c.type.common size.type).bits = 32 := by
  rcases IntType.bits_common (h.naturalCount c rfl).type h.naturalSize.type with hbits | hbits
  . exact hbits
  . exact absurd (show c.type.common size.type = ⟨64, false⟩ by rw [← hbits, ← hsigned]) hcommon

theorem exactLength_of_sizeT (hcommon : c.type.common size.type = .sizeT) :
    ExactLength (bridgeEnv plist value sizes) isDeepCopy ty attr declr.identifier (product size (some c)) := by
  intro isOutside ptr _
  have hc := h.naturalCount c rfl
  have hpos := mul_nonneg hc.nonneg h.naturalSize.nonneg
  rw [bindLength_eq hptr hfind h]
  simp only [map_some, getD_some]
  rw [hc.mul_of_unsigned h.naturalSize (by rw [hcommon]; rfl)]
  by_cases hover : ∃ c', some c = some c' ∧ IntType.sizeT.max < c'.val * size.val
  . exact exact_ite fun h => absurd (.inl hover) h
  have hle : c.val * size.val ≤ IntType.sizeT.max := by
    by_contra hlt
    exact hover ⟨c, rfl, by omega⟩
  have hmod : c.val * size.val % 2 ^ (c.type.common size.type).bits = c.val * size.val := by
    rw [hcommon]
    apply Int.emod_eq_of_lt hpos
    have hmax : IntType.sizeT.max = 2 ^ IntType.sizeT.bits - 1 := rfl
    omega
  simp only [hmod, toNat_convert hpos hle]
  exact exact_ite fun _ => exact_checkLength

theorem bindLength_wraps (hcommon : c.type.common size.type ≠ .sizeT)
    (hsigned : (c.type.common size.type).signed = false)
    (isOutside : Nat → Nat → Bool) (ptr : Nat) :
    let len := (c.val * size.val % 2 ^ 32).toNat
    bindLength (bridgeEnv plist value sizes) isOutside isDeepCopy ty attr declr.identifier ptr
      = if ptr ≠ 0 ∧ !isOutside ptr len then .invalidParameter
        else checkLength (bridgeEnv plist value sizes) attr
          (checkSize isDeepCopy ty attr declr.identifier) ptr len := by
  have hc := h.naturalCount c rfl
  have hs := h.naturalSize
  have hbits := bits_of_unsigned h hcommon hsigned
  have hmax : (c.type.common size.type).max = 2 ^ 32 - 1 := by
    rw [IntType.max, hsigned, hbits]
    rfl
  have hcle := (IntType.holds_common (b := size.type) hc.nonneg (.inl hc.le)).2
  have hsle := (IntType.holds_common (a := c.type) hs.nonneg (.inr hs.le)).2
  rw [hmax] at hcle hsle
  have hfits : c.val * size.val ≤ IntType.sizeT.max :=
    calc c.val * size.val ≤ (2 ^ 32 - 1) * (2 ^ 32 - 1) :=
          mul_le_mul hcle hsle hs.nonneg (by decide)
      _ ≤ IntType.sizeT.max := by decide
  have hmod := Int.emod_lt_of_pos (c.val * size.val) (show (0 : Int) < 2 ^ 32 by decide)
  have hmod' := Int.emod_nonneg (c.val * size.val) (show (2 ^ 32 : Int) ≠ 0 by decide)
  have hle : c.val * size.val % 2 ^ 32 ≤ IntType.sizeT.max := by
    have : IntType.sizeT.max = 2 ^ 64 - 1 := rfl
    omega
  have hover : ¬ ∃ c', some c = some c' ∧ IntType.sizeT.max < c'.val * size.val := by
    rintro ⟨c', ⟨⟩, hlt⟩
    omega
  rw [bindLength_eq hptr hfind h]
  simp only [map_some, getD_some, hc.mul_of_unsigned hs hsigned, hbits, toNat_convert hmod' hle, hover, false_or]

theorem not_exactLength (hcommon : c.type.common size.type ≠ .sizeT)
    (hover : (c.type.common size.type).max < c.val * size.val)
    (hpast : ¬ WrapIsRefused (bridgeEnv plist value sizes) (checkSize isDeepCopy ty attr declr.identifier)
      size (some c)) :
    ¬ ExactLength (bridgeEnv plist value sizes) isDeepCopy ty attr declr.identifier (product size (some c)) := by
  intro hexact
  have hrun := hexact (fun _ _ => true) 1 (by decide)
  by_cases hsigned : (c.type.common size.type).signed = true
  . rw [bindLength_eq hptr hfind h] at hrun
    simp only [map_some, getD_some] at hrun
    rw [(h.naturalCount c rfl).mul_of_signed h.naturalSize hsigned hover] at hrun
    exact hrun.1 rfl
  rw [Bool.not_eq_true] at hsigned
  have hbits := bits_of_unsigned h hcommon hsigned
  rw [bindLength_wraps hptr hfind h hcommon hsigned, if_neg (by simp)] at hrun
  have hlen := hrun.2 (c.val * size.val % 2 ^ 32).toNat
  rw [IntType.max, hsigned, hbits] at hover
  have hne : (c.val * size.val % 2 ^ 32).toNat ≠ product size (some c) := by
    simp only [product, map_some, getD_some, Bool.false_eq_true, if_false] at hover ⊢
    omega
  refine hne (hlen ?_)
  unfold checkLength
  split
  . rfl
  . next x hx =>
    apply if_neg
    rintro ⟨-, hpos, hmultiple⟩
    refine hpast ⟨x, c, hx, rfl, hsigned, ?_⟩
    rw [hbits]
    exact ⟨hpos, hmultiple⟩

end

theorem exactLength_of_refused (h : Attributes plist value sizes ty attr size count)
    (hrefused : WrapIsRefused (bridgeEnv plist value sizes) (checkSize isDeepCopy ty attr declr.identifier)
      size count) :
    ExactLength (bridgeEnv plist value sizes) isDeepCopy ty attr declr.identifier (product size count) := by
  obtain ⟨x, c, hx, rfl, hsigned, hlen⟩ := hrefused
  by_cases hcommon : c.type.common size.type = .sizeT
  . exact exactLength_of_sizeT hptr hfind h hcommon
  intro isOutside ptr hnull
  rw [bits_of_unsigned h hcommon hsigned] at hlen
  rw [bindLength_wraps hptr hfind h hcommon hsigned]
  refine exact_ite fun _ => ?_
  rw [hx, checkLength, if_pos ⟨hnull, hlen⟩]
  split <;> exact ⟨by decide, fun _ h => by cases h⟩

end

/--
The length that a bridge binds is that of the attributes if and only if their product is computed in
`size_t`, or fits the type that it is computed in, or wraps to a length that is refused.
-/
theorem exactLength_iff (hptr : IsPointer ty attr)
    (hfind : plist.find? (fun pd => pd.2.identifier = declr.identifier)
      = some (.ptPtr ty attr, declr))
    (h : Attributes plist value sizes ty attr size count) :
    ExactLength (bridgeEnv plist value sizes) isDeepCopy ty attr declr.identifier (product size count)
      ↔ ProductFits size count ∨ WrapIsRefused (bridgeEnv plist value sizes)
        (checkSize isDeepCopy ty attr declr.identifier) size count := by
  rcases count with _ | c
  . have hproduct : product size none = size.val.toNat := by
      simp [product]
    rw [hproduct]
    constructor
    . intro _
      left
      intro c hc
      cases hc
    . intro _
      exact exactLength_of_value hptr hfind h rfl h.naturalSize
  have hc := h.naturalCount c rfl
  constructor
  . intro hexact
    by_contra hnot
    rw [not_or] at hnot
    refine hnot.1 fun c' hc' => ?_
    cases hc'
    by_contra hfits
    rw [not_or, not_le] at hfits
    exact not_exactLength hptr hfind h hfits.1 hfits.2 hnot.2 hexact
  rintro (hfits | hrefused)
  . rcases hfits c rfl with hcommon | hle
    . exact exactLength_of_sizeT hptr hfind h hcommon
    . exact exactLength_of_value hptr hfind h (hc.mul_of_le h.naturalSize hle)
        ⟨hc.type.common h.naturalSize.type, mul_nonneg hc.nonneg h.naturalSize.nonneg, hle⟩
  . exact exactLength_of_refused hptr hfind h hrefused

end

def sizedBuffer : PtrAttr :=
  ⟨.ptrIn, ⟨some (.aString "s"), some (.aString "n")⟩, false, false, false, false, false, true⟩

def sizedBufferParams (ty : AType) : List PDecl :=
  [(.ptPtr (.ptr ty) sizedBuffer, ⟨"buf", []⟩), (.ptVal .uInt32, ⟨"s", []⟩), (.ptVal .uInt32, ⟨"n", []⟩)]

def sizedBufferValues (size count : Int) (name : String) : Int :=
  if name = "s" then size else if name = "n" then count else 0

def fourByteSizes : Sizes := ⟨fun _ => 4, fun _ => 4⟩

theorem natural_uInt32 {v : Int} (hpos : 0 ≤ v) (hle : v < 2 ^ 32) : Value.Natural ⟨⟨32, false⟩, v⟩ :=
  ⟨.inr (.inr (.inl rfl)), hpos, by change v ≤ 2 ^ 32 - 1; omega⟩

/-- A product that wraps to 2 is refused for a pointer to `int32_t`. -/
theorem exactLength_iff_sizedBuffer :
    ¬ ProductFits ⟨⟨32, false⟩, 3⟩ (some ⟨⟨32, false⟩, 1431655766⟩)
      ∧ ExactLength (bridgeEnv (sizedBufferParams .int32) (sizedBufferValues 3 1431655766) fourByteSizes)
        (fun _ => false) (.ptr .int32) sizedBuffer "buf" 4294967298 := by
  have hfind : (sizedBufferParams .int32).find? (fun pd => pd.2.identifier = (⟨"buf", []⟩ : Declarator).identifier)
      = some (.ptPtr (.ptr .int32) sizedBuffer, ⟨"buf", []⟩) := by
    decide +kernel
  have hattrs : Attributes (sizedBufferParams .int32) (sizedBufferValues 3 1431655766) fourByteSizes (.ptr .int32)
      sizedBuffer ⟨⟨32, false⟩, 3⟩ (some ⟨⟨32, false⟩, 1431655766⟩) := by
    refine ⟨by decide +kernel, by decide +kernel, natural_uInt32 (by decide) (by decide), ?_⟩
    rintro c ⟨⟩
    exact natural_uInt32 (by decide) (by decide)
  constructor
  . intro h
    rcases h _ rfl with h | h
    . revert h
      decide
    . revert h
      decide +kernel
  . exact (exactLength_iff (.inl ⟨.int32, rfl⟩) hfind hattrs).2
      (.inr ⟨.deref (.tmp "buf"), _, rfl, rfl, by decide +kernel, by decide +kernel⟩)

theorem product_wraps :
    bindLength (bridgeEnv (sizedBufferParams .void) (sizedBufferValues 65536 65537) fourByteSizes)
        (fun _ _ => true) (fun _ => false) (.ptr .void) sizedBuffer "buf" 4096 = .past 65536
      ∧ product ⟨⟨32, false⟩, 65536⟩ (some ⟨⟨32, false⟩, 65537⟩) = 4295032832 := by
  decide +kernel

end Edger8r
