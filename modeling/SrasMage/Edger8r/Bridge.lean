import Mathlib.Data.List.Induction
import Mathlib.Data.List.Nodup
import SrasMage.Edger8r.Ast

/-!
This module contains what the bridge of an ECALL allocates and frees (`gen_func_tbridge` of
`sdk/edger8r/linux/CodeGen.ml`).
-/

namespace Edger8r

open Function List

/-- The variables `_in_x` and `_in_member_x` of the parameter at a position. -/
inductive BufVar where
  | inPtr (k : Nat)
  | inMember (k : Nat)
deriving DecidableEq

/-- Tests and copies, and loops of them over the members of a structure, are a `check` that passes or goes
to `err`. -/
inductive Code where
  | skip
  | check
  | malloc (x : BufVar)
  | seq (c d : Code)
  | cond (c : Code)
  | held (x : BufVar) (c : Code)

structure Heap where
  vars : BufVar → Option Nat
  allocated : Nat

namespace Heap

def start : Heap := ⟨fun _ => none, 0⟩

def alloc (h : Heap) (x : BufVar) : Heap := ⟨update h.vars x (some h.allocated), h.allocated + 1⟩

end Heap

-- `true` where the code falls through
inductive Exec : Code → Heap → Bool → Heap → Prop
  | skip {h} : Exec .skip h true h
  | check {h} (o) : Exec .check h o h
  | malloc {x h} : Exec (.malloc x) h true (h.alloc x)
  | noMemory {x h} : Exec (.malloc x) h false { h with vars := update h.vars x none }
  | seq {c d h h₁ o h₂} : Exec c h true h₁ → Exec d h₁ o h₂ → Exec (.seq c d) h o h₂
  | stop {c d h h₁} : Exec c h false h₁ → Exec (.seq c d) h false h₁
  | cond {c h o h₁} : Exec c h o h₁ → Exec (.cond c) h o h₁
  | condSkip {c h} : Exec (.cond c) h true h
  | held {x c h o h₁} : h.vars x ≠ none → Exec c h o h₁ → Exec (.held x c) h o h₁
  | heldSkip {x c h} : h.vars x = none → Exec (.held x c) h true h

structure StructDef where
  sname : String
  smlist : List PDecl

def isStructureDeepCopy (s : StructDef) : Bool :=
  s.smlist.any fun pd =>
    match pd.1 with
    | .ptVal _ => false
    | .ptPtr _ attr => attr.paSize ≠ ⟨none, none⟩

section

variable (structs : List StructDef)

def deepCopied : AType → Bool
  | .ptr (.struct s) => ((structs.find? (·.sname = s)).map isStructureDeepCopy).getD false
  | _ => false

def checkStructure : ParameterType → Bool
  | .ptVal (.struct s) => !deepCopied structs (.ptr (.struct s))
  | .ptVal _ => true
  | .ptPtr ty attr => !(deepCopied structs ty && attr.paDirection = .ptrOut)

-- `__tmp__in_x` passes the buffer on to `_in_member_x`
def structDeepCopyPre (k : Nat) (ty : AType) : Code :=
  if deepCopied structs ty then .seq .check (.seq (.malloc (.inMember k)) .check) else .skip

def cloneInPtr (k : Nat) : ParameterType → Code
  | .ptVal _ => .skip
  | .ptPtr ty attr =>
    match attr.paDirection with
    | .ptrIn | .ptrInOut =>
      .cond (.seq .check (.seq (.malloc (.inPtr k)) (.seq .check (.seq (structDeepCopyPre structs k ty) .check))))
    | .ptrOut => .cond (.seq .check (.malloc (.inPtr k)))
    | .ptrNoDirection => .skip

def copyBack (k : Nat) : ParameterType → Code
  | .ptVal _ => .skip
  | .ptPtr _ attr =>
    match attr.paDirection with
    | .ptrInOut | .ptrOut => .held (.inPtr k) .check
    | .ptrIn | .ptrNoDirection => .skip

def freeVars (k : Nat) : ParameterType → List BufVar
  | .ptVal _ => []
  | .ptPtr ty attr =>
    match attr.paDirection with
    | .ptrIn => .inPtr k :: if deepCopied structs ty then [.inMember k] else []
    | .ptrInOut | .ptrOut => [.inPtr k]
    | .ptrNoDirection => []

def each (gen : Nat → ParameterType → Code) : Nat → List PDecl → Code
  | _, [] => .skip
  | k, pd :: plist => .seq (gen k pd.1) (each gen (k + 1) plist)

def eachVar (vars : Nat → ParameterType → List BufVar) : Nat → List PDecl → List BufVar
  | _, [] => []
  | k, pd :: plist => vars k pd.1 ++ eachVar vars (k + 1) plist

/-- The bridge returns before it allocates, or it runs to its end or to `err` and frees the buffers that its
variables hold. -/
inductive Bridge (plist : List PDecl) : Heap → List Nat → Prop
  | refused : Bridge plist .start []
  | frees {o h} : Exec (.seq (each (cloneInPtr structs) 0 plist) (each copyBack 0 plist)) .start o h →
      Bridge plist h ((eachVar (freeVars structs) 0 plist).filterMap h.vars)

end

def Heap.allocs (h : Heap) (xs : List BufVar) : Heap := xs.foldl Heap.alloc h

theorem vars_allocs_of_notMem {h : Heap} {x : BufVar} {xs : List BufVar} (hx : x ∉ xs) :
    (h.allocs xs).vars x = h.vars x := by
  induction xs generalizing h with
  | nil => rfl
  | cons y xs ih =>
    rw [mem_cons, not_or] at hx
    exact (ih hx.2).trans (update_of_ne hx.1 _ _)

-- the buffer `b` is the one that was allocated for the variable at `b`
theorem allocs_start {xs : List BufVar} (hxs : xs.Nodup) : (Heap.start.allocs xs).allocated = xs.length
    ∧ ∀ x b, (Heap.start.allocs xs).vars x = some b ↔ xs[b]? = some x := by
  induction xs using reverseRecOn with
  | nil => exact ⟨rfl, fun x b => by simp [Heap.allocs, Heap.start]⟩
  | append_singleton xs y ih =>
    obtain ⟨hxs, -, hy⟩ := nodup_append.1 hxs
    obtain ⟨hlen, hvars⟩ := ih hxs
    rw [Heap.allocs, foldl_append]
    refine ⟨by simp [Heap.alloc, ← hlen, Heap.allocs], fun x b => ?_⟩
    show update (Heap.start.allocs xs).vars y (some (Heap.start.allocs xs).allocated) x = some b ↔ _
    rw [hlen, getElem?_append]
    by_cases hx : x = y
    . subst hx
      have hnew : ¬ xs[b]? = some x := fun h => hy x (mem_of_getElem? h) x (mem_singleton_self x) rfl
      rw [update_self]
      split
      . simp only [hnew, iff_false, Option.some.injEq]
        omega
      rw [getElem?_singleton]
      split <;> simp <;> omega
    . rw [update_of_ne hx, hvars]
      split
      . rfl
      rw [getElem?_eq_none (by omega), getElem?_singleton]
      split <;> simp [Ne.symm hx]

/-- Every execution allocates for some of the variables in `xs`, in their order. -/
def Allocs (c : Code) (xs : List BufVar) : Prop :=
  ∀ h o h', Exec c h o h' → (∀ x ∈ xs, h.vars x = none) → ∃ ys, ys <+ xs ∧ h' = h.allocs ys

namespace Allocs

theorem skip : Allocs .skip [] := by
  rintro h o h' ⟨⟩ -
  exact ⟨[], Sublist.refl _, rfl⟩

theorem check : Allocs .check [] := by
  rintro h o h' ⟨⟩ -
  exact ⟨[], Sublist.refl _, rfl⟩

theorem malloc (x : BufVar) : Allocs (.malloc x) [x] := by
  intro h o h' hexec hnull
  cases hexec with
  | malloc => exact ⟨[x], Sublist.refl _, rfl⟩
  | noMemory =>
    refine ⟨[], nil_sublist _, ?_⟩
    rw [← hnull x (mem_singleton_self x), update_eq_self]
    rfl

theorem seq {c d : Code} {xs zs : List BufVar} (hc : Allocs c xs) (hd : Allocs d zs)
    (hnodup : (xs ++ zs).Nodup) : Allocs (.seq c d) (xs ++ zs) := by
  intro h o h' hexec hnull
  cases hexec with
  | stop hc' =>
    obtain ⟨ys, hys, heq⟩ := hc _ _ _ hc' fun x hx => hnull x (mem_append_left _ hx)
    exact ⟨ys, hys.trans (sublist_append_left _ _), heq⟩
  | seq hc' hd' =>
    obtain ⟨ys, hys, rfl⟩ := hc _ _ _ hc' fun x hx => hnull x (mem_append_left _ hx)
    obtain ⟨ws, hws, rfl⟩ := hd _ _ _ hd' fun z hz => by
      rw [vars_allocs_of_notMem, hnull z (mem_append_right _ hz)]
      exact fun hmem => (nodup_append.1 hnodup).2.2 z (hys.subset hmem) z hz rfl
    exact ⟨ys ++ ws, hys.append hws, (foldl_append ..).symm⟩

theorem cond {c : Code} {xs : List BufVar} (hc : Allocs c xs) : Allocs (.cond c) xs := by
  intro h o h' hexec hnull
  cases hexec with
  | cond hc' => exact hc _ _ _ hc' hnull
  | condSkip => exact ⟨[], nil_sublist _, rfl⟩

theorem held {x : BufVar} {c : Code} {xs : List BufVar} (hc : Allocs c xs) : Allocs (.held x c) xs := by
  intro h o h' hexec hnull
  cases hexec with
  | held _ hc' => exact hc _ _ _ hc' hnull
  | heldSkip => exact ⟨[], nil_sublist _, rfl⟩

end Allocs

def mallocVars (structs : List StructDef) (k : Nat) : ParameterType → List BufVar
  | .ptVal _ => []
  | .ptPtr ty attr =>
    match attr.paDirection with
    | .ptrIn | .ptrInOut => .inPtr k :: if deepCopied structs ty then [.inMember k] else []
    | .ptrOut => [.inPtr k]
    | .ptrNoDirection => []

variable {structs : List StructDef}

theorem mallocVars_sublist (k : Nat) (pt : ParameterType) : mallocVars structs k pt <+ [.inPtr k, .inMember k] := by
  unfold mallocVars
  repeat' split
  all_goals simp

theorem freeVars_sublist (k : Nat) (pt : ParameterType) : freeVars structs k pt <+ mallocVars structs k pt := by
  unfold freeVars mallocVars
  repeat' split
  all_goals simp_all

theorem allocs_cloneInPtr (k : Nat) (pt : ParameterType) :
    Allocs (cloneInPtr structs k pt) (mallocVars structs k pt) := by
  have hclone : ∀ ty, Allocs (.cond (.seq .check (.seq (.malloc (.inPtr k))
      (.seq .check (.seq (structDeepCopyPre structs k ty) .check)))))
      (.inPtr k :: if deepCopied structs ty then [.inMember k] else []) := by
    intro ty
    unfold structDeepCopyPre
    split
    . have hdeep : Allocs (.seq .check (.seq (.malloc (.inMember k)) .check)) [.inMember k] :=
        .seq .check (.seq (.malloc _) .check (by simp)) (by simp)
      exact .cond (.seq .check (.seq (.malloc _) (.seq .check (.seq hdeep .check (by simp)) (by simp))
        (by simp)) (by simp))
    . exact .cond (.seq .check (.seq (.malloc _) (.seq .check (.seq .skip .check (by simp)) (by simp))
        (by simp)) (by simp))
  unfold cloneInPtr mallocVars
  split
  . exact .skip
  split
  . exact hclone _
  . exact hclone _
  . exact .cond (.seq .check (.malloc _) (by simp))
  . exact .skip

theorem mem_eachVar {vars : Nat → ParameterType → List BufVar} {k : Nat} {plist : List PDecl} {x : BufVar}
    (h : x ∈ eachVar vars k plist) : ∃ i pd, plist[i]? = some pd ∧ x ∈ vars (k + i) pd.1 := by
  induction plist generalizing k with
  | nil => cases h
  | cons pd plist ih =>
    rcases mem_append.1 h with h | h
    . exact ⟨0, pd, rfl, h⟩
    obtain ⟨i, pd', hpd, hx⟩ := ih h
    exact ⟨i + 1, pd', hpd, by rwa [← Nat.add_assoc, Nat.add_right_comm]⟩

theorem mem_mallocs {k : Nat} {plist : List PDecl} {x : BufVar}
    (h : x ∈ eachVar (mallocVars structs) k plist) : ∃ i, x = .inPtr (k + i) ∨ x = .inMember (k + i) := by
  obtain ⟨i, pd, -, hx⟩ := mem_eachVar h
  exact ⟨i, by simpa using (mallocVars_sublist _ _).subset hx⟩

theorem nodup_mallocs (k : Nat) (plist : List PDecl) : (eachVar (mallocVars structs) k plist).Nodup := by
  induction plist generalizing k with
  | nil => exact nodup_nil
  | cons pd plist ih =>
    refine nodup_append.2 ⟨(mallocVars_sublist k _).nodup (by simp), ih (k + 1), fun x hx y hy => ?_⟩
    obtain ⟨i, hy⟩ := mem_mallocs hy
    have hx := (mallocVars_sublist k _).subset hx
    simp only [mem_cons, not_mem_nil, or_false] at hx
    rcases hx with rfl | rfl <;> rcases hy with rfl | rfl <;> simp <;> omega

theorem allocs_each (k : Nat) (plist : List PDecl) :
    Allocs (each (cloneInPtr structs) k plist) (eachVar (mallocVars structs) k plist) := by
  induction plist generalizing k with
  | nil => exact .skip
  | cons pd plist ih =>
    exact .seq (allocs_cloneInPtr k _) (ih (k + 1)) (nodup_mallocs k (pd :: plist))

theorem allocs_copyBack (k : Nat) (plist : List PDecl) : Allocs (each copyBack k plist) [] := by
  induction plist generalizing k with
  | nil => exact .skip
  | cons pd plist ih =>
    have hback : Allocs (copyBack k pd.1) [] := by
      unfold copyBack
      repeat' split
      all_goals first | exact .skip | exact .held .check
    exact hback.seq (ih (k + 1)) nodup_nil

/-- A buffer is freed as often as the variable it was allocated for occurs among those freed. -/
theorem Bridge.count_freed {plist : List PDecl} {h : Heap} {freed : List Nat} (hbridge : Bridge structs plist h freed) :
    ∃ ys, ys <+ eachVar (mallocVars structs) 0 plist ∧ h = Heap.start.allocs ys
      ∧ ∀ b y, ys[b]? = some y → freed.count b = (eachVar (freeVars structs) 0 plist).count y := by
  cases hbridge with
  | refused => exact ⟨[], nil_sublist _, rfl, nofun⟩
  | frees hrun =>
    obtain ⟨ys, hys, rfl⟩ := (allocs_each 0 plist).seq (allocs_copyBack 0 plist)
      (append_nil _ ▸ nodup_mallocs 0 plist) _ _ _ hrun fun _ _ => rfl
    rw [append_nil] at hys
    refine ⟨ys, hys, rfl, fun b y hb => ?_⟩
    rw [count_filterMap]
    refine countP_congr fun x _ => ?_
    rw [beq_iff_eq, beq_iff_eq, (allocs_start (hys.nodup (nodup_mallocs 0 plist))).2, hb, Option.some.injEq, eq_comm]

def LeaksMembers (structs : List StructDef) : ParameterType → Prop
  | .ptVal _ => False
  | .ptPtr ty attr => attr.paDirection = .ptrInOut ∧ deepCopied structs ty = true

theorem frees_eq {k : Nat} {plist : List PDecl} (h : ∀ pd ∈ plist, ¬ LeaksMembers structs pd.1) :
    eachVar (freeVars structs) k plist = eachVar (mallocVars structs) k plist := by
  induction plist generalizing k with
  | nil => rfl
  | cons pd plist ih =>
    rw [eachVar, eachVar, ih fun pd' hpd => h pd' (mem_cons_of_mem _ hpd)]
    have hpd := h pd mem_cons_self
    unfold freeVars mallocVars
    rcases hpt : pd.1 with ty | ⟨ty, attr⟩
    . rfl
    rw [hpt] at hpd
    cases hdir : attr.paDirection <;> simp_all [LeaksMembers]

theorem exec_each {gen : Nat → ParameterType → Code} (hgen : ∀ k pt h, Exec (gen k pt) h true h) (k : Nat)
    (plist : List PDecl) (h : Heap) : Exec (each gen k plist) h true h := by
  induction plist generalizing k with
  | nil => exact .skip
  | cons pd plist ih => exact .seq (hgen k _ h) (ih (k + 1))

theorem exec_cloneInPtr (k : Nat) (pt : ParameterType) (h : Heap) : Exec (cloneInPtr structs k pt) h true h := by
  unfold cloneInPtr
  repeat' split
  all_goals first | exact .skip | exact .condSkip

theorem exec_copyBack (k : Nat) (pt : ParameterType) (h : Heap) : Exec (copyBack k pt) h true h := by
  have hback : Exec (.held (.inPtr k) .check) h true h := by
    by_cases hnull : h.vars (.inPtr k) = none
    . exact .heldSkip hnull
    . exact .held hnull (.check true)
  unfold copyBack
  repeat' split
  all_goals first | exact .skip | exact hback

/-- Where a parameter is skipped and the next one is cloned, its members stay in a buffer of their own. -/
theorem exec_leak {k i : Nat} {plist : List PDecl} {pd : PDecl} (hpd : plist[i]? = some pd)
    (hleaks : LeaksMembers structs pd.1) :
    ∃ h, Exec (each (cloneInPtr structs) k plist) .start true h ∧ h.vars (.inMember (k + i)) = some 1 := by
  induction plist generalizing k i with
  | nil => simp at hpd
  | cons pd' plist ih =>
    cases i with
    | succ i =>
      obtain ⟨h, hexec, hvars⟩ := ih (k := k + 1) (i := i) hpd
      exact ⟨h, .seq (exec_cloneInPtr k _ _) hexec, by rwa [← Nat.add_assoc, Nat.add_right_comm]⟩
    | zero =>
      cases hpd
      rcases hpt : pd.1 with ty | ⟨ty, attr⟩ <;> rw [hpt] at hleaks
      . exact hleaks.elim
      obtain ⟨h, hclone, hvars⟩ : ∃ h, Exec (cloneInPtr structs k pd.1) .start true h
          ∧ h.vars (.inMember k) = some 1 := by
        simp only [hpt, cloneInPtr, hleaks.1, structDeepCopyPre, hleaks.2, if_true]
        exact ⟨_, .cond (.seq (.check _) (.seq .malloc (.seq (.check _) (.seq (.seq (.check _)
          (.seq .malloc (.check _))) (.check _))))), by simp [Heap.alloc, Heap.start]⟩
      exact ⟨h, .seq hclone (exec_each exec_cloneInPtr (k + 1) plist h), hvars⟩

/-- Every path frees what it allocated once, unless an `[in, out]` parameter is deep-copied. -/
theorem released_iff (plist : List PDecl) :
    (∀ h freed, Bridge structs plist h freed → ∀ b < h.allocated, freed.count b = 1)
      ↔
    ∀ pd ∈ plist, ¬ LeaksMembers structs pd.1 := by
  constructor
  . intro hall pd hpd hleaks
    obtain ⟨i, hi⟩ := mem_iff_getElem?.mp hpd
    obtain ⟨h, hexec, hvars⟩ := exec_leak (k := 0) hi hleaks
    have hbridge := Bridge.frees (.seq hexec (exec_each exec_copyBack 0 plist h))
    obtain ⟨ys, hys, rfl, hcount⟩ := hbridge.count_freed
    obtain ⟨hlen, hheld⟩ := allocs_start (hys.nodup (nodup_mallocs 0 plist))
    have hmember := (hheld _ 1).mp hvars
    obtain ⟨hlt, -⟩ := List.getElem?_eq_some_iff.mp hmember
    have hone := hall _ _ hbridge 1 (hlen ▸ hlt)
    rw [hcount 1 _ hmember] at hone
    -- the variable of the members is not among those of an `[in, out]` parameter
    obtain ⟨j, pd', hpd', hmem⟩ := mem_eachVar (count_pos_iff.mp (hone ▸ Nat.one_pos))
    have hj := (mallocVars_sublist _ _).subset ((freeVars_sublist _ _).subset hmem)
    simp at hj
    subst hj
    cases hi.symm.trans hpd'
    rcases hpt : pd.1 with ty | ⟨ty, attr⟩ <;> rw [hpt] at hleaks hmem
    . exact hleaks
    . simp [freeVars, hleaks.1] at hmem
  . intro hnone h freed hbridge b hb
    obtain ⟨ys, hys, rfl, hcount⟩ := hbridge.count_freed
    rw [(allocs_start (hys.nodup (nodup_mallocs 0 plist))).1] at hb
    have hb' := getElem?_eq_getElem hb
    rw [hcount b _ hb', frees_eq hnone]
    exact count_eq_one_of_mem (nodup_mallocs 0 plist) (hys.subset (mem_of_getElem? hb'))

def inOutStruct : PDecl :=
  ⟨.ptPtr (.ptr (.struct "S")) ⟨.ptrInOut, ⟨none, some (.aNumber 1)⟩, true, false, false, false, false, true⟩, "p", []⟩

def pointerStruct : StructDef :=
  ⟨"S", [⟨.ptPtr (.ptr .int32) ⟨.ptrNoDirection, ⟨none, some (.aNumber 1)⟩, true, false, false, false, false, true⟩,
    "q", []⟩]⟩

theorem inOutStruct_leaks : checkStructure [pointerStruct] inOutStruct.1 = true
    ∧ ∃ h freed, Bridge [pointerStruct] [inOutStruct] h freed ∧ 1 < h.allocated ∧ freed.count 1 = 0 := by
  have hclone : Exec (cloneInPtr [pointerStruct] 0 inOutStruct.1) .start true _ :=
    .cond (.seq (.check _) (.seq .malloc (.seq (.check _) (.seq (.seq (.check _)
      (.seq .malloc (.check _))) (.check _)))))
  refine ⟨by decide, _, _, .frees (.seq (.seq hclone .skip) (exec_each exec_copyBack 0 _ _)), ?_, ?_⟩ <;> decide

end Edger8r
