import SrasMage.Elf

/-!
This module contains the choice of the metadata that an enclave is loaded with (`get_metadata` of
`psw/urts/urts_com.h`), with a record of the bytes that it looks at.
-/

namespace Urts

open Elf Memory List

abbrev Status := Nat

def sgxErrorInvalidMetadata : Status := 0x2009

def metadataMagic : Nat := 0x86A80294635D0E4C

def metaDataMakeVersion (major minor : Nat) : Nat := major * 2 ^ 32 + minor
def majorVersionOfMetadata (version : Nat) : Nat := version / 2 ^ 32

def urtsVersion (edmm : Bool) : Nat := if edmm then metaDataMakeVersion 2 4 else metaDataMakeVersion 1 4

section

variable (m : Mem) (a : Nat)

def magicNum : Nat := word m a 8
def version : Nat := word m (a + 8) 8
def size : Nat := word m (a + 16) 4

end

abbrev Access := Nat × Nat

section

variable (m : Mem) (urts : Nat)

def pick (target : Option Nat) (a : Nat) : Option Nat :=
  if majorVersionOfMetadata urts ≥ majorVersionOfMetadata (version m a) then
    match target with
    | none => some a
    | some t => if version m t < version m a then some a else some t
  else target

def pickReads (target : Option Nat) (a : Nat) : List Access :=
  (a + 8, 8) :: if majorVersionOfMetadata urts ≥ majorVersionOfMetadata (version m a) then
      match target with
      | none => []
      | some t => [(t + 8, 8), (a + 8, 8)]
    else []

def scan (base : Nat) : Nat → Nat → Option Nat → Option (Except Status (Option Nat) × List Access)
  | 0, _, _ => none
  | fuel + 1, metaRva, target =>
    let a := (base + metaRva) % 2 ^ 64
    if a = 0 then some (.error sgxErrorInvalidMetadata, [])
    else if magicNum m a ≠ metadataMagic then some (.ok target, [(a, 8)])
    else if size m a = 0 then some (.error sgxErrorInvalidMetadata, [(a, 8), (a + 16, 4)])
    else
      match scan base fuel ((metaRva + size m a) % 2 ^ 64) (pick m urts target a) with
      | none => none
      | some (result, reads) => some (result, [(a, 8), (a + 16, 4)] ++ pickReads m urts target a ++ reads)

structure Selection where
  status : Status
  metadata : Option Nat
  reads : List Access

def getMetadata (base metadataOffset : Nat) (getMiscAttr : Nat → Status) (fuel : Nat) : Option Selection :=
  match scan m urts base fuel metadataOffset none with
  | none => none
  | some (.error e, reads) => some ⟨e, none, reads⟩
  | some (.ok none, reads) => some ⟨sgxErrorInvalidMetadata, none, reads⟩
  | some (.ok (some t), reads) => some ⟨getMiscAttr t, some t, reads⟩

end

structure Block where
  base : Nat
  offset : Nat
  size : Nat
  base_pos : 0 < base
  fits : base + offset + size ≤ 2 ^ 63

namespace Block

variable (b : Block)

def first : Nat := b.base + b.offset
def last : Nat := b.base + b.offset + b.size

def Holds (x : Access) : Prop := Within x.1 x.2 b.first b.size

end Block

inductive ChainEnd where
  | noMagic
  | zeroSize
  | outside
deriving DecidableEq

def chainFrom (m : Mem) (last : Nat) : Nat → Nat → List Nat × ChainEnd
  | 0, _ => ([], .outside)
  | fuel + 1, a =>
    if last < a + 8 then ([], .outside)
    else if magicNum m a ≠ metadataMagic then ([], .noMagic)
    else if last < a + 20 then ([], .outside)
    else if size m a = 0 then ([a], .zeroSize)
    else
      let (rest, stop) := chainFrom m last fuel (a + size m a)
      (a :: rest, stop)

namespace Block

variable (b : Block) (m : Mem) (urts : Nat)

def chain : List Nat := (chainFrom m b.last (b.size + 1) b.first).1
def chainEnd : ChainEnd := (chainFrom m b.last (b.size + 1) b.first).2

end Block

def Supported (m : Mem) (urts a : Nat) : Prop :=
  majorVersionOfMetadata (version m a) ≤ majorVersionOfMetadata urts

structure Best (m : Mem) (urts : Nat) (chain : List Nat) (a : Nat) : Prop where
  mem : a ∈ chain
  supported : Supported m urts a
  highest : ∀ c ∈ chain, Supported m urts c → version m c ≤ version m a

def Selects (b : Block) (m : Mem) (urts : Nat) (getMiscAttr : Nat → Status) : Prop :=
  ∃ fuel selection, getMetadata m urts b.base b.offset getMiscAttr fuel = some selection
    ∧ (∀ x ∈ selection.reads, b.Holds x)
    ∧ match selection.metadata with
      | none => selection.status = sgxErrorInvalidMetadata ∧ ∀ c ∈ b.chain m, ¬Supported m urts c
      | some a => selection.status = getMiscAttr a ∧ Best m urts (b.chain m) a

section

attribute [local irreducible] majorVersionOfMetadata version

variable {m : Mem} {urts : Nat} {target : Option Nat} {a : Nat}

def Good (m : Mem) (urts : Nat) (seen : List Nat) (target : Option Nat) : Prop :=
  match target with
  | none => ∀ c ∈ seen, ¬Supported m urts c
  | some a => Best m urts seen a

theorem Best.append_of_le {seen : List Nat} {t : Nat} (h : Best m urts seen t)
    (hle : Supported m urts a → version m a ≤ version m t) : Best m urts (seen ++ [a]) t := by
  refine ⟨mem_append_left _ h.mem, h.supported, ?_⟩
  intro c hc hsupported
  rcases mem_append.1 hc with hc | hc
  . exact h.highest c hc hsupported
  cases mem_singleton.1 hc
  exact hle hsupported

theorem Good.pick {seen : List Nat} (h : Good m urts seen target) :
    Good m urts (seen ++ [a]) (pick m urts target a) := by
  unfold Urts.pick
  split
  . next hmajor =>
    cases target with
    | none =>
      refine ⟨mem_append_right _ (mem_singleton_self a), hmajor, ?_⟩
      intro c hc hsupported
      rcases mem_append.1 hc with hc | hc
      . exact absurd hsupported (h c hc)
      cases mem_singleton.1 hc
      exact Nat.le_refl _
    | some t =>
      dsimp only
      split
      . next hlt =>
        refine ⟨mem_append_right _ (mem_singleton_self a), hmajor, ?_⟩
        intro c hc hsupported
        rcases mem_append.1 hc with hc | hc
        . exact Nat.le_of_lt (Nat.lt_of_le_of_lt (h.highest c hc hsupported) hlt)
        cases mem_singleton.1 hc
        exact Nat.le_refl _
      . next hge =>
        apply Best.append_of_le h
        intro _
        omega
  . next hmajor =>
    cases target with
    | none =>
      intro c hc
      rcases mem_append.1 hc with hc | hc
      . exact h c hc
      cases mem_singleton.1 hc
      exact hmajor
    | some t => exact Best.append_of_le h fun hsupported => absurd hsupported hmajor

theorem Good.foldl {seen : List Nat} (h : Good m urts seen target) (chain : List Nat) :
    Good m urts (seen ++ chain) (chain.foldl (Urts.pick m urts) target) := by
  induction chain generalizing seen target with
  | nil => simpa using h
  | cons a rest ih =>
    have hstep := ih (h.pick (a := a))
    rwa [append_assoc] at hstep

end

section

attribute [local irreducible] magicNum metadataMagic majorVersionOfMetadata

variable {m : Mem} {urts base : Nat} {target : Option Nat}

theorem scan_succ {fuel metaRva : Nat} {r : Except Status (Option Nat) × List Access}
    (h : scan m urts base fuel metaRva target = some r) : scan m urts base (fuel + 1) metaRva target = some r := by
  induction fuel generalizing metaRva target r with
  | zero => cases h
  | succ fuel ih =>
    unfold scan at h ⊢
    dsimp only at h ⊢
    generalize (base + metaRva) % 2 ^ 64 = a at h ⊢
    split
    . next hnull => rwa [if_pos hnull] at h
    next hnull =>
    rw [if_neg hnull] at h
    split
    . next hmagic => rwa [if_pos hmagic] at h
    next hmagic =>
    rw [if_neg hmagic] at h
    split
    . next hsize => rwa [if_pos hsize] at h
    next hsize =>
    rw [if_neg hsize] at h
    split at h
    . cases h
    next result reads hscan =>
    rw [ih hscan]
    exact h

theorem scan_mono {fuel k metaRva : Nat} {r : Except Status (Option Nat) × List Access}
    (h : scan m urts base fuel metaRva target = some r) : scan m urts base (fuel + k) metaRva target = some r := by
  induction k with
  | zero => exact h
  | succ k ih => exact scan_succ ih

theorem scan_unique {fuel fuel' metaRva : Nat} {r r' : Except Status (Option Nat) × List Access}
    (h : scan m urts base fuel metaRva target = some r) (h' : scan m urts base fuel' metaRva target = some r') :
    r = r' := by
  have hmono := scan_mono (k := fuel') h
  rw [Nat.add_comm, scan_mono h', Option.some.injEq] at hmono
  exact hmono.symm

end

namespace Block

attribute [local irreducible] magicNum metadataMagic majorVersionOfMetadata

variable {b : Block} {m : Mem} {urts : Nat} {target : Option Nat} {fuel metaRva : Nat}

theorem scan_at (target : Option Nat) (fuel : Nat) (hrva : b.base + metaRva < 2 ^ 64)
    (hnext : metaRva + Urts.size m (b.base + metaRva) < 2 ^ 64) (urts : Nat) :
    scan m urts b.base (fuel + 1) metaRva target = let a := b.base + metaRva
      if magicNum m a ≠ metadataMagic then some (.ok target, [(a, 8)])
      else if Urts.size m a = 0 then some (.error sgxErrorInvalidMetadata, [(a, 8), (a + 16, 4)])
      else
        match scan m urts b.base fuel (metaRva + Urts.size m a) (pick m urts target a) with
        | none => none
        | some (result, reads) =>
          some (result, [(a, 8), (a + 16, 4)] ++ pickReads m urts target a ++ reads) := by
  have hpos := b.base_pos
  rw [scan]
  dsimp only
  rw [Nat.mod_eq_of_lt hrva, if_neg (by omega), Nat.mod_eq_of_lt hnext]

theorem holds_pickReads {a : Nat} (ha : b.Holds (a + 8, 8)) (htarget : ∀ t, target = some t → b.Holds (t + 8, 8)) :
    ∀ x ∈ pickReads m urts target a, b.Holds x := by
  intro x hx
  unfold pickReads at hx
  rcases mem_cons.1 hx with rfl | hx
  . exact ha
  split at hx
  . cases target with
    | none => cases hx
    | some t =>
      rcases mem_cons.1 hx with rfl | hx
      . exact htarget t rfl
      cases mem_singleton.1 hx
      exact ha
  . cases hx

theorem holds_pick {a : Nat} (ha : b.Holds (a + 8, 8)) (htarget : ∀ t, target = some t → b.Holds (t + 8, 8)) :
    ∀ t, pick m urts target a = some t → b.Holds (t + 8, 8) := by
  intro t ht
  unfold pick at ht
  split at ht
  . cases target with
    | none =>
      cases ht
      exact ha
    | some t' =>
      dsimp only at ht
      split at ht
      . cases ht
        exact ha
      cases ht
      exact htarget t rfl
  . exact htarget t ht

def EndsLike (b : Block) (m : Mem) (urts : Nat) (target : Option Nat) (metaRva fuel : Nat) : List Nat × ChainEnd → Prop
  | (chain, .noMagic) => ∃ reads, scan m urts b.base fuel metaRva target
      = some (.ok (chain.foldl (pick m urts) target), reads) ∧ ∀ x ∈ reads, b.Holds x
  | (_, .zeroSize) => ∃ reads, scan m urts b.base fuel metaRva target
      = some (.error sgxErrorInvalidMetadata, reads) ∧ ∀ x ∈ reads, b.Holds x
  | (_, .outside) => ∀ fuel' result reads, scan m urts b.base fuel' metaRva target = some (result, reads) →
      ∃ x ∈ reads, ¬b.Holds x

theorem holds_iff {a n : Nat} (ha : b.first ≤ a) : b.Holds (a, n) ↔ a + n ≤ b.last := by
  unfold Holds Within
  exact ⟨fun h => h.2, fun h => ⟨ha, h⟩⟩

theorem endsLike_outside {chain : List Nat} (h : ∀ fuel' result reads,
    scan m urts b.base fuel' metaRva target = some (result, reads) → ∃ x ∈ reads, ¬b.Holds x) :
    b.EndsLike m urts target metaRva fuel (chain, .outside) := h

theorem mem_reads (hrva : b.base + metaRva < 2 ^ 64) (hnext : metaRva + Urts.size m (b.base + metaRva) < 2 ^ 64)
    {result : Except Status (Option Nat)} {reads : List Access}
    (h : scan m urts b.base fuel metaRva target = some (result, reads)) :
    (b.base + metaRva, 8) ∈ reads
      ∧ (magicNum m (b.base + metaRva) = metadataMagic → (b.base + metaRva + 16, 4) ∈ reads) := by
  cases fuel with
  | zero => cases h
  | succ fuel =>
    rw [scan_at target fuel hrva hnext] at h
    dsimp only at h
    split at h
    . next hmagic =>
      cases h
      exact ⟨mem_singleton_self _, fun h => absurd h hmagic⟩
    split at h
    . cases h
      simp
    split at h
    . cases h
    cases h
    simp

theorem EndsLike.cons {chain : List Nat} {stop : ChainEnd} (hmagicRead : b.Holds (b.base + metaRva, 8))
    (hsizeRead : b.Holds (b.base + metaRva + 16, 4)) (hversionRead : b.Holds (b.base + metaRva + 8, 8))
    (htarget : ∀ t, target = some t → b.Holds (t + 8, 8)) (hmagic : magicNum m (b.base + metaRva) = metadataMagic)
    (hpos : Urts.size m (b.base + metaRva) ≠ 0) (hrva : b.base + metaRva < 2 ^ 64)
    (hnext : metaRva + Urts.size m (b.base + metaRva) < 2 ^ 64)
    (h : b.EndsLike m urts (pick m urts target (b.base + metaRva)) (metaRva + Urts.size m (b.base + metaRva)) fuel
      (chain, stop)) :
    b.EndsLike m urts target metaRva (fuel + 1) ((b.base + metaRva) :: chain, stop) := by
  have hreads : ∀ reads : List Access, (∀ x ∈ reads, b.Holds x) →
      ∀ x ∈ [(b.base + metaRva, 8), (b.base + metaRva + 16, 4)] ++ pickReads m urts target (b.base + metaRva)
        ++ reads, b.Holds x := by
    intro reads hall x hx
    simp only [mem_append, mem_cons, not_mem_nil, or_false] at hx
    rcases hx with ((rfl | rfl) | hx) | hx
    . exact hmagicRead
    . exact hsizeRead
    . exact holds_pickReads hversionRead htarget x hx
    . exact hall x hx
  cases stop with
  | noMagic =>
    obtain ⟨reads, hscan, hall⟩ := h
    refine ⟨_, ?_, hreads reads hall⟩
    rw [scan_at target fuel hrva hnext]
    dsimp only
    rw [if_neg (not_not.2 hmagic), if_neg hpos, hscan]
    rfl
  | zeroSize =>
    obtain ⟨reads, hscan, hall⟩ := h
    refine ⟨_, ?_, hreads reads hall⟩
    rw [scan_at target fuel hrva hnext]
    dsimp only
    rw [if_neg (not_not.2 hmagic), if_neg hpos, hscan]
  | outside =>
    apply endsLike_outside
    intro fuel' result reads hscan
    cases fuel' with
    | zero => cases hscan
    | succ fuel' =>
      rw [scan_at target fuel' hrva hnext] at hscan
      dsimp only at hscan
      rw [if_neg (not_not.2 hmagic), if_neg hpos] at hscan
      split at hscan
      . cases hscan
      next reads' hrest =>
      cases hscan
      obtain ⟨x, hx, hout⟩ := h fuel' _ reads' hrest
      exact ⟨x, mem_append_right _ hx, hout⟩

theorem endsLike_chainFrom (hfirst : b.offset ≤ metaRva) (hlast : b.base + metaRva < b.last + 2 ^ 32)
    (hfuel : b.last < b.base + metaRva + fuel) (htarget : ∀ t, target = some t → b.Holds (t + 8, 8)) :
    b.EndsLike m urts target metaRva fuel (chainFrom m b.last fuel (b.base + metaRva)) := by
  have hlastLe : b.last ≤ 2 ^ 63 := b.fits
  induction fuel generalizing metaRva target with
  | zero =>
    have hsize : Urts.size m (b.base + metaRva) < 256 ^ 4 := word_lt _ _ _
    have hle : b.first ≤ b.base + metaRva := Nat.add_le_add_left hfirst _
    apply endsLike_outside
    intro fuel' result reads h
    refine ⟨_, (mem_reads (by omega) (by omega) h).1, ?_⟩
    rw [holds_iff hle]
    omega
  | succ fuel ih =>
    have hsize : Urts.size m (b.base + metaRva) < 256 ^ 4 := word_lt _ _ _
    have hle : b.first ≤ b.base + metaRva := Nat.add_le_add_left hfirst _
    have hrva : b.base + metaRva < 2 ^ 64 := by omega
    have hnext : metaRva + Urts.size m (b.base + metaRva) < 2 ^ 64 := by omega
    have hat := scan_at target fuel hrva hnext urts
    dsimp only at hat
    unfold chainFrom
    by_cases hout : b.last < b.base + metaRva + 8
    . rw [if_pos hout]
      apply endsLike_outside
      intro fuel' result reads h
      refine ⟨_, (mem_reads hrva hnext h).1, ?_⟩
      rw [holds_iff hle]
      omega
    rw [if_neg hout]
    have hmagicRead : b.Holds (b.base + metaRva, 8) := (holds_iff hle).2 (by omega)
    rcases ne_or_eq (magicNum m (b.base + metaRva)) metadataMagic with hmagic | hmagic
    . rw [if_pos hmagic] at hat ⊢
      refine ⟨_, hat, ?_⟩
      intro x hx
      cases mem_singleton.1 hx
      exact hmagicRead
    rw [if_neg (not_not.2 hmagic)] at hat ⊢
    by_cases hout' : b.last < b.base + metaRva + 20
    . rw [if_pos hout']
      apply endsLike_outside
      intro fuel' result reads h
      refine ⟨_, (mem_reads hrva hnext h).2 hmagic, ?_⟩
      rw [holds_iff (by omega)]
      omega
    rw [if_neg hout']
    have hsizeRead : b.Holds (b.base + metaRva + 16, 4) := (holds_iff (by omega)).2 (by omega)
    have hversionRead : b.Holds (b.base + metaRva + 8, 8) := (holds_iff (by omega)).2 (by omega)
    by_cases hzero : Urts.size m (b.base + metaRva) = 0
    . rw [if_pos hzero] at hat ⊢
      refine ⟨_, hat, ?_⟩
      intro x hx
      rcases mem_cons.1 hx with rfl | hx
      . exact hmagicRead
      cases mem_singleton.1 hx
      exact hsizeRead
    rw [if_neg hzero]
    apply EndsLike.cons hmagicRead hsizeRead hversionRead htarget hmagic hzero hrva hnext
    rw [Nat.add_assoc]
    apply ih (by omega) (by omega) (by omega)
    exact holds_pick hversionRead htarget

theorem endsLike_chain (b : Block) (m : Mem) (urts : Nat) :
    b.EndsLike m urts none b.offset (b.size + 1) (b.chain m, b.chainEnd m) := by
  have hlast : b.last = b.base + b.offset + b.size := rfl
  apply endsLike_chainFrom (Nat.le_refl _) (by omega) (by omega)
  intro t ht
  cases ht

end Block

section

variable (b : Block) (m : Mem) (urts : Nat) (getMiscAttr : Nat → Status)

theorem selects_of_noMagic (hend : b.chainEnd m = .noMagic) : Selects b m urts getMiscAttr := by
  have h := b.endsLike_chain m urts
  rw [hend] at h
  obtain ⟨reads, hscan, hreads⟩ := h
  have hstart : Good m urts [] none := by
    intro c hc
    cases hc
  have hgood := hstart.foldl (b.chain m)
  rw [nil_append] at hgood
  refine ⟨b.size + 1, ?_⟩
  unfold getMetadata
  rw [hscan]
  generalize (b.chain m).foldl (pick m urts) none = target at hgood
  cases target with
  | none => exact ⟨_, rfl, hreads, rfl, hgood⟩
  | some a => exact ⟨_, rfl, hreads, rfl, hgood⟩

theorem selects_of_zeroSize (hend : b.chainEnd m = .zeroSize)
    (hnone : ∀ c ∈ b.chain m, ¬Supported m urts c) : Selects b m urts getMiscAttr := by
  have h := b.endsLike_chain m urts
  rw [hend] at h
  obtain ⟨reads, hscan, hreads⟩ := h
  refine ⟨b.size + 1, ?_⟩
  unfold getMetadata
  rw [hscan]
  exact ⟨_, rfl, hreads, rfl, hnone⟩

theorem scan_of_getMetadata {fuel : Nat} {selection : Selection}
    (h : getMetadata m urts b.base b.offset getMiscAttr fuel = some selection) :
    ∃ result, scan m urts b.base fuel b.offset none = some (result, selection.reads)
      ∧ (∀ e, result = .error e → selection.metadata = none) := by
  unfold getMetadata at h
  split at h
  . cases h
  . next e reads hscan =>
    cases h
    exact ⟨_, hscan, fun _ _ => rfl⟩
  . next reads hscan =>
    cases h
    exact ⟨_, hscan, fun _ _ => rfl⟩
  . next t reads hscan =>
    cases h
    exact ⟨_, hscan, fun _ he => by cases he⟩

variable {b m urts getMiscAttr}

theorem Selects.chainEnd_ne_outside (h : Selects b m urts getMiscAttr) : b.chainEnd m ≠ .outside := by
  obtain ⟨fuel, selection, hget, hreads, -⟩ := h
  obtain ⟨result, hscan, -⟩ := scan_of_getMetadata b m urts getMiscAttr hget
  intro hend
  have hends := b.endsLike_chain m urts
  rw [hend] at hends
  obtain ⟨x, hx, hout⟩ := hends fuel result selection.reads hscan
  exact hout (hreads x hx)

theorem Selects.not_supported (h : Selects b m urts getMiscAttr) (hend : b.chainEnd m = .zeroSize) :
    ∀ c ∈ b.chain m, ¬Supported m urts c := by
  obtain ⟨fuel, selection, hget, -, hspec⟩ := h
  obtain ⟨result, hscan, herror⟩ := scan_of_getMetadata b m urts getMiscAttr hget
  have hends := b.endsLike_chain m urts
  rw [hend] at hends
  obtain ⟨reads, hscan', -⟩ := hends
  have hresult : result = .error sgxErrorInvalidMetadata := congrArg Prod.fst (scan_unique hscan hscan')
  rw [herror _ hresult] at hspec
  exact hspec.2

variable (b m urts getMiscAttr)

/--
The choice is the best structure of the block exactly if the chain ends inside the block, and no structure of
size zero comes with one that is supported.
-/
theorem getMetadata_selects_iff : Selects b m urts getMiscAttr ↔
    b.chainEnd m ≠ .outside ∧ (b.chainEnd m = .zeroSize → ∀ c ∈ b.chain m, ¬Supported m urts c) := by
  constructor
  . intro h
    exact ⟨h.chainEnd_ne_outside, h.not_supported⟩
  rintro ⟨hinside, hzero⟩
  cases hend : b.chainEnd m with
  | noMagic => exact selects_of_noMagic b m urts getMiscAttr hend
  | zeroSize => exact selects_of_zeroSize b m urts getMiscAttr hend (hzero hend)
  | outside => exact absurd hend hinside

end

def filledBlock : Block := ⟨0x1000, 0x40, 48, by decide, by decide⟩

def structureOf (version : Nat) : List UInt8 :=
  toBytes 8 metadataMagic ++ toBytes 8 version ++ toBytes 4 48 ++ List.replicate 28 0

def filledMemory : Mem := fun a =>
  if a < 0x1040 then 0
  else (structureOf (metaDataMakeVersion 1 4) ++ structureOf (metaDataMakeVersion 2 4)).getD (a - 0x1040) 0

theorem not_selects_filledBlock :
    (getMetadata filledMemory (urtsVersion true) 0x1000 0x40 (fun _ => 0) 4).map Selection.metadata
        = some (some 0x1070)
      ∧ ¬Selects filledBlock filledMemory (urtsVersion true) (fun _ => 0) := by
  refine ⟨by decide +kernel, ?_⟩
  intro h
  exact h.chainEnd_ne_outside (by decide +kernel)

end Urts
