import SrasMage.Trts.Enclave

/-!
This module contains `sgx_ocalloc`, which allocates on the untrusted stack, and what holds of the buffers
that a sequence of calls returns.
-/

namespace Trts

open Word

def ocRound : Nat := 16

def probe (lastPage : Nat) : Nat → Nat → Outcome (List Nat)
  | 0, _ => .running
  | fuel + 1, page =>
    if page ≥ lastPage then
      match probe lastPage fuel ((page + 2 ^ 64 - sePageSize) % 2 ^ 64) with
      | .done writes => .done (page :: writes)
      | res => res
    else .done []

structure Buffer where
  addr : Nat
  size : Nat
  probes : List Nat
deriving DecidableEq

def sgxOcalloc (E : Enclave) (fuel spU size : Nat) : Outcome Buffer :=
  if !E.sgxIsOutsideEnclave spU 8 then .abort
  else if spU < size then .abort
  else
    let addr := alignDown (spU - size) ocRound
    if !E.sgxIsOutsideEnclave addr size then .abort
    else
      let firstPage := trimToPage ((spU + 2 ^ 64 - 1) % 2 ^ 64)
      let lastPage := trimToPage addr
      if lastPage = 0 then .abort
      else
        match probe lastPage fuel firstPage with
        | .done probes => .done ⟨addr, size, probes⟩
        | .abort => .abort
        | .running => .running

def ocallocs (E : Enclave) (fuel : Nat) : Nat → List UInt64 → Outcome (List Buffer)
  | _, [] => .done []
  | spU, size :: rest =>
    match sgxOcalloc E fuel spU size.toNat with
    | .done buf =>
      match ocallocs E fuel buf.addr rest with
      | .done bufs => .done (buf :: bufs)
      | res => res
    | .abort => .abort
    | .running => .running

theorem probe_spec {lastPage : Nat} (hlast : sePageSize ≤ lastPage) {fuel page : Nat} (hpage : page < 2 ^ 64)
    (hfuel : page < fuel) :
    ∃ writes, probe lastPage fuel page = .done writes ∧ ∀ a ∈ writes, lastPage ≤ a ∧ a ≤ page := by
  unfold sePageSize at hlast
  induction fuel generalizing page with
  | zero => omega
  | succ fuel ih =>
    unfold probe
    by_cases hge : page ≥ lastPage
    . have hnext : (page + 2 ^ 64 - sePageSize) % 2 ^ 64 = page - 4096 := by
        unfold sePageSize
        omega
      obtain ⟨writes, heq, hwrites⟩ := ih (show page - 4096 < 2 ^ 64 by omega) (by omega)
      rw [if_pos hge, hnext, heq]
      refine ⟨page :: writes, rfl, fun a ha => ?_⟩
      obtain rfl | ha := List.mem_cons.1 ha
      . omega
      have := hwrites a ha
      omega
    . rw [if_neg hge]
      exact ⟨[], rfl, fun a ha => by cases ha⟩

structure Buffer.Good (E : Enclave) (spU : Nat) (buf : Buffer) : Prop where
  aligned : 16 ∣ buf.addr
  below : buf.addr + buf.size ≤ spU
  outside : ∀ a, buf.addr ≤ a → a < buf.addr + buf.size → ¬ E.Contains a
  probes : ∀ a ∈ buf.probes, ¬ E.Contains a

theorem Buffer.Good.of_le {E : Enclave} {spU spU' : Nat} {buf : Buffer} (h : buf.Good E spU)
    (hle : spU ≤ spU') : buf.Good E spU' :=
  { h with below := h.below.trans hle }

theorem not_contains_between {E : Enclave} {spU size : Nat} (hspU : spU < 2 ^ 64) (hsize : size ≤ spU)
    (hsp : E.sgxIsOutsideEnclave spU 8 = true)
    (haddr : E.sgxIsOutsideEnclave (alignDown (spU - size) ocRound) size = true) {a : Nat}
    (hle : trimToPage (alignDown (spU - size) ocRound) ≤ a) (hlt : a < spU) : ¬ E.Contains a := by
  have halign : alignDown (spU - size) ocRound = spU - size - (spU - size) % 16 :=
    alignDown_two_pow (k := 4) (by omega) (by decide)
  rw [halign] at hle haddr
  rw [trimToPage_eq] at hle
  have hbelow := Enclave.sgxIsOutsideEnclave_bounds haddr (by omega) (by omega)
  have habove := Enclave.sgxIsOutsideEnclave_bounds hsp hspU (by decide)
  obtain ⟨b, hb⟩ := E.base_aligned
  obtain ⟨n, hn⟩ := E.size_aligned
  have hpos := E.pos
  unfold sePageSize at hb hn
  unfold Enclave.Contains
  omega

theorem sgxOcalloc_spec (E : Enclave) {fuel spU : Nat} (size : Nat) (hspU : spU < 2 ^ 64) (hfuel : spU < fuel) :
    sgxOcalloc E fuel spU size = .abort ∨
      ∃ buf, sgxOcalloc E fuel spU size = .done buf ∧ buf.size = size ∧ buf.Good E spU := by
  unfold sgxOcalloc
  split
  . exact .inl rfl
  next hsp =>
  split
  . exact .inl rfl
  next hsize =>
  dsimp only
  split
  . exact .inl rfl
  next haddr =>
  split
  . exact .inl rfl
  next hpage =>
  simp only [Bool.not_eq_true', Bool.not_eq_false] at hsp haddr
  have halign : alignDown (spU - size) ocRound = spU - size - (spU - size) % 16 :=
    alignDown_two_pow (k := 4) (by omega) (by decide)
  have hbetween := fun a => not_contains_between (a := a) hspU (by omega) hsp haddr
  have htrim := trimToPage_eq (alignDown (spU - size) ocRound)
  have hfirst := trimToPage_eq ((spU + 2 ^ 64 - 1) % 2 ^ 64)
  have hlast : sePageSize ≤ trimToPage (alignDown (spU - size) ocRound) := by
    unfold sePageSize
    omega
  have hpages : trimToPage ((spU + 2 ^ 64 - 1) % 2 ^ 64) < fuel := by omega
  obtain ⟨writes, hprobe, hwrites⟩ := probe_spec hlast (by omega) hpages
  rw [hprobe]
  refine .inr ⟨_, rfl, rfl, ?_, ?_, ?_, ?_⟩
  . show 16 ∣ alignDown (spU - size) ocRound
    omega
  . show alignDown (spU - size) ocRound + size ≤ spU
    omega
  . intro a hle hlt
    refine hbetween a ?_ ?_ <;> dsimp only at hle hlt <;> omega
  . intro a ha
    have := hwrites a ha
    exact hbetween a this.1 (by omega)

/--
Calls of `sgx_ocalloc` come to an end. If none of them aborts, they return buffers of the requested sizes,
aligned, outside the enclave and each below the ones before it, and have written only outside the enclave.
-/
theorem ocallocs_spec (E : Enclave) (spU : UInt64) (sizes : List UInt64) (fuel : Nat)
    (hfuel : spU.toNat < fuel) :
    ocallocs E fuel spU.toNat sizes = .abort ∨
      ∃ bufs, ocallocs E fuel spU.toNat sizes = .done bufs ∧ bufs.map Buffer.size = sizes.map UInt64.toNat ∧
        (∀ buf ∈ bufs, buf.Good E spU.toNat) ∧
        bufs.Pairwise fun earlier later => later.addr + later.size ≤ earlier.addr := by
  have hspU := spU.toNat_lt
  generalize spU.toNat = spU at hspU hfuel
  induction sizes generalizing spU with
  | nil => exact .inr ⟨[], rfl, rfl, fun _ h => (by cases h), .nil⟩
  | cons size rest ih =>
    unfold ocallocs
    obtain habort | ⟨buf, hdone, hsize, hgood⟩ := sgxOcalloc_spec E size.toNat hspU hfuel
    . rw [habort]
      exact .inl rfl
    rw [hdone]
    dsimp only
    have hbelow := hgood.below
    obtain habort | ⟨bufs, hdone', hsizes, hgoods, hpairwise⟩ := ih buf.addr (by omega) (by omega)
    . rw [habort]
      exact .inl rfl
    rw [hdone']
    refine .inr ⟨buf :: bufs, rfl, by rw [List.map_cons, List.map_cons, hsize, hsizes], ?_, ?_⟩
    . intro b hb
      obtain rfl | hb := List.mem_cons.1 hb
      . exact hgood
      . exact (hgoods b hb).of_le (by omega)
    . exact List.pairwise_cons.2 ⟨fun b hb => (hgoods b hb).below, hpairwise⟩

def lowEnclave : Enclave :=
  ⟨0x4000, 0x2000, by decide, by decide, ⟨4, rfl⟩, ⟨2, rfl⟩⟩

theorem ocallocs_spec_above :
    ocallocs lowEnclave 0x9000 0x8008 [0x1001, 0x20, 0]
        = .done [⟨0x7000, 0x1001, [0x8000, 0x7000]⟩, ⟨0x6fe0, 0x20, [0x6000]⟩, ⟨0x6fe0, 0, [0x6000]⟩] ∧
      (ocallocs lowEnclave 0x9000 0x8008 [0x1001, 0x20, 0] = .abort ∨
        ∃ bufs, ocallocs lowEnclave 0x9000 0x8008 [0x1001, 0x20, 0] = .done bufs ∧
          bufs.map Buffer.size = [0x1001, 0x20, 0] ∧ (∀ buf ∈ bufs, buf.Good lowEnclave 0x8008) ∧
          bufs.Pairwise fun earlier later => later.addr + later.size ≤ earlier.addr) :=
  ⟨by decide +kernel, ocallocs_spec lowEnclave 0x8008 [0x1001, 0x20, 0] 0x9000 (by decide)⟩

end Trts
