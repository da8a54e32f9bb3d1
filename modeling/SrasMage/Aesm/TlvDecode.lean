import SrasMage.Aesm.TypeLengthValue

/-!
This module contains the proof that the decoder of messages ends with entries that tile the message, as long
as the length of no entry wraps around.
-/

namespace Aesm

open Bytes Memory List

def TlvInfo.lengths (info : TlvInfo) : Nat × Nat := (info.headerSize, info.size)

def lengthsAt (bytes : List UInt8) : Option (Nat × Nat) := (readTlvInfo ⟨0, bytes⟩).map TlvInfo.lengths

inductive Cut : List UInt8 → List (Nat × Nat) → List UInt8 → Prop
  | here (bytes : List UInt8) : Cut bytes [] bytes
  | piece {bytes rest : List UInt8} {header size : Nat} {lengths : List (Nat × Nat)}
      (hread : lengthsAt bytes = some (header, size))
      (hle : (header + size) % 2 ^ 32 ≤ bytes.length)
      (hcut : Cut (bytes.drop ((header + size) % 2 ^ 32)) lengths rest) :
      Cut bytes ((header, size) :: lengths) rest

structure NoWrap (bytes : List UInt8) : Prop where
  moves : ∀ lengths rest header size,
    Cut bytes lengths rest → lengthsAt rest = some (header, size) → header + size ≠ 2 ^ 32
  exact : ∀ lengths, Cut bytes lengths [] → ∀ l ∈ lengths, l.1 + l.2 < 2 ^ 32

def Tiles (addr : UInt64) (offset size : Nat) : List TlvInfo → Prop
  | [] => offset = size
  | info :: infos =>
    (info.headerSize = smallTlvHeaderSize ∨ info.headerSize = largeTlvHeaderSize) ∧
    info.payload = addr + UInt64.ofNat (offset + info.headerSize) ∧
    offset + info.headerSize + info.size ≤ size ∧
    Tiles addr (offset + info.headerSize + info.size) size infos

structure Header (addr : UInt64) (bytes : List UInt8) (info : TlvInfo) : Prop where
  lengths : lengthsAt bytes = some info.lengths
  small_or_large : info.headerSize = smallTlvHeaderSize ∨ info.headerSize = largeTlvHeaderSize
  le : info.headerSize ≤ bytes.length
  size_lt : info.size < 2 ^ 32
  payload : info.payload = addr + UInt64.ofNat info.headerSize

variable {bytes : List UInt8} {addr : UInt64} {info : TlvInfo} {fuel : Nat} {infos : List TlvInfo}

theorem header_of_readTlvInfo (h : readTlvInfo ⟨addr, bytes⟩ = some info) : Header addr bytes info := by
  simp only [readTlvInfo] at h
  split at h
  . next b0 version b2 b3 rest =>
    split at h
    . next hlarge =>
      split at h
      . next b4 b5 tail =>
        cases h
        exact {
          lengths := by simp [lengthsAt, readTlvInfo, hlarge, TlvInfo.lengths]
          small_or_large := .inr rfl
          le := by simp [largeTlvHeaderSize]
          size_lt := Nat.lt_of_lt_of_eq (ntoh_lt _) (by simp)
          payload := rfl
        }
      . cases h
    . next hsmall =>
      cases h
      exact {
        lengths := by simp [lengthsAt, readTlvInfo, hsmall, TlvInfo.lengths]
        small_or_large := .inl rfl
        le := by simp [smallTlvHeaderSize]
        size_lt := Nat.lt_of_lt_of_le (ntoh_lt _) (by simp)
        payload := rfl
      }
  . cases h

theorem readTlvInfo_eq_map (addr : UInt64) (bytes : List UInt8) : readTlvInfo ⟨addr, bytes⟩ =
    (readTlvInfo ⟨0, bytes⟩).map fun info => { info with payload := addr + UInt64.ofNat info.headerSize } := by
  match bytes with
  | [] | [_] | [_, _] | [_, _, _] => rfl
  | b0 :: _ :: _ :: _ :: rest =>
    simp only [readTlvInfo]
    cases isFourBytesSizeType b0 with
    | false => rfl
    | true =>
      match rest with
      | [] | [_] => rfl
      | _ :: _ :: _ => rfl

theorem readTlvInfo_of_lengthsAt (addr : UInt64) {lengths : Nat × Nat} (h : lengthsAt bytes = some lengths) :
    ∃ info, readTlvInfo ⟨addr, bytes⟩ = some info ∧ info.lengths = lengths := by
  obtain ⟨info, hinfo, hlengths⟩ := Option.map_eq_some_iff.1 h
  rw [readTlvInfo_eq_map, hinfo]
  exact ⟨_, rfl, hlengths⟩

theorem decodeOneTlv_eq_some {next : TlvMsg} (h : decodeOneTlv ⟨addr, bytes⟩ = some (info, next)) :
    Header addr bytes info ∧ (info.headerSize + info.size) % 2 ^ 32 ≤ bytes.length ∧
      next = TlvMsg.advance ⟨addr, bytes⟩ ((info.headerSize + info.size) % 2 ^ 32) := by
  simp only [decodeOneTlv] at h
  split at h
  . cases h
  next hread =>
  split at h
  . cases h
  next hle =>
  cases h
  exact ⟨header_of_readTlvInfo hread, Nat.not_lt.1 hle, rfl⟩

theorem decodeOneTlv_of_lengthsAt (addr : UInt64) {header size : Nat}
    (h : lengthsAt bytes = some (header, size)) (hle : (header + size) % 2 ^ 32 ≤ bytes.length) :
    ∃ info, info.lengths = (header, size) ∧
      decodeOneTlv ⟨addr, bytes⟩ = some (info, TlvMsg.advance ⟨addr, bytes⟩ ((header + size) % 2 ^ 32)) := by
  obtain ⟨info, hread, hlengths⟩ := readTlvInfo_of_lengthsAt addr h
  obtain ⟨rfl, rfl⟩ := Prod.mk.injEq .. ▸ hlengths
  refine ⟨info, rfl, ?_⟩
  simp only [decodeOneTlv, hread]
  rw [if_neg (by simpa using hle)]

theorem Header.ne_nil (h : Header addr bytes info) : bytes ≠ [] := by
  rintro rfl
  have hle := h.le
  cases h.small_or_large with
  | inl hsmall => simp [hsmall, smallTlvHeaderSize] at hle
  | inr hlarge => simp [hlarge, largeTlvHeaderSize] at hle

theorem ne_nil_of_lengthsAt {lengths : Nat × Nat} (h : lengthsAt bytes = some lengths) : bytes ≠ [] := by
  obtain ⟨info, hread, -⟩ := readTlvInfo_of_lengthsAt 0 h
  exact (header_of_readTlvInfo hread).ne_nil

theorem NoWrap.drop {header size : Nat} (h : NoWrap bytes) (hread : lengthsAt bytes = some (header, size))
    (hle : (header + size) % 2 ^ 32 ≤ bytes.length) : NoWrap (bytes.drop ((header + size) % 2 ^ 32)) where
  moves _ rest h' n' hcut := h.moves _ rest h' n' (.piece hread hle hcut)
  exact _ hcut l hl := h.exact _ (.piece hread hle hcut) l (mem_cons_of_mem _ hl)

theorem Header.total_pos (h : Header addr bytes info) (hne : info.headerSize + info.size ≠ 2 ^ 32) :
    0 < (info.headerSize + info.size) % 2 ^ 32 := by
  have hlt := h.size_lt
  have hsizes := h.small_or_large
  simp only [smallTlvHeaderSize, largeTlvHeaderSize] at hsizes
  omega

theorem decodeLoop_returns (malloc : Nat → Bool) (addr : UInt64) (bytes : List UInt8) (infos : List TlvInfo)
    (hlen : infos.length + bytes.length < 2 ^ 32) (h : NoWrap bytes) :
    ∃ fuel status out, decodeLoop malloc fuel ⟨addr, bytes⟩ infos = some (.returned status out) := by
  induction hn : bytes.length using Nat.strongRecOn generalizing malloc addr bytes infos with
  | ind n ih =>
    subst hn
    by_cases hnil : bytes = []
    . exact ⟨1, .success, infos, by simp [decodeLoop, hnil]⟩
    cases hdecode : decodeOneTlv ⟨addr, bytes⟩ with
    | none => exact ⟨1, .invalidMsgError, infos, by simp [decodeLoop, hnil, hdecode]⟩
    | some result =>
      obtain ⟨info, next⟩ := result
      obtain ⟨hheader, hle, rfl⟩ := decodeOneTlv_eq_some hdecode
      cases hmalloc : malloc 0 with
      | false => exact ⟨1, .outOfMemoryError, infos, by simp [decodeLoop, hnil, hdecode, hmalloc]⟩
      | true =>
        have hpos := hheader.total_pos (h.moves [] bytes _ _ (.here bytes) hheader.lengths)
        have hshort : (bytes.drop ((info.headerSize + info.size) % 2 ^ 32)).length < bytes.length := by
          rw [length_drop]
          omega
        have hfits : ¬(infos ≠ [] ∧ (infos.length + 1) % 2 ^ 32 = 0) := by
          rintro ⟨-, hzero⟩
          omega
        obtain ⟨fuel, status, out, hout⟩ := ih _ hshort (fun k => malloc (k + 1)) _ _ (infos ++ [info])
          (by rw [length_append, length_singleton]; omega) (h.drop hheader.lengths hle) rfl
        refine ⟨fuel + 1, status, out, ?_⟩
        simp only [decodeLoop, hdecode, hmalloc, if_neg hnil, if_neg hfits]
        exact hout

theorem decodeLoop_success {malloc : Nat → Bool} {base : UInt64} {offset size : Nat} {out : List TlvInfo}
    (hsize : offset + bytes.length = size)
    (h : decodeLoop malloc fuel ⟨base + UInt64.ofNat offset, bytes⟩ infos = some (.returned .success out)) :
    ∃ new, out = infos ++ new ∧ Cut bytes (new.map TlvInfo.lengths) [] ∧
      ((∀ info ∈ new, info.headerSize + info.size < 2 ^ 32) → Tiles base offset size new) := by
  induction fuel generalizing malloc offset bytes infos with
  | zero => cases h
  | succ fuel ih =>
    rw [decodeLoop] at h
    split at h
    . next hnil =>
      obtain rfl : bytes = [] := hnil
      cases h
      exact ⟨[], by simp, .here _, fun _ => by simpa [Tiles] using hsize⟩
    split at h
    . cases h
    next info next hdecode =>
    obtain ⟨hheader, hle, rfl⟩ := decodeOneTlv_eq_some hdecode
    split at h
    . cases h
    split at h
    . cases h
    simp only [TlvMsg.advance, UInt64.add_assoc, ← UInt64.ofNat_add] at h
    obtain ⟨new, hout, hcut, htiles⟩ := ih (by rw [length_drop]; omega) h
    refine ⟨info :: new, by rw [hout, append_assoc]; rfl, .piece hheader.lengths hle hcut, ?_⟩
    intro hfits
    have hfit := hfits info mem_cons_self
    rw [Nat.mod_eq_of_lt hfit] at hle htiles
    refine ⟨hheader.small_or_large, ?_, by omega, ?_⟩
    . rw [hheader.payload, UInt64.add_assoc, ← UInt64.ofNat_add]
    . rw [Nat.add_assoc]
      exact htiles fun info' h' => hfits info' (mem_cons_of_mem _ h')

theorem Tiles.le {offset size : Nat} (h : Tiles addr offset size infos) :
    ∀ info ∈ infos, info.headerSize + info.size ≤ size := by
  induction infos generalizing offset with
  | nil => nofun
  | cons info infos ih =>
    obtain ⟨-, -, hle, hrest⟩ := h
    intro info' hmem
    cases hmem with
    | head => omega
    | tail _ hmem => exact ih hrest info' hmem

theorem decodeLoop_stuck {rest : List UInt8} {lengths : List (Nat × Nat)} {header size : Nat}
    (hcut : Cut bytes lengths rest) (hread : lengthsAt rest = some (header, size))
    (hsum : header + size = 2 ^ 32) (fuel : Nat) (addr : UInt64) (infos : List TlvInfo) (status : TlvStatus)
    (out : List TlvInfo) :
    decodeLoop (fun _ => true) fuel ⟨addr, bytes⟩ infos ≠ some (.returned status out) := by
  induction fuel generalizing addr bytes lengths infos with
  | zero => nofun
  | succ fuel ih =>
    rw [decodeLoop]
    cases hcut with
    | here =>
      have hmod : (header + size) % 2 ^ 32 = 0 := by omega
      obtain ⟨info, -, hdecode⟩ := decodeOneTlv_of_lengthsAt addr hread (hmod ▸ Nat.zero_le _)
      rw [if_neg (ne_nil_of_lengthsAt hread)]
      simp only [hdecode, hmod, TlvMsg.advance, Bool.not_true, Bool.false_eq_true, if_false]
      split
      . nofun
      . exact ih (.here _) _ _
    | piece hfirst hle hcut =>
      obtain ⟨info, -, hdecode⟩ := decodeOneTlv_of_lengthsAt addr hfirst hle
      rw [if_neg (ne_nil_of_lengthsAt hfirst)]
      simp only [hdecode, TlvMsg.advance, Bool.not_true, Bool.false_eq_true, if_false]
      split
      . nofun
      . exact ih hcut _ _

theorem decodeLoop_of_cut {lengths : List (Nat × Nat)} (hcut : Cut bytes lengths []) {status : TlvStatus}
    {out : List TlvInfo} (h : decodeLoop (fun _ => true) fuel ⟨addr, bytes⟩ infos = some (.returned status out)) :
    status = .success ∧ out.map TlvInfo.lengths = infos.map TlvInfo.lengths ++ lengths := by
  induction fuel generalizing addr bytes lengths infos with
  | zero => cases h
  | succ fuel ih =>
    rw [decodeLoop] at h
    cases hcut with
    | here =>
      rw [if_pos rfl] at h
      cases h
      simp
    | piece hfirst hle hcut =>
      obtain ⟨info, hlengths, hdecode⟩ := decodeOneTlv_of_lengthsAt addr hfirst hle
      rw [if_neg (ne_nil_of_lengthsAt hfirst)] at h
      simp only [hdecode, TlvMsg.advance, Bool.not_true, Bool.false_eq_true, if_false] at h
      split at h
      . cases h
      obtain ⟨hstatus, hout⟩ := ih hcut h
      refine ⟨hstatus, ?_⟩
      rw [hout, map_append, append_assoc, map_singleton, hlengths]
      rfl

theorem initFromBuffer_eq_returned {malloc : Nat → Bool} {status : TlvStatus} {t : TLVsMsg}
    (h : initFromBuffer (some addr) malloc fuel bytes = some (.returned status t)) :
    decodeLoop malloc fuel ⟨addr, bytes⟩ [] = some (.returned status t.infos) ∧ t.msg = some ⟨addr, bytes⟩ := by
  simp only [initFromBuffer] at h
  split at h
  . cases h
  . cases h
  next hloop =>
  cases h
  exact ⟨hloop, rfl⟩

/--
The decoder returns, and what it accepts is tiled by the entries, exactly if no length wraps around.
-/
theorem initFromBuffer_tiles_iff (bytes : List UInt8) (hlen : bytes.length < 2 ^ 32) :
    (∀ buf malloc, ∃ fuel status t, initFromBuffer buf malloc fuel bytes = some (.returned status t) ∧
      (status = .success → ∃ addr, t.msg = some ⟨addr, bytes⟩ ∧ Tiles addr 0 bytes.length t.infos))
      ↔
    NoWrap bytes := by
  constructor
  . intro h
    obtain ⟨fuel, status, t, hinit, htiles⟩ := h (some 0) fun _ => true
    obtain ⟨hloop, hmsg⟩ := initFromBuffer_eq_returned hinit
    refine ⟨?_, ?_⟩
    . intro lengths rest header size hcut hread hsum
      exact decodeLoop_stuck hcut hread hsum _ _ _ _ _ hloop
    intro lengths hcut l hl
    obtain ⟨hstatus, hout⟩ := decodeLoop_of_cut hcut hloop
    obtain ⟨addr, -, htiles⟩ := htiles hstatus
    rw [map_nil, nil_append] at hout
    obtain ⟨info, hmem, rfl⟩ := mem_map.mp (hout ▸ hl)
    exact Nat.lt_of_le_of_lt (htiles.le info hmem) hlen
  intro h buf malloc
  cases buf with
  | none => exact ⟨0, .outOfMemoryError, .empty, rfl, nofun⟩
  | some addr =>
    obtain ⟨fuel, status, out, hloop⟩ := decodeLoop_returns malloc addr bytes [] (by simpa using hlen) h
    refine ⟨fuel, status, ⟨out, some ⟨addr, bytes⟩⟩, by simp [initFromBuffer, hloop], ?_⟩
    rintro rfl
    have hstart : addr + UInt64.ofNat 0 = addr := by simp
    obtain ⟨new, hout, hcut, htiles⟩ := decodeLoop_success (Nat.zero_add _) (hstart.symm ▸ hloop)
    obtain rfl : out = new := hout
    refine ⟨addr, rfl, htiles ?_⟩
    intro info hmem
    exact h.exact _ hcut info.lengths (mem_map_of_mem hmem)

def twoNonces : List UInt8 := [4, 1, 0, 1, 7, 4, 1, 0, 1, 8]

theorem cut_twoNonces : Cut twoNonces [(4, 1), (4, 1)] [] :=
  .piece rfl (by decide) (.piece rfl (by decide) (.here _))

theorem cuts_twoNonces {lengths : List (Nat × Nat)} {rest : List UInt8} (h : Cut twoNonces lengths rest) :
    (∀ l ∈ lengths, l = (4, 1)) ∧ (rest = twoNonces ∨ rest = twoNonces.drop 5 ∨ rest = []) := by
  cases h with
  | here => exact ⟨nofun, .inl rfl⟩
  | piece hfirst _ h =>
    cases (hfirst : some (4, 1) = _)
    cases h with
    | here => exact ⟨fun l hl => mem_singleton.1 hl, .inr (.inl rfl)⟩
    | piece hsecond _ h =>
      cases (hsecond : some (4, 1) = _)
      cases h with
      | here =>
        refine ⟨fun l hl => ?_, .inr (.inr rfl)⟩
        rcases mem_cons.1 hl with h | h
        . exact h
        . exact mem_singleton.1 h
      | piece hread => exact absurd rfl (ne_nil_of_lengthsAt hread)

theorem noWrap_twoNonces : NoWrap twoNonces := by
  refine ⟨?_, ?_⟩
  . intro lengths rest header size hcut hread
    obtain rfl | rfl | rfl := (cuts_twoNonces hcut).2
    . cases (hread : some (4, 1) = _)
      decide
    . cases (hread : some (4, 1) = _)
      decide
    . exact absurd rfl (ne_nil_of_lengthsAt hread)
  intro lengths hcut l hl
  rw [(cuts_twoNonces hcut).1 l hl]
  decide

theorem initFromBuffer_tiles_twoNonces :
    ∃ fuel t, initFromBuffer (some 0) (fun _ => true) fuel twoNonces = some (.returned .success t) ∧
      ∃ addr, t.msg = some ⟨addr, twoNonces⟩ ∧ Tiles addr 0 10 t.infos := by
  obtain ⟨fuel, status, t, hinit, htiles⟩ :=
    (initFromBuffer_tiles_iff twoNonces (by decide)).mpr noWrap_twoNonces (some 0) fun _ => true
  obtain rfl := (decodeLoop_of_cut cut_twoNonces (initFromBuffer_eq_returned hinit).1).1
  exact ⟨fuel, t, hinit, htiles rfl⟩

theorem initFromBuffer_wraps :
    (∃ t, initFromBuffer (some 0) (fun _ => true) 3 [0x80, 1, 0xFF, 0xFF, 0xFF, 0xFF, 0, 0, 0, 0, 0]
        = some (.returned .success t) ∧
      t.infos.map TlvInfo.size = [2 ^ 32 - 1, 0] ∧ ¬∃ addr, Tiles addr 0 11 t.infos) ∧
    (∀ fuel status t, initFromBuffer (some 0) (fun _ => true) fuel [0x80, 1, 0xFF, 0xFF, 0xFF, 0xFA]
        ≠ some (.returned status t)) := by
  refine ⟨⟨_, rfl, rfl, ?_⟩, ?_⟩
  . rintro ⟨addr, htiles⟩
    have := htiles.le _ mem_cons_self
    exact absurd this (by decide)
  intro fuel status t hinit
  have hloop := (initFromBuffer_eq_returned hinit).1
  exact decodeLoop_stuck (.here _) (by rfl : _ = some (6, 2 ^ 32 - 6)) (by rfl) _ _ _ _ _ hloop

end Aesm
