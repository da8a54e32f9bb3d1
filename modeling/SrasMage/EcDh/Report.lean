import SrasMage.Memory

/-!
This module contains the reports of enclaves and how a session makes the target of its own report from a
report it was sent (`make_target_info` of `ec_dh.cpp`).
-/

namespace EcDh

open Bytes Memory

inductive SgxError where
  | unexpected
  | invalidParameter
  | outOfMemory
  | invalidState
  | macMismatch
  | kdfMismatch
  | other (code : Nat)
deriving DecidableEq

structure Enclave where
  cpuSvn : Vector UInt8 16
  miscSelect : Vector UInt8 4
  cetAttributes : Vector UInt8 1
  reserved1 : Vector UInt8 11
  isvExtProdId : Vector UInt8 16
  attributes : Vector UInt8 16
  mrEnclave : Vector UInt8 32
  reserved2 : Vector UInt8 32
  mrSigner : Vector UInt8 32
  reserved3 : Vector UInt8 32
  configId : Vector UInt8 64
  isvProdId : Vector UInt8 2
  isvSvn : Vector UInt8 2
  configSvn : Vector UInt8 2
  reserved4 : Vector UInt8 42
  isvFamilyId : Vector UInt8 16
deriving DecidableEq

structure Report where
  enclave : Enclave
  reportData : Vector UInt8 64
  keyId : Vector UInt8 32
  mac : Vector UInt8 16
deriving DecidableEq

def Enclave.fields (e : Enclave) : List (List UInt8) :=
  [e.cpuSvn.toList, e.miscSelect.toList, e.cetAttributes.toList, e.reserved1.toList, e.isvExtProdId.toList,
    e.attributes.toList, e.mrEnclave.toList, e.reserved2.toList, e.mrSigner.toList, e.reserved3.toList,
    e.configId.toList, e.isvProdId.toList, e.isvSvn.toList, e.configSvn.toList, e.reserved4.toList,
    e.isvFamilyId.toList]

def Report.maced (r : Report) : List UInt8 := r.enclave.fields.flatten ++ (r.reportData.toList ++ r.keyId.toList)

def Report.bytes (r : Report) : List UInt8 := r.maced ++ r.mac.toList

def sizeofTargetInfo : Nat := 512
def sizeofReport : Nat := 432

def Enclave.targetInfo (e : Enclave) : List UInt8 :=
  e.mrEnclave.toList ++ (e.attributes.toList ++ (e.cetAttributes.toList ++ (List.replicate 1 0 ++
    (e.configSvn.toList ++ (e.miscSelect.toList ++ (List.replicate 8 0 ++ (e.configId.toList ++
    List.replicate 384 0)))))))

abbrev ProtoSpec := Vector UInt8 64

def ProtoSpec.ver (ps : ProtoSpec) : UInt8 := ps.get 6
def ProtoSpec.rev (ps : ProtoSpec) : UInt8 := ps.get 7

def ProtoSpec.targetSpec (ps : ProtoSpec) (i : Nat) : Nat := ofBytes ((ps.toList.drop (8 + 2 * i)).take 2)

def ProtoSpec.tsCount (ps : ProtoSpec) : Nat := ps.targetSpec 0 / 2 ^ 8

def ProtoSpec.isValid (ps : ProtoSpec) : Bool :=
  ps.ver = 2 ∧ ps.rev = 0 ∧ ps.targetSpec 0 % 2 ^ 8 = 0 ∧ ps.tsCount < 28

def placeField (rpt : List UInt8) : List UInt8 × Nat → Nat → Except SgxError (List UInt8 × Nat)
  | (ti, pos), spec =>
    let size := 2 ^ (spec % 16)
    let pos := (pos + size - 1) / size * size
    if pos + size > sizeofTargetInfo then .error .unexpected
    else if spec < 2 ^ 15 then
      let offset := spec / 16
      if offset + size > sizeofReport then .error .unexpected
      else .ok (overwrite ti pos ((rpt.drop offset).take size), pos + size)
    -- the offset is negative, and `-1` leaves the field out
    else if spec / 16 = 2 ^ 12 - 1 then .ok (ti, pos + size)
    else .error .unexpected

def makeTargetInfo (ps : ProtoSpec) (rpt : Report) : Except SgxError (List UInt8) :=
  if !ps.isValid then .error .invalidParameter
  else
    Prod.fst <$> ((List.range' 1 ps.tsCount).map ps.targetSpec).foldlM (placeField rpt.bytes)
      (List.replicate sizeofTargetInfo 0, 0)

def protoSpecLAv2 : ProtoSpec :=
  #v[0x53, 0x47, 0x58, 0x20, 0x4C, 0x41, 2, 0,
    0x00, 0x06, 0x05, 0x04, 0x04, 0x03, 0x40, 0x01, 0x41, 0x10, 0x02, 0x01, 0x06, 0x0C,
    0, 0, 0, 0, 0, 0, 0, 0, 0, 0, 0, 0, 0, 0, 0, 0, 0, 0, 0, 0, 0, 0, 0, 0, 0, 0, 0, 0, 0, 0, 0, 0, 0, 0, 0, 0,
    0, 0, 0, 0, 0, 0]

theorem overwrite_replicate (pre : List UInt8) (g n : Nat) (new : List UInt8) (h : g + new.length ≤ n) :
    overwrite (pre ++ List.replicate n 0) (pre.length + g) new =
    (pre ++ (List.replicate g 0 ++ new)) ++ List.replicate (n - (g + new.length)) 0 := by
  rw [overwrite, List.take_length_add_append, Nat.add_assoc, List.drop_length_add_append, List.take_replicate,
    List.drop_replicate, Nat.min_eq_left (by omega)]
  simp only [List.append_assoc]

theorem targetSpecs_protoSpecLAv2 : (List.range' 1 protoSpecLAv2.tsCount).map protoSpecLAv2.targetSpec =
    [0x0405, 0x0304, 0x0140, 0x1041, 0x0102, 0x0C06] := by decide +kernel

theorem flatten_eq_split {α : Type} {fields : List (List α)} {k : Nat} {field : List α} (h : fields[k]? = some field) :
    fields.flatten = (fields.take k).flatten ++ (field ++ (fields.drop (k + 1)).flatten) := by
  obtain ⟨hk, rfl⟩ := List.getElem?_eq_some_iff.1 h
  rw [← List.flatten_cons, ← List.flatten_append, List.getElem_cons_drop, List.take_append_drop]

theorem placeField_eq {r : Report} (k spec size pos gap next : Nat) {field done : List UInt8}
    (hfield : r.enclave.fields[k]? = some field) (hoffset : (r.enclave.fields.take k).flatten.length = spec / 16)
    (hsize : field.length = size) (hdone : done.length = pos)
    (hfits : spec < 2 ^ 15 ∧ 2 ^ (spec % 16) = size ∧ spec / 16 + size ≤ sizeofReport ∧
      (pos + size - 1) / size * size = pos + gap ∧ pos + gap + size = next ∧ next ≤ sizeofTargetInfo) :
    placeField r.bytes (done ++ List.replicate (sizeofTargetInfo - pos) 0, pos) spec =
    .ok ((done ++ (List.replicate gap 0 ++ field)) ++ List.replicate (sizeofTargetInfo - next) 0, next) := by
  obtain ⟨hspec, hpow, hreport, hpos, rfl, hend⟩ := hfits
  have hslice : (r.bytes.drop (spec / 16)).take size = field := by
    rw [Report.bytes, Report.maced, flatten_eq_split hfield, ← hoffset, ← hsize]
    simp only [List.append_assoc, List.drop_left, List.take_left]
  simp only [placeField]
  rw [hpow, hslice, hpos, if_neg (by omega), if_pos hspec, if_neg (by omega), ← hdone,
    overwrite_replicate done gap _ field (by omega), hsize, Nat.sub_sub, Nat.add_assoc]

theorem foldlM_cons_of_ok {α β ε : Type} {f : β → α → Except ε β} {s s' : β} {x : α} (h : f s x = .ok s')
    (xs : List α) :
    (x :: xs).foldlM f s = xs.foldlM f s' := by
  rw [List.foldlM_cons, h]
  rfl

theorem makeTargetInfo_protoSpecLAv2 (r : Report) : makeTargetInfo protoSpecLAv2 r = .ok r.enclave.targetInfo := by
  have hvalid : protoSpecLAv2.isValid = true := by decide +kernel
  have hmr := placeField_eq (r := r) 6 0x0405 32 0 0 32 rfl (by simp [Enclave.fields]) Vector.length_toList
    List.length_nil (by decide)
  generalize h1 : [] ++ (_ ++ r.enclave.mrEnclave.toList) = d1 at hmr
  have hattributes := placeField_eq (r := r) 5 0x0304 16 32 0 48 rfl (by simp [Enclave.fields]) Vector.length_toList
    (by simp [← h1] : d1.length = 32) (by decide)
  generalize h2 : d1 ++ (_ ++ r.enclave.attributes.toList) = d2 at hattributes
  have hcet := placeField_eq (r := r) 2 0x0140 1 48 0 49 rfl (by simp [Enclave.fields]) Vector.length_toList
    (by simp [← h2, ← h1] : d2.length = 48) (by decide)
  generalize h3 : d2 ++ (_ ++ r.enclave.cetAttributes.toList) = d3 at hcet
  have hsvn := placeField_eq (r := r) 13 0x1041 2 49 1 52 rfl (by simp [Enclave.fields]) Vector.length_toList
    (by simp [← h3, ← h2, ← h1] : d3.length = 49) (by decide)
  generalize h4 : d3 ++ (_ ++ r.enclave.configSvn.toList) = d4 at hsvn
  have hmisc := placeField_eq (r := r) 1 0x0102 4 52 0 56 rfl (by simp [Enclave.fields]) Vector.length_toList
    (by simp [← h4, ← h3, ← h2, ← h1] : d4.length = 52) (by decide)
  generalize h5 : d4 ++ (_ ++ r.enclave.miscSelect.toList) = d5 at hmisc
  have hid := placeField_eq (r := r) 10 0x0C06 64 56 8 128 rfl (by simp [Enclave.fields]) Vector.length_toList
    (by simp [← h5, ← h4, ← h3, ← h2, ← h1] : d5.length = 56) (by decide)
  have hstart : (List.replicate sizeofTargetInfo (0 : UInt8), 0)
      = ([] ++ List.replicate (sizeofTargetInfo - 0) 0, 0) := by rw [List.nil_append, Nat.sub_zero]
  rw [makeTargetInfo, hvalid, targetSpecs_protoSpecLAv2, hstart, foldlM_cons_of_ok hmr,
    foldlM_cons_of_ok hattributes, foldlM_cons_of_ok hcet, foldlM_cons_of_ok hsvn, foldlM_cons_of_ok hmisc,
    foldlM_cons_of_ok hid, List.foldlM_nil, ← h5, ← h4, ← h3, ← h2, ← h1, Enclave.targetInfo]
  simp only [List.nil_append, List.replicate_zero, List.append_assoc]
  rfl

end EcDh
