import SrasMage.Aesm.TlvDecode
import SrasMage.Hoare
import Mathlib.Data.List.Forall2
import Mathlib.Data.Vector.Defs

/-!
This module contains the proof that decoding a message gives the entries that were added to it.
-/

namespace Aesm

open Bytes Memory Hoare
open List hiding Vector

structure Entry where
  type : TlvType
  headerSize : Nat
  payload : List UInt8
  fits : headerSize = largeTlvHeaderSize ∧ payload.length < 2 ^ 32 ∨
    headerSize = smallTlvHeaderSize ∧ payload.length ≤ uint16Max

def headerBytes (type : TlvType) (headerSize size : Nat) : List UInt8 :=
  if headerSize = largeTlvHeaderSize then [type.value ||| fourBytesSizeType, tlvVersion1] ++ hton 4 size
  else [type.value, tlvVersion1] ++ hton 2 size

def Entry.header (e : Entry) : List UInt8 := headerBytes e.type e.headerSize e.payload.length

variable {t : TLVsMsg} {es : List Entry} (e : Entry) (addr : UInt64) {m : Malloc} {p : UInt64} {n : Nat}
  (call : AddCall)

def Entry.encode : List UInt8 := e.header ++ e.payload

def Entry.info : TlvInfo where
  type := e.type.value
  version := tlvVersion1
  headerSize := e.headerSize
  size := e.payload.length
  payload := addr + UInt64.ofNat e.headerSize

def encodeAll (es : List Entry) : List UInt8 := es.flatMap Entry.encode

def place (addr : UInt64) : List Entry → List TlvInfo
  | [] => []
  | e :: es => e.info addr :: place (addr + UInt64.ofNat e.encode.length) es

theorem length_hton (n v : Nat) : (hton n v).length = n := by simp [hton]

@[simp]
theorem length_header : e.header.length = e.headerSize := by
  obtain ⟨h, -⟩ | ⟨h, -⟩ := e.fits
  . simp [Entry.header, headerBytes, h, length_hton, largeTlvHeaderSize]
  . simp [Entry.header, headerBytes, h, length_hton, largeTlvHeaderSize, smallTlvHeaderSize]

theorem length_encode : e.encode.length = e.headerSize + e.payload.length := by simp [Entry.encode]

theorem encodeAll_append (es es' : List Entry) : encodeAll (es ++ es') = encodeAll es ++ encodeAll es' :=
  flatMap_append ..

theorem encodeAll_singleton : encodeAll [e] = e.encode := by simp [encodeAll]

theorem place_append (es es' : List Entry) :
    place addr (es ++ es') = place addr es ++ place (addr + UInt64.ofNat (encodeAll es).length) es' := by
  induction es generalizing addr with
  | nil => simp [place, encodeAll]
  | cons e es ih =>
    simp only [cons_append, place, ih, encodeAll, flatMap_cons, length_append, UInt64.ofNat_add, UInt64.add_assoc]

@[simp]
theorem length_place (es : List Entry) : (place addr es).length = es.length := by
  induction es generalizing addr with
  | nil => rfl
  | cons e es ih => simp [place, ih]

theorem four_mul_length_le (es : List Entry) : 4 * es.length ≤ (encodeAll es).length := by
  induction es with
  | nil => simp
  | cons e es ih =>
    have := e.fits
    simp only [encodeAll, flatMap_cons, length_append, length_encode, length_cons,
      largeTlvHeaderSize, smallTlvHeaderSize] at *
    omega

theorem ntoh_hton {v : Nat} (h : v < 256 ^ n) : ntoh (hton n v) = v := by
  rw [ntoh, hton, reverse_reverse, ofBytes_toBytes h]

theorem TlvType.isFourBytesSizeType_or (type : TlvType) :
    isFourBytesSizeType (type.value ||| fourBytesSizeType) = true := by
  cases type <;> rfl

theorem TlvType.isFourBytesSizeType_value (type : TlvType) : isFourBytesSizeType type.value = false := by
  cases type <;> rfl

theorem TlvType.getTlvType_or (type : TlvType) : getTlvType (type.value ||| fourBytesSizeType) = type.value := by
  cases type <;> rfl

theorem TlvType.getTlvType_value (type : TlvType) : getTlvType type.value = type.value := by
  cases type <;> rfl

theorem readTlvInfo_encode (e : Entry) (rest : List UInt8) :
    readTlvInfo ⟨addr, e.encode ++ rest⟩ = some (e.info addr) := by
  obtain ⟨h, hlt⟩ | ⟨h, hle⟩ := e.fits
  . have hsize := ntoh_hton (n := 4) (v := e.payload.length) (by omega)
    simp only [hton, toBytes, reverse_cons, reverse_nil, nil_append, cons_append] at hsize
    simp [readTlvInfo, Entry.encode, Entry.header, headerBytes, Entry.info, h, hton, toBytes, hsize,
      TlvType.isFourBytesSizeType_or, TlvType.getTlvType_or]
  have hsize := ntoh_hton (n := 2) (v := e.payload.length) (by simp only [uint16Max] at hle; omega)
  have hne : smallTlvHeaderSize ≠ largeTlvHeaderSize := by decide
  simp only [hton, toBytes, reverse_cons, reverse_nil, nil_append, cons_append] at hsize
  simp [readTlvInfo, Entry.encode, Entry.header, headerBytes, Entry.info, h, hne, hton, toBytes, hsize,
    TlvType.isFourBytesSizeType_value, TlvType.getTlvType_value]

theorem decodeOneTlv_encode (e : Entry) (rest : List UInt8) (h : e.encode.length < 2 ^ 32) :
    decodeOneTlv ⟨addr, e.encode ++ rest⟩ =
    some (e.info addr, ⟨addr + UInt64.ofNat e.encode.length, rest⟩) := by
  have htotal : ((e.info addr).headerSize + (e.info addr).size) % 2 ^ 32 = e.encode.length := by
    rw [length_encode] at h ⊢
    exact Nat.mod_eq_of_lt h
  simp only [decodeOneTlv, readTlvInfo_encode, htotal, TlvMsg.advance, drop_left]
  rw [if_neg]
  simp

theorem decodeLoop_encodeAll (es : List Entry) (addr : UInt64) (infos : List TlvInfo)
    (hbytes : (encodeAll es).length < 2 ^ 32) (hinfos : infos.length + es.length < 2 ^ 32) :
    decodeLoop (fun _ => true) (es.length + 1) ⟨addr, encodeAll es⟩ infos =
    some (.returned .success (infos ++ place addr es)) := by
  induction es generalizing addr infos with
  | nil => simp [decodeLoop, encodeAll, place]
  | cons e es ih =>
    have hlen : (encodeAll (e :: es)).length = e.encode.length + (encodeAll es).length := by simp [encodeAll]
    rw [length_cons] at hinfos
    have hne : encodeAll (e :: es) ≠ [] := by
      have := four_mul_length_le (e :: es)
      rw [length_cons] at this
      intro h
      rw [h, length_nil] at this
      omega
    have hroom : ¬(infos ≠ [] ∧ (infos.length + 1) % 2 ^ 32 = 0) := by
      rintro ⟨-, h⟩
      omega
    have hdecode := decodeOneTlv_encode addr e (encodeAll es) (by omega)
    have hrest := ih (addr + UInt64.ofNat e.encode.length) (infos ++ [e.info addr]) (by omega)
      (by rw [length_append, length_singleton]; omega)
    rw [length_cons, decodeLoop, if_neg hne]
    simp only [encodeAll, flatMap_cons] at hdecode hrest ⊢
    simp only [hdecode, Bool.not_true, Bool.false_eq_true, if_false, if_neg hroom, hrest, place,
      append_assoc, singleton_append]

structure View where
  type : UInt8
  version : UInt8
  headerSize : Nat
  size : Nat
  payload : Option (List UInt8)
deriving DecidableEq

def TLVsMsg.payloadOf (t : TLVsMsg) (info : TlvInfo) : Option (List UInt8) :=
  match t.msg with
  | none => none
  | some msg =>
    let offset := (info.payload - msg.msgBuf).toNat
    if offset + info.size ≤ msg.bytes.length then some ((msg.bytes.drop offset).take info.size) else none

def TLVsMsg.views (t : TLVsMsg) : List View :=
  t.infos.map fun info => ⟨info.type, info.version, info.headerSize, info.size, t.payloadOf info⟩

def TLVsMsg.getTlvMsg (t : TLVsMsg) : List UInt8 := (t.msg.map TlvMsg.bytes).getD []

def Entry.view : View :=
  ⟨e.type.value, tlvVersion1, e.headerSize, e.payload.length, some e.payload⟩

theorem toNat_ofNat_of_lt (h : n < 2 ^ 32) : (UInt64.ofNat n).toNat = n := by
  rw [UInt64.toNat_ofNat', Nat.mod_eq_of_lt (by omega)]

theorem views_place (infos : List TlvInfo) (before es : List Entry) (h : (encodeAll (before ++ es)).length < 2 ^ 32) :
    ((place (addr + UInt64.ofNat (encodeAll before).length) es).map fun info =>
      View.mk info.type info.version info.headerSize info.size
        (TLVsMsg.payloadOf ⟨infos, some ⟨addr, encodeAll (before ++ es)⟩⟩ info))
      =
    es.map Entry.view := by
  induction es generalizing before with
  | nil => rfl
  | cons e es ih =>
    have happ : before ++ e :: es = (before ++ [e]) ++ es := by simp
    have hnext := ih (before ++ [e]) (happ ▸ h)
    simp only [append_assoc, singleton_append] at hnext
    rw [place, map_cons, map_cons, List.cons.injEq]
    rw [encodeAll_append before [e], encodeAll_singleton, length_append, UInt64.ofNat_add, ← UInt64.add_assoc] at hnext
    refine ⟨?_, hnext⟩
    have hbytes : encodeAll (before ++ e :: es) = (encodeAll before ++ e.header) ++ (e.payload ++ encodeAll es) := by
      rw [encodeAll_append]
      simp [encodeAll, Entry.encode]
    have hoffset : ((e.info (addr + UInt64.ofNat (encodeAll before).length)).payload - addr).toNat
        = (encodeAll before ++ e.header).length := by
      have hsub : (e.info (addr + UInt64.ofNat (encodeAll before).length)).payload - addr
          = UInt64.ofNat ((encodeAll before).length + e.headerSize) := by
        rw [Entry.info, UInt64.ofNat_add]
        grind
      rw [hsub, length_append, length_header, toNat_ofNat_of_lt]
      simp only [hbytes, length_append, length_header] at h
      omega
    have hpayload : TLVsMsg.payloadOf ⟨infos, some ⟨addr, encodeAll (before ++ e :: es)⟩⟩
        (e.info (addr + UInt64.ofNat (encodeAll before).length)) = some e.payload := by
      simp only [TLVsMsg.payloadOf, hoffset, hbytes, drop_left]
      simp only [Entry.info, take_left]
      rw [if_pos]
      simp only [length_append]
      omega
    rw [hpayload]
    rfl

def TLVsMsg.Holds (t : TLVsMsg) (es : List Entry) : Prop :=
  match t.msg with
  | none => es = [] ∧ t.infos = []
  | some msg => msg.bytes = encodeAll es ∧ t.infos = place msg.msgBuf es

def Malloc.Succeeds (m : Malloc) : Prop := m.buf.isSome ∧ m.infos = true

def Succeeds {α : Type} (x : TlvM α) (t : TLVsMsg) (Q : α → TLVsMsg → Prop) : Prop :=
  Runs x t Q fun _ _ => False

theorem place_rebase (p old : UInt64) (k : UInt64) (es : List Entry) :
    ((place (old + k) es).map fun info => { info with payload := p + (info.payload - old) }) = place (p + k) es := by
  induction es generalizing k with
  | nil => rfl
  | cons e es ih =>
    have hnext := ih (k + UInt64.ofNat e.encode.length)
    rw [← UInt64.add_assoc, ← UInt64.add_assoc] at hnext
    rw [place, map_cons, hnext, place, List.cons.injEq]
    refine ⟨?_, rfl⟩
    simp only [Entry.info, TlvInfo.mk.injEq, true_and]
    grind

theorem allocMoreBuffer_succeeds (hm : m.Succeeds) (ht : t.Holds es) (hn : (encodeAll es).length + n < 2 ^ 32) :
    Succeeds (allocMoreBuffer m n) t fun newBuf t' => ∃ p junk, junk.length = n ∧
      newBuf = (p + UInt64.ofNat (encodeAll es).length, n) ∧
      t' = ⟨place p es, some ⟨p, encodeAll es ++ junk⟩⟩ := by
  obtain ⟨p, hp⟩ := Option.isSome_iff_exists.1 hm.1
  apply Runs.bind
  apply Runs.get
  simp only [TLVsMsg.Holds] at ht
  split at ht
  . next hnone =>
    obtain ⟨rfl, hinfos⟩ := ht
    simp only [hnone, hp]
    exact ⟨p, tabulate m.fresh n, length_tabulate _ _, by simp [encodeAll], by simp [encodeAll, place, hinfos]⟩
  next old hold =>
  obtain ⟨hbytes, hinfos⟩ := ht
  simp only [hold, hp, hbytes]
  rw [Nat.mod_eq_of_lt hn, if_neg (by omega)]
  refine ⟨p, tabulate (fun i => m.fresh ((encodeAll es).length + i)) n, length_tabulate _ _, rfl, ?_⟩
  have hplace := place_rebase p old.msgBuf 0 es
  rw [UInt64.add_zero, UInt64.add_zero, ← hinfos] at hplace
  rw [hplace]

theorem createNewInfo_succeeds (hm : m.Succeeds) (ht : t.infos.length + 1 < 2 ^ 32) :
    Succeeds (createNewInfo m) t fun _ t' => t' = { t with infos := t.infos ++ [m.uninit] } := by
  apply Runs.bind
  apply Runs.get
  have hroom : ¬(t.infos ≠ [] ∧ (t.infos.length + 1) % 2 ^ 32 = 0) := by
    rintro ⟨-, h⟩
    omega
  simp only [hm.2, Bool.not_true, Bool.false_eq_true, if_false, if_neg hroom]
  exact rfl

theorem overwrite_middle {α : Type} (pre old post new : List α) (h : new.length = old.length) :
    overwrite (pre ++ (old ++ post)) pre.length new = pre ++ (new ++ post) := by
  rw [overwrite, take_left, h, append_assoc, ← drop_drop, drop_left, drop_left]

theorem write_succeeds {addr : UInt64} {pre old post bytes : List UInt8}
    (ht : t.msg = some ⟨p, pre ++ (old ++ post)⟩) (haddr : addr = p + UInt64.ofNat pre.length)
    (hlt : pre.length < 2 ^ 32) (hlen : bytes.length = old.length) :
    Succeeds (write addr bytes) t fun _ t' => t' = { t with msg := some ⟨p, pre ++ (bytes ++ post)⟩ } := by
  have hoffset : (addr - p).toNat = pre.length := by
    have hsub : addr - p = UInt64.ofNat pre.length := by
      rw [haddr]
      grind
    rw [hsub, toNat_ofNat_of_lt hlt]
  apply Runs.bind
  apply Runs.get
  simp only [ht, hoffset]
  rw [if_pos (by simp only [length_append]; omega), overwrite_middle pre old post bytes hlen]
  exact rfl

theorem memcpyS_succeeds {dest : UInt64} {size : Nat} {pre old post src : List UInt8}
    (ht : t.msg = some ⟨p, pre ++ (old ++ post)⟩) (hdest : dest = p + UInt64.ofNat pre.length)
    (hlt : pre.length < 2 ^ 32) (hlen : src.length = old.length) (hsize : src.length ≤ size) :
    Succeeds (memcpyS dest size src) t fun _ t' => t' = { t with msg := some ⟨p, pre ++ (src ++ post)⟩ } := by
  rw [memcpyS, if_neg (by omega)]
  exact write_succeeds ht hdest hlt hlen

def headerSizeFor (headerSize size : Nat) : Nat :=
  if size > uint16Max ∨ headerSize = largeTlvHeaderSize then largeTlvHeaderSize else smallTlvHeaderSize

theorem headerSizeFor_unknown (size : Nat) : headerSizeFor unknownTlvHeaderSize size =
    if size > uint16Max then largeTlvHeaderSize else smallTlvHeaderSize := by
  have hne : unknownTlvHeaderSize ≠ largeTlvHeaderSize := by decide
  simp only [headerSizeFor, hne, or_false]

theorem headerSizeFor_large (size : Nat) : headerSizeFor largeTlvHeaderSize size = largeTlvHeaderSize := by
  simp [headerSizeFor]

structure Describes (info : TlvInfo) (e : Entry) : Prop where
  type : info.type = e.type.value
  version : info.version = tlvVersion1
  size : info.size = e.payload.length
  unknown : info.headerSize = unknownTlvHeaderSize ∨ info.headerSize = largeTlvHeaderSize
  header : e.headerSize = headerSizeFor info.headerSize info.size

theorem Describes.writeTlvHeader_eq {info : TlvInfo} {e : Entry} (h : Describes info e) (addr : UInt64) :
    writeTlvHeader addr info = write addr e.header := by
  have hheader := h.header
  rw [headerSizeFor] at hheader
  rw [writeTlvHeader, Entry.header, headerBytes, h.type, h.version, ← h.size]
  split at hheader
  . next hlarge => rw [if_pos hlarge, if_pos hheader]
  . next hsmall => rw [if_neg hsmall, if_neg (by rw [hheader]; decide)]

theorem Describes.headerSize_eq {info : TlvInfo} {e : Entry} (h : Describes info e) (hlt : e.encode.length < 2 ^ 32) :
    (if info.headerSize = unknownTlvHeaderSize then getTlvHeaderSizeFromPayloadSize info.size else info.headerSize) =
    e.headerSize := by
  have hencode := length_encode e
  rw [← h.size] at hencode
  have hheader := h.header
  cases h.unknown with
  | inl hunknown =>
    rw [hunknown, headerSizeFor_unknown] at hheader
    rw [if_pos hunknown, getTlvHeaderSizeFromPayloadSize, hheader]
    split
    . next hlarge =>
      rw [if_pos hlarge] at hheader
      rw [if_neg]
      simp only [uint32Max, largeTlvHeaderSize] at *
      omega
    . rfl
  | inr hlarge =>
    rw [hlarge, headerSizeFor_large] at hheader
    rw [if_neg (by rw [hlarge]; decide), hlarge, hheader]

theorem Describes.calcOneTlvSize_eq {info : TlvInfo} {e : Entry} (h : Describes info e)
    (hlt : e.encode.length < 2 ^ 32) : calcOneTlvSize info = e.encode.length := by
  have hencode := length_encode e
  have hheader := h.headerSize_eq hlt
  rw [← h.size] at hencode
  rw [calcOneTlvSize]
  split
  . next hunknown =>
    rw [if_pos hunknown, getTlvHeaderSizeFromPayloadSize] at hheader
    rw [getTlvTotalSize]
    split
    . next hlarge =>
      rw [if_pos hlarge] at hheader
      split
      . next hover =>
        rw [if_pos hover] at hheader
        obtain ⟨hbad, -⟩ | ⟨hbad, -⟩ := e.fits <;> cases hheader.trans hbad
      next hover =>
      rw [if_neg hover] at hheader
      omega
    . next hsmall =>
      rw [if_neg hsmall] at hheader
      omega
  . next hknown =>
    rw [if_neg hknown] at hheader
    rw [hheader, ← hencode, Nat.mod_eq_of_lt hlt]

theorem tlvMsgInitOneTlv_succeeds {pre junk : List UInt8} {info : TlvInfo} {e : Entry}
    (ht : t.msg = some ⟨p, pre ++ junk⟩) (hinfo : Describes info e) (hlen : junk.length = e.encode.length)
    (hlt : pre.length + e.encode.length < 2 ^ 32) :
    Succeeds (tlvMsgInitOneTlv info (p + UInt64.ofNat pre.length, e.encode.length)) t fun info' t' =>
      info' = e.info (p + UInt64.ofNat pre.length) ∧
      t' = { t with msg := some ⟨p, pre ++ (e.header ++ junk.drop e.headerSize)⟩ } := by
  have hencode := length_encode e
  have hheader : e.header.length = (junk.take e.headerSize).length := by
    rw [length_header, length_take]
    omega
  rw [tlvMsgInitOneTlv]
  simp only [hinfo.headerSize_eq (by omega), hinfo.writeTlvHeader_eq]
  rw [hinfo.size, ← hencode, Nat.mod_eq_of_lt (by omega), if_neg (Nat.lt_irrefl _)]
  apply Runs.bind
  rw [← take_append_drop e.headerSize junk] at ht
  refine (write_succeeds ht rfl (by omega) hheader).mono ?_ fun _ _ => id
  rintro _ t' rfl
  rw [if_neg (Nat.lt_irrefl _)]
  refine ⟨?_, rfl⟩
  rw [Entry.info, hinfo.type, hinfo.version]

def Fills (fill : TlvInfo → TlvM Unit) (size : Nat) (Payload : List UInt8 → Prop) : Prop :=
  ∀ t p pre old info, t.msg = some ⟨p, pre ++ old⟩ → old.length = size → pre.length + size < 2 ^ 32 →
    info.payload = p + UInt64.ofNat pre.length → info.size = size →
    Succeeds (fill info) t fun _ t' => ∃ new, Payload new ∧ new.length = size ∧
      t' = { t with msg := some ⟨p, pre ++ new⟩ }

theorem headerSizeFor_fits (headerSize : Nat) {size : Nat} (h : size < 2 ^ 32) :
    headerSizeFor headerSize size = largeTlvHeaderSize ∧ size < 2 ^ 32 ∨
      headerSizeFor headerSize size = smallTlvHeaderSize ∧ size ≤ uint16Max := by
  rw [headerSizeFor]
  split
  . exact .inl ⟨rfl, h⟩
  . next hsmall => exact .inr ⟨rfl, Nat.not_lt.1 fun hlt => hsmall (.inl hlt)⟩

def newEntry (type : TlvType) (headerSize : Nat) (payload : List UInt8) (h : payload.length < 2 ^ 32) : Entry :=
  ⟨type, headerSizeFor headerSize payload.length, payload, headerSizeFor_fits headerSize h⟩

theorem header_newEntry (type : TlvType) (headerSize : Nat) {payload payload' : List UInt8}
    (h : payload.length < 2 ^ 32) (heq : payload'.length = payload.length) :
    (newEntry type headerSize payload' (heq ▸ h)).header = (newEntry type headerSize payload h).header := by
  exact congrArg (fun size => headerBytes type (headerSizeFor headerSize size) size) heq

theorem holds_append {e : Entry} (hmsg : t.msg = some ⟨p, encodeAll es ++ e.encode⟩)
    (hinfos : t.infos = place p es ++ [e.info (p + UInt64.ofNat (encodeAll es).length)]) : t.Holds (es ++ [e]) := by
  simp only [TLVsMsg.Holds, hmsg]
  rw [encodeAll_append, encodeAll_singleton, place_append, hinfos]
  exact ⟨rfl, rfl⟩

theorem add_succeeds (hm : m.Succeeds) (ht : t.Holds es) (init : TlvInfo → UInt64 × Nat → TlvM TlvInfo)
    (hinit : ∀ info newBuf t Q, Succeeds (tlvMsgInitOneTlv info newBuf) t Q → Succeeds (init info newBuf) t Q)
    {type : TlvType} {headerSize size : Nat}
    (hunknown : headerSize = unknownTlvHeaderSize ∨ headerSize = largeTlvHeaderSize)
    {fill : TlvInfo → TlvM Unit} {Payload : List UInt8 → Prop} (hfill : Fills fill size Payload)
    (hlt : (encodeAll es).length + (headerSizeFor headerSize size + size) < 2 ^ 32) {oneInfo : TlvInfo}
    (hinfo : oneInfo = ⟨type.value, tlvVersion1, headerSize, size, 0⟩) :
    Succeeds (do
        let newBuf ← allocMoreBuffer m (calcOneTlvSize oneInfo)
        createNewInfo m
        let oneInfo ← init oneInfo newBuf
        fill oneInfo
        setNewInfo oneInfo) t
      fun _ t' => ∃ e, t'.Holds (es ++ [e]) ∧ e.type = type ∧ e.headerSize = headerSizeFor headerSize size ∧
        e.payload.length = size ∧ Payload e.payload := by
  -- the entry before its payload is filled in
  have hzeros : (List.replicate size (0 : UInt8)).length < 2 ^ 32 := by
    rw [length_replicate]
    omega
  generalize he : newEntry type headerSize (List.replicate size 0) hzeros = e
  have hheader : e.headerSize = headerSizeFor headerSize size := by
    rw [← he]
    show headerSizeFor headerSize (List.replicate size _).length = _
    rw [length_replicate]
  have hpayload : e.payload.length = size := by rw [← he, newEntry, length_replicate]
  have hdescribes : Describes oneInfo e := by
    subst hinfo
    exact ⟨by rw [← he]; rfl, rfl, hpayload.symm, hunknown, hheader⟩
  have hencode := length_encode e
  rw [hheader, hpayload] at hencode
  have hmany := four_mul_length_le es
  have hpos : 4 ≤ headerSizeFor headerSize size := by
    rw [headerSizeFor]
    split <;> decide
  rw [hdescribes.calcOneTlvSize_eq (by omega)]
  apply Runs.bind
  refine (allocMoreBuffer_succeeds hm ht (by omega)).mono ?_ fun _ _ => id
  rintro newBuf t1 ⟨p, junk, hjunk, rfl, rfl⟩
  apply Runs.bind
  refine (createNewInfo_succeeds hm (by rw [length_place]; omega)).mono ?_ fun _ _ => id
  rintro _ t2 rfl
  apply Runs.bind
  refine (hinit _ _ _ _ (tlvMsgInitOneTlv_succeeds rfl hdescribes hjunk (by omega))).mono ?_ fun _ _ => id
  rintro _ t3 ⟨rfl, rfl⟩
  apply Runs.bind
  have hold : (junk.drop e.headerSize).length = size := by
    rw [length_drop]
    omega
  have hpre : (encodeAll es ++ e.header).length = (encodeAll es).length + e.headerSize := by simp
  refine (hfill _ p (encodeAll es ++ e.header) _ _ (by rw [append_assoc]) hold (by omega) ?_ hpayload).mono
    ?_ fun _ _ => id
  . rw [hpre, UInt64.ofNat_add, ← UInt64.add_assoc]
    rfl
  rintro _ t4 ⟨new, hnew, hnewLen, rfl⟩
  have hsame : new.length = (List.replicate size (0 : UInt8)).length := by rw [hnewLen, length_replicate]
  refine ⟨newEntry type headerSize new (hsame ▸ hzeros), ?_, rfl, congrArg (headerSizeFor headerSize) hnewLen,
    hnewLen, hnew⟩
  apply holds_append
  . show some (TlvMsg.mk p (encodeAll es ++ e.header ++ new)) = _
    rw [Entry.encode, header_newEntry type headerSize hzeros hsame, he, append_assoc]
    rfl
  . simp only [dropLast_concat]
    simp only [Entry.info, ← he, newEntry, hsame]

theorem addTlv_succeeds (hm : m.Succeeds) (ht : t.Holds es) {type : TlvType} {headerSize size : Nat}
    (hunknown : headerSize = unknownTlvHeaderSize ∨ headerSize = largeTlvHeaderSize)
    {fill : TlvInfo → TlvM Unit} {Payload : List UInt8 → Prop} (hfill : Fills fill size Payload)
    (hlt : (encodeAll es).length + (headerSizeFor headerSize size + size) < 2 ^ 32) :
    Succeeds (addTlv m type headerSize size fill) t
      fun _ t' => ∃ e, t'.Holds (es ++ [e]) ∧ e.type = type ∧ e.headerSize = headerSizeFor headerSize size ∧
        e.payload.length = size ∧ Payload e.payload :=
  add_succeeds hm ht tlvMsgInitOneTlv (fun _ _ _ _ h => h) hunknown hfill hlt rfl

theorem memcpyS_at (before old : List UInt8) {payload : UInt64} {pre post src : List UInt8} {size : Nat}
    (ht : t.msg = some ⟨p, pre ++ (before ++ (old ++ post))⟩) (hpayload : payload = p + UInt64.ofNat pre.length)
    (hlt : pre.length + before.length < 2 ^ 32) (hlen : src.length = old.length) (hsize : src.length ≤ size) :
    Succeeds (memcpyS (payload + UInt64.ofNat before.length) size src) t fun _ t' =>
      t' = { t with msg := some ⟨p, pre ++ (before ++ (src ++ post))⟩ } := by
  rw [← append_assoc] at ht ⊢
  apply memcpyS_succeeds ht _ (by rwa [length_append]) hlen hsize
  rw [hpayload, length_append, UInt64.ofNat_add, UInt64.add_assoc]

theorem exists_append_of_length {old : List UInt8} {k : Nat} (h : old.length = n + k) :
    ∃ first second, old = first ++ second ∧ first.length = n ∧ second.length = k :=
  ⟨old.take n, old.drop n, (take_append_drop n old).symm, by simp [h], by simp [h]⟩

theorem fills_data (data : List UInt8) :
    Fills (fun info => memcpyS info.payload info.size data) data.length (· = data) := by
  intro t p pre old info ht hold hlt hpayload hsize
  rw [← append_nil old] at ht
  refine (memcpyS_succeeds ht hpayload (by omega) hold.symm (Nat.le_of_eq hsize.symm)).mono ?_ fun _ _ => id
  rintro _ t' rfl
  exact ⟨data, rfl, rfl, by rw [append_nil]⟩

theorem fills_cipherText (text : List UInt8) (keyId : UInt8) : Fills (fun info => do
        write info.payload [keyId]
        memcpyS (info.payload + 1) ((info.size + 2 ^ 32 - 1) % 2 ^ 32) text)
      (1 + text.length) (· = keyId :: text) := by
  intro t p pre old info ht hold hlt hpayload hsize
  obtain ⟨first, second, rfl, hfirst, hsecond⟩ := exists_append_of_length hold
  have hkey : [keyId].length = first.length := hfirst.symm
  apply Runs.bind
  refine (write_succeeds ht hpayload (by omega) hkey).mono ?_ fun _ _ => id
  rintro _ t' rfl
  rw [← append_nil second]
  refine (memcpyS_at [keyId] second rfl hpayload (by rw [length_singleton]; omega) hsecond.symm
    (by omega)).mono ?_ fun _ _ => id
  rintro _ t'' rfl
  exact ⟨keyId :: text, rfl, by rw [length_cons, Nat.add_comm], by simp⟩

def Text.Behind (text : Text) (old new : List UInt8) : Prop :=
  match text with
  | .null _ => new = old
  | .bytes text => new = text

theorem copyEncryptedText_succeeds {pre first second : List UInt8} {info : TlvInfo} {text : Text}
    (ht : t.msg = some ⟨p, pre ++ (first ++ second)⟩) (hpayload : info.payload = p + UInt64.ofNat pre.length)
    (hfirst : first.length = ivSize) (hsecond : second.length = text.len)
    (hsize : info.size = ivSize + text.len) (hlt : pre.length + (ivSize + text.len) < 2 ^ 32) :
    Succeeds (copyEncryptedText info text) t fun _ t' => ∃ new, text.Behind second new ∧
      new.length = text.len ∧ t' = { t with msg := some ⟨p, pre ++ (first ++ new)⟩ } := by
  have hsame : t = { t with msg := some ⟨p, pre ++ (first ++ second)⟩ } := by rw [← ht]
  cases text with
  | null len => exact ⟨second, rfl, hsecond, hsame⟩
  | bytes text =>
    simp only [Text.len] at *
    rw [copyEncryptedText]
    split
    . rw [← append_nil second] at ht
      rw [← hfirst]
      refine (memcpyS_at first second ht hpayload (by omega) hsecond.symm ?_).mono ?_ fun _ _ => id
      . simp only [ivSize] at *
        omega
      . rintro _ t' rfl
        exact ⟨text, rfl, rfl, by rw [append_nil]⟩
    . next hempty =>
      have hnil : text = [] := length_eq_zero_iff.1 (by omega)
      have hnil' : second = [] := length_eq_zero_iff.1 (by omega)
      exact ⟨second, hnil'.trans hnil.symm, hsecond, hsame⟩

theorem fills_blockCipherText (iv : Vector UInt8 ivSize) (text : Text) : Fills (fun info => do
        copyEncryptedText info text
        memcpyS info.payload ivSize iv.toList)
      (ivSize + text.len) fun p => ∃ old new, text.Behind old new ∧ p = iv.toList ++ new := by
  intro t p pre old info ht hold hlt hpayload hsize
  obtain ⟨first, second, rfl, hfirst, hsecond⟩ := exists_append_of_length hold
  have hiv : iv.toList.length = ivSize := Vector.length_toList
  apply Runs.bind
  refine (copyEncryptedText_succeeds ht hpayload hfirst hsecond hsize hlt).mono ?_ fun _ _ => id
  rintro _ t' ⟨new, hnew, hlen, rfl⟩
  refine (memcpyS_succeeds rfl hpayload (by omega) (hiv.trans hfirst.symm) (Nat.le_of_eq hiv)).mono ?_ fun _ _ => id
  rintro _ t'' rfl
  exact ⟨iv.toList ++ new, ⟨second, new, hnew, rfl⟩, by rw [length_append, hiv, hlen], rfl⟩

theorem fills_pceReportSign (report : Vector UInt8 384) (ecdsaSign : Vector UInt8 64) : Fills (fun info => do
        memcpyS info.payload info.size report.toList
        memcpyS (info.payload + 384) (info.size - 384) ecdsaSign.toList)
      (384 + 64) (· = report.toList ++ ecdsaSign.toList) := by
  intro t p pre old info ht hold hlt hpayload hsize
  obtain ⟨first, second, rfl, hfirst, hsecond⟩ := exists_append_of_length hold
  have hreport : report.toList.length = 384 := Vector.length_toList
  have hsign : ecdsaSign.toList.length = 64 := Vector.length_toList
  apply Runs.bind
  refine (memcpyS_succeeds ht hpayload (by omega) (hreport.trans hfirst.symm) (by omega)).mono ?_ fun _ _ => id
  rintro _ t' rfl
  rw [← append_nil second]
  have hat : info.payload + 384 = info.payload + UInt64.ofNat report.toList.length := by
    rw [hreport]
    rfl
  rw [hat]
  refine (memcpyS_at report.toList second rfl hpayload (by omega) (hsign.trans hsecond.symm)
    (by omega)).mono ?_ fun _ _ => id
  rintro _ t'' rfl
  exact ⟨report.toList ++ ecdsaSign.toList, rfl, by rw [length_append, hreport, hsign], by simp⟩

def AddCall.type : AddCall → TlvType
  | .cipherText .. => .cipherText
  | .blockCipherText .. => .blockCipherText
  | .blockCipherInfo _ => .blockCipherInfo
  | .mac _ => .messageAuthenticationCode
  | .nonce _ => .nonce
  | .epidGid _ => .epidGid
  | .quote _ => .quote
  | .x509Csr _ => .x509Csr
  | .quoteSignature _ => .quoteSig
  | .esSelector .. => .esSelector
  | .psid _ => .psId
  | .platformInfo _ => .platformInfo
  | .flags _ => .flags
  | .pceReportSign .. => .seReport

def AddCall.size : AddCall → Nat
  | .cipherText text _ => 1 + text.length
  | .blockCipherText _ text => ivSize + text.len
  | .blockCipherInfo _ | .mac _ | .flags _ => 16
  | .epidGid _ => 4
  | .nonce data | .quote data | .x509Csr data | .quoteSignature data => data.length
  | .esSelector .. => 2
  | .psid _ => 32
  | .platformInfo _ => 26
  | .pceReportSign .. => 384 + 64

def AddCall.headerSize : Nat :=
  match call with
  | .quoteSignature _ | .pceReportSign .. => largeTlvHeaderSize
  | _ => if call.size > uint16Max then largeTlvHeaderSize else smallTlvHeaderSize

def AddCall.Payload : AddCall → List UInt8 → Prop
  | .cipherText text keyId, p => p = keyId :: text
  | .blockCipherText iv (.bytes text), p => p = iv.toList ++ text
  | .blockCipherText iv (.null _), p => p.take ivSize = iv.toList
  | .blockCipherInfo data, p | .mac data, p | .flags data, p => p = data.toList
  | .epidGid data, p => p = data.toList
  | .nonce data, p | .quote data, p | .x509Csr data, p | .quoteSignature data, p => p = data
  | .esSelector protocol selectorId, p => p = [protocol, selectorId]
  | .psid data, p => p = data.toList
  | .platformInfo data, p => p = data.toList
  | .pceReportSign report ecdsaSign, p => p = report.toList ++ ecdsaSign.toList

structure AddCall.Shows (view : View) : Prop where
  type : view.type = call.type.value
  version : view.version = tlvVersion1
  headerSize : view.headerSize = call.headerSize
  size : view.size = call.size
  payload : ∃ p, view.payload = some p ∧ p.length = call.size ∧ call.Payload p

def totalSize (calls : List AddCall) : Nat := (calls.map fun call => call.headerSize + call.size).sum

def Added (es : List Entry) (t : TLVsMsg) : Prop :=
  ∃ e, t.Holds (es ++ [e]) ∧ e.encode.length = call.headerSize + call.size ∧ call.Shows e.view

theorem added_of_entry {type : TlvType} {headerSize size : Nat} {Payload : List UInt8 → Prop}
    (htype : call.type = type) (hheader : call.headerSize = headerSizeFor headerSize size)
    (hsize : call.size = size) (hpayload : ∀ p, Payload p → call.Payload p)
    (h : ∃ e, t.Holds (es ++ [e]) ∧ e.type = type ∧ e.headerSize = headerSizeFor headerSize size ∧
      e.payload.length = size ∧ Payload e.payload) : Added call es t := by
  obtain ⟨e, hholds, he, heh, hes, hep⟩ := h
  refine ⟨e, hholds, by rw [length_encode, heh, hes, hheader, hsize], ?_⟩
  exact {
    type := by rw [Entry.view, he, htype]
    version := rfl
    headerSize := heh.trans hheader.symm
    size := hes.trans hsize.symm
    payload := ⟨e.payload, rfl, hes.trans hsize.symm, hpayload _ hep⟩
  }

theorem addTlvByDataSize_succeeds (hm : m.Succeeds) (ht : t.Holds es) (call : AddCall) (data : List UInt8)
    (hheader : call.headerSize = headerSizeFor unknownTlvHeaderSize data.length)
    (hsize : call.size = data.length) (hpayload : call.Payload data)
    (hlt : (encodeAll es).length + (call.headerSize + call.size) < 2 ^ 32) :
    Succeeds (addTlvByDataSize m call.type data) t fun _ => Added call es := by
  rw [hheader, hsize] at hlt
  refine (addTlv_succeeds hm ht (.inl rfl) (fills_data data) hlt).mono ?_ fun _ _ => id
  intro _ t' h
  exact added_of_entry call rfl hheader hsize (fun p (hp : p = data) => hp ▸ hpayload) h

theorem addFixed_succeeds (hm : m.Succeeds) (ht : t.Holds es) (call : AddCall) (data : Vector UInt8 n)
    (hheader : call.headerSize = headerSizeFor unknownTlvHeaderSize n) (hsize : call.size = n)
    (hpayload : call.Payload data.toList) (hlt : (encodeAll es).length + (call.headerSize + call.size) < 2 ^ 32) :
    Succeeds (addTlvByDataSize m call.type data.toList) t fun _ => Added call es :=
  addTlvByDataSize_succeeds hm ht call data.toList (by rw [hheader, Vector.length_toList])
    (by rw [hsize, Vector.length_toList]) hpayload hlt

theorem AddCall.run_succeeds (hm : m.Succeeds) (ht : t.Holds es) (call : AddCall)
    (hlt : (encodeAll es).length + (call.headerSize + call.size) < 2 ^ 32) :
    Succeeds (call.run m) t fun _ => Added call es := by
  cases call with
  | cipherText text keyId =>
    have hheader : (AddCall.cipherText text keyId).headerSize = _ := (headerSizeFor_unknown (1 + text.length)).symm
    have hmod : (text.length + 1) % 2 ^ 32 = 1 + text.length := by
      simp only [AddCall.size] at hlt
      omega
    simp only [AddCall.run, addCipherText, hmod]
    rw [hheader] at hlt
    refine (addTlv_succeeds hm ht (.inl rfl) (fills_cipherText text keyId) hlt).mono ?_ fun _ _ => id
    exact fun _ t' => added_of_entry (.cipherText text keyId) rfl hheader rfl fun _ hp => hp
  | blockCipherText iv text =>
    have hheader : (AddCall.blockCipherText iv text).headerSize = _ :=
      (headerSizeFor_unknown (ivSize + text.len)).symm
    have hmod : (text.len + ivSize) % 2 ^ 32 = ivSize + text.len := by
      simp only [AddCall.size] at hlt
      omega
    simp only [AddCall.run, addBlockCipherText, hmod]
    rw [hheader] at hlt
    have hpayload : ∀ p, (∃ old new, text.Behind old new ∧ p = iv.toList ++ new) →
        (AddCall.blockCipherText iv text).Payload p := by
      rintro p ⟨old, new, hnew, rfl⟩
      cases text with
      | null len => exact take_left' Vector.length_toList
      | bytes text => exact congrArg _ hnew
    refine (addTlv_succeeds hm ht (.inl rfl) (fills_blockCipherText iv text) hlt).mono ?_ fun _ _ => id
    exact fun _ t' => added_of_entry (.blockCipherText iv text) rfl hheader rfl hpayload
  | quoteSignature data =>
    have hheader : (AddCall.quoteSignature data).headerSize = _ := (headerSizeFor_large data.length).symm
    rw [hheader] at hlt
    refine (add_succeeds hm ht tlvMsgInitOrUnknownError ?_ (.inr rfl) (fills_data data) hlt rfl).mono ?_ fun _ _ => id
    . intro info newBuf t Q h
      exact .tryCatch (h.mono (fun _ _ => id) fun _ _ => False.elim)
    . exact fun _ t' => added_of_entry (.quoteSignature data) rfl hheader rfl fun _ hp => hp
  | pceReportSign report ecdsaSign =>
    have hheader : (AddCall.pceReportSign report ecdsaSign).headerSize = _ := (headerSizeFor_large (384 + 64)).symm
    rw [hheader] at hlt
    refine (addTlv_succeeds hm ht (.inr rfl) (fills_pceReportSign report ecdsaSign) hlt).mono ?_ fun _ _ => id
    exact fun _ t' => added_of_entry (.pceReportSign report ecdsaSign) rfl hheader rfl fun _ hp => hp
  | nonce data =>
    exact addTlvByDataSize_succeeds hm ht (.nonce data) data (headerSizeFor_unknown _).symm rfl rfl hlt
  | quote data =>
    exact addTlvByDataSize_succeeds hm ht (.quote data) data (headerSizeFor_unknown _).symm rfl rfl hlt
  | x509Csr data =>
    exact addTlvByDataSize_succeeds hm ht (.x509Csr data) data (headerSizeFor_unknown _).symm rfl rfl hlt
  | esSelector protocol selectorId =>
    exact addTlvByDataSize_succeeds hm ht (.esSelector protocol selectorId) _ rfl rfl rfl hlt
  | blockCipherInfo data =>
    exact addFixed_succeeds hm ht (.blockCipherInfo data) data rfl rfl rfl hlt
  | mac data => exact addFixed_succeeds hm ht (.mac data) data rfl rfl rfl hlt
  | epidGid data => exact addFixed_succeeds hm ht (.epidGid data) data rfl rfl rfl hlt
  | psid data => exact addFixed_succeeds hm ht (.psid data) data rfl rfl rfl hlt
  | platformInfo data =>
    exact addFixed_succeeds hm ht (.platformInfo data) data rfl rfl rfl hlt
  | flags data => exact addFixed_succeeds hm ht (.flags data) data rfl rfl rfl hlt

theorem Added.holds {call : AddCall} (h : Added call es t) : ∃ e, t.Holds (es ++ [e]) ∧
      (encodeAll (es ++ [e])).length = (encodeAll es).length + (call.headerSize + call.size) ∧ call.Shows e.view := by
  obtain ⟨e, hholds, hencode, hshows⟩ := h
  exact ⟨e, hholds, by rw [encodeAll_append, encodeAll_singleton, length_append, hencode], hshows⟩

theorem addAll_succeeds (calls : List (Malloc × AddCall)) (hmalloc : ∀ call ∈ calls, call.1.Succeeds)
    (htotal : totalSize (calls.map Prod.snd) < 2 ^ 32) :
    Succeeds (addAll calls) .empty fun _ t => ∃ es, t.Holds es ∧
      (encodeAll es).length = totalSize (calls.map Prod.snd) ∧
      List.Forall₂ (fun call e => call.2.Shows e.view) calls es := by
  let I (done : List (Malloc × AddCall)) (t : TLVsMsg) : Prop := ∃ es, t.Holds es ∧
    (encodeAll es).length = totalSize (done.map Prod.snd) ∧
    List.Forall₂ (fun call e => call.2.Shows e.view) done es
  refine .forM I ?_ ?_
  . exact ⟨[], ⟨rfl, rfl⟩, rfl, .nil⟩
  rintro done ⟨m, call⟩ rest t rfl ⟨es, hholds, hlen, hshows⟩
  have hsum : totalSize ((done ++ (m, call) :: rest).map Prod.snd)
      = (encodeAll es).length + (call.headerSize + call.size) + totalSize (rest.map Prod.snd) := by
    simp only [hlen, totalSize, map_append, map_cons, sum_append, sum_cons]
    omega
  refine (call.run_succeeds (hmalloc _ (mem_append_right _ mem_cons_self)) hholds (by omega)).mono ?_ fun _ _ => id
  intro _ t' hadded
  obtain ⟨e, hholds', hlen', hshow⟩ := hadded.holds
  refine ⟨es ++ [e], hholds', ?_, rel_append hshows (.cons hshow .nil)⟩
  rw [hlen', hlen]
  simp [totalSize]

theorem TLVsMsg.Holds.views (h : t.Holds es) (hlt : (encodeAll es).length < 2 ^ 32) : t.views = es.map Entry.view := by
  obtain ⟨infos, msg⟩ := t
  cases msg with
  | none =>
    obtain ⟨rfl, rfl⟩ := h
    rfl
  | some msg =>
    obtain ⟨addr, bytes⟩ := msg
    obtain ⟨rfl, rfl⟩ := h
    have := views_place addr (place addr es) [] es hlt
    rwa [show addr + UInt64.ofNat (encodeAll []).length = addr from UInt64.add_zero addr] at this

theorem TLVsMsg.Holds.getTlvMsg (h : t.Holds es) : t.getTlvMsg = encodeAll es := by
  obtain ⟨infos, msg⟩ := t
  cases msg with
  | none =>
    obtain ⟨rfl, rfl⟩ := h
    rfl
  | some msg => exact h.1

/--
Calls whose message is shorter than `2 ^ 32` bytes succeed. Decoding the message gives the entries that the
encoder itself shows, and these are the ones of the calls.
-/
theorem initFromBuffer_addAll (calls : List (Malloc × AddCall)) (hmalloc : ∀ call ∈ calls, call.1.Succeeds)
    (htotal : totalSize (calls.map Prod.snd) < 2 ^ 32) (addr : UInt64) :
    ∃ t d fuel, addAll calls .empty = .ok () t ∧
      initFromBuffer (some addr) (fun _ => true) fuel t.getTlvMsg = some (.returned .success d) ∧
      d.views = t.views ∧ List.Forall₂ AddCall.Shows (calls.map Prod.snd) t.views := by
  have hadd := addAll_succeeds calls hmalloc htotal
  unfold Succeeds Runs at hadd
  split at hadd
  . next t hok =>
    obtain ⟨es, hholds, hlen, hshows⟩ := hadd
    have hlt : (encodeAll es).length < 2 ^ 32 := hlen ▸ htotal
    have hmany := four_mul_length_le es
    have hloop := decodeLoop_encodeAll es addr [] hlt (by rw [length_nil]; omega)
    have hdecoded : TLVsMsg.Holds ⟨place addr es, some ⟨addr, encodeAll es⟩⟩ es := ⟨rfl, rfl⟩
    refine ⟨t, ⟨place addr es, some ⟨addr, encodeAll es⟩⟩, es.length + 1, hok, ?_, ?_, ?_⟩
    . rw [hholds.getTlvMsg, initFromBuffer]
      simp only [hloop]
      rfl
    . rw [hdecoded.views hlt, hholds.views hlt]
    . rw [hholds.views hlt, forall₂_map_left_iff, forall₂_map_right_iff]
      exact hshows
  . exact hadd.elim

theorem initFromBuffer_addAll_two :
    let m : Malloc := ⟨some 16, fun _ => 0, true, ⟨0, 0, 0, 0, 0⟩⟩
    let calls := [(m, AddCall.nonce [7]), (m, AddCall.quoteSignature [])]
    totalSize (calls.map Prod.snd) = 11 ∧ ∃ t d fuel, addAll calls .empty = .ok () t ∧
      initFromBuffer (some 32) (fun _ => true) fuel t.getTlvMsg = some (.returned .success d) ∧
      d.views = t.views ∧ List.Forall₂ AddCall.Shows (calls.map Prod.snd) t.views := by
  intro m calls
  refine ⟨rfl, initFromBuffer_addAll calls ?_ (by decide) 32⟩
  intro call hmem
  have hm : call.1 = m := by
    rcases mem_pair.mp hmem with rfl | rfl <;> rfl
  rw [hm]
  exact ⟨rfl, rfl⟩

end Aesm
