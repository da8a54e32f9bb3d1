import SrasMage.SignTool.Creator

/-!
This module contains what the creator of the sign tool reports after several images have been loaded with
it.
-/

namespace SignTool

open Memory Mage Hoare BlockHash
open CLoader (Page SecInfo pageAttrEadd addExtendPage)

variable {evp : Evp} {s s' : EnclaveCreator} {page : Page} {image : Image} {block : List UInt8}
  {blocks : List (List UInt8)}

@[simp]
theorem length_eaddBlock (pageOffset : Nat) (sinfo : SecInfo) : (eaddBlock pageOffset sinfo.bytes).length = 64 := by
  simp [eaddBlock, eaddVal, Elf.ascii, SecInfo.bytes, List.length_flatMap]

@[simp]
theorem length_eextendBlock (pageOffset : Nat) : (eextendBlock pageOffset).length = 64 := by
  simp [eextendBlock, eextendVal, Elf.ascii]

@[simp]
theorem length_ecreateBlock (ssaFrameSize size : Nat) : (ecreateBlock ssaFrameSize size).length = 64 := by
  simp [ecreateBlock, Elf.ascii]

theorem length_of_mem_eextendBlocks {m : Mem} {source pageOffset : Nat}
    (h : block ∈ eextendBlocks m source pageOffset) : block.length = 64 := by
  unfold eextendBlocks at h
  obtain ⟨i, _, h⟩ := List.mem_flatMap.1 h
  rcases List.mem_cons.1 h with rfl | h
  . exact length_eextendBlock _
  . obtain ⟨j, _, rfl⟩ := List.mem_map.1 h
    exact length_load _ _ _

def extendBlocks (page : Page) : List (List UInt8) :=
  if page.attr &&& addExtendPage = addExtendPage then eextendBlocks page.memory 0 page.offset else []

def addBlocks (page : Page) : List (List UInt8) :=
  if page.attr &&& pageAttrEadd = 0 then []
  else eaddBlock page.offset page.sinfo.bytes :: extendBlocks page

def addedPages (pages : List Page) : Nat := pages.countP fun page => page.attr &&& pageAttrEadd ≠ 0

def imageBlocks (image : Image) : List (List UInt8) :=
  ecreateBlock image.ssaFrameSize image.enclaveSize :: image.pages.flatMap addBlocks

def imageInfo (evp : Evp) (image : Image) : EnclaveInfo where
  hash := evp.hash.digest (imageBlocks image)
  quota := sePageSize * addedPages image.pages % 2 ^ 64
  mage := {
    size := sizeofBlocks (imageBlocks image) % 2 ^ 64
    offset := 0
    digest := evp.hash.absorb evp.hash.start (imageBlocks image) }

def infoAfter (evp : Evp) (s : EnclaveCreator) (image : Image) : EnclaveInfo :=
  { imageInfo evp image with
    quota := (s.quota + sePageSize * addedPages image.pages) % 2 ^ 64
    mage.size := (s.mage.size + sizeofBlocks (imageBlocks image)) % 2 ^ 64 }

structure Sound (s : EnclaveCreator) : Prop where
  quota : s.quota < 2 ^ 64
  size : s.mage.size < 2 ^ 64
  offset : s.mage.offset = 0

structure Measured (evp : Evp) (blocks : List (List UInt8)) (pages : Nat) (s s' : EnclaveCreator) : Prop where
  sound : Sound s'
  ctx : s'.ctx = s.ctx.map fun ctx => ⟨evp.hash.absorb ctx.state blocks, ctx.size + sizeofBlocks blocks⟩
  size : s'.mage.size = (s.mage.size + sizeofBlocks blocks) % 2 ^ 64
  quota : s'.quota = (s.quota + sePageSize * pages) % 2 ^ 64

theorem Measured.refl (h : Sound s) : Measured evp [] 0 s s where
  sound := h
  ctx := by simp
  size := (Nat.mod_eq_of_lt h.size).symm
  quota := (Nat.mod_eq_of_lt h.quota).symm

theorem Measured.trans {blocks' : List (List UInt8)} {pages pages' : Nat} {s'' : EnclaveCreator}
    (h : Measured evp blocks pages s s') (h' : Measured evp blocks' pages' s' s'') :
    Measured evp (blocks ++ blocks') (pages + pages') s s'' where
  sound := h'.sound
  ctx := by
    rw [h'.ctx, h.ctx, Option.map_map]
    simp only [Function.comp_def, absorb_append, sizeofBlocks_append, Nat.add_assoc]
  size := by rw [h'.size, h.size, sizeofBlocks_append, Nat.mod_add_mod, Nat.add_assoc]
  quota := by rw [h'.quota, h.quota, Nat.mul_add, Nat.mod_add_mod, Nat.add_assoc]

theorem runs_callEvp {s : EnclaveCreator} : Runs (callEvp evp) s (fun _ s' => s' = { s with calls := s.calls + 1 })
      fun _ s' => s' = { s with calls := s.calls + 1 } := by
  unfold callEvp
  apply Runs.bind
  apply Runs.get
  apply Runs.bind
  show Runs _ { s with calls := s.calls + 1 } _ _
  apply Runs.ite
  . intro _
    exact .throw rfl
  . intro _
    exact .pure rfl

theorem runs_evpDigestUpdate (hs : Sound s) (hblock : block.length = 64) :
    Runs (evpDigestUpdate evp block) s (fun _ s' => Measured evp [block] 0 s s') fun _ s' => Sound s' := by
  unfold evpDigestUpdate
  apply Runs.bind
  apply runs_callEvp.mono
  . rintro _ _ rfl
    apply Runs.modify
    exact {
      sound := ⟨hs.quota, Nat.mod_lt _ (by decide), hs.offset⟩
      ctx := rfl
      size := by simp [hblock]
      quota := (Nat.mod_eq_of_lt hs.quota).symm }
  . rintro _ _ rfl
    exact ⟨hs.quota, hs.size, hs.offset⟩

theorem runs_forM_evpDigestUpdate (hs : Sound s) (hblocks : ∀ block ∈ blocks, block.length = 64) :
    Runs (blocks.forM (evpDigestUpdate evp)) s (fun _ s' => Measured evp blocks 0 s s') fun _ s' => Sound s' := by
  apply Runs.forM fun done s' => Measured evp done 0 s s'
  . exact .refl hs
  intro done block rest s1 heq h
  have hmem : block ∈ blocks := by simp [heq]
  exact (runs_evpDigestUpdate h.sound (hblocks block hmem)).mono (fun _ _ h' => h.trans h') fun _ _ h' => h'

theorem runs_eextend (hs : Sound s) :
    Runs (eextend evp page) s (fun _ s' => Measured evp (extendBlocks page) 0 s s') fun _ s' => Sound s' := by
  unfold eextend extendBlocks
  apply Runs.ite
  . intro hextend
    rw [if_neg hextend]
    exact .pure (.refl hs)
  intro hextend
  rw [if_pos (not_not.1 hextend)]
  have h : Runs ((eextendBlocks page.memory 0 page.offset).forM (evpDigestUpdate evp)) s
      (fun _ s' => Measured evp (eextendBlocks page.memory 0 page.offset) 0 s s') fun _ s' => Sound s' :=
    runs_forM_evpDigestUpdate hs fun _ => length_of_mem_eextendBlocks
  have heq : (eextendBlocks page.memory 0 page.offset).forM (evpDigestUpdate evp) = _ := forM_flatMap _ _ _
  rw [heq] at h
  simp only [List.forM_eq_forM, List.forM_cons, List.forM_map] at h
  exact h

theorem runs_addEnclavePage (hs : Sound s) :
    Runs (addEnclavePage evp page) s (fun _ s' => Measured evp (addBlocks page) (addedPages [page]) s s')
      fun _ s' => Sound s' := by
  unfold addEnclavePage addBlocks
  refine .ite (fun _ => .throw hs) fun _ => Runs.ite (fun _ => .throw hs) fun _ => ?_
  apply Runs.ite
  . intro headd
    rw [if_pos headd, show addedPages [page] = 0 by simp [addedPages, headd]]
    exact .pure (.refl hs)
  intro headd
  rw [if_neg headd, show addedPages [page] = 1 by simp [addedPages, headd]]
  unfold measurePage
  apply Runs.bind
  refine (runs_evpDigestUpdate hs (length_eaddBlock _ _)).mono (fun _ s1 h1 => ?_) fun _ _ h => h
  apply Runs.bind
  refine (runs_eextend h1.sound).mono (fun _ s2 h2 => ?_) fun _ _ h => h
  apply Runs.modify
  have h := h1.trans h2
  exact ⟨⟨Nat.mod_lt _ (by decide), h.sound.size, h.sound.offset⟩, h.ctx, h.size, by simp [h.quota]⟩

theorem runs_forM_addEnclavePage (hs : Sound s) (pages : List Page) : Runs (pages.forM (addEnclavePage evp)) s
      (fun _ s' => Measured evp (pages.flatMap addBlocks) (addedPages pages) s s') fun _ s' => Sound s' := by
  apply Runs.forM fun done s' => Measured evp (done.flatMap addBlocks) (addedPages done) s s'
  . exact .refl hs
  intro done page rest s1 _ h
  refine (runs_addEnclavePage h.sound).mono (fun _ _ h' => ?_) fun _ _ h' => h'
  have htrans := h.trans h'
  rw [List.flatMap_append, List.flatMap_singleton, addedPages, List.countP_append]
  exact htrans

theorem runs_createEnclave (hs : Sound s) (ssaFrameSize size : Nat) : Runs (createEnclave evp ssaFrameSize size) s
      (fun _ s' => Measured evp [ecreateBlock ssaFrameSize size] 0 { s with ctx := some ⟨evp.hash.start, 0⟩ } s')
      fun _ s' => Sound s' := by
  unfold createEnclave
  apply Runs.bind
  apply Runs.modify
  apply Runs.bind
  refine runs_callEvp.mono (fun _ _ h => ?_) fun _ _ h => h ▸ ⟨hs.quota, hs.size, hs.offset⟩
  subst h
  apply Runs.bind
  apply Runs.modify
  apply Runs.bind
  refine runs_callEvp.mono (fun _ _ h => ?_) fun _ _ h => h ▸ ⟨hs.quota, hs.size, hs.offset⟩
  subst h
  apply Runs.mono (runs_evpDigestUpdate ?_ (length_ecreateBlock _ _))
  . intro _ _ h
    exact ⟨h.sound, h.ctx, h.size, h.quota⟩
  . intro _ _ h
    exact h
  . exact ⟨hs.quota, hs.size, hs.offset⟩

theorem runs_initEnclave (hs : Sound s) : Runs (initEnclave evp) s (fun _ s' => Sound s' ∧ ∃ ctx, s.ctx = some ctx ∧
        getEnclaveInfo s' = .ok ⟨evp.hash.finish ctx.state ctx.size, s.quota, { s.mage with digest := ctx.state }⟩)
      fun _ s' => Sound s' := by
  unfold initEnclave
  apply Runs.bind
  apply Runs.get
  split
  . exact .throw hs
  next ctx hctx =>
  apply Runs.bind
  show Runs _ { s with mage.digest := ctx.state } _ _
  apply Runs.bind
  refine runs_callEvp.mono (fun _ _ h => ?_) fun _ _ h => h ▸ ⟨hs.quota, hs.size, hs.offset⟩
  subst h
  apply Runs.modify
  exact ⟨⟨hs.quota, hs.size, hs.offset⟩, ctx, hctx, rfl⟩

theorem runs_loadEnclave (evp : Evp) (hs : Sound s) (image : Image) :
    Runs (loadEnclave evp image) s
      (fun _ s' => Sound s' ∧ getEnclaveInfo s' = .ok (infoAfter evp s image))
      fun _ s' => Sound s' := by
  unfold loadEnclave
  apply Runs.bind
  refine (runs_createEnclave hs _ _).mono (fun _ s1 h1 => ?_) fun _ _ h => h
  refine .ite (fun _ => .throw h1.sound) fun _ => ?_
  apply Runs.tryCatch
  apply Runs.bind
  -- A failure destroys the context, and nothing that is asked for afterwards is in it.
  have hdestroy : ∀ e s', Sound s' → Runs (do destroyEnclave; throw e : CreatorM Unit) s'
      (fun _ s' => Sound s' ∧ getEnclaveInfo s' = .ok (infoAfter evp s image))
      fun _ s' => Sound s' := by
    intro e s' h
    apply Runs.bind
    apply Runs.modify
    exact .throw ⟨h.quota, h.size, h.offset⟩
  refine (runs_forM_addEnclavePage h1.sound _).mono (fun _ s2 h2 => ?_) hdestroy
  have h := h1.trans h2
  refine (runs_initEnclave h.sound).mono (fun _ s3 h3 => ?_) hdestroy
  obtain ⟨hsound, ctx, hctx, hinfo⟩ := h3
  refine ⟨hsound, ?_⟩
  rw [h.ctx, Option.map_some, Option.some.injEq] at hctx
  subst hctx
  rw [hinfo, h.quota]
  unfold infoAfter imageInfo imageBlocks
  simp [BlockHash.digest, h.size, h.sound.offset]

theorem Sound.initial : Sound {} := ⟨by decide, by decide, rfl⟩

theorem Sound.stateAfter_loadEnclave (hs : Sound s) (image : Image) : Sound (stateAfter (loadEnclave evp image) s) := by
  have h := runs_loadEnclave evp hs image
  unfold stateAfter
  split
  . next heq => exact (h.ok heq).1
  . next heq => exact h.error heq

theorem Sound.afterLoads (evp : Evp) (images : List Image) : Sound (afterLoads evp images) := by
  suffices h : ∀ s, Sound s → Sound (images.foldl (fun s image => stateAfter (loadEnclave evp image) s) s) from
    h _ .initial
  induction images with
  | nil => exact fun _ hs => hs
  | cons image images ih => exact fun s hs => ih _ (hs.stateAfter_loadEnclave image)

theorem add_mod_eq_mod_iff {a : Nat} (ha : a < 2 ^ 64) (b : Nat) : (a + b) % 2 ^ 64 = b % 2 ^ 64 ↔ a = 0 := by omega

theorem infoAfter_eq_iff (hs : Sound s) :
    infoAfter evp s image = imageInfo evp image ↔ s.quota = 0 ∧ s.mage.size = 0 := by
  rw [← add_mod_eq_mod_iff hs.quota (sePageSize * addedPages image.pages),
    ← add_mod_eq_mod_iff hs.size (sizeofBlocks (imageBlocks image))]
  unfold infoAfter imageInfo
  simp

/--
After any sequence of images, the next one is reported as if it was alone if and only if the creator has counted
nothing yet.
-/
theorem getEnclaveInfo_alone_iff (images : List Image)
    (hload : loadEnclave evp image (afterLoads evp images) = .ok () s') :
    getEnclaveInfo s' = .ok (imageInfo evp image) ↔
      (afterLoads evp images).quota = 0 ∧ (afterLoads evp images).mage.size = 0 := by
  have hs := Sound.afterLoads evp images
  rw [((runs_loadEnclave evp hs image).ok hload).2, Except.ok.injEq, infoAfter_eq_iff hs]

def sampleEvp : Evp where
  hash := ⟨Vector.replicate 32 0, fun _ block => Vector.replicate 32 (block.getLastD 0), fun state _ => state⟩
  fails _ := false

def sampleImage : Image where
  ssaFrameSize := 1
  enclaveSize := 0x10000
  relocBitmap := true
  pages := [⟨none, 0x1000, SecInfo.ofFlags 0x203, pageAttrEadd⟩]

def firstFails : Evp := { sampleEvp with fails := fun n => n = 0 }

theorem loadEnclave_sampleImage : loadEnclave firstFails sampleImage (afterLoads firstFails [sampleImage]) =
      .ok () (stateAfter (loadEnclave firstFails sampleImage) (afterLoads firstFails [sampleImage])) := by
  obtain ⟨⟨⟩, s', h⟩ := exists_ok (x := loadEnclave firstFails sampleImage) (s := afterLoads firstFails [sampleImage])
    (by decide +kernel)
  rw [stateAfter, h]

theorem getEnclaveInfo_alone_sampleImage :
    isOk (loadEnclave firstFails sampleImage) (afterLoads firstFails []) = false ∧
    getEnclaveInfo (stateAfter (loadEnclave firstFails sampleImage) (afterLoads firstFails [sampleImage])) =
      .ok (imageInfo firstFails sampleImage) :=
  ⟨by decide +kernel, (getEnclaveInfo_alone_iff [sampleImage] loadEnclave_sampleImage).2 (by decide +kernel)⟩

theorem getEnclaveInfo_second_load :
    isOk (loadEnclave sampleEvp sampleImage) (afterLoads sampleEvp [sampleImage]) = true ∧
      (imageInfo sampleEvp sampleImage).quota = 0x1000 ∧ (imageInfo sampleEvp sampleImage).mage.size = 128 ∧
      (afterLoads sampleEvp [sampleImage, sampleImage]).quota = 0x2000 ∧
      (afterLoads sampleEvp [sampleImage, sampleImage]).mage.size = 256 ∧
      getEnclaveInfo (afterLoads sampleEvp [sampleImage, sampleImage]) ≠ .ok (imageInfo sampleEvp sampleImage) := by
  decide +kernel

end SignTool
