import Mathlib.Algebra.Order.Ring.Nat
import Mathlib.Tactic.Common

/-!
This module contains hash functions that run over a message block by block, and what is left of a message
when the hash of its beginning has been saved.
-/

abbrev Digest := Vector UInt8 32

structure BlockHash where
  start : Digest
  compress : Digest → List UInt8 → Digest
  finish : Digest → Nat → Digest

namespace BlockHash

variable (hash : BlockHash)

def absorb (state : Digest) (blocks : List (List UInt8)) : Digest := blocks.foldl hash.compress state

def sizeofBlocks (blocks : List (List UInt8)) : Nat := (blocks.map List.length).sum

def digest (blocks : List (List UInt8)) : Digest := hash.finish (hash.absorb hash.start blocks) (sizeofBlocks blocks)

@[simp]
theorem absorb_nil (state : Digest) : hash.absorb state [] = state := rfl

@[simp]
theorem absorb_cons (state : Digest) (block : List UInt8) (blocks : List (List UInt8)) :
    hash.absorb state (block :: blocks) = hash.absorb (hash.compress state block) blocks := rfl

@[simp]
theorem absorb_append (state : Digest) (xs ys : List (List UInt8)) :
    hash.absorb state (xs ++ ys) = hash.absorb (hash.absorb state xs) ys :=
  List.foldl_append

@[simp]
theorem sizeofBlocks_nil : sizeofBlocks [] = 0 := rfl

@[simp]
theorem sizeofBlocks_cons (block : List UInt8) (blocks : List (List UInt8)) :
    sizeofBlocks (block :: blocks) = block.length + sizeofBlocks blocks := by simp [sizeofBlocks]

@[simp]
theorem sizeofBlocks_append (xs ys : List (List UInt8)) :
    sizeofBlocks (xs ++ ys) = sizeofBlocks xs + sizeofBlocks ys := by simp [sizeofBlocks]

end BlockHash
