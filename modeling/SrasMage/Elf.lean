import SrasMage.Memory

/-!
This module contains the headers of ELF64 files as they lie in memory.
-/

namespace Elf

open Memory

variable (m : Mem) (a : Nat)

def word (n : Nat) : Nat := ofBytes (load m a n)

theorem word_lt (n : Nat) : word m a n < 256 ^ n := by
  have hlt := ofBytes_lt (load m a n)
  rw [length_load] at hlt
  exact hlt

def sizeofEhdr : Nat := 64
def sizeofPhdr : Nat := 56

structure Ehdr where
  magic : List UInt8
  phoff : Nat
  shoff : Nat
  phnum : Nat
  shnum : Nat
  shstrndx : Nat
deriving DecidableEq

structure Phdr where
  type : Nat
  flags : Nat
  offset : Nat
  vaddr : Nat
  filesz : Nat
  memsz : Nat
deriving DecidableEq

def elfmag : List UInt8 := [0x7f, 0x45, 0x4c, 0x46]

def ptLoad : Nat := 1
def pfR : Nat := 4

def ehdr : Ehdr where
  magic := load m a 4
  phoff := word m (a + 32) 8
  shoff := word m (a + 40) 8
  phnum := word m (a + 56) 2
  shnum := word m (a + 60) 2
  shstrndx := word m (a + 62) 2

def phdr : Phdr where
  type := word m a 4
  flags := word m (a + 4) 4
  offset := word m (a + 8) 8
  vaddr := word m (a + 16) 8
  filesz := word m (a + 32) 8
  memsz := word m (a + 40) 8

def ascii (s : String) : List UInt8 := s.toList.map fun c => UInt8.ofNat c.toNat

end Elf
