import Mathlib.Algebra.Order.Ring.Nat
import Mathlib.Logic.Function.Basic
import Mathlib.Data.List.Basic
import Mathlib.Data.List.Nodup

/-!
This module contains an LRU cache kept as a recency list of keys next to a map from keys to data, where each
entry of the map holds an iterator to its own cell of the list.
-/

namespace Lru

structure ListNode (κ : Type) where
  id : Nat
  key : κ
deriving DecidableEq

structure MapNode (δ : Type) where
  data : δ
  listIt : Nat
deriving DecidableEq

structure Cache (κ δ : Type) where
  list : List (ListNode κ)
  map : κ → Option (MapNode δ)
  nextId : Nat

namespace Cache

variable {κ δ : Type}

def empty : Cache κ δ := ⟨[], fun _ => none, 0⟩

variable (c : Cache κ δ)

def keys : List κ := c.list.map ListNode.key

def data? (key : κ) : Option δ := (c.map key).map MapNode.data

def size : Nat := c.list.length

section

variable [DecidableEq κ]

variable (c : Cache κ δ)

def add (key : κ) (data : δ) : Cache κ δ where
  list := ⟨c.nextId, key⟩ :: c.list
  -- an entry that is there already is dropped, its cell is not
  map := Function.update c.map key (some ⟨data, c.nextId⟩)
  nextId := c.nextId + 1

def find (key : κ) : Option δ := c.data? key

def get (key : κ) : Option δ × Cache κ δ :=
  match c.map key with
  | none => (none, c)
  | some e =>
    match c.list.find? (fun n => n.id = e.listIt) with
    | none => (none, c)
    | some n =>
      (some e.data,
        { list := ⟨c.nextId, n.key⟩ :: c.list.eraseP (fun n => n.id = e.listIt)
          map := Function.update c.map key (some ⟨e.data, c.nextId⟩)
          nextId := c.nextId + 1 })

def getLast (c : Cache κ δ) : Option δ :=
  match c.list.getLast? with
  | none => none
  | some n => c.data? n.key

def removeLast : Cache κ δ :=
  match c.list.getLast? with
  | none => c
  | some n => { c with list := c.list.dropLast, map := Function.update c.map n.key none }

def getAll (keys : List κ) : Cache κ δ := keys.foldl (fun c key => (c.get key).2) c

end

def walk : List δ := go c.list
where
  go : List (ListNode κ) → List δ
  | [] => []
  | n :: ns =>
    match c.data? n.key with
    | none => []
    | some d => d :: go ns

structure Wf : Prop where
  nodup : c.keys.Nodup
  mem_iff : ∀ key, key ∈ c.keys ↔ (c.map key).isSome
  listIt : ∀ key e, c.map key = some e → ⟨e.listIt, key⟩ ∈ c.list
  ids : (c.list.map ListNode.id).Nodup
  fresh : ∀ n ∈ c.list, n.id < c.nextId

end Cache
end Lru
