import SrasMage.ProtectedFs.Impl.Init

/-!
This module contains the public operations on an open file and the runs made of them.
-/

namespace ProtectedFs

inductive Op where
  | write (ptr : Option Buffer) (size count : Nat)
  | read (ptr : Option Buffer) (size count : Nat)
  | tell
  | seek (newOffset : Int) (origin : Origin)
  | getEof
  | getError
  | clearError
  | clearCache
  | flush
  | preClose (exportKey importing : Bool)

structure Step (N : Type) where
  op : Op
  outside : Outside N

namespace File

variable {N : Type} (P : Platform N)

def apply (s : File N) : Op → File N
  | .write ptr size count => (s.write P ptr size count).2
  | .read ptr size count => (s.read P ptr size count).2
  | .tell => s.tell.2
  | .seek newOffset origin => (s.seek newOffset origin).2
  | .getEof => s
  | .getError => s
  | .clearError => s.clearError P
  | .clearCache => (s.clearCache P).2
  | .flush => (s.flush P).2
  | .preClose exportKey importing => (s.preClose P exportKey importing).2

def begin (s : File N) (outside : Outside N) : File N :=
  { s with outside := outside, ocalls := 0, calls := 0 }

def step (s : File N) (t : Step N) : File N := (s.begin t.outside).apply P t.op

def run (s : File N) (ts : List (Step N)) : File N := ts.foldl (step P) s

def RunMeets (C : File N → Step N → Prop) : File N → List (Step N) → Prop
  | _, [] => True
  | s, t :: ts => C s t ∧ RunMeets C (s.step P t) ts

end File
end ProtectedFs
