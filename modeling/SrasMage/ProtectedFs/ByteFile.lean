import SrasMage.Bytes
import SrasMage.ProtectedFs.Impl.Run

/-!
This module contains what a protected file is for.
-/

namespace ProtectedFs

open Bytes

inductive Request where
  | open (mode : List Char)
  | write (ptr : Option Buffer) (size count : Nat)
  | read (ptr : Option Buffer) (size count : Nat)
  | seek (newOffset : Int) (origin : Origin)
  | tell
  | eof
  | flush
  | clearCache
  | close

inductive Response where
  | none
  | flag (b : Bool)
  | count (n : Nat)
  | bytes (count : Nat) (out : List UInt8)
  | result (r : Int)
deriving DecidableEq

structure ByteFile where
  bytes : List UInt8
  cursor : Nat
  eof : Bool
  mode : OpenMode

namespace ByteFile

def openMode (stored : Option (List UInt8)) (mode : OpenMode) : Option ByteFile :=
  if mode.read = true ∧ stored = none then none
  else
    let bytes := if mode.write then [] else stored.getD []
    some ⟨bytes, if mode.append = true ∧ mode.update = false then bytes.length else 0, false, mode⟩

def «open» (stored : Option (List UInt8)) (mode : List Char) : Option ByteFile :=
  (parseMode mode).bind (openMode stored)

def writable (f : ByteFile) : Bool := f.mode.append || f.mode.update || f.mode.write

def readable (f : ByteFile) : Bool := f.mode.read || f.mode.update

def transfers (buffer : Buffer) (size count : Nat) : Bool :=
  size ≠ 0 && count ≠ 0 && size ≤ uint32Max && count ≤ uint32Max && !buffer.outside

def start (f : ByteFile) : Nat := if f.mode.append then f.bytes.length else f.cursor

def write (f : ByteFile) (ptr : Option Buffer) (size count : Nat) : Nat × ByteFile :=
  match ptr with
  | none => (0, f)
  | some buffer =>
    if transfers buffer size count && f.writable then
      (count, { f with
          bytes := overwrite f.bytes f.start (tabulate buffer.bytes (size * count))
          cursor := f.start + size * count })
    else (0, f)

def read (f : ByteFile) (ptr : Option Buffer) (size count : Nat) : (Nat × List UInt8) × ByteFile :=
  match ptr with
  | none => ((0, []), f)
  | some buffer =>
    if transfers buffer size count && f.readable then
      let n := min (size * count) (f.bytes.length - f.cursor)
      ((n / size, (f.bytes.drop f.cursor).take n), { f with cursor := f.cursor + n, eof := f.eof || n ≠ size * count })
    else ((0, []), f)

def position (f : ByteFile) (newOffset : Int) : Origin → Int
  | .set => newOffset
  | .cur => f.cursor + newOffset
  | .end => f.bytes.length + newOffset

def seek (f : ByteFile) (newOffset : Int) (origin : Origin) : Int × ByteFile :=
  if 0 ≤ f.position newOffset origin ∧ f.position newOffset origin ≤ f.bytes.length then
    (0, { f with cursor := (f.position newOffset origin).toNat, eof := false })
  else (-1, f)

inductive Client where
  | closed (stored : Option (List UInt8))
  | «open» (f : ByteFile)

def step : Client → Request → Response × Client
  | .closed stored, .open mode =>
    match ByteFile.open stored mode with
    | none => (.flag false, .closed stored)
    | some f => (.flag true, .open f)
  | .closed stored, _ => (.none, .closed stored)
  | .open f, .open _ => (.none, .open f)
  | .open f, .write ptr size count =>
    let (n, f) := f.write ptr size count
    (.count n, .open f)
  | .open f, .read ptr size count =>
    let ((n, out), f) := f.read ptr size count
    (.bytes n out, .open f)
  | .open f, .seek newOffset origin =>
    let (r, f) := f.seek newOffset origin
    (.result r, .open f)
  | .open f, .tell => (.result f.cursor, .open f)
  | .open f, .eof => (.flag f.eof, .open f)
  | .open f, .flush => (.flag true, .open f)
  | .open f, .clearCache => (.result 0, .open f)
  | .open f, .close => (.flag true, .closed (some f.bytes))

def responses : Client → List Request → List Response
  | _, [] => []
  | c, r :: rs => (step c r).1 :: responses (step c r).2 rs

def Fits : Client → List Request → Prop
  | _, [] => True
  | c, r :: rs =>
    (match c, r with
      | .open f, .write _ size count => f.start + size * count < 2 ^ 63
      | _, _ => True)
    ∧ Fits (step c r).2 rs

end ByteFile

inductive Client (N : Type) where
  | closed (host : Host N)
  | «open» (file : File N)

namespace Client

variable {N : Type} (P : Platform N) (args : OpenArgs)

def fopen (host : Host N) (outside : Outside N) (mode : List Char) : Response × Client N :=
  let s := File.create P { args with mode := mode } host outside
  if s.fileStatus = .ok then (.flag true, .open s) else (.flag false, .closed s.host)

def step (outside : Outside N) : Client N → Request → Response × Client N
  | .closed host, .open mode => fopen P args host outside mode
  | .closed host, _ => (.none, .closed host)
  | .open s, .open _ => (.none, .open s)
  | .open s, .write ptr size count =>
    let (n, s) := (s.begin outside).write P ptr size count
    (.count n, .open s)
  | .open s, .read ptr size count =>
    let ((n, out), s) := (s.begin outside).read P ptr size count
    (.bytes n out, .open s)
  | .open s, .seek newOffset origin =>
    let (r, s) := (s.begin outside).seek newOffset origin
    (.result r, .open s)
  | .open s, .tell =>
    let (r, s) := (s.begin outside).tell
    (.result r, .open s)
  | .open s, .eof => (.flag s.getEof, .open s)
  | .open s, .flush =>
    let (r, s) := (s.begin outside).flush P
    (.flag r, .open s)
  | .open s, .clearCache =>
    let (r, s) := (s.begin outside).clearCache P
    (.result r, .open s)
  | .open s, .close =>
    let (r, s) := (s.begin outside).preClose P false false
    (.flag r.1, .closed s.host)

def responses : Client N → List (Outside N × Request) → List Response
  | _, [] => []
  | c, (outside, r) :: rs => (step P args outside c r).1 :: responses (step P args outside c r).2 rs

end Client
end ProtectedFs
