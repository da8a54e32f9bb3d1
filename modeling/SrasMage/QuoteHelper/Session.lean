import Mathlib.Data.List.DropRight
import Mathlib.Data.List.Forall2
import Mathlib.Data.Nat.Digits.Lemmas

/-!
This module contains the session of the benchmark with its quote helper.
-/

namespace QuoteHelper

open List

abbrev Text := List Char

def splitTabs : Text → List Text
  | [] => [[]]
  | c :: rest =>
    if c = '\t' then [] :: splitTabs rest
    else
      match splitTabs rest with
      | [] => [[c]]
      | part :: parts => (c :: part) :: parts

/--
The durations of the stages of a command, in thousandths of a millisecond as they are printed.
-/
structure Durations where
  read : Nat
  prepare : Nat
  fetch : Nat
  work : Nat
  write : Nat

def printMs (d : Nat) : Text :=
  Nat.toDigits 10 (d / 1000) ++ '.' :: [d / 100, d / 10, d].map fun n => Nat.digitChar (n % 10)

def printDetails (labels : List String) (d : Durations) : Text :=
  (labels.zip [d.read, d.prepare, d.fetch, d.work, d.write]).flatMap fun (label, d) =>
    ' ' :: label.toList ++ '=' :: printMs d

def quoteLabels : List String :=
  ["read_report_ms", "qe_target_info_ms", "quote_size_ms", "get_quote_ms", "write_quote_ms"]

def verifyLabels : List String :=
  ["read_quote_ms", "parse_quote_ms", "collateral_ms", "qv_verify_ms", "write_verify_ms"]

/--
What happens while a command runs: the durations, if it gets to writing its output, and whether it succeeds then.
-/
structure Outcome where
  measured : Option Durations
  ok : Bool

def runTargetInfo (o : Outcome) (details : Text) : Bool × Text := (o.ok, details)

def runTimed (labels : List String) (o : Outcome) : Bool × Text :=
  match o.measured with
  | none => (false, [])
  | some d => (o.ok, printDetails labels d)

def runQuote (o : Outcome) : Bool × Text := runTimed quoteLabels o

def runVerify (o : Outcome) : Bool × Text := runTimed verifyLabels o

/--
One round of `run_server`: the response and what is left in `g_last_response_details`.
-/
def serve (line : Text) (o : Outcome) (details : Text) : Text × Text :=
  let (ret, details) :=
    match splitTabs line with
    | [name, _] => if name = "target-info".toList then runTargetInfo o details else (false, details)
    | [name, _, _] => if name = "quote".toList then runQuote o else (false, details)
    | [name, _, _, _, _] => if name = "verify".toList then runVerify o else (false, details)
    | _ => (false, details)
  if ret then ("OK".toList ++ details ++ ['\n'], details) else ("ERR".toList ++ ['\n'], details)

structure Arg where
  text : Text
  noTab : '\t' ∉ text
  noNewline : '\n' ∉ text

inductive Command where
  | targetInfo (output : Arg)
  | quote (report output : Arg)
  | verify (quotePath fmspc pckCa output : Arg)

def Command.parts : Command → List Text
  | targetInfo output => ["target-info".toList, output.text]
  | quote report output => ["quote".toList, report.text, output.text]
  | verify quotePath fmspc pckCa output => ["verify".toList, quotePath.text, fmspc.text, pckCa.text, output.text]

def joinTabs : List Text → Text
  | [] => []
  | [part] => part
  | part :: next :: parts => part ++ '\t' :: joinTabs (next :: parts)

def cStr (part : Text) : Text := part.takeWhile (· ≠ '\x00')

def request (parts : List Text) : Text := joinTabs (parts.map cStr) ++ ['\n']

def fgets : Nat → Text → Text × Text
  | 0, s => ([], s)
  | _ + 1, [] => ([], [])
  | n + 1, c :: rest =>
    if c = '\n' then ([c], rest)
    else
      let (line, rest) := fgets n rest
      (c :: line, rest)

def strip (line : Text) : Text := line.rdropWhile fun c => c = '\n' ∨ c = '\r'

structure Call where
  command : Command
  outcome : Outcome

/--
The details that the helper keeps, and what it has written and the session has not read yet.
-/
structure Session where
  details : Text
  pending : Text

def run (c : Call) (s : Session) : (Bool × Text) × Session :=
  let line := (request c.command.parts).takeWhile (· ≠ '\n')
  let (response, details) := serve line c.outcome s.details
  let (buffer, pending) := fgets 127 (s.pending ++ response)
  ((buffer.take 2 = "OK".toList, strip buffer), ⟨details, pending⟩)

def answers : Session → List Call → List (Bool × Text)
  | _, [] => []
  | s, c :: rest => (run c s).1 :: answers (run c s).2 rest

namespace Call

def isTargetInfo (c : Call) : Bool :=
  match c.command with
  | .targetInfo _ => true
  | _ => false

def succeeds (c : Call) : Bool := (c.isTargetInfo || c.outcome.measured.isSome) && c.outcome.ok

def labels (c : Call) : List String :=
  match c.command with
  | .targetInfo _ => []
  | .quote _ _ => quoteLabels
  | .verify _ _ _ _ => verifyLabels

/--
The timing details measured for a command, there are none for the target information.
-/
def details (c : Call) : Text := (c.outcome.measured.map (printDetails c.labels)).getD []

end Call

/--
No target information is got after a command that has got to its output, and the answers fit in the buffer: without
the end of the line if nothing succeeds any more, and with it otherwise.
-/
def Regular : Bool → List Call → Prop
  | _, [] => True
  | stale, c :: rest =>
    (c.succeeds = true → (c.isTargetInfo = true → stale = false) ∧ c.details.length ≤ 125 ∧
      (c.details.length = 125 → ∀ c' ∈ rest, c'.succeeds = false)) ∧
      Regular (if c.isTargetInfo then stale else c.outcome.measured.isSome) rest

def Call.leaves (c : Call) (details : Text) : Text := if c.isTargetInfo then details else c.details

def Call.reply (c : Call) (details : Text) : Text :=
  if c.succeeds then "OK".toList ++ c.leaves details else "ERR".toList

abbrev OneLine (text : Text) : Prop := ∀ c ∈ text, c ≠ '\n' ∧ c ≠ '\r'

theorem OneLine.append {a b : Text} (ha : OneLine a) (hb : OneLine b) : OneLine (a ++ b) :=
  fun c hc => (mem_append.1 hc).elim (ha c) (hb c)

section Runs

variable {c : Call} {calls : List Call} {details : Text} {stale : Bool}

end Runs

end QuoteHelper
