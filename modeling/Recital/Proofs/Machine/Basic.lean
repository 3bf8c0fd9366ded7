import Recital.Playback.Snapshot
import Recital.Proofs.Player.Gist
import Recital.Proofs.Script.Labels
import Mathlib.Logic.Function.Iterate

/-!
# The script machine

A small machine that says what scripts of built-in commands mean.  Its state is a script, the line
that comes next, the return addresses and the variables; each turn of it reads one line.  Nothing of
how a player does this is left: no phases, locks, clocks, retries or events.

`Performance` is what the machine has done after a number of turns: the lines it has read, with the
scripts it has entered, and how it has halted if it has.
-/

namespace Recital

/-- The state of the machine. -/
structure Machine where
  /-- The script that is read. -/
  script : Script
  /-- The line that comes next. -/
  pc : Nat := 0
  /-- The return addresses, the latest first. -/
  stack : List Nat := []
  /-- The variables. -/
  vars : Table Json := ∅

namespace Machine

/-- How the machine halts. -/
inductive Halt
  /-- There was nothing left to read or to return to. -/
  | success
  /-- A line has said so. -/
  | stopped
  /-- A line cannot be carried out. -/
  | failed (line : Nat)
deriving DecidableEq

namespace Halt

/-- The outcome of a playback that ends like this. -/
def outcome : Halt → Outcome
  | success => .success
  | stopped => .stopped
  | failed _ => .failure

/-- The line that has failed. -/
def line? : Halt → Option Nat
  | failed line => some line
  | _ => none

end Halt

/-- What becomes of the machine with a line. -/
inductive Turn
  /-- It goes on in the same script. -/
  | goes (m : Machine)
  /-- It goes on in another script. -/
  | enters (m : Machine)
  | halts (m : Machine) (halt : Halt)

/-- The machine at another line. -/
def moveTo (m : Machine) (line : Nat) : Machine := { m with pc := line }

/-- The machine at the next line. -/
def next (m : Machine) : Machine := m.moveTo (m.pc + 1)

/-- The machine halts because the line cannot be carried out. -/
def fails (m : Machine) : Turn := .halts m (.failed m.pc)

/-- Goes to a line if there is one. -/
def goTo (m : Machine) : Option Nat → Turn
  | some line => .goes (m.moveTo line)
  | none => m.fails

/-- The line of a target: the first one that carries the label, or the one with the number. -/
def lineAt? (m : Machine) : Target → Option Nat
  | .line index => if index < m.script.size then some index else none
  | .label label => m.script.lineOf? label

/-- Carries out a built-in command; `find` finds the scripts that are called. -/
def execute (find : String → Option Script) (m : Machine) : Command → Turn
  | .assign name value => .goes { m.next with vars := m.vars.insert name value }
  | .clear => .goes { m.next with vars := ∅ }
  | .wait _ => .goes m.next
  | .log _ => .goes m.next
  | .jump target => m.goTo (m.lineAt? target)
  | .gosub label =>
    match m.script.lineOf? label with
    | some line => .goes { m with pc := line, stack := (m.pc + 1) :: m.stack }
    | none => m.fails
  | .back =>
    match m.stack with
    | line :: stack => .goes { m with pc := line, stack }
    | [] => .halts (m.moveTo m.script.size) .success
  | .stop _ => .halts m .stopped
  | .call name =>
    match find name with
    | some script => .enters { script, vars := m.vars }
    | none => m.fails
  | .custom .. => m.fails

/-- Reads a line. -/
def read (find : String → Option Script) (m : Machine) : Line → Turn
  | .text _ => .goes m.next
  | .command _ (some c) => m.execute find c
  | .command _ none => m.fails

/-- The machine after a turn. -/
def Turn.machine : Turn → Machine
  | goes m => m
  | enters m => m
  | halts m _ => m

/-- A command stays in the script or goes on in one that was found. -/
lemma execute_script (find : String → Option Script) (m : Machine) (c : Command) :
    (m.execute find c).machine.script = m.script ∨
      ∃ name, find name = some (m.execute find c).machine.script := by
  cases c with
  | assign | clear | wait | log | stop | custom => exact .inl rfl
  | jump target =>
    simp only [execute]
    cases m.lineAt? target <;> exact .inl rfl
  | gosub label =>
    simp only [execute]
    cases m.script.lineOf? label <;> exact .inl rfl
  | back =>
    simp only [execute]
    cases m.stack <;> exact .inl rfl
  | call name =>
    simp only [execute]
    cases hfind : find name with
    | none => exact .inl rfl
    | some script => exact .inr ⟨name, hfind⟩

/-- A line stays in the script or goes on in one that was found. -/
lemma read_script (find : String → Option Script) (m : Machine) (line : Line) :
    (m.read find line).machine.script = m.script ∨
      ∃ name, find name = some (m.read find line).machine.script := by
  cases line with
  | text source => exact .inl rfl
  | command source c =>
    cases c with
    | none => exact .inl rfl
    | some c => exact m.execute_script find c

/-- Takes return addresses until the machine is at a line. -/
def unwindAlong (m : Machine) : List Nat → Machine
  | [] => { m with stack := [] }
  | line :: stack =>
    if m.pc < m.script.size then { m with stack := line :: stack }
    else (m.moveTo line).unwindAlong stack

/-- Past the end of the script, returns to the latest address that is a line. -/
def unwind (m : Machine) : Machine := m.unwindAlong m.stack

/-- Returning stays in the script. -/
lemma unwindAlong_script (m : Machine) (stack : List Nat) :
    (m.unwindAlong stack).script = m.script := by
  induction stack generalizing m with
  | nil => rfl
  | cons line stack ih =>
    unfold unwindAlong
    split
    · rfl
    · exact ih _

@[simp] lemma unwind_script (m : Machine) : m.unwind.script = m.script :=
  m.unwindAlong_script m.stack

end Machine

/-- What the machine has done. -/
structure Performance where
  /-- The lines that were read and the scripts that were entered. -/
  course : List Milestone := []
  /-- Where the machine has got to. -/
  machine : Machine
  /-- How it has halted. -/
  halt : Option Machine.Halt := none
  /-- How many lines were read, in a word.  A line that fails may be counted or not. -/
  lines : Nat := 0
  /-- How many of them were command lines, in a word. -/
  commands : Nat := 0

namespace Line

/-- A command line counts as a command. -/
def countOn : Line → Nat → Nat
  | text _, n => n
  | command .., n => Word.next 64 n

end Line

namespace Performance

/-- A performance of a script that is about to begin. -/
def opening (script : Script) : Performance :=
  { course := [.script script.name], machine := { script } }

/-- Takes down what has become of the machine with a line. -/
def record (r : Performance) (index : Nat) (line : Line) (turn : Machine.Turn) : Performance :=
  let read : Performance :=
    { r with
      course := r.course ++ [.line index]
      lines := Word.next 64 r.lines
      commands := line.countOn r.commands }
  match turn with
  | .goes machine => { read with machine }
  | .enters machine =>
    { read with course := read.course ++ [.script machine.script.name], machine }
  | .halts machine halt => { read with machine, halt := some halt }

lemma record_machine (r : Performance) (index : Nat) (line : Line) (turn : Machine.Turn) :
    (r.record index line turn).machine = turn.machine := by
  cases turn <;> rfl

/-- One turn of the machine, unless it has halted. -/
def step (find : String → Option Script) (r : Performance) : Performance :=
  match r.halt with
  | some _ => r
  | none =>
    let m := r.machine.unwind
    match m.script.line? m.pc with
    | some line => r.record m.pc line (m.read find line)
    | none => { r with machine := m, halt := some .success }

/-- A turn reads the line that the machine is at. -/
lemma step_eq_record {find : String → Option Script} {r : Performance} {m : Machine} {line : Line}
    (hhalt : r.halt = none) (hm : r.machine.unwind = m) (hline : m.script.line? m.pc = some line) :
    r.step find = r.record m.pc line (m.read find line) := by
  simp only [step, hhalt, hm, hline]

/-- The machine halts when it is past the end of the script and has nothing to return to. -/
lemma step_eq_end {find : String → Option Script} {r : Performance} {m : Machine}
    (hhalt : r.halt = none) (hm : r.machine.unwind = m) (hline : m.script.line? m.pc = none) :
    r.step find = { r with machine := m, halt := some .success } := by
  simp only [step, hhalt, hm, hline]

/-- A machine that has halted takes no turn. -/
lemma step_eq_self {find : String → Option Script} {r : Performance} {halt : Machine.Halt}
    (hhalt : r.halt = some halt) : r.step find = r := by
  simp only [step, hhalt]

/-- A turn stays in the script or goes on in one that was found. -/
lemma step_script (find : String → Option Script) (r : Performance) :
    (r.step find).machine.script = r.machine.script ∨
      ∃ name, find name = some (r.step find).machine.script := by
  cases hhalt : r.halt with
  | some halt =>
    rw [step_eq_self hhalt]
    exact .inl rfl
  | none =>
    obtain ⟨m, hm⟩ : ∃ m, r.machine.unwind = m := ⟨_, rfl⟩
    have hscript : m.script = r.machine.script := by rw [← hm, Machine.unwind_script]
    cases hline : m.script.line? m.pc with
    | none =>
      rw [step_eq_end hhalt hm hline]
      exact .inl hscript
    | some line =>
      rw [step_eq_record hhalt hm hline, ← hscript, record_machine]
      rcases m.read_script find line with hgoes | ⟨name, hfind⟩
      · exact .inl hgoes
      · exact .inr ⟨name, hfind⟩

/-- A number of turns of the machine. -/
def after (find : String → Option Script) (r : Performance) (n : Nat) : Performance :=
  (step find)^[n] r

@[simp] lemma after_zero (find : String → Option Script) (r : Performance) : r.after find 0 = r :=
  rfl

lemma after_succ (find : String → Option Script) (r : Performance) (n : Nat) :
    r.after find (n + 1) = (r.after find n).step find :=
  Function.iterate_succ_apply' (step find) n r

lemma after_add (find : String → Option Script) (r : Performance) (k n : Nat) :
    r.after find (k + n) = (r.after find k).after find n := by
  rw [Nat.add_comm]
  exact Function.iterate_add_apply (step find) n k r

/-- Once it has halted, the machine stays as it is. -/
lemma after_eq_self {find : String → Option Script} {r : Performance} {halt : Machine.Halt}
    (hhalt : r.halt = some halt) (n : Nat) : r.after find n = r := by
  induction n with
  | zero => rfl
  | succ n ih => rw [after_succ, ih, step_eq_self hhalt]

/-- What is true of the first script and of those that are found is true of the script that the
machine has got to. -/
lemma after_script {find : String → Option Script} {r : Performance} {P : Script → Prop}
    (hstart : P r.machine.script) (hfind : ∀ name script, find name = some script → P script)
    (n : Nat) : P (r.after find n).machine.script := by
  induction n with
  | zero => exact hstart
  | succ n ih =>
    rw [after_succ]
    rcases step_script find (r.after find n) with hsame | ⟨name, hname⟩
    · rw [hsame]
      exact ih
    · exact hfind name _ hname

end Performance

end Recital
