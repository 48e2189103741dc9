import Concordance.FileSystem.Basic

/-!
# Processes

A process is launched from a program, its arguments and the directory in
which it runs.  It may change the file system, and it ends with an exit
status, unless it cannot be launched at all.  What programs do is not fixed
here: a `Launcher` is any way to run them.
-/

namespace Concordance

open FileSystem (Step)

/-- How a process ended. -/
inductive ExitStatus where
  | exited (code : Nat)
  | signalled (number : Nat)
  deriving DecidableEq, Repr

namespace ExitStatus

/-- The names of signals. -/
def signalNames : List (Nat × String) :=
  [(1, "HUP"), (2, "INT"), (3, "QUIT"), (4, "ILL"), (5, "TRAP"), (6, "ABRT"),
    (7, "BUS"), (8, "FPE"), (9, "KILL"), (10, "USR1"), (11, "SEGV"),
    (12, "USR2"), (13, "PIPE"), (14, "ALRM"), (15, "TERM"), (16, "STKFLT"),
    (17, "CHLD"), (18, "CONT"), (19, "STOP"), (20, "TSTP"), (21, "TTIN"),
    (22, "TTOU"), (23, "URG"), (24, "XCPU"), (25, "XFSZ"), (26, "VTALRM"),
    (27, "PROF"), (28, "WINCH"), (29, "IO"), (30, "PWR"), (31, "SYS")]

/-- Whether a process ended well. -/
def isSuccess (status : ExitStatus) : Bool :=
  status == .exited 0

/-- The wording of a status. -/
def message : ExitStatus → String
  | exited code => "exit status: " ++ Nat.repr code
  | signalled number =>
      "signal: " ++ Nat.repr number ++
        match signalNames.lookup number with
        | some name => " (SIG" ++ name ++ ")"
        | none => ""

end ExitStatus

/-- A program that is to be launched. -/
structure Invocation where
  program : String
  args : List String
  /-- Where it runs, if not in the current directory. -/
  directory : Option Path := none
  deriving DecidableEq, Repr

/-- A way to run programs; the error tells why a program could not be launched. -/
abbrev Launcher := Invocation → Step OsError ExitStatus

end Concordance
