/-
**Signals as they are written.**

A signal is written by its number, or by its name without the beginning that all names have.

Main definitions:

* `JobShell.Signal.written` — the text of a signal;
* `JobShell.Signal.named?` — the signal that a text stands for.
-/

import JobShell.Number
import JobShell.Signal

set_option autoImplicit false

namespace JobShell.Signal

/-- How many signals there are, counting none as one. -/
def count : Nat := 65

/-- The name of a signal without its beginning, or its number. -/
def written (signal : Nat) : Bytes :=
  if signal = 0 then utf8 "EXIT"
  else match name? signal with
    | some name => (utf8 name).drop 3
    | none =>
      if signal = 34 then utf8 "RTMIN"
      else if signal = 64 then utf8 "RTMAX"
      else if 34 < signal ∧ signal < 50 then utf8 "RTMIN+" ++ Bytes.ofNat (signal - 34)
      else if 50 ≤ signal ∧ signal < 64 then utf8 "RTMAX-" ++ Bytes.ofNat (64 - signal)
      else Bytes.ofNat signal

/-- The signal that a name without its beginning, or a number, stands for. -/
def named? (text : Bytes) : Option Nat :=
  match digits? text with
  | some n => if n < count then some n else none
  | none =>
    let upper := text.map fun c => if 97 ≤ c ∧ c ≤ 122 then c - 32 else c
    (List.range count).find? fun n => written n = upper

end JobShell.Signal
