/-
**The users of the system, and their home directories.**

Main definitions:

* `JobShell.Script.homes` — the home directories by user;
* `JobShell.Script.homeOf?` — the home directory of a user.
-/

import JobShell.Bytes

set_option autoImplicit false

namespace JobShell.Script

/-- The home directories of the users that every system has. -/
def homes : List (String × String) :=
  [("root", "/root"), ("daemon", "/usr/sbin"), ("bin", "/bin"), ("sys", "/dev"), ("sync", "/bin"),
    ("games", "/usr/games"), ("man", "/var/cache/man"), ("lp", "/var/spool/lpd"),
    ("mail", "/var/mail"), ("news", "/var/spool/news"), ("uucp", "/var/spool/uucp"),
    ("proxy", "/bin"), ("www-data", "/var/www"), ("backup", "/var/backups"), ("list", "/var/list"),
    ("irc", "/run/ircd"), ("_apt", "/nonexistent"), ("nobody", "/nonexistent")]

/-- The home directory of a user. -/
def homeOf? (user : Bytes) : Option Bytes :=
  (homes.find? fun h => utf8 h.1 = user).map fun h => utf8 h.2

end JobShell.Script
