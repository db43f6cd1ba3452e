/-
**A machine with programs.**

A fresh machine has a file tree with the installed programs, the devices and an empty directory to
work in, into which files can be put before the shell starts.

Main definitions:

* `JobShell.Installation.programs` — the installed programs;
* `JobShell.Installation.tree` — the file tree of a fresh machine;
* `JobShell.Installation.Entry` — a file that is put into the working directory;
* `JobShell.Installation.shell` — a shell on a fresh machine.
-/

import JobShell.Machine.Inventory
import JobShell.Machine.Schedule
import JobShell.Programs.Canonical
import JobShell.Programs.Columns
import JobShell.Programs.Condition
import JobShell.Programs.Conventions
import JobShell.Programs.Copies
import JobShell.Programs.Copy
import JobShell.Programs.Count
import JobShell.Programs.Ends
import JobShell.Programs.Expression
import JobShell.Programs.Format
import JobShell.Programs.Grep
import JobShell.Programs.Layout
import JobShell.Programs.Linking
import JobShell.Programs.Listing
import JobShell.Programs.Matching
import JobShell.Programs.Numbering
import JobShell.Programs.Order
import JobShell.Programs.Paths
import JobShell.Programs.Permissions
import JobShell.Programs.Precedence
import JobShell.Programs.Removing
import JobShell.Programs.Repeats
import JobShell.Programs.Running
import JobShell.Programs.Sequence
import JobShell.Programs.Status
import JobShell.Programs.Translate
import JobShell.Programs.Variables
import JobShell.Script.Run
import JobShell.Shell

set_option autoImplicit false

namespace JobShell.Installation

/-! ### Programs -/

/-- Digits as options, each perhaps with more digits in the same word. -/
def digitOptions : String := "0::1::2::3::4::5::6::7::8::9::"

/-- Programs that copy parts of texts, or texts in another form. -/
def textPrograms : List Programs.Installed :=
  [{ name := "cat", run := Programs.cat, letters := some "benstuvAET"
     names := ["number-nonblank=b", "number=n", "squeeze-blank=s", "show-nonprinting=v",
       "show-ends=E", "show-tabs=T", "show-all=A"] },
   { name := "comm", run := Programs.comm, letters := some "123z"
     names := ["check-order", "nocheck-order", "output-delimiter:", "total",
       "zero-terminated=z"] },
   { name := "cut", run := Programs.cut, letters := some "b:c:d:f:nsz"
     names := ["bytes:=b", "characters:=c", "fields:=f", "delimiter:=d", "only-delimited=s",
       "output-delimiter:", "complement", "zero-terminated=z"] },
   { name := "expand", run := Programs.expand, letters := some ("it:" ++ digitOptions)
     names := ["tabs:=t", "initial=i"] },
   { name := "fold", run := Programs.fold, letters := some ("bsw:" ++ digitOptions)
     names := ["bytes=b", "spaces=s", "width:=w"] },
   { name := "grep", run := Programs.grep
     letters := some "0123456789A:B:C:D:EFGHILPTUVX:abcd:e:f:hiLlm:noqRrsuvwxyZz"
     names := ["basic-regexp=G", "extended-regexp=E", "fixed-regexp=F", "fixed-strings=F",
       "perl-regexp=P", "after-context:=A", "before-context:=B", "binary-files:",
       "byte-offset=b", "context:=C", "color::", "colour::", "count=c", "devices:=D",
       "directories:=d", "exclude:", "exclude-from:", "exclude-dir:", "file:=f",
       "files-with-matches=l", "files-without-match=L", "group-separator:",
       "ignore-case=i", "no-ignore-case", "include:", "initial-tab=T", "label:",
       "line-buffered", "line-number=n", "line-regexp=x", "max-count:=m", "no-filename=h",
       "no-group-separator", "no-messages=s", "null=Z", "null-data=z",
       "only-matching=o", "quiet=q", "recursive=r", "dereference-recursive=R", "regexp:=e",
       "invert-match=v", "silent=q", "text=a", "binary=U", "unix-byte-offsets=u",
       "with-filename=H", "word-regexp=w"]
     trouble := 2, usage := "Usage: grep [OPTION]... PATTERNS [FILE]...\n" },
   { name := "head", run := Programs.head },
   { name := "join", run := Programs.join, letters := some "a:e:i1:2:j:o:t:v:z"
     names := ["ignore-case=i", "check-order", "nocheck-order", "zero-terminated=z", "header"] },
   { name := "nl", run := Programs.nl, letters := some "h:b:f:v:i:pl:s:w:n:d:"
     names := ["header-numbering:=h", "body-numbering:=b", "footer-numbering:=f",
       "starting-line-number:=v", "line-increment:=i", "no-renumber=p", "join-blank-lines:=l",
       "number-separator:=s", "number-width:=w", "number-format:=n", "section-delimiter:=d"] },
   { name := "paste", run := Programs.paste, letters := some "d:sz"
     names := ["serial=s", "delimiters:=d", "zero-terminated=z"] },
   { name := "sort", run := Programs.sort, letters := some "bcCdfghik:mMno:rRsS:t:T:uVy::z"
     names := ["ignore-leading-blanks=b", "check::", "compress-program:", "debug",
       "dictionary-order=d", "ignore-case=f", "files0-from:", "general-numeric-sort=g",
       "ignore-nonprinting=i", "key:=k", "merge=m", "month-sort=M", "numeric-sort=n",
       "human-numeric-sort=h", "version-sort=V", "random-sort=R", "random-source:", "sort:",
       "output:=o", "reverse=r", "stable=s", "batch-size:", "buffer-size:=S",
       "field-separator:=t", "temporary-directory:=T", "unique=u", "zero-terminated=z",
       "parallel:"]
     trouble := 2, failure := some "write failed: 'standard output'" },
   { name := "tac", run := Programs.tac, letters := some "brs:"
     names := ["before=b", "regex=r", "separator:=s"] },
   { name := "tail", run := Programs.tail },
   { name := "tee", run := Programs.tee, letters := some "aip"
     names := ["append=a", "ignore-interrupts=i", "output-error::"], failure := none },
   { name := "tr", run := Programs.tr, letters := some "cCdst", strict := true
     names := ["complement=c", "delete=d", "squeeze-repeats=s", "truncate-set1=t"] },
   { name := "tsort", run := Programs.tsort, letters := some "" },
   { name := "unexpand", run := Programs.unexpand, letters := some ",0123456789at:"
     names := ["tabs:=t", "all=a", "first-only"] },
   { name := "uniq", run := Programs.uniq, letters := some "0123456789cdDf:is:uw:z"
     names := ["count=c", "repeated=d", "all-repeated::=D", "group::", "ignore-case=i", "unique=u",
       "skip-fields:=f", "skip-chars:=s", "check-chars:=w", "zero-terminated=z"] },
   { name := "wc", run := Programs.wc, letters := some "clLmw"
     names := ["bytes=c", "chars=m", "lines=l", "words=w", "debug", "files0-from:",
       "max-line-length=L", "total:"] }]

/-- Programs that change the file tree. -/
def filePrograms : List Programs.Installed :=
  [{ name := "chmod", run := Programs.chmod },
   { name := "cp", run := Programs.cp, letters := some "abdfHilLnprst:uvxPRS:TZ"
     names := ["archive=a", "attributes-only", "backup::", "copy-contents", "dereference=L",
       "force=f", "interactive=i", "link=l", "no-clobber=n", "no-dereference=P", "no-preserve:",
       "no-target-directory=T", "one-file-system=x", "parents", "preserve::", "recursive=R",
       "remove-destination", "sparse:", "reflink::", "strip-trailing-slashes", "suffix:=S",
       "symbolic-link=s", "target-directory:=t", "update::", "verbose=v", "context::",
       "debug"] },
   { name := "link", run := Programs.link, letters := some "" },
   { name := "ln", run := Programs.ln, letters := some "bdfinrst:vFLPS:T"
     names := ["backup::", "directory=d", "no-dereference=n", "no-target-directory=T",
       "interactive=i", "suffix:=S", "target-directory:=t", "logical=L", "physical=P",
       "relative=r", "symbolic=s", "verbose=v", "force=f"] },
   { name := "mkdir", run := Programs.mkdir, letters := some "pm:vZ"
     names := ["context::", "mode:=m", "parents=p", "verbose=v"] },
   { name := "mkfifo", run := Programs.mkfifo, letters := some "m:Z"
     names := ["context::", "mode:=m"] },
   { name := "mv", run := Programs.mv, letters := some "bfint:uvS:TZ"
     names := ["backup::", "context=Z", "force=f", "interactive=i", "no-clobber=n", "no-copy",
       "no-target-directory=T", "strip-trailing-slashes", "suffix:=S", "target-directory:=t",
       "update::", "verbose=v", "debug"] },
   { name := "rm", run := Programs.rm, letters := some "dfirvIR"
     names := ["dir=d", "force=f", "interactive::", "one-file-system", "no-preserve-root",
       "preserve-root::", "-presume-input-tty", "recursive=r", "verbose=v"] },
   { name := "rmdir", run := Programs.rmdir, letters := some "pv"
     names := ["ignore-fail-on-non-empty", "path=p", "parents=p", "verbose=v"] },
   { name := "touch", run := Programs.touch, letters := some "acd:fhmr:t:"
     names := ["time:", "no-create=c", "date:=d", "reference:=r", "no-dereference=h"] },
   { name := "truncate", run := Programs.truncate, letters := some "cor:s:"
     names := ["no-create=c", "io-blocks=o", "reference:=r", "size:=s"] },
   { name := "unlink", run := Programs.unlink, letters := some "" }]

/-- Programs that tell of files and paths. -/
def pathPrograms : List Programs.Installed :=
  [{ name := "basename", run := Programs.basename, letters := some "as:z", strict := true
     names := ["multiple=a", "suffix:=s", "zero=z"] },
   { name := "dirname", run := Programs.dirname, letters := some "z", strict := true
     names := ["zero=z"] },
   { name := "ls", run := Programs.ls
     letters := some "aAbBcCdDfFgGhHiI:klLmnNopqQrRsStT:uUvw:xXZ1", trouble := 2
     names := ["all=a", "escape=b", "directory=d", "dired=D", "full-time=l",
       "group-directories-first", "human-readable=h", "inode=i", "kibibytes=k",
       "numeric-uid-gid=n", "no-group=G", "hide-control-chars=q", "reverse=r", "size=s",
       "width:=w", "almost-all=A", "ignore-backups=B", "classify::=F", "file-type", "si",
       "dereference-command-line=H", "dereference-command-line-symlink-to-dir", "hide:",
       "ignore:=I", "indicator-style:", "dereference=L", "literal=N", "quote-name=Q",
       "quoting-style:", "recursive=R", "format:", "show-control-chars", "sort:", "tabsize:=T",
       "time:", "time-style:", "zero", "color::", "hyperlink::", "block-size:", "context=Z",
       "author"] },
   { name := "pwd", run := Programs.pwd, letters := some "LP"
     names := ["logical=L", "physical=P"] },
   { name := "readlink", run := Programs.readlink, letters := some "efmnqsvz"
     names := ["canonicalize=f", "canonicalize-existing=e", "canonicalize-missing=m",
       "no-newline=n", "quiet=q", "silent=s", "verbose=v", "zero=z"] },
   { name := "realpath", run := Programs.realpath, letters := some "eLmPqsz"
     names := ["canonicalize-existing=e", "canonicalize-missing=m", "relative-to:",
       "relative-base:", "quiet=q", "strip=s", "no-symlinks=s", "zero=z", "logical=L",
       "physical=P"] }]

/-- Programs that write what they are told, and those that only end. -/
def wordPrograms : List Programs.Installed :=
  [{ name := "echo", run := Programs.echo },
   { name := "expr", run := Programs.expr, trouble := 3 },
   { name := "printf", run := Programs.printf },
   { name := "seq", run := Programs.seq },
   { name := "yes", run := Programs.yes, letters := some "", failure := none },
   { name := "[", run := Programs.test },
   { name := "test", run := Programs.test },
   { name := "false", run := Programs.failing },
   { name := "true", run := Programs.succeed },
   { name := "sleep", run := Programs.sleep, letters := some "" },
   { name := "tty", run := Programs.tty, letters := some "s", trouble := 2
     names := ["silent=s", "quiet=s"] }]

/-- Programs that run others, or show what these are told. -/
def runningPrograms : List Programs.Installed :=
  [{ name := "env", run := Programs.env, trouble := Programs.cancelled },
   { name := "nice", run := Programs.nice, trouble := Programs.cancelled },
   { name := "nohup", run := Programs.nohup, letters := some "", strict := true
     trouble := Programs.cancelled },
   { name := "printenv", run := Programs.printenv, letters := some "0", strict := true
     names := ["null=0"], trouble := 2 },
   { name := "sh", run := Script.sh, failure := none },
   { name := "timeout", run := Programs.timeout, letters := some "k:s:v", strict := true
     names := ["kill-after:=k", "signal:=s", "verbose=v", "foreground", "preserve-status"]
     trouble := Programs.cancelled }]

/-- The installed programs. -/
def programs : List Programs.Installed :=
  textPrograms ++ filePrograms ++ pathPrograms ++ wordPrograms ++ runningPrograms

/-- The installed program of a name. -/
def programNamed (name : Bytes) : Option Program :=
  (programs.find? fun p => utf8 p.name = name).map (·.program)

/-! ### The file tree -/

/-- The directory that holds the programs. -/
def programDirectory : Bytes := utf8 "/usr/bin/"

/-- The directory to work in. -/
def workingPath : Bytes := utf8 "/tmp/scratch"

/-- The permissions of an ordinary file. -/
def fileMode : Nat := 0o644

/-- The permissions of a program or a directory. -/
def openMode : Nat := 0o755

/-- The permissions of a directory in which everybody may make files. -/
def sharedMode : Nat := 0o1777

/-- Puts something that is no directory at a path. -/
def put (path : String) (content : FileSystem.Content) (mode : Nat) (fs : FileSystem) :
    FileSystem :=
  fs.install 0 (utf8 path) (fun _ => content) mode

/-- Makes an empty directory at a path. -/
def putDirectory (path : Bytes) (mode : Nat) (fs : FileSystem) : FileSystem :=
  fs.install 0 path (fun parent => .directory [] parent) mode

/-- The file tree of a fresh machine. -/
def tree : FileSystem :=
  let fs := programs.foldl (fun fs p =>
    fs.install 0 (programDirectory ++ utf8 p.name) (fun _ => .program (utf8 p.name)) openMode)
    FileSystem.empty
  let fs := put "/bin" (.link (utf8 "usr/bin")) 0o777 fs
  let fs := put "/dev/null" (.device .null) 0o666 fs
  let fs := put "/dev/zero" (.device .zero) 0o666 fs
  let fs := put "/dev/full" (.device .full) 0o666 fs
  let fs := putDirectory (utf8 "/proc") openMode fs
  putDirectory workingPath openMode (putDirectory (utf8 "/tmp") sharedMode fs).handOver

/-- A file that is put into the working directory before the shell starts. -/
inductive Entry where
  | file (data : Bytes) (mode : Nat)
  | directory
  | link (target : Bytes)
  deriving DecidableEq, Repr, Inhabited

/-- Puts a file into a directory. -/
def Entry.install (place : Nat) (path : Bytes) (e : Entry) (fs : FileSystem) : FileSystem :=
  match e with
  | .file data mode => fs.install place path (fun _ => .file data) mode
  | .directory => fs.install place path (fun parent => .directory [] parent) openMode
  | .link target => fs.install place path (fun _ => .link target) 0o777

/-- Puts files into the working directory, in the order of their paths. -/
def furnish (place : Nat) (entries : List (Bytes × Entry)) (fs : FileSystem) : FileSystem :=
  (entries.mergeSort fun a b => Bytes.le a.1 b.1).foldl
    (fun fs e => Entry.install place e.1 e.2 fs) fs

/-- The working directory of a fresh machine. -/
def workingPlace : Nat := (tree.enter 0 workingPath).toOption.getD 0

/-! ### The machine and its shell -/

/-- The environment of the shell's children. -/
def environment (home : Option Bytes) : Environment :=
  [(utf8 "PATH", utf8 "/usr/bin:/bin"), (utf8 "LC_ALL", utf8 "C")]
    ++ (home.map fun path => (utf8 "HOME", path)).toList

/-- A fresh machine with files in its working directory. -/
def machine (entries : List (Bytes × Entry)) (environment : Environment) : Machine :=
  { files := furnish workingPlace entries tree
    programs := programNamed
    environment := environment }

/-- A shell on a fresh machine.  Its input is a pipe that holds some bytes and is written no
more. -/
def shell (entries : List (Bytes × Entry)) (environment : Environment) (input : Bytes) :
    Shell Machine :=
  let (pipe, m) := (machine entries environment).addPipe
  { host := m.setPipe pipe input
    descriptors :=
      { entries := [(0, .pipeReader pipe), (1, .output), (2, .diagnostics)] }
    place := workingPlace
    home := environment.lookup (utf8 "HOME") }

end JobShell.Installation
