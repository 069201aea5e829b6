/-!
# What every system has

The usual folders, devices and programs of a system, by the names that lead to them from its
root.
-/

namespace KernelProbe.Rehearsal

/-- The names from the root of a system to a place in it. -/
abbrev Parts := List String

/-- What a name in a folder stands for. -/
inductive Node
  | folder
  /-- A file, and whether it is a program that can be run. -/
  | file (bytes : List UInt8) (runs : Bool)
  /-- A file that takes everything and holds nothing. -/
  | sink
  /-- A file that takes nothing. -/
  | fullDevice
  /-- The standard input of the program that looks. -/
  | input
  /-- Its standard output. -/
  | output
  /-- Its standard error. -/
  | errors
  deriving DecidableEq, Repr

/-- The folders in which a program without a slash in its name is looked for, in this order. -/
def searchFolders : List Parts :=
  [["usr", "local", "sbin"], ["usr", "local", "bin"], ["usr", "sbin"], ["usr", "bin"]]

/-- The folder that holds the usual programs. -/
def programFolder : Parts :=
  ["usr", "bin"]

/-- The usual folders. -/
def usualFolders : List Parts :=
  searchFolders ++
    [[], ["boot"], ["dev"], ["dev", "pts"], ["dev", "shm"], ["etc"], ["home"], ["media"],
      ["mnt"], ["opt"], ["proc"], ["proc", "self"], ["proc", "self", "fd"], ["root"], ["run"],
      ["srv"], ["sys"], ["tmp"], ["usr"], ["usr", "include"], ["usr", "lib"], ["usr", "lib64"],
      ["usr", "libexec"], ["usr", "local"], ["usr", "local", "include"],
      ["usr", "local", "lib"], ["usr", "local", "share"], ["usr", "share"], ["usr", "src"],
      ["var"], ["var", "cache"], ["var", "lib"], ["var", "log"], ["var", "spool"],
      ["var", "tmp"]]

/-- The devices and open streams. -/
def devices : List (Parts × Node) :=
  [(["dev", "null"], .sink), (["dev", "full"], .fullDevice),
    (["proc", "self", "fd", "0"], .input), (["proc", "self", "fd", "1"], .output),
    (["proc", "self", "fd", "2"], .errors)]

/-- Names that stand for other places. -/
def links : List (Parts × Parts) :=
  [(["bin"], ["usr", "bin"]), (["sbin"], ["usr", "sbin"]), (["lib"], ["usr", "lib"]),
    (["lib64"], ["usr", "lib64"]), (["dev", "fd"], ["proc", "self", "fd"]),
    (["dev", "stdin"], ["proc", "self", "fd", "0"]),
    (["dev", "stdout"], ["proc", "self", "fd", "1"]),
    (["dev", "stderr"], ["proc", "self", "fd", "2"])]

/-- The place that names from the root stand for. -/
def linkTarget (parts : Parts) : Parts :=
  ((links.find? (·.1 = parts)).map (·.2)).getD parts

/-- The names of the usual programs. -/
def programNames : List String :=
  ["[", "arch", "awk", "b2sum", "base32", "base64", "basename", "basenc", "bash", "cat", "chcon",
    "chgrp", "chmod", "chown", "chroot", "cksum", "cmp", "comm", "cp", "csplit", "cut", "dash",
    "date", "dd", "df", "diff", "diff3", "dir", "dircolors", "dirname", "dmesg", "dpkg", "du",
    "echo", "egrep", "env", "expand", "expr", "factor", "false", "fgrep", "find", "flock", "fmt",
    "fold", "getconf", "getent", "getopt", "grep", "groups", "gunzip", "gzip", "head", "hostid",
    "hostname", "iconv", "id", "install", "join", "ldd", "link", "ln", "locale", "logname", "ls",
    "lsblk", "mawk", "md5sum", "mkdir", "mkfifo", "mknod", "mktemp", "more", "mount", "mv",
    "nice", "nl", "nohup", "nproc", "numfmt", "od", "paste", "pathchk", "perl", "pinky", "pr",
    "printenv", "printf", "ptx", "pwd", "rbash", "readlink", "realpath", "rev", "rm", "rmdir",
    "runcon", "sdiff", "sed", "seq", "setsid", "sh", "sha1sum", "sha224sum", "sha256sum",
    "sha384sum", "sha512sum", "shred", "shuf", "sleep", "sort", "split", "stat", "stdbuf",
    "stty", "su", "sum", "sync", "tac", "tail", "tar", "tee", "test", "timeout", "touch", "tr",
    "true", "truncate", "tsort", "tty", "umount", "uname", "uncompress", "unexpand", "uniq",
    "unlink", "users", "vdir", "wc", "which", "who", "whoami", "xargs", "yes", "zcat", "zgrep"]

/-- What every system has at a place. -/
def usualNode? (parts : Parts) : Option Node :=
  if usualFolders.contains parts then some .folder
  else if parts.dropLast = programFolder ∧ parts.getLast?.any programNames.contains then
    some (.file [] true)
  else (devices.find? (·.1 = parts)).map (·.2)

end KernelProbe.Rehearsal
