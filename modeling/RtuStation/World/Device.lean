import RtuStation.Fault
import RtuStation.Name
import RtuStation.Serial

/-!
# Devices

What the paths of the system lead to, as far as opening them as a serial line is concerned. A walk
along a path goes from directory to directory; `..` leads back, and a symbolic link puts its target
in the place of its name.
-/

namespace RtuStation

inductive Device where
  | directory
  | plain
  | link (target : String)
  /-- A terminal on a line; some can have their electrical mode set. -/
  | terminal (line : Nat) (settings : TerminalSettings) (switchable : Bool)
  /-- Something that is a new terminal whenever it is opened. -/
  | multiplexer
  | refusing (errno : Errno)
  deriving DecidableEq, Repr

abbrev Devices := List (String × Device)

/-- A place that a walk has reached: the names that lead to it from the root, the last first. -/
abbrev Place := List (List Char)

namespace Place

def root : Place := []

/-- The place where paths without a leading slash start: a directory two steps below the root,
neither step with a name, so that nothing is found there. -/
def current : Place := [[], []]

def path (place : Place) : String := String.ofList (place.reverse.flatMap fun name => '/' :: name)

end Place

namespace Devices

def directories : List String :=
  ["/boot", "/dev", "/dev/pts", "/dev/shm", "/etc", "/home", "/media", "/mnt", "/opt", "/proc",
    "/proc/self", "/proc/self/fd", "/proc/sys", "/root", "/run", "/run/lock", "/srv", "/sys",
    "/sys/class", "/sys/class/tty", "/sys/devices", "/tmp", "/usr", "/usr/bin", "/usr/games",
    "/usr/include", "/usr/lib", "/usr/lib64", "/usr/libexec", "/usr/local", "/usr/local/bin",
    "/usr/local/lib", "/usr/local/share", "/usr/sbin", "/usr/share", "/usr/src", "/var",
    "/var/backups", "/var/cache", "/var/lib", "/var/local", "/var/log", "/var/mail", "/var/opt",
    "/var/spool", "/var/tmp"]

def files : List String :=
  ["/dev/null", "/dev/zero", "/dev/full", "/dev/random", "/dev/urandom", "/etc/passwd",
    "/etc/group", "/etc/shadow", "/etc/hosts", "/etc/hostname", "/etc/resolv.conf",
    "/proc/self/fd/0", "/proc/self/fd/1", "/proc/self/fd/2", "/usr/bin/bash", "/usr/bin/cat",
    "/usr/bin/dash", "/usr/bin/env", "/usr/bin/ls", "/usr/bin/true"]

def links : List (String × String) :=
  [("/bin", "usr/bin"), ("/lib", "usr/lib"), ("/lib64", "usr/lib64"), ("/sbin", "usr/sbin"),
    ("/var/lock", "/run/lock"), ("/var/run", "/run"), ("/dev/fd", "/proc/self/fd"),
    ("/dev/stdin", "/proc/self/fd/0"), ("/dev/stdout", "/proc/self/fd/1"),
    ("/dev/stderr", "/proc/self/fd/2"), ("/usr/bin/sh", "dash")]

def standard : Devices :=
  directories.map (·, .directory) ++ files.map (·, .plain) ++
    links.map (fun (path, target) => (path, .link target)) ++
    [("/dev/ptmx", .multiplexer), ("/dev/tty", .refusing .noSuchDevice),
      ("/proc/version", .refusing .accessDenied), ("/proc/cpuinfo", .refusing .accessDenied),
      ("/proc/meminfo", .refusing .accessDenied)]

def parts (path : String) : List (List Char) := path.toList.splitOn '/'

def maxPart : Nat := 255

/-- The length from which on a path is too long, in octets. -/
def pathLimit : Nat := 4096

def maxLinks : Nat := 40

/-- Walks along the parts of a path from a place with a given device. -/
def walk (devices : Devices) (links : Nat) :
    List (List Char) → Place → Device → Except Errno Device
  | [], _, device => .ok device
  | part :: later, place, device =>
    match device with
    | .directory =>
      if part = [] ∨ part = ['.'] then walk devices links later place .directory
      else if part = ['.', '.'] then walk devices links later place.tail .directory
      else if maxPart < textSize part then .error .nameTooLong
      else
        match devices.lookup (Place.path (part :: place)) with
        | none => .error .noEntry
        | some (.link target) =>
          match links with
          | 0 => .error .tooManyLinks
          | links + 1 =>
            let start := if target.startsWith "/" then .root else place
            walk devices links (parts target ++ later) start .directory
        | some next => walk devices links later (part :: place) next
    | _ => .error .notDirectory
termination_by parts => (links, parts.length)

def find (devices : Devices) (path : String) : Except Errno Device :=
  if pathLimit ≤ textSize path.toList then .error .nameTooLong
  else
    let start := if path.startsWith "/" then .root else .current
    walk devices maxLinks (parts path) start .directory

end Devices
end RtuStation
