import WarmCheck.Path

/-!
# Faults of the operating system

* `Errno`: a numbered error, with its text.
* `Fault`: an error of a system call, or of an argument that no call can be made with.
-/

namespace WarmCheck

/-- An error number. -/
structure Errno where
  code : Nat
  deriving DecidableEq, Repr

namespace Errno

/-- Nothing at the path. -/
def noEntry : Errno := ⟨2⟩
/-- Something that cannot be opened as a file. -/
def noDevice : Errno := ⟨6⟩
/-- A file that is no program the system can run. -/
def execFormat : Errno := ⟨8⟩
/-- A file that may not be run. -/
def accessDenied : Errno := ⟨13⟩
/-- Something is at the path already. -/
def alreadyExists : Errno := ⟨17⟩
/-- A component that is not a directory. -/
def notDirectory : Errno := ⟨20⟩
/-- A directory where a file is wanted. -/
def isDirectory : Errno := ⟨21⟩
/-- An argument that the call cannot take. -/
def invalid : Errno := ⟨22⟩
/-- A name over 255 octets, or a path over 4095. -/
def nameTooLong : Errno := ⟨36⟩
/-- A directory that still has entries. -/
def notEmpty : Errno := ⟨39⟩
/-- More than forty symbolic links on the way. -/
def linkLoop : Errno := ⟨40⟩
/-- Something is at the address already. -/
def addressInUse : Errno := ⟨98⟩
/-- Nothing listens at the address. -/
def connectionRefused : Errno := ⟨111⟩

/-- The texts of the error numbers from 0 on, empty where a number has none. -/
def texts : List String :=
  ["Success", "Operation not permitted", "No such file or directory", "No such process",
    "Interrupted system call", "Input/output error", "No such device or address",
    "Argument list too long", "Exec format error", "Bad file descriptor", "No child processes",
    "Resource temporarily unavailable", "Cannot allocate memory", "Permission denied",
    "Bad address", "Block device required", "Device or resource busy", "File exists",
    "Invalid cross-device link", "No such device", "Not a directory", "Is a directory",
    "Invalid argument", "Too many open files in system", "Too many open files",
    "Inappropriate ioctl for device", "Text file busy", "File too large",
    "No space left on device", "Illegal seek", "Read-only file system", "Too many links",
    "Broken pipe", "Numerical argument out of domain", "Numerical result out of range",
    "Resource deadlock avoided", "File name too long", "No locks available",
    "Function not implemented", "Directory not empty", "Too many levels of symbolic links", "",
    "No message of desired type", "Identifier removed", "Channel number out of range",
    "Level 2 not synchronized", "Level 3 halted", "Level 3 reset", "Link number out of range",
    "Protocol driver not attached", "No CSI structure available", "Level 2 halted",
    "Invalid exchange", "Invalid request descriptor", "Exchange full", "No anode",
    "Invalid request code", "Invalid slot", "", "Bad font file format", "Device not a stream",
    "No data available", "Timer expired", "Out of streams resources",
    "Machine is not on the network", "Package not installed", "Object is remote",
    "Link has been severed", "Advertise error", "Srmount error", "Communication error on send",
    "Protocol error", "Multihop attempted", "RFS specific error", "Bad message",
    "Value too large for defined data type", "Name not unique on network",
    "File descriptor in bad state", "Remote address changed",
    "Can not access a needed shared library", "Accessing a corrupted shared library",
    ".lib section in a.out corrupted", "Attempting to link in too many shared libraries",
    "Cannot exec a shared library directly", "Invalid or incomplete multibyte or wide character",
    "Interrupted system call should be restarted", "Streams pipe error", "Too many users",
    "Socket operation on non-socket", "Destination address required", "Message too long",
    "Protocol wrong type for socket", "Protocol not available", "Protocol not supported",
    "Socket type not supported", "Operation not supported", "Protocol family not supported",
    "Address family not supported by protocol", "Address already in use",
    "Cannot assign requested address", "Network is down", "Network is unreachable",
    "Network dropped connection on reset", "Software caused connection abort",
    "Connection reset by peer", "No buffer space available",
    "Transport endpoint is already connected", "Transport endpoint is not connected",
    "Cannot send after transport endpoint shutdown", "Too many references: cannot splice",
    "Connection timed out", "Connection refused", "Host is down", "No route to host",
    "Operation already in progress", "Operation now in progress", "Stale file handle",
    "Structure needs cleaning", "Not a XENIX named type file", "No XENIX semaphores available",
    "Is a named type file", "Remote I/O error", "Disk quota exceeded", "No medium found",
    "Wrong medium type", "Operation canceled", "Required key not available", "Key has expired",
    "Key has been revoked", "Key was rejected by service", "Owner died", "State not recoverable",
    "Operation not possible due to RF-kill", "Memory page has hardware error"]

/-- What the system says about an error number. -/
def text (e : Errno) : String :=
  match texts[e.code]? with
  | some "" | none => "Unknown error " ++ toString e.code
  | some t => t

/-- The error as it is reported. -/
def message (e : Errno) : String := e.text ++ " (os error " ++ toString e.code ++ ")"

end Errno

/-- Why a system operation did not succeed. -/
inductive Fault where
  /-- The call failed. -/
  | os (errno : Errno)
  /-- A socket path of 108 octets or more. -/
  | addressTooLong
  /-- A socket path with a NUL in it. -/
  | addressHasNul
  /-- A file path with a NUL in it. -/
  | pathHasNul
  /-- An argument of a program with a NUL in it. -/
  | argumentHasNul
  deriving DecidableEq, Repr

namespace Fault

/-- The fault as it is reported. -/
def message : Fault → String
  | os e => e.message
  | addressTooLong => "path must be shorter than SUN_LEN"
  | addressHasNul => "paths must not contain interior null bytes"
  | pathHasNul => "file name contained an unexpected NUL byte"
  | argumentHasNul => "nul byte found in provided data"

end Fault

end WarmCheck
