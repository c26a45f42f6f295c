/-!
The error numbers of the operating system that a harness can meet, with their numbers, symbols and
two wordings.
-/

namespace FuzzHarness

inductive Errno where
  | notPermitted
  | noEntry
  | interrupted
  | inputOutput
  | badDescriptor
  | noMemory
  | accessDenied
  | fileExists
  | notDirectory
  | isDirectory
  | invalidArgument
  | tooManyOpen
  | brokenPipe
  | nameTooLong
  | linkLoop
  deriving DecidableEq, Repr

namespace Errno

def all : List Errno :=
  [.notPermitted, .noEntry, .interrupted, .inputOutput, .badDescriptor, .noMemory, .accessDenied,
    .fileExists, .notDirectory, .isDirectory, .invalidArgument, .tooManyOpen, .brokenPipe,
    .nameTooLong, .linkLoop]

def number : Errno → Nat
  | .notPermitted => 1
  | .noEntry => 2
  | .interrupted => 4
  | .inputOutput => 5
  | .badDescriptor => 9
  | .noMemory => 12
  | .accessDenied => 13
  | .fileExists => 17
  | .notDirectory => 20
  | .isDirectory => 21
  | .invalidArgument => 22
  | .tooManyOpen => 24
  | .brokenPipe => 32
  | .nameTooLong => 36
  | .linkLoop => 40

def ofNumber? (n : Nat) : Option Errno :=
  all.find? fun e => e.number = n

def description : Errno → String
  | .notPermitted => "Operation not permitted"
  | .noEntry => "No such file or directory"
  | .interrupted => "Interrupted system call"
  | .inputOutput => "Input/output error"
  | .badDescriptor => "Bad file descriptor"
  | .noMemory => "Cannot allocate memory"
  | .accessDenied => "Permission denied"
  | .fileExists => "File exists"
  | .notDirectory => "Not a directory"
  | .isDirectory => "Is a directory"
  | .invalidArgument => "Invalid argument"
  | .tooManyOpen => "Too many open files"
  | .brokenPipe => "Broken pipe"
  | .nameTooLong => "File name too long"
  | .linkLoop => "Too many levels of symbolic links"

def symbol : Errno → String
  | .notPermitted => "EPERM"
  | .noEntry => "ENOENT"
  | .interrupted => "EINTR"
  | .inputOutput => "EIO"
  | .badDescriptor => "EBADF"
  | .noMemory => "ENOMEM"
  | .accessDenied => "EACCES"
  | .fileExists => "EEXIST"
  | .notDirectory => "ENOTDIR"
  | .isDirectory => "EISDIR"
  | .invalidArgument => "EINVAL"
  | .tooManyOpen => "EMFILE"
  | .brokenPipe => "EPIPE"
  | .nameTooLong => "ENAMETOOLONG"
  | .linkLoop => "ELOOP"

/-- The symbol and the wording used for memory mappings, which departs from the C library's in four
places. -/
def symbolic (e : Errno) : String :=
  e.symbol ++ ": " ++ match e with
    | .inputOutput => "I/O error"
    | .badDescriptor => "Bad file number"
    | .noMemory => "Out of memory"
    | .linkLoop => "Too many symbolic links encountered"
    | _ => e.description

end Errno

end FuzzHarness
