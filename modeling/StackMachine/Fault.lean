-- SUMMARY: Faults, traps and the texts that report them.
import StackMachine.Opcode
import StackMachine.Text.Inspection
import StackMachine.Text.Quoted

/-!
# Faults and traps

A fault is the reason why an instruction could not be carried out. A trap is a fault together with
the place where it stopped the run.
-/

namespace StackMachine

-- ---------------------------------------------------------------------------
-- Failed writes
-- ---------------------------------------------------------------------------

/-- Why a sink refused bytes. An interruption is no such reason: an interrupted write is tried again. -/
inductive WriteError where
  | notFound
  | permissionDenied
  | connectionRefused
  | connectionReset
  | hostUnreachable
  | networkUnreachable
  | connectionAborted
  | notConnected
  | addrInUse
  | addrNotAvailable
  | networkDown
  | brokenPipe
  | alreadyExists
  | wouldBlock
  | notADirectory
  | isADirectory
  | directoryNotEmpty
  | readOnlyFilesystem
  | filesystemLoop
  | staleNetworkFileHandle
  | invalidInput
  | invalidData
  | timedOut
  | writeZero
  | storageFull
  | notSeekable
  | quotaExceeded
  | fileTooLarge
  | resourceBusy
  | executableFileBusy
  | deadlock
  | crossesDevices
  | tooManyLinks
  | invalidFilename
  | argumentListTooLong
  | unsupported
  | unexpectedEof
  | outOfMemory
  | inProgress
  | other
  | uncategorized
  deriving DecidableEq, Repr

namespace WriteError

def name : WriteError → String
  | notFound => "NotFound"
  | permissionDenied => "PermissionDenied"
  | connectionRefused => "ConnectionRefused"
  | connectionReset => "ConnectionReset"
  | hostUnreachable => "HostUnreachable"
  | networkUnreachable => "NetworkUnreachable"
  | connectionAborted => "ConnectionAborted"
  | notConnected => "NotConnected"
  | addrInUse => "AddrInUse"
  | addrNotAvailable => "AddrNotAvailable"
  | networkDown => "NetworkDown"
  | brokenPipe => "BrokenPipe"
  | alreadyExists => "AlreadyExists"
  | wouldBlock => "WouldBlock"
  | notADirectory => "NotADirectory"
  | isADirectory => "IsADirectory"
  | directoryNotEmpty => "DirectoryNotEmpty"
  | readOnlyFilesystem => "ReadOnlyFilesystem"
  | filesystemLoop => "FilesystemLoop"
  | staleNetworkFileHandle => "StaleNetworkFileHandle"
  | invalidInput => "InvalidInput"
  | invalidData => "InvalidData"
  | timedOut => "TimedOut"
  | writeZero => "WriteZero"
  | storageFull => "StorageFull"
  | notSeekable => "NotSeekable"
  | quotaExceeded => "QuotaExceeded"
  | fileTooLarge => "FileTooLarge"
  | resourceBusy => "ResourceBusy"
  | executableFileBusy => "ExecutableFileBusy"
  | deadlock => "Deadlock"
  | crossesDevices => "CrossesDevices"
  | tooManyLinks => "TooManyLinks"
  | invalidFilename => "InvalidFilename"
  | argumentListTooLong => "ArgumentListTooLong"
  | unsupported => "Unsupported"
  | unexpectedEof => "UnexpectedEof"
  | outOfMemory => "OutOfMemory"
  | inProgress => "InProgress"
  | other => "Other"
  | uncategorized => "Uncategorized"

def message : WriteError → String
  | notFound => "entity not found"
  | permissionDenied => "permission denied"
  | connectionRefused => "connection refused"
  | connectionReset => "connection reset"
  | hostUnreachable => "host unreachable"
  | networkUnreachable => "network unreachable"
  | connectionAborted => "connection aborted"
  | notConnected => "not connected"
  | addrInUse => "address in use"
  | addrNotAvailable => "address not available"
  | networkDown => "network down"
  | brokenPipe => "broken pipe"
  | alreadyExists => "entity already exists"
  | wouldBlock => "operation would block"
  | notADirectory => "not a directory"
  | isADirectory => "is a directory"
  | directoryNotEmpty => "directory not empty"
  | readOnlyFilesystem => "read-only filesystem or storage medium"
  | filesystemLoop => "filesystem loop or indirection limit (e.g. symlink loop)"
  | staleNetworkFileHandle => "stale network file handle"
  | invalidInput => "invalid input parameter"
  | invalidData => "invalid data"
  | timedOut => "timed out"
  | writeZero => "write zero"
  | storageFull => "no storage space"
  | notSeekable => "seek on unseekable file"
  | quotaExceeded => "quota exceeded"
  | fileTooLarge => "file too large"
  | resourceBusy => "resource busy"
  | executableFileBusy => "executable file busy"
  | deadlock => "deadlock"
  | crossesDevices => "cross-device link or rename"
  | tooManyLinks => "too many links"
  | invalidFilename => "invalid filename"
  | argumentListTooLong => "argument list too long"
  | unsupported => "unsupported"
  | unexpectedEof => "unexpected end of file"
  | outOfMemory => "out of memory"
  | inProgress => "in progress"
  | other => "other error"
  | uncategorized => "uncategorized error"

def all : List WriteError :=
  [notFound, permissionDenied, connectionRefused, connectionReset, hostUnreachable,
    networkUnreachable, connectionAborted, notConnected, addrInUse, addrNotAvailable, networkDown,
    brokenPipe, alreadyExists, wouldBlock, notADirectory, isADirectory, directoryNotEmpty,
    readOnlyFilesystem, filesystemLoop, staleNetworkFileHandle, invalidInput, invalidData, timedOut,
    writeZero, storageFull, notSeekable, quotaExceeded, fileTooLarge, resourceBusy,
    executableFileBusy, deadlock, crossesDevices, tooManyLinks, invalidFilename,
    argumentListTooLong, unsupported, unexpectedEof, outOfMemory, inProgress, other, uncategorized]

def ofName? (s : String) : Option WriteError :=
  all.find? (·.name = s)

end WriteError

-- ---------------------------------------------------------------------------
-- Faults
-- ---------------------------------------------------------------------------

/-- Why an instruction could not be carried out. A type mismatch gives the names of the kinds. -/
inductive Fault where
  | stackUnderflow
  | stackOverflow (limit : Nat)
  | typeMismatch (expected found : String)
  | divisionByZero
  | outOfBounds (index : Int) (size : Nat)
  | invalidJump (target : Int) (length : Nat)
  | missingOperand
  | stepLimitExceeded (limit : Nat)
  | outputFailed (cause : WriteError)
  deriving DecidableEq, Repr

namespace Fault

def message : Fault → String
  | stackUnderflow => "stack underflow"
  | stackOverflow limit => "stack overflow (limit " ++ limit.repr ++ ")"
  | typeMismatch expected found => "type mismatch: expected " ++ expected ++ ", found " ++ found
  | divisionByZero => "division by zero"
  | outOfBounds index size =>
    "memory access out of bounds: index " ++ index.repr ++ ", size " ++ size.repr
  | invalidJump target length =>
    "invalid jump target " ++ target.repr ++ " (program length " ++ length.repr ++ ")"
  | missingOperand => "missing operand"
  | stepLimitExceeded limit => "step limit of " ++ limit.repr ++ " exceeded"
  | outputFailed cause => "print failed: " ++ cause.message

def name : Fault → String
  | stackUnderflow => "StackUnderflow"
  | stackOverflow _ => "StackOverflow"
  | typeMismatch _ _ => "TypeMismatch"
  | divisionByZero => "DivisionByZero"
  | outOfBounds _ _ => "OutOfBoundsMemoryAccess"
  | invalidJump _ _ => "InvalidJumpTarget"
  | missingOperand => "MissingOperand"
  | stepLimitExceeded _ => "StepLimitExceeded"
  | outputFailed _ => "OutputFailed"

def inspect (fault : Fault) : String :=
  match fault with
  | stackUnderflow | divisionByZero | missingOperand => fault.name
  | stackOverflow limit | stepLimitExceeded limit =>
    Inspect.record fault.name [("limit", limit.repr)]
  | typeMismatch expected found =>
    Inspect.record fault.name [("expected", Text.quote expected), ("found", Text.quote found)]
  | outOfBounds index size =>
    Inspect.record fault.name [("index", index.repr), ("size", size.repr)]
  | invalidJump target length =>
    Inspect.record fault.name [("target", target.repr), ("len", length.repr)]
  | outputFailed cause => Inspect.record fault.name [("kind", cause.name)]

end Fault

-- ---------------------------------------------------------------------------
-- Traps
-- ---------------------------------------------------------------------------

/-- A run stopped by a fault: the index and opcode of the instruction that met it. -/
structure Trap where
  pc : Nat
  opcode : Opcode
  fault : Fault
  deriving DecidableEq, Repr

namespace Trap

def message (trap : Trap) : String :=
  "trap at pc " ++ trap.pc.repr ++ " (" ++ trap.opcode.mnemonic ++ "): " ++ trap.fault.message

def inspect (trap : Trap) : String :=
  Inspect.record "Trap"
    [("pc", trap.pc.repr), ("opcode", trap.opcode.name), ("fault", trap.fault.inspect)]

end Trap

end StackMachine
