-- SUMMARY: The files of a host, read and written in any monad.
import StackMachine.Bytecode.Format

/-!
# Hosts

The files that a command reads and writes belong to its host. A host may be the system, or any model of
one: what it does is an action of some monad.
-/

namespace StackMachine.Command

open Bytecode (Bytes)

/-- Why a file could not be read or written: the system's words and its number. -/
structure FileError where
  description : String
  code : Nat
  deriving DecidableEq, Repr

def FileError.message (e : FileError) : String :=
  e.description ++ " (os error " ++ e.code.repr ++ ")"

/-- How files are read and written. A write that fails may leave something behind. -/
structure Host (m : Type → Type) where
  read (path : String) : m (Except FileError Bytes)
  write (path : String) (bytes : Bytes) : m (Except FileError Unit)

end StackMachine.Command
