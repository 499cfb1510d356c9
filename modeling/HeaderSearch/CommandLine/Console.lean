import HeaderSearch.FileSystem

/-!
# Consoles

A console has a standard stream and an error stream, and both are only written to. A transcript is what
was written; carrying it along makes a console of every file system.
-/

namespace HeaderSearch.CommandLine

/-- What can be written to, in a monad `m`. -/
class Console (m : Type → Type) where
  /-- Writes to the standard stream. -/
  print : String → m Unit
  /-- Writes to the error stream. -/
  printError : String → m Unit

/-- What was written to the streams of a console. -/
structure Transcript where
  /-- What was written to the standard stream. -/
  standard : String := ""
  /-- What was written to the error stream. -/
  error : String := ""
deriving DecidableEq, Repr

variable {m : Type → Type} [Monad m]

instance : Console (StateT Transcript m) where
  print text := modify fun written => { written with standard := written.standard ++ text }
  printError text := modify fun written => { written with error := written.error ++ text }

instance [FileSystem m] : FileSystem (StateT Transcript m) where
  kind? path := StateT.lift (FileSystem.kind? path)
  canonical? path := StateT.lift (FileSystem.canonical? path)
  read path := StateT.lift (FileSystem.read path)

end HeaderSearch.CommandLine
