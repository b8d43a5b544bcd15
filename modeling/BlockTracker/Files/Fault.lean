import BlockTracker.Text.Dump

/-!
# Faults of files

Why a file could not be written, with the texts that say so.
-/

namespace BlockTracker

/-- Why a file could not be written. -/
inductive FileFault
  | nullInName
  | notFound
  | alreadyExists
  | notADirectory
  | isADirectory
  | full
  | nameTooLong
deriving DecidableEq, Repr

namespace FileFault

/-- The number of a fault of the system; a name with a null character does not get that far. -/
def code? : FileFault → Option Nat
  | nullInName => none
  | notFound => some 2
  | alreadyExists => some 17
  | notADirectory => some 20
  | isADirectory => some 21
  | full => some 28
  | nameTooLong => some 36

def kind : FileFault → String
  | nullInName => "InvalidInput"
  | notFound => "NotFound"
  | alreadyExists => "AlreadyExists"
  | notADirectory => "NotADirectory"
  | isADirectory => "IsADirectory"
  | full => "StorageFull"
  | nameTooLong => "InvalidFilename"

def text : FileFault → String
  | nullInName => "file name contained an unexpected NUL byte"
  | notFound => "No such file or directory"
  | alreadyExists => "File exists"
  | notADirectory => "Not a directory"
  | isADirectory => "Is a directory"
  | full => "No space left on device"
  | nameTooLong => "File name too long"

def message (f : FileFault) : String :=
  match f.code? with
  | some code => s!"{f.text} (os error {code})"
  | none => f.text

def dump (f : FileFault) : String :=
  let told := [("kind", f.kind), ("message", quoted f.text)]
  match f.code? with
  | some code => Dump.record "Os" (("code", code.repr) :: told)
  | none => Dump.record "Error" told

end FileFault

end BlockTracker
