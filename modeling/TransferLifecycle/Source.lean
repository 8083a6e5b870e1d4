import TransferLifecycle.ReplayError

set_option autoImplicit false

/- What the path of a command log leads to, and why it may fail to open. Opening fails for one of a
few reasons, each with a fixed text; reading never fails, because an error of reading ends the log.
-/
namespace TransferLifecycle

inductive OpenFailure where
  | notFound
  | permissionDenied
  | notDirectory
  | nameTooLong
  | nulByte
  deriving DecidableEq, Repr

def OpenFailure.message : OpenFailure → String
  | notFound => "No such file or directory (os error 2)"
  | permissionDenied => "Permission denied (os error 13)"
  | notDirectory => "Not a directory (os error 20)"
  | nameTooLong => "File name too long (os error 36)"
  | nulByte => "file name contained an unexpected NUL byte"

/-- What a path leads to: nothing that opens, something that opens but cannot be read, or bytes. -/
inductive Source where
  | closed (reason : OpenFailure)
  | unreadable
  | bytes (content : List UInt8)
  deriving DecidableEq, Repr

/-- What reading gives, where an error of reading counts as the end. -/
def Source.open? (path : String) : Source → Except ReplayError (List UInt8)
  | closed reason => .error (.cannotOpen path reason.message)
  | unreadable => .ok []
  | bytes content => .ok content

end TransferLifecycle
