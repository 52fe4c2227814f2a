import Haml.Path
/-! Files: what a program may do with them by path, and why it may fail. -/

namespace Haml

inductive FileFault where
  | missing
  | isDirectory
  | notDirectory
  | nameTooLong
  | notText
  | other (reason : String)
  deriving DecidableEq, Repr

def FileFault.text : FileFault → String
  | missing => "No such file or directory (os error 2)"
  | isDirectory => "Is a directory (os error 21)"
  | notDirectory => "Not a directory (os error 20)"
  | nameTooLong => "File name too long (os error 36)"
  | notText => "stream did not contain valid UTF-8"
  | other reason => reason

structure Files (m : Type → Type) where
  read : String → m (Except FileFault String)
  isFile : String → m Bool
  /-- Gives a file its contents, where a directory is there to hold it. -/
  write : String → String → m (Except FileFault Unit)

end Haml
