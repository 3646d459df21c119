namespace TableProfiling

inductive StorageFault
  | notFound
  | notADirectory
  | isADirectory
  | alreadyExists
  | invalidFilename
  | invalidInput
  | invalidData
  | storageFull
  -- The file has been closed before.
  | closed
  | other (message : String)
  deriving DecidableEq, Repr

def StorageFault.text : StorageFault → String
  | .notFound => "No such file or directory (os error 2)"
  | .notADirectory => "Not a directory (os error 20)"
  | .isADirectory => "Is a directory (os error 21)"
  | .alreadyExists => "File exists (os error 17)"
  | .invalidFilename => "File name too long (os error 36)"
  | .invalidInput => "file name contained an unexpected NUL byte"
  | .invalidData => "stream did not contain valid UTF-8"
  | .storageFull => "No space left on device (os error 28)"
  | .closed => "file sink is already closed"
  | .other message => message

end TableProfiling
