import Pointbreak.Model.Ids

/-!
# Model.File

A changed file of a captured diff, as far as its identity goes: paths, modes and object ids of its
two sides, and what kind of change it is.
-/

namespace Pointbreak

inductive FileStatus where
  | modified | added | deleted | renamed | copied
deriving DecidableEq

structure DiffFile where
  status : FileStatus
  oldPath : Option Text
  newPath : Option Text
  oldMode : Option Text
  newMode : Option Text
  oldOid : Option Text
  newOid : Option Text
  isBinary : Bool
  isSubmodule : Bool
  isModeOnly : Bool
  synthetic : Bool
deriving DecidableEq

end Pointbreak
