import Gitwork.Error
import Gitwork.Path

/-! # Reference locks

    One table for the whole process.  A key is the directory of a repository,
    compared as a path, and the name of a reference.  Acquiring never waits:
    a held key is a conflict.  A guard stands for one held key, and dropping
    it releases the key. -/

namespace Gitwork

/-- What is locked: the components of a directory, and a name in it. -/
structure LockKey where
  dir : List PathStep
  refname : String
deriving DecidableEq, Repr, Inhabited

/-- The guard of a held key; it keeps the spelling of the directory. -/
structure RefLock where
  dir : String
  refname : String
deriving DecidableEq, Repr, Inhabited

def LockKey.of (dir refname : String) : LockKey := ⟨Path.steps dir, refname⟩

def RefLock.key (g : RefLock) : LockKey := .of g.dir g.refname

/-- The keys that live guards hold. -/
abbrev LockTable := List LockKey

namespace LockTable

def isLocked (held : LockTable) (dir refname : String) : Bool := held.contains (.of dir refname)

/-- Takes a free key. -/
def acquire (held : LockTable) (dir refname : String) : Except Error (RefLock × LockTable) :=
  if held.isLocked dir refname then .error (.lockConflict refname)
  else .ok (⟨dir, refname⟩, .of dir refname :: held)

/-- Gives a key back. -/
def release (held : LockTable) (g : RefLock) : LockTable := held.filter (· != g.key)

/-- Gives several keys back. -/
def releaseAll (held : LockTable) (gs : List RefLock) : LockTable := gs.foldl release held

end LockTable

end Gitwork
