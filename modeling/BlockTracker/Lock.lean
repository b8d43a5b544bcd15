/-!
# The flag lock

A lock that is one flag.  Taking it sets the flag if it was clear; a taker that finds it set tries again later.  There
is no queue: whoever tries first after the flag is cleared gets the lock.
-/

namespace BlockTracker

structure FlagLock where
  held : Bool
deriving DecidableEq, Repr

namespace FlagLock

def free : FlagLock := ⟨false⟩

/-- Sets the flag if it is clear, in one step; tells whether this call set it. -/
def tryLock (l : FlagLock) : Bool × FlagLock := (!l.held, ⟨true⟩)

def unlock (_ : FlagLock) : FlagLock := ⟨false⟩

/-- What a caller may do with a lock. -/
inductive Action
  | tryLock
  | isLocked
  | lock
  | unlock
  | handOff
deriving DecidableEq, Repr

inductive Reply
  | flag (b : Bool)
  | done
  | wouldBlock
  | notHeld
deriving DecidableEq, Repr

/-- Does one action.  A taker that would have to wait does not wait, and a lock that is free is not cleared.  Where
the lock is handed off, another taker waits for it: the flag is cleared and set again. -/
def act (l : FlagLock) : Action → Reply × FlagLock
  | .tryLock =>
    let (won, l) := l.tryLock
    (.flag won, l)
  | .isLocked => (.flag l.held, l)
  | .lock => if l.held then (.wouldBlock, l) else (.done, l.tryLock.2)
  | .unlock => if l.held then (.done, l.unlock) else (.notHeld, l)
  | .handOff => if l.held then (.flag true, l.unlock.tryLock.2) else (.notHeld, l)

/-- Does the actions of a list in order. -/
def actAll (l : FlagLock) : List Action → List Reply
  | [] => []
  | a :: as => (l.act a).1 :: (l.act a).2.actAll as

end FlagLock

end BlockTracker
