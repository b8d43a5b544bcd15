import BlockTracker.Backend.Routing
import BlockTracker.Window.Basic

/-!
# Taking blocks back

A block leaves the window and goes back to its backend in one operation: one block by its handle (`untrack`), or all
of the window in slot order (`drain`).
-/

namespace BlockTracker

/-- What became of a block that was to be released: a block outside the window is left alone. -/
inductive ReleaseOutcome
  | released
  | untracked
deriving DecidableEq, Repr

def ReleaseOutcome.name : ReleaseOutcome → String
  | released => "Released"
  | untracked => "Untracked"

namespace Window

variable {B σ : Type}

/-- Takes the first entry for `h` out of the window and releases its block. -/
def untrack (bs : Backends B σ) (w : Window) (h : Handle) (r : Routing B) (s : σ) :
    ReleaseOutcome × Window × Routing B × σ :=
  match w.erase h with
  | (none, w) => (.untracked, w, r, s)
  | (some e, w) =>
    let (_, r, s) := r.call bs (.release e.handle) s
    (.released, w, r, s)

/-- Releases every block of the window and empties it; tells how many there were. -/
def drain (bs : Backends B σ) (w : Window) (r : Routing B) (s : σ) : Nat × Window × Routing B × σ :=
  let blocks := w.handles
  let (r, s) := r.releaseAll bs blocks s
  (blocks.length, w.clear, r, s)

end Window

end BlockTracker
