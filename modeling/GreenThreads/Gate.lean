/-!
# Gates

Contexts take turns by handing over a baton. Each context waits for it behind a gate of its own:
granting opens the gate, and passing it closes it again. A gate that was discarded stays so, and
whoever waits behind it learns that it must not go on.
-/

namespace GreenThreads

/-- Where the baton of a context stands. -/
inductive Gate where
  /-- The context has to wait. -/
  | closed
  /-- The baton is there and has not been taken. -/
  | opened
  /-- The context never gets the baton again. -/
  | discarded
deriving DecidableEq, Repr, Inhabited

/-- What a context learns when it passes its gate. -/
inductive Passage where
  | proceed
  | discarded
deriving DecidableEq, Repr

namespace Gate

/-- Hands the baton over. -/
def grant : Gate → Gate
  | discarded => discarded
  | closed | opened => opened

/-- Throws the context away. -/
def discard (_ : Gate) : Gate := discarded

/-- Tries to pass: `none` as long as the context has to wait. -/
def pass? : Gate → Option (Gate × Passage)
  | closed => none
  | opened => some (closed, .proceed)
  | discarded => some (discarded, .discarded)

@[simp] theorem grant_eq_discarded_iff (g : Gate) : g.grant = discarded ↔ g = discarded := by
  cases g <;> simp [grant]

@[simp] theorem pass?_grant (g : Gate) :
    g.grant.pass? =
      if g = discarded then some (discarded, .discarded) else some (closed, .proceed) := by
  cases g <;> rfl

end Gate

end GreenThreads
