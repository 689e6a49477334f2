import MessageCatalog.Catalog.Fault
import MessageCatalog.Notice

/-!
# Operations that leave notices

An operation that may fail and leaves notices on its way. The notices stay also when it fails.
-/

namespace MessageCatalog

/-- The outcome of an operation, with the notices that it leaves. -/
structure Noted (α : Type) where
  outcome : Except Fault α
  notices : List Notice := []

namespace Noted

variable {α β : Type}

def succeed (a : α) : Noted α := ⟨.ok a, []⟩

def fail (fault : Fault) : Noted α := ⟨.error fault, []⟩

/-- Only leaves notices. -/
def leave (notices : List Notice) : Noted Unit := ⟨.ok (), notices⟩

/-- Goes on with the result of an operation, unless it fails. -/
def andThen (x : Noted α) (f : α → Noted β) : Noted β :=
  match x.outcome with
  | .error fault => ⟨.error fault, x.notices⟩
  | .ok a => ⟨(f a).outcome, x.notices ++ (f a).notices⟩

instance : Monad Noted where
  pure := succeed
  bind := andThen

end Noted

end MessageCatalog
