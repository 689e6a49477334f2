import MessageCatalog.Catalog.Basic
import MessageCatalog.Json.Value
import MessageCatalog.Number.Binary64

/-!
# Translation progress

How many messages of a catalog, and of each of its contexts, are in which state. Messages that are
obsolete or vanished are counted together. The share of finished messages is taken of those that are
live; where none are, nothing is left to do.
-/

namespace MessageCatalog.Progress

open Json Number

/-- Numbers of messages. -/
structure Counts where
  messages : Nat := 0
  finished : Nat := 0
  unfinished : Nat := 0
  /-- Messages that are not live. -/
  obsolete : Nat := 0
  /-- Messages that depend on a count. -/
  numerus : Nat := 0
  deriving DecidableEq, Repr, Inhabited

namespace Counts

/-- The sums of two groups' counts. -/
def add (a b : Counts) : Counts where
  messages := a.messages + b.messages
  finished := a.finished + b.finished
  unfinished := a.unfinished + b.unfinished
  obsolete := a.obsolete + b.obsolete
  numerus := a.numerus + b.numerus

instance : Add Counts := ⟨add⟩

/-- The counts of a single message. -/
def ofMessage (m : Message) : Counts where
  messages := 1
  finished := if m.status = .finished then 1 else 0
  unfinished := if m.status = .unfinished then 1 else 0
  obsolete := if m.isLive then 0 else 1
  numerus := if m.numerus then 1 else 0

/-- The sums of counts. -/
def total (counts : List Counts) : Counts :=
  counts.foldl add {}

/-- The counts of a group of messages. -/
def ofMessages (messages : List Message) : Counts :=
  total (messages.map ofMessage)

def live (c : Counts) : Nat :=
  c.finished + c.unfinished

/-- The share of live messages that are finished. -/
def share (c : Counts) : Binary64 :=
  if c.live = 0 then .ofFraction 1 1 else .ofFraction c.finished c.live

/-- The share of live messages that are finished, as a percentage to one decimal place. -/
def percentage (c : Counts) : String :=
  (c.share.mul (Binary64.ofNat 100)).toDecimal

def toJson (c : Counts) : Value :=
  .object [
    ("messages", .count c.messages),
    ("finished", .count c.finished),
    ("unfinished", .count c.unfinished),
    ("obsolete", .count c.obsolete),
    ("numerus", .count c.numerus)]

end Counts

/-- The progress of a catalog: the counts of each context with its name, in order. -/
structure Statistics where
  language : Option String
  contexts : List (String × Counts)
  deriving DecidableEq, Repr

namespace Statistics

def ofCatalog (c : Catalog) : Statistics where
  language := c.language
  contexts := c.contexts.map fun k ↦ (k.name, .ofMessages k.messages)

/-- The counts of the whole catalog. -/
def totals (s : Statistics) : Counts :=
  .total (s.contexts.map (·.2))

def toJson (s : Statistics) : Value :=
  .object [
    ("language", .ofText? s.language),
    ("contexts", .count s.contexts.length),
    ("totals", s.totals.toJson),
    ("per_context", .array (s.contexts.map fun (name, counts) ↦
      .object [("name", .text name), ("counts", counts.toJson)]))]

end Statistics

end MessageCatalog.Progress
