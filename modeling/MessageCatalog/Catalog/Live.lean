import MessageCatalog.Catalog.Basic

/-!
# The live part of a catalog

Checks and lookups see a catalog's language, the names of its contexts and, of each live message,
its key, its numerus flag and its translation. Everything else is there for translators: messages
that are no longer used, places in the source, remarks, and whether a comment is absent or empty.
-/

namespace MessageCatalog

/-- What counts of a live message. -/
structure LiveMessage where
  source : String
  comment : String
  numerus : Bool
  translation : Translation
  deriving DecidableEq, Repr

/-- What counts of a context. -/
structure LiveContext where
  name : String
  messages : List LiveMessage
  deriving DecidableEq, Repr

/-- What counts of a catalog. -/
structure LiveView where
  language : Option String
  contexts : List LiveContext
  deriving DecidableEq, Repr

/-- What counts of a message that is live. -/
def Message.liveView (m : Message) : LiveMessage :=
  ⟨m.source, m.commentKey, m.numerus, m.translation⟩

/-- The live messages of a context. -/
def Context.live (k : Context) : List Message :=
  k.messages.filter (·.isLive)

theorem Context.live_eq_filter (k : Context) :
    k.live = k.messages.filter fun m ↦ m.status = .finished ∨ m.status = .unfinished :=
  List.filter_congr fun m _ ↦ by rw [Bool.eq_iff_iff, Message.isLive_iff, decide_eq_true_eq]

@[simp] theorem Context.mem_live_iff {k : Context} {m : Message} :
    m ∈ k.live ↔ m ∈ k.messages ∧ (m.status = .finished ∨ m.status = .unfinished) := by
  rw [live, List.mem_filter, Message.isLive_iff]

def Context.liveView (k : Context) : LiveContext :=
  ⟨k.name, k.live.map Message.liveView⟩

/-- What counts of a catalog. -/
def Catalog.liveView (c : Catalog) : LiveView :=
  ⟨c.language, c.contexts.map Context.liveView⟩

end MessageCatalog
