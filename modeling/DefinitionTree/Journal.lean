/-
DefinitionTree/Journal.lean

Computations that keep a journal.

Fetching a definition tolerates almost everything, and notes what it did not
expect.  A `Journal` is the notes made, in order, together with the outcome; the
notes made before a failure are kept.  Notes never influence an outcome:
`outcome_bind` says that the outcome of a sequence is the sequence of the
outcomes, so every statement about results can be made without them.
-/
import DefinitionTree.Failure

namespace DefinitionTree

/-! ### Notes -/

/-- How much a note matters. -/
inductive Level where
  | debug
  | info
  | warning
deriving DecidableEq, Repr

/-- Which activity a note is about. -/
inductive Topic where
  | normalizing
  | resolving
  | definitions
deriving DecidableEq, Repr

/-- One note. -/
structure Note where
  level : Level
  topic : Topic
  text : String
deriving DecidableEq, Repr

/-- The name of a level. -/
def Level.text : Level → String
  | .debug => "DEBUG"
  | .info => "INFO"
  | .warning => "WARNING"

/-- The name of a topic. -/
def Topic.text : Topic → String
  | .normalizing => "analyticdefs.kernel.normalize"
  | .resolving => "analyticdefs.kernel.references"
  | .definitions => "analyticdefs.analytics"

/-- The line that shows a note. -/
def Note.line (n : Note) : String := n.level.text ++ " " ++ n.topic.text ++ ": " ++ n.text

/-! ### Journals -/

/-- An outcome, and the notes made on the way to it. -/
structure Journal (α : Type) where
  notes : List Note
  outcome : Except Failure α

namespace Journal

variable {α β : Type}

/-- An outcome without notes. -/
def of (outcome : Except Failure α) : Journal α := ⟨[], outcome⟩

/-- A single note. -/
def note (level : Level) (topic : Topic) (text : String) : Journal Unit :=
  ⟨[⟨level, topic, text⟩], .ok ()⟩

/-- A note that is made only under a condition. -/
def noteIf (condition : Bool) (level : Level) (topic : Topic) (text : Unit → String) :
    Journal Unit :=
  if condition then note level topic (text ()) else of (.ok ())

/-- First one journal, then the next, unless the first fails. -/
protected def bind (j : Journal α) (f : α → Journal β) : Journal β :=
  match j.outcome with
  | .ok a => ⟨j.notes ++ (f a).notes, (f a).outcome⟩
  | .error e => ⟨j.notes, .error e⟩

instance : Monad Journal where
  pure a := of (.ok a)
  bind := Journal.bind

instance : MonadExcept Failure Journal where
  throw e := of (.error e)
  tryCatch j handle :=
    match j.outcome with
    | .ok _ => j
    | .error e => ⟨j.notes ++ (handle e).notes, (handle e).outcome⟩

/-! ### Outcomes -/

@[simp] theorem outcome_of (x : Except Failure α) : (of x).outcome = x := rfl

@[simp] theorem outcome_pure (a : α) : (pure a : Journal α).outcome = .ok a := rfl

@[simp] theorem outcome_note (l : Level) (t : Topic) (s : String) :
    (note l t s).outcome = .ok () := rfl

@[simp] theorem outcome_noteIf (c : Bool) (l : Level) (t : Topic) (s : Unit → String) :
    (noteIf c l t s).outcome = .ok () := by
  cases c <;> rfl

@[simp] theorem outcome_bind (j : Journal α) (f : α → Journal β) :
    (j >>= f).outcome = (j.outcome >>= fun a => (f a).outcome) := by
  show (Journal.bind j f).outcome = _
  unfold Journal.bind
  rcases h : j.outcome with e | a <;> rfl

@[simp] theorem outcome_map (g : α → β) (j : Journal α) :
    (g <$> j).outcome = g <$> j.outcome := by
  show (Journal.bind j fun a => of (.ok (g a))).outcome = _
  unfold Journal.bind
  rcases h : j.outcome with e | a <;> rfl

end Journal

end DefinitionTree
