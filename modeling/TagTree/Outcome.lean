import TagTree.Diagnostic
import TagTree.Decode.Node

/-!
# Outcomes of sources

A source is read as a tree and decoded.  Sources do not influence each other; a failure is
attributed to its source.  What happens on the way is told in log entries.

* `Source.result_eq`   a source succeeds iff it reads and decodes, and keeps its own failure.
-/

namespace TagTree

inductive LogEntry where
  /-- a tagged array was recognised -/
  | decoding (event : Event)
  /-- a source was decoded -/
  | decoded (source : String) (kind : Kind)
deriving DecidableEq

structure Outcome where
  name : String
  log : List LogEntry
  result : Except Diagnostic Node

namespace Source

/-- reads a source with the given reader and decodes the tree -/
def outcome (read : String → Except Diagnostic Json) (s : Source) : Outcome :=
  match read s.text with
  | .error d => ⟨s.name, [], .error (d.withSource s)⟩
  | .ok t =>
    let x := Node.decode t
    let log := x.events.map LogEntry.decoding
    match x.result with
    | .error r => ⟨s.name, log, .error ((Diagnostic.ofRefusal r).withSource s)⟩
    | .ok n => ⟨s.name, log ++ [.decoded s.name n.kind], .ok n⟩

theorem result_eq (read : String → Except Diagnostic Json) (s : Source) :
    (s.outcome read).result = match read s.text with
      | .error d => .error (d.withSource s)
      | .ok t => (Node.decode t).result.mapError fun r => (Diagnostic.ofRefusal r).withSource s := by
  unfold outcome
  cases read s.text with
  | error d => rfl
  | ok t => dsimp only; cases (Node.decode t).result <;> rfl

end Source
end TagTree
