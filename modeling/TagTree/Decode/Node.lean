import TagTree.Decode.Layer
import TagTree.Node.Basic

/-!
# Nodes of a tagged tree

A tree is decoded layer by layer, as deep as its arrays are nested.  Nothing is decoded in part:
the first flaw refuses the whole tree.
-/

namespace TagTree.Node

def decodeWithin : Nat → Json → Traced Refusal Node
  | 0, t => .fail (.malformed "tagged tree" (.notTagged t.typeName) t)
  | depth + 1, t => do
    let c ← Decode.layer (decodeWithin depth) t
    pure (.mk c)

def decode (t : Json) : Traced Refusal Node := decodeWithin t.depth t

/-- the node of a tree that may be `null` -/
def decode? (t : Json) : Traced Refusal (Option Node) :=
  if t.isNull then pure none
  else do
    let n ← decode t
    pure (some n)

/-- the node in a slot that may be missing -/
def decodeSlot? : Option Json → Traced Refusal (Option Node)
  | some t => decode? t
  | none => pure none

end TagTree.Node
