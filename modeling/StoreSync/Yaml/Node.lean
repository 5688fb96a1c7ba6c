import StoreSync.Data.Tree
import StoreSync.Yaml.Scalar

/-!
# Trees of configuration files

A configuration file is a tree of scalars, sequences and mappings, and the keys of mappings are
scalars.  Typed values are read from it in two ways.  From a `Node` a reader takes what it wants:
a text may be any scalar, and where nothing was written a sequence or mapping is empty.  From a
`TypedNode` it gets what the words stand for, as it would from a data value.
-/

namespace StoreSync.Yaml

/-- A node of a document. -/
inductive Node where
  | scalar (value : Scalar)
  | sequence (items : List Node)
  | mapping (entries : List (Scalar × Node))

instance : Inhabited Node := ⟨.scalar .empty⟩

namespace Node

/-- What stands where nothing was written. -/
def empty : Node := .scalar .empty

def scalar? : Node → Option Scalar
  | .scalar s => some s
  | _ => none

def isEmpty (n : Node) : Bool := n.scalar? = some .empty

end Node

instance : DataTree Node where
  isNull n := n.scalar?.any (·.isNull)
  text? n := n.scalar?.map (·.text)
  flag? n := n.scalar? >>= (·.flag?)
  natural? n := n.scalar? >>= (·.natural?)
  items? n :=
    match n with
    | .sequence items => some items
    | n => if n.isEmpty then some [] else none
  members? n :=
    match n with
    | .mapping entries => some (entries.map fun e => (e.1.text, e.2))
    | n => if n.isEmpty then some [] else none
  unnamed? _ := none
  alternative? n := n.scalar?.map (·.text)

/-- A tree whose words are taken for what they stand for. -/
structure TypedNode where
  node : Node

namespace TypedNode

def text? (t : TypedNode) : Option String := t.node.scalar? >>= (·.text?)

def isNull (t : TypedNode) : Bool := t.node.scalar?.any (·.isNull)

def items? (t : TypedNode) : Option (List TypedNode) :=
  match t.node with
  | .sequence items => some (items.map .mk)
  | _ => none

/-- The entries of a mapping, all of whose keys must be texts. -/
def members? (t : TypedNode) : Option (List (String × TypedNode)) :=
  match t.node with
  | .mapping entries => entries.mapM fun e => e.1.text?.map (·, ⟨e.2⟩)
  | _ => none

end TypedNode

instance : DataTree TypedNode where
  isNull := TypedNode.isNull
  text? := TypedNode.text?
  flag? t := t.node.scalar? >>= (·.flag?)
  natural? t := t.node.scalar? >>= (·.natural?)
  items? := TypedNode.items?
  members? := TypedNode.members?
  unnamed? := TypedNode.items?
  alternative? t :=
    match t.members? with
    | some [(name, body)] => if body.isNull then some name else none
    | _ => t.text?

end StoreSync.Yaml
