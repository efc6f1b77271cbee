/- # Decompiler.Idiom.Node — pattern trees

A node has a kind, rules and children, the last two in the order of the pattern text.
`preorder` lists a tree node by node with its depth.
-/
import Decompiler.Idiom.Rule

namespace Decompiler.Idiom

set_option autoImplicit false

/-- A node of a pattern, with everything below it. -/
structure Node where
  kind : NodeKind
  rules : List Rule
  children : List Node

/-- A node without its children, at its depth. -/
structure Row where
  depth : Nat
  kind : NodeKind
  rules : List Rule
deriving DecidableEq, Repr

namespace Node

/-- The rules on a property, in order. -/
def rulesFor (node : Node) (property : Property) : List Rule :=
  node.rules.filter (·.property == property)

/-- The value of the first rule on a property. -/
def rule? (node : Node) (property : Property) : Option RuleValue :=
  (node.rulesFor property).head?.map (·.value)

/-- The node with one child more, behind the others. -/
def pushChild (node child : Node) : Node :=
  { node with children := node.children ++ [child] }

/-- The node below this one along a path of child positions. -/
def descendant? (node : Node) : List Nat → Option Node
  | [] => some node
  | index :: path =>
      match node.children[index]? with
      | some child => child.descendant? path
      | none => none

end Node

mutual

/-- The number of nodes, the root included. -/
def Node.size : Node → Nat
  | ⟨_, _, children⟩ => 1 + Node.sizeList children

def Node.sizeList : List Node → Nat
  | [] => 0
  | node :: rest => node.size + Node.sizeList rest

end

mutual

/-- The rows of a tree whose root is at `depth`. -/
def Node.preorder (depth : Nat) : Node → List Row
  | ⟨kind, rules, children⟩ => ⟨depth, kind, rules⟩ :: Node.preorderList (depth + 1) children

def Node.preorderList (depth : Nat) : List Node → List Row
  | [] => []
  | node :: rest => node.preorder depth ++ Node.preorderList depth rest

end

mutual

@[simp] theorem Node.length_preorder (depth : Nat) :
    ∀ node : Node, (node.preorder depth).length = node.size
  | ⟨_, _, children⟩ => by
      simp only [Node.preorder, Node.size, List.length_cons, length_preorderList]
      omega

theorem Node.length_preorderList (depth : Nat) :
    ∀ nodes : List Node, (Node.preorderList depth nodes).length = Node.sizeList nodes
  | [] => rfl
  | node :: rest => by
      simp [Node.preorderList, Node.sizeList, length_preorder depth node,
        length_preorderList depth rest]

end

mutual

def Node.equal : Node → Node → Bool
  | ⟨kind, rules, children⟩, ⟨kind', rules', children'⟩ =>
      kind == kind' && rules == rules' && Node.equalList children children'

def Node.equalList : List Node → List Node → Bool
  | [], [] => true
  | node :: rest, node' :: rest' => node.equal node' && Node.equalList rest rest'
  | _, _ => false

end

instance : BEq Node := ⟨Node.equal⟩

end Decompiler.Idiom
