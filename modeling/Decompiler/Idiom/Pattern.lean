/- # Decompiler.Idiom.Pattern — pattern text and the tree it stands for

```text
line := spaces kind rule*
```

Each line that is not blank is a node. Its depth is the number of its leading spaces
past those of the first such line, so a child is indented by exactly one space more
than its parent. Nodes that may still get children are kept open, the innermost first;
a node is given to its parent when it is closed, so nothing half-built is left of a
text that is refused. The first line that cannot stand where it stands, or that has a
bad rule, is the one reported.
-/
import Decompiler.Idiom.Node

namespace Decompiler.Idiom

set_option autoImplicit false

/-- A line of pattern text that is not blank. -/
structure Line where
  /-- Counted from one, blank lines included. -/
  number : Nat
  /-- The number of leading spaces. -/
  indent : Nat
  /-- What follows them. -/
  content : List Char
deriving DecidableEq, Repr

namespace Line

def ofText (text : List Char) (number : Nat) : Line :=
  ⟨number, (text.takeWhile (· == ' ')).length, text.dropWhile (· == ' ')⟩

/-- Those of the lines that are not blank, numbered on from `first`. -/
def linesFrom (first : Nat) (lines : List (List Char)) : List Line :=
  (lines.zipIdx first).filterMap fun (line, number) =>
    if line.all Text.isBlank then none else some (ofText line number)

/-- The lines of a text that are not blank. -/
def ofPattern (text : List Char) : List Line :=
  linesFrom 1 (Text.lines text)

/-- The kind and the rules that a line spells. -/
def parse (content : List Char) : Except RuleFault (NodeKind × List Rule) :=
  match Text.words content with
  | [] => .ok (.ofWord "", [])
  | word :: tokens => do
      let kind := NodeKind.ofWord (String.ofList word)
      let rules ← tokens.mapM (Rule.parse kind)
      return (kind, rules)

end Line

/-- A pattern: the tree of one text. -/
structure Pattern where
  root : Node

/-- A pattern while its text is read. -/
structure Assembly where
  /-- The indentation of the first line. -/
  base : Option Nat
  /-- The nodes that may still get children, each below the next. -/
  opened : List Node
  /-- The tree, once its root is closed. -/
  root : Option Node

namespace Assembly

def start : Assembly := ⟨none, [], none⟩

/-- Gives the innermost open node to its parent, or makes it the root if it has none. -/
def closeTop (assembly : Assembly) : Assembly :=
  match assembly.opened with
  | [] => assembly
  | [node] => { assembly with opened := [], root := some node }
  | node :: parent :: rest => { assembly with opened := parent.pushChild node :: rest }

def close : Nat → Assembly → Assembly
  | 0, assembly => assembly
  | count + 1, assembly => close count assembly.closeTop

/-- Closes nodes until no more than `depth` of them are open. -/
def closeTo (depth : Nat) (assembly : Assembly) : Assembly :=
  assembly.close (assembly.opened.length - depth)

/-- The depth at which a line stands. The line before it has the innermost open node, so one that is
deeper than there are open nodes skips a level. -/
def depthOf (assembly : Assembly) (line : Line) : Except LineFault Nat :=
  if line.content.head? = some '\t' then .error .tabIndent
  else
    match assembly.base with
    | none => .ok 0
    | some base =>
        if line.indent ≤ base then .error .multipleRoots
        else if assembly.opened.length < line.indent - base then .error .indentTooDeep
        else .ok (line.indent - base)

/-- Opens a node below those that stay open at its depth. -/
def openAt (base depth : Nat) (node : Node) (assembly : Assembly) : Assembly :=
  let above := assembly.closeTo depth
  ⟨some base, node :: above.opened, above.root⟩

/-- Reads one line more. -/
def add (assembly : Assembly) (line : Line) : Except PatternError Assembly :=
  match assembly.depthOf line with
  | .error fault => .error (.line line.number fault)
  | .ok depth =>
      match Line.parse line.content with
      | .error fault => .error (.line line.number (.rule fault))
      | .ok (kind, rules) =>
          .ok (assembly.openAt (assembly.base.getD line.indent) depth ⟨kind, rules, []⟩)

/-- The pattern, when all lines are read. -/
def finish (assembly : Assembly) : Except PatternError Pattern :=
  match (assembly.closeTo 0).root with
  | some root => .ok ⟨root⟩
  | none => .error .empty

end Assembly

namespace Pattern

/-- The pattern that a text stands for. -/
def compile (text : String) : Except PatternError Pattern := do
  let assembly ← (Line.ofPattern text.toList).foldlM Assembly.add .start
  assembly.finish

def nodeCount (pattern : Pattern) : Nat := pattern.root.size

instance : BEq Pattern := ⟨fun a b => a.root == b.root⟩

end Pattern

end Decompiler.Idiom
