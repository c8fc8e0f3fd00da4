/-
# UriRouting.Yaml.Node — the tree of a document

A document is a node: a scalar, a sequence of nodes or a mapping from nodes to nodes.  A collection
is written as a block, which indentation holds together, or as a flow between brackets; what is left
out is an empty plain scalar.  A node can be given an anchor, and a reference to the anchor stands
for that node.

`ofText?` reads a text that holds exactly one document.
-/
import UriRouting.Yaml.Lexeme

namespace UriRouting.Yaml

/-- **`Node`** — a node of a document, with its tag if it has one. -/
inductive Node
  | scalar (text : Text) (plain : Bool) (tag : Option Text)
  | sequence (items : List Node) (tag : Option Text)
  | mapping (entries : List (Node × Node)) (tag : Option Text)
  deriving Repr, Inhabited

namespace Node

/-- What is left out. -/
def absent : Node := .scalar [] true none

/-- The nodes that have an anchor, the latest first. -/
abbrev Anchors := List (Text × Node)

/-- What is left to read, and the anchors known so far. -/
structure Input where
  lexemes : List Lexeme
  anchors : Anchors := []

/-- A reading step. -/
abbrev Reading (α : Type) := Input → Except YamlError (α × Input)

def Input.drop (i : Input) : Input := { i with lexemes := i.lexemes.tail }

/-- The next lexeme. -/
def Input.peek (i : Input) : Lexeme := i.lexemes.headD .streamEnd

/-- The anchor and the tag in front of a node, in either order. -/
def properties (i : Input) : Option Text × Option Text × Input :=
  match i.lexemes with
  | .anchor a :: .tag t :: rest => (some a, some t, { i with lexemes := rest })
  | .tag t :: .anchor a :: rest => (some a, some t, { i with lexemes := rest })
  | .anchor a :: rest => (some a, none, { i with lexemes := rest })
  | .tag t :: rest => (none, some t, { i with lexemes := rest })
  | _ => (none, none, i)

/-- The tag `!` says no more than no tag. -/
def specificTag : Option Text → Option Text
  | some ['!'] => none
  | tag => tag

mutual

/-- **`node`** — a node; `block` allows block collections, `indentless` also a sequence whose entries
are not indented. -/
def node : Nat → Bool → Bool → Reading Node
  | 0, _, _, _ => .error .unexpectedLexeme
  | fuel + 1, block, indentless, i =>
    match i.peek with
    | .reference name =>
      match i.anchors.lookup name with
      | some n => .ok (n, i.drop)
      | none => .error .unknownAnchor
    | _ => do
      let (anchor, tag, i) := properties i
      let (n, i) ← content fuel block indentless (anchor.isSome || tag.isSome) (specificTag tag) i
      match anchor with
      | some a => return (n, { i with anchors := (a, n) :: i.anchors })
      | none => return (n, i)

/-- A node after its properties; `named` says that there are some, and then the rest may be left
out. -/
def content : Nat → Bool → Bool → Bool → Option Text → Reading Node
  | 0, _, _, _, _, _ => .error .unexpectedLexeme
  | fuel + 1, block, indentless, named, tag, i =>
    match i.peek with
    | .scalar t plain => .ok (.scalar t plain tag, i.drop)
    | .flowSequenceStart => do
      let (items, i) ← flowItems fuel true i.drop
      return (.sequence items tag, i)
    | .flowMappingStart => do
      let (entries, i) ← flowEntries fuel true i.drop
      return (.mapping entries tag, i)
    | .blockEntry =>
      if indentless then do
        let (items, i) ← indentlessItems fuel i
        return (.sequence items tag, i)
      else if named then .ok (.scalar [] true tag, i)
      else .error .unexpectedLexeme
    | .sequenceStart =>
      if block then do
        let (items, i) ← blockItems fuel i.drop
        return (.sequence items tag, i)
      else if named then .ok (.scalar [] true tag, i)
      else .error .unexpectedLexeme
    | .mappingStart =>
      if block then do
        let (entries, i) ← blockEntries fuel i.drop
        return (.mapping entries tag, i)
      else if named then .ok (.scalar [] true tag, i)
      else .error .unexpectedLexeme
    | _ => if named then .ok (.scalar [] true tag, i) else .error .unexpectedLexeme

/-- The entries of a block sequence and its end. -/
def blockItems : Nat → Reading (List Node)
  | 0, _ => .error .unexpectedLexeme
  | fuel + 1, i =>
    match i.peek with
    | .blockEnd => .ok ([], i.drop)
    | .blockEntry => do
      let i := i.drop
      let (n, i) ← match i.peek with
        | .blockEntry => pure (absent, i)
        | .blockEnd => pure (absent, i)
        | _ => node fuel true false i
      let (ns, i) ← blockItems fuel i
      return (n :: ns, i)
    | _ => .error .unexpectedLexeme

/-- The entries of a sequence that is not indented; nothing marks its end. -/
def indentlessItems : Nat → Reading (List Node)
  | 0, _ => .error .unexpectedLexeme
  | fuel + 1, i =>
    match i.peek with
    | .blockEntry => do
      let i := i.drop
      let (n, i) ← match i.peek with
        | .blockEntry | .key | .value | .blockEnd => pure (absent, i)
        | _ => node fuel true false i
      let (ns, i) ← indentlessItems fuel i
      return (n :: ns, i)
    | _ => .ok ([], i)

/-- The entries of a block mapping and its end. -/
def blockEntries : Nat → Reading (List (Node × Node))
  | 0, _ => .error .unexpectedLexeme
  | fuel + 1, i =>
    match i.peek with
    | .blockEnd => .ok ([], i.drop)
    | .key => do
      let i := i.drop
      let (k, i) ← match i.peek with
        | .key | .value | .blockEnd => pure (absent, i)
        | _ => node fuel true true i
      let (v, i) ← match i.peek with
        | .value =>
          let i := i.drop
          match i.peek with
          | .key | .value | .blockEnd => pure (absent, i)
          | _ => node fuel true true i
        | _ => pure (absent, i)
      let (rest, i) ← blockEntries fuel i
      return ((k, v) :: rest, i)
    | _ => .error .unexpectedLexeme

/-- The items of a flow sequence and its end; before all but the first stands a comma. -/
def flowItems : Nat → Bool → Reading (List Node)
  | 0, _, _ => .error .unexpectedLexeme
  | fuel + 1, first, i =>
    match i.peek with
    | .flowSequenceEnd => .ok ([], i.drop)
    | l => do
      let i ← if first then pure i
        else if l = .flowEntry then pure i.drop
        else .error .unexpectedLexeme
      match i.peek with
      | .flowSequenceEnd => return ([], i.drop)
      | .key => do
        let (entry, i) ← singlePair fuel i.drop
        let (ns, i) ← flowItems fuel false i
        return (.mapping [entry] none :: ns, i)
      | _ => do
        let (n, i) ← node fuel false false i
        let (ns, i) ← flowItems fuel false i
        return (n :: ns, i)

/-- A mapping of one entry without braces, as an item of a flow sequence. -/
def singlePair : Nat → Reading (Node × Node)
  | 0, _ => .error .unexpectedLexeme
  | fuel + 1, i => do
    let (k, i) ← match i.peek with
      | .value | .flowEntry | .flowSequenceEnd => pure (absent, i)
      | _ => node fuel false false i
    match i.peek with
    | .value =>
      let i := i.drop
      match i.peek with
      | .flowEntry | .flowSequenceEnd => return ((k, absent), i)
      | _ => do
        let (v, i) ← node fuel false false i
        return ((k, v), i)
    | _ => return ((k, absent), i)

/-- The entries of a flow mapping and its end; before all but the first stands a comma. -/
def flowEntries : Nat → Bool → Reading (List (Node × Node))
  | 0, _, _ => .error .unexpectedLexeme
  | fuel + 1, first, i =>
    match i.peek with
    | .flowMappingEnd => .ok ([], i.drop)
    | l => do
      let i ← if first then pure i
        else if l = .flowEntry then pure i.drop
        else .error .unexpectedLexeme
      match i.peek with
      | .flowMappingEnd => return ([], i.drop)
      | .key => do
        let i := i.drop
        let (k, i) ← match i.peek with
          | .value | .flowEntry | .flowMappingEnd => pure (absent, i)
          | _ => node fuel false false i
        let (v, i) ← match i.peek with
          | .value =>
            let i := i.drop
            match i.peek with
            | .flowEntry | .flowMappingEnd => pure (absent, i)
            | _ => node fuel false false i
          | _ => pure (absent, i)
        let (rest, i) ← flowEntries fuel false i
        return ((k, v) :: rest, i)
      | _ => do
        let (k, i) ← node fuel false false i
        let (rest, i) ← flowEntries fuel false i
        return ((k, absent) :: rest, i)

end

/-- The document after its start. -/
def documentContent (i : Input) : Except YamlError (Node × Input) :=
  match i.peek with
  | .directive | .documentStart | .documentEnd | .streamEnd => .ok (absent, i)
  | _ => node (4 * i.lexemes.length + 4) true false i

/-- The only document of a text. -/
def ofLexemes? (lexemes : List Lexeme) : Except YamlError Node := do
  let (n, i) ← match lexemes with
    | [] => .error .noDocument
    | .streamEnd :: _ => .error .noDocument
    | .documentStart :: rest => documentContent ⟨rest, []⟩
    | .directive :: rest =>
      match rest.dropWhile (· = .directive) with
      | .documentStart :: rest => documentContent ⟨rest, []⟩
      | _ => .error .unexpectedLexeme
    | ls => node (4 * ls.length + 4) true false ⟨ls, []⟩
  match i.lexemes.dropWhile (· = .documentEnd) with
  | .streamEnd :: _ => return n
  | .documentStart :: _ => .error .severalDocuments
  | _ => .error .unexpectedLexeme

/-- **`ofText? t`** — the tree of the only document in the text. -/
def ofText? (t : Text) : Except YamlError Node := do ofLexemes? (← Lexeme.ofText? t)

end Node

end UriRouting.Yaml
