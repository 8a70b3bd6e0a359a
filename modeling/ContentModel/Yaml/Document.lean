import ContentModel.Notation.Node
import ContentModel.Yaml.Token

/-
# YAML documents

The tokens of a text build one document.  The reader takes one token at a time: either a node is wanted, or
it stands in a collection between two nodes.  Where a node may be left out, it is the empty plain scalar.
An alias stands for the node that its anchor named last.
-/

namespace ContentModel.Yaml

open Notation (Leaf Node)

/-! ## Places in a document -/

/-- The anchor and the tag before a node. -/
structure Properties where
  anchor : Option String
  tag : Option String
  deriving DecidableEq, Repr, Inhabited

/-- No anchor and no tag. -/
def Properties.none : Properties :=
  ⟨.none, .none⟩

/-- The members of a table.  A name that is no scalar has no text. -/
abbrev Pairs := List (Option String × Node)

/-- What a wanted node is for.  What was read before in the same collection is kept last one first. -/
inductive Slot where
  /-- The document, which may be empty if its start is marked. -/
  | document (marked : Bool)
  | item (items : List Node)
  /-- An entry of a sequence that is not further to the right than its key. -/
  | flatItem (items : List Node)
  | key (pairs : Pairs)
  | value (pairs : Pairs) (name : Option String)
  | flowItem (items : List Node)
  /-- The key of the only pair of a table that is an item. -/
  | itemKey (items : List Node)
  | itemValue (items : List Node) (name : Option String)
  | flowKey (pairs : Pairs)
  /-- A key that no colon follows. -/
  | loneKey (pairs : Pairs)
  | flowValue (pairs : Pairs) (name : Option String)
  deriving Repr, Inhabited

/-- Where the reader stands after a node. -/
inductive Rest where
  | document (n : Node)
  | items (items : List Node)
  | flatItems (items : List Node)
  | pairs (pairs : Pairs)
  | named (pairs : Pairs) (name : Option String)
  | flowItems (items : List Node)
  | namedItem (items : List Node) (name : Option String)
  | flowPairs (pairs : Pairs)
  | flowNamed (pairs : Pairs) (name : Option String)
  deriving Repr, Inhabited

/-- An open collection: what it is for, and its properties. -/
abbrev Around := List (Slot × Properties)

/-- Where the reader stands. -/
inductive Place where
  /-- Before the document, after so many directives. -/
  | start (versions : Nat) (handles : List (String × String))
  | want (slot : Slot) (properties : Properties) (around : Around)
  | after (rest : Rest) (around : Around)
  /-- In a flow sequence, at its start or after a comma. -/
  | itemOrEnd (items : List Node) (around : Around)
  /-- In a flow mapping, at its start or after a comma. -/
  | pairOrEnd (pairs : Pairs) (around : Around)
  /-- After the mark of the document's end. -/
  | done (n : Node)
  deriving Repr, Inhabited

/-! ## Nodes -/

/-- A scalar with properties as a node. -/
def scalarNode (text : String) (style : Style) (properties : Properties) : Node :=
  .leaf (Scalar.toLeaf ⟨text, style, properties.tag⟩)

/-- The node that stands where none is written. -/
def emptyNode (properties : Properties) : Node :=
  scalarNode "" .plain properties

/-- A table of pairs, which can be read only if every name has a text. -/
def tableNode (pairs : Pairs) : Node :=
  match Notation.namedMembers? pairs.reverse with
  | some members => .table members
  | none => .leaf .unreadable

/-- How deep collections may be nested that are read. -/
def nestingLimit : Nat := 128

/-- The text of a node that is a name. -/
def nameOf (n : Node) : Option String :=
  n.text?

/-- Puts a node where it is wanted. -/
def Slot.fill (n : Node) : Slot → Rest
  | document _ => .document n
  | item items => .items (n :: items)
  | flatItem items => .flatItems (n :: items)
  | key pairs => .named pairs (nameOf n)
  | value pairs name => .pairs ((name, n) :: pairs)
  | flowItem items => .flowItems (n :: items)
  | itemKey items => .namedItem items (nameOf n)
  | itemValue items name => .flowItems (tableNode [(name, n)] :: items)
  | flowKey pairs => .flowNamed pairs (nameOf n)
  | loneKey pairs => .flowPairs ((nameOf n, emptyNode .none) :: pairs)
  | flowValue pairs name => .flowPairs ((name, n) :: pairs)

/-- Whether a node may be left out before a token. -/
def Slot.mayBeEmpty : Slot → Token → Bool
  | document marked, t => marked && (t == .documentStart || t == .documentEnd)
  | item _, t => t == .entry || t == .blockEnd
  | flatItem _, t => t == .entry || t == .key || t == .value || t == .blockEnd
  | key _, t | value _ _, t => t == .key || t == .value || t == .blockEnd
  | itemKey _, t => t == .value || t == .comma || t == .closeBracket
  | itemValue _ _, t => t == .comma || t == .closeBracket
  | flowKey _, t => t == .value || t == .comma || t == .closeBrace
  | flowValue _ _, t => t == .comma || t == .closeBrace
  | flowItem _, _ | loneKey _, _ => false

/-- Whether a flat sequence may start. -/
def Slot.takesFlat : Slot → Bool
  | key _ | value _ _ => true
  | _ => false

/-! ## Reading tokens one by one -/

/-- The nodes that anchors named, and where the reader stands. -/
structure Reader where
  /-- What the handles of tags stand for. -/
  handles : List (String × String)
  anchors : List (String × Node)
  place : Place
  deriving Repr, Inhabited

namespace Reader

/-- The handles that need no directive. -/
def standardHandles : List (String × String) :=
  [("!", "!"), ("!!", "tag:yaml.org,2002:")]

/-- Before a text. -/
def start : Reader :=
  ⟨standardHandles, [], .start 0 []⟩

/-- Goes on at another place. -/
def goTo (p : Place) (r : Reader) : Reader :=
  { r with place := p }

/-- Puts a node where it is wanted and names it by its anchor. -/
def put (n : Node) (slot : Slot) (properties : Properties) (around : Around) (r : Reader) : Reader :=
  { r with
    anchors := (properties.anchor.map fun a => (a, n)).toList ++ r.anchors
    place := .after (slot.fill n) around }

/-- Ends a collection.  One that is nested too deep cannot be read. -/
def close? (n : Node) (around : Around) (r : Reader) : Option Reader :=
  match around with
  | [] => none
  | (slot, properties) :: outer =>
    let n := if around.length ≤ nestingLimit then n else .leaf .unreadable
    some (r.put n slot properties outer)

/-- The node that an alias stands for; a collection inside itself cannot be read. -/
def alias? (name : String) (around : Around) (r : Reader) : Option Node :=
  if around.any fun (_, properties) => properties.anchor = some name then some (.leaf .unreadable)
  else Keyed.get? name r.anchors

/-- The tag that a handle and the rest of a tag stand for. -/
def tag? (handle rest : String) (r : Reader) : Option String :=
  if handle = "" then some rest else (Keyed.get? handle r.handles).map (· ++ rest)

/-- A token between the pairs of a mapping. -/
def stepPairs? (pairs : Pairs) (around : Around) (r : Reader) : Token → Option Reader
  | .key => some (r.goTo (.want (.key pairs) .none around))
  | .blockEnd => r.close? (tableNode pairs) around
  | _ => none

/-- A token after the key of a mapping. -/
def stepNamed? (pairs : Pairs) (name : Option String) (around : Around) (r : Reader) :
    Token → Option Reader
  | .value => some (r.goTo (.want (.value pairs name) .none around))
  | t => r.stepPairs? ((name, emptyNode .none) :: pairs) around t

/-- A token after an entry of a flat sequence, which any other token than a dash ends. -/
def stepFlatItems? (items : List Node) (around : Around) (r : Reader) : Token → Option Reader
  | .entry => some (r.goTo (.want (.flatItem items) .none around))
  | t => do
    let r ← r.close? (.list items.reverse) around
    match r.place with
    | .after (.pairs pairs) around => r.stepPairs? pairs around t
    | .after (.named pairs name) around => r.stepNamed? pairs name around t
    | _ => none

/-- A token after an item of a flow sequence. -/
def stepFlowItems? (items : List Node) (around : Around) (r : Reader) : Token → Option Reader
  | .comma => some (r.goTo (.itemOrEnd items around))
  | .closeBracket => r.close? (.list items.reverse) around
  | _ => none

/-- A token after a pair of a flow mapping. -/
def stepFlowPairs? (pairs : Pairs) (around : Around) (r : Reader) : Token → Option Reader
  | .comma => some (r.goTo (.pairOrEnd pairs around))
  | .closeBrace => r.close? (tableNode pairs) around
  | _ => none

/-- A token after a node. -/
def stepAfter? (rest : Rest) (around : Around) (r : Reader) (t : Token) : Option Reader :=
  match rest with
  | .document n => if t = .documentEnd then some (r.goTo (.done n)) else none
  | .items items =>
    match t with
    | .entry => some (r.goTo (.want (.item items) .none around))
    | .blockEnd => r.close? (.list items.reverse) around
    | _ => none
  | .flatItems items => r.stepFlatItems? items around t
  | .pairs pairs => r.stepPairs? pairs around t
  | .named pairs name => r.stepNamed? pairs name around t
  | .flowItems items => r.stepFlowItems? items around t
  | .namedItem items name =>
    if t = .value then some (r.goTo (.want (.itemValue items name) .none around))
    else r.stepFlowItems? (tableNode [(name, emptyNode .none)] :: items) around t
  | .flowPairs pairs => r.stepFlowPairs? pairs around t
  | .flowNamed pairs name =>
    if t = .value then some (r.goTo (.want (.flowValue pairs name) .none around))
    else r.stepFlowPairs? ((name, emptyNode .none) :: pairs) around t

/-- A token where a node is wanted and none starts. -/
def stepEmpty? (slot : Slot) (properties : Properties) (around : Around) (r : Reader) (t : Token) :
    Option Reader :=
  if slot.mayBeEmpty t || properties ≠ .none then
    (r.put (emptyNode properties) slot properties around).stepAfter? (slot.fill (emptyNode properties))
      around t
  else none

/-- A token where a node is wanted. -/
def stepWant? (slot : Slot) (properties : Properties) (around : Around) (r : Reader) (t : Token) :
    Option Reader :=
  let inside := (slot, properties) :: around
  match t with
  | .alias name =>
    if properties = .none then
      (r.alias? name around).map fun n => r.goTo (.after (slot.fill n) around)
    else r.stepEmpty? slot properties around t
  | .anchor name =>
    if properties.anchor.isNone then
      some (r.goTo (.want slot { properties with anchor := some name } around))
    else r.stepEmpty? slot properties around t
  | .tag handle rest =>
    if properties.tag.isNone then do
      let tag ← r.tag? handle rest
      some (r.goTo (.want slot { properties with tag := some tag } around))
    else r.stepEmpty? slot properties around t
  | .scalar text style => some (r.put (scalarNode text style properties) slot properties around)
  | .openBracket => some (r.goTo (.itemOrEnd [] inside))
  | .openBrace => some (r.goTo (.pairOrEnd [] inside))
  | .blockSequence => some (r.goTo (.after (.items []) inside))
  | .blockMapping => some (r.goTo (.after (.pairs []) inside))
  | .entry =>
    if slot.takesFlat then some (r.goTo (.want (.flatItem []) .none inside))
    else r.stepEmpty? slot properties around t
  | t => r.stepEmpty? slot properties around t

/-- A directive. -/
def stepDirective? (versions : Nat) (handles : List (String × String)) (r : Reader) :
    Token → Option Reader
  | .version major minor =>
    if versions = 0 ∧ major = 1 ∧ (minor = 1 ∨ minor = 2) then some (r.goTo (.start 1 handles)) else none
  | .tagHandle handle start =>
    if (handles.map Prod.fst).contains handle then none
    else some (r.goTo (.start versions ((handle, start) :: handles)))
  | .documentStart =>
    some ⟨handles ++ standardHandles, [], .want (.document true) .none []⟩
  | t => if versions = 0 ∧ handles = [] then r.stepWant? (.document false) .none [] t else none

/-- One more token. -/
def step? (r : Reader) (t : Token) : Option Reader :=
  match r.place with
  | .start versions handles => r.stepDirective? versions handles t
  | .want slot properties around => r.stepWant? slot properties around t
  | .after rest around => r.stepAfter? rest around t
  | .itemOrEnd items around =>
    match t with
    | .closeBracket => r.close? (.list items.reverse) around
    | .key => some (r.goTo (.want (.itemKey items) .none around))
    | t => r.stepWant? (.flowItem items) .none around t
  | .pairOrEnd pairs around =>
    match t with
    | .closeBrace => r.close? (tableNode pairs) around
    | .key => some (r.goTo (.want (.flowKey pairs) .none around))
    | t => r.stepWant? (.loneKey pairs) .none around t
  | .done n => if t = .documentEnd then some (r.goTo (.done n)) else none

/-- The document at the end of the tokens. -/
def document? (r : Reader) : Option Node :=
  match r.place with
  | .after (.document n) _ => some n
  | .done n => some n
  | .want (.document marked) properties _ =>
    if marked || properties ≠ .none then some (emptyNode properties) else none
  | _ => none

end Reader

/-- Reads a YAML text, which holds one document. -/
def parse? (text : String) : Option Node := do
  (← (← Token.read? text.toList).foldlM Reader.step? .start).document?

end ContentModel.Yaml
