import PackPlan.Yaml.Layout
import PackPlan.Yaml.Node

/-!
# PackPlan.Yaml.Tree

From tokens to a document. The grammar is read top down; a node that is left out is an empty plain
scalar. A text holds one document at most.
-/

namespace PackPlan
namespace Yaml

/-- A document as a tree: its root, unless the text is empty, and its anchors. -/
structure Tree where
  root : Option Node
  anchors : Anchors

/-- The node that a node stands for. -/
def Tree.deref (t : Tree) : Node → Node
  | .alias m number => (t.anchors.node? number).getD (.alias m number)
  | n => n

/-- What is left to read, the anchors so far, and what tag handles stand for. -/
structure Stream where
  tokens : List Placed
  anchors : Anchors
  handles : List (List Char × List Char)

namespace Stream

def drop (s : Stream) : Stream := { s with tokens := s.tokens.drop 1 }

def next? (s : Stream) : Option Token := s.tokens.head?.map Placed.token

def mark (s : Stream) : Mark := (s.tokens.head?.map Placed.start).getD .origin

end Stream

/-- The node that is left out at a mark. -/
def emptyAt (m : Mark) : Node := .scalar m ⟨none, .plain, []⟩

/-- What stands before the content of a node. -/
structure Properties where
  mark : Mark
  anchor : Option (List Char)
  tag : Option (List Char)

/-- The tag that a handle and a suffix make, if the handle is known. -/
def resolveTag? (handles : List (List Char × List Char)) (handle suffix : List Char) :
    Option (List Char) :=
  if handle.isEmpty then some suffix else (handles.lookup handle).map fun lead => lead ++ suffix

/-- The properties of a node: an anchor and a tag in either order, or one of them, or neither. -/
def properties? (s : Stream) : Option (Properties × Stream) :=
  match s.tokens with
  | ⟨.anchor name, m, _⟩ :: ⟨.tag handle suffix, _, _⟩ :: rest =>
    (resolveTag? s.handles handle suffix).map fun tag =>
      (⟨m, some name, some tag⟩, { s with tokens := rest })
  | ⟨.tag handle suffix, m, _⟩ :: ⟨.anchor name, _, _⟩ :: rest =>
    (resolveTag? s.handles handle suffix).map fun tag =>
      (⟨m, some name, some tag⟩, { s with tokens := rest })
  | ⟨.anchor name, m, _⟩ :: rest => some (⟨m, some name, none⟩, { s with tokens := rest })
  | ⟨.tag handle suffix, m, _⟩ :: rest =>
    (resolveTag? s.handles handle suffix).map fun tag =>
      (⟨m, none, some tag⟩, { s with tokens := rest })
  | _ => some (⟨s.mark, none, none⟩, s)

def startNode (p : Properties) (s : Stream) : Option Nat × Stream :=
  match p.anchor with
  | none => (none, s)
  | some name =>
    let (node, anchors) := s.anchors.start name
    (some node, { s with anchors := anchors })

def finishNode (node : Option Nat) (n : Node) (s : Stream) : Node × Stream :=
  match node with
  | none => (n, s)
  | some node => (n, { s with anchors := s.anchors.finish node n })

/-- The node of a scalar. The tag that is a mark alone says nothing. -/
def scalarNode (p : Properties) (style : Style) (text : List Char) : Node :=
  .scalar p.mark ⟨p.tag.filter fun tag => tag != ['!'], style, text⟩

/-- The node of properties without content, if there are any. -/
def emptyNode? (p : Properties) : Option Node :=
  if p.anchor.isSome || p.tag.isSome then some (.scalar p.mark ⟨p.tag, .plain, []⟩) else none

/-- Whether a key or a value of a block mapping is left out before this token. -/
def endsBlockItem : Option Token → Bool
  | some .key => true
  | some .value => true
  | some .blockEnd => true
  | _ => false

mutual

/-- Reads a node, at most so many levels and items deep. Blocks are nodes only where `block` says
so, and a sequence without an indentation of its own only where `indentless` does. -/
def node? (block indentless : Bool) : Nat → Stream → Option (Node × Stream)
  | 0, _ => none
  | fuel + 1, s =>
    match s.tokens with
    | ⟨.alias name, m, _⟩ :: _ =>
      (s.anchors.number? name).map fun number => (.alias m number, s.drop)
    | _ =>
      match properties? s with
      | none => none
      | some (p, s) =>
        let (anchored, s) := startNode p s
        let content : Option (Node × Stream) :=
          match s.next? with
          | some (.scalar style text) => some (scalarNode p style text, s.drop)
          | some .flowSequenceStart =>
            (flowItems? fuel true s.drop).map fun (items, s) => (.sequence p.mark items, s)
          | some .flowMappingStart =>
            (flowMembers? fuel true s.drop).map fun (members, s) => (.mapping p.mark members, s)
          | next =>
            if indentless && next == some .blockEntry then
              (indentlessItems? fuel s).map fun (items, s) => (.sequence p.mark items, s)
            else if block && next == some .blockSequenceStart then
              (blockItems? fuel s.drop).map fun (items, s) => (.sequence p.mark items, s)
            else if block && next == some .blockMappingStart then
              (blockMembers? fuel s.drop).map fun (members, s) => (.mapping p.mark members, s)
            else (emptyNode? p).map fun n => (n, s)
        content.map fun (n, s) => finishNode anchored n s

def blockItems? : Nat → Stream → Option (List Node × Stream)
  | 0, _ => none
  | fuel + 1, s =>
    match s.tokens with
    | ⟨.blockEnd, _, _⟩ :: _ => some ([], s.drop)
    | ⟨.blockEntry, _, stop⟩ :: _ =>
      let after := s.drop
      let item : Option (Node × Stream) :=
        match after.next? with
        | some .blockEntry | some .blockEnd => some (emptyAt stop, after)
        | _ => node? true false fuel after
      match item with
      | none => none
      | some (n, s) => (blockItems? fuel s).map fun (others, s) => (n :: others, s)
    | _ => none

/-- Reads the items of a sequence that is indented like the mapping around it. -/
def indentlessItems? : Nat → Stream → Option (List Node × Stream)
  | 0, _ => none
  | fuel + 1, s =>
    match s.tokens with
    | ⟨.blockEntry, _, stop⟩ :: _ =>
      let after := s.drop
      let item : Option (Node × Stream) :=
        match after.next? with
        | some .blockEntry => some (emptyAt stop, after)
        | next => if endsBlockItem next then some (emptyAt stop, after)
          else node? true false fuel after
      match item with
      | none => none
      | some (n, s) => (indentlessItems? fuel s).map fun (others, s) => (n :: others, s)
    | _ => some ([], s)

/-- Reads the members of a block mapping up to its end. -/
def blockMembers? : Nat → Stream → Option (List (Node × Node) × Stream)
  | 0, _ => none
  | fuel + 1, s =>
    match s.tokens with
    | ⟨.blockEnd, _, _⟩ :: _ => some ([], s.drop)
    | ⟨.key, _, stop⟩ :: _ =>
      let after := s.drop
      let name : Option (Node × Stream) :=
        if endsBlockItem after.next? then some (emptyAt stop, after)
        else node? true true fuel after
      match name with
      | none => none
      | some (k, s) =>
        match blockValue? fuel s with
        | none => none
        | some (v, s) => (blockMembers? fuel s).map fun (others, s) => ((k, v) :: others, s)
    | _ => none

def blockValue? : Nat → Stream → Option (Node × Stream)
  | 0, _ => none
  | fuel + 1, s =>
    match s.tokens with
    | ⟨.value, _, stop⟩ :: _ =>
      let after := s.drop
      if endsBlockItem after.next? then some (emptyAt stop, after) else node? true true fuel after
    | _ => some (emptyAt s.mark, s)

/-- Reads the items of a sequence between brackets, up to its end. -/
def flowItems? : Nat → Bool → Stream → Option (List Node × Stream)
  | 0, _, _ => none
  | fuel + 1, first, s =>
    let item : Option Stream :=
      match first, s.next? with
      | true, _ => some s
      | false, some .flowSequenceEnd => some s
      | false, some .flowEntry => some s.drop
      | false, _ => none
    match item with
    | none => none
    | some s =>
      match s.next? with
      | some .flowSequenceEnd => some ([], s.drop)
      | some .key =>
        match flowPair? fuel s.mark s.drop with
        | none => none
        | some (n, s) => (flowItems? fuel false s).map fun (others, s) => (n :: others, s)
      | _ =>
        match node? false false fuel s with
        | none => none
        | some (n, s) => (flowItems? fuel false s).map fun (others, s) => (n :: others, s)

/-- Reads a mapping of one member that is an item of a sequence. A key that is left out takes the
token after it along. -/
def flowPair? : Nat → Mark → Stream → Option (Node × Stream)
  | 0, _, _ => none
  | fuel + 1, m, s =>
    let name : Option (Node × Stream) :=
      match s.tokens with
      | ⟨.value, _, stop⟩ :: _ => some (emptyAt stop, s.drop)
      | ⟨.flowEntry, _, stop⟩ :: _ => some (emptyAt stop, s.drop)
      | ⟨.flowSequenceEnd, _, stop⟩ :: _ => some (emptyAt stop, s.drop)
      | _ => node? false false fuel s
    match name with
    | none => none
    | some (k, s) =>
      let value : Option (Node × Stream) :=
        match s.next? with
        | some .value =>
          let after := s.drop
          match after.next? with
          | some .flowEntry | some .flowSequenceEnd => some (emptyAt after.mark, after)
          | _ => node? false false fuel after
        | _ => some (emptyAt s.mark, s)
      value.map fun (v, s) => (.mapping m [(k, v)], s)

/-- Reads the members of a mapping between braces, up to its end. -/
def flowMembers? : Nat → Bool → Stream → Option (List (Node × Node) × Stream)
  | 0, _, _ => none
  | fuel + 1, first, s =>
    let item : Option Stream :=
      match first, s.next? with
      | true, _ => some s
      | false, some .flowMappingEnd => some s
      | false, some .flowEntry => some s.drop
      | false, _ => none
    match item with
    | none => none
    | some s =>
      match s.next? with
      | some .flowMappingEnd => some ([], s.drop)
      | some .key =>
        let after := s.drop
        let name : Option (Node × Stream) :=
          match after.next? with
          | some .value | some .flowEntry | some .flowMappingEnd =>
            some (emptyAt after.mark, after)
          | _ => node? false false fuel after
        match name with
        | none => none
        | some (k, s) =>
          match flowValue? fuel s with
          | none => none
          | some (v, s) =>
            (flowMembers? fuel false s).map fun (others, s) => ((k, v) :: others, s)
      | _ =>
        match node? false false fuel s with
        | none => none
        | some (k, s) =>
          (flowMembers? fuel false s).map fun (others, after) =>
            ((k, emptyAt s.mark) :: others, after)

/-- Reads the value of a member of a mapping between braces. -/
def flowValue? : Nat → Stream → Option (Node × Stream)
  | 0, _ => none
  | fuel + 1, s =>
    match s.next? with
    | some .value =>
      let after := s.drop
      match after.next? with
      | some .flowEntry | some .flowMappingEnd => some (emptyAt after.mark, after)
      | _ => node? false false fuel after
    | _ => some (emptyAt s.mark, s)

end

/-! ## Documents -/

/-- What the common tag handles stand for. -/
def defaultHandles : List (List Char × List Char) :=
  [("!".toList, "!".toList), ("!!".toList, "tag:yaml.org,2002:".toList)]

/-- The directives before a document: one version at most, which has to be 1.1 or 1.2, and handles,
none of them twice. -/
def directives? (version : Bool) (handles : List (List Char × List Char)) :
    List Placed → Option (Bool × List (List Char × List Char) × List Placed)
  | ⟨.version major minor, _, _⟩ :: rest =>
    if version || major != 1 || !(minor == 1 || minor == 2) then none
    else directives? true handles rest
  | ⟨.tagDirective handle lead, _, _⟩ :: rest =>
    if (handles.lookup handle).isSome then none
    else directives? version ((handle, lead) :: handles) rest
  | ts => some (version, handles, ts)

/-- The handles that a document knows: its own and the common ones. -/
def knownHandles (handles : List (List Char × List Char)) : List (List Char × List Char) :=
  handles ++ defaultHandles

def endsDocument : Option Token → Bool
  | some (.version _ _) => true
  | some (.tagDirective _ _) => true
  | some .documentStart => true
  | some .documentEnd => true
  | some .streamEnd => true
  | _ => false

/-- Whether nothing follows a document but marks of its end. -/
def endsStream (ts : List Placed) : Bool :=
  match ts.dropWhile fun t => t.token == .documentEnd with
  | [t] => t.token == .streamEnd
  | _ => false

def tree? (ts : List Placed) : Option Tree :=
  let fuel := 3 * ts.length + 8
  let read : Option (Option Node × Stream) :=
    match ts.head?.map Placed.token with
    | some .streamEnd => some (none, ⟨ts, .none, defaultHandles⟩)
    | some (.version _ _) | some (.tagDirective _ _) | some .documentStart =>
      match directives? false [] ts with
      | some (_, handles, ⟨.documentStart, _, _⟩ :: rest) =>
        let s : Stream := ⟨rest, .none, knownHandles handles⟩
        if endsDocument s.next? then some (some (emptyAt s.mark), s)
        else (node? true false fuel s).map fun (n, s) => (some n, s)
      | _ => none
    | _ => (node? true false fuel ⟨ts, .none, defaultHandles⟩).map fun (n, s) => (some n, s)
  match read with
  | some (root, s) => if endsStream s.tokens then some ⟨root, s.anchors⟩ else none
  | none => none

def parse? (text : String) : Option Tree :=
  match tokens? text with
  | some ts => tree? ts
  | none => none

end Yaml
end PackPlan
