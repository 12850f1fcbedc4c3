import Softcode.Yaml.Token

/-!
# Nodes

The tree that the tokens of a document stand for. A node that is left out is an empty plain scalar.
An alias stands for the node that was given its name before.
-/

namespace Softcode.Yaml

/-- A node of a document. -/
inductive Node where
  | scalar (plain : Bool) (text : String)
  | sequence (items : List Node)
  | mapping (members : List (Node × Node))
  deriving Repr, Inhabited

/-- A node that is left out. -/
def Node.blank : Node := .scalar true ""

/-- Nodes with a name, the last first. -/
abbrev Anchors := List (List Char × Node)

/-- What has been read, the anchors known after it and the tokens left. -/
abbrev Read (α : Type) := Option (α × Anchors × List Token)

/-- Names and tags in front of a node: the name, whether there is anything, and the rest. -/
def properties : List Token → Option (List Char) × Bool × List Token
  | .anchor name :: .tag :: rest => (some name, true, rest)
  | .tag :: .anchor name :: rest => (some name, true, rest)
  | .anchor name :: rest => (some name, true, rest)
  | .tag :: rest => (none, true, rest)
  | ts => (none, false, ts)

/-- The next token is one of these. -/
def upcoming (ts : List Token) (stops : List Token) : Bool := ts.head?.all stops.contains

mutual

/-- Read a node. Block collections may only start where `block` says so, and a sequence without
indentation of its own only where `indentless` says so. -/
def node? (block indentless : Bool) (env : Anchors) (ts : List Token) : Nat → Read Node
  | 0 => none
  | fuel + 1 =>
    match ts with
    | .alias name :: rest => (env.lookup name).map fun node => (node, env, rest)
    | _ =>
      let (name, marked, ts) := properties ts
      let content : Read Node :=
        match ts with
        | .blockEntry :: _ =>
          if indentless then
            (entries? true env ts fuel).map fun (items, rest) => (.sequence items, rest)
          else if marked then some (.blank, env, ts)
          else none
        | .scalar plain text :: rest => some (.scalar plain (String.ofList text), env, rest)
        | .flowSequence :: rest =>
          (flowItems? true env rest fuel).map fun (items, rest) => (.sequence items, rest)
        | .flowMapping :: rest =>
          (flowMembers? true env rest fuel).map fun (members, rest) => (.mapping members, rest)
        | .blockSequence :: rest =>
          if block then
            (entries? false env rest fuel).map fun (items, rest) => (.sequence items, rest)
          else none
        | .blockMapping :: rest =>
          if block then (members? env rest fuel).map fun (members, rest) => (.mapping members, rest)
          else none
        | _ => if marked then some (.blank, env, ts) else none
      match name, content with
      | some name, some (node, env, rest) => some (node, (name, node) :: env, rest)
      | _, content => content

/-- Read a node, or nothing if one of the `stops` comes next. -/
def nodeOr? (block indentless : Bool) (stops : List Token) (env : Anchors) (ts : List Token) :
    Nat → Read Node
  | 0 => none
  | fuel + 1 =>
    if upcoming ts stops then some (.blank, env, ts) else node? block indentless env ts fuel

/-- Read the items of a block sequence, to the token that closes it or, without indentation of its
own, as far as there are any. -/
def entries? (indentless : Bool) (env : Anchors) (ts : List Token) : Nat → Read (List Node)
  | 0 => none
  | fuel + 1 =>
    match ts with
    | .blockEntry :: rest =>
      let stops :=
        if indentless then [Token.blockEntry, .key, .value, .blockEnd] else [.blockEntry, .blockEnd]
      match nodeOr? true false stops env rest fuel with
      | none => none
      | some (item, env, rest) =>
        (entries? indentless env rest fuel).map fun (items, rest) => (item :: items, rest)
    | .blockEnd :: rest => if indentless then some ([], env, ts) else some ([], env, rest)
    | _ => if indentless then some ([], env, ts) else none

/-- Read the members of a block mapping. -/
def members? (env : Anchors) (ts : List Token) : Nat → Read (List (Node × Node))
  | 0 => none
  | fuel + 1 =>
    match ts with
    | .blockEnd :: rest => some ([], env, rest)
    | .key :: rest =>
      let stops := [Token.key, .value, .blockEnd]
      match nodeOr? true true stops env rest fuel with
      | none => none
      | some (key, env, rest) =>
        let value : Read Node :=
          match rest with
          | .value :: rest => nodeOr? true true stops env rest fuel
          | _ => some (.blank, env, rest)
        match value with
        | none => none
        | some (value, env, rest) =>
          (members? env rest fuel).map fun (members, rest) => ((key, value) :: members, rest)
    | _ => none

/-- Read the items of a flow sequence. A key among them makes a mapping with one member. -/
def flowItems? (first : Bool) (env : Anchors) (ts : List Token) : Nat → Read (List Node)
  | 0 => none
  | fuel + 1 =>
    match ts with
    | .flowSequenceEnd :: rest => some ([], env, rest)
    | _ =>
      let start : Option (List Token) :=
        match first, ts with
        | true, ts => some ts
        | false, .flowEntry :: rest => some rest
        | false, _ => none
      match start with
      | none => none
      | some (.flowSequenceEnd :: rest) => some ([], env, rest)
      | some ts =>
        let item : Read Node :=
          match ts with
          | .key :: rest =>
            (flowPair? .flowSequenceEnd env rest fuel).map fun (member, rest) =>
              (.mapping [member], rest)
          | _ => node? false false env ts fuel
        match item with
        | none => none
        | some (item, env, rest) =>
          (flowItems? false env rest fuel).map fun (items, rest) => (item :: items, rest)

/-- Read the members of a flow mapping. -/
def flowMembers? (first : Bool) (env : Anchors) (ts : List Token) :
    Nat → Read (List (Node × Node))
  | 0 => none
  | fuel + 1 =>
    match ts with
    | .flowMappingEnd :: rest => some ([], env, rest)
    | _ =>
      let start : Option (List Token) :=
        match first, ts with
        | true, ts => some ts
        | false, .flowEntry :: rest => some rest
        | false, _ => none
      match start with
      | none => none
      | some (.flowMappingEnd :: rest) => some ([], env, rest)
      | some ts =>
        let member : Read (Node × Node) :=
          match ts with
          | .key :: rest => flowPair? .flowMappingEnd env rest fuel
          | _ => (node? false false env ts fuel).map fun (key, rest) => ((key, .blank), rest)
        match member with
        | none => none
        | some (member, env, rest) =>
          (flowMembers? false env rest fuel).map fun (members, rest) => (member :: members, rest)

/-- Read a key and its value in a flow collection, after the mark of the key. -/
def flowPair? (close : Token) (env : Anchors) (ts : List Token) : Nat → Read (Node × Node)
  | 0 => none
  | fuel + 1 =>
    match nodeOr? false false [.value, .flowEntry, close] env ts fuel with
    | none => none
    | some (key, env, .value :: rest) =>
      (nodeOr? false false [.flowEntry, close] env rest fuel).map fun (value, rest) =>
        ((key, value), rest)
    | some (key, env, rest) => some ((key, .blank), env, rest)

end

/-- The node of the only document in a list of tokens. -/
def document? (ts : List Token) : Option Node :=
  let body := ts.dropWhile (· == .directive)
  let opened : Option (List Token) :=
    match body with
    | .documentStart :: rest => some rest
    | _ => if body.length = ts.length then some ts else none
  match opened with
  | none => none
  | some ts =>
    let stops := [Token.directive, .documentStart, .documentEnd]
    match nodeOr? true false stops [] ts (4 * ts.length + 4) with
    | none => none
    | some (node, _, rest) =>
      if (rest.dropWhile (· == .documentEnd)).isEmpty then some node else none

/-- Read a text with at most one document. -/
def parse? (text : List Char) : Option Node := (tokens? text).bind document?

end Softcode.Yaml
