import Workflow.Yaml.Layout

namespace Workflow.Yaml

/-- A node as it is written. An alias names the anchored node that it stands for by number. -/
inductive Node where
  | scalar (text : String) (style : Style) (tag : Option String)
  | list (tag : Option String) (items : List Node)
  | map (tag : Option String) (entries : List (Node × Node))
  | alias (id : Nat)
  deriving Inhabited

/-- An anchored node: its number, how many were started before it, and the node. -/
structure Anchored where
  id : Nat
  place : Nat
  node : Node

/-- What reading nodes has to remember: the texts of tag handles, the numbers of anchor names, and the
anchored nodes. A name that is anchored anew gets the number of names so far, be it new or not. -/
structure Anchors where
  handles : List (String × String)
  names : Assoc Nat := []
  started : Nat := 0
  nodes : List Anchored := []

namespace Anchors

def start (a : Anchors) (name : String) : Anchors :=
  { a with names := a.names.insert name a.names.length, started := a.started + 1 }

end Anchors

/-- What stands in front of a node. -/
structure Properties where
  anchor : Option String := none
  tag : Option WrittenTag := none

def fullTag? (a : Anchors) (t : WrittenTag) : Option String :=
  if t.handle = "" then some t.suffix
  else ((a.handles.find? (fun h => h.1 = t.handle)).map Prod.snd).map (· ++ t.suffix)

def properties : List Token → Properties × List Token
  | .anchor name :: .tag t :: rest => (⟨some name, some t⟩, rest)
  | .anchor name :: rest => (⟨some name, none⟩, rest)
  | .tag t :: .anchor name :: rest => (⟨some name, some t⟩, rest)
  | .tag t :: rest => (⟨none, some t⟩, rest)
  | ts => ({}, ts)

def emptyNode : Node := .scalar "" .bare none

/-- What was read of a part: what it is, the tokens after it, and the anchors. -/
abbrev Step (α : Type) := α × List Token × Anchors

/-- Where a node stands: inside brackets, in a block, or in a block where a list may be as far out as
the map around it. -/
inductive Position where
  | flow
  | block
  | hanging
  deriving DecidableEq

def endsListEntry : List Token → Bool
  | .entry :: _ => true
  | .blockEnd :: _ => true
  | _ => false

def endsHangingEntry : List Token → Bool
  | .entry :: _ => true
  | .key :: _ => true
  | .value :: _ => true
  | .blockEnd :: _ => true
  | _ => false

def endsMapPart : List Token → Bool
  | .key :: _ => true
  | .value :: _ => true
  | .blockEnd :: _ => true
  | _ => false

def endsFlowKey : List Token → Bool
  | .value :: _ => true
  | .comma :: _ => true
  | .flowMapEnd :: _ => true
  | _ => false

def endsFlowValue : List Token → Bool
  | .comma :: _ => true
  | .flowMapEnd :: _ => true
  | _ => false

def endsPairKey : List Token → Bool
  | .value :: _ => true
  | .comma :: _ => true
  | .flowListEnd :: _ => true
  | _ => false

def endsPairValue : List Token → Bool
  | .comma :: _ => true
  | .flowListEnd :: _ => true
  | _ => false

/-- The tag of a scalar: a lone exclamation mark is none. -/
def scalarTag (tag : Option String) : Option String := if tag = some "!" then none else tag

/-- A node that may have been left out after its properties. -/
def emptyOr? (mayBeEmpty : Bool) (tag : Option String) (ts : List Token) (a : Anchors) : Option (Step Node) :=
  if mayBeEmpty then some (.scalar "" .bare tag, ts, a) else none

mutual

def node? : Nat → Position → List Token → Anchors → Option (Step Node)
  | 0, _, _, _ => none
  | fuel + 1, position, ts, a =>
    match ts with
    | .alias name :: rest => (a.names.get? name).map (fun id => (.alias id, rest, a))
    | _ => do
      let (p, ts) := properties ts
      let tag ← match p.tag with
        | none => some none
        | some t => (fullTag? a t).map some
      match p.anchor with
      | none => content? fuel position tag p.tag.isSome ts a
      | some name => do
        let place := a.started
        let id := a.names.length
        let (n, ts, a) ← content? fuel position tag true ts (a.start name)
        some (n, ts, { a with nodes := ⟨id, place, n⟩ :: a.nodes })

/-- A node after its properties. Where there are some the node may be empty. -/
def content? : Nat → Position → Option String → Bool → List Token → Anchors → Option (Step Node)
  | 0, _, _, _, _, _ => none
  | fuel + 1, position, tag, mayBeEmpty, ts, a =>
    match position, ts with
    | .hanging, .entry :: _ =>
      (hangingItems? fuel ts a).map (fun r => (.list tag r.1, r.2))
    | _, .scalar text style :: rest => some (.scalar text style (scalarTag tag), rest, a)
    | _, .flowListStart :: rest =>
      (flowItems? fuel true rest a).map (fun r => (.list tag r.1, r.2))
    | _, .flowMapStart :: rest =>
      (flowEntries? fuel true rest a).map (fun r => (.map tag r.1, r.2))
    | position, ts =>
      match ts with
      | .listStart :: rest =>
        if position = .flow then emptyOr? mayBeEmpty tag ts a
        else (items? fuel rest a).map (fun r => (.list tag r.1, r.2))
      | .mapStart :: rest =>
        if position = .flow then emptyOr? mayBeEmpty tag ts a
        else (entries? fuel rest a).map (fun r => (.map tag r.1, r.2))
      | _ => emptyOr? mayBeEmpty tag ts a

def items? : Nat → List Token → Anchors → Option (Step (List Node))
  | 0, _, _ => none
  | fuel + 1, ts, a =>
    match ts with
    | .entry :: rest => do
      let (n, ts, a) ←
        if endsListEntry rest then some (emptyNode, rest, a) else node? fuel .block rest a
      let (ns, ts, a) ← items? fuel ts a
      some (n :: ns, ts, a)
    | .blockEnd :: rest => some ([], rest, a)
    | _ => none

/-- The items of a list that is as far out as the map around it. -/
def hangingItems? : Nat → List Token → Anchors → Option (Step (List Node))
  | 0, _, _ => none
  | fuel + 1, ts, a =>
    match ts with
    | .entry :: rest => do
      let (n, ts, a) ←
        if endsHangingEntry rest then some (emptyNode, rest, a) else node? fuel .block rest a
      let (ns, ts, a) ← hangingItems? fuel ts a
      some (n :: ns, ts, a)
    | _ => some ([], ts, a)

def entries? : Nat → List Token → Anchors → Option (Step (List (Node × Node)))
  | 0, _, _ => none
  | fuel + 1, ts, a =>
    match ts with
    | .key :: rest => do
      let (k, ts, a) ←
        if endsMapPart rest then some (emptyNode, rest, a) else node? fuel .hanging rest a
      let (n, ts, a) ←
        match ts with
        | .value :: rest =>
          if endsMapPart rest then some (emptyNode, rest, a) else node? fuel .hanging rest a
        | _ => some (emptyNode, ts, a)
      let (es, ts, a) ← entries? fuel ts a
      some ((k, n) :: es, ts, a)
    | .blockEnd :: rest => some ([], rest, a)
    | _ => none

/-- The items of a list in brackets, from its start or from after an item. -/
def flowItems? : Nat → Bool → List Token → Anchors → Option (Step (List Node))
  | 0, _, _, _ => none
  | fuel + 1, first, ts, a =>
    match ts with
    | .flowListEnd :: rest => some ([], rest, a)
    | _ => do
      let ts ←
        if first then some ts
        else match ts with
          | .comma :: rest => some rest
          | _ => none
      match ts with
      | .flowListEnd :: rest => some ([], rest, a)
      | .key :: rest => do
        let (n, ts, a) ← pair? fuel rest a
        let (ns, ts, a) ← flowItems? fuel false ts a
        some (n :: ns, ts, a)
      | _ => do
        let (n, ts, a) ← node? fuel .flow ts a
        let (ns, ts, a) ← flowItems? fuel false ts a
        some (n :: ns, ts, a)

/-- A pair inside a list in brackets, which is a map of its own. What ends the place of a missing key
is passed. -/
def pair? : Nat → List Token → Anchors → Option (Step Node)
  | 0, _, _ => none
  | fuel + 1, ts, a => do
    let (k, ts, a) ←
      if endsPairKey ts then some (emptyNode, ts.drop 1, a) else node? fuel .flow ts a
    let (n, ts, a) ←
      match ts with
      | .value :: rest =>
        if endsPairValue rest then some (emptyNode, rest, a) else node? fuel .flow rest a
      | _ => some (emptyNode, ts, a)
    some (.map none [(k, n)], ts, a)

/-- The entries of a map in braces, from its start or from after an entry. -/
def flowEntries? : Nat → Bool → List Token → Anchors → Option (Step (List (Node × Node)))
  | 0, _, _, _ => none
  | fuel + 1, first, ts, a =>
    match ts with
    | .flowMapEnd :: rest => some ([], rest, a)
    | _ => do
      let ts ←
        if first then some ts
        else match ts with
          | .comma :: rest => some rest
          | _ => none
      match ts with
      | .flowMapEnd :: rest => some ([], rest, a)
      | .key :: rest => do
        let (k, ts, a) ←
          if endsFlowKey rest then some (emptyNode, rest, a) else node? fuel .flow rest a
        let (n, ts, a) ←
          match ts with
          | .value :: rest =>
            if endsFlowValue rest then some (emptyNode, rest, a) else node? fuel .flow rest a
          | _ => some (emptyNode, ts, a)
        let (es, ts, a) ← flowEntries? fuel false ts a
        some ((k, n) :: es, ts, a)
      | _ => do
        let (k, ts, a) ← node? fuel .flow ts a
        let (es, ts, a) ← flowEntries? fuel false ts a
        some ((k, emptyNode) :: es, ts, a)

end

/-- The directives in front of a document. -/
structure Directives where
  version : Option (Nat × Nat) := none
  handles : List (String × String) := []

def directives? : List Token → Directives → Option (Directives × List Token)
  | .versionDirective major minor :: rest, d =>
    if d.version.isSome ∨ major ≠ 1 ∨ (minor ≠ 1 ∧ minor ≠ 2) then none
    else directives? rest { d with version := some (major, minor) }
  | .tagDirective handle start :: rest, d =>
    if d.handles.any (fun h => h.1 = handle) then none
    else directives? rest { d with handles := d.handles ++ [(handle, start)] }
  | ts, d => some (d, ts)

def standardHandles : List (String × String) := [("!", "!"), ("!!", "tag:yaml.org,2002:")]

def endsDocument : List Token → Bool
  | .versionDirective _ _ :: _ => true
  | .tagDirective _ _ :: _ => true
  | .documentStart :: _ => true
  | .documentEnd :: _ => true
  | .finish :: _ => true
  | _ => false

def isFinished : List Token → Bool
  | .documentEnd :: rest => isFinished rest
  | [.finish] => true
  | _ => false

/-- The node of a text that holds one document, and its anchored nodes. -/
def nodeOf? (text : String) : Option (Node × List Anchored) := do
  let ts ← tokensOf? text
  let fuel := 4 * ts.length + 4
  let (d, rest) ← directives? ts {}
  let a : Anchors := { handles := d.handles ++ standardHandles }
  match rest with
  | [.finish] => none
  | .documentStart :: rest => do
    let (n, ts, a) ←
      if endsDocument rest then some (emptyNode, rest, a) else node? fuel .block rest a
    if isFinished ts then some (n, a.nodes) else none
  | _ =>
    if d.version.isSome ∨ !d.handles.isEmpty then none
    else do
      let (n, ts, a) ← node? fuel .block rest a
      if isFinished ts then some (n, a.nodes) else none

end Workflow.Yaml
