import KernelLint.Yaml.Lexer

/-!
# Documents as trees

Scalars, sequences and mappings. A document is first read as a draft, in which aliases stand for
numbers; then every alias is replaced by the node of its number.

An anchor takes as its number the count of different anchor names before it. So an anchor whose name
was used before shares its number with the next new name, and of several nodes with one number the
last one counts, also for aliases in front of it.
-/

namespace KernelLint.Yaml

/-- A node of a document. A scalar keeps how it was written; a tag is kept as its full name. -/
inductive Node where
  | scalar (style : Style) (tag : Option String) (text : String)
  | seq (items : List Node)
  | map (entries : List (Node × Node))
  deriving Inhabited

/-- The node that stands for nothing written. -/
def Node.empty : Node := .scalar .plain none ""

/-- A node in which aliases are not yet replaced. -/
inductive Draft where
  | scalar (style : Style) (tag : Option String) (text : String)
  | seq (items : List Draft)
  | map (entries : List (Draft × Draft))
  | alias (number : Nat)
  deriving Inhabited

/-- The draft that stands for nothing written. -/
def Draft.empty : Draft := .scalar .plain none ""

/-! ## Replacing aliases -/

/-- What is read while a number of aliases may still be followed; it fails when too many are. -/
abbrev Following := StateT Nat Option

/-- Follow one alias. -/
def Following.step : Following Unit := do
  match ← get with
  | 0 => failure
  | n + 1 => set n

mutual

def Draft.resolve (follow : Nat → Following Node) : Draft → Following Node
  | .scalar style tag text => pure (.scalar style tag text)
  | .seq items => do return .seq (← resolveItems follow items)
  | .map entries => do return .map (← resolveEntries follow entries)
  | .alias number => do
    Following.step
    follow number

def Draft.resolveItems (follow : Nat → Following Node) : List Draft → Following (List Node)
  | [] => pure []
  | d :: rest => do return (← resolve follow d) :: (← resolveItems follow rest)

def Draft.resolveEntries (follow : Nat → Following Node) :
    List (Draft × Draft) → Following (List (Node × Node))
  | [] => pure []
  | (k, v) :: rest => do
    return (← resolve follow k, ← resolve follow v) :: (← resolveEntries follow rest)

end

/-- A node with a number. -/
structure Anchored where
  number : Nat
  /-- The number of tokens from the beginning of the node to the end of the document. -/
  remaining : Nat
  draft : Draft
  deriving Inhabited

def Anchored.last? (number : Nat) (nodes : List Anchored) : Option Anchored :=
  (nodes.filter (·.number = number)).foldl (fun best n =>
    if best.any (·.remaining < n.remaining) then best else some n) none

/-- The node of a number, behind at most some aliases inside each other. A node that contains itself
has none. -/
def followIn (nodes : List Anchored) : Nat → Nat → Following Node
  | 0, _ => failure
  | depth + 1, number =>
    match Anchored.last? number nodes with
    | some n => n.draft.resolve (followIn nodes depth)
    | none => failure

/-! ## Reading -/

/-- What the common tag handles stand for. -/
def commonHandles : List (String × String) := [("!", "!"), ("!!", "tag:yaml.org,2002:")]

/-- The rest of the tokens, the anchor names so far with their numbers, the nodes with numbers, and
what tag handles stand for. -/
structure Reading where
  tokens : List Token
  anchors : List (String × Nat) := []
  nodes : List Anchored := []
  handles : List (String × String) := commonHandles
  deriving Inhabited

/-- A reader of part of a document. -/
abbrev Reader (α : Type) := Reading → Option (α × Reading)

namespace Reading

def peek (r : Reading) : Option Token := r.tokens.head?

def skip (r : Reading) : Reading := { r with tokens := r.tokens.tail }

/-- Give a number to an anchor. -/
def addAnchor (r : Reading) (name : String) : Nat × Reading :=
  let number := r.anchors.length
  (number, { r with anchors := (name, number) :: r.anchors.filter (·.1 ≠ name) })

end Reading

/-- Does the next token leave a place in a block mapping empty? -/
def endsEntry : Option Token → Bool
  | some .key => true
  | some .value => true
  | some .blockEnd => true
  | _ => false

/-- The full name of a tag; one without a handle is written in full. -/
def Reading.tagName? (r : Reading) (handle suffix : String) : Option String :=
  if handle = "" then some suffix else (r.handles.lookup handle).map (· ++ suffix)

/-- What stands before a node. -/
structure Properties where
  anchor : Option String := none
  tag : Option String := none

/-- Anchor and tag in either order. -/
def properties : Reader Properties := fun r =>
  let anchorAt (r : Reading) : Option String × Reading :=
    match r.peek with
    | some (.anchor name) => (some name, r.skip)
    | _ => (none, r)
  let tagAt (r : Reading) : Option (Option String × Reading) :=
    match r.peek with
    | some (.tag handle suffix) => (r.tagName? handle suffix).map fun t => (some t, r.skip)
    | _ => some (none, r)
  match anchorAt r with
  | (some a, r) => (tagAt r).map fun (t, r) => (⟨some a, t⟩, r)
  | (none, r) =>
    (tagAt r).map fun (t, r) =>
      match t with
      | none => ({}, r)
      | some _ =>
        let (a, r) := anchorAt r
        (⟨a, t⟩, r)

/-- The entries of a block sequence; `last` tells whether an end token closes it. -/
def blockItems (node : Reader Draft) (closed : Bool) : Nat → Reader (List Draft)
  | 0, _ => none
  | fuel + 1, r =>
    match r.peek with
    | some .item =>
      let r := r.skip
      let isEmpty := match r.peek with
        | some .item => true
        | some .blockEnd => true
        | some .key => !closed
        | some .value => !closed
        | _ => false
      if isEmpty then
        (blockItems node closed fuel r).map fun (rest, r) => (Draft.empty :: rest, r)
      else
        (node r).bind fun (n, r) =>
          (blockItems node closed fuel r).map fun (rest, r) => (n :: rest, r)
    | some .blockEnd => some ([], if closed then r.skip else r)
    | _ => if closed then none else some ([], r)

/-- A node of a block mapping, or nothing written. -/
def blockPart (node : Reader Draft) : Reader Draft := fun r =>
  if endsEntry r.peek then some (Draft.empty, r) else node r

def blockEntries (node : Reader Draft) : Nat → Reader (List (Draft × Draft))
  | 0, _ => none
  | fuel + 1, r =>
    let valueOf : Reader Draft := fun r =>
      match r.peek with
      | some .value => blockPart node r.skip
      | _ => some (Draft.empty, r)
    match r.peek with
    | some .blockEnd => some ([], r.skip)
    | some .key =>
      (blockPart node r.skip).bind fun (k, r) =>
        (valueOf r).bind fun (v, r) =>
          (blockEntries node fuel r).map fun (rest, r) => ((k, v) :: rest, r)
    | some .value =>
      (valueOf r).bind fun (v, r) =>
        (blockEntries node fuel r).map fun (rest, r) => ((Draft.empty, v) :: rest, r)
    | _ => none

def flowValue (node : Reader Draft) : Reader Draft := fun r =>
  match r.peek with
  | some .value =>
    let r := r.skip
    match r.peek with
    | some .comma => some (Draft.empty, r)
    | some .flowMapEnd => some (Draft.empty, r)
    | some .flowSeqEnd => some (Draft.empty, r)
    | _ => node r
  | _ => some (Draft.empty, r)

/-- A key between brackets, after its mark. -/
def flowKey (node : Reader Draft) : Reader Draft := fun r =>
  match r.peek with
  | some .value => some (Draft.empty, r)
  | some .comma => some (Draft.empty, r)
  | some .flowMapEnd => some (Draft.empty, r)
  | some .flowSeqEnd => some (Draft.empty, r)
  | _ => node r

/-- A comma before every entry but the first. -/
def separator (first : Bool) (close : Token) (r : Reading) : Option Reading :=
  if first || r.peek = some close then some r
  else if r.peek = some .comma then some r.skip else none

/-- The entries of a flow sequence. A key mark makes a mapping of one entry. -/
def flowItems (node : Reader Draft) : Nat → Bool → Reader (List Draft)
  | 0, _, _ => none
  | fuel + 1, first, r =>
    (separator first .flowSeqEnd r).bind fun r =>
      match r.peek with
      | some .flowSeqEnd => some ([], r.skip)
      | some .key =>
        (flowKey node r.skip).bind fun (k, r) =>
          (flowValue node r).bind fun (v, r) =>
            (flowItems node fuel false r).map fun (rest, r) => (Draft.map [(k, v)] :: rest, r)
      | _ =>
        (node r).bind fun (n, r) =>
          (flowItems node fuel false r).map fun (rest, r) => (n :: rest, r)

def flowEntries (node : Reader Draft) : Nat → Bool → Reader (List (Draft × Draft))
  | 0, _, _ => none
  | fuel + 1, first, r =>
    (separator first .flowMapEnd r).bind fun r =>
      match r.peek with
      | some .flowMapEnd => some ([], r.skip)
      | some .key =>
        (flowKey node r.skip).bind fun (k, r) =>
          (flowValue node r).bind fun (v, r) =>
            (flowEntries node fuel false r).map fun (rest, r) => ((k, v) :: rest, r)
      | _ =>
        (node r).bind fun (k, r) =>
          (flowEntries node fuel false r).map fun (rest, r) => ((k, Draft.empty) :: rest, r)

/-- A node without its properties. `block` allows block collections, `indentless` a block sequence
that is not indented. -/
def content (node : Bool → Bool → Reader Draft) (fuel : Nat) (block indentless : Bool)
    (props : Properties) : Reader Draft := fun r =>
  match r.peek with
  | some (.scalar style text) => some (.scalar style props.tag text, r.skip)
  | some .flowSeqStart =>
    (flowItems (node false false) fuel true r.skip).map fun (items, r) => (.seq items, r)
  | some .flowMapStart =>
    (flowEntries (node false false) fuel true r.skip).map fun (es, r) => (.map es, r)
  | some .item =>
    if indentless then
      (blockItems (node true false) false fuel r).map fun (items, r) => (.seq items, r)
    else if props.anchor.isSome || props.tag.isSome then some (.scalar .plain props.tag "", r)
    else none
  | some .blockSeqStart =>
    if block then
      (blockItems (node true false) true fuel r.skip).map fun (items, r) => (.seq items, r)
    else if props.anchor.isSome || props.tag.isSome then some (.scalar .plain props.tag "", r)
    else none
  | some .blockMapStart =>
    if block then
      (blockEntries (node true true) fuel r.skip).map fun (es, r) => (.map es, r)
    else if props.anchor.isSome || props.tag.isSome then some (.scalar .plain props.tag "", r)
    else none
  | _ =>
    if props.anchor.isSome || props.tag.isSome then some (.scalar .plain props.tag "", r) else none

/-- A node; `depth` bounds the nesting. -/
def node (fuel : Nat) : Nat → Bool → Bool → Reader Draft
  | 0, _, _, _ => none
  | depth + 1, block, indentless, r =>
    match r.peek with
    | some (.alias name) => (r.anchors.lookup name).map fun number => (.alias number, r.skip)
    | _ =>
      let remaining := r.tokens.length
      (properties r).bind fun (props, r) =>
        match props.anchor with
        | some name =>
          let (number, r) := r.addAnchor name
          (content (node fuel depth) fuel block indentless props r).map fun (d, r) =>
            (d, { r with nodes := ⟨number, remaining, d⟩ :: r.nodes })
        | none => content (node fuel depth) fuel block indentless props r

def Token.isDirective : Token → Bool
  | .version _ _ => true
  | .handle _ _ => true
  | _ => false

def versionsOf (directives : List Token) : List (Nat × Nat) :=
  directives.filterMap fun
    | .version major minor => some (major, minor)
    | _ => none

def handlesOf (directives : List Token) : List (String × String) :=
  directives.filterMap fun
    | .handle name uri => some (name, uri)
    | _ => none

/-- Do directives fit together? At most one names a version, which is 1.1 or 1.2, and no handle is
explained twice. -/
def directivesFit (directives : List Token) : Bool :=
  let names := (handlesOf directives).map (·.1)
  [[], [(1, 1)], [(1, 2)]].contains (versionsOf directives) && names.eraseDups.length = names.length

/-- Pass end marks of documents. -/
def dropEnds : List Token → List Token
  | .documentEnd :: rest => dropEnds rest
  | tokens => tokens

/-- The start of the one document: directives need a start mark, and a mark may stand alone. -/
def documentStart? (tokens : List Token) : Option Reading :=
  let directives := tokens.takeWhile Token.isDirective
  let handles := handlesOf directives ++ commonHandles
  if !directivesFit directives then none
  else match tokens.dropWhile Token.isDirective with
    | .documentStart :: rest => some { tokens := rest, handles }
    | rest => if directives.isEmpty then some { tokens := rest, handles } else none

/-- How many aliases may be followed in a document, for each of its tokens. -/
def aliasesPerToken : Nat := 100

/-- Replace the aliases of a document. -/
def Draft.finish (d : Draft) (tokens : Nat) (nodes : List Anchored) : Option Node :=
  ((d.resolve (followIn nodes (nodes.length + 1))).run (aliasesPerToken * tokens)).map (·.1)

/-- A stream with exactly one document; a stream without any stands for an empty scalar. -/
def parse? (text : String) : Option Node :=
  (tokens? text).bind fun tokens =>
    let fuel := tokens.length + 1
    (documentStart? tokens).bind fun start =>
      let rootless := match start.tokens with
        | [] => true
        | .documentEnd :: _ => start.tokens.length < tokens.length
        | _ => false
      let root := if rootless then some (Draft.empty, start) else node fuel fuel true false start
      root.bind fun (d, r) =>
        if (dropEnds r.tokens).isEmpty then d.finish tokens.length r.nodes else none

end KernelLint.Yaml
