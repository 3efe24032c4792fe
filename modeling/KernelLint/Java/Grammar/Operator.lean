import KernelLint.Java.Tree

/-!
# Operators

Operands and operators in a row are grouped by the levels of the operators. Binary operators group
to the left. A sign and the postfix `++` stand on one level and group to the left as well, so that
`-n++` increments `-n`; a cast takes a plain operand at once, so that `(int) n++` increments the
cast.

A name in parentheses may be an operand or the head of a cast, and a sign behind it leaves that
open. Then all readings are followed side by side. Readings that wait for the same share what comes
next, and of two trees over the same place one is kept.
-/

namespace KernelLint.Java

/-! ## Pieces -/

/-- The level of comparisons and type tests. -/
def comparisonLevel : Nat := 7

def shiftLevel : Nat := 8

def sumLevel : Nat := 9

/-- One of the pieces that stand in a row. -/
inductive Piece where
  /-- A plus or minus, between operands or in front of one. -/
  | sign (op : Tree)
  /-- An increment or decrement, behind an operand or in front of one. -/
  | step (op : Tree)
  /-- An operator that stands only in front of an operand. -/
  | negation (op : Tree)
  /-- A type in parentheses that is the head of a cast. -/
  | castHead (parts : List Tree)
  /-- A name in parentheses that is the head of a cast or an operand; `castFirst` tells which is
  preferred. -/
  | named (parts : List Tree) (operand : Tree) (castFirst : Bool)
  /-- An operand; `isPlain` tells whether a cast takes it at once. -/
  | operand (tree : Tree) (isPlain : Bool)
  /-- A binary operator that is no sign. -/
  | binary (op : Tree) (level : Nat)
  /-- A type test behind an operand. -/
  | typeTest (parts : List Tree)

/-! ## Which of two trees is kept -/

namespace Tree

/-- The place of a tree in the order of preference. -/
def preference : Tree → Nat
  | .leaf _ .plain _ => 0
  | .leaf .. => 9
  | .node _ kind _ =>
    match kind with
    | .cast => 1
    | .assignment => 2
    | .binary => 3
    | .instanceofExpr => 4
    | .lambda => 5
    | .ternary => 6
    | .unary => 7
    | .updateExpr => 8
    | .switchExpr => 10
    | _ => 9

mutual

/-- Two trees over one text by preference, then by the number of children, then child by child. -/
def comparePreference : Tree → Tree → Ordering
  | .node ra ka as, .node rb kb bs =>
    (compare (preference (.node ra ka as)) (preference (.node rb kb bs))).then
      ((compare as.length bs.length).then (comparePreferences as bs))
  | a, b => compare a.preference b.preference

/-- Two lists of trees, tree by tree. -/
def comparePreferences : List Tree → List Tree → Ordering
  | a :: as, b :: bs => (comparePreference a b).then (comparePreferences as bs)
  | _, _ => .eq

end

end Tree

/-! ## Frames -/

/-- What an expression is waited for. -/
inductive Wait where
  /-- To be the whole. -/
  | whole
  /-- To be the whole in a reading that the text before the row allows, but not what comes behind
  it. -/
  | rival
  /-- To stand behind a sign or negation. -/
  | unary
  /-- To stand behind an increment or decrement. -/
  | step
  /-- To stand behind the head of a cast. -/
  | cast
  /-- To be the right operand of an operator. -/
  | right (level : Nat)
  deriving DecidableEq, Inhabited

/-- Complete a tree whose front has been read. -/
def Wait.complete (w : Wait) (front : List Tree) (t : Tree) : Tree :=
  match w with
  | .whole | .rival => t
  | .unary => .node none .unary (front ++ [t.as .operand])
  | .step => .node none .updateExpr (front ++ [t])
  | .cast => .node none .cast (front ++ [t.as .value])
  | .right _ => .node none .binary (front ++ [t.as .right])

/-- Something that waits for an expression: what for, since which place in the row, and for each
reading the front of the tree and what waits below. -/
inductive Frame where
  | mk (wait : Wait) (place : Nat) (links : List (List Tree × Frame))
  deriving Inhabited

namespace Frame

def wait : Frame → Wait
  | .mk w _ _ => w

/-- Since which place it waits. -/
def place : Frame → Nat
  | .mk _ p _ => p

/-- The front of the tree and what waits below, for each reading. -/
def links : Frame → List (List Tree × Frame)
  | .mk _ _ ls => ls

/-- Do two frames wait for the same since the same place? -/
def isSame (a b : Frame) : Bool := a.wait = b.wait && a.place = b.place

end Frame

/-- A tree with the frame that it stands on. -/
structure Reading where
  tree : Tree
  frame : Frame

/-- Give a tree to its frame, in all readings of the frame. -/
def Reading.close (r : Reading) : List Reading :=
  r.frame.links.map fun (front, under) => ⟨r.frame.wait.complete front r.tree, under⟩

/-- How far a tree has come on its frame. -/
inductive Standing where
  /-- An operand that has just been read. -/
  | operand
  /-- An operand that a cast takes only after what follows it. -/
  | primary
  /-- An operand that a cast takes at once. -/
  | castValue
  /-- A tree over several pieces. -/
  | compound
  /-- An expression for a frame that waits. -/
  | expression (wait : Wait)
  deriving DecidableEq

/-- The end of one or more readings. -/
inductive Head where
  /-- An operand is expected. -/
  | waiting (frame : Frame)
  /-- An operand has been read. -/
  | standing (state : Standing) (readings : List Reading)

/-- The most readings that one end keeps. -/
def readingLimit : Nat := 8

namespace Reading

/-- Add a reading unless one stands on the same frame. -/
def addByFrame (rs : List Reading) (r : Reading) : List Reading :=
  if rs.any (·.frame.isSame r.frame) || readingLimit ≤ rs.length then rs else rs ++ [r]

/-- Add a reading; of two trees on one frame the preferred one is kept. -/
def addPreferred : List Reading → Reading → List Reading
  | [], r => [r]
  | q :: rest, r =>
    if q.frame.isSame r.frame then
      (if q.tree.comparePreference r.tree = .gt then r else q) :: rest
    else q :: addPreferred rest r

/-- One reading for each frame. -/
def distinct (rs : List Reading) : List Reading := rs.foldl addPreferred []

/-- Give the trees of some readings to their frames. The first result of each reading comes
first. -/
def closeAll (rs : List Reading) : List Reading :=
  distinct (rs.filterMap (fun r => r.close.head?) ++ rs.flatMap fun r => r.close.drop 1)

end Reading

/-- Add a reading to an end that has come as far. -/
def Head.add? (h : Head) (state : Standing) (r : Reading) : Option Head :=
  match h with
  | .waiting _ => none
  | .standing s rs =>
    if s ≠ state then none
    else if s matches .expression _ then some (.standing s (Reading.addByFrame rs r))
    else some (.standing s (if readingLimit ≤ rs.length then rs else rs ++ [r]))

/-- Add a reading to the first of some ends that has come as far. -/
def Head.addTo? (state : Standing) (r : Reading) : List Head → Option (List Head)
  | [] => none
  | h :: rest =>
    match h.add? state r with
    | some h => some (h :: rest)
    | none => (addTo? state r rest).map (h :: ·)

/-! ## Settling

Before the next piece is taken, every tree is given to the frames that do not wait for that piece.
-/

/-- The level at which the next piece stands behind an expression; at the end of the row it is
zero. -/
def Piece.level? : Option Piece → Option Nat
  | none => some 0
  | some (.sign _) => some sumLevel
  | some (.binary _ level) => some level
  | some (.typeTest _) => some comparisonLevel
  | _ => none

/-- Does a frame take the expression that it waits for before the next piece is taken? An increment
goes to the operand of a cast or an operator. -/
def Wait.takesBefore (w : Wait) (next : Option Piece) : Bool :=
  match w, next with
  | .whole, _ | .rival, _ => false
  | .unary, _ | .step, _ => true
  | _, some (.step _) => false
  | .cast, _ => true
  | .right level, next => (Piece.level? next).any (· ≤ level)

/-- Some readings one step on, each with how far it has come; nothing if the next piece is to be
taken now. -/
def settleOnce? (next : Option Piece) (state : Standing) (rs : List Reading) :
    Option (List (Standing × Reading)) :=
  match state with
  | .operand =>
    some ((Reading.distinct rs).map fun r =>
      (if r.frame.wait = .cast then .castValue else .primary, r))
  | .primary | .compound => some ((Reading.distinct rs).map fun r => (.expression r.frame.wait, r))
  | .castValue => some ((Reading.closeAll rs).map (.compound, ·))
  | .expression w =>
    if w.takesBefore next then some ((Reading.closeAll rs).map (.compound, ·)) else none

/-- Put readings among the ends that are still to be settled: those that come as far as another end
join it. Answers the new ends and the others. -/
def distribute (others : List Head) (found : List (Standing × Reading)) : List Head × List Head :=
  found.foldl (fun (new, others) (state, r) =>
    match Head.addTo? state r others with
    | some others => (new, others)
    | none =>
      match Head.addTo? state r new with
      | some new => (new, others)
      | none => (new ++ [.standing state [r]], others)) ([], others)

/-- Settle one end as far as the next piece allows. Of several ends that it becomes, the first goes
on and the others wait behind all ends. -/
def Head.settle (next : Option Piece) : Nat → Head → List Head → Option Head × List Head
  | 0, _, others => (none, others)
  | fuel + 1, .standing state rs, others =>
    match settleOnce? next state rs with
    | none => (some (.standing state rs), others)
    | some found =>
      match distribute others found with
      | ([], others) => (none, others)
      | (first :: more, others) => settle next fuel first (others ++ more)
  | _, .waiting f, others => (some (.waiting f), others)

/-- Settle all ends, the first one first. -/
def Head.settleAll (next : Option Piece) (steps : Nat) : Nat → List Head → List Head
  | 0, _ => []
  | _, [] => []
  | fuel + 1, h :: others =>
    let (settled, others) := h.settle next steps others
    settled.toList ++ settleAll next steps fuel others

/-! ## Taking a piece -/

/-- What an end becomes when a piece is taken. -/
inductive Growth where
  /-- A frame with the front of its tree and what waits below. -/
  | frame (wait : Wait) (front : List Tree) (under : Frame)
  /-- A tree on its frame. -/
  | tree (state : Standing) (reading : Reading)

/-- What can become of an end at which an operand is expected. -/
def Piece.growWaiting (p : Piece) (f : Frame) : List Growth :=
  let operand (t : Tree) : Growth := .tree .operand ⟨t, f⟩
  match p with
  | .sign op | .negation op => [.frame .unary [op.as .operator] f]
  | .step op => [.frame .step [op] f]
  | .castHead parts => [.frame .cast parts f]
  | .named parts t castFirst =>
    if castFirst then [.frame .cast parts f, operand t] else [operand t, .frame .cast parts f]
  | .operand t isPlain => [if isPlain then operand t else .tree .compound ⟨t, f⟩]
  | .binary .. | .typeTest _ => []

/-- What can become of a settled expression. -/
def Piece.growStanding (p : Piece) (r : Reading) : List Growth :=
  let operator (op : Tree) (level : Nat) : Growth :=
    .frame (.right level) [r.tree.as .left, op.as .operator] r.frame
  match p with
  | .sign op => [operator op sumLevel]
  | .binary op level => [operator op level]
  | .step op => [.tree .compound ⟨.node none .updateExpr [r.tree, op], r.frame⟩]
  | .typeTest parts =>
      [.tree .compound ⟨.node none .instanceofExpr (r.tree.as .left :: parts), r.frame⟩]
  | _ => []

/-- What can become of an end. -/
def Piece.grow (p : Piece) : Head → List Growth
  | .waiting f => p.growWaiting f
  | .standing _ rs => rs.flatMap p.growStanding

/-- Add what an end becomes to the ends of the new place; ends that wait for the same become one. -/
def addGrowth (place : Nat) : List Head → Growth → List Head
  | [], .frame w front under => [.waiting (.mk w place [(front, under)])]
  | [], .tree state r => [.standing state [r]]
  | .waiting f :: rest, .frame w front under =>
    if f.wait = w then
      if f.links.any (·.2.isSame under) || readingLimit ≤ f.links.length then .waiting f :: rest
      else .waiting (.mk w place (f.links ++ [(front, under)])) :: rest
    else .waiting f :: addGrowth place rest (.frame w front under)
  | .standing s rs :: rest, .tree state r =>
    if s = state then .standing s (Reading.addByFrame rs r) :: rest
    else .standing s rs :: addGrowth place rest (.tree state r)
  | h :: rest, growth => h :: addGrowth place rest growth

/-- Settle all ends for what comes at a place in the row. -/
def settleFor (place : Nat) (next : Option Piece) (heads : List Head) : List Head :=
  Head.settleAll next (2 * place + 4) (8 * place + 32) heads

/-- Is an operand expected in front of the piece only? -/
def Piece.startsOperand : Piece → Bool
  | .negation _ | .castHead _ | .named .. | .operand .. => true
  | _ => false

/-- Take the pieces of a row one by one, from a place on; the tree of the first reading that comes
to the end. -/
def groupFrom (place : Nat) (heads : List Head) : List Piece → Option Tree
  | [] =>
    (settleFor place none heads).findSome? fun
      | .standing (.expression .whole) (r :: _) => some r.tree
      | _ => none
  | p :: rest =>
    let settled := if p.startsOperand then heads else settleFor place (some p) heads
    let growths := settled.flatMap p.grow
    groupFrom (place + 1) (growths.foldl (addGrowth (place + 1)) []) rest

/-- The tree of the pieces in a row; `hasRival` tells whether another reading of the text before it
goes on beside it, and in front of it. -/
def group? (hasRival : Bool) (pieces : List Piece) : Option Tree :=
  let rivals : List Head := if hasRival then [.waiting (.mk .rival 0 [])] else []
  groupFrom 0 (rivals ++ [.waiting (.mk .whole 0 [])]) pieces

end KernelLint.Java
