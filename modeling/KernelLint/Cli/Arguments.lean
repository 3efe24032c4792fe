import KernelLint.Config.Preset
import KernelLint.Source.Path
import KernelLint.Text.Cut

/-!
# Command lines

What the words of a command line ask for. Some options can stand before or after the name of the
action, where the later place wins; within one place no option can be given twice.

A value is checked when the next option is read, and the values before the action only once
everything after it is right. So a request for help is granted although a value is wrong, as long as
nothing has made the value count before.
-/

namespace KernelLint.Cli

/-- What is to be done. -/
inductive Action where
  /-- Report what is wrong with the kernels. -/
  | check
  /-- List the kernels that can be run. -/
  | tasks
  deriving DecidableEq, Inhabited

/-- How results are printed. -/
inductive Format where
  | text | json
  deriving DecidableEq, Inhabited

/-- A complete request. -/
structure Command where
  action : Action
  /-- Files and directories of the project. -/
  paths : List Path
  library : Option Path := none
  format : Format := .text
  config : Option Path := none
  preset : Option Preset := none
  jobs : Option Nat := none
  deriving Inhabited

/-- Why a command line is not carried out. -/
inductive Refusal where
  /-- It asks for help instead. -/
  | help
  | unknownOption (word : String)
  | missingValue (option : String)
  | unexpectedValue (option : String)
  | repeatedOption (option : String)
  | badValue (option value : String)
  | unexpectedWord (word : String)
  | missingAction
  | missingPaths
  deriving DecidableEq

/-- The options with a value. -/
inductive Setting where
  | config | preset | jobs | library | format
  deriving DecidableEq

namespace Setting

/-- The long name of an option. -/
def label : Setting → String
  | .config => "config"
  | .preset => "preset"
  | .jobs => "jobs"
  | .library => "library"
  | .format => "format"

def letter? : Setting → Option Char
  | .config => some 'c'
  | .preset => none
  | .jobs => some 'j'
  | .library => some 'l'
  | .format => some 'f'

def outer : List Setting := [.config, .preset, .jobs]

def inner : List Setting := outer ++ [.library, .format]

end Setting

/-! ## Values -/

/-- A path; it must not be empty. -/
def readPath (option text : String) : Except Refusal Path :=
  if text.isEmpty then .error (.badValue option text) else .ok ⟨text⟩

def readFormat (text : String) : Except Refusal Format :=
  if text = "text" then .ok .text
  else if text = "json" then .ok .json
  else .error (.badValue "format" text)

/-- A number of workers: digits, with a plus sign if any. -/
def readJobs (text : String) : Except Refusal Nat :=
  let digits := match text.toList with
    | '+' :: rest => rest
    | all => all
  if digits.isEmpty || digits.any (!·.isDigit) then .error (.badValue "jobs" text)
  else
    let n := digits.foldl (fun n c => 10 * n + (c.toNat - '0'.toNat)) 0
    if n < Nat.pow 2 64 then .ok n else .error (.badValue "jobs" text)

def readPreset (text : String) : Except Refusal Preset :=
  match Preset.parse text with
  | .ok preset => .ok preset
  | .error _ => .error (.badValue "preset" text)

/-! ## One place -/

/-- The values given at one place, before or after the action. -/
structure Given where
  config : Option Path := none
  preset : Option Preset := none
  jobs : Option Nat := none
  library : Option Path := none
  format : Option Format := none
  paths : List Path := []
  deriving Inhabited

namespace Given

/-- Take a value over unless there is one already. -/
def once {α : Type} (s : Setting) (old : Option α) (new : Except Refusal α) :
    Except Refusal (Option α) :=
  if old.isSome then .error (.repeatedOption s.label) else new.map some

/-- Take over the value of an option. -/
def put (g : Given) (s : Setting) (text : String) : Except Refusal Given :=
  match s with
  | .config => (once s g.config (readPath s.label text)).map fun v => { g with config := v }
  | .preset => (once s g.preset (readPreset text)).map fun v => { g with preset := v }
  | .jobs => (once s g.jobs (readJobs text)).map fun v => { g with jobs := v }
  | .library => (once s g.library (readPath s.label text)).map fun v => { g with library := v }
  | .format => (once s g.format (readFormat text)).map fun v => { g with format := v }

def addPaths (g : Given) (words : List String) : Except Refusal Given :=
  (words.mapM (readPath "paths")).map fun paths => { g with paths := g.paths ++ paths }

end Given

/-- What has been read last and does not count yet. -/
inductive Waiting where
  | nothing
  /-- An option that takes the next word as its value. -/
  | option (s : Setting)
  | value (s : Setting) (text : String)
  | paths (words : List String)

/-- How far one place has been read. -/
structure Place where
  /-- The options that can stand here. -/
  allowed : List Setting
  given : Given := {}
  waiting : Waiting := .nothing

namespace Place

/-- Make count what has been read last. -/
def settle (p : Place) : Except Refusal Place :=
  match p.waiting with
  | .nothing => .ok p
  | .option s => .error (.missingValue s.label)
  | .value s text => (p.given.put s text).map fun g => { p with given := g, waiting := .nothing }
  | .paths words => (p.given.addPaths words).map fun g => { p with given := g, waiting := .nothing }

/-- An option with its value in the same word, which counts at once. -/
def put (p : Place) (s : Setting) (text : String) : Except Refusal Place :=
  ({ p with waiting := .value s text } : Place).settle

/-- A long option, without its dashes. -/
def readLong (p : Place) (body : String) : Except Refusal Place :=
  let (name, value?) := match Text.splitFirst? '=' body with
    | some (name, value) => (name, some value)
    | none => (body, none)
  let isSwitch := name = "help" || name = "verbose"
  match p.allowed.find? (·.label = name), value? with
  | some s, some value => p.settle.bind (·.put s value)
  | some s, none => p.settle.map fun p => { p with waiting := .option s }
  | none, some _ => .error (if isSwitch then .unexpectedValue name else .unknownOption name)
  | none, none =>
    if !isSwitch then .error (.unknownOption name)
    else if name = "help" then p.settle.bind fun _ => .error .help
    else p.settle

/-- A group of option letters; the rest of the word after a letter that takes a value is its
value. -/
def readShort : Place → List Char → Except Refusal Place
  | p, [] => .ok p
  | p, c :: rest =>
    if c = 'h' then p.settle.bind fun _ => .error .help
    else if c = 'v' then p.settle.bind (readShort · rest)
    else match p.allowed.find? (·.letter? = some c), rest with
      | none, _ => .error (.unknownOption (String.ofList [c]))
      | some s, [] => p.settle.map fun p => { p with waiting := .option s }
      | some s, '=' :: value => p.settle.bind (·.put s (String.ofList value))
      | some s, value => p.settle.bind (·.put s (String.ofList value))

def readOption (p : Place) (word : String) : Except Refusal Place :=
  match word.toList with
  | '-' :: '-' :: body => p.readLong (String.ofList body)
  | _ :: body => p.readShort body
  | [] => .ok p

def addPaths (p : Place) (words : List String) : Except Refusal Place :=
  match p.waiting with
  | .paths earlier => .ok { p with waiting := .paths (earlier ++ words) }
  | _ => p.settle.map fun p => { p with waiting := .paths words }

end Place

def isOption (word : String) : Bool := Text.startsWith word "-" && word ≠ "-"

/-! ## All words -/

def Action.ofName? (word : String) : Option Action :=
  if word = "check" then some .check
  else if word = "tasks" then some .tasks
  else none

/-- What the words after the request for help say. Help can be had on one action, and on help. -/
def readHelp : List String → Refusal
  | [] => .help
  | [topic] => if (Action.ofName? topic).isSome || topic = "help" then .help
      else .unexpectedWord topic
  | _ :: word :: _ => .unexpectedWord word

/-- Read up to the action. What is left are the words after it. -/
def readBefore : Place → List String → Except Refusal (Place × Action × List String)
  | p, [] => p.settle.bind fun _ => .error .missingAction
  | p, word :: rest =>
    match p.waiting with
    | .option s =>
      if isOption word then .error (.missingValue s.label)
      else readBefore { p with waiting := .value s word } rest
    | _ =>
      if word = "--" then .error (.unexpectedWord word)
      else if isOption word then (p.readOption word).bind (readBefore · rest)
      else if word = "help" then .error (readHelp rest)
      else match Action.ofName? word with
        | some action => .ok (p, action, rest)
        | none => .error (.unexpectedWord word)

/-- Read the words after the action; after `--` no word is an option. -/
def readAfter : Place → List String → Except Refusal Place
  | p, [] => p.settle
  | p, word :: rest =>
    match p.waiting with
    | .option s =>
      if isOption word then .error (.missingValue s.label)
      else readAfter { p with waiting := .value s word } rest
    | _ =>
      if word = "--" then (if rest.isEmpty then .ok p else p.addPaths rest).bind Place.settle
      else if isOption word then (p.readOption word).bind (readAfter · rest)
      else (p.addPaths [word]).bind (readAfter · rest)

/-- The request made by an action with the values before and after it. -/
def Action.request (action : Action) (before after : Given) : Command where
  action := action
  paths := after.paths
  library := after.library
  format := after.format.getD .text
  config := after.config <|> before.config
  preset := after.preset <|> before.preset
  jobs := after.jobs <|> before.jobs

def Command.parse (words : List String) : Except Refusal Command := do
  let (before, action, rest) ← readBefore { allowed := Setting.outer } words
  let after ← readAfter { allowed := Setting.inner } rest
  if after.given.paths.isEmpty then throw .missingPaths
  return action.request (← before.settle).given after.given

end KernelLint.Cli
