import BlankLines.Command.Line

/-!
# Command — Level

How the words of one level of a command line are read: the program's own, or those of a command.

A word is `--`, a long option, a bundle of short options, or plain.  An option that takes a value
takes it attached or from the next word, if that is plain.  A value from the next word waits: it is
judged only when the next option or path comes, or at the end of the level.

* `Level.run`: reads words up to a command's name or the end.
* `Reading.settle`: judges what waits.
-/

namespace BlankLines

/-- What an option does to the arguments of its level. -/
inductive Effect (σ : Type) where
  /-- Sets something; may stand once. -/
  | flag (set : σ → σ)
  /-- Counts; may stand any number of times. -/
  | count (next : σ → σ)
  /-- Takes a value; may stand once unless `many`. -/
  | value (many : Bool) (set : String → σ → Except Refusal σ)
  /-- Displays something in place of running. -/
  | display (refusal : Refusal)

/-- An option: its short name if it has one, its long name, and what it does. -/
structure OptionSpec (σ : Type) where
  short : Option Char
  long : String
  effect : Effect σ

/-- A level: its options, what paths do if it takes any, and the names of its commands. -/
structure Level (σ : Type) where
  options : List (OptionSpec σ)
  paths : Option (List String → σ → Except Refusal σ) := none
  commands : List String := []

/-- What waits to be judged. -/
inductive Waiting (σ : Type) where
  | nothing
  | option (spec : OptionSpec σ) (value : Option String)
  | paths (values : List String)

/-- What has been read of a level: its arguments, the options met, and what waits. -/
structure Reading (σ : Type) where
  args : σ
  met : List String := []
  waiting : Waiting σ := .nothing

/-- A word of a command line. -/
inductive Word where
  /-- `--`, after which every word is plain. -/
  | stop
  | long (name : String) (value : Option String)
  | short (letters : List Char)
  | plain
deriving DecidableEq, Repr

/-- What kind of word a text is; a single `-` is plain. -/
def Word.ofText (text : String) : Word :=
  match text.toList with
  | ['-', '-'] => .stop
  | '-' :: '-' :: rest =>
    match rest.dropWhile (· ≠ '=') with
    | _ :: value => .long (String.ofList (rest.takeWhile (· ≠ '='))) (some (String.ofList value))
    | []         => .long (String.ofList rest) none
  | '-' :: c :: rest => .short (c :: rest)
  | _ => .plain

variable {σ : Type}

namespace Reading

/-- Takes an option without a value of its own. -/
def takeFlag (r : Reading σ) (spec : OptionSpec σ) : Except Refusal (Reading σ) :=
  let met := spec.long :: r.met
  match spec.effect with
  | .flag set =>
    if r.met.contains spec.long then .error .repeated
    else .ok { r with args := set r.args, met }
  | .count next => .ok { r with args := next r.args, met }
  | .display refusal => .error refusal
  | .value _ _ => .error .invalidValue

/-- Takes an option with a value. -/
def takeValue (r : Reading σ) (spec : OptionSpec σ) (value : String) :
    Except Refusal (Reading σ) :=
  match spec.effect with
  | .value many set =>
    if !many && r.met.contains spec.long then .error .repeated
    else (set value r.args).map fun args => { r with args, met := spec.long :: r.met }
  | _ => .error .unwantedValue

/-- Judges what waits. -/
def settle (l : Level σ) (r : Reading σ) : Except Refusal (Reading σ) :=
  let calm := { r with waiting := .nothing }
  match r.waiting with
  | .nothing => .ok r
  | .option _ none => .error .invalidValue
  | .option spec (some value) => calm.takeValue spec value
  | .paths values =>
    match l.paths with
    | some set => (set values r.args).map fun args => { calm with args }
    | none     => .ok calm

end Reading

namespace Level

/-- Takes an option, with a value if one is attached; the answer tells whether it waits for one. -/
def takeOption (l : Level σ) (r : Reading σ) (spec : OptionSpec σ) (attached : Option String) :
    Except Refusal (Reading σ × Bool) := do
  let r ← r.settle l
  match spec.effect, attached with
  | .value _ _, none => return ({ r with waiting := .option spec none }, true)
  | .value _ _, some value => return (← r.takeValue spec value, false)
  | _, _ => return (← r.takeFlag spec, false)

/-- Takes a long option. -/
def takeLong (l : Level σ) (r : Reading σ) (name : String) (attached : Option String) :
    Except Refusal (Reading σ × Bool) :=
  match l.options.find? (·.long = name) with
  | none => .error .unknownArgument
  | some spec =>
    match spec.effect, attached with
    | .value _ _, _ => l.takeOption r spec attached
    | _, some _     => .error .unwantedValue
    | _, none       => l.takeOption r spec none

/-- Takes a bundle of short options; what follows one that takes a value is that value, less a
leading `=`. -/
def takeShort (l : Level σ) (r : Reading σ) : List Char → Except Refusal (Reading σ × Bool)
  | [] => .ok (r, false)
  | c :: rest =>
    match l.options.find? (·.short = some c) with
    | none => .error .unknownArgument
    | some spec =>
      match spec.effect with
      | .value _ _ =>
        let attached := match rest with
          | []          => none
          | '=' :: rest => some (String.ofList rest)
          | rest        => some (String.ofList rest)
        l.takeOption r spec attached
      | _ => do
        let (r, _) ← l.takeOption r spec none
        takeShort l r rest

/-- Takes a plain word that no option waits for; `stopped` tells whether `--` has been met. -/
def takePlain (l : Level σ) (r : Reading σ) (stopped : Bool) (word : String) :
    Except Refusal (Reading σ) :=
  match l.paths, r.waiting with
  | some _, .paths values => .ok { r with waiting := .paths (values ++ [word]) }
  | some _, _ => (r.settle l).map fun r => { r with waiting := .paths [word] }
  | none, _ =>
    if l.commands.isEmpty || stopped && l.commands.contains word then .error .unknownArgument
    else .error .unknownCommand

/-- Gives a plain word to the option that waits for one. -/
def giveValue (r : Reading σ) (word : String) : Reading σ :=
  match r.waiting with
  | .option spec _ => { r with waiting := .option spec (some word) }
  | _ => r

/-- Reads words up to the name of a command, which is returned with the words after it. -/
def run (l : Level σ) (r : Reading σ) (stopped expecting : Bool) :
    List String → Except Refusal (Reading σ × Option (String × List String))
  | [] => .ok (r, none)
  | word :: rest =>
    if stopped then do
      let r ← l.takePlain r stopped word
      run l r stopped expecting rest
    else if !expecting && l.commands.contains word then .ok (r, some (word, rest))
    else
      match Word.ofText word with
      | .stop => run l r true expecting rest
      | .long name attached => do
        let (r, expecting) ← l.takeLong r name attached
        run l r stopped expecting rest
      | .short letters => do
        let (r, expecting) ← l.takeShort r letters
        run l r stopped expecting rest
      | .plain =>
        if expecting then run l (giveValue r word) stopped false rest
        else do
          let r ← l.takePlain r stopped word
          run l r stopped false rest

/-- Reads a level without commands to its end. -/
def finish (l : Level σ) (args : σ) (words : List String) : Except Refusal σ := do
  let (r, _) ← l.run { args } false false words
  let r ← r.settle l
  return r.args

end Level

end BlankLines
