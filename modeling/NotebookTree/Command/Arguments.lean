import NotebookTree.Text.Character
import NotebookTree.Text.Quoted
import NotebookTree.Value.Spelling

/-!
# Arguments of commands

A command takes flags and operands, in any order. First it is told for each argument which of the
two it is, and then the arguments are taken from left to right. Arguments that a command does not
know are left over. A long flag may be cut short as long as it is clear which one is meant.

## Main definitions

* `Flag`, `Operand`, `Grammar`: what a command takes.
* `Sign`, `classify`: what an argument is.
* `Ending`: what ends a command before it starts: a cry for help, or a complaint.
* `Taken`, `Grammar.take`: the arguments by their roles.

Reference: `create_parser`, with the reading of arguments by the parser of the standard library that
it builds.
-/

namespace NotebookTree.Command

/-- A flag. A short name has one dash and a long one two; a flag with a short name takes no value.
-/
structure Flag where
  short : Option Char := none
  long : String
  takesValue : Bool := false
  /-- The values it takes; any if there are none. -/
  choices : List String := []

/-- The operand of a command. -/
structure Operand where
  name : String
  /-- The values it takes; any if there are none. -/
  choices : List String := []
  /-- Whether everything behind it goes along with it. -/
  takesRest : Bool := false

/-- What a command takes, and what it tells about itself. -/
structure Grammar where
  program : String
  usage : String
  help : String
  flags : List Flag
  operand : Operand

/-- What ends a command before it starts. -/
inductive Ending where
  | help (g : Grammar)
  | complaint (g : Grammar) (message : String)

namespace Ending

/-- What stands on the output. -/
def output : Ending → String
  | help g => g.usage ++ "\n" ++ g.help
  | complaint _ _ => ""

/-- What stands on the console. -/
def console : Ending → String
  | help _ => ""
  | complaint g message => g.usage ++ g.program ++ ": error: " ++ message ++ "\n"

/-- The answer of the command. -/
def exitCode : Ending → Nat
  | help _ => 0
  | complaint _ _ => 2

end Ending

namespace Flag

/-- The names of a flag, with their dashes. -/
def names (f : Flag) : List String :=
  (match f.short with
    | some c => [String.ofList ['-', c]]
    | none => []) ++ ["--" ++ f.long]

/-- A flag as complaints speak of it. -/
def shown (f : Flag) : String := Value.joinWith "/" f.names

end Flag

/-- A flag in an argument. -/
structure Use where
  flag : Flag
  /-- The value that stands in the same argument. -/
  inside : Option (List Char) := none
  /-- Whether the name was written out behind two dashes, or cut short there. -/
  isLong : Bool
  /-- Whether an equals sign stands before the value. -/
  assigned : Bool := false

/-- What an argument is. -/
inductive Sign where
  | operand
  | separator
  | unknown
  | flag (u : Use)

/-- What stands before the first equals sign, and what stands behind it if there is one. -/
def splitAssigned (cs : List Char) : List Char × Option (List Char) :=
  match cs.dropWhile (· != '=') with
  | [] => (cs, none)
  | _ :: value => (cs.takeWhile (· != '='), some value)

/-- Whether characters are a negative number, with or without a point. A line end may follow. -/
def isNegativeNumber (cs : List Char) : Bool :=
  let body := if cs.getLast? == some '\n' then cs.dropLast else cs
  match body with
  | '-' :: ds => match ds.dropWhile Text.isDecimalDigit with
    | [] => !ds.isEmpty
    | '.' :: es => !es.isEmpty && es.all Text.isDecimalDigit
    | _ => false
  | _ => false

namespace Grammar

/-- The names of all flags, each with its flag. -/
def names (g : Grammar) : List (String × Flag) :=
  g.flags.flatMap (fun f => f.names.map (·, f))

/-- The flag with a name. -/
def flag? (g : Grammar) (name : List Char) : Option Flag :=
  g.names.lookup (String.ofList name)

/-- The flags that an argument with two dashes may mean when names may be cut short, and the one
with the short name behind a single dash. -/
def candidates (g : Grammar) (w : List Char) : List (String × Use) :=
  match w with
  | '-' :: '-' :: _ =>
    let (start, value) := splitAssigned w
    (g.names.filter (fun n => start.isPrefixOf n.1.toList)).map (fun n =>
      (n.1, ⟨n.2, value, true, value.isSome⟩))
  | _ =>
    (g.names.filter (fun n => n.1.toList == w.take 2)).map (fun n =>
      (n.1, ⟨n.2, some (w.drop 2), false, false⟩))

/-- What an argument is that starts with a dash and has more behind it. -/
def signOf (g : Grammar) (w : List Char) : Except Ending Sign :=
  let isLong := ['-', '-'].isPrefixOf w
  let (start, value) := splitAssigned w
  match g.flag? w, value, g.flag? start with
  | some f, _, _ => .ok (.flag ⟨f, none, isLong, false⟩)
  | none, some v, some f => .ok (.flag ⟨f, some v, isLong, true⟩)
  | _, _, _ => match g.candidates w with
    | [(_, u)] => .ok (.flag u)
    | [] => if isNegativeNumber w || w.contains ' ' then .ok .operand else .ok .unknown
    | cs => .error (.complaint g ("ambiguous option: " ++ String.ofList w ++ " could match "
        ++ Value.joinWith ", " (cs.map Prod.fst)))

/-- What each argument is. Behind two dashes there are only operands. -/
def classify (g : Grammar) : List String → Except Ending (List (String × Sign))
  | [] => .ok []
  | w :: ws =>
    if w == "--" then .ok ((w, .separator) :: ws.map (·, .operand))
    else do
      let sign ← match w.toList with
        | '-' :: c :: cs => g.signOf ('-' :: c :: cs)
        | _ => pure .operand
      return (w, sign) :: (← classify g ws)

end Grammar

/-- The arguments by their roles: the flags with their values in order, the operand with what goes
along with it, and what is left over. -/
structure Taken where
  flags : List (String × Option String) := []
  operands : List String := []
  extras : List String := []

namespace Taken

/-- Whether a flag is there. -/
def has (t : Taken) (long : String) : Bool := t.flags.any (fun f => f.1 == long)

/-- The values of a flag, in order. -/
def values (t : Taken) (long : String) : List String :=
  t.flags.filterMap (fun f => if f.1 == long then f.2 else none)

/-- The last value of a flag. -/
def value? (t : Taken) (long : String) : Option String := (t.values long).getLast?

/-- With one more argument left over. -/
def leave (t : Taken) (w : String) : Taken := { t with extras := t.extras ++ [w] }

end Taken

namespace Grammar

/-- The complaint about a value that a name does not take. -/
def checkChoice (g : Grammar) (shown : String) (choices : List String) (v : String) :
    Except Ending Unit :=
  if choices.isEmpty || choices.contains v then .ok ()
  else .error (.complaint g ("argument " ++ shown ++ ": invalid choice: " ++ Text.quote v
    ++ " (choose from " ++ Value.joinWith ", " (choices.map Text.quote) ++ ")"))

/-- Takes a flag without a value. The flag for help ends the command. -/
def takeFlag (g : Grammar) (f : Flag) (t : Taken) : Except Ending Taken :=
  if f.long == "help" then .error (.help g) else .ok { t with flags := t.flags ++ [(f.long, none)] }

/-- Takes a flag with a value. -/
def takeValue (g : Grammar) (f : Flag) (v : String) (t : Taken) : Except Ending Taken := do
  g.checkChoice f.shown f.choices v
  return { t with flags := t.flags ++ [(f.long, some v)] }

/-- The complaint about a value that a flag does not take. -/
def ignored (g : Grammar) (f : Flag) (v : List Char) : Ending :=
  .complaint g ("argument " ++ f.shown ++ ": ignored explicit argument "
    ++ Text.quote (String.ofList v))

/-- The flags that stand behind one dash, after the first of them, and what is left over when a
letter is met that is no flag. -/
def cluster (g : Grammar) (f : Flag) (assigned : Bool) : List Char →
    Except Ending (List Flag × Option String)
  | [] => .error (g.ignored f [])
  | c :: cs =>
    if assigned || c == '-' then .error (g.ignored f (c :: cs))
    else match g.flag? ['-', c] with
      | none => .ok ([f], some (String.ofList ('-' :: c :: cs)))
      | some next => match cs with
        | [] => .ok ([f, next], none)
        | '=' :: v => .error (g.ignored next v)
        | d :: ds => do
          let (fs, extra) ← cluster g next false (d :: ds)
          return (f :: fs, extra)

/-- Takes flags without values, one after the other. -/
def takeFlags (g : Grammar) (fs : List Flag) (t : Taken) : Except Ending Taken :=
  fs.foldlM (fun t f => g.takeFlag f t) t

/-- Takes a flag that has a value in the same argument. -/
def takeInside (g : Grammar) (u : Use) (v : List Char) (t : Taken) : Except Ending Taken := do
  if u.flag.takesValue then g.takeValue u.flag (String.ofList v) t
  else if u.isLong then throw (g.ignored u.flag v)
  else
    let (fs, extra) ← g.cluster u.flag u.assigned v
    g.takeFlags fs (match extra with
      | some w => t.leave w
      | none => t)

/-- Takes the operand, with a separator in front of it and behind it. -/
def takeOperand (g : Grammar) (words : List String) (t : Taken) : Except Ending Taken := do
  let words := if g.operand.takesRest then words else words.erase "--"
  g.checkChoice g.operand.name g.operand.choices (words.headD "")
  return { t with operands := words }

/-- Takes the arguments from left to right. The operand is taken once; a separator goes along with
it on either side. -/
def takeAll (g : Grammar) (t : Taken) : List (String × Sign) → Except Ending Taken
  | [] => .ok t
  | (w, .separator) :: rest =>
    match rest with
    | (v, .operand) :: rest' =>
      if !t.operands.isEmpty then takeAll g ((t.leave w).leave v) rest'
      else if g.operand.takesRest then g.takeOperand (w :: v :: rest'.map Prod.fst) t
      else do takeAll g (← g.takeOperand [w, v] t) rest'
    | rest => takeAll g (t.leave w) rest
  | (w, .operand) :: rest =>
    if !t.operands.isEmpty then takeAll g (t.leave w) rest
    else if g.operand.takesRest then g.takeOperand (w :: rest.map Prod.fst) t
    else match rest with
      | (s, .separator) :: rest' => do takeAll g (← g.takeOperand [w, s] t) rest'
      | rest => do takeAll g (← g.takeOperand [w] t) rest
  | (w, .unknown) :: rest => takeAll g (t.leave w) rest
  | (_, .flag u) :: rest => match u.inside with
    | some v => do takeAll g (← g.takeInside u v t) rest
    | none =>
      if !u.flag.takesValue then do takeAll g (← g.takeFlag u.flag t) rest
      else match rest with
        | (v, .operand) :: rest' => do takeAll g (← g.takeValue u.flag v t) rest'
        | _ => .error (.complaint g ("argument " ++ u.flag.shown ++ ": expected one argument"))
termination_by args => args.length

/-- The arguments by their roles. The operand has to be there. -/
def take (g : Grammar) (args : List String) : Except Ending Taken := do
  let taken ← g.takeAll {} (← g.classify args)
  if taken.operands.isEmpty then
    throw (.complaint g ("the following arguments are required: " ++ g.operand.name))
  return taken

end Grammar

end NotebookTree.Command
