import Edm.Command

/-!
This module contains the reading of command lines: options for all commands, the name of a command,
and the options and the arguments of that command. Options can be given in any order, the options
for all commands also behind the name of the command, and `--` ends the options.
-/

namespace Edm.Command

inductive Operand where
  | none
  | text
  | number
deriving DecidableEq, Repr

structure Flag where
  name : String
  short? : Option Char := .none
  operand : Operand := .none
deriving DecidableEq, Repr

structure Grammar where
  flags : List Flag
  arguments : Nat := 0
  commands : List String := []

/-- Why a command line is not a command: it asks for help, or it is wrong. -/
inductive Stop where
  | help
  | misuse
deriving DecidableEq, Repr

/-- Numbers have to fit 64 bits; they may have a plus sign. -/
def number? (text : String) : Option Nat :=
  let digits := match text.toList with
    | '+' :: cs => cs
    | cs => cs
  let n := Ieee.digitsValue digits
  if digits.isEmpty ∨ !digits.all Char.isDigit ∨ 18446744073709551616 ≤ n then none else some n

structure Given where
  options : List (String × String) := []
  /-- The last option, if its value is an argument of its own; it is checked after what follows. -/
  last? : Option (Flag × String) := none
  arguments : List String := []
  command? : Option (String × List String) := none

namespace Given

def has (g : Given) (name : String) : Bool := g.options.any fun (n, _) => n == name

def value? (g : Given) (name : String) : Option String := g.options.lookup name

def number? (g : Given) (name : String) : Option Nat := (g.value? name).bind Command.number?

/-- Add an option, which can be given once only. -/
def addOption (g : Given) (f : Flag) (value : String) : Except Stop Given :=
  if g.has f.name ∨ (f.operand = .number ∧ (Command.number? value).isNone) then .error .misuse
  else .ok { g with options := g.options ++ [(f.name, value)] }

def settle (g : Given) : Except Stop Given :=
  match g.last? with
  | none => .ok g
  | some (f, value) => addOption { g with last? := none } f value

def addFlag (g : Given) (f : Flag) : Except Stop Given :=
  if f.name = "help" ∨ f.name = "version" then .error .help else g.addOption f ""

end Given

/-- An argument that starts with a hyphen is an option, except for the hyphen alone. -/
def isOption (arg : String) : Bool :=
  match arg.toList with
  | ['-'] => false
  | '-' :: _ => true
  | _ => false

def readShort (g : Grammar) (given : Given) : List Char → Except Stop (Given × Option Flag)
  | [] => .ok (given, none)
  | c :: cs =>
    match g.flags.find? fun f => f.short? == some c with
    | none => .error .misuse
    | some f =>
      if f.operand = .none then do readShort g (← given.addFlag f) cs
      else
        match cs with
        | [] => .ok (given, some f)
        | '=' :: value => return (← given.addOption f (.ofList value), none)
        | value => return (← given.addOption f (.ofList value), none)

/-- The option after two hyphens, or that option if its value is still to come. -/
def readLong (g : Grammar) (given : Given) (cs : List Char) : Except Stop (Given × Option Flag) :=
  let name := String.ofList (cs.takeWhile (· != '='))
  match g.flags.find? fun f => f.name == name with
  | none => .error .misuse
  | some f =>
    match decide (f.operand = .none), cs.dropWhile (· != '=') with
    | true, [] => return (← given.addFlag f, none)
    | true, _ => .error .misuse
    | false, [] => .ok (given, some f)
    | false, _ :: value => return (← given.addOption f (.ofList value), none)

def Grammar.read.go (g : Grammar) (given : Given) (wanting : Option Flag) :
    List String → Except Stop Given
  | [] => if wanting.isSome then .error .misuse else given.settle
  | arg :: args =>
    match wanting with
    | some f =>
      if isOption arg then .error .misuse else go g { given with last? := some (f, arg) } none args
    | none =>
      if g.commands.contains arg then .ok { given with command? := some (arg, args) }
      else
        match given.settle with
        | .error stop => .error stop
        | .ok given =>
          if arg = "--" then
            if g.arguments < given.arguments.length + args.length then .error .misuse
            else .ok { given with arguments := given.arguments ++ args }
          else if isOption arg then
            let step :=
              match arg.toList with
              | '-' :: '-' :: cs => readLong g given cs
              | cs => readShort g given cs.tail
            match step with
            | .error stop => .error stop
            | .ok (given, wanting) => go g given wanting args
          else if g.arguments ≤ given.arguments.length then .error .misuse
          else go g { given with arguments := given.arguments ++ [arg] } none args

def Grammar.read (g : Grammar) (args : List String) : Except Stop Given := read.go g {} none args

/-! ### The command line -/

def sharedFlags : List Flag := [
  { name := "max-results", operand := .number },
  { name := "omit-nulls" },
  { name := "verbose", short? := some 'v' },
  { name := "help", short? := some 'h' }]

def formatFlag : Flag := { name := "format", short? := some 'f', operand := .text }

def commandNames : List String := ["metadata", "query", "count", "version", "help"]

def topGrammar : Grammar where
  flags := sharedFlags ++ [{ name := "version", short? := some 'V' }]
  commands := commandNames

def metadataGrammar : Grammar where
  flags := sharedFlags ++ [formatFlag]

def queryGrammar : Grammar where
  flags := sharedFlags ++ [
    { name := "filter", operand := .text },
    { name := "order-by", operand := .text },
    { name := "top", operand := .number },
    { name := "skip", operand := .number },
    { name := "skip-token", operand := .text },
    { name := "inline-count" },
    { name := "select", operand := .text },
    { name := "expand", operand := .text }]
  arguments := 1

def countGrammar : Grammar where
  flags := sharedFlags ++ [
    { name := "filter", operand := .text },
    { name := "top", operand := .number },
    { name := "skip", operand := .number },
    formatFlag]
  arguments := 1

def versionGrammar : Grammar where
  flags := sharedFlags

/-- The format of the result, which is a text by default. -/
def Given.format (g : Given) : Format := .ofName ((g.value? "format").getD "text")

def Given.argument (g : Given) : Except Stop String :=
  match g.arguments.head? with
  | none => .error .misuse
  | some arg => .ok arg

structure Invocation where
  command : Command
  maxResults? : Option Nat
  omitNulls : Bool
deriving DecidableEq, Repr

def readCommand (name : String) (args : List String) : Except Stop (Command × Given) :=
  match name with
  | "metadata" => do
    let g ← metadataGrammar.read args
    return (.metadata g.format, g)
  | "query" => do
    let g ← queryGrammar.read args
    let options : QueryOptions := {
      filter? := g.value? "filter"
      orderBy? := g.value? "order-by"
      top? := g.number? "top"
      skip? := g.number? "skip"
      skipToken? := g.value? "skip-token"
      inlineCount := g.has "inline-count"
      select? := g.value? "select"
      expand? := g.value? "expand" }
    return (.query (← g.argument) options, g)
  | "count" => do
    let g ← countGrammar.read args
    let set ← g.argument
    return (.count set (g.value? "filter") (g.number? "top") (g.number? "skip") g.format, g)
  | "version" => do
    let g ← versionGrammar.read args
    return (.version, g)
  | _ => .error .misuse

def helpOn : List String → Stop
  | [] => .help
  | [name] => if commandNames.contains name then .help else .misuse
  | _ => .misuse

/-- Read a command line. What is given behind the name of the command comes first. -/
def readArgs (args : List String) : Except Stop Invocation := do
  let top ← topGrammar.read args
  match top.command? with
  | none => throw .misuse
  | some ("help", args) => throw (helpOn args)
  | some (name, args) =>
    let (command, given) ← readCommand name args
    let top ← top.settle
    return ⟨command, (given.number? "max-results").or (top.number? "max-results"),
      given.has "omit-nulls" || top.has "omit-nulls"⟩

end Edm.Command
