import CrateAtlas.Json

/-!
Arguments of a command line: flags, alone or with an operand behind a blank or an equals sign,
short ones also run together, and whatever else stands between them.
-/

namespace CrateAtlas.CommandLine

inductive Operand where
  | absent
  | text (placeholder : String)
  | texts (placeholder : String)
  | choice (placeholder : String) (labels : List String)
  | depth (placeholder : String)
  deriving DecidableEq, Repr

structure Flag where
  short : Option Char
  long : String
  operand : Operand
  deriving DecidableEq, Repr

def Flag.wantsOperand (flag : Flag) : Bool :=
  flag.operand ≠ .absent

def Flag.wantsMany (flag : Flag) : Bool :=
  match flag.operand with
  | .texts _ => true
  | _ => false

def Flag.label (flag : Flag) : String :=
  let short :=
    match flag.short with
    | some letter => String.ofList ['-', letter, ',', ' ']
    | none => ""
  let operand :=
    match flag.operand with
    | .absent => ""
    | .text name | .choice name _ | .depth name => " <" ++ name ++ ">"
    | .texts name => " <" ++ name ++ "...>"
  short ++ "--" ++ flag.long ++ operand

inductive Refusal where
  | version
  | help
  | missingOperand (flag : Flag)
  | invalidOperand (flag : Flag) (value reason : String)
  | missingArgument (name : String)
  | unknownFlag (text : String)
  | unknownCommand (name : String)
  deriving DecidableEq, Repr

def Refusal.message : Refusal → String
  | .version | .help => ""
  | .missingOperand flag => "error: option '" ++ flag.label ++ "' argument missing"
  | .invalidOperand flag value reason =>
      "error: option '" ++ flag.label ++ "' argument '" ++ value ++ "' is invalid. " ++ reason
  | .missingArgument name => "error: missing required argument '" ++ name ++ "'"
  | .unknownFlag text => "error: unknown option '" ++ text ++ "'"
  | .unknownCommand name => "error: unknown command '" ++ name ++ "'"

def leadingNumber? (text : String) : Option Number :=
  let (negative, unsigned) :=
    match Text.trimStart text.toList with
    | '-' :: rest => (true, rest)
    | '+' :: rest => (false, rest)
    | rest => (false, rest)
  (Json.readDigits? unsigned).map fun (digits, _) =>
    Number.ofDecimal negative (Json.decimalValue digits) 0

def depth? (text : String) : Option Number :=
  (leadingNumber? text).filter fun depth => depth.isWhole && depth.atLeast 0

def Operand.objection? (operand : Operand) (value : String) : Option String :=
  match operand with
  | .choice _ labels =>
      if labels.contains value then none
      else some ("Allowed choices are " ++ Text.joinWith ", " labels ++ ".")
  | .depth _ =>
      if (depth? value).isSome then none
      else some "Depth must be a non-negative integer."
  | _ => none

/-- Arguments by what they are; everything behind a flag that is not known stays unsorted. -/
structure Sifted where
  operands : List String
  unknown : List String
  values : List (String × String)
  deriving DecidableEq, Repr

namespace Sifted

def empty : Sifted := { operands := [], unknown := [], values := [] }

def keep (sifted : Sifted) (argument : String) (flagLike : Bool) : Sifted :=
  if flagLike || !sifted.unknown.isEmpty then
    { sifted with unknown := sifted.unknown ++ [argument] }
  else { sifted with operands := sifted.operands ++ [argument] }

def keepRest (sifted : Sifted) (rest : List String) : Sifted :=
  if sifted.unknown.isEmpty then { sifted with operands := sifted.operands ++ rest }
  else { sifted with unknown := sifted.unknown ++ "--" :: rest }

def note (sifted : Sifted) (flag : Flag) (value : String) : Except Refusal Sifted :=
  match flag.operand.objection? value with
  | some reason => .error (.invalidOperand flag value reason)
  | none => .ok { sifted with values := sifted.values ++ [(flag.long, value)] }

end Sifted

def looksLikeFlag (argument : String) : Bool :=
  match argument.toList with
  | '-' :: _ :: _ => true
  | _ => false

def Flag.isNamed (name : String) (flag : Flag) : Bool :=
  name = "--" ++ flag.long ||
    match flag.short with
    | some letter => name = String.ofList ['-', letter]
    | none => false

def assignment? (argument : String) : Option (String × String) :=
  match Text.cutAt? '=' argument.toList with
  | some (name@('-' :: '-' :: _ :: _), value) => some (String.ofList name, String.ofList value)
  | _ => none

def cluster? (argument : String) : Option (String × List Char) :=
  match argument.toList with
  | '-' :: letter :: more@(_ :: _) =>
      if letter = '-' then none else some (String.ofList ['-', letter], more)
  | _ => none

/-- Sorts arguments by the flags that are known; `open?` is a flag that takes further
operands. The fuel bounds the characters. -/
def sift (flags : List Flag) : Nat → Option Flag → List String → Sifted →
    Except Refusal Sifted
  | 0, _, _, sifted => .ok sifted
  | _, _, [], sifted => .ok sifted
  | fuel + 1, open?, argument :: rest, sifted =>
      let find (name : String) : Option Flag := flags.find? (Flag.isNamed name)
      if argument = "--" then .ok (sifted.keepRest rest)
      else
        match open?.filter fun _ => !looksLikeFlag argument with
        | some flag => do sift flags fuel (some flag) rest (← sifted.note flag argument)
        | none =>
            match (find argument).filter fun _ => looksLikeFlag argument with
            | some flag =>
                if flag.wantsOperand then
                  match rest with
                  | [] => .error (.missingOperand flag)
                  | value :: rest => do
                      sift flags fuel (if flag.wantsMany then some flag else none) rest
                        (← sifted.note flag value)
                else do sift flags fuel none rest (← sifted.note flag "")
            | none =>
                match (cluster? argument).bind fun (name, more) =>
                    (find name).map fun flag => (flag, more) with
                | some (flag, more) =>
                    if flag.wantsOperand then do
                      sift flags fuel none rest (← sifted.note flag (String.ofList more))
                    else do
                      sift flags fuel none (String.ofList ('-' :: more) :: rest)
                        (← sifted.note flag "")
                | none =>
                    match (assignment? argument).bind fun (name, value) =>
                        ((find name).filter Flag.wantsOperand).map fun flag =>
                          (flag, value) with
                    | some (flag, value) => do
                        sift flags fuel none rest (← sifted.note flag value)
                    | none =>
                        sift flags fuel none rest
                          (sifted.keep argument (looksLikeFlag argument))

def siftAll (flags : List Flag) (arguments : List String) : Except Refusal Sifted :=
  let size := arguments.foldl (fun size argument => size + argument.length + 1) 0
  sift flags (size + 1) none arguments .empty

end CrateAtlas.CommandLine
