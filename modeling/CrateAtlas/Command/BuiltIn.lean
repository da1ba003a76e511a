import CrateAtlas.Command

/-!
Commands that are carried out without another program: `true`, `false`, `sleep`, and scripts
of `sh` made of these, `echo` and `exit`.
-/

namespace CrateAtlas.Command

structure Progress where
  output : String
  errors : String
  status : Nat
  milliseconds : Nat
  ended : Bool

def Progress.start : Progress :=
  { output := "", errors := "", status := 0, milliseconds := 0, ended := false }

inductive Token where
  | word (text : List Char)
  /-- Parts two commands; the second runs unless the first ended with the other result. -/
  | separator (mark : List Char)
  | toErrors
  deriving DecidableEq

def tokens : Nat → Option (List Char) → List Char → List Token
  | 0, _, _ => []
  | fuel + 1, word, text =>
      let finished := (word.map fun word => Token.word word).toList
      let held := word.getD []
      match text with
      | [] => finished
      | '"' :: rest =>
          match Text.cutAt? '"' rest with
          | some (inside, rest) => tokens fuel (some (held ++ inside)) rest
          | none => tokens fuel (some (held ++ rest)) []
      | '\'' :: rest =>
          match Text.cutAt? '\'' rest with
          | some (inside, rest) => tokens fuel (some (held ++ inside)) rest
          | none => tokens fuel (some (held ++ rest)) []
      | '1' :: '>' :: '&' :: '2' :: rest => finished ++ .toErrors :: tokens fuel none rest
      | '>' :: '&' :: '2' :: rest => finished ++ .toErrors :: tokens fuel none rest
      | '&' :: '&' :: rest => finished ++ .separator ['&'] :: tokens fuel none rest
      | '|' :: '|' :: rest => finished ++ .separator ['|'] :: tokens fuel none rest
      | ';' :: rest => finished ++ .separator [] :: tokens fuel none rest
      | '\n' :: rest => finished ++ .separator [] :: tokens fuel none rest
      | ' ' :: rest => finished ++ tokens fuel none rest
      | '\t' :: rest => finished ++ tokens fuel none rest
      | character :: rest => tokens fuel (some (held ++ [character])) rest

def milliseconds? (text : List Char) : Option Nat :=
  let (whole, fraction) := (Text.cutAt? '.' text).getD (text, [])
  let digits := (fraction ++ ['0', '0', '0']).take 3
  (String.ofList (whole ++ digits)).toNat?

def step (words : List String) (toErrors : Bool) (progress : Progress) : Progress :=
  let failed (message : String) (status : Nat) : Progress :=
    { progress with errors := progress.errors ++ message ++ "\n", status := status }
  match words with
  | [] => progress
  | "echo" :: rest =>
      let line := Text.joinWith " " rest ++ "\n"
      if toErrors then { progress with errors := progress.errors ++ line, status := 0 }
      else { progress with output := progress.output ++ line, status := 0 }
  | ["exit"] => { progress with ended := true }
  | "exit" :: status :: _ => { progress with status := status.toNat?.getD 2, ended := true }
  | "true" :: _ | ":" :: _ => { progress with status := 0 }
  | "false" :: _ => { progress with status := 1 }
  | "sleep" :: time :: _ =>
      match milliseconds? time.toList with
      | some time =>
          { progress with milliseconds := progress.milliseconds + time, status := 0 }
      | none =>
          failed ("sleep: invalid time interval '" ++ time ++
            "'\nTry 'sleep --help' for more information.") 1
  | ["sleep"] =>
      failed "sleep: missing operand\nTry 'sleep --help' for more information." 1
  | command :: _ => failed ("sh: 1: " ++ command ++ ": not found") 127

def script (limit : Int) (words : List String) (toErrors runs : Bool) :
    List Token → Progress → Progress
  | [], progress => if runs && !progress.ended then step words toErrors progress else progress
  | .word text :: rest, progress =>
      script limit (words ++ [String.ofList text]) toErrors runs rest progress
  | .toErrors :: rest, progress => script limit words true runs rest progress
  | .separator mark :: rest, progress =>
      let progress :=
        if runs && !progress.ended then step words toErrors progress else progress
      let goesOn :=
        match mark with
        | ['&'] => progress.status = 0
        | ['|'] => progress.status ≠ 0
        | _ => true
      if limit > 0 ∧ (progress.milliseconds : Int) > limit then progress
      else script limit [] false goesOn rest progress

/-- How a command with some progress ends under a time limit; no limit is zero. -/
def ending (limit : Int) (progress : Progress) : Except CommandFault CommandOutput :=
  if limit > 0 ∧ (progress.milliseconds : Int) > limit then
    .error (.error .null (.bool true) (.string progress.errors))
  else if progress.status = 0 then
    .ok { output := progress.output, errors := progress.errors }
  else .error (.error (.ofNat progress.status) (.bool false) (.string progress.errors))

def answer (invocation : Invocation) : Except CommandFault CommandOutput :=
  let limit := invocation.timeout
  match invocation.command, invocation.arguments with
  | "", _ => .error (.error .null .null .null)
  | "sh", "-c" :: text :: _ =>
      let characters := text.toList
      ending limit
        (script limit [] false true (tokens (characters.length + 1) none characters) .start)
  | "true", arguments | "false", arguments | "sleep", arguments =>
      ending limit (step (invocation.command :: arguments) false .start)
  | _, _ => .error (.error (.string "ENOENT") .null .null)

/-- Carries out the commands that need no other program; any other is missing. -/
def builtIn : Runner := fun invocation => return answer invocation

end CrateAtlas.Command
