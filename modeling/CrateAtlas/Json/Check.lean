import CrateAtlas.Json

/-!
Checks of documents against the shape they should have. Every fault of a document is
reported, in the order in which the members of the shape are named.
-/

namespace CrateAtlas.Json

inductive Step where
  | member (name : String)
  | item (index : Nat)
  deriving DecidableEq, Repr

def Step.label : Step → String
  | .member name => name
  | .item index => toString index

structure Issue where
  path : List Step
  message : String
  deriving DecidableEq, Repr

def Issue.place (issue : Issue) : String :=
  Text.joinWith "." (issue.path.map Step.label)

def listIssues (issues : List Issue) : String :=
  Text.joinWith "; " (issues.map fun issue =>
    (if issue.place = "" then "<root>" else issue.place) ++ ": " ++ issue.message)

inductive Checked (α : Type) where
  | passed (value : α)
  | failed (issues : List Issue)

namespace Checked

def map (f : α → β) : Checked α → Checked β
  | .passed value => .passed (f value)
  | .failed issues => .failed issues

def apply (f : Checked (α → β)) (argument : Checked α) : Checked β :=
  match f, argument with
  | .passed f, .passed value => .passed (f value)
  | .failed first, .failed second => .failed (first ++ second)
  | .failed issues, .passed _ => .failed issues
  | .passed _, .failed issues => .failed issues

instance : Applicative Checked where
  pure := .passed
  map := map
  seq f argument := apply f (argument ())

def all : List (Checked α) → Checked (List α)
  | [] => .passed []
  | first :: rest => List.cons <$> first <*> all rest

end Checked

structure Part where
  path : List Step
  value : Option Json

namespace Part

def whole (document : Json) : Part := { path := [], value := some document }

def member (part : Part) (name : String) : Part :=
  { path := part.path ++ [.member name], value := part.value.bind (Json.member? name) }

def fail (part : Part) (messages : List String) : Checked α :=
  .failed (messages.map fun message => { path := part.path, message := message })

end Part

def kindName : Json → String
  | .null => "null"
  | .bool _ => "boolean"
  | .number .undefined => "nan"
  | .number _ => "number"
  | .string _ => "string"
  | .list _ => "array"
  | .record _ => "object"

def Part.unexpected (part : Part) (expected : String) : Checked α :=
  match part.value with
  | none => part.fail ["Required"]
  | some value => part.fail ["Expected " ++ expected ++ ", received " ++ kindName value]

def checkText (part : Part) : Checked String :=
  match part.value with
  | some (.string text) => .passed text
  | _ => part.unexpected "string"

def checkNonEmpty (part : Part) : Checked String :=
  match part.value with
  | some (.string "") => part.fail ["String must contain at least 1 character(s)"]
  | _ => checkText part

def checkTruth (part : Part) : Checked Bool :=
  match part.value with
  | some (.bool value) => .passed value
  | _ => part.unexpected "boolean"

def checkOptionalText (part : Part) : Checked (Option String) :=
  match part.value with
  | some .null => .passed none
  | _ => some <$> checkText part

def checkTextIfAny (part : Part) : Checked (Option String) :=
  match part.value with
  | none => .passed none
  | some _ => some <$> checkText part

def checkWhole (least : Int) (most : Option Int) (part : Part) : Checked Int :=
  match part.value with
  | some (.number .undefined) => part.unexpected "number"
  | some (.number value) =>
      let messages :=
        (if value.isWhole then [] else ["Expected integer, received float"]) ++
        (if value.atLeast least then []
          else ["Number must be greater than or equal to " ++ toString least]) ++
        (match most with
          | some most =>
              if value.atMost most then []
              else ["Number must be less than or equal to " ++ toString most]
          | none => [])
      if messages.isEmpty then .passed value.whole else part.fail messages
  | _ => part.unexpected "number"

def checkChoice (choices : List α) (label : α → String) (part : Part) : Checked α :=
  let expected := Text.joinWith " | " (choices.map fun choice => "'" ++ label choice ++ "'")
  match part.value with
  | some (.string text) =>
      match choices.find? fun choice => label choice = text with
      | some choice => .passed choice
      | none =>
          part.fail ["Invalid enum value. Expected " ++ expected ++ ", received '" ++ text ++ "'"]
  | _ => part.unexpected expected

def itemParts (path : List Step) (index : Nat) : List Json → List Part
  | [] => []
  | item :: items =>
      { path := path ++ [.item index], value := some item } :: itemParts path (index + 1) items

def checkList (check : Part → Checked α) (part : Part) : Checked (List α) :=
  match part.value with
  | some (.list items) => Checked.all ((itemParts part.path 0 items).map check)
  | _ => part.unexpected "array"

def checkPair (check : Part → Checked α) (part : Part) : Checked (α × α) :=
  match part.value with
  | some (.list items) =>
      match itemParts part.path 0 items with
      | [first, second] => Prod.mk <$> check first <*> check second
      | first :: second :: _ =>
          (fun _ pair => pair) <$> part.fail (α := Unit) ["Array must contain at most 2 element(s)"]
            <*> (Prod.mk <$> check first <*> check second)
      | _ => part.fail ["Array must contain at least 2 element(s)"]
  | _ => part.unexpected "array"

def checkRecord (check : Part → Checked α) (part : Part) : Checked α :=
  match part.value with
  | some (.record _) => check part
  | _ => part.unexpected "object"

def checkDefault (fallback : α) (check : Part → Checked α) (part : Part) : Checked α :=
  match part.value with
  | none => .passed fallback
  | some _ => check part

def run (check : Part → Checked α) (document : Json) : Checked α :=
  check (.whole document)

end CrateAtlas.Json
