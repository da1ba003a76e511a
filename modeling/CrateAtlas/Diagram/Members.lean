import CrateAtlas.Diagram.Markup
import CrateAtlas.Resolver
import CrateAtlas.TypeText.Split

/-!
Members of the classes in a class diagram: fields, variants and methods.
-/

namespace CrateAtlas.Diagram

open CrateAtlas.Text

def visibilityMarker : Visibility → String
  | .everywhere => "+"
  | .crateWide => "~"
  | .restricted => "~"
  | .hidden => "-"

/-- The text from the word `fn` on, where blanks follow it; `inWord` says whether the
character before belongs to a word. -/
def fromFnKeyword? (inWord : Bool) : List Char → Option (List Char)
  | [] => none
  | character :: rest =>
      let starts :=
        match character, rest with
        | 'f', 'n' :: next :: _ => !inWord && isBlank next
        | _, _ => false
      if starts then some (character :: rest)
      else fromFnKeyword? (isWordChar character) rest

/-- The text up to the parenthesis that closes the list; `read` is reversed. -/
def closeParentheses? (depth : Nat) (read : List Char) : List Char → Option (List Char)
  | [] => none
  | character :: rest =>
      if character = '(' then closeParentheses? (depth + 1) (character :: read) rest
      else if character = ')' then
        match depth with
        | 0 => some read.reverse
        | depth + 1 => closeParentheses? depth (character :: read) rest
      else closeParentheses? depth (character :: read) rest

def parameterList (signature : List Char) : List (List Char) :=
  match cutAt? '(' ((fromFnKeyword? false signature).getD signature) with
  | none => []
  | some (_, inner) =>
      match closeParentheses? 0 [] inner with
      | some list => TypeText.splitTopLevelChars (some ',') list
      | none => []

def dropReceiverReference (text : List Char) : List Char :=
  match text with
  | '&' :: rest => trimStart rest
  | _ => text

def dropReceiverLifetime (text : List Char) : List Char :=
  match text with
  | '\'' :: rest =>
      let after := rest.dropWhile isWordChar
      match rest.head?, after.head? with
      | some first, some next =>
          if isWordChar first && isBlank next then trimStart after else text
      | _, _ => text
  | _ => text

def dropReceiverMut (text : List Char) : List Char :=
  match afterLead? "mut" text with
  | some (next :: rest) => if isBlank next then trimStart (next :: rest) else text
  | _ => text

def isReceiver (parameter : List Char) : Bool :=
  dropReceiverMut (dropReceiverLifetime (dropReceiverReference parameter)) = "self".toList

def formatParameter (parameter : List Char) : List Char :=
  match cutAt? ':' parameter with
  | none => parameter
  | some (name, type) => trim name ++ ' ' :: trim type

def formatMethod (method : Method) : String :=
  let parameters := (parameterList method.signature.toList).filter fun parameter =>
    !isReceiver parameter
  let shown := parameters.map fun parameter =>
    String.ofList (escapeMember (formatParameter parameter))
  let returns :=
    match Resolver.named method.returnType with
    | some type => " " ++ String.ofList (escapeMember type.toList)
    | none => ""
  visibilityMarker method.visibility ++ method.name ++ "(" ++ joinWith ", " shown ++ ")" ++
    returns

structure ClassMember where
  definition : TypeDefinition
  methods : List Method

def byMethodName (left right : Method) : Ordering :=
  compareText left.name right.name

def collectMembers (snapshot : Snapshot) : List (String × ClassMember) :=
  let resolver := Resolver.ofSnapshot snapshot
  let methods := snapshot.units.flatMap fun unit =>
    unit.impls.flatMap fun impl =>
      match Resolver.named (resolver.resolveType impl.target unit none) with
      | some owner => impl.methods.map fun method => (owner, method)
      | none => []
  (OrderedMap.keys snapshot.registry).filterMap fun name =>
    (resolver.definition? name).map fun definition =>
      let own := (methods.filter fun entry => entry.1 = name).map Prod.snd
      (name, { definition := definition, methods := sortBy byMethodName own })

end CrateAtlas.Diagram
