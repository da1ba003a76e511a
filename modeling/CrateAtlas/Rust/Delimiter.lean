import CrateAtlas.Failure
import CrateAtlas.Record
import CrateAtlas.Rust.Node

/-!
The check that the delimiters of a syntax tree balance: a closer closes the opener that was left
open last, and in the end no opener is left open.
-/

namespace CrateAtlas.Rust

inductive Bracket where
  | round
  | square
  | curly
  deriving DecidableEq, Repr

def Bracket.opening : Bracket → String
  | .round => "("
  | .square => "["
  | .curly => "\x7b"

def Bracket.closing : Bracket → String
  | .round => ")"
  | .square => "]"
  | .curly => "\x7d"

def Bracket.ofOpening? (kind : String) : Option Bracket :=
  match kind with
  | "(" => some .round
  | "[" => some .square
  | "\x7b" => some .curly
  | _ => none

def Bracket.closers : List (String × Bracket) :=
  [("\x7d", .curly), (")", .round), ("]", .square)]

/-- What the record of the closers answers to a kind of node: an opener, or a value that every record
inherits. -/
inductive Expected where
  | opener (bracket : Bracket)
  | inherited
  deriving DecidableEq, Repr

def Expected.ofKind? (kind : String) : Option Expected :=
  match OrderedMap.get? kind Bracket.closers with
  | some bracket => some (.opener bracket)
  | none => if Record.answersTo Bracket.closers kind then some .inherited else none

structure DelimiterError where
  row : Nat
  fault : DelimiterFault
  deriving DecidableEq, Repr

def DelimiterError.failure (filePath : String) (error : DelimiterError) : Failure :=
  .scan filePath (error.row + 1) error.fault.message

structure Opener where
  bracket : Bracket
  row : Nat
  deriving DecidableEq, Repr

namespace SyntaxNode

mutual

def count : SyntaxNode → Nat
  | ⟨_, children⟩ => countOf children + 1

def countOf : List SyntaxNode → Nat
  | [] => 0
  | first :: others => count first + countOf others

end

theorem countOf_append (front back : List SyntaxNode) :
    countOf (front ++ back) = countOf front + countOf back := by
  induction front with
  | nil => simp [countOf]
  | cons first others ih => simp [countOf, ih, Nat.add_assoc]

def meet (token : NodeHead) (opened : List Opener) : Except DelimiterError (List Opener) :=
  if token.text = "" then .ok opened
  else
    match Bracket.ofOpening? token.kind with
    | some bracket => .ok (⟨bracket, token.row⟩ :: opened)
    | none =>
        match Expected.ofKind? token.kind, opened with
        | none, opened => .ok opened
        | some _, [] => .error { row := token.row, fault := .unexpected token.kind }
        | some expected, opener :: outer =>
            if expected = .opener opener.bracket then .ok outer
            else
              .error
                { row := token.row
                  fault := .mismatched token.kind opener.bracket.opening (opener.row + 1) }

/-- Visits the pending nodes, the first of them next, and answers the openers that are open
behind the last of them. -/
def visit (opened : List Opener) : List SyntaxNode → Except DelimiterError (List Opener)
  | [] => .ok opened
  | ⟨_, child :: children⟩ :: pending => visit opened (child :: children ++ pending)
  | ⟨token, []⟩ :: pending =>
      match meet token opened with
      | .ok opened => visit opened pending
      | .error error => .error error
  termination_by pending => countOf pending
  decreasing_by
    · simp only [countOf_append, countOf, count]
      omega
    · simp [countOf, count]

def checkDelimiters (root : SyntaxNode) : Except DelimiterError Unit :=
  match visit [] [root] with
  | .error error => .error error
  | .ok [] => .ok ()
  | .ok (opener :: _) =>
      .error { row := opener.row, fault := .unclosed opener.bracket.opening }

end SyntaxNode

end CrateAtlas.Rust
