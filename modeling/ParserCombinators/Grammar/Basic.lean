import ParserCombinators.Text.Basic

/-!
Values, functions and grammars. They are one family: a grammar holds the
errors and outputs it answers with, a value may be a function or a parser, and
a function may return a parser. A function or a parser that is a value has an
identity, which tells it from every other, also from one that does the same. A
function that returns parsers it was given holds the identities of these. A
grammar is a tree of operators over leaves, and recursion is a binder: inside
the body of `recursive x body` the name `x` stands for the whole.
-/

namespace ParserCombinators

/-- Which marker a branch carries; `bare` is a marker of neither side. -/
inductive Side
  | left
  | right
  | bare
  deriving DecidableEq

/-- Which one a parser is: one of those given at first, or one of those that
functions have made since, counted in the order of making. -/
inductive Identity
  | given (n : Nat)
  | made (n : Nat)
  deriving DecidableEq

mutual

inductive Value
  | none
  | bool (b : Bool)
  | int (n : Int)
  | text (t : Text)
  | bytes (b : List UInt8)
  | list (items : List Value)
  | tuple (items : List Value)
  | branch (side : Side) (value : Value)
  | success (rest output : Value)
  | failure (rest error : Value)
  | function (identity : Nat) (f : Callback)
  | parser (identity : Identity) (g : Grammar)

/-- The functions that a grammar can be given. -/
inductive Callback
  | identity
  | duplicate
  | display
  | integer
  | join
  | length
  | negate
  | left
  | right
  | foldBranch
  | foldAll
  | sideAndValue
  | isDigits
  | isLetters
  | isInteger
  | const (value : Value)
  | get (path : List Int)
  | add (value : Value)
  | modulo (value : Value)
  | equal (value : Value)
  | differ (value : Value)
  | within (value : Value)
  | raise (message : Text)
  | compose (functions : List Callback)
  | named (name : Text) (f : Callback)
  | plus
  | minus
  | times
  | pack
  | parser (identity : Nat) (g : Grammar)
  | select (choice : Choice)
  | exactlyOf (g : Grammar) (error : Value)
  | atLeastOf (g : Grammar) (error : Value)
  | literalOf (error : Value)
  | pureOf
  | failOf

/-- A table of parsers by key; the first equal key decides. -/
inductive Choice
  | otherwise (identity : Nat) (g : Grammar)
  | when (key : Value) (identity : Nat) (g : Grammar) (next : Choice)

/-- The parsers without parts, the last three being functions made outside the
library: a value in the place of a parser, a function that cuts off `count`
items, and one with a fixed reply. -/
inductive Leaf
  | literal (pattern error : Value)
  | element (item error : Value)
  | anything (error : Value)
  | endOfInput (error : Value)
  | always (output : Value)
  | never (error : Value)
  | space
  | tab
  | newline
  | carriageReturn
  | whitespace
  | whitespaces
  | integer
  | lineComment (start : Value)
  | blockComment (start stop : Value)
  | quotedString (quotes : Value) (escape : Text) (escapes : List (Text × Text))
  | value (v : Value)
  | take (count : Int) (error : Value)
  | reply (outcome : Value)

/-- What can be done to one parser. `function` and `counted` hide it in a plain
function; the latter tells of every call. -/
inductive Wrapper
  | maybe
  | many
  | first
  | second
  | atLeast (count error : Value)
  | atMost (count : Value)
  | exactly (count error : Value)
  | not (error : Value)
  | lookahead
  | backtrack
  | recoverWith (recovery : Callback)
  | map (f : Callback)
  | mapError (f : Callback)
  | fold
  | foldAll
  | validate (predicate : Callback) (error : Value)
  | andThen (f : Callback)
  | bind (onSuccess onFailure : Callback)
  | named (name : Text)
  | toParser
  | parser (name : Option Text)
  | lexeme
  | skipSpaces
  | skipLineComment (start : Value)
  | skipBlockComment (start stop : Value)
  | charToString
  | toUppercase
  | toLowercase
  | function (name : Option Text)
  | counted (id : Text)

/-- What can be done to two parsers. -/
inductive Joint
  | seq
  | alt
  | skip
  | precededBy
  | sepBy
  | sepBy1 (error : Value)
  | chainLeft
  | chainRight
  | orBoth
  | apply

/-- `handle x body` is the parser that `x` has become once `recursive x body`
is built, and `recursiveEager` the mistake of calling it before. -/
inductive Grammar
  | leaf (l : Leaf)
  | wrap (w : Wrapper) (g : Grammar)
  | join (j : Joint) (g h : Grammar)
  | surroundedBy (g left right : Grammar)
  | ref (x : Text)
  | recursive (x : Text) (body : Grammar)
  | recursiveEager (x : Text) (input : Value) (body : Grammar)
  | handle (x : Text) (body : Grammar)

end

end ParserCombinators
