import ParserCombinators.Text.Quoted
import ParserCombinators.Value.Basic

/-!
The written form of a value and the name of a parser. Names are built from
the names of the parts and from the written forms of the values in them, and a
parser among the values is written by its name.
-/

namespace ParserCombinators

/-- The word for a function in its written form. -/
def Callback.tag : Callback → Text
  | identity => "id"
  | duplicate => "dup"
  | display => "str"
  | integer => "int"
  | join => "join"
  | length => "len"
  | negate => "not"
  | left => "left"
  | right => "right"
  | foldBranch => "fold_either"
  | foldAll => "fold_all"
  | sideAndValue => "side_value"
  | isDigits => "isdigit"
  | isLetters => "isalpha"
  | isInteger => "isint"
  | const _ => "const"
  | get _ => "get"
  | add _ => "add"
  | modulo _ => "mod"
  | equal _ => "eq"
  | differ _ => "ne"
  | within _ => "in"
  | raise _ => "raise"
  | compose _ => "compose"
  | named _ _ => "named"
  | plus => "plus"
  | minus => "sub"
  | times => "mul"
  | pack => "pack"
  | parser _ _ => "parser"
  | select _ => "case"
  | exactlyOf _ _ => "exactly_of"
  | atLeastOf _ _ => "at_least_of"
  | literalOf _ => "literal_of"
  | pureOf => "pure_of"
  | failOf => "fail_of"

/-- The name that a parser takes over from a function, the kind of the
function if it has no name of its own. -/
def Value.functionName (nameless : Text) : Value → Text
  | .function _ (.named name _) => name
  | _ => nameless

/-- The name that a parser takes over when it is made from a grammar anew. -/
def Grammar.functionName : Grammar → Text
  | .leaf (.value v) => v.functionName v.typeName
  | .leaf (.take _ _) => "take"
  | .leaf (.reply _) => "reply"
  | .wrap (.function (some name)) _ => name
  | g => g.typeName

/-- A name followed by its arguments in parentheses. -/
def Text.call (name : Text) (arguments : List Text) : Text :=
  name ++ "(" ++ Text.joinWith ", " arguments ++ ")"

mutual

def Value.written : Value → Text
  | .none => "None"
  | .bool true => "True"
  | .bool false => "False"
  | .int n => Text.ofInt n
  | .text t => t.quoted
  | .bytes b => Text.quotedBytes b
  | .list items => "[" ++ Text.joinWith ", " (Value.writtenAll items) ++ "]"
  | .tuple items =>
    match Value.writtenAll items with
    | [t] => "(" ++ t ++ ",)"
    | ts => "(" ++ Text.joinWith ", " ts ++ ")"
  | .branch side v => Text.call side.typeName [v.written]
  | .success rest v => Text.call "Success" [rest.written, v.written]
  | .failure rest e => Text.call "Failure" [rest.written, e.written]
  | .function _ f => "<fn " ++ f.tag ++ ">"
  | .parser _ g => "<Parser " ++ g.name ++ ">"

def Value.writtenAll : List Value → List Text
  | [] => []
  | v :: vs => v.written :: Value.writtenAll vs

def Leaf.name : Leaf → Text
  | .literal pattern _ => Text.call "literal" [pattern.written]
  | .element item _ =>
    Text.call "element" [if item.isCallable then item.functionName "predicate" else item.written]
  | .anything _ => "anything"
  | .endOfInput _ => "end_of_input"
  | .always v => Text.call "pure" [v.written]
  | .never e => Text.call "fail" [e.written]
  | .space => "space"
  | .tab => "tab"
  | .newline => "newline"
  | .carriageReturn => "carriage_return"
  | .whitespace => "whitespace"
  | .whitespaces => "whitespaces"
  | .integer => "integer"
  | .lineComment start => Text.call "line_comment" [start.written]
  | .blockComment start stop => Text.call "block_comment" [start.written, stop.written]
  | .quotedString _ _ _ => "quoted_string"
  | .value v => v.functionName v.typeName
  | .take _ _ => "take"
  | .reply _ => "reply"

/-- The name of a wrapped parser, from the inner parser's name and from the
name that a parser made from it anew would take over. -/
def Wrapper.name : Wrapper → Text → Text → Text
  | .maybe, inner, _ => Text.call "maybe" [inner]
  | .many, inner, _ => Text.call "many" [inner]
  | .first, inner, _ => Text.call "first" [inner]
  | .second, inner, _ => Text.call "second" [inner]
  | .atLeast count _, inner, _ => Text.call "at_least" [inner, count.written]
  | .atMost count, inner, _ => Text.call "at_most" [inner, count.written]
  | .exactly count _, inner, _ => Text.call "exactly" [inner, count.written]
  | .not _, inner, _ => Text.call "not" [inner]
  | .lookahead, inner, _ => Text.call "lookahead" [inner]
  | .backtrack, inner, _ => Text.call "backtrack" [inner]
  | .recoverWith _, inner, _ => Text.call "recover_with" [inner]
  | .map _, inner, _ => Text.call "map" [inner]
  | .mapError _, inner, _ => Text.call "map_err" [inner]
  | .fold, inner, _ => Text.call "fold" [inner]
  | .foldAll, inner, _ => Text.call "fold_all" [inner]
  | .validate _ _, inner, _ => Text.call "validate" [inner]
  | .andThen _, inner, _ => Text.call "and_then" [inner]
  | .bind _ _, inner, _ => Text.call "bind" [inner]
  | .named name, _, _ => name
  | .toParser, inner, _ => inner
  | .parser (some name), _, _ => name
  | .parser none, _, anew => anew
  | .lexeme, inner, _ => Text.call "lexeme" [inner]
  | .skipSpaces, inner, _ => Text.call "skip_spaces" [inner]
  | .skipLineComment start, inner, _ => Text.call "skip_line_comment" [inner, start.written]
  | .skipBlockComment start stop, inner, _ =>
    Text.call "skip_block_comment" [inner, start.written, stop.written]
  | .charToString, inner, _ => Text.call "char_to_string" [inner]
  | .toUppercase, inner, _ => Text.call "to_uppercase" [inner]
  | .toLowercase, inner, _ => Text.call "to_lowercase" [inner]
  | .function (some name), _, _ => name
  | .function none, _, _ => "PlainCallable"
  | .counted _, _, _ => "CountingParser"

def Grammar.name : Grammar → Text
  | .leaf l => l.name
  | .wrap w g => w.name g.name g.functionName
  | .join .seq g h => Text.call "seq" [g.name, h.name]
  | .join .alt g h => Text.call "alt" [g.name, h.name]
  | .join .orBoth g h => Text.call "or_both" [g.name, h.name]
  | .join .skip g h => Text.call "fold" [Text.call "first" [Text.call "seq" [g.name, h.name]]]
  | .join .precededBy g h => Text.call "second" [Text.call "seq" [h.name, g.name]]
  | .join .sepBy g _ => Text.call "sep_by" [g.name]
  | .join (.sepBy1 _) g _ => Text.call "sep_by1" [g.name]
  | .join .chainLeft g _ => Text.call "chainl1" [g.name]
  | .join .chainRight g _ => Text.call "chainr1" [g.name]
  | .join .apply g _ => Text.call "apply" [g.name]
  | .surroundedBy g _ _ => Text.call "surrounded_by" [g.name]
  | .ref _ => "recursive"
  | .handle _ _ => "recursive"
  | .recursive _ body => Text.call "recursive" [body.name]
  | .recursiveEager _ _ body => Text.call "recursive" [body.name]

end

/-- A text stands for itself, every other value for its written form. -/
def Value.display : Value → Text
  | .text t => t
  | v => v.written

/-- The written form of a parser. -/
def Grammar.written (g : Grammar) : Text := "<Parser " ++ g.name ++ ">"

end ParserCombinators
