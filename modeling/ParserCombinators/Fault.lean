import ParserCombinators.Report

/-!
Why a construction or a parse breaks off. A failed match is no fault but an
outcome; faults come from wrong arguments, from functions handed to a parser,
from replies that are no outcome, and from recursion without end.
-/

namespace ParserCombinators

inductive Fault
  /-- A parser is made from something that cannot be called. -/
  | notCallable (type : Text)
  /-- A parser is wanted where something else is given. -/
  | notParser (type : Text)
  /-- A recursive definition is no parser. -/
  | notDefinition (type : Text)
  /-- A marker is folded where there is none. -/
  | notBranch (type : Text)
  | negativeCount
  /-- Lines and columns are asked of a source that is no text. -/
  | notText
  /-- A recursive parser is called before its definition is complete. -/
  | unwired
  /-- A recursive parser is given a second definition. -/
  | alreadyWired
  /-- A function raises an error of its own. -/
  | raised (message : Text)
  /-- A failed parse is turned into an error. -/
  | unparsed (report : Report)
  | wrongType
  | badValue
  /-- A reply lacks what is read from it. -/
  | noField
  | outOfRange
  | divisionByZero
  /-- Calls are nested beyond the limit. -/
  | tooDeep

/-- The wording of the faults that have one. -/
def Fault.message? : Fault → Option Text
  | notCallable type => some ("Expected a callable, got " ++ type ++ ".")
  | notParser type => some ("Expected a parser or a callable, got " ++ type ++ ".")
  | notDefinition type => some ("The recursive builder must return a parser, got " ++ type ++ ".")
  | notBranch type => some ("Expected a Left or Right, got " ++ type ++ ".")
  | negativeCount => some "The count can't be negative."
  | notText => some "Line and column notes need a \x60str\x60 source."
  | unwired =>
    some ("A recursive parser was invoked while it was still being built. " ++
      "Only invoke the handle from inside a parser, not from the builder itself.")
  | alreadyWired => some "This recursion handle is already wired."
  | raised message => some message
  | unparsed report => some report.message
  | wrongType => none
  | badValue => none
  | noField => none
  | outOfRange => none
  | divisionByZero => none
  | tooDeep => none

end ParserCombinators
