import TableServer.Text.CodePoint

namespace TableServer

/-- A step from a value to one inside it. -/
inductive Step
  | index (i : Nat)
  | member (name : Text)
  deriving DecidableEq, Repr

/-- What validation finds wrong with a value. -/
inductive Cause
  | missing
  | unexpected
  | noRecord
  | noList
  | noString
  | unpairedSurrogate
  | noInteger
  | malformedInteger
  | hugeInteger
  | fractional
  | notFinite
  | negative
  | noBoolean
  | malformedBoolean
  | unknownBackend
  | portRange (port : Int)
  | chunkSize
  | patternWithoutTable
  | patternWithFolder
  | logFormat (given : String)
  deriving DecidableEq, Repr

namespace Cause

/-- A name of the cause that does not change with its wording. -/
def code : Cause → String
  | missing => "missing"
  | unexpected => "extra_forbidden"
  | noRecord => "model_type"
  | noList => "list_type"
  | noString => "string_type"
  | unpairedSurrogate => "string_unicode"
  | noInteger => "int_type"
  | malformedInteger => "int_parsing"
  | hugeInteger => "int_parsing_size"
  | fractional => "int_from_float"
  | notFinite => "finite_number"
  | negative => "greater_than_equal"
  | noBoolean => "bool_type"
  | malformedBoolean => "bool_parsing"
  | unknownBackend => "enum"
  | portRange _ => "value_error"
  | chunkSize => "value_error"
  | patternWithoutTable => "value_error"
  | patternWithFolder => "value_error"
  | logFormat _ => "value_error"

def message : Cause → String
  | missing => "Field required"
  | unexpected => "Extra inputs are not permitted"
  | noRecord => "Input should be a valid dictionary or instance of Record"
  | noList => "Input should be a valid list"
  | noString => "Input should be a valid string"
  | unpairedSurrogate =>
    "Input should be a valid string, unable to parse raw data as a unicode string"
  | noInteger => "Input should be a valid integer"
  | malformedInteger => "Input should be a valid integer, unable to parse string as an integer"
  | hugeInteger => "Unable to parse input string as an integer, exceeded maximum size"
  | fractional => "Input should be a valid integer, got a number with a fractional part"
  | notFinite => "Input should be a finite number"
  | negative => "Input should be greater than or equal to 0"
  | noBoolean => "Input should be a valid boolean"
  | malformedBoolean => "Input should be a valid boolean, unable to interpret input"
  | unknownBackend => "Input should be 'json' or 'memory'"
  | portRange port => s!"Value error, port must be between 0 and 65535, got {port}"
  | chunkSize => "Value error, read_chunk_size must be positive"
  | patternWithoutTable => "Value error, table_file_pattern must contain '\x7btable\x7d'"
  | patternWithFolder => "Value error, table_file_pattern must be a bare file name"
  | logFormat given => s!"Value error, Invalid log_format '{given}'. Must be one of: json, text"

end Cause

/-- What is wrong, and where in the value. -/
structure Issue where
  location : List Step
  cause : Cause
  deriving DecidableEq, Repr

namespace Issue

/-- The issue as the value shows it that has the faulty one behind a step. -/
def under (step : Step) (i : Issue) : Issue := { i with location := step :: i.location }

def atMember (name : String) (cause : Cause) : Issue := ⟨[.member (Text.ofString name)], cause⟩

end Issue

end TableServer
