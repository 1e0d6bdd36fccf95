import Lending.Document
import Lending.Failure
import Lending.Threshold

/-! Errors as documents: a code that says what kind of error it is, and the message.

The failures of an engine that come from a part of it carry the part's name before the code of
the part's own error. A text that is no YAML has a code and no message. -/
namespace Lending

/-- The document of an error. -/
def Form.fault (code message : String) : Document :=
  .record [("error", .text code), ("message", .text message)]

/-- The document of an error without a message. -/
def Form.bareFault (code : String) : Document :=
  .record [("error", .text code)]

namespace DataError

def code : DataError → String
  | .wrongKind _ _ _ => "TypeError"
  | .computed _ => "ReadOnlyAttribute"
  | .unknownOperator _ | .unknownLogic _ => "InvalidValue"

def form (e : DataError) : Document :=
  Form.fault e.code e.message

end DataError

namespace ReadError

def code : ReadError → String
  | .malformedText => "YamlError"
  | .missingMember _ => "MissingField"
  | .invalidMember _ _ => "InvalidValue"
  | .invalidOperator _ => "InvalidOperator"
  | .unknownDocument _ _ => "UnknownDocument"
  | .secondCatalog => "ParseError"

def form : ReadError → Document
  | .malformedText => Form.bareFault "YamlError"
  | e => Form.fault e.code e.message

end ReadError

namespace PolicyError

def code : PolicyError → String
  | .emptyTree => "EmptyTree"
  | .noRoot => "NoRoot"
  | .multipleRoots _ => "MultipleRoots"
  | .duplicateNode _ => "DuplicateNode"
  | .unknownParent _ _ => "UnknownParent"
  | .cycle _ => "Cycle"
  | .danglingBranch _ _ => "DanglingBranch"
  | .invalidTerminal _ _ => "InvalidTerminal"
  | .unknownAttribute _ _ => "UnknownAttribute"
  | .invalidNode _ _ => "InvalidNode"
  | .unknownStrategy _ => "UnknownStrategy"
  | .unknownAssessment _ => "UnknownAssessment"
  | .invalidStrategy _ _ => "InvalidStrategy"
  | .duplicateRule _ => "DuplicateRule"

def form (e : PolicyError) : Document :=
  Form.fault e.code e.message

end PolicyError

def Threshold.Malformed.form (m : Threshold.Malformed) : Document :=
  Form.fault "MalformedThreshold" m.message

namespace Failure

def code : Failure → String
  | .configuration _ => "ConfigError"
  | .reading e => "ParseError." ++ e.code
  | .policy e => "Configuration." ++ e.code
  | .data e => "CoreError." ++ e.code
  | .unknownOverride _ => "UnknownOverride"
  | .batchTooLarge _ _ => "BatchTooLarge"
  | .noSuchFile => "IoError"

def form (e : Failure) : Document :=
  match e with
  | .reading .malformedText => Form.bareFault e.code
  | _ => Form.fault e.code e.message

end Failure

end Lending
