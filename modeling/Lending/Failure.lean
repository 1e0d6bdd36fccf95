import Lending.DataError
import Lending.Policy.ReadError
import Lending.PolicyError

/-! What can keep an engine from being built or from deciding. -/
namespace Lending

/-- What is wrong with a configuration beyond its parts. -/
inductive ConfigurationFault where
  | noDocuments
  | duplicateStrategy (id : String)
  | duplicateAssessment (id : String)
  | treeNotFound (id : String)
  | noTree
  /-- Several trees, and none was chosen. -/
  | severalTrees (ids : List String)
  | percentOutOfRange (percent : Nat)
  | sameArms (strategy : String)
  | noTarget
  deriving DecidableEq, Repr

def ConfigurationFault.message : ConfigurationFault → String
  | .noDocuments => "No configuration documents loaded"
  | .duplicateStrategy id => s!"Duplicate strategy id: {id}"
  | .duplicateAssessment id => s!"Duplicate assessment id: {id}"
  | .treeNotFound id => s!"Decision tree not found: {id}"
  | .noTree => "Configuration has no decision tree"
  | .severalTrees ids =>
    s!"Configuration has {ids.length} decision trees (" ++ Text.joined ", " ids ++
      "); select one by id"
  | .percentOutOfRange percent => s!"challenger_percent must be within 0..=100, got {percent}"
  | .sameArms strategy => s!"champion and challenger are the same strategy: {strategy}"
  | .noTarget => "routing ended without a strategy or assessment"

inductive Failure where
  | configuration (fault : ConfigurationFault)
  | reading (e : ReadError)
  | policy (e : PolicyError)
  | data (e : DataError)
  /-- An override of an attribute that neither record has. -/
  | unknownOverride (name : String)
  | batchTooLarge (size max : Nat)
  /-- A file that is not there. -/
  | noSuchFile
  deriving DecidableEq, Repr

def Failure.message : Failure → String
  | .configuration fault => s!"Configuration error: {fault.message}"
  | .reading e => s!"Parser error: {e.message}"
  | .policy e => s!"Invalid configuration: {e.message}"
  | .data e => s!"Data error: {e.message}"
  | .unknownOverride name => s!"Unknown override attribute: {name}"
  | .batchTooLarge size max => s!"Batch of {size} applications exceeds the maximum of {max}"
  | .noSuchFile => "I/O error: No such file or directory (os error 2)"

end Lending
