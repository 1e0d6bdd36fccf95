/-! Structural faults of a policy: of its tree, its catalog or a strategy. They are found before
any application is decided. -/
namespace Lending

/-- What is wrong with a node for what it is. -/
inductive NodeFault where
  | gateWithoutBranches
  | annotationChildren
  | annotationPassing
  | missingAttribute (conditionType : String)
  | missingOperator
  | binaryBranches
  | binaryThreshold
  | noConditions
  | compoundBranches
  | noBranches (conditionType : String)
  deriving DecidableEq, Repr

def NodeFault.message : NodeFault → String
  | .gateWithoutBranches => "scorecard gate needs at least one branch"
  | .annotationChildren => "annotation node needs exactly one child"
  | .annotationPassing => "annotation must have exactly one child"
  | .missingAttribute conditionType => s!"{conditionType} node needs an attribute"
  | .missingOperator => "binary node needs an operator"
  | .binaryBranches => "binary node needs exactly two branches"
  | .binaryThreshold => "binary node needs a threshold on its first branch"
  | .noConditions => "compound node needs at least one condition"
  | .compoundBranches => "compound node needs exactly two branches"
  | .noBranches conditionType => s!"{conditionType} node needs at least one branch"

inductive TerminalFault where
  | missingReference
  | hasChildren
  deriving DecidableEq, Repr

def TerminalFault.message : TerminalFault → String
  | .missingReference => "missing strategy or assessment reference"
  | .hasChildren => "terminal node cannot have children"

inductive StrategyFault where
  | emptyId
  | emptyBand
  | unboundedBand (band : String)
  | noCutoffs
  | noGate
  deriving DecidableEq, Repr

def StrategyFault.message : StrategyFault → String
  | .emptyId => "strategy id is empty"
  | .emptyBand => "score cutoff has an empty band name"
  | .unboundedBand band => s!"score cutoff '{band}' has a non-finite min_score"
  | .noCutoffs => "scoring mode needs at least one score cutoff"
  | .noGate => "hybrid mode needs a score_gate"

inductive PolicyError where
  | emptyTree
  | noRoot
  | multipleRoots (nodes : List String)
  | duplicateNode (node : String)
  | unknownParent (node parent : String)
  | cycle (node : String)
  /-- A branch has no child and the tree no default strategy. -/
  | danglingBranch (node branch : String)
  | invalidTerminal (node : String) (fault : TerminalFault)
  | unknownAttribute (node field : String)
  | invalidNode (node : String) (fault : NodeFault)
  | unknownStrategy (id : String)
  | unknownAssessment (id : String)
  | invalidStrategy (id : String) (fault : StrategyFault)
  | duplicateRule (id : String)
  deriving DecidableEq, Repr

def PolicyError.message : PolicyError → String
  | .emptyTree => "Decision tree has no nodes"
  | .noRoot => "Decision tree has no root node"
  | .multipleRoots nodes => "Decision tree has more than one root: " ++ ", ".intercalate nodes
  | .duplicateNode node => s!"Duplicate node key: {node}"
  | .unknownParent node parent => s!"Node '{node}' references unknown parent '{parent}'"
  | .cycle node => s!"Cycle detected at node '{node}'"
  | .danglingBranch node branch =>
    s!"Node '{node}' has no child for branch '{branch}' and the tree has no default strategy"
  | .invalidTerminal node fault => s!"Terminal node '{node}' is invalid: {fault.message}"
  | .unknownAttribute node field => s!"Node '{node}' references unknown routing attribute '{field}'"
  | .invalidNode node fault => s!"Node '{node}' is invalid: {fault.message}"
  | .unknownStrategy id => s!"Unknown strategy: {id}"
  | .unknownAssessment id => s!"Unknown assessment: {id}"
  | .invalidStrategy id fault => s!"Strategy '{id}' is invalid: {fault.message}"
  | .duplicateRule id => s!"Duplicate rule id: {id}"

end Lending
