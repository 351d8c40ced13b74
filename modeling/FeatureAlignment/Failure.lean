import FeatureAlignment.Function
import FeatureAlignment.Literal
import FeatureAlignment.QName

/-!
# Failures

Everything that can go wrong, as a cause. What is said about it, and under which
kind a report lists it, are functions of the cause.

* `Failure` is the cause, `Failure.message` its text, `Failure.kind` its kind.
* The faults below it say what exactly is wrong with a condition, a parameter, a
  cell, a join key or a configuration.
-/

namespace FeatureAlignment

/-- **Kinds of failure** in a report. -/
inductive FailureKind
  | unresolvedPath
  | unresolvedJoinKey
  | unlinkedFeatureType
  | unknownType
  | unsupportedFunction
  | configuration
  | ordering
  | dependencyFailed
  | internal
  deriving DecidableEq, Repr

namespace FailureKind

/-- The kind in the text of a report. -/
def words : FailureKind → String
  | .unresolvedPath => "unresolved path"
  | .unresolvedJoinKey => "unresolved join key"
  | .unlinkedFeatureType => "unlinked feature type"
  | .unknownType => "unknown type"
  | .unsupportedFunction => "unsupported function"
  | .configuration => "configuration"
  | .ordering => "ordering"
  | .dependencyFailed => "dependency failed"
  | .internal => "internal"

/-- The kind in documents. -/
def name : FailureKind → String
  | .unresolvedPath => "unresolved_path"
  | .unresolvedJoinKey => "unresolved_join_key"
  | .unlinkedFeatureType => "unlinked_feature_type"
  | .unknownType => "unknown_type"
  | .unsupportedFunction => "unsupported_function"
  | .configuration => "configuration"
  | .ordering => "ordering"
  | .dependencyFailed => "dependency_failed"
  | .internal => "internal"

/-- All kinds. -/
def all : List FailureKind :=
  [.unresolvedPath, .unresolvedJoinKey, .unlinkedFeatureType, .unknownType, .unsupportedFunction,
    .configuration, .ordering, .dependencyFailed, .internal]

end FailureKind

/-- **What is wrong with a condition.** -/
inductive ConditionFault
  | negatesMany (children : Nat)
  | noChildren (connective : String)
  | notFinite (literal : Literal)
  | containsNumber
  deriving BEq, Repr

/-- The text of a fault of a condition. -/
def ConditionFault.message : ConditionFault → String
  | .negatesMany n => "Not takes exactly one child, got " ++ Text.natural n
  | .noChildren connective => connective ++ " without children"
  | .notFinite l => "non-finite literal " ++ l.display
  | .containsNumber => "contains compares strings only"

/-- **What is wrong with a parameter.** -/
inductive ParameterFault
  | unboundPlaceholder (name : String)
  | unknownAction (text : String)
  | notALookup
  | emptyLookup
  | keyNotFinite (key : Literal)
  | emptyExpression
  | notAJoin
  | joinWithoutTypes
  | joinWithoutConditions
  deriving BEq, Repr

/-- The text of a fault of a parameter. -/
def ParameterFault.message : ParameterFault → String
  | .unboundPlaceholder name => "placeholder \x7b" ++ name ++ "\x7d has no bound variable"
  | .unknownAction text =>
    "unrecognised action '" ++ text ++ "', expected source, null or fixed:<value>"
  | .notALookup => "expected a lookup table"
  | .emptyLookup => "lookup table is empty"
  | .keyNotFinite key => "lookup key " ++ key.display ++ " is not a finite number"
  | .emptyExpression => "expression is empty"
  | .notAJoin => "expected a join specification"
  | .joinWithoutTypes => "join names no types"
  | .joinWithoutConditions => "join has no conditions"

/-- **What is wrong with a cell.** -/
inductive CellFault
  | noTarget
  | noSource
  | notWholeTypes
  | otherTypeCell (target : QName) (typeCell : String) (established : QName)
  | noSourceType
  | endsAtFeature
  deriving BEq, Repr

/-- The text of a fault of a cell. -/
def CellFault.message : CellFault → String
  | .noTarget => "cell has no target"
  | .noSource => "cell has no source"
  | .notWholeTypes => "retype relates whole types"
  | .otherTypeCell target typeCell established =>
    "targets " ++ target.text ++ " but type cell " ++ typeCell ++ " establishes " ++ established.text
  | .noSourceType => "type cell has no source type"
  | .endsAtFeature => "path ends at a nested feature element; map it through a join"

/-- What is said of a type that a schema does not have. -/
def unknownTypeText (type : QName) : String := "Unknown type: " ++ type.text

/-- What is said of a step that is not among the children at a path. -/
def unresolvedPathText (type path step : String) : String :=
  "Unresolved schema path: '" ++ step ++ "' is not a child at " ++ type ++ "/" ++ path

/-- **What is wrong with the key of a join.** -/
inductive KeyFault
  | unknownType (type : QName)
  | unresolved (type path step : String)
  | notJoined (type : QName)
  | notInChain (type : QName)
  | notNested (nested container : QName)
  deriving BEq, Repr

/-- The text of a fault of a join key. -/
def KeyFault.message : KeyFault → String
  | .unknownType type => unknownTypeText type
  | .unresolved type path step => unresolvedPathText type path step
  | .notJoined type => type.text ++ " is not one of the joined types"
  | .notInChain type => "base type " ++ type.text ++ " is not yet part of the join chain"
  | .notNested nested container =>
    "cannot determine where " ++ nested.text ++ " is nested in " ++ container.text

/-- **What is wrong with a configuration.** -/
inductive ConfigFault
  | unreadable
  | emptyLinkField
  | invalidPrefix (uri : String)
  | unknownFormat (text : String)
  deriving BEq, Repr

/-- The text of a fault of a configuration. -/
def ConfigFault.message : ConfigFault → String
  | .unreadable => "Failed to parse config"
  | .emptyLinkField => "link_field_prefix cannot be empty"
  | .invalidPrefix uri => "Invalid prefix configured for " ++ uri
  | .unknownFormat text => "Unknown output format '" ++ text ++ "'. Use xml, json or yaml"

/-- **What the file system refuses.** -/
inductive FileFault
  | missing
  | isDirectory
  | notDirectory
  deriving DecidableEq, Repr

/-- The text of a refusal of the file system. -/
def FileFault.message : FileFault → String
  | .missing => "No such file or directory (os error 2)"
  | .isDirectory => "Is a directory (os error 21)"
  | .notDirectory => "Not a directory (os error 20)"

/-- **A failure**, as its cause. -/
inductive Failure
  | unresolvedPath (type path step : String)
  | unresolvedJoinKey (cell : String) (fault : KeyFault)
  | unlinkedFeatureType (container nested : QName)
  | unknownType (type : QName)
  | unknownFunction (name : String)
  | unsupportedCapability (function : String) (capability : Capability)
  | missingParameter (function parameter : String)
  | invalidParameter (function parameter : String) (fault : ParameterFault)
  | invalidCell (cell : String) (fault : CellFault)
  | invalidCondition (fault : ConditionFault)
  | missingTypeCell (cell : String)
  | dependencyFailed (cell typeCell : String)
  | config (fault : ConfigFault)
  | template
  | file (fault : FileFault)
  | yaml
  | json
  | noMapping (type : QName)
  | noLinkAttribute (key : String)
  | other (text : String)
  deriving BEq, Repr

namespace Failure

/-- **The text of a failure.** -/
def message : Failure → String
  | .unresolvedPath type path step => unresolvedPathText type path step
  | .unresolvedJoinKey cell fault => "Unresolved join key in " ++ cell ++ ": " ++ fault.message
  | .unlinkedFeatureType container nested =>
    "Path crosses from " ++ container.text ++ " into " ++ nested.text ++ " without a join linking them"
  | .unknownType type => unknownTypeText type
  | .unknownFunction name => "Unknown transformation function: " ++ name
  | .unsupportedCapability function capability =>
    "Function '" ++ function ++ "' does not support " ++ capability.word ++ " transformation"
  | .missingParameter function parameter => "Missing parameter '" ++ parameter ++ "' for " ++ function
  | .invalidParameter function parameter fault =>
    "Invalid parameter '" ++ parameter ++ "' for " ++ function ++ ": " ++ fault.message
  | .invalidCell cell fault => "Invalid cell " ++ cell ++ ": " ++ fault.message
  | .invalidCondition fault => "Invalid condition: " ++ fault.message
  | .missingTypeCell cell => "No type cell establishes the target of " ++ cell
  | .dependencyFailed cell typeCell => "Cell " ++ cell ++ " depends on failed type cell " ++ typeCell
  | .config fault => "Config error: " ++ fault.message
  | .template => "Template error"
  | .file fault => "IO error: " ++ fault.message
  | .yaml => "YAML error"
  | .json => "JSON error"
  | .noMapping type => "no feature type mapping for " ++ type.text
  | .noLinkAttribute key => "link attribute " ++ key ++ " missing"
  | .other text => text

/-- **The kind of a failure** in a report. -/
def kind : Failure → FailureKind
  | .unresolvedPath _ _ _ => .unresolvedPath
  | .unresolvedJoinKey _ _ => .unresolvedJoinKey
  | .unlinkedFeatureType _ _ => .unlinkedFeatureType
  | .unknownType _ => .unknownType
  | .unknownFunction _ => .unsupportedFunction
  | .unsupportedCapability _ _ => .unsupportedFunction
  | .missingParameter _ _ => .configuration
  | .invalidParameter _ _ _ => .configuration
  | .invalidCell _ _ => .configuration
  | .invalidCondition _ => .configuration
  | .missingTypeCell _ => .ordering
  | .dependencyFailed _ _ => .dependencyFailed
  | _ => .internal

end Failure

end FeatureAlignment
