import FeatureAlignment.JsonSchema.Basic

/-!
# Schemas of alignments

The shape of an alignment and of the parts of it that stand alone.

* `JsonSchema.alignment`, `JsonSchema.condition`, `JsonSchema.operand`,
  `JsonSchema.parameters` and `JsonSchema.lookupTable` are the schemas.
-/

namespace FeatureAlignment

namespace JsonSchema

/-- Qualified names. -/
def qname : String × Keywords :=
  ("QName", described "Qualified name in Clark notation: `\x7bnamespace\x7dlocal`, or bare `local`" string)

/-- Literals. -/
def literalValue : String × Keywords :=
  ("LiteralValue", described "A literal; the variant carries its kind"
    (anyOf [[("type", .text "integer"), ("format", .text "int64")],
      [("type", .text "number"), ("format", .text "double")], string]))

/-- Comparison operators. -/
def comparisonOp : String × Keywords :=
  ("ComparisonOp", described "Comparison operators"
    (enumeration ["equal", "not_equal", "less_than", "less_or_equal", "greater_than",
      "greater_or_equal", "contains"]))

/-- The fields of a comparison. -/
def comparison : String × Keywords :=
  ("ComparisonRepr", closed [("left", ref "Operand"), ("negated", boolean), ("op", ref "ComparisonOp"),
    ("right", ref "Operand")] ["left", "op", "right"])

/-- Connectives. -/
def logicalOp : String × Keywords :=
  ("LogicalOp", described "Logical connectives" (enumeration ["and", "or", "not"]))

/-- The fields of a connective over conditions of a schema. -/
def logical (node : Keywords) : String × Keywords :=
  ("LogicalRepr", closed [("children", listOf node), ("op", ref "LogicalOp")] ["op", "children"])

/-- Operands. -/
def operandNode : Keywords :=
  closed [("literal", optionalRef "LiteralValue"), ("property", nullable "string")] []

/-- Conditions. -/
def conditionNode : Keywords :=
  closed [("comparison", optionalRef "ComparisonRepr"), ("literal", optionalRef "LiteralValue"),
    ("logical", optionalRef "LogicalRepr")] []

/-- Lookup tables. -/
def lookupNode : Keywords := mapOf string

/-- Parameters. -/
def parametersNode : Keywords := mapOf (listOf (ref "ParameterValue"))

/-- Structured values of parameters. -/
def complexValue : String × Keywords :=
  ("ComplexValue", described "Structured parameter values"
    (oneOf [closed [("lookup", ref "LookupTable")] ["lookup"],
      closed [("join", ref "JoinParameter")] ["join"]]))

/-- Entities. -/
def entityRef : String × Keywords :=
  ("EntityRef", described "Reference to a type or to a property path within a type"
    (recordType
      [("condition", described "Restriction on the instances this entity applies to"
          (optionalRef "ConditionNode")),
        ("path", described "Steps from the type root; empty for a type entity" (listOf (ref "PathStep"))),
        ("role", described "Role name within the cell (e.g. `var`, `anchor`, `types`)" (nullable "string")),
        ("type", described "Owning type" (ref "QName"))] ["type"]))

/-- Key equalities. -/
def joinCondition : String × Keywords :=
  ("JoinCondition", described "`base` key equals `join` foreign key"
    (recordType [("base", ref "EntityRef"), ("join", ref "EntityRef")] ["base", "join"]))

/-- Join specifications. -/
def joinParameter : String × Keywords :=
  ("JoinParameter", described "Join specification"
    (recordType
      [("conditions", described "Key equalities, planned in order" (listOf (ref "JoinCondition"))),
        ("types", described "Participating source types, base type first" (listOf (ref "QName")))]
      ["types", "conditions"]))

/-- Values of parameters. -/
def parameterValue : String × Keywords :=
  ("ParameterValue", described "A parameter value: a literal or a structured value"
    (anyOf [ref "LiteralValue", ref "ComplexValue"]))

/-- Steps of paths. -/
def pathStep : String × Keywords :=
  ("PathStep", described "One child step of a property path"
    (recordType
      [("condition", described "Guard selecting among repeated or choice elements"
          (optionalRef "ConditionNode")),
        ("index", described "Zero-based repetition index"
          (nullable "integer" ++ [("format", .text "uint"), ("minimum", .integer 0)])),
        ("name", ref "QName")] ["name"]))

/-- Cells. -/
def cell : String × Keywords :=
  ("Cell", described "One mapping rule"
    (recordType
      [("function", described "Transformation function identifier (e.g. `retype`, `rename`)" string),
        ("id", string), ("parameters", ref "Parameters"), ("source", listOf (ref "EntityRef")),
        ("target", listOrNone (ref "EntityRef"))] ["id", "function"]))

/-- The definitions that parameters refer to. -/
def parameterDefinitions : List (String × Keywords) :=
  [comparisonOp, comparison, complexValue, ("ConditionNode", conditionNode), entityRef, joinCondition,
    joinParameter, literalValue, logicalOp, logical (ref "ConditionNode"), ("LookupTable", lookupNode),
    ("Operand", operandNode), parameterValue]

/-- **The schema of alignments.** -/
def alignment : Data :=
  document "Alignment"
    (described "A complete alignment"
      (recordType
        [("cells", described "Cells in caller order" (listOrNone (ref "Cell"))),
          ("id", described "Optional alignment identifier" (nullable "string"))] []))
    ([cell] ++ parameterDefinitions ++ [("Parameters", parametersNode), pathStep, qname])

/-- **The schema of conditions.** -/
def condition : Data :=
  document "ConditionNode" conditionNode
    [comparisonOp, comparison, literalValue, logicalOp, logical whole, ("Operand", operandNode)]

/-- **The schema of operands.** -/
def operand : Data := document "Operand" operandNode [literalValue]

/-- **The schema of parameters.** -/
def parameters : Data :=
  document "Parameters" parametersNode (parameterDefinitions ++ [pathStep, qname])

/-- **The schema of lookup tables.** -/
def lookupTable : Data := document "LookupTable" lookupNode []

end JsonSchema

end FeatureAlignment
