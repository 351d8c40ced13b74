import FeatureAlignment.Cell.Placement
import FeatureAlignment.Compilation.Report
import FeatureAlignment.Document.Codec

/-!
# Compiling alignments

An alignment is compiled cell by cell into a registry. Type cells establish the
mappings of target types; a property cell belongs to the first type cell that
covers it. A cell that fails is reported, and the others go on.

* `Alignment.owningTypeCell` is the type cell of a property cell.
* `Environment.compileCell` compiles one cell in a `Progress`.
* `Alignment.compile` takes type cells first, `Alignment.compileInOrder` all cells
  as they come.
-/

namespace FeatureAlignment

namespace Cell

/-- Whether a type cell covers a property cell with this target type: it has the same
target type, and its sources have all the types that the cell reads. -/
def covers (typeCell : Cell) (type : QName) (c : Cell) : Bool :=
  (typeCell.target.head?.map Entity.type == some type) &&
    c.sourceTypes.all (fun t => typeCell.sourceTypes.contains t)

end Cell

/-- **The type cell of a property cell**: the first one that covers it. -/
def Alignment.owningTypeCell (a : Alignment) (c : Cell) : Except Failure Cell := do
  let target ← c.targetEntity
  match (a.cells.filter Cell.isTypeCell).find? (fun t => t.covers target.type c) with
  | some t => return t
  | none => throw (.missingTypeCell c.id)

/-- **How far a compilation has come**: the registry, the identifiers of type cells
that succeeded and that failed, the report so far, and whether it has ended before
its time. -/
structure Progress where
  registry : Registry
  established : List String
  failed : List String
  report : Report
  stopped : Bool
  deriving DecidableEq, Repr

namespace Progress

/-- The beginning. -/
def start : Progress := ⟨.empty, [], [], .empty, false⟩

/-- The cells compiled so far. -/
abbrev compiled (p : Progress) : List String := p.report.compiled

/-- The cells failed so far. -/
abbrev failures (p : Progress) : List CellFailure := p.report.failures

end Progress

/-- A function by its name, which has to be known. -/
def Function.require (name : String) : Except Failure Function :=
  match Function.ofName? name with
  | some f => .ok f
  | none => .error (.unknownFunction name)

namespace Environment

/-- **Compiling a type cell.** -/
def compileType (env : Environment) (c : Cell) : Build Unit := do
  let f ← Function.require c.function
  let _ ← c.establish env f

/-- **The type cell that a property cell can use**: its type cell, which has been
compiled and has not failed. -/
def usableTypeCell (a : Alignment) (p : Progress) (c : Cell) : Except Failure Cell := do
  let t ← a.owningTypeCell c
  if p.failed.contains t.id then throw (.dependencyFailed c.id t.id)
  if !p.established.contains t.id then throw (.missingTypeCell c.id)
  return t

/-- **Compiling a property cell.** -/
def compileProperty (env : Environment) (a : Alignment) (p : Progress) (c : Cell) : Build Unit := do
  let f ← Function.require c.function
  if !f.supports .propertyTransformation then
    throw (.unsupportedCapability c.function .propertyTransformation)
  let t ← usableTypeCell a p c
  let _ ← c.fill env t f

/-- What compiling a cell comes to, and the registry afterwards. -/
def outcome (env : Environment) (a : Alignment) (p : Progress) (c : Cell) :
    Except Failure Unit × Registry :=
  if c.isTypeCell then (env.compileType c).run.run p.registry
  else (env.compileProperty a p c).run.run p.registry

/-- The report of a failure. -/
def report (c : Cell) (failure : Failure) : CellFailure := ⟨c.id, c.function, failure.kind, failure.message⟩

/-- **Compiling one cell.** A failure is noted, and ends the compilation if so
configured. -/
def compileCell (env : Environment) (a : Alignment) (p : Progress) (c : Cell) : Progress :=
  if p.stopped then p
  else
    match env.outcome a p c with
    | (.ok (), registry) =>
      { p with
        registry := registry
        established := if c.isTypeCell then c.id :: p.established else p.established
        report := p.report.recordCompiled c.id }
    | (.error failure, registry) =>
      { p with
        registry := registry
        failed := if c.isTypeCell then c.id :: p.failed else p.failed
        report := p.report.recordFailure (report c failure)
        stopped := env.config.failFast }

/-- Compiling cells one after the other. -/
def compileCells (env : Environment) (a : Alignment) (cells : List Cell) : Progress :=
  cells.foldl (env.compileCell a) .start

end Environment

/-- **What a compilation produces.** -/
structure Compilation where
  document : MappingDocument
  report : Report
  deriving DecidableEq, Repr

/-- The product of a compilation that has come to its end: the warnings and the fingerprint
are reported last. -/
def Progress.finish (p : Progress) : Compilation :=
  let document := p.registry.document
  ⟨document, { p.report with warnings := p.registry.warnings, fingerprint := document.fingerprint }⟩

namespace Alignment

/-- The cells with type cells before property cells. -/
def typesFirst (a : Alignment) : List Cell :=
  a.cells.filter Cell.isTypeCell ++ a.cells.filter (fun c => !c.isTypeCell)

/-- What the compilation of an alignment reads. -/
def environment (a : Alignment) (source target : SchemaIndex) (config : Config) : Environment :=
  ⟨source, target, config, some a⟩

/-- **Compiling an alignment**, type cells first. -/
def compile (a : Alignment) (source target : SchemaIndex) (config : Config) : Compilation :=
  ((a.environment source target config).compileCells a a.typesFirst).finish

/-- **Compiling an alignment in the order of its cells**: a property cell before its
type cell fails. -/
def compileInOrder (a : Alignment) (source target : SchemaIndex) (config : Config) : Compilation :=
  ((a.environment source target config).compileCells a a.cells).finish

end Alignment

end FeatureAlignment
