/-!
# Command line arguments

Arguments are positional or flags. A flag begins with a hyphen; some flags take
the argument behind them as their value.

* `Arguments.positional` are the arguments that are neither flags nor values.
* `Arguments.value?` is the value of a flag, at its first occurrence.
-/

namespace FeatureAlignment

namespace Arguments

/-- The flags that take a value. -/
def valueFlags : List String := ["--config", "--format", "--output", "-o", "--template-dir"]

/-- Whether an argument is a flag. -/
def isFlag (argument : String) : Bool := argument.toList.head? == some '-'

/-- **The positional arguments**, flags and their values left out. -/
def positional : List String → List String
  | [] => []
  | [a] => if isFlag a then [] else [a]
  | a :: b :: rest =>
    if valueFlags.contains a then positional rest
    else if isFlag a then positional (b :: rest)
    else a :: positional (b :: rest)

/-- **The value of a flag**: what stands behind its first occurrence. -/
def value? (flag : String) : List String → Option String
  | [] => none
  | a :: rest => if a = flag then rest.head? else value? flag rest

/-- The file to write to. -/
def output? (arguments : List String) : Option String :=
  (value? "--output" arguments).or (value? "-o" arguments)

end Arguments

end FeatureAlignment
